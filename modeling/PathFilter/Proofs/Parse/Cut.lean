import PathFilter.Proofs.Context.Table
import PathFilter.Proofs.Parse.Pulls

/-! A parser whose stream is cut off.

A stream that lists only the first of some items is one that breaks off behind them. If a
parser would have moved on, the end of the stream is its error, right there (`cut_short`);
if it would have come to an end before, it never knows (`cut_late`). A replay breaks off
where its context is cancelled or where it shows no item, whichever comes first, and
nowhere else before the items have run out (`Replay.lists_cut`). -/
namespace PathFilter

/-! ### Streams that break off -/

theorem upToEnd_append_of_mem {tokens : List Token} (h : Token.endOfInput ∈ tokens)
    (rest : List Token) : upToEnd (tokens ++ rest) = upToEnd tokens := by
  induction tokens with
  | nil => contradiction
  | cons token tokens ih =>
    rw [List.cons_append, upToEnd, upToEnd]
    by_cases htoken : token = .endOfInput
    · rw [if_pos htoken, if_pos htoken]
    · rw [if_neg htoken, if_neg htoken, ih ((List.mem_cons.1 h).resolve_left (Ne.symm htoken))]

section streams
variable {σ τ : Type} [TokenStream σ] [TokenStream τ] {cut : σ} {whole : τ} {items : List Item}
  {e err : ParseError} {k : Nat}

theorem length_pulls (h : Lists whole items e) :
    (pulls whole).length = Stand.reads .filter items := by
  have := Stand.reads_le .filter items
  rw [pulls_eq h, List.length_take, List.length_append, List.length_map, List.length_singleton]
  omega

/-- A stream that breaks off before a move that a parser would make is cut off there. -/
theorem cut_short (h : Lists cut (items.take k) e) (hwhole : Lists whole items err)
    (hk : k < (pulls whole).length) :
    (build cut).1 = .error e ∧ pulls cut = (pulls whole).take k ++ [none] := by
  have hreads := Stand.reads_le .filter items
  rw [length_pulls hwhole] at hk
  have hle : k ≤ items.length := by omega
  have hcut : Stand.reads .filter (items.take k) = k + 1 := by
    rw [Stand.reads_take]
    omega
  have hlength : (items.take k).length = k := List.length_take_of_le hle
  have hall : ((items.take k).map some ++ [none]).length = k + 1 := by
    rw [List.length_append, List.length_map, hlength, List.length_singleton]
  refine ⟨build_of_fault h (Stand.fault_of_length_lt (by omega)), ?_⟩
  rw [pulls_eq h, pulls_eq hwhole, hcut, List.take_of_length_le (Nat.le_of_eq hall),
    List.take_take, Nat.min_eq_left (Nat.le_of_lt hk),
    List.take_append_of_le_length (by rwa [List.length_map]), List.map_take]

/-- A stream that breaks off behind the last move that a parser makes is as good as whole. -/
theorem cut_late (h : Lists cut (items.take k) e) (hwhole : Lists whole items err)
    (hk : (pulls whole).length ≤ k) (hle : k ≤ items.length) :
    (build cut).1 = (build whole).1 ∧ pulls cut = pulls whole := by
  rw [length_pulls hwhole] at hk
  constructor
  · rcases build_outcome h with ⟨d, hd, hok⟩ | ⟨fault, hfault, herr⟩
    · have hend : Token.endOfInput ∈ (items.take k).map Item.token := by
        obtain ⟨rest, hrest⟩ := exists_upToEnd_append ((items.take k).map Item.token)
        rw [hrest, hd, Grammar.Pipe.sentence]
        simp
      have hsentence := upToEnd_append_of_mem hend ((items.drop k).map Item.token)
      rw [← List.map_append, List.take_append_drop, hd] at hsentence
      rw [hok, build_of_sentence hwhole hsentence]
    · rw [Stand.fault_take hk hle] at hfault
      rw [herr, build_of_fault hwhole hfault]
  · rw [pulls_eq h, pulls_eq hwhole, Stand.reads_take, Nat.min_eq_left (by omega), List.map_take,
      List.take_append_of_le_length (by rw [List.length_take, List.length_map]; omega),
      List.take_take, Nat.min_eq_left hk,
      List.take_append_of_le_length (by rw [List.length_map]; omega)]

end streams

/-! ### Replays that break off -/

namespace Replay

/-- A list of items that is replayed from its beginning, with the faults to play. -/
def ofItems (contexts : Contexts) (context : Context) (items : List Item)
    (cancelAt holeAt : Option Nat) : Replay :=
  ⟨items, none, contexts, context, 0, cancelAt, holeAt⟩

variable {contexts : Contexts} {context : Context} {items : List Item} {item : Item}
  {current : Option Item} {moves k j n : Nat} {cancelAt holeAt : Option Nat}

section moves
variable (live : contexts.stop? context = none)
include live

theorem isDone_eq_false : contexts.isDone context = false := by
  rw [Contexts.isDone, live]
  rfl

/-- A move at which no fault is to be played. -/
theorem advance_cons (hk : cancelAt ≠ some moves) (hj : holeAt ≠ some moves) :
    advance ⟨item :: items, current, contexts, context, moves, cancelAt, holeAt⟩ =
      (true, ⟨items, some item, contexts, context, moves + 1, cancelAt, holeAt⟩) := by
  simp [advance, sabotage, shift, isDone_eq_false live, hk, hj]

/-- Behind the last item no move succeeds. -/
theorem lists_nil (hk : cancelAt ≠ some moves) (hj : holeAt ≠ some moves) :
    Lists (Replay.mk [] current contexts context moves cancelAt holeAt) [] .streamClosed := by
  have hmove : advance ⟨[], current, contexts, context, moves, cancelAt, holeAt⟩ =
      (false, ⟨[], none, contexts, context, moves + 1, cancelAt, holeAt⟩) := by
    simp [advance, sabotage, shift, isDone_eq_false live, hk, hj]
  have hend := Lists.refused (σ := Replay) hmove
  change Lists _ [] (TokenStream.ending (contexts.stop? context)) at hend
  rwa [live] at hend

/-- Nothing is listed at the move that shows no item. -/
theorem lists_hole (hk : cancelAt ≠ some moves) :
    Lists (Replay.mk items current contexts context moves cancelAt (some moves)) []
      .streamClosed := by
  have hmove : advance ⟨items, current, contexts, context, moves, cancelAt, some moves⟩ =
      (true, ⟨items, none, contexts, context, moves + 1, cancelAt, some moves⟩) := by
    simp [advance, sabotage, shift, isDone_eq_false live, hk]
  exact .hole hmove rfl

omit live in
/-- Nothing is listed at the move before which the context is cancelled. -/
theorem lists_cancelled (armed : contexts.trigger context = .armed) :
    Lists (Replay.mk items current contexts context moves (some moves) holeAt) []
      (.stopped .canceled) := by
  have hstop := Contexts.stop?_cancel_self armed
  have hmove : advance ⟨items, current, contexts, context, moves, some moves, holeAt⟩ =
      (false, ⟨items, current, contexts.cancel context, context, moves, some moves, holeAt⟩) := by
    simp [advance, sabotage, Contexts.isDone, hstop]
  have hend := Lists.refused (σ := Replay) hmove
  change Lists _ [] (TokenStream.ending ((contexts.cancel context).stop? context)) at hend
  rwa [hstop] at hend

/-- Up to the first fault that is to be played, the items are listed one by one. -/
theorem lists_behind {e : ParseError} (hn : n ≤ items.length)
    (hk : ∀ k ∈ cancelAt, moves + n ≤ k) (hj : ∀ j ∈ holeAt, moves + n ≤ j)
    (h : ∀ current, Lists (Replay.mk (items.drop n) current contexts context (moves + n)
      cancelAt holeAt) [] e) :
    Lists (Replay.mk items current contexts context moves cancelAt holeAt) (items.take n) e := by
  induction n generalizing items current moves with
  | zero => exact h current
  | succ n ih =>
    cases items with
    | nil => contradiction
    | cons item items =>
      have hcancel : cancelAt ≠ some moves := fun heq => absurd (hk _ heq) (by omega)
      have hhole : holeAt ≠ some moves := fun heq => absurd (hj _ heq) (by omega)
      have hnext : moves + (n + 1) = moves + 1 + n := by omega
      rw [hnext] at hk hj h
      exact .item (advance_cons live hcancel hhole) rfl (ih (by simpa using hn) hk hj h)

end moves

/-- Of two faults to be played, one comes first, unless the items run out before. -/
theorem first_fault (n : Nat) (cancelAt holeAt : Option Nat) :
    (∃ k, cancelAt = some k ∧ k ≤ n ∧ ∀ j ∈ holeAt, k ≤ j) ∨
      (∃ j, holeAt = some j ∧ j ≤ n ∧ ∀ k ∈ cancelAt, j < k) ∨
      ((∀ k ∈ cancelAt, n < k) ∧ ∀ j ∈ holeAt, n < j) := by
  cases cancelAt <;> cases holeAt <;> simp <;> omega

/-- **A replay breaks off at the first fault that it plays**, if the items last so long. When
both come at once, it is the cancellation. -/
theorem lists_cut (live : contexts.stop? context = none) (cancelAt holeAt : Option Nat)
    (armed : cancelAt ≠ none → contexts.trigger context = .armed) (items : List Item) :
    (∃ k, cancelAt = some k ∧ k ≤ items.length ∧ (∀ j ∈ holeAt, k ≤ j) ∧
      Lists (ofItems contexts context items cancelAt holeAt) (items.take k)
        (.stopped .canceled)) ∨
    (∃ j, holeAt = some j ∧ j ≤ items.length ∧ (∀ k ∈ cancelAt, j < k) ∧
      Lists (ofItems contexts context items cancelAt holeAt) (items.take j) .streamClosed) ∨
    ((∀ k ∈ cancelAt, items.length < k) ∧ (∀ j ∈ holeAt, items.length < j) ∧
      Lists (ofItems contexts context items cancelAt holeAt) items .streamClosed) := by
  rcases first_fault items.length cancelAt holeAt with
    ⟨k, rfl, hle, hj⟩ | ⟨j, rfl, hle, hk⟩ | ⟨hk, hj⟩
  · refine .inl ⟨k, rfl, hle, hj, lists_behind live hle (by simp) (by simpa using hj) ?_⟩
    intro current
    rw [Nat.zero_add]
    exact lists_cancelled (armed nofun)
  · refine .inr (.inl ⟨j, rfl, hle, hk, lists_behind live hle ?_ (by simp) ?_⟩)
    · intro k hmem
      have := hk k hmem
      omega
    · intro current
      rw [Nat.zero_add]
      exact lists_hole live fun heq => absurd (hk _ heq) (by omega)
  · have hlists : Lists (ofItems contexts context items cancelAt holeAt)
        (items.take items.length) .streamClosed := by
      refine lists_behind live (Nat.le_refl _) ?_ ?_ ?_
      · intro k hmem
        have := hk k hmem
        omega
      · intro j hmem
        have := hj j hmem
        omega
      · intro current
        rw [Nat.zero_add, List.drop_length]
        exact lists_nil live (fun heq => absurd (hk _ heq) (by omega))
          fun heq => absurd (hj _ heq) (by omega)
    rw [List.take_length] at hlists
    exact .inr (.inr ⟨hk, hj, hlists⟩)

end Replay

/-- **Cancellation and faulty streams cut a build cleanly.** Let `m` be the number of moves
that a parser makes when the items are replayed under a live context and no fault is played.
If the context is cancelled before a move of a smaller number, and no move was to show nothing
before that, the parser is stopped there; if a move of a smaller number shows nothing and the
context was not to be cancelled by then, the stream counts as closed there. In both cases that
is the parser's last move, and those before it are as they would have been. Of faults behind
the `m` moves nothing is noticed. And whatever happens, a move that shows nothing is the last,
and no query comes of it. -/
theorem build_cut {contexts : Contexts} {context : Context} (live : contexts.stop? context = none)
    (cancelAt holeAt : Option Nat) (armed : cancelAt ≠ none → contexts.trigger context = .armed)
    (items : List Item) :
    let whole := Replay.ofItems contexts context items none none
    let cut := Replay.ofItems contexts context items cancelAt holeAt
    let m := (pulls whole).length
    (∀ k, cancelAt = some k → k < m → (∀ j ∈ holeAt, k ≤ j) →
      (build cut).1 = .error (.stopped .canceled) ∧
        pulls cut = (pulls whole).take k ++ [none]) ∧
    (∀ j, holeAt = some j → j < m → (∀ k ∈ cancelAt, j < k) →
      (build cut).1 = .error .streamClosed ∧ pulls cut = (pulls whole).take j ++ [none]) ∧
    ((∀ k ∈ cancelAt, m ≤ k) → (∀ j ∈ holeAt, m ≤ j) →
      (build cut).1 = (build whole).1 ∧ pulls cut = pulls whole) ∧
    ∀ shown rest, pulls cut = shown ++ none :: rest →
      rest = [] ∧ ∃ e, (build cut).1 = .error e := by
  intro whole cut m
  have hwhole : Lists whole items .streamClosed := Replay.lists live items 0 none
  have hm : m ≤ items.length + 1 := by
    have hreads : m = Stand.reads .filter items := length_pulls hwhole
    rw [hreads]
    exact Stand.reads_le _ _
  refine ⟨?_, ?_, ?_, fun shown rest => failed_pull⟩
  · rintro k rfl hlt hj
    rcases Replay.lists_cut live (some k) holeAt armed items with
      ⟨k', hk', -, -, hcut⟩ | ⟨j, rfl, -, hk, -⟩ | ⟨hk, -⟩
    · obtain rfl := Option.some.inj hk'
      exact cut_short hcut hwhole hlt
    · have := hj j rfl
      have := hk k rfl
      omega
    · have := hk k rfl
      omega
  · rintro j rfl hlt hk
    rcases Replay.lists_cut live cancelAt (some j) armed items with
      ⟨k, rfl, -, hj, -⟩ | ⟨j', hj', -, -, hcut⟩ | ⟨-, hj, -⟩
    · have := hj j rfl
      have := hk k rfl
      omega
    · obtain rfl := Option.some.inj hj'
      exact cut_short hcut hwhole hlt
    · have := hj j rfl
      omega
  · intro hk hj
    rcases Replay.lists_cut live cancelAt holeAt armed items with
      ⟨k, rfl, hle, -, hcut⟩ | ⟨j, rfl, hle, -, hcut⟩ | ⟨-, -, hcut⟩
    · exact cut_late hcut hwhole (hk k rfl) hle
    · exact cut_late hcut hwhole (hj j rfl) hle
    · exact ⟨build_congr hcut hwhole, (pulls_eq hcut).trans (pulls_eq hwhole).symm⟩

/-- A cancellation and a hole at the same move, the second of two. -/
theorem build_cut_by_both :
    (build (Replay.ofItems ⟨[⟨.armed, none⟩], 0, []⟩ ⟨0⟩ [⟨.period, 0, 1⟩, ⟨.endOfInput, 1, 1⟩]
      (some 1) (some 1))).1 = .error (.stopped .canceled) ∧
    pulls (Replay.ofItems ⟨[⟨.armed, none⟩], 0, []⟩ ⟨0⟩ [⟨.period, 0, 1⟩, ⟨.endOfInput, 1, 1⟩]
      (some 1) (some 1)) = [some ⟨.period, 0, 1⟩, none] := by
  have live : Contexts.stop? ⟨[⟨.armed, none⟩], 0, []⟩ ⟨0⟩ = none := by decide
  have hwhole : Lists (Replay.ofItems ⟨[⟨.armed, none⟩], 0, []⟩ ⟨0⟩
      [⟨.period, 0, 1⟩, ⟨.endOfInput, 1, 1⟩] none none) _ .streamClosed := Replay.lists live _ _ _
  have hcut := build_cut live (some 1) (some 1) (fun _ => by decide)
    [⟨.period, 0, 1⟩, ⟨.endOfInput, 1, 1⟩]
  obtain ⟨herr, hpulls⟩ := hcut.1 1 rfl (by rw [pulls_eq hwhole]; decide) (by simp)
  refine ⟨herr, hpulls.trans ?_⟩
  rw [pulls_eq hwhole]
  rfl

end PathFilter
