import PathFilter.Proofs.Lexer.Lookahead
import PathFilter.Proofs.Reader.Decoding
import PathFilter.Proofs.Stream.Drivers

/-! How long the lexer works.

A loop is its turns, one after another, until one has nothing to go on with (`Halts`), and
a loop whose turns lessen something ends (`exists_halts`). Every turn over a run of
characters consumes one of them. Not every state consumes something: an expression leads
to a filter in front of the same period, and a period on its own back to an expression. But
of two states in a row one does, so each byte is worth two states and one more is needed to
find the end (`State.most`). Every item but the last shows some text. -/
namespace PathFilter
open Lexer

/-! ### Turns of a loop -/

section
variable {α β : Type} {turn : α → Option α} {a b last : α} {n : Nat}

/-- So many turns lead from one to the other. -/
inductive Turns (turn : α → Option α) : Nat → α → α → Prop where
  | stay {a : α} : Turns turn 0 a a
  | more {n : Nat} {a b last : α} (h : turn a = some b) (rest : Turns turn n b last) :
      Turns turn (n + 1) a last

/-- A loop that is begun at one ends at the other, after at most so many turns. -/
def Halts (turn : α → Option α) (most : Nat) (a last : α) : Prop :=
  ∃ n ≤ most, Turns turn n a last ∧ turn last = none

/-- **A loop ends whose turns lessen something.** -/
theorem exists_halts {P : α → Prop} {size : α → Nat}
    (h : ∀ a b, P a → turn a = some b → P b ∧ size b < size a) (ha : P a) :
    ∃ last, Halts turn (size a) a last := by
  induction hn : size a using Nat.strongRecOn generalizing a with
  | ind n ih =>
    subst hn
    cases hturn : turn a with
    | none => exact ⟨a, 0, Nat.zero_le _, .stay, hturn⟩
    | some b =>
      obtain ⟨hb, hlt⟩ := h a b ha hturn
      obtain ⟨last, n, hle, hturns, hlast⟩ := ih (size b) hlt hb rfl
      exact ⟨last, n + 1, Nat.lt_of_le_of_lt hle hlt, .more hturn hturns, hlast⟩

/-- What no turn changes is the same at the end. -/
theorem Turns.invariant (f : α → β) (h : ∀ a b, turn a = some b → f b = f a)
    (hturns : Turns turn n a last) : f last = f a := by
  induction hturns with
  | stay => rfl
  | more hturn rest ih => rw [ih, h _ _ hturn]

end

/-! ### Runs of characters -/

namespace Reader
variable {p : Char → Bool} {r after : Reader} {c : Char}

theorem left_pos_of_read (h : r.read.1 = .ok c) : 0 < r.left :=
  Nat.lt_of_le_of_lt (Nat.zero_le _) (left_read_lt h)

/-- One turn over a run of characters: a character of the class is consumed. -/
def pass (p : Char → Bool) (r : Reader) : Option Reader :=
  match r.peek.1 with
  | .ok c => if p c then some r.peek.2.read.2 else none
  | .error _ => none

/-- A turn consumes a character, and the rest of the run is left to the next. -/
theorem skipWhile_of_pass (h : r.pass p = some after) :
    r.skipWhile p = after.skipWhile p ∧ after.left < r.left := by
  unfold pass at h
  split at h
  · next c hc =>
    split at h
    · next hp =>
      obtain rfl := Option.some.inj h
      have hread : r.peek.2.read.1 = .ok c := r.read_peek.trans hc
      exact ⟨by rw [skipWhile_of_ok hc, if_pos hp], r.left_peek ▸ left_read_lt hread⟩
    · cases h
  · cases h

theorem skipWhile_of_pass_none (h : r.pass p = none) : r.skipWhile p = r.peek.2 := by
  unfold pass at h
  split at h
  · next c hc =>
    split at h
    · cases h
    · next hp => rw [skipWhile_of_ok hc, if_neg hp]
  · next e he => exact skipWhile_of_error he

/-- **A run of characters ends**, after at most as many turns as bytes are left. -/
theorem halts_skipWhile (p : Char → Bool) (r : Reader) :
    ∃ last, Halts (pass p) r.left r last ∧ r.skipWhile p = last.peek.2 := by
  have hless : ∀ a b : Reader, True → pass p a = some b → True ∧ b.left < a.left :=
    fun a b _ h => ⟨trivial, (skipWhile_of_pass h).2⟩
  obtain ⟨last, n, hle, hturns, hlast⟩ := exists_halts hless (a := r) trivial
  have hsame := hturns.invariant (skipWhile p) fun a b h => (skipWhile_of_pass h).1.symm
  exact ⟨last, ⟨n, hle, hturns, hlast⟩, hsame ▸ skipWhile_of_pass_none hlast⟩

end Reader
namespace Lexer

/-! ### The states of a run -/

/-- How many states there can be from a state on, with so many bytes left. -/
def State.most : State → Nat → Nat
  | .filter, left => max 1 (2 * left)
  | _, left => 2 * left + 1

/-- A state that consumes something leaves fewer states to come, whichever comes next. -/
theorem State.most_lt {left rest : Nat} (state next : State) (h : rest < left) :
    next.most rest < state.most left := by
  have hnext : next.most rest ≤ 2 * rest + 1 := by
    cases next <;> simp only [most] <;> omega
  have hstate : 2 * left ≤ state.most left := by
    cases state <;> simp only [most] <;> omega
  omega

/-- So does one that leads to a filter and leaves it something. -/
theorem State.most_filter_lt {left rest : Nat} {state : State} (hstate : state ≠ .filter)
    (hpos : 0 < rest) (hle : rest ≤ left) : State.most .filter rest < state.most left := by
  cases state <;> simp only [most] <;> first | omega | contradiction

/-- The next state is begun where it can be, and fewer states can follow. -/
def Fewer (state : State) (r : Reader) (next : Option State) (after : Reader) : Prop :=
  ∀ following, next = some following →
    Begun following after ∧ following.most after.left < state.most r.left

/-- What a state leaves is fewer states to come, if it was begun where it can be. -/
theorem Leaves.fewer {state : State} {r after : Reader} {next : Option State}
    (h : Leaves state r next after) (hbegun : Begun state r) : Fewer state r next after := by
  intro following hnext
  cases h with
  | last => contradiction
  | @consumed next _ begun less =>
    obtain rfl := Option.some.inj hnext
    exact ⟨begun, state.most_lt next less⟩
  | period waits seen le =>
    obtain rfl := Option.some.inj hnext
    have hstate : state ≠ .filter := by rcases waits with rfl | rfl <;> nofun
    exact ⟨trivial, State.most_filter_lt hstate (Reader.left_pos_of_read seen) le⟩
  | unread isBare unbegun _ =>
    subst isBare
    exact absurd hbegun unbegun

/-- **A state that is begun where it can be leaves fewer states to come.** -/
theorem step_fewer (stopped : Bool) {state : State} {r : Reader} (h : Begun state r) :
    (step stopped state r).Always fun (following, after) => Fewer state r following after :=
  (step_leaves stopped state r).mono fun _ hleaves => hleaves.fewer h

end Lexer

/-! ### Turns of a stream -/

namespace OnDemand

/-- One turn of a run: the next state under the lexer's own context, its items to the rest. -/
def stride (own : Option Stop) (s : OnDemand) : Option OnDemand := s.next.map (s.work own ·)

/-- One turn of a move: a state is run while there is nothing to hand over. -/
def pull (own watcher : Option Stop) (s : OnDemand) : Option OnDemand :=
  if watcher.isSome ∨ s.queue ≠ [] then none else s.stride own

/-- What a move makes of a stream in which it has no state to run. -/
def answer (watcher : Option Stop) (s : OnDemand) : Bool × OnDemand :=
  if watcher.isSome then (false, {s with next := none, queue := []})
  else
    match s.queue with
    | item :: rest => (true, {s with queue := rest, current := some item})
    | [] => (false, s)

variable {own watcher : Option Stop} {s after : OnDemand}

theorem stride_eq_some (h : s.stride own = some after) :
    ∃ state, s.next = some state ∧ s.work own state = after := Option.map_eq_some_iff.1 h

theorem stride_eq_none (h : s.stride own = none) : s.next = none := Option.map_eq_none_iff.1 h

/-- A turn leaves the same answer to the next. -/
theorem advance_of_pull (h : s.pull own watcher = some after) :
    s.advance own watcher = after.advance own watcher ∧ after.weight < s.weight := by
  unfold pull at h
  split at h
  · cases h
  · next hidle =>
    rw [not_or, not_not] at hidle
    obtain ⟨state, hstate, rfl⟩ := stride_eq_some h
    refine ⟨?_, weight_work_lt hstate own⟩
    obtain ⟨reader, next, queue, current, records⟩ := s
    obtain rfl : queue = [] := hidle.2
    obtain rfl : next = some state := hstate
    rw [advance, if_neg hidle.1]

theorem advance_of_pull_none (h : s.pull own watcher = none) :
    s.advance own watcher = s.answer watcher := by
  obtain ⟨reader, next, queue, current, records⟩ := s
  rw [advance, answer]
  split
  · rfl
  · next hlive =>
    cases queue with
    | cons item rest => rfl
    | nil =>
      rw [pull, if_neg (by simp [hlive])] at h
      obtain rfl : next = none := stride_eq_none h
      rfl

/-- **Every move returns**, after at most as many turns as states can be left. -/
theorem halts_advance (own watcher : Option Stop) (s : OnDemand) :
    ∃ last, Halts (pull own watcher) s.weight s last ∧
      s.advance own watcher = last.answer watcher := by
  have hless : ∀ a b : OnDemand, True → a.pull own watcher = some b →
      True ∧ b.weight < a.weight := fun a b _ h => ⟨trivial, (advance_of_pull h).2⟩
  obtain ⟨last, n, hle, hturns, hlast⟩ := exists_halts hless (a := s) trivial
  have hsame := hturns.invariant (advance own watcher) fun a b h => (advance_of_pull h).1.symm
  exact ⟨last, ⟨n, hle, hturns, hlast⟩, hsame ▸ advance_of_pull_none hlast⟩

/-- How many states there can still be. -/
def most (s : OnDemand) : Nat :=
  match s.next with
  | none => 0
  | some state => state.most s.reader.left

/-- The next state is begun where it can be. -/
def Begun (s : OnDemand) : Prop := ∀ state, s.next = some state → Lexer.Begun state s.reader

/-- A state that is run leaves fewer to come. -/
theorem most_stride_lt (hs : s.Begun) (h : s.stride own = some after) :
    after.Begun ∧ after.most < s.most := by
  obtain ⟨state, hstate, rfl⟩ := stride_eq_some h
  have hfewer := (step_fewer own.isSome (hs state hstate)).listen own.isNone
  refine ⟨fun next hnext => (hfewer next hnext).1, ?_⟩
  simp only [most, hstate, work]
  split
  · cases state <;> simp only [State.most] <;> omega
  · next next hnext => exact (hfewer next hnext).2

/-- **The states of a source come to an end**, after at most two for each byte and one more,
with all of its items in the queue. -/
theorem halts_ofSource (source : ByteArray) :
    ∃ last, Halts (stride none) (2 * source.size + 1) (ofSource source) last ∧
      last.next = none ∧ last.queue = itemsFrom .expression (Reader.ofBytes source) := by
  have hbegun : (ofSource source).Begun := fun state h => by cases h; trivial
  obtain ⟨last, n, hle, hturns, hlast⟩ :=
    exists_halts (fun a b (ha : a.Begun) h => most_stride_lt ha h) hbegun
  have hnext := stride_eq_none hlast
  have hitems := hturns.invariant (toCome none) fun a b h => by
    obtain ⟨state, hstate, rfl⟩ := stride_eq_some h
    exact toCome_work hstate
  refine ⟨last, ⟨n, hle, hturns, hlast⟩, hnext, ?_⟩
  have hqueue : last.toCome none = last.queue := by
    rw [toCome, hnext]
    exact List.append_nil _
  exact hqueue.symm.trans hitems

end OnDemand

/-! ### How many items there are -/

theorem length_le_textSize (text : List Char) : text.length ≤ textSize text := by
  induction text with
  | nil => exact Nat.le_refl 0
  | cons c text ih =>
    have := c.utf8Size_pos
    rw [List.length_cons, textSize_cons]
    omega

/-- Every item but the last shows some of the text ahead. -/
theorem Lexer.Lexes.length_le {place : Place} {k : Cursor} {items : List Item}
    (h : Lexes place k items) : items.length ≤ k.ahead.length + 1 := by
  induction h with
  | @token place k item next after items found rest ih =>
    obtain ⟨text, hne, hpast, -⟩ := Place.steady_of_token found
    have := List.length_pos_of_ne_nil hne
    rw [hpast.ahead, List.length_append, List.length_cons]
    omega
  | last found => exact Nat.le_add_left 1 _

/-- **The lexer always stops.** -/
theorem lex_stops (driver : Driver) (source : ByteArray) :
    (∃ last, Halts (OnDemand.stride none) (2 * source.size + 1) (.ofSource source) last ∧
      last.next = none ∧ last.queue.length ≤ source.size + 1 ∧
      (Tokens.ofSource driver none source).HandsOver last.queue) ∧
    (∀ (p : Char → Bool) (r : Reader),
      ∃ last, Halts (Reader.pass p) r.left r last ∧ r.skipWhile p = last.peek.2) ∧
    ∀ (own watcher : Option Stop) (s : OnDemand),
      ∃ last, Halts (OnDemand.pull own watcher) s.weight s last ∧
        s.advance own watcher = last.answer watcher := by
  refine ⟨?_, Reader.halts_skipWhile, OnDemand.halts_advance⟩
  obtain ⟨last, hhalts, hnext, hqueue⟩ := OnDemand.halts_ofSource source
  refine ⟨last, hhalts, hnext, ?_, hqueue ▸ Tokens.handsOver_ofSource driver source⟩
  have hlength := (lexes_of_source source).length_le
  have htext := length_le_textSize (validText source)
  have hsize := validLength_le source source.size
  rw [Reader.ahead_ofBytes, ← hqueue] at hlength
  rw [textSize_validText] at htext
  omega

end PathFilter
