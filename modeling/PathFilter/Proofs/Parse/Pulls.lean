import PathFilter.Proofs.Parse.Builds
import PathFilter.Proofs.Parse.Requests

/-! How a parser moves its stream.

A parser moves its stream as long as the moves show items. The first move that shows
none is its last: the error is then the one in which the stream ends, and no query comes
of it (`Orderly`). That is so because a parser does nothing but make requests, and ends
with the first that fails (`Orderly.of_scripted`).

With what is known of the items that decide, the moves are told in advance: there is one
for each item up to the one that decides, and if the items run out before, one more
(`build_moves`). `pulls` are the moves as a stream that keeps a record has seen them. -/
namespace PathFilter

/-! ### Parsers that stop at a failed move -/

namespace Parser
open Lookahead
variable {σ α : Type} [TokenStream σ] {start : σ}

/-- Where an error leaves the stream: all moves have shown items, and the error is not the
stream's; or the last move has shown none, and the error is the stream's. -/
def Faulted (start : σ) (e : ParseError) (after : σ) : Prop :=
  (e.ofStream = false ∧ ∃ items, Shown start items after) ∨
    ∃ items s, Shown start items s ∧ Stuck s e after

/-- As long as all moves have shown items, the parser goes on to move the stream, and it ends
with an error at the first that shows none. At most one item is pushed back. -/
def Orderly (start : σ) (m : Parser σ α) : Prop :=
  ∀ l, l.pushed ≤ 1 → (∃ items, Shown start items l.stream) →
    Comes m l (fun _ after => after.pushed ≤ 1 ∧ ∃ items, Shown start items after.stream)
      fun e after => Faulted start e after.stream

section
variable {l : Lookahead σ} {r : Request} {consumed : Bool}

/-- A request is answered after moves that have shown items, and its error is its own or that of
a move that shows none. -/
structure Orderly.Serves (start : σ) (l : Lookahead σ) (r : Request) : Prop where
  pushed : (l.serve r).2.pushed ≤ 1
  consumed : (Reply.mk r (l.serve r).1).consumed = true → (l.serve r).2.pushed = 0
  answered : ∀ a, (l.serve r).1 = .ok a → ∃ items, Shown start items (l.serve r).2.stream
  failed : ∀ e, (l.serve r).1 = .error e → Faulted start e (l.serve r).2.stream

theorem serves_of_ok {item : Item} {after : Lookahead σ} (hp : l.pushed ≤ 1) (hr : r ≠ .backup)
    (hnext : next.result l = (.ok item, after)) (hzero : after.pushed = 0)
    (hafter : ∃ items, Shown start items after.stream) : Orderly.Serves start l r := by
  obtain ⟨hlast, hown⟩ := serve_of_ok hp hr hnext
  rw [← stream_serve_of_ok hp hr hnext] at hafter
  refine ⟨?_, ?_, fun _ _ => hafter, fun e he => .inl ⟨hown e he, hafter⟩⟩
  · rcases hlast with hlast | ⟨hlast, -⟩
    · rw [hlast]
      omega
    · rw [hlast]
      exact Nat.le_of_eq (congrArg (· + 1) hzero)
  · intro hread
    rcases hlast with hlast | ⟨-, hkept⟩
    · rw [hlast]
      exact hzero
    · exact absurd (hkept.symm.trans hread) nofun

theorem orderly_serves (hp : l.pushed ≤ 1) (hr : r = .backup → l.pushed = 0)
    (hshown : ∃ items, Shown start items l.stream) : Orderly.Serves start l r := by
  by_cases hbackup : r = .backup
  · subst hbackup
    exact ⟨Nat.le_of_eq (congrArg (· + 1) (hr rfl)), nofun, fun _ _ => hshown, nofun⟩
  obtain ⟨items, hitems⟩ := hshown
  rcases next_cases hp with ⟨-, item, -, hnext⟩ | ⟨-, item, ho, hnext⟩ | ⟨-, e, ho, hnext⟩
  · exact serves_of_ok hp hbackup hnext rfl ⟨items, hitems⟩
  · exact serves_of_ok hp hbackup hnext rfl ⟨_, hitems.concat_of_outcome ho⟩
  · have hserve := serve_of_error hp hbackup hnext
    have hstuck := Stuck.of_outcome ho
    refine ⟨by rwa [hserve], ?_, ?_, ?_⟩
    · rw [hserve, Reply.consumed_of_error hstuck.ofStream]
      nofun
    · rw [hserve]
      nofun
    · rw [hserve]
      intro err herr
      obtain rfl := Except.error.inj herr
      exact .inr ⟨items, _, hitems, hstuck⟩

/-- The first request that fails is the last. -/
theorem Runs.orderly {m : Parser σ α} {replies : List Reply} {outcome : Except ParseError α}
    {last : Lookahead σ} (h : Runs m l replies outcome last)
    (horder : Disciplined consumed replies) (hp : l.pushed ≤ 1)
    (hconsumed : consumed = true → l.pushed = 0) (hshown : ∃ items, Shown start items l.stream) :
    (∀ a, outcome = .ok a → last.pushed ≤ 1 ∧ ∃ items, Shown start items last.stream) ∧
      ∀ e, outcome = .error e → Faulted start e last.stream := by
  induction h generalizing consumed with
  | value a l => exact ⟨fun _ _ => ⟨hp, hshown⟩, nofun⟩
  | fault own l =>
    refine ⟨nofun, fun err herr => ?_⟩
    obtain rfl := Except.error.inj herr
    exact .inl ⟨own, hshown⟩
  | answered served _ ih =>
    obtain ⟨hpushed, hread, hitems, -⟩ :=
      orderly_serves hp (fun hr => hconsumed (horder.1 hr)) hshown
    rw [served] at hpushed hread hitems
    exact ih horder.2 hpushed hread (hitems _ rfl)
  | failed served =>
    have hfault := (orderly_serves hp (fun hr => hconsumed (horder.1 hr)) hshown).failed
    rw [served] at hfault
    exact ⟨nofun, fun err herr => hfault err (congrArg _ (Except.error.inj herr))⟩

end

/-- A parser whose requests are in order stops at a failed move. -/
theorem Orderly.of_scripted {m : Parser σ α} (h : ∀ l, Scripted m l) : Orderly start m := by
  intro l hp hshown
  obtain ⟨replies, outcome, last, hruns, horder⟩ := h l
  have hend := hruns.orderly horder hp nofun hshown
  have hresult := hruns.result_eq
  cases outcome with
  | ok a => exact .of_ok hresult (hend.1 a rfl)
  | error e => exact .of_error hresult (hend.2 e rfl)

theorem orderly_start : Orderly start (Parser.start : Parser σ Query) := .of_scripted scripted_start

end Parser

/-! ### How many items are read -/

namespace Stand
variable {s : Stand} {items : List Item} {e err : ParseError} {k : Nat}

/-- How many moves lead from a stand to the item that decides: as many as there are items
up to it, or one more than there are items if none decides. -/
def reads : Stand → List Item → Nat
  | .over, _ => 0
  | _, [] => 1
  | s, item :: items =>
    match s.next item.token with
    | some s => s.reads items + 1
    | none => 1

theorem reads_over (items : List Item) : reads .over items = 0 := by cases items <;> rfl

theorem reads_nil (hs : s ≠ .over) : s.reads [] = 1 := by
  cases s <;> first | rfl | contradiction

theorem reads_cons {t : Stand} {item : Item} (h : s.next item.token = some t) :
    s.reads (item :: items) = t.reads items + 1 := by
  cases s <;> first | contradiction | simp only [reads, h]

theorem reads_refused {item : Item} (hs : s ≠ .over) (h : s.next item.token = none) :
    s.reads (item :: items) = 1 := by
  cases s <;> first | contradiction | simp only [reads, h]

theorem reads_le (s : Stand) (items : List Item) : s.reads items ≤ items.length + 1 := by
  fun_induction reads s items with
  | case1 items => omega
  | case2 s hs => exact Nat.le_refl 1
  | case3 s item items hs t hnext ih => exact Nat.succ_le_succ ih
  | case4 s item items hs hnext => simp

/-- Behind as many items as are read come those that are left. -/
theorem left_eq_drop (s : Stand) (items : List Item) :
    s.left items = items.drop (s.reads items) := by
  fun_induction reads s items with
  | case1 items => rw [left_over, List.drop_zero]
  | case2 s hs => cases s <;> rfl
  | case3 s item items hs t hnext ih => rw [left_cons hnext, ih, List.drop_succ_cons]
  | case4 s item items hs hnext => rw [left_refused hs hnext, List.drop_succ_cons, List.drop_zero]

/-- Of fewer items no more are read, but for the move that finds them at an end. -/
theorem reads_take (s : Stand) (items : List Item) (k : Nat) :
    s.reads (items.take k) = min (s.reads items) (k + 1) := by
  fun_induction reads s items generalizing k with
  | case1 items => rw [reads_over, Nat.zero_min]
  | case2 s hs =>
    rw [List.take_nil, reads_nil hs]
    omega
  | case3 s item items hs t hnext ih =>
    cases k with
    | zero =>
      rw [List.take_zero, reads_nil hs]
      omega
    | succ k =>
      rw [List.take_succ_cons, reads_cons hnext, ih]
      omega
  | case4 s item items hs hnext =>
    cases k with
    | zero => exact reads_nil hs
    | succ k =>
      rw [List.take_succ_cons, reads_refused hs hnext]
      omega

/-- If none of the items decides, reading them ends as the stream does. -/
theorem fault_of_length_lt (h : items.length < s.reads items) : s.fault e items = some e := by
  fun_induction reads s items with
  | case1 items => omega
  | case2 s hs => exact fault_nil hs
  | case3 s item items hs t hnext ih =>
    rw [fault_cons hnext]
    exact ih (by simpa using h)
  | case4 s item items hs hnext => simp at h

theorem ofStream_complaint (s : Stand) (item : Item) : (s.complaint item).ofStream = false := by
  obtain ⟨token, span⟩ := item
  cases s <;> cases token <;> rfl

/-- An item that decides is not the end of the stream. -/
theorem fault_ne (h : s.reads items ≤ items.length) (he : e.ofStream = true) :
    s.fault e items ≠ some e := by
  fun_induction reads s items with
  | case1 items => rw [fault_over]; nofun
  | case2 s hs => simp at h
  | case3 s item items hs t hnext ih =>
    rw [fault_cons hnext]
    exact ih (by simpa using h)
  | case4 s item items hs hnext =>
    rw [fault_refused hs hnext]
    intro heq
    rw [← Option.some.inj heq, ofStream_complaint] at he
    contradiction

/-- If the item that decides is among the first, the rest makes no difference, and neither
does how the stream ends. -/
theorem fault_take (hk : s.reads items ≤ k) (hle : k ≤ items.length) :
    s.fault e (items.take k) = s.fault err items := by
  fun_induction reads s items generalizing k with
  | case1 items => rw [fault_over, fault_over]
  | case2 s hs =>
    simp at hle
    omega
  | case3 s item items hs t hnext ih =>
    obtain ⟨k, rfl⟩ : ∃ j, k = j + 1 := ⟨k - 1, by omega⟩
    rw [List.take_succ_cons, fault_cons hnext, fault_cons hnext]
    exact ih (by omega) (by simpa using hle)
  | case4 s item items hs hnext =>
    obtain ⟨k, rfl⟩ : ∃ j, k = j + 1 := ⟨k - 1, by omega⟩
    rw [List.take_succ_cons, fault_refused hs hnext, fault_refused hs hnext]

end Stand

/-! ### The moves of a build -/

section build
variable {σ : Type} [TokenStream σ] {stream : σ} {items : List Item} {e : ParseError}

/-- What was shown are as many items as are read, if those that are left are listed. -/
theorem shown_take {front : List Item} {after : σ} (h : Lists stream items e)
    (hshown : Shown stream front after) (hleft : Lists after (Stand.left .filter items) e) :
    Shown stream (items.take (Stand.reads .filter items)) after := by
  obtain ⟨rest, hitems, hrest⟩ := hshown.lists h
  have hdrop : rest = items.drop (Stand.reads .filter items) :=
    (hrest.unique hleft).trans (Stand.left_eq_drop _ _)
  have hsplit := hitems.symm.trans (List.take_append_drop (Stand.reads .filter items) items).symm
  rw [hdrop] at hsplit
  rw [← List.append_cancel_right hsplit]
  exact hshown

theorem build_orderly (stream : σ) :
    (∃ q items, (build stream).1 = .ok q ∧ Shown stream items (build stream).2) ∨
      ∃ err, (build stream).1 = .error err ∧ Parser.Faulted stream err (build stream).2 := by
  have horder : Parser.Orderly stream Parser.start := Parser.orderly_start
  have hstart := horder (.ofStream stream) (Nat.zero_le 1) ⟨[], .nil⟩
  rw [Parser.Comes] at hstart
  unfold build
  cases hs : Parser.start (Lookahead.ofStream stream) with
  | ok q l =>
    rw [hs] at hstart
    obtain ⟨-, items, hshown⟩ := hstart
    exact .inl ⟨q, items, rfl, hshown⟩
  | error err l =>
    rw [hs] at hstart
    exact .inr ⟨err, rfl, hstart⟩

/-- **A parser moves its stream once for every item up to the one that decides.** If none
does, one more move finds the end of the stream, and that is the error. -/
theorem build_moves (h : Lists stream items e) :
    (Stand.reads .filter items ≤ items.length ∧
      Shown stream (items.take (Stand.reads .filter items)) (build stream).2) ∨
    (Stand.reads .filter items = items.length + 1 ∧ (build stream).1 = .error e ∧
      ∃ s, Shown stream items s ∧ Stuck s e (build stream).2) := by
  have hends := h.ofStream
  have hrunOut (hlt : items.length < Stand.reads .filter items) : (build stream).1 = .error e :=
    build_of_fault h (Stand.fault_of_length_lt hlt)
  rcases build_orderly stream with ⟨q, front, hok, hshown⟩ |
    ⟨err, herr, ⟨hown, front, hshown⟩ | ⟨front, s, hshown, hstuck⟩⟩
  · -- a query comes of a sentence, which does not run out
    have hle := Nat.le_of_not_lt fun hlt => nomatch hok.symm.trans (hrunOut hlt)
    rcases build_leaves h with ⟨d, -, -, hleft⟩ | ⟨err, -, herr, -⟩
    · exact .inl ⟨hle, shown_take h hshown hleft⟩
    · exact nomatch hok.symm.trans herr
  · -- the error is about an item
    have hne : err ≠ e := by
      rintro rfl
      rw [hown] at hends
      contradiction
    have hle := Nat.le_of_not_lt fun hlt =>
      hne (Except.error.inj (herr.symm.trans (hrunOut hlt)))
    rcases build_leaves h with ⟨d, -, hok, -⟩ | ⟨err', -, herr', hleft⟩
    · exact nomatch herr.symm.trans hok
    · obtain rfl := Except.error.inj (herr.symm.trans herr')
      exact .inl ⟨hle, shown_take h hshown (hleft.resolve_left hne)⟩
  · -- the items have run out
    obtain ⟨rest, rfl, hrest⟩ := hshown.lists h
    obtain ⟨rfl, rfl⟩ := hstuck.lists hrest
    rw [List.append_nil] at h ⊢
    have hlt : front.length < Stand.reads .filter front := by
      refine Nat.lt_of_not_le fun hle => ?_
      rcases build_outcome h with ⟨d, -, hok⟩ | ⟨err', hfault, herr'⟩
      · exact nomatch herr.symm.trans hok
      · rw [← Except.error.inj (herr.symm.trans herr')] at hfault
        exact Stand.fault_ne hle hends hfault
    have hreads := Stand.reads_le .filter front
    exact .inr ⟨by omega, herr, s, hshown, hstuck⟩

end build

/-- What the moves have shown that a parser makes of a stream. They are recorded on the way,
which changes none of them (`build_logged`). -/
def pulls {σ : Type} [TokenStream σ] (stream : σ) : List (Option Item) :=
  (build (Logged.mk stream [])).2.shown

section pulls
variable {σ : Type} [TokenStream σ] {stream : σ} {items : List Item} {e : ParseError}

/-- **The moves that a parser makes of a stream show the items up to the one that decides**,
and then, if none does, nothing. -/
theorem pulls_eq (h : Lists stream items e) :
    pulls stream = (items.map some ++ [none]).take (Stand.reads .filter items) := by
  rcases build_moves (Logged.lists h []) with ⟨hle, hshown⟩ | ⟨hreads, -, s, hshown, hstuck⟩
  · rw [pulls, (Logged.of_shown hshown).2, List.take_append_of_le_length (by simpa using hle),
      List.map_take]
    rfl
  · rw [pulls, (Logged.of_stuck hstuck).2, (Logged.of_shown hshown).2, hreads,
      List.take_of_length_le (by simp)]
    rfl

/-- To keep a record changes neither the outcome nor the moves. -/
theorem build_logged (stream : σ) : (build (Logged.mk stream [])).1 = (build stream).1 ∧
    (build (Logged.mk stream [])).2.stream = (build stream).2 := by
  obtain ⟨items, e, h⟩ := exists_lists stream
  refine ⟨build_congr (Logged.lists h []) h, ?_⟩
  rcases build_moves (Logged.lists h []) with ⟨hle, hshown⟩ | ⟨hreads, -, s, hshown, hstuck⟩
  · rcases build_moves h with ⟨-, hshown'⟩ | ⟨hreads, -⟩
    · exact (Logged.of_shown hshown).1.unique hshown'
    · omega
  · rcases build_moves h with ⟨hle, -⟩ | ⟨-, -, s', hshown', hstuck'⟩
    · omega
    · obtain rfl := (Logged.of_shown hshown).1.unique hshown'
      exact (Logged.of_stuck hstuck).1.unique hstuck'

/-- A move that shows nothing is the last, and then there is no query. -/
theorem failed_pull {shown rest : List (Option Item)} (h : pulls stream = shown ++ none :: rest) :
    rest = [] ∧ ∃ e, (build stream).1 = .error e := by
  obtain ⟨items, e, hlists⟩ := exists_lists stream
  rw [pulls_eq hlists] at h
  have hnone : none ∉ items.map some := by simp
  rcases build_moves hlists with ⟨hle, -⟩ | ⟨hreads, herr, -⟩
  · rw [List.take_append_of_le_length (by simpa using hle)] at h
    have hmem : none ∈ (items.map some).take (Stand.reads .filter items) := by
      rw [h]
      simp
    exact absurd (List.mem_of_mem_take hmem) hnone
  · refine ⟨?_, e, herr⟩
    rw [hreads, List.take_of_length_le (by simp)] at h
    rcases List.eq_nil_or_concat rest with hnil | ⟨front, last, rfl⟩
    · exact hnil
    · rw [List.concat_eq_append, ← List.cons_append, ← List.append_assoc] at h
      have hfront := (List.append_inj' h rfl).1
      rw [hfront] at hnone
      simp at hnone

end pulls
end PathFilter
