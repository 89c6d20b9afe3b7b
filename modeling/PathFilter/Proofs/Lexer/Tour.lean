import PathFilter.Proofs.Lexer.Entry

/-! The path of a run.

A run visits states, each with the reader that the one before it left. `visits` lists them
for a run that is never refused, with what each of them records and offers. A visit records
its entry, and the last may also record a fault; the run itself records where it came to an
end (`exists_ending`). No visit of a path is before the one that leads to it
(`reached_visits`).

A run may also be left: so many items are taken, and the next is refused (`leave`). The
visits before the one that is refused are those of the whole run, and the visit that is
refused records that it gave up, unless the item was a fault, which is on record already
(`leave_run`, `leave_run_of_illegal`). -/
namespace PathFilter.Lexer

/-- A state that was entered. -/
structure Visit where
  state : State
  reader : Reader

namespace Visit

/-- What is heard of the state if nothing is refused. -/
def heard (v : Visit) : Dialogue.Heard (Option State × Reader) :=
  (step false v.state v.reader).listen true

def records (v : Visit) : List Record := v.heard.records

def items (v : Visit) : List Item := v.heard.items

theorem listen_step (state : State) (r : Reader) :
    (step false state r).listen true = (Visit.mk state r).heard := rfl

/-- The record of the entry. -/
def entry (v : Visit) : Record := .entered v.state v.reader.offset

end Visit

/-- The visits of a run that begins in a state and is never refused. -/
def visits (state : State) (r : Reader) : List Visit :=
  ⟨state, r⟩ :: match _h : (Visit.mk state r).heard.result with
    | (some next, after) => visits next after
    | (none, _) => []
termination_by weight state r
decreasing_by
  have hbelow := (step_descends false state r).listen true
  rw [Visit.listen_step, _h] at hbelow
  exact hbelow next rfl

/-- The visits after the end of a state. -/
def visitsAfter : Option State × Reader → List Visit
  | (some next, after) => visits next after
  | (none, _) => []

/-- The visits of a whole source. -/
def tour (source : ByteArray) : List Visit := visits .expression (.ofBytes source)

section visits
variable {state : State} {r : Reader}

theorem visits_eq (state : State) (r : Reader) :
    visits state r = ⟨state, r⟩ :: visitsAfter (Visit.mk state r).heard.result := by
  rw [visits]
  congr 1
  split
  · next h => rw [h]; rfl
  · next h => rw [h]; rfl

theorem visits_of_last {after : Reader} (h : (Visit.mk state r).heard.result = (none, after)) :
    visits state r = [⟨state, r⟩] := by
  rw [visits_eq, h]
  rfl

theorem visits_of_next {next : State} {after : Reader}
    (h : (Visit.mk state r).heard.result = (some next, after)) :
    visits state r = ⟨state, r⟩ :: visits next after := by
  rw [visits_eq, h]
  rfl

/-- Induction along a path, from its last visit on. -/
theorem visits_induction {P : State → Reader → Prop}
    (last : ∀ state r after, (Visit.mk state r).heard.result = (none, after) → P state r)
    (next : ∀ state r next after, (Visit.mk state r).heard.result = (some next, after) →
      P next after → P state r) (state : State) (r : Reader) : P state r := by
  induction hn : weight state r using Nat.strongRecOn generalizing state r with
  | ind n ih =>
    have hbelow := (step_descends false state r).listen true
    rw [Visit.listen_step] at hbelow
    cases hresult : (Visit.mk state r).heard.result with
    | mk successor after =>
      rw [hresult] at hbelow
      cases successor with
      | none => exact last state r after hresult
      | some s => exact next state r s after hresult (ih _ (hn ▸ hbelow s rfl) s after rfl)

/-! ### What a visit records -/

/-- The token that ends a stream. -/
def terminal : Option LexError → Token
  | none => .endOfInput
  | some cause => .illegal cause

/-- If nothing is refused a state records at most a fault, and it does so if and only if its
last item tells the fault. -/
theorem Concludes.heard {n : Nat} {d : Dialogue (Option State × Reader)}
    (h : Concludes state n d) :
    match (d.listen true).result with
    | (some _, _) => (d.listen true).records = []
    | (none, after) => ∃ fault front, (d.listen true).records = fault.toList.map Record.illegal ∧
      (d.listen true).items = front ++ [⟨terminal fault, .empty after.offset⟩] := by
  induction h with
  | next => rfl
  | last refused taken =>
    simp only [Dialogue.listen, taken]
    exact ⟨none, [], rfl, rfl⟩
  | @fault _ cause => exact ⟨some cause, [], rfl, rfl⟩
  | @token _ item _ _ _ _ _ _ ih =>
    simp only [Dialogue.listen, if_true]
    split at ih
    · exact ih
    · obtain ⟨fault, front, hrecords, hitems⟩ := ih
      exact ⟨fault, item :: front, hrecords, congrArg (item :: ·) hitems⟩

/-- The dialogue of a state after its entry. -/
theorem exists_concludes (state : State) (r : Reader) : ∃ d, Concludes state 6 d ∧
    step false state r = .note (.entered state r.offset) d :=
  ⟨_, closes_body state state r, step_eq_conclude false state r⟩

theorem Visit.records_cases (v : Visit) :
    match v.heard.result with
    | (some _, _) => v.records = [v.entry]
    | (none, after) => ∃ fault front, v.records = v.entry :: fault.toList.map Record.illegal ∧
      v.items = front ++ [⟨terminal fault, .empty after.offset⟩] := by
  obtain ⟨d, hd, hstep⟩ := exists_concludes v.state v.reader
  have hheard := hd.heard
  rw [Visit.records, Visit.items, Visit.heard, hstep]
  simp only [Dialogue.listen]
  split at hheard
  · rw [hheard]
    rfl
  · obtain ⟨fault, front, hrecords, hitems⟩ := hheard
    exact ⟨fault, front, congrArg _ hrecords, hitems⟩

/-- Before all else a visit records its entry. -/
theorem Visit.exists_records (v : Visit) : ∃ more, v.records = v.entry :: more := by
  have hcases := v.records_cases
  split at hcases
  · exact ⟨[], hcases⟩
  · obtain ⟨fault, -, hrecords, -⟩ := hcases
    exact ⟨_, hrecords⟩

/-! ### What a run records -/

theorem listen_run_of_last {after : Reader}
    (h : (Visit.mk state r).heard.result = (none, after)) : (run state r).listen true =
      (Visit.mk state r).heard.andThen ⟨[.finished after.offset], [], ()⟩ := by
  rw [run_eq, Dialogue.listen_bind]
  show (Visit.mk state r).heard.andThen _ = _
  rw [Visit.listen_step, h]
  rfl

theorem listen_run_of_next {next : State} {after : Reader}
    (h : (Visit.mk state r).heard.result = (some next, after)) : (run state r).listen true =
      (Visit.mk state r).heard.andThen ((run next after).listen true) := by
  rw [run_eq, Dialogue.listen_bind]
  show (Visit.mk state r).heard.andThen _ = _
  rw [Visit.listen_step, h]
  rfl

/-- The items of a run are those of its visits. -/
theorem itemsFrom_eq_flatMap (state : State) (r : Reader) :
    itemsFrom state r = (visits state r).flatMap Visit.items := by
  induction state, r using visits_induction with
  | last state r after h =>
    rw [itemsFrom, listen_run_of_last h, visits_of_last h]
    simp [Dialogue.Heard.andThen, Visit.items]
  | next state r next after h ih =>
    rw [itemsFrom, listen_run_of_next h, visits_of_next h, List.flatMap_cons, ← ih]
    rfl

/-- The entries of a path, then its fault, then where the run came to an end. The last item
tells the fault, or the end of input, at that place. -/
theorem exists_ending (state : State) (r : Reader) : ∃ fault stop,
    (visits state r).flatMap Visit.records =
      (visits state r).map Visit.entry ++ fault.toList.map Record.illegal ∧
    ((run state r).listen true).records =
      (visits state r).flatMap Visit.records ++ [.finished stop] ∧
    (itemsFrom state r).getLast? = some ⟨terminal fault, .empty stop⟩ := by
  induction state, r using visits_induction with
  | last state r after h =>
    have hcases := (Visit.mk state r).records_cases
    rw [h] at hcases
    obtain ⟨fault, front, hrecords, hitems⟩ := hcases
    refine ⟨fault, after.offset, ?_, ?_, ?_⟩
    · rw [visits_of_last h]
      simp [hrecords]
    · rw [listen_run_of_last h, visits_of_last h]
      simp [Dialogue.Heard.andThen, Visit.records]
    · rw [itemsFrom_eq_flatMap, visits_of_last h]
      simp [hitems]
  | next state r next after h ih =>
    have hcases := (Visit.mk state r).records_cases
    rw [h] at hcases
    obtain ⟨fault, stop, hentries, hrecords, hlast⟩ := ih
    refine ⟨fault, stop, ?_, ?_, ?_⟩
    · rw [visits_of_next h, List.flatMap_cons, hentries, hcases]
      rfl
    · rw [listen_run_of_next h, visits_of_next h, List.flatMap_cons, List.append_assoc, ← hrecords]
      rfl
    · rw [itemsFrom, listen_run_of_next h]
      show (_ ++ itemsFrom next after).getLast? = _
      rw [List.getLast?_append, hlast]
      rfl

/-! ### Where a path leads -/

/-- The visits of a path are reached, and none is before the one that leads to it. -/
theorem reached_visits {source : ByteArray} (h : Reached source state r) :
    (∀ v ∈ visits state r, Reached source v.state v.reader) ∧
      (visits state r).IsChain fun v w => v.reader.Further w.reader := by
  induction state, r using visits_induction with
  | last state r after hresult =>
    rw [visits_of_last hresult]
    exact ⟨fun v hv => List.mem_singleton.1 hv ▸ h, .singleton _⟩
  | next state r next after hresult ih =>
    have hreached : Reached source next after := by
      have := h.listen (congrArg Prod.fst hresult)
      rwa [Visit.listen_step, hresult] at this
    have hfurther : r.Further after := by
      have := h.entered.step.listen true
      rw [Visit.listen_step, hresult] at this
      exact (this next rfl).2
    obtain ⟨hall, hchain⟩ := ih hreached
    rw [visits_of_next hresult]
    constructor
    · intro v hv
      rcases List.mem_cons.1 hv with rfl | hv
      · exact h
      · exact hall v hv
    · rw [visits_eq] at hchain ⊢
      exact .cons_cons hfurther hchain

end visits

/-! ### How far a path goes for so many items -/

/-- How many items the visits offer. -/
def offers (path : List Visit) : Nat := (path.flatMap Visit.items).length

/-- The visits up to the one that offers the last of so many items. -/
def upTo : Nat → List Visit → List Visit
  | 0, _ => []
  | _ + 1, [] => []
  | n + 1, v :: rest => v :: upTo (n + 1 - v.items.length) rest

section
variable {path : List Visit} {n : Nat}

theorem upTo_nil : (n : Nat) → upTo n [] = []
  | 0 => rfl
  | _ + 1 => rfl

@[simp] theorem offers_cons (v : Visit) (path : List Visit) :
    offers (v :: path) = v.items.length + offers path := by
  simp [offers]

@[simp] theorem offers_append (a b : List Visit) : offers (a ++ b) = offers a + offers b := by
  simp [offers]

/-- The visits are the first of the path, and they offer as many items unless they are all. -/
theorem upTo_append (n : Nat) (path : List Visit) :
    ∃ rest, path = upTo n path ++ rest ∧ (n ≤ offers (upTo n path) ∨ rest = []) := by
  induction path generalizing n with
  | nil => exact ⟨[], by rw [upTo_nil]; rfl, .inr rfl⟩
  | cons v path ih =>
    cases n with
    | zero => exact ⟨v :: path, rfl, .inl (Nat.zero_le _)⟩
    | succ n =>
      obtain ⟨rest, hpath, hrest⟩ := ih (n + 1 - v.items.length)
      refine ⟨rest, congrArg (v :: ·) hpath, hrest.imp_left fun hle => ?_⟩
      rw [upTo, offers_cons]
      omega

theorem upTo_of_lt (h : offers path < n) : upTo n path = path := by
  obtain ⟨rest, hpath, hle | rfl⟩ := upTo_append n path
  · have := congrArg offers hpath
    rw [offers_append] at this
    omega
  · rw [List.append_nil] at hpath
    exact hpath.symm

/-- The visits of a path are cut behind the one that offers the last of so many items. -/
structure CutAt (path : List Visit) (n : Nat) (made : List Visit) : Prop where
  none : n = 0 → made = []
  last : 0 < n → n ≤ offers path →
    ∃ earlier v, made = earlier ++ [v] ∧ offers earlier < n ∧ n ≤ offers made
  all : offers path < n → made = path

/-- Without the last of the visits there are not as many items. -/
theorem offers_lt_of_upTo {earlier : List Visit} {v : Visit} (h : upTo n path = earlier ++ [v]) :
    offers earlier < n := by
  induction path generalizing n earlier with
  | nil =>
    rw [upTo_nil] at h
    simp at h
  | cons w path ih =>
    cases n with
    | zero => simp [upTo] at h
    | succ n =>
      rw [upTo] at h
      cases earlier with
      | nil => exact Nat.succ_pos n
      | cons u earlier =>
        obtain ⟨rfl, hrest⟩ := List.cons.inj h
        have := ih hrest
        rw [offers_cons]
        omega

theorem cutAt_upTo (n : Nat) (path : List Visit) : CutAt path n (upTo n path) where
  none h := by rw [h, upTo]
  last hpos hle := by
    obtain ⟨rest, hpath, hrest⟩ := upTo_append n path
    have hmade : n ≤ offers (upTo n path) := by
      rcases hrest with hmade | rfl
      · exact hmade
      · rw [List.append_nil] at hpath
        rwa [← hpath]
    have hne : upTo n path ≠ [] := by
      intro hnil
      rw [hnil] at hmade
      exact Nat.not_le_of_lt hpos hmade
    have hsplit := (List.dropLast_append_getLast hne).symm
    exact ⟨_, _, hsplit, offers_lt_of_upTo hsplit, hmade⟩
  all h := upTo_of_lt h

end

/-! ### Leaving a run -/

namespace Dialogue
variable {α β : Type}

/-- Takes so many items and refuses the next. The answer are the records, and the dialogue
where it waits then. -/
def leave : Dialogue α → Nat → List Record × Dialogue α
  | .done a, _ => ([], .done a)
  | .note record rest, n => (record :: (rest.leave n).1, (rest.leave n).2)
  | .offer _ answer, 0 => (answer false).settle
  | .offer _ answer, n + 1 => (answer true).leave n

/-- If all items of a dialogue are taken, it is another one that is left. -/
theorem leave_bind (f : α → Dialogue β) {d : Dialogue α} {n : Nat}
    (h : (d.listen true).items.length ≤ n) : (d.bind f).leave n =
      ((d.listen true).records ++
          ((f (d.listen true).result).leave (n - (d.listen true).items.length)).1,
        ((f (d.listen true).result).leave (n - (d.listen true).items.length)).2) := by
  induction d generalizing n with
  | done a => rfl
  | note record rest ih =>
    have hrest := ih (n := n) h
    simp only [bind, leave, hrest]
    rfl
  | offer item answer ih =>
    cases n with
    | zero => contradiction
    | succ n =>
      have hrest := ih true (n := n) (Nat.le_of_succ_le_succ h)
      simp only [bind, leave, hrest, listen, if_true, List.length_cons, Nat.succ_sub_succ]

end Dialogue

section leave
variable {state : State} {r : Reader} {n : Nat} {item : Item}

theorem kind_ne_illegal_of_ordinary (h : item.token.isTerminal = false) : item.kind ≠ .illegal := by
  intro hkind
  rw [Item.kind] at hkind
  cases htoken : item.token <;> simp_all [Token.isTerminal, Token.kind]

/-- A state whose item is refused gives up where the item ends. -/
theorem Concludes.leave {k : Nat} {d : Dialogue (Option State × Reader)} (h : Concludes state k d)
    (hitem : (d.listen true).items[n]? = some item) (hkind : item.kind ≠ .illegal) :
    (d.bind resume).leave n = ([.aborted state, .finished item.span.stop], .done ()) := by
  induction h generalizing n with
  | next => simp [Dialogue.listen] at hitem
  | last refused taken =>
    simp only [Dialogue.listen, if_true, taken] at hitem
    cases n with
    | zero =>
      obtain rfl := Option.some.inj hitem
      simp [Dialogue.bind, Dialogue.leave, refused, resume, Dialogue.settle, Span.empty]
    | succ n => contradiction
  | fault =>
    cases n with
    | zero =>
      obtain rfl := Option.some.inj hitem
      exact absurd rfl hkind
    | succ n => contradiction
  | token ordinary stop refused _ ih =>
    simp only [Dialogue.listen, if_true] at hitem
    cases n with
    | zero =>
      obtain rfl := Option.some.inj hitem
      simp [Dialogue.bind, Dialogue.leave, refused, resume, Dialogue.settle, stop]
    | succ n => exact ih hitem

/-- Nobody asks whether a fault was taken. -/
theorem Concludes.leave_of_illegal {k : Nat} {d : Dialogue (Option State × Reader)}
    (h : Concludes state k d) (hitem : (d.listen true).items[n]? = some item)
    (hkind : item.kind = .illegal) :
    (d.bind resume).leave n = (((d.bind resume).listen true).records, .done ()) := by
  induction h generalizing n with
  | next => simp [Dialogue.listen] at hitem
  | last refused taken =>
    simp only [Dialogue.listen, if_true, taken] at hitem
    cases n with
    | zero =>
      obtain rfl := Option.some.inj hitem
      contradiction
    | succ n => contradiction
  | fault =>
    cases n with
    | zero => rfl
    | succ n => contradiction
  | token ordinary _ _ _ ih =>
    simp only [Dialogue.listen, if_true] at hitem
    cases n with
    | zero =>
      obtain rfl := Option.some.inj hitem
      exact absurd hkind (kind_ne_illegal_of_ordinary ordinary)
    | succ n => exact ih hitem

/-- The first items of a run are those of its first visit. -/
theorem getElem?_itemsFrom_of_lt (h : n < (Visit.mk state r).items.length) :
    (itemsFrom state r)[n]? = (Visit.mk state r).items[n]? := by
  rw [itemsFrom_eq_flatMap, visits_eq, List.flatMap_cons, List.getElem?_append_left h]

theorem getElem?_itemsFrom_of_last {after : Reader}
    (hresult : (Visit.mk state r).heard.result = (none, after))
    (h : (Visit.mk state r).items.length ≤ n) : (itemsFrom state r)[n]? = none := by
  rw [itemsFrom_eq_flatMap, visits_of_last hresult, List.flatMap_cons, List.getElem?_append_right h]
  rfl

theorem getElem?_itemsFrom_of_next {next : State} {after : Reader}
    (hresult : (Visit.mk state r).heard.result = (some next, after))
    (h : (Visit.mk state r).items.length ≤ n) : (itemsFrom state r)[n]? =
      (itemsFrom next after)[n - (Visit.mk state r).items.length]? := by
  rw [itemsFrom_eq_flatMap, itemsFrom_eq_flatMap, visits_of_next hresult, List.flatMap_cons,
    List.getElem?_append_right h]

/-- A run that is left in its first visit. -/
theorem leave_run_of_lt (hitem : (itemsFrom state r)[n]? = some item)
    (hlt : n < (Visit.mk state r).items.length) (hkind : item.kind ≠ .illegal) :
    (run state r).leave n =
      ([(Visit.mk state r).entry, .aborted state, .finished item.span.stop], .done ()) := by
  rw [getElem?_itemsFrom_of_lt hlt] at hitem
  obtain ⟨d, hd, hstep⟩ := exists_concludes state r
  rw [Visit.items, Visit.heard, hstep] at hitem
  rw [run_eq, hstep, Dialogue.bind, Dialogue.leave, hd.leave hitem hkind]
  rfl

theorem leave_run_of_lt_of_illegal (hitem : (itemsFrom state r)[n]? = some item)
    (hlt : n < (Visit.mk state r).items.length) (hkind : item.kind = .illegal) :
    (run state r).leave n = (((run state r).listen true).records, .done ()) := by
  rw [getElem?_itemsFrom_of_lt hlt] at hitem
  obtain ⟨d, hd, hstep⟩ := exists_concludes state r
  rw [Visit.items, Visit.heard, hstep] at hitem
  rw [run_eq, hstep, Dialogue.bind, Dialogue.leave, hd.leave_of_illegal hitem hkind]
  rfl

/-- The first visit of a run is left behind if all of its items are taken. -/
theorem leave_run_of_le (h : (Visit.mk state r).items.length ≤ n) : (run state r).leave n =
    let rest := (resume (Visit.mk state r).heard.result).leave
      (n - (Visit.mk state r).items.length)
    ((Visit.mk state r).records ++ rest.1, rest.2) := by
  rw [run_eq]
  exact Dialogue.leave_bind resume h

/-- **A run that is left gives up at the item that is refused.** It is left in the visit that
tries to offer the item. What was visited before is on record as in the whole run; then come
the entry of the visit and that it gave up, and that the run came to an end where the item
ends. Nothing is offered any more. -/
theorem leave_run (hitem : (itemsFrom state r)[n]? = some item) (hkind : item.kind ≠ .illegal) :
    ∃ earlier v rest, visits state r = earlier ++ v :: rest ∧
      (earlier.flatMap Visit.items).length ≤ n ∧
      n < ((earlier ++ [v]).flatMap Visit.items).length ∧
      (run state r).leave n = (earlier.flatMap Visit.records ++
        [v.entry, .aborted v.state, .finished item.span.stop], .done ()) := by
  induction state, r using visits_induction generalizing n with
  | last state r after h =>
    have hlt : n < (Visit.mk state r).items.length := by
      by_contra hge
      rw [getElem?_itemsFrom_of_last h (Nat.not_lt.1 hge)] at hitem
      contradiction
    refine ⟨[], ⟨state, r⟩, [], visits_of_last h, Nat.zero_le _, ?_,
      leave_run_of_lt hitem hlt hkind⟩
    simpa using hlt
  | next state r next after h ih =>
    by_cases hlt : n < (Visit.mk state r).items.length
    · refine ⟨[], ⟨state, r⟩, _, visits_of_next h, Nat.zero_le _, ?_,
        leave_run_of_lt hitem hlt hkind⟩
      simpa using hlt
    · have hle := Nat.not_lt.1 hlt
      rw [getElem?_itemsFrom_of_next h hle] at hitem
      obtain ⟨earlier, v, rest, hpath, hbefore, hbehind, hleave⟩ := ih hitem
      refine ⟨⟨state, r⟩ :: earlier, v, rest, ?_, ?_, ?_, ?_⟩
      · rw [visits_of_next h, hpath, List.cons_append]
      · rw [List.flatMap_cons, List.length_append]
        omega
      · rw [List.cons_append, List.flatMap_cons, List.length_append]
        omega
      · rw [leave_run_of_le hle, h, resume, hleave, List.flatMap_cons, List.append_assoc]

/-- A run is whole if there is no item to refuse, or if it is a fault. -/
theorem leave_run_of_illegal
    (h : ∀ item, (itemsFrom state r)[n]? = some item → item.kind = .illegal) :
    (run state r).leave n = (((run state r).listen true).records, .done ()) := by
  have hfirst {state : State} {r : Reader} {n : Nat}
      (h : ∀ item, (itemsFrom state r)[n]? = some item → item.kind = .illegal)
      (hlt : n < (Visit.mk state r).items.length) :
      (run state r).leave n = (((run state r).listen true).records, .done ()) := by
    have hitem : (itemsFrom state r)[n]? = some (Visit.mk state r).items[n] :=
      (getElem?_itemsFrom_of_lt hlt).trans (List.getElem?_eq_getElem hlt)
    exact leave_run_of_lt_of_illegal hitem hlt (h _ hitem)
  induction state, r using visits_induction generalizing n with
  | last state r after hresult =>
    by_cases hlt : n < (Visit.mk state r).items.length
    · exact hfirst h hlt
    · rw [leave_run_of_le (Nat.not_lt.1 hlt), listen_run_of_last hresult, hresult]
      rfl
  | next state r next after hresult ih =>
    by_cases hlt : n < (Visit.mk state r).items.length
    · exact hfirst h hlt
    · have hle := Nat.not_lt.1 hlt
      rw [getElem?_itemsFrom_of_next hresult hle] at h
      rw [leave_run_of_le hle, listen_run_of_next hresult, hresult, resume, ih h]
      rfl

/-- A run that was left is over. -/
theorem leave_run_snd (state : State) (r : Reader) (n : Nat) :
    ((run state r).leave n).2 = .done () := by
  by_cases h : ∀ item, (itemsFrom state r)[n]? = some item → item.kind = .illegal
  · rw [leave_run_of_illegal h]
  · obtain ⟨item, hitem, hkind⟩ : ∃ item, (itemsFrom state r)[n]? = some item ∧
        item.kind ≠ .illegal := by simpa using h
    obtain ⟨_, _, _, -, -, -, hleave⟩ := leave_run hitem hkind
    rw [hleave]

end leave
end PathFilter.Lexer
