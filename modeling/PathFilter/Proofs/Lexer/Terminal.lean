import PathFilter.Proofs.Lexer.TokenByToken
import PathFilter.Proofs.Stream.Drivers

/-! Exactly one terminal token, and always the last.

What a state does under a live context is told by its shape (`Concludes`): tokens are
offered one after another, and then a successor is named, the end of input is offered or
a fault is reported. Where an item is refused before that, the state gives up and moves no
further. The shape is followed from the end of a state backwards: `Closes n` says of a scan
that everything from it on has it, with at most `n` items. Scans that only look at the
source are `Quiet`; they end with a value or find a fault, and a fault becomes the terminal
token.

So a state that names a successor has offered no terminal token, and a state that stops has
offered exactly one, as its last item (`step_concluded`).

A run is its states one after another, so it ends with the terminal token of the
last of them (`itemsFrom_terminated`). -/
namespace PathFilter
open Lexer

namespace Lexer
variable {α β : Type}

/-- No token among the items ends a stream. -/
def Ordinary (items : List Item) : Prop := ∀ item ∈ items, item.token.isTerminal = false

/-- The last item ends the stream, and no earlier one does. -/
def Terminated (items : List Item) : Prop :=
  ∃ front last, items = front ++ [last] ∧ Ordinary front ∧ last.token.isTerminal = true

/-- What a state offers, by the successor it names. -/
def Concluded : Option State → List Item → Prop
  | some _, items => Ordinary items
  | none, items => Terminated items

theorem ordinary_nil : Ordinary [] := by intro i hi; contradiction

theorem Ordinary.cons {item : Item} {items : List Item} (h : item.token.isTerminal = false)
    (hitems : Ordinary items) : Ordinary (item :: items) := by
  intro i hi
  rcases List.mem_cons.1 hi with rfl | hi
  · exact h
  · exact hitems i hi

theorem Ordinary.append {front items : List Item} (h : Ordinary front) (hitems : Ordinary items) :
    Ordinary (front ++ items) := by
  intro i hi
  rcases List.mem_append.1 hi with hi | hi
  · exact h i hi
  · exact hitems i hi

theorem Terminated.prepend {front items : List Item} (h : Ordinary front)
    (hitems : Terminated items) : Terminated (front ++ items) := by
  obtain ⟨others, last, rfl, hothers, hlast⟩ := hitems
  exact ⟨front ++ others, last, (List.append_assoc _ _ _).symm, h.append hothers, hlast⟩

theorem Concluded.cons {next : Option State} {item : Item} {items : List Item}
    (h : item.token.isTerminal = false) (hitems : Concluded next items) :
    Concluded next (item :: items) := by
  cases next with
  | some state => exact Ordinary.cons h hitems
  | none => exact Terminated.prepend (ordinary_nil.cons h) hitems

/-! ### Scans that offer nothing -/

namespace Scan

/-- Under a live context the scan offers nothing and ends with a value or a fault. -/
def Quiet (m : Scan α) : Prop := ∀ state r, ∃ after,
  (∃ a, m.run ⟨state, false⟩ r = .done (.ok a, after)) ∨
    ∃ cause, m.run ⟨state, false⟩ r = .done (.error (.illegal cause), after)

theorem quiet_pure (a : α) : (pure a : Scan α).Quiet := fun _ r => ⟨r, .inl ⟨a, rfl⟩⟩

theorem Quiet.bind {m : Scan α} {f : α → Scan β} (hm : m.Quiet) (hf : ∀ a, (f a).Quiet) :
    Quiet (m >>= f) := by
  intro state r
  rw [run_bind]
  obtain ⟨middle, ⟨a, h⟩ | ⟨cause, h⟩⟩ := hm state r
  · rw [h]
    exact hf a state middle
  · rw [h]
    exact ⟨middle, .inr ⟨cause, rfl⟩⟩

theorem quiet_check : check.Quiet := fun _ r => ⟨r, .inl ⟨(), rfl⟩⟩

theorem quiet_offset : offset.Quiet := fun _ r => ⟨r, .inl ⟨r.offset, rfl⟩⟩

theorem quiet_refuse (wanted : String) (found : Option Char) :
    (refuse wanted found : Scan α).Quiet := fun _ r => ⟨r, .inr ⟨_, rfl⟩⟩

theorem quiet_look (view : View) : (look view).Quiet := by
  intro state r
  cases h : (view.see r).1 with
  | ok c => exact ⟨_, .inl ⟨_, run_look_of_ok h⟩⟩
  | error e =>
    by_cases he : e = .endOfInput
    · exact ⟨_, .inl ⟨_, run_look_of_end (he ▸ h)⟩⟩
    · exact ⟨_, .inr ⟨_, run_look_of_error h he⟩⟩

theorem quiet_peek : peek.Quiet := quiet_check.bind fun _ => quiet_look _

theorem quiet_read : read.Quiet := quiet_check.bind fun _ => quiet_look _

theorem quiet_textSince (start : Nat) : (textSince start).Quiet := by
  intro state r
  cases h : r.slice start r.offset with
  | ok text => exact ⟨r, .inl ⟨text, run_textSince_of_ok h⟩⟩
  | error cause => exact ⟨r, .inr ⟨_, run_textSince_of_error h⟩⟩

theorem quiet_expect (c : Char) (wanted : String) : (expect c wanted).Quiet := by
  refine quiet_check.bind fun _ => (quiet_look _).bind fun found => ?_
  split
  · exact quiet_pure ()
  · exact quiet_refuse _ _

end Scan

/-! ### From a scan to the end of its state -/

/-- How a state ends after its last scan. -/
def conclude (state : State) :
    Except Halt (Option State) × Reader → Dialogue (Option State × Reader)
  | (.ok next, after) => .done (next, after)
  | (.error .aborted, after) => .note (.aborted state) (.done (none, after))
  | (.error (.illegal cause), after) =>
    .note (.illegal cause) <| .offer (faultAt after.offset cause) fun _ => .done (none, after)

theorem step_eq_conclude (stopped : Bool) (state : State) (r : Reader) :
    step stopped state r =
      .note (.entered state r.offset) (((body state).run ⟨state, stopped⟩ r).bind (conclude state)) := rfl

/-- The shape of a state under a live context, with at most so many items. -/
inductive Concludes (state : State) : Nat → Dialogue (Option State × Reader) → Prop where
  | next {n : Nat} {next : State} {after : Reader} : Concludes state n (.done (some next, after))
  /-- The end of input is the last item. -/
  | last {n : Nat} {after : Reader} {answer : Bool → Dialogue (Option State × Reader)}
      (refused : answer false = .note (.aborted state) (.done (none, after)))
      (taken : answer true = .done (none, after)) :
      Concludes state (n + 1) (.offer ⟨.endOfInput, .empty after.offset⟩ answer)
  /-- A fault is the last item. Nobody asks whether it was taken. -/
  | fault {n : Nat} {cause : LexError} {after : Reader} : Concludes state (n + 1)
      (.note (.illegal cause) (.offer (faultAt after.offset cause) fun _ => .done (none, after)))
  /-- A token was read to its end. If it is refused the state gives up there. -/
  | token {n : Nat} {item : Item} {after : Reader}
      {answer : Bool → Dialogue (Option State × Reader)} (ordinary : item.token.isTerminal = false)
      (stop : item.span.stop = after.offset)
      (refused : answer false = .note (.aborted state) (.done (none, after)))
      (taken : Concludes state n (answer true)) : Concludes state (n + 1) (.offer item answer)

theorem terminated_singleton {item : Item} (h : item.token.isTerminal = true) :
    Terminated [item] := ⟨[], item, rfl, ordinary_nil, h⟩

namespace Concludes
variable {state : State} {n : Nat} {d : Dialogue (Option State × Reader)}

theorem mono {most : Nat} (h : Concludes state n d) (hle : n ≤ most) : Concludes state most d := by
  induction h generalizing most with
  | next => exact .next
  | last refused taken =>
    obtain ⟨m, rfl⟩ := Nat.exists_eq_add_of_le' (Nat.le_trans (Nat.le_add_left 1 _) hle)
    exact .last refused taken
  | fault =>
    obtain ⟨m, rfl⟩ := Nat.exists_eq_add_of_le' (Nat.le_trans (Nat.le_add_left 1 _) hle)
    exact .fault
  | token ordinary stop refused _ ih =>
    obtain ⟨m, rfl⟩ := Nat.exists_eq_add_of_le' (Nat.le_trans (Nat.le_add_left 1 _) hle)
    exact .token ordinary stop refused (ih (Nat.le_of_succ_le_succ hle))

/-- What is offered if nothing is refused. -/
theorem concluded (h : Concludes state n d) :
    Concluded (d.listen true).result.1 (d.listen true).items ∧
      (d.listen true).items.length ≤ n := by
  induction h with
  | next => exact ⟨ordinary_nil, Nat.zero_le _⟩
  | last refused taken =>
    simp only [Dialogue.listen, taken]
    exact ⟨terminated_singleton rfl, Nat.succ_le_succ (Nat.zero_le _)⟩
  | fault => exact ⟨terminated_singleton rfl, Nat.succ_le_succ (Nat.zero_le _)⟩
  | token ordinary _ _ _ ih => exact ⟨Concluded.cons ordinary ih.1, Nat.succ_le_succ ih.2⟩

end Concludes

open Scan

/-- From the scan on, a state under a live context has its shape, with at most so many
items. -/
def Closes (most : Nat) (m : Scan (Option State)) : Prop := ∀ state r,
  Concludes state most ((m.run ⟨state, false⟩ r).bind (conclude state))

section closes
variable {n : Nat} {f : Unit → Scan (Option State)} {m : Scan α} {g : α → Scan (Option State)}

theorem Closes.mono {most : Nat} {m : Scan (Option State)} (h : Closes n m) (hle : n ≤ most) :
    Closes most m := fun state r => (h state r).mono hle

theorem Closes.assoc {h : α → Scan β} {f : β → Scan (Option State)}
    (hm : Closes n (m >>= fun a => h a >>= f)) : Closes n (m >>= h >>= f) :=
  (Scan.bind_assoc m h f).symm ▸ hm

/-- A fault in a quiet scan is the only item, and otherwise the rest decides. -/
theorem Closes.quiet (hm : m.Quiet) (hg : ∀ a, Closes (n + 1) (g a)) :
    Closes (n + 1) (m >>= g) := by
  intro state r
  rw [run_bind]
  obtain ⟨after, ⟨a, h⟩ | ⟨cause, h⟩⟩ := hm state r
  · rw [h]
    exact hg a state after
  · rw [h]
    exact .fault

theorem closes_next (next : State) : Closes n (pure (some next)) := fun _ _ => .next

theorem closes_finish : Closes (n + 1) finish := fun _ _ => .last rfl rfl

theorem closes_illegal (cause : LexError) : Closes (n + 1) (illegal cause >>= g) :=
  fun _ _ => .fault

theorem closes_refuse_bind (wanted : String) (found : Option Char) :
    Closes (n + 1) (refuse wanted found >>= g) := fun _ _ => .fault

theorem closes_refuse (wanted : String) (found : Option Char) :
    Closes (n + 1) (refuse wanted found) := fun _ _ => .fault

/-- Moving the reader cannot fail. -/
theorem Closes.move {motion : Motion} (hf : Closes n (f ())) : Closes n (move motion >>= f) :=
  fun state r => hf state (motion.move r)

/-- A token that ends no stream stands in front of the items of the rest. -/
theorem Closes.emit {token : Token} {start : Nat} (h : token.isTerminal = false)
    (hf : Closes n (f ())) : Closes (n + 1) (emit token start >>= f) :=
  fun state r => .token h rfl rfl (hf state r)

/-! ### The parts of a filter -/

theorem closes_finishFilter : Closes (n + 1) finishFilter := by
  refine .assoc <| .quiet quiet_peek fun found => ?_
  split
  · exact .assoc <| .quiet quiet_offset fun start => .assoc <| .move <| .emit rfl (closes_next _)
  · exact closes_next _

theorem Closes.quotedName (hf : Closes (n + 1) (f ())) : Closes (n + 2) (quotedName >>= f) := by
  refine .assoc <| .quiet quiet_offset fun opening => .assoc <| .quiet (quiet_expect _ _) fun _ =>
    .assoc <| .quiet quiet_offset fun start => .assoc <| .move <|
      .assoc <| .quiet quiet_peek fun found => ?_
  split
  · exact .assoc (closes_illegal _)
  · exact .assoc <| .quiet (quiet_textSince start) fun text => .assoc <| .emit rfl (.move hf)

theorem Closes.integer (hf : Closes (n + 1) (f ())) : Closes (n + 2) (integer >>= f) := by
  refine .assoc <| .quiet quiet_offset fun start => .assoc <| .quiet quiet_read fun found => ?_
  split
  · exact .assoc (closes_refuse_bind _ _)
  · refine .assoc <| .move <| .assoc <| .quiet quiet_peek fun _ =>
      .assoc <| .quiet (quiet_textSince start) fun literal => ?_
    split
    · exact .emit rfl hf
    · exact closes_illegal _

theorem Closes.bounds (hf : Closes (n + 1) (f ())) : Closes (n + 4) (bounds >>= f) := by
  refine .assoc <| .integer <| .assoc <| .move <| .assoc <| .quiet quiet_peek fun found => ?_
  split
  · exact .assoc <| .quiet quiet_offset fun start => .assoc <| .move <| .assoc <| .emit rfl <|
      .assoc <| .move <| .integer hf
  · exact hf.mono (Nat.le_add_right _ 2)

/-! ### The states -/

theorem closes_expression : Closes 6 expression := by
  refine .move <| .quiet quiet_peek fun found => ?_
  split
  · exact closes_next _
  · exact closes_finish
  · exact closes_refuse _ _

theorem closes_filter : Closes 6 filter := by
  refine .move <| .quiet quiet_offset fun start => .quiet (quiet_expect _ _) fun _ =>
    .emit rfl <| .move <| .quiet quiet_peek fun found => ?_
  split
  · exact closes_next _
  · exact closes_next _
  · exact closes_next _
  · exact closes_finish

theorem closes_bareField : Closes 6 bareField :=
  .quiet quiet_offset fun start => .quiet quiet_check fun _ => .move <|
    .quiet (quiet_textSince start) fun _ => .emit rfl closes_finishFilter

theorem closes_quotedField : Closes 6 quotedField := .quotedName closes_finishFilter

/-- The longest state: brackets around a slice, and a question mark. -/
theorem closes_index : Closes 6 index := by
  have hclose : Closes 2 closeIndex :=
    .move <| .quiet quiet_offset fun start => .quiet (quiet_expect _ _) fun _ =>
      .emit rfl closes_finishFilter
  refine .move <| .quiet quiet_offset fun start => .quiet (quiet_expect _ _) fun _ =>
    .emit rfl <| .move <| .quiet quiet_peek fun found => ?_
  split
  · exact hclose.mono (by decide)
  · exact (Closes.quotedName hclose).mono (by decide)
  · exact .bounds hclose

theorem closes_connector : Closes 6 connector := by
  refine .move <| .quiet quiet_offset fun start => .quiet quiet_peek fun found => ?_
  split
  · exact .move <| .emit rfl (closes_next _)
  · exact .move <| .emit rfl (closes_next _)
  · exact closes_next _
  · exact closes_finish
  · exact closes_refuse _ _

theorem closes_body (state : State) : Closes 6 (body state) := by
  cases state
  · exact closes_expression
  · exact closes_filter
  · exact closes_bareField
  · exact closes_quotedField
  · exact closes_index
  · exact closes_connector

end closes

/-- **A state offers no terminal token if it names a successor, and one, the last, if
it stops**; and it offers at most six items. -/
theorem step_concluded (state : State) (r : Reader) :
    Concluded ((step false state r).listen true).result.1 ((step false state r).listen true).items ∧
      ((step false state r).listen true).items.length ≤ 6 := by
  rw [step_eq_conclude]
  exact (closes_body state state r).concluded

/-! ### The run -/

theorem itemsFrom_step (state : State) (r : Reader) :
    itemsFrom state r = ((step false state r).listen true).items ++
      ((resume ((step false state r).listen true).result).listen true).items := by
  rw [itemsFrom, run_eq, Dialogue.listen_bind]
  rfl

/-- **A run ends with its only terminal token.** -/
theorem itemsFrom_terminated (state : State) (r : Reader) : Terminated (itemsFrom state r) := by
  induction hn : weight state r using Nat.strongRecOn generalizing state r with
  | ind n ih =>
    have hbelow := (step_descends false state r).listen true
    have hstep := (step_concluded state r).1
    rw [itemsFrom_step]
    generalize (step false state r).listen true = heard at hbelow hstep
    obtain ⟨records, items, next, after⟩ := heard
    cases next with
    | none =>
      show Terminated (items ++ [])
      rw [List.append_nil]
      exact hstep
    | some next =>
      have hrest := ih (weight next after) (hn ▸ hbelow next rfl) next after rfl
      exact hrest.prepend hstep

end Lexer

/-- **Exactly one terminal token, always last.** The items of a source are not empty, the
last of them is the end of input or a fault and no other is; after it no move succeeds;
and a state that names a successor has offered no such item, while one that stops has
offered exactly one, as its last. -/
theorem lex_terminated (driver : Driver) (source : ByteArray) :
    Terminated (lex driver none source) ∧
    ((Tokens.ofSource driver none source).drain none).2.advance none none =
      (false, ((Tokens.ofSource driver none source).drain none).2) ∧
    ∀ state r, Concluded ((step false state r).listen true).result.1
      ((step false state r).listen true).items := by
  refine ⟨?_, (Tokens.handsOver_ofSource driver source).drain.2, fun state r => ?_⟩
  · rw [lex_eq_itemsFrom]
    exact itemsFrom_terminated _ _
  · exact (step_concluded state r).1

end PathFilter
