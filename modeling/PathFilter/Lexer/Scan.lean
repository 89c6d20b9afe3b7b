import PathFilter.Lexer.Dialogue

/-! Scanning steps: what a state of the lexer is put together from.

A `Scan` is a program. It asks for operations, one after another, and goes on with what
each of them answers. What the operations do is said once (`Operation.run`): they read from
a `Reader`, offer items in a `Dialogue`, and end with an answer or a halt. What a scan does
is read off it (`Scan.run`). The reader it leaves is there in both cases, because the place
where a scan halted is part of what is reported. A state runs under a context that is done
or live throughout; under a done one the first look at the source halts.

`Ends m r Q` says that whenever `m`, begun at `r`, ends with a value, that value
and the reader are in `Q`. Its rules follow the ways to put scans together. -/
namespace PathFilter.Lexer

/-- Why a scan stops early. -/
inductive Halt where
  /-- Nobody wants more items. Nothing is reported. -/
  | aborted
  /-- The source is at fault, and the last token says why. -/
  | illegal (cause : LexError)
deriving DecidableEq

/-- What a scan may ask about its surroundings. -/
structure Setting where
  state : State
  /-- The context is done. -/
  stopped : Bool

/-! ### Operations -/

/-- A look at the source. -/
inductive View where
  /-- The next character, not consumed. -/
  | peek
  /-- The next character, consumed. -/
  | read
  /-- The next character, consumed where the other has to stand. -/
  | demand (wanted : Char)

def View.see : View → Reader → Except ReadError Char × Reader
  | .peek, r => r.peek
  | .read, r | .demand _, r => r.read

/-- A way to move the reader that looks at nothing. -/
inductive Motion where
  /-- Over a character that a peek has seen. -/
  | bump
  | skipBlanks
  | skipWhile (p : Char → Bool)

def Motion.move : Motion → Reader → Reader
  | .bump, r => r.read.2
  | .skipBlanks, r => r.skipBlanks
  | .skipWhile p, r => r.skipWhile p

inductive Operation where
  /-- Halts if the context is done. -/
  | check
  | offset
  | look (view : View)
  | move (motion : Motion)
  /-- The text read since an offset. -/
  | textSince (start : Nat)
  /-- Offers a token that was read since an offset, and halts if it is refused. -/
  | emit (token : Token) (start : Nat)
  | illegal (cause : LexError)
  /-- Reports that something else was found. -/
  | refuse (wanted : String) (found : Option Char)

/-- What an operation answers if it does not halt. -/
abbrev Operation.Answer : Operation → Type
  | .check | .move _ | .emit .. => Unit
  | .offset => Nat
  | .look _ => Option Char
  | .textSince _ => String
  | .illegal _ | .refuse .. => Empty

/-- What an operation does. A look finds a character, nothing at the end of the source, or
a fault. -/
def Operation.run : (op : Operation) → Setting → Reader →
    Dialogue (Except Halt op.Answer × Reader)
  | .check, setting, r => .done (if setting.stopped then .error .aborted else .ok (), r)
  | .offset, _, r => .done (.ok r.offset, r)
  | .look view, setting, r =>
    let (found, after) := view.see r
    match found with
    | .ok c => .done (.ok (some c), after)
    | .error .endOfInput => .done (.ok none, after)
    | .error cause => .done (.error (.illegal (.read setting.state.label cause)), after)
  | .move motion, _, r => .done (.ok (), motion.move r)
  | .textSince start, setting, r =>
    match r.slice start r.offset with
    | .ok text => .done (.ok text, r)
    | .error cause => .done (.error (.illegal (.read setting.state.label cause)), r)
  | .emit token start, _, r =>
    .offer ⟨token, start, r.offset⟩ fun taken =>
      .done (if taken then .ok () else .error .aborted, r)
  | .illegal cause, _, r => .done (.error (.illegal cause), r)
  | .refuse wanted found, setting, r =>
    .done (.error (.illegal (.expected setting.state.label wanted found)), r)

/-! ### Scans -/

/-- A program that asks for operations and goes on with what they answer. -/
inductive Scan (α : Type) where
  | done (a : α)
  | ask (op : Operation) (go : op.Answer → Scan α)

namespace Scan
variable {α β γ : Type}

protected def bind : Scan α → (α → Scan β) → Scan β
  | .done a, f => f a
  | .ask op go, f => .ask op fun answer => (go answer).bind f

instance : Monad Scan where
  pure := done
  bind := Scan.bind

theorem bind_assoc (m : Scan α) (f : α → Scan β) (g : β → Scan γ) :
    m >>= f >>= g = m >>= fun a => f a >>= g := by
  induction m with
  | done a => rfl
  | ask op go ih => exact congrArg (ask op) (funext ih)

/-- What comes after an end, unless it is a halt. -/
def proceed (go : α → Reader → Dialogue (Except Halt β × Reader)) :
    Except Halt α × Reader → Dialogue (Except Halt β × Reader)
  | (.ok a, after) => go a after
  | (.error halt, after) => .done (.error halt, after)

/-- What a scan does: its operations, one after another, up to the first that halts. -/
def run : Scan α → Setting → Reader → Dialogue (Except Halt α × Reader)
  | .done a, _, r => .done (.ok a, r)
  | .ask op go, setting, r =>
    (op.run setting r).bind (proceed fun answer after => (go answer).run setting after)

theorem run_bind (m : Scan α) (f : α → Scan β) (setting : Setting) (r : Reader) :
    (m >>= f).run setting r =
      (m.run setting r).bind (proceed fun a after => (f a).run setting after) := by
  induction m generalizing r with
  | done a => rfl
  | ask op go ih =>
    refine Eq.trans ?_ (Dialogue.bind_assoc _ _ _).symm
    refine congrArg (Dialogue.bind _) (funext fun (outcome, after) => ?_)
    cases outcome with
    | ok answer => exact ih answer after
    | error halt => rfl

/-- An operation on its own. -/
theorem run_ask (op : Operation) (setting : Setting) (r : Reader) :
    (ask op done).run setting r = op.run setting r := by
  refine Eq.trans ?_ (Dialogue.bind_done _)
  refine congrArg (Dialogue.bind _) (funext fun (outcome, after) => ?_)
  cases outcome <;> rfl

/-! ### Steps -/

def illegal (cause : LexError) : Scan α := .ask (.illegal cause) nofun

def refuse (wanted : String) (found : Option Char) : Scan α := .ask (.refuse wanted found) nofun

def check : Scan Unit := .ask .check .done

def offset : Scan Nat := .ask .offset .done

def look (view : View) : Scan (Option Char) := .ask (.look view) .done

def move (motion : Motion) : Scan Unit := .ask (.move motion) .done

/-- The next character, not consumed. -/
def peek : Scan (Option Char) := do
  check
  look .peek

/-- The next character, consumed. -/
def read : Scan (Option Char) := do
  check
  look .read

/-- Consumes a character that a peek has seen. -/
def bump : Scan Unit := move .bump

def skipBlanks : Scan Unit := move .skipBlanks

def skipWhile (p : Char → Bool) : Scan Unit := move (.skipWhile p)

def textSince (start : Nat) : Scan String := .ask (.textSince start) .done

def emit (token : Token) (start : Nat) : Scan Unit := .ask (.emit token start) .done

/-- Consumes the character that has to stand here. -/
def expect (c : Char) (wanted : String) : Scan Unit := do
  check
  let found ← look (.demand c)
  if found = some c then pure () else refuse wanted found

section outcomes
variable {view : View} {setting : Setting} {r : Reader} {start : Nat}

theorem run_look_of_ok {c : Char} (h : (view.see r).1 = .ok c) :
    (look view).run setting r = .done (.ok (some c), (view.see r).2) :=
  (run_ask _ _ _).trans (by simp only [Operation.run, h])

theorem run_look_of_end (h : (view.see r).1 = .error .endOfInput) :
    (look view).run setting r = .done (.ok none, (view.see r).2) :=
  (run_ask _ _ _).trans (by simp only [Operation.run, h])

theorem run_look_of_error {e : ReadError} (h : (view.see r).1 = .error e) (he : e ≠ .endOfInput) :
    (look view).run setting r =
      .done (.error (.illegal (.read setting.state.label e)), (view.see r).2) :=
  (run_ask _ _ _).trans (by simp only [Operation.run, h])

theorem run_textSince_of_ok {text : String} (h : r.slice start r.offset = .ok text) :
    (textSince start).run setting r = .done (.ok text, r) :=
  (run_ask _ _ _).trans (by simp only [Operation.run, h])

theorem run_textSince_of_error {cause : ReadError} (h : r.slice start r.offset = .error cause) :
    (textSince start).run setting r =
      .done (.error (.illegal (.read setting.state.label cause)), r) :=
  (run_ask _ _ _).trans (by simp only [Operation.run, h])

end outcomes

/-! ### Where a scan can end -/

/-- If the scan ends with a value, it ends in the class. -/
def Ends (m : Scan α) (r : Reader) (Q : α → Reader → Prop) : Prop :=
  ∀ setting, (m.run setting r).Always fun
    | (.ok a, after) => Q a after
    | (.error _, _) => True

section rules
variable {m : Scan α} {f : α → Scan β} {r : Reader} {Q P : α → Reader → Prop}

theorem Ends.mono (h : m.Ends r P) (hPQ : ∀ a after, P a after → Q a after) : m.Ends r Q :=
  fun setting => (h setting).mono fun
    | (.ok a, after) => hPQ a after
    | (.error _, _) => fun _ => trivial

theorem Ends.pure {a : α} (h : Q a r) : Ends (Pure.pure a : Scan α) r Q := fun _ => h

theorem Ends.bind {S : β → Reader → Prop} (h : m.Ends r fun a after => (f a).Ends after S) :
    Ends (m >>= f) r S := by
  intro setting
  rw [run_bind]
  exact Dialogue.Always.bind <| (h setting).mono fun
    | (.ok _, _) => fun hf => hf setting
    | (.error _, _) => fun _ => trivial

theorem ends_illegal {cause : LexError} : (illegal cause : Scan α).Ends r Q := fun _ => trivial

theorem ends_refuse {wanted : String} {found : Option Char} :
    (refuse wanted found : Scan α).Ends r Q := fun _ => trivial

end rules

section steps
variable {r : Reader}

theorem ends_check {Q : Unit → Reader → Prop} (h : Q () r) : check.Ends r Q := fun setting => by
  rw [check, run_ask]
  cases hs : setting.stopped <;> simp [Operation.run, Dialogue.Always, hs, h]

theorem ends_offset {Q : Nat → Reader → Prop} (h : Q r.offset r) : offset.Ends r Q := fun _ => h

theorem ends_move {motion : Motion} {Q : Unit → Reader → Prop} (h : Q () (motion.move r)) :
    (move motion).Ends r Q := fun _ => h

/-- A look that ends found a character or the end of the source. -/
theorem ends_look {view : View} {Q : Option Char → Reader → Prop}
    (hc : ∀ c, (view.see r).1 = .ok c → Q (some c) (view.see r).2)
    (he : (view.see r).1 = .error .endOfInput → Q none (view.see r).2) : (look view).Ends r Q := by
  intro setting
  cases h : (view.see r).1 with
  | ok c =>
    rw [run_look_of_ok h]
    exact hc c h
  | error e =>
    by_cases hend : e = .endOfInput
    · subst hend
      rw [run_look_of_end h]
      exact he h
    · rw [run_look_of_error h hend]
      trivial

/-- What a peek has seen is read next, and there is as much to read as there was. -/
theorem ends_peek_seen {Q : Option Char → Reader → Prop}
    (hc : ∀ c after, after.read.1 = .ok c → after.left = r.left → Q (some c) after)
    (he : ∀ after, after.left = r.left → Q none after) : peek.Ends r Q :=
  .bind <| ends_check <| ends_look
    (fun c h => hc c _ (r.read_peek.trans h) r.left_peek) fun _ => he _ r.left_peek

theorem ends_peek {Q : Option Char → Reader → Prop}
    (h : ∀ found after, after.left = r.left → Q found after) : peek.Ends r Q :=
  ends_peek_seen (fun c after _ => h (some c) after) (h none)

/-- A read leaves less, if it found a character. -/
theorem ends_read {Q : Option Char → Reader → Prop}
    (hc : ∀ c after, after.left < r.left → Q (some c) after)
    (he : ∀ after, after.left ≤ r.left → Q none after) : read.Ends r Q :=
  .bind <| ends_check <|
    ends_look (fun _ h => hc _ _ (Reader.left_read_lt h)) (fun _ => he _ (Reader.left_read_le r))

theorem ends_bump {Q : Unit → Reader → Prop} (h : ∀ after, after.left ≤ r.left → Q () after) :
    bump.Ends r Q :=
  ends_move <| h _ (Reader.left_read_le r)

theorem ends_skipWhile {p : Char → Bool} {Q : Unit → Reader → Prop}
    (h : ∀ after, after.left ≤ r.left → Q () after) : (skipWhile p).Ends r Q :=
  ends_move <| h _ (Reader.left_skipWhile_le p r)

theorem ends_skipBlanks {Q : Unit → Reader → Prop}
    (h : ∀ after, after.left ≤ r.left → Q () after) : skipBlanks.Ends r Q :=
  ends_move <| h _ (Reader.left_skipWhile_le _ r)

theorem ends_textSince {start : Nat} {Q : String → Reader → Prop} (h : ∀ text, Q text r) :
    (textSince start).Ends r Q := by
  intro setting
  cases hslice : r.slice start r.offset with
  | ok text =>
    rw [run_textSince_of_ok hslice]
    exact h text
  | error cause =>
    rw [run_textSince_of_error hslice]
    trivial

theorem ends_emit {token : Token} {start : Nat} {Q : Unit → Reader → Prop} (h : Q () r) :
    (emit token start).Ends r Q := fun _ taken => by
  cases taken
  · trivial
  · exact h

/-- A character that has to stand here is consumed. -/
theorem ends_expect {c : Char} {wanted : String} {Q : Unit → Reader → Prop}
    (h : ∀ after, after.left < r.left → Q () after) : (expect c wanted).Ends r Q := by
  refine .bind <| ends_check <| .bind <| ends_look (fun d hd => ?_) (fun _ => ?_)
  · split
    · exact .pure (h _ (Reader.left_read_lt hd))
    · exact ends_refuse
  · rw [if_neg (by simp)]
    exact ends_refuse

end steps
end Scan
end PathFilter.Lexer
