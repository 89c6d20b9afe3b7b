import PathFilter.Lexer.Step

/-! What a scan does, act by act.

A scan ends with a value and a reader, and how it came there is not told. Here the same
programs are read once more: `observe` goes through the operations of a scan as `run` does,
and keeps a list of its acts, the latest first: every look at the source, every character
consumed, every text that was cut out and every item that was offered. A loop over a run of
characters is taken apart into the peeks and the bumps it is made of.

With the acts left out nothing is changed. That is seen of each operation, and it follows of
every scan (`follows_observe`), so what is said of the acts is said of what the lexer does. -/
namespace PathFilter.Lexer
variable {α β : Type}

/-! ### Acts -/

inductive Act where
  /-- White space was skipped. -/
  | skipped
  | peeked (offset : Nat) (found : Except ReadError Char)
  | read (offset : Nat) (found : Except ReadError Char)
  /-- A character was consumed that had been seen before. -/
  | bumped (offset : Nat) (found : Except ReadError Char)
  /-- The character was read where the other had to stand. -/
  | demanded (wanted : Char) (offset : Nat) (found : Except ReadError Char)
  | cut (start stop : Nat) (found : Except ReadError String)
  | offered (item : Item) (taken : Bool)

/-- The act looks at the source or moves the reader. -/
def Act.looks : Act → Bool
  | .cut .. | .offered .. => false
  | _ => true

def View.act : View → Nat → Except ReadError Char → Act
  | .peek => .peeked
  | .read => .read
  | .demand wanted => .demanded wanted

/-- A run of characters of a class, each of them peeked at and then bumped over. -/
def sweep (p : Char → Bool) (r : Reader) (acts : List Act) : Reader × List Act :=
  match _h : r.peek.1 with
  | .ok c =>
    let acts := .peeked r.offset (.ok c) :: acts
    if p c then
      sweep p r.peek.2.read.2 (.bumped r.peek.2.offset r.peek.2.read.1 :: acts)
    else (r.peek.2, acts)
  | .error e => (r.peek.2, .peeked r.offset (.error e) :: acts)
termination_by r.left
decreasing_by exact r.left_peek ▸ Reader.left_read_lt (r.read_peek.trans _h)

/-! ### Observing -/

/-- What is handed the acts before it, the latest first, and adds its own. -/
def Observed (α : Type) : Type :=
  Setting → Reader → List Act → Dialogue (Except Halt α × Reader × List Act)

def Motion.observe : Motion → Reader → List Act → Reader × List Act
  | .bump, r, acts => (r.read.2, .bumped r.offset r.read.1 :: acts)
  | .skipBlanks, r, acts => (r.skipBlanks, .skipped :: acts)
  | .skipWhile p, r, acts => sweep p r acts

/-- What an operation does, with its acts. -/
def Operation.observe : (op : Operation) → Observed op.Answer
  | .check, setting, r, acts =>
    .done (if setting.stopped then .error .aborted else .ok (), r, acts)
  | .offset, _, r, acts => .done (.ok r.offset, r, acts)
  | .look view, setting, r, acts =>
    let (found, after) := view.see r
    let acts := view.act r.offset found :: acts
    match found with
    | .ok c => .done (.ok (some c), after, acts)
    | .error .endOfInput => .done (.ok none, after, acts)
    | .error cause => .done (.error (.illegal (.read setting.state.label cause)), after, acts)
  | .move motion, _, r, acts => .done (.ok (), motion.observe r acts)
  | .textSince start, setting, r, acts =>
    let found := r.slice start r.offset
    let acts := .cut start r.offset found :: acts
    match found with
    | .ok text => .done (.ok text, r, acts)
    | .error cause => .done (.error (.illegal (.read setting.state.label cause)), r, acts)
  | .emit token start, _, r, acts =>
    .offer ⟨token, start, r.offset⟩ fun taken =>
      .done (if taken then .ok () else .error .aborted, r,
        .offered ⟨token, start, r.offset⟩ taken :: acts)
  | .illegal cause, _, r, acts => .done (.error (.illegal cause), r, acts)
  | .refuse wanted found, setting, r, acts =>
    .done (.error (.illegal (.expected setting.state.label wanted found)), r, acts)

/-- What comes after an end, unless it is a halt. -/
def Observed.proceed
    (go : α → Reader → List Act → Dialogue (Except Halt β × Reader × List Act)) :
    Except Halt α × Reader × List Act → Dialogue (Except Halt β × Reader × List Act)
  | (.ok a, after, acts) => go a after acts
  | (.error halt, after, acts) => .done (.error halt, after, acts)

namespace Scan

/-- What a scan does, with its acts. -/
def observe : Scan α → Observed α
  | .done a, _, r, acts => .done (.ok a, r, acts)
  | .ask op go, setting, r, acts =>
    (op.observe setting r acts).bind
      (Observed.proceed fun answer after acts => (go answer).observe setting after acts)

theorem observe_bind (m : Scan α) (f : α → Scan β) (setting : Setting) (r : Reader)
    (acts : List Act) : (m >>= f).observe setting r acts =
      (m.observe setting r acts).bind
        (Observed.proceed fun a after acts => (f a).observe setting after acts) := by
  induction m generalizing r acts with
  | done a => rfl
  | ask op go ih =>
    refine Eq.trans ?_ (Dialogue.bind_assoc _ _ _).symm
    refine congrArg (Dialogue.bind _) (funext fun (outcome, after, acts) => ?_)
    cases outcome with
    | ok answer => exact ih answer after acts
    | error halt => rfl

/-- An operation on its own. -/
theorem observe_ask (op : Operation) : (ask op done).observe = op.observe := by
  funext setting r acts
  refine Eq.trans ?_ (Dialogue.bind_done _)
  refine congrArg (Dialogue.bind _) (funext fun (outcome, after, acts) => ?_)
  cases outcome <;> rfl

end Scan

/-! ### Leaving the acts out -/

/-- With its acts left out the one is the other, whatever came before it. -/
def Observed.Follows (m : Observed α)
    (d : Setting → Reader → Dialogue (Except Halt α × Reader)) : Prop := ∀ setting r acts,
  (m setting r acts).bind (fun (outcome, after, _) => .done (outcome, after)) = d setting r

/-- To sweep over a run of characters is to skip it. -/
theorem sweep_fst (p : Char → Bool) (r : Reader) (acts : List Act) :
    (sweep p r acts).1 = r.skipWhile p := by
  fun_induction sweep p r acts with
  | case1 r acts c h acts' hp ih => rw [ih, Reader.skipWhile_of_ok h, if_pos hp]
  | case2 r acts c h acts' hp => rw [Reader.skipWhile_of_ok h, if_neg hp]
  | case3 r acts e h => rw [Reader.skipWhile_of_error h]

theorem Motion.observe_fst (motion : Motion) (r : Reader) (acts : List Act) :
    (motion.observe r acts).1 = motion.move r := by
  cases motion with
  | bump => rfl
  | skipBlanks => rfl
  | skipWhile p => exact sweep_fst p r acts

theorem Operation.follows_observe (op : Operation) : op.observe.Follows op.run := by
  intro setting r acts
  cases op with
  | look view =>
    cases h : (view.see r).1 with
    | ok c => simp only [observe, run, h, Dialogue.bind]
    | error e => cases e <;> simp only [observe, run, h, Dialogue.bind]
  | move motion =>
    exact congrArg (fun after => Dialogue.done (Except.ok (), after)) (motion.observe_fst r acts)
  | textSince start =>
    cases h : r.slice start r.offset <;> simp only [observe, run, h, Dialogue.bind]
  | _ => rfl

/-- **A scan that is observed does what it does**, with its acts left out. -/
theorem Scan.follows_observe (m : Scan α) : m.observe.Follows m.run := by
  induction m with
  | done a => exact fun _ _ _ => rfl
  | ask op go ih =>
    intro setting r acts
    rw [run, ← op.follows_observe setting r acts, observe, Dialogue.bind_assoc,
      Dialogue.bind_assoc]
    refine congrArg (Dialogue.bind _) (funext fun (outcome, after, acts) => ?_)
    cases outcome with
    | ok answer => exact ih answer setting after acts
    | error halt => rfl

end PathFilter.Lexer
