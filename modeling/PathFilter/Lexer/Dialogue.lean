import PathFilter.Lexer.State

/-! What a lexer says while it works, before anyone has answered.

A `Dialogue` is a tree. Its inner nodes are the records a lexer leaves and the
items it offers; below an offer it branches on whether the item was taken. The
lexer is written once, as a dialogue, and each way to run it is a way to answer:
`listen` plays a dialogue to its end with one answer to every offer, and `settle`
plays it up to the first offer and leaves it waiting there. -/
namespace PathFilter.Lexer

inductive Dialogue (α : Type) where
  | done (result : α)
  | note (record : Record) (rest : Dialogue α)
  | offer (item : Item) (answer : Bool → Dialogue α)

namespace Dialogue
variable {α β γ : Type}

def bind : Dialogue α → (α → Dialogue β) → Dialogue β
  | .done a, f => f a
  | .note record rest, f => .note record (rest.bind f)
  | .offer item answer, f => .offer item fun taken => (answer taken).bind f

theorem bind_done : (d : Dialogue α) → d.bind .done = d
  | .done _ => rfl
  | .note record rest => congrArg (note record) (bind_done rest)
  | .offer item answer => congrArg (offer item) (funext fun taken => bind_done (answer taken))

theorem bind_assoc (f : α → Dialogue β) (g : β → Dialogue γ) : (d : Dialogue α) →
    (d.bind f).bind g = d.bind fun a => (f a).bind g
  | .done _ => rfl
  | .note record rest => congrArg (note record) (bind_assoc f g rest)
  | .offer item answer => congrArg (offer item) (funext fun taken => bind_assoc f g (answer taken))

/-! ### Ways to answer -/

/-- What came of a dialogue that was played to its end. -/
structure Heard (α : Type) where
  records : List Record
  /-- The items that were taken. -/
  items : List Item
  result : α

/-- Answers every offer alike. -/
def listen (taken : Bool) : Dialogue α → Heard α
  | .done a => ⟨[], [], a⟩
  | .note record rest =>
    let heard := rest.listen taken
    {heard with records := record :: heard.records}
  | .offer item answer =>
    let heard := (answer taken).listen taken
    if taken then {heard with items := item :: heard.items} else heard

/-- The records up to the first offer, and the dialogue that waits there. -/
def settle : Dialogue α → List Record × Dialogue α
  | .note record rest =>
    let (records, waiting) := rest.settle
    (record :: records, waiting)
  | waiting => ([], waiting)

/-! ### Where a dialogue can end -/

/-- Every end of the dialogue, whatever the answers, is in the class. -/
def Always (P : α → Prop) : Dialogue α → Prop
  | .done a => P a
  | .note _ rest => rest.Always P
  | .offer _ answer => ∀ taken, (answer taken).Always P

theorem Always.mono {P Q : α → Prop} (h : ∀ a, P a → Q a) :
    {d : Dialogue α} → d.Always P → d.Always Q
  | .done a, hd => h a hd
  | .note _ rest, hd => Always.mono h (d := rest) hd
  | .offer _ _, hd => fun taken => Always.mono h (hd taken)

theorem Always.bind {P : β → Prop} {f : α → Dialogue β} :
    {d : Dialogue α} → d.Always (fun a => (f a).Always P) → (d.bind f).Always P
  | .done _, hd => hd
  | .note _ rest, hd => Always.bind (d := rest) hd
  | .offer _ _, hd => fun taken => Always.bind (hd taken)

theorem Always.listen {P : α → Prop} (taken : Bool) :
    {d : Dialogue α} → d.Always P → P (d.listen taken).result
  | .done _, hd => hd
  | .note _ rest, hd => Always.listen taken (d := rest) hd
  | .offer _ answer, hd => by
    have := Always.listen taken (hd taken)
    simp only [Dialogue.listen]
    split <;> exact this

/-- A dialogue whose ends carry the proof that they are in the class. -/
def attach {P : α → Prop} : (d : Dialogue α) → d.Always P → Dialogue {a : α // P a}
  | .done a, h => .done ⟨a, h⟩
  | .note record rest, h => .note record (rest.attach h)
  | .offer item answer, h => .offer item fun taken => (answer taken).attach (h taken)

/-- The proofs an attached dialogue carries change nothing of what it says. -/
theorem bind_attach {P : α → Prop} (f : α → Dialogue β) :
    (d : Dialogue α) → (h : d.Always P) → (d.attach h).bind (fun a => f a.1) = d.bind f
  | .done _, _ => rfl
  | .note record rest, h => congrArg (note record) (bind_attach f rest h)
  | .offer item answer, h =>
    congrArg (offer item) (funext fun taken => bind_attach f (answer taken) (h taken))

/-! ### How many items it can hand over -/

/-- The greatest number of offers on any path through the dialogue. -/
def height : Dialogue α → Nat
  | .done _ => 0
  | .note _ rest => rest.height
  | .offer _ answer => max (answer true).height (answer false).height + 1

/-- The items heard and those that can still come are within the bound. -/
theorem listen_add_height_le (taken : Bool) (f : α → Dialogue β) : (d : Dialogue α) →
    (d.listen taken).items.length + (f (d.listen taken).result).height ≤ (d.bind f).height
  | .done _ => by simp [listen, bind]
  | .note _ rest => listen_add_height_le taken f rest
  | .offer _ answer => by
    have := listen_add_height_le taken f (answer taken)
    cases taken <;> simp only [listen, bind, height, if_true, Bool.false_eq_true, if_false,
      List.length_cons] at * <;> omega

theorem settle_height : (d : Dialogue α) → d.settle.2.height = d.height
  | .done _ => rfl
  | .note _ rest => settle_height rest
  | .offer _ _ => rfl

end Dialogue
end PathFilter.Lexer
