import PathFilter.Parse.Error
import PathFilter.Stream

/-! Looking ahead in a token stream.

A parser pulls items one at a time and may push the latest one back. What it has
pulled lies in three slots, the latest in the first of them, and a count says how
many slots are to be read again before the stream is moved. Pushing back only
counts up, so it is right only after a `next` that succeeded, and then the item
it uncovers is the one that `next` returned.

The items to come and the items pushed back together bound how often a parser can
still read (`Lookahead.size`): every `next` lowers the bound, and an item that is
looked at and left leaves it as it was. -/
namespace PathFilter

structure Lookahead (σ : Type) where
  stream : σ
  slots : Vector Item 3
  /-- How many slots are to be read again. -/
  pushed : Nat

/-- A parser: it reads from a stream and ends with a value or an error, and the
stream it leaves is there in both cases. -/
abbrev Parser (σ : Type) (α : Type) : Type := EStateM ParseError (Lookahead σ) α

namespace Lookahead

/-- A stream of which nothing has been pulled. -/
def ofStream {σ : Type} (stream : σ) : Lookahead σ :=
  ⟨stream, .replicate 3 ⟨.endOfInput, .empty 0⟩, 0⟩

/-- A bound on the reads still to come. -/
def size {σ : Type} [TokenStream σ] (l : Lookahead σ) : Nat := TokenStream.size l.stream + l.pushed

end Lookahead

/-- The error for an item that stands where something else is wanted. -/
def Item.unexpected (item : Item) (wanted : String) : ParseError :=
  match item.token with
  | .illegal cause => .lexical item.span.start cause
  | .endOfInput => .unexpectedEnd wanted
  | other => .unexpected wanted other.kind item.span.start

namespace Parser
variable {σ α β : Type}

section reads
variable [TokenStream σ]

/-- Moves the stream to its next item. -/
def pull : Parser σ Item := fun l =>
  match TokenStream.advance l.stream with
  | (true, stream) =>
    match TokenStream.current stream with
    | some item => .ok item {l with stream}
    | none => .error .streamClosed {l with stream}
  | (false, stream) =>
    match TokenStream.stop? stream with
    | some why => .error (.stopped why) {l with stream}
    | none => .error .streamClosed {l with stream}

/-- Pulls an item into the first slot. -/
def refill : Parser σ Unit := do
  let item ← pull
  modify fun l => {l with slots := l.slots.set 0 item}

/-- The item in a slot. -/
def slot (i : Nat) : Parser σ Item := fun l =>
  match l.slots[i]? with
  | some item => .ok item l
  | none => .error .streamClosed l

/-- The next item, not consumed. -/
def peek : Parser σ Item := do
  if (← get).pushed = 0 then
    refill
    modify fun l => {l with pushed := 1}
  slot ((← get).pushed - 1)

/-- The next item, consumed. -/
def next : Parser σ Item := do
  if (← get).pushed = 0 then refill
  else modify fun l => {l with pushed := l.pushed - 1}
  slot (← get).pushed

/-- Pushes back the item the latest `next` returned. -/
def backup : Parser σ Unit := modify fun l => {l with pushed := l.pushed + 1}

def peekKind : Parser σ Kind := return (← peek).kind

/-- Consumes the next item if it is of the kind. -/
def accept (kind : Kind) : Parser σ Bool := do
  let item ← next
  if item.kind = kind then return true
  backup
  return false

/-- Consumes the next item, which has to be of the kind. -/
def expect (kind : Kind) (wanted : String) : Parser σ Item := do
  let item ← next
  if item.kind = kind then return item
  throw (item.unexpected wanted)

end reads

/-! ### What parsers leave to read -/

/-- If the parser ends with a value, it ends in the class. -/
def Ends (m : Parser σ α) (l : Lookahead σ) (Q : α → Lookahead σ → Prop) : Prop :=
  match m l with
  | .ok a after => Q a after
  | .error _ _ => True

section rules
variable {m : Parser σ α} {f : α → Parser σ β} {l : Lookahead σ} {P Q : α → Lookahead σ → Prop}

theorem Ends.mono (h : Ends m l P) (hPQ : ∀ a after, P a after → Q a after) : Ends m l Q := by
  unfold Ends at *
  split <;> simp_all

theorem Ends.pure {a : α} (h : Q a l) : Ends (Pure.pure a : Parser σ α) l Q := h

theorem Ends.bind {S : β → Lookahead σ → Prop}
    (h : Ends m l fun a after => Ends (f a) after S) : Ends (m >>= f) l S := by
  unfold Ends at *
  simp only [Bind.bind, EStateM.bind]
  split at h <;> simp_all

theorem ends_throw {e : ParseError} : Ends (throw e : Parser σ α) l Q := trivial

end rules

theorem ends_get {l : Lookahead σ} {Q : Lookahead σ → Lookahead σ → Prop} (h : Q l l) :
    Ends get l Q := h

theorem ends_modify {l : Lookahead σ} {g : Lookahead σ → Lookahead σ}
    {Q : Unit → Lookahead σ → Prop} (h : Q () (g l)) : Ends (modify g) l Q := h

theorem ends_slot {i : Nat} {l : Lookahead σ} {Q : Item → Lookahead σ → Prop}
    (h : ∀ item, Q item l) : Ends (slot i) l Q := by
  unfold Ends slot
  cases l.slots[i]? with
  | some item => exact h item
  | none => trivial

section bounds
variable [TokenStream σ]

theorem ends_pull {l : Lookahead σ} {Q : Item → Lookahead σ → Prop}
    (h : ∀ item after, after.pushed = l.pushed → after.size < l.size → Q item after) :
    Ends pull l Q := by
  unfold Ends pull
  split <;> try trivial
  next item after heq =>
    split at heq
    · next stream ha =>
      split at heq
      · have hlt := TokenStream.size_advance_lt l.stream (by rw [ha])
        rw [ha] at hlt
        obtain ⟨rfl, rfl⟩ := EStateM.Result.ok.inj heq
        exact h _ _ rfl (Nat.add_lt_add_right hlt _)
      · contradiction
    · split at heq <;> contradiction

theorem ends_refill {l : Lookahead σ} {Q : Unit → Lookahead σ → Prop}
    (h : ∀ after, after.pushed = l.pushed → after.size < l.size → Q () after) :
    Ends refill l Q :=
  .bind <| ends_pull fun _ _ hp hs => ends_modify <| h _ hp hs

/-- Looking at an item leaves it to be read. -/
theorem ends_peek {l : Lookahead σ} {Q : Item → Lookahead σ → Prop}
    (h : ∀ item after, after.size ≤ l.size → Q item after) : Ends peek l Q := by
  refine .bind <| ends_get ?_
  split
  · next hp =>
    refine .bind <| ends_refill fun a ha hs => .bind <| ends_modify <| .bind <| ends_get <|
      ends_slot fun item => h item _ ?_
    simp only [Lookahead.size] at hs ⊢
    omega
  · exact .bind <| ends_get <| ends_slot fun item => h item l (Nat.le_refl _)

/-- Reading an item leaves less to read. -/
theorem ends_next {l : Lookahead σ} {Q : Item → Lookahead σ → Prop}
    (h : ∀ item after, after.size < l.size → Q item after) : Ends next l Q := by
  refine .bind <| ends_get ?_
  split
  · exact .bind <| ends_refill fun a _ hs => .bind <| ends_get <| ends_slot fun item => h item a hs
  · next hp =>
    refine .bind <| ends_modify <| .bind <| ends_get <| ends_slot fun item => h item _ ?_
    simp only [Lookahead.size]
    omega

theorem ends_backup {l : Lookahead σ} {Q : Unit → Lookahead σ → Prop}
    (h : ∀ after, after.size ≤ l.size + 1 → Q () after) : Ends backup l Q :=
  ends_modify <| h _ (by simp only [Lookahead.size]; omega)

theorem ends_peekKind {l : Lookahead σ} {Q : Kind → Lookahead σ → Prop}
    (h : ∀ kind after, after.size ≤ l.size → Q kind after) : Ends peekKind l Q :=
  .bind <| ends_peek fun item after ha => .pure <| h item.kind after ha

/-- An accepted item is consumed, and one that is refused is not. -/
theorem ends_accept {kind : Kind} {l : Lookahead σ} {Q : Bool → Lookahead σ → Prop}
    (h : ∀ taken after, after.size ≤ l.size → Q taken after) : Ends (accept kind) l Q := by
  refine .bind <| ends_next fun item after ha => ?_
  split
  · exact .pure <| h true after (Nat.le_of_lt ha)
  · exact .bind <| ends_backup fun last hl => .pure <| h false last (by omega)

theorem ends_expect {kind : Kind} {wanted : String} {l : Lookahead σ}
    {Q : Item → Lookahead σ → Prop} (h : ∀ item after, after.size < l.size → Q item after) :
    Ends (expect kind wanted) l Q := by
  refine .bind <| ends_next fun item after ha => ?_
  split
  · exact .pure <| h item after ha
  · exact ends_throw

end bounds
end Parser
end PathFilter
