import PathFilter.Parse.Lookahead
import PathFilter.Proofs.Stream.Moves

/-! What a parser ends with that reads one item.

A read takes the item that was pushed back, if one was, and moves the stream if none was
(`next_cases`). The others that read are told from it: to look at an item is to consume it
and to push it back (`peek_of_ok`), and what is accepted or expected was consumed first.
What is proved of parsers further on uses these equations and opens none of the reads. -/
namespace PathFilter
open TokenStream

namespace Parser
variable {σ α β : Type} {m : Parser σ α} {l after : Lookahead σ}

/-- What a parser ends with, and what it leaves. -/
def result (m : Parser σ α) (l : Lookahead σ) : Except ParseError α × Lookahead σ :=
  match m l with
  | .ok a after => (.ok a, after)
  | .error e after => (.error e, after)

theorem result_eq_ok_iff {a : α} : m.result l = (.ok a, after) ↔ m l = .ok a after := by
  unfold result
  split <;> simp_all

theorem result_eq_error_iff {e : ParseError} :
    m.result l = (.error e, after) ↔ m l = .error e after := by
  unfold result
  split <;> simp_all

theorem bind_of_ok {f : α → Parser σ β} {a : α} (h : m.result l = (.ok a, after)) :
    (m >>= f).result l = (f a).result after := by
  rw [result_eq_ok_iff] at h
  simp only [result, Bind.bind, EStateM.bind, h]

theorem bind_of_error {f : α → Parser σ β} {e : ParseError}
    (h : m.result l = (.error e, after)) : (m >>= f).result l = (.error e, after) := by
  rw [result_eq_error_iff] at h
  simp only [result, Bind.bind, EStateM.bind, h]

section reads
variable [TokenStream σ] {item : Item} {e : ParseError}

theorem result_pull (l : Lookahead σ) :
    pull.result l = (outcome l.stream, {l with stream := moved l.stream}) := by
  unfold result pull outcome moved
  cases hm : advance l.stream with
  | mk shown stream =>
    cases shown with
    | true => cases hc : current stream <;> simp only [hc]
    | false => cases hs : stop? stream <;> simp only [hs, ending]

/-- What is pulled goes to the first slot. -/
theorem refill_of_ok (h : outcome l.stream = .ok item) :
    refill.result l = (.ok (), ⟨moved l.stream, l.slots.setIfInBounds 0 item, l.pushed⟩) := by
  have hpull := result_pull l
  rw [h] at hpull
  have hset : l.slots.setIfInBounds 0 item = l.slots.set 0 item :=
    Vector.toArray_inj.1 (dif_pos (by simp))
  rw [hset]
  exact bind_of_ok hpull

theorem refill_of_error (h : outcome l.stream = .error e) :
    refill.result l = (.error e, {l with stream := moved l.stream}) := by
  have hpull := result_pull l
  rw [h] at hpull
  exact bind_of_error hpull

/-- With nothing pushed back, the next item is pulled. -/
theorem next_of_ok (hp : l.pushed = 0) (h : outcome l.stream = .ok item) :
    next.result l = (.ok item, ⟨moved l.stream, l.slots.setIfInBounds 0 item, 0⟩) := by
  refine (bind_of_ok (a := l) rfl).trans ?_
  rw [if_pos hp]
  refine (bind_of_ok (refill_of_ok h)).trans ((bind_of_ok rfl).trans ?_)
  simp [result, slot, hp]

theorem next_of_error (hp : l.pushed = 0) (h : outcome l.stream = .error e) :
    next.result l = (.error e, {l with stream := moved l.stream}) := by
  refine (bind_of_ok (a := l) rfl).trans ?_
  rw [if_pos hp]
  exact bind_of_error (refill_of_error h)

/-- An item that was pushed back is in the first slot. -/
theorem next_of_pushed (hp : l.pushed = 1) (held : l.slots[0]? = some item) :
    next.result l = (.ok item, {l with pushed := 0}) := by
  refine (bind_of_ok (a := l) rfl).trans ?_
  rw [if_neg (by omega)]
  refine (bind_of_ok rfl).trans ((bind_of_ok rfl).trans ?_)
  simp only [result, slot, hp, Nat.sub_self, held]

/-- What a read does: it takes the item that was pushed back, or it moves the stream. -/
theorem next_cases (hp : l.pushed ≤ 1) :
    (l.pushed = 1 ∧ ∃ item, l.slots[0]? = some item ∧
        next.result l = (.ok item, {l with pushed := 0})) ∨
      (l.pushed = 0 ∧ ∃ item, outcome l.stream = .ok item ∧
        next.result l = (.ok item, ⟨moved l.stream, l.slots.setIfInBounds 0 item, 0⟩)) ∨
      (l.pushed = 0 ∧ ∃ e, outcome l.stream = .error e ∧
        next.result l = (.error e, {l with stream := moved l.stream})) := by
  by_cases hzero : l.pushed = 0
  · cases ho : outcome l.stream with
    | ok item => exact .inr (.inl ⟨hzero, item, rfl, next_of_ok hzero ho⟩)
    | error e => exact .inr (.inr ⟨hzero, e, rfl, next_of_error hzero ho⟩)
  · have hone : l.pushed = 1 := by omega
    obtain ⟨item, held⟩ : ∃ item, l.slots[0]? = some item :=
      ⟨_, Vector.getElem?_eq_getElem (by decide)⟩
    exact .inl ⟨hone, item, held, next_of_pushed hone held⟩

/-- To look at an item is to consume it and to push it back. -/
theorem peek_of_ok (hp : l.pushed ≤ 1) (h : next.result l = (.ok item, after)) :
    peek.result l = (.ok item, {after with pushed := after.pushed + 1}) := by
  refine (bind_of_ok (a := l) rfl).trans ?_
  rcases next_cases hp with ⟨hone, _, held, hnext⟩ | ⟨hzero, _, ho, hnext⟩ | ⟨_, _, _, hnext⟩
  · cases hnext.symm.trans h
    rw [if_neg (by omega)]
    refine (bind_of_ok rfl).trans ?_
    simp only [result, slot, hone, Nat.sub_self, held, Nat.zero_add]
    rw [← hone]
  · cases hnext.symm.trans h
    rw [if_pos hzero]
    refine (bind_of_ok (refill_of_ok ho)).trans ((bind_of_ok rfl).trans ((bind_of_ok rfl).trans ?_))
    simp [result, slot]
  · cases hnext.symm.trans h

theorem peek_of_error (hp : l.pushed ≤ 1) (h : next.result l = (.error e, after)) :
    peek.result l = (.error e, after) := by
  refine (bind_of_ok (a := l) rfl).trans ?_
  rcases next_cases hp with ⟨_, _, _, hnext⟩ | ⟨_, _, _, hnext⟩ | ⟨hzero, _, ho, hnext⟩
  · cases hnext.symm.trans h
  · cases hnext.symm.trans h
  · cases hnext.symm.trans h
    rw [if_pos hzero]
    exact bind_of_error (refill_of_error ho)

theorem accept_of_ok {kind : Kind} (h : next.result l = (.ok item, after)) :
    (accept kind).result l =
      if item.kind = kind then (.ok true, after)
      else (.ok false, {after with pushed := after.pushed + 1}) := by
  refine (bind_of_ok h).trans ?_
  split <;> rfl

theorem accept_of_error {kind : Kind} (h : next.result l = (.error e, after)) :
    (accept kind).result l = (.error e, after) := bind_of_error h

theorem expect_of_ok {kind : Kind} {wanted : String} (h : next.result l = (.ok item, after)) :
    (expect kind wanted).result l =
      if item.kind = kind then (.ok item, after) else (.error (item.unexpected wanted), after) := by
  refine (bind_of_ok h).trans ?_
  split <;> rfl

theorem expect_of_error {kind : Kind} {wanted : String} (h : next.result l = (.error e, after)) :
    (expect kind wanted).result l = (.error e, after) := bind_of_error h

end reads
end Parser
end PathFilter
