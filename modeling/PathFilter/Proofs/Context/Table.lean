import Mathlib.Data.List.Basic
import PathFilter.Context

/-! What becomes of one context when something is done to the table.

A context is added at the end, and firing a canceller or giving it up changes nothing but
the trigger of its own context. So what a context reports changes by its own canceller
and by time alone (`stop?_cancel_of_ne`, `stop?_release_of_ne`), and once a trigger is
gone it stays so. -/
namespace PathFilter.Contexts

variable {t : Contexts} {c d : Context} {cell : Context.Cell}

/-- The table knows the context. -/
def Knows (t : Contexts) (c : Context) : Prop := c.index < t.cells.length

theorem trigger_of_not_knows (h : ¬ t.Knows c) : t.trigger c = .absent := by
  rw [trigger, List.getElem?_eq_none (Nat.le_of_not_lt h)]
  rfl

theorem knows_of_armed (h : t.trigger c = .armed) : t.Knows c := by
  by_contra hnot
  rw [trigger_of_not_knows hnot] at h
  contradiction

/-! ### Adding one -/

theorem knows_add : (t.add cell).2.Knows d ↔ t.Knows d ∨ d = (t.add cell).1 := by
  have hindex : d = (t.add cell).1 ↔ d.index = t.cells.length :=
    ⟨congrArg Context.index, congrArg Context.mk⟩
  rw [hindex, Knows, Knows, add, List.length_append, List.length_singleton,
    Nat.lt_succ_iff_lt_or_eq]

theorem not_knows_add : ¬ t.Knows (t.add cell).1 := Nat.lt_irrefl _

theorem trigger_add_self : (t.add cell).2.trigger (t.add cell).1 = cell.trigger := by
  simp [trigger, add]

theorem deadline_add_self : (t.add cell).2.deadline (t.add cell).1 = cell.deadline := by
  simp [deadline, add]

theorem trigger_add (h : t.Knows d) : (t.add cell).2.trigger d = t.trigger d := by
  rw [trigger, add, List.getElem?_append_left h]
  rfl

theorem deadline_add (h : t.Knows d) : (t.add cell).2.deadline d = t.deadline d := by
  rw [deadline, add, List.getElem?_append_left h]
  rfl

/-! ### Using a canceller up -/

theorem knows_disarm : (t.disarm c).Knows d ↔ t.Knows d := by
  rw [Knows, disarm, List.length_modify]
  rfl

theorem trigger_disarm_self (h : t.Knows c) : (t.disarm c).trigger c = .gone := by
  have hcell : t.cells[c.index]? = some t.cells[c.index] := List.getElem?_eq_getElem h
  simp only [trigger, disarm, List.getElem?_modify, hcell]
  rfl

theorem trigger_disarm_of_ne (h : d ≠ c) : (t.disarm c).trigger d = t.trigger d := by
  have hindex : c.index ≠ d.index := fun heq => h (congrArg Context.mk heq.symm)
  simp [trigger, disarm, hindex]

theorem deadline_disarm : (t.disarm c).deadline d = t.deadline d := by
  unfold deadline disarm
  rw [List.getElem?_modify]
  split
  · cases t.cells[d.index]? <;> rfl
  · simp

theorem release_of_armed (h : t.trigger c = .armed) : t.release c = t.disarm c := if_pos h

theorem release_of_ne_armed (h : t.trigger c ≠ .armed) : t.release c = t := if_neg h

theorem cancel_of_ne_armed (h : t.trigger c ≠ .armed) : t.cancel c = t := if_neg h

/-- Firing a canceller is giving it up with an announcement. -/
theorem cancel_eq : t.cancel c = {t.release c with
    announced := t.announced ++ if t.trigger c = .armed then [c] else []} := by
  unfold cancel release
  split
  · rfl
  · rw [List.append_nil]

theorem announced_release : (t.release c).announced = t.announced := by
  unfold release
  split <;> rfl

theorem now_release : (t.release c).now = t.now := by
  unfold release
  split <;> rfl

theorem knows_release : (t.release c).Knows d ↔ t.Knows d := by
  unfold release
  split
  · exact knows_disarm
  · rfl

theorem knows_cancel : (t.cancel c).Knows d ↔ t.Knows d := by
  rw [cancel_eq]
  exact knows_release

theorem deadline_release : (t.release c).deadline d = t.deadline d := by
  unfold release
  split
  · exact deadline_disarm
  · rfl

theorem trigger_release_of_ne (h : d ≠ c) : (t.release c).trigger d = t.trigger d := by
  unfold release
  split
  · exact trigger_disarm_of_ne h
  · rfl

/-- A canceller that was there is gone. -/
theorem trigger_release_self (h : t.trigger c ≠ .absent) : (t.release c).trigger c = .gone := by
  by_cases harmed : t.trigger c = .armed
  · rw [release_of_armed harmed, trigger_disarm_self (knows_of_armed harmed)]
  · rw [release_of_ne_armed harmed]
    cases htrigger : t.trigger c <;> simp_all

/-! ### Reports -/

theorem stop?_congr {u : Contexts} (htrigger : u.trigger c = t.trigger c)
    (hdeadline : u.deadline c = t.deadline c) (hnow : u.now = t.now) : u.stop? c = t.stop? c := by
  rw [stop?, stop?, isDisconnected, isDisconnected, isExpired, isExpired, htrigger, hdeadline, hnow]

theorem stop?_eq_canceled_iff : t.stop? c = some .canceled ↔ t.trigger c = .gone := by
  unfold stop? isDisconnected
  by_cases hgone : t.trigger c = .gone
  · simp [hgone]
  · cases t.isExpired c <;> simp [hgone]

theorem stop?_eq_deadlineExceeded_iff : t.stop? c = some .deadlineExceeded ↔
    t.trigger c ≠ .gone ∧ t.isExpired c = true := by
  unfold stop? isDisconnected
  by_cases hgone : t.trigger c = .gone
  · simp [hgone]
  · cases t.isExpired c <;> simp [hgone]

theorem stop?_eq_none_iff : t.stop? c = none ↔ t.trigger c ≠ .gone ∧ t.isExpired c = false := by
  unfold stop? isDisconnected
  by_cases hgone : t.trigger c = .gone
  · simp [hgone]
  · cases t.isExpired c <;> simp [hgone]

theorem isExpired_iff : t.isExpired c = true ↔ ∃ time, t.deadline c = some time ∧ time ≤ t.now := by
  rw [isExpired, Option.any_eq_true]
  simp only [decide_eq_true_eq]

/-- No other context is concerned when a canceller is given up. -/
theorem stop?_release_of_ne (h : d ≠ c) : (t.release c).stop? d = t.stop? d :=
  stop?_congr (trigger_release_of_ne h) deadline_release now_release

theorem stop?_cancel_eq : (t.cancel c).stop? d = (t.release c).stop? d := by
  rw [cancel_eq]
  exact stop?_congr rfl rfl rfl

/-- No other context is concerned when a canceller fires. -/
theorem stop?_cancel_of_ne (h : d ≠ c) : (t.cancel c).stop? d = t.stop? d :=
  stop?_cancel_eq.trans (stop?_release_of_ne h)

/-- A context whose canceller fires is cancelled. -/
theorem stop?_cancel_self (h : t.trigger c = .armed) : (t.cancel c).stop? c = some .canceled := by
  rw [stop?_cancel_eq, stop?_eq_canceled_iff]
  exact trigger_release_self (by rw [h]; nofun)

/-- A context that is done stays so, whatever canceller is given up. -/
theorem stop?_release (h : (t.stop? d).isSome) : ((t.release c).stop? d).isSome := by
  by_cases hne : d = c
  · subst hne
    by_cases harmed : t.trigger d = .armed
    · rw [← stop?_cancel_eq, stop?_cancel_self harmed]
      rfl
    · rwa [release_of_ne_armed harmed]
  · rwa [stop?_release_of_ne hne]

theorem stop?_cancel (h : (t.stop? d).isSome) : ((t.cancel c).stop? d).isSome := by
  rw [stop?_cancel_eq]
  exact stop?_release h

end PathFilter.Contexts
