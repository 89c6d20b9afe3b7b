import PathFilter.Stream

/-! A stream that replays a list of items.

It hands the items over in order, for as long as its context is live, and it can
be given two faults to play. Before the move of a given number it fires the
canceller of its context, so that this move and all later ones fail. And the move
of a given number can succeed without an item to show, which a stream ought not
to do. -/
namespace PathFilter

structure Replay where
  /-- The items that are to come. -/
  items : List Item
  current : Option Item
  contexts : Contexts
  /-- The context the stream is read under. -/
  context : Context
  /-- How many moves were made under a live context. -/
  moves : Nat
  /-- The number of the move before which the context is cancelled. -/
  cancelAt : Option Nat
  /-- The number of the move that shows no item. -/
  holeAt : Option Nat

namespace Replay

/-- Fires the canceller, if its time has come. -/
def sabotage (s : Replay) : Replay :=
  if s.cancelAt = some s.moves then {s with contexts := s.contexts.cancel s.context} else s

/-- Moves under a live context. -/
def shift (s : Replay) : Bool × Replay :=
  if s.holeAt = some s.moves then (true, {s with moves := s.moves + 1, current := none})
  else
    match s.items with
    | item :: rest => (true, {s with moves := s.moves + 1, items := rest, current := some item})
    | [] => (false, {s with moves := s.moves + 1, current := none})

def advance (s : Replay) : Bool × Replay :=
  let s := s.sabotage
  if s.contexts.isDone s.context then (false, s) else s.shift

/-- The items that are to come, and one more for a hole that is. -/
def size (s : Replay) : Nat := s.items.length + if s.holeAt.any (s.moves ≤ ·) then 1 else 0

theorem size_sabotage (s : Replay) : s.sabotage.size = s.size := by
  unfold sabotage
  split <;> rfl

theorem size_shift_lt (s : Replay) (h : s.shift.1 = true) : s.shift.2.size < s.size := by
  unfold shift at h ⊢
  cases hh : s.holeAt with
  | none =>
    cases hi : s.items <;> simp_all [size]
  | some n =>
    cases hi : s.items with
    | nil => by_cases hn : n = s.moves <;> simp_all [size]
    | cons item rest =>
      by_cases hn : n = s.moves
      · simp_all [size]
      · simp only [hh, hi, Option.some.injEq, hn, if_false, size, Option.any_some,
          decide_eq_true_eq, List.length_cons]
        split <;> split <;> omega

theorem size_advance_lt (s : Replay) (h : s.advance.1 = true) : s.advance.2.size < s.size := by
  unfold advance at h ⊢
  simp only at h ⊢
  split
  · simp_all
  · next hd =>
    rw [if_neg hd] at h
    rw [← size_sabotage s]
    exact size_shift_lt _ h

instance : TokenStream Replay where
  advance := advance
  current := current
  stop? s := s.contexts.stop? s.context
  size := size
  size_advance_lt := size_advance_lt

end Replay
end PathFilter
