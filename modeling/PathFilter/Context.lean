/-! Contexts: when work should stop.

A context is done once its canceller has fired or been given up, or once its
deadline has passed, and it says which. Contexts are handles into one table, so
that every copy of a handle sees the same state, and a canceller is known by the
context it was made with. A context made without a canceller and without a
deadline is never done.

Cancelling is announced the first time only; giving a canceller up cancels
without an announcement. -/
namespace PathFilter

/-- Why a context is done. -/
inductive Stop where
  | canceled
  | deadlineExceeded
deriving DecidableEq

def Stop.message : Stop → String
  | .canceled => "context canceled"
  | .deadlineExceeded => "context deadline exceeded"

/-- The canceller of a context. -/
inductive Trigger where
  /-- There never was one. -/
  | absent
  | armed
  /-- It fired, or nobody holds it any more. -/
  | gone
deriving DecidableEq

/-- The handle of a context. -/
structure Context where
  index : Nat
deriving DecidableEq

namespace Context

/-- What a table of contexts knows of one of them. -/
structure Cell where
  trigger : Trigger
  deadline : Option Nat
deriving DecidableEq

end Context

/-- All contexts made so far and the time, in milliseconds. -/
structure Contexts where
  cells : List Context.Cell
  now : Nat
  /-- The contexts whose cancellation was announced, oldest first. -/
  announced : List Context
deriving DecidableEq

namespace Contexts

def empty : Contexts := ⟨[], 0, []⟩

/-! ### Making contexts -/

def add (cell : Context.Cell) (t : Contexts) : Context × Contexts :=
  (⟨t.cells.length⟩, {t with cells := t.cells ++ [cell]})

/-- A context that is never done. -/
def background (t : Contexts) : Context × Contexts := t.add ⟨.absent, none⟩

/-- A context that is done once it is cancelled. -/
def withCancel (t : Contexts) : Context × Contexts := t.add ⟨.armed, none⟩

/-- A context that is done once it is cancelled or the time has come. -/
def withDeadline (time : Nat) (t : Contexts) : Context × Contexts := t.add ⟨.armed, some time⟩

/-- A context that is done once it is cancelled or so much time has passed. -/
def withTimeout (span : Nat) (t : Contexts) : Context × Contexts := t.withDeadline (t.now + span)

/-! ### What becomes of them -/

def trigger (t : Contexts) (c : Context) : Trigger :=
  (t.cells[c.index]?.map Context.Cell.trigger).getD .absent

def deadline (t : Contexts) (c : Context) : Option Nat :=
  t.cells[c.index]?.bind Context.Cell.deadline

/-- The canceller is used up. -/
def disarm (c : Context) (t : Contexts) : Contexts :=
  {t with cells := t.cells.modify c.index fun cell => {cell with trigger := .gone}}

/-- Fires the canceller of a context. -/
def cancel (c : Context) (t : Contexts) : Contexts :=
  if t.trigger c = .armed then {t.disarm c with announced := t.announced ++ [c]} else t

/-- Gives the canceller of a context up. -/
def release (c : Context) (t : Contexts) : Contexts :=
  if t.trigger c = .armed then t.disarm c else t

/-- Lets time pass. -/
def elapse (span : Nat) (t : Contexts) : Contexts := {t with now := t.now + span}

/-! ### What they report -/

/-- Nothing can be waited for on the cancellation signal any more. -/
def isDisconnected (t : Contexts) (c : Context) : Bool := t.trigger c = .gone

/-- The deadline has passed, cancelled or not. -/
def isExpired (t : Contexts) (c : Context) : Bool := (t.deadline c).any (· ≤ t.now)

/-- Why the context is done, or nothing while it is live. A cancellation counts
before a deadline. -/
def stop? (t : Contexts) (c : Context) : Option Stop :=
  if t.isDisconnected c then some .canceled
  else if t.isExpired c then some .deadlineExceeded
  else none

def isDone (t : Contexts) (c : Context) : Bool := (t.stop? c).isSome

end Contexts
end PathFilter
