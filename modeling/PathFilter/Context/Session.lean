import PathFilter.Outline

/-! Contexts under commands.

A session holds one context, its canceller if it has one, and clones of contexts
it held before. Commands cancel, give the canceller up, clone the handle, or put
a new context in its place, which gives the old canceller up. After every command
the session reports how its context and all clones stand. -/
namespace PathFilter.Contexts

/-- How a context is made. -/
inductive Origin where
  /-- Never done. -/
  | background
  /-- Live until it is cancelled. -/
  | cancel
  /-- Cancelled from the beginning. -/
  | cancelled
  /-- With a deadline hours away. -/
  | far
  /-- With a deadline that has passed. -/
  | expired
  /-- With a deadline that has passed, and cancelled. -/
  | expiredCancelled

/-- Hours away, in milliseconds. -/
def farAway : Nat := 10 * 3600000

/-- Makes a context, and says whether it has a canceller. -/
def make (origin : Origin) (t : Contexts) : Context × Bool × Contexts :=
  match origin with
  | .background => let (c, t) := t.background; (c, false, t)
  | .cancel => let (c, t) := t.withCancel; (c, true, t)
  | .cancelled => let (c, t) := t.withCancel; (c, true, t.cancel c)
  | .far => let (c, t) := t.withTimeout farAway; (c, true, t)
  | .expired => let (c, t) := t.withTimeout 0; (c, true, t)
  | .expiredCancelled => let (c, t) := t.withTimeout 0; (c, true, t.cancel c)

structure Session where
  contexts : Contexts
  context : Context
  /-- The canceller is held. -/
  held : Bool
  clones : List Context

inductive Command where
  | cancel
  | release
  | clone
  | replace (origin : Origin)
  /-- Lets time pass. -/
  | wait (span : Nat)
  /-- Asks for the cancellation signal. -/
  | signal
  /-- Asks whether the deadline has passed. -/
  | expiry
  | hasDeadline
  | describe

inductive Answer where
  | none
  | flag (b : Bool)
  /-- The state of the cancellation signal. -/
  | signal (disconnected : Bool)
  | outline (text : String)
deriving DecidableEq

/-- How everything stands after a command. -/
structure Report where
  answer : Answer
  stop : Option Stop
  clones : List (Option Stop)
deriving DecidableEq

namespace Session

def start (origin : Origin) : Session :=
  let (context, held, contexts) := Contexts.empty.make origin
  ⟨contexts, context, held, []⟩

/-- What a command answers, and the session after it. -/
def obey (s : Session) : Command → Answer × Session
  | .cancel =>
    (.flag s.held, if s.held then {s with contexts := s.contexts.cancel s.context} else s)
  | .release =>
    (.flag s.held,
      if s.held then {s with contexts := s.contexts.release s.context, held := false} else s)
  | .clone => (.none, {s with clones := s.clones ++ [s.context]})
  | .replace origin =>
    let (context, held, contexts) := s.contexts.make origin
    let contexts := if s.held then contexts.release s.context else contexts
    (.none, {s with contexts, context, held})
  | .wait span => (.none, {s with contexts := s.contexts.elapse span})
  | .signal => (.signal (s.contexts.isDisconnected s.context), s)
  | .expiry => (.flag (s.contexts.isExpired s.context), s)
  | .hasDeadline => (.flag (s.contexts.deadline s.context).isSome, s)
  | .describe => (.outline (s.contexts.outline s.context).text, s)

def report (s : Session) (answer : Answer) : Report :=
  ⟨answer, s.contexts.stop? s.context, s.clones.map s.contexts.stop?⟩

/-- The reports of a list of commands. -/
def run (s : Session) : List Command → List Report
  | [] => []
  | c :: rest =>
    let (answer, after) := s.obey c
    after.report answer :: after.run rest

end Session
end PathFilter.Contexts
