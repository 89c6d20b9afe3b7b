import PathFilter.Context.Session

/-! A token stream under commands.

A session holds a stream and two contexts: the one its lexer was opened with, and
one of an observer who moves the stream as well. Between moves either context can
be cancelled, or its canceller given up. -/
namespace PathFilter.Tokens

/-- Whose context a command is about. -/
inductive Party where
  | own
  | observer
deriving DecidableEq

inductive Command where
  | advance (under : Party)
  | current
  | next
  | take (n : Nat)
  | drain
  | cancel (whose : Party)
  | release (whose : Party)
  | stop (whose : Party)
  | describe

inductive Answer where
  | none
  /-- Whether the stream moved, and the item it shows then. -/
  | moved (success : Bool) (current : Option Item)
  | item (found : Option Item)
  | items (found : List Item)
  | stop (why : Option Stop)
  | outline (text : String)
deriving DecidableEq

structure Session where
  contexts : Contexts
  own : Context
  observer : Context
  tokens : Tokens

namespace Session

/-- Opens a source. -/
def start (driver : Driver) (own observer : Contexts.Origin) (source : ByteArray) : Session :=
  let (own, _, contexts) := Contexts.empty.make own
  let (observer, _, contexts) := contexts.make observer
  ⟨contexts, own, observer, .ofSource driver (contexts.stop? own) source⟩

def context (s : Session) : Party → Context
  | .own => s.own
  | .observer => s.observer

/-- How a party's context stands. -/
def standing (s : Session) (p : Party) : Option Stop := s.contexts.stop? (s.context p)

/-- What a command answers, and the session after it. -/
def obey (s : Session) : Command → Answer × Session
  | .advance under =>
    let (moved, tokens) := s.tokens.advance (s.standing .own) (s.standing under)
    (.moved moved tokens.current, {s with tokens})
  | .current => (.item s.tokens.current, s)
  | .next =>
    let (found, tokens) := s.tokens.next (s.standing .own)
    (.item found, {s with tokens})
  | .take n =>
    let (found, tokens) := s.tokens.take (s.standing .own) n
    (.items found, {s with tokens})
  | .drain =>
    let (found, tokens) := s.tokens.drain (s.standing .own)
    (.items found, {s with tokens})
  | .cancel whose => (.none, {s with contexts := s.contexts.cancel (s.context whose)})
  | .release whose => (.none, {s with contexts := s.contexts.release (s.context whose)})
  | .stop whose => (.stop (s.standing whose), s)
  | .describe => (.outline (s.tokens.outline s.contexts s.own).text, s)

/-- The answers of a list of commands. -/
def run (s : Session) : List Command → List Answer
  | [] => []
  | c :: rest =>
    let (answer, after) := s.obey c
    answer :: after.run rest

end Session
end PathFilter.Tokens
