import PathFilter.Stream
import PathFilter.Stream.OnDemand
import PathFilter.Stream.Rendezvous

/-! The tokens of a source, with either way to drive the lexer.

Both drivers hand over the same items of the same source; they differ in when the
lexer works and in what a done context leaves behind. `Tokens` is a stream with
one of the two, and `Watched` is such a stream read under fixed contexts, which
is what a parser gets. -/
namespace PathFilter

/-- How the lexer is driven. -/
inductive Driver where
  /-- On its own, handing items over one at a time. -/
  | threaded
  /-- By the one who reads, whenever an item is needed. -/
  | inline
deriving DecidableEq

inductive Tokens where
  | threaded (stream : Rendezvous)
  | inline (stream : OnDemand)

namespace Tokens

/-- Opens a source under the lexer's own context. -/
def ofSource (driver : Driver) (own : Option Stop) (source : ByteArray) : Tokens :=
  match driver with
  | .threaded => .threaded (.start own source)
  | .inline => .inline (.ofSource source)

/-- Moves to the next item, under a context that may not be the lexer's own. -/
def advance (own watcher : Option Stop) : Tokens → Bool × Tokens
  | .threaded s => let (moved, after) := s.advance own watcher; (moved, .threaded after)
  | .inline s => let (moved, after) := s.advance own watcher; (moved, .inline after)

/-- The item of the latest successful move. -/
def current : Tokens → Option Item
  | .threaded s => s.current
  | .inline s => s.current

/-- What the lexer has recorded so far. -/
def records : Tokens → List Lexer.Record
  | .threaded s => s.records.toList
  | .inline s => s.records.toList

/-- Gives the stream up. -/
def close : Tokens → Tokens
  | .threaded s => .threaded s.close
  | .inline s => .inline s

def size : Tokens → Nat
  | .threaded s => s.size
  | .inline s => s.size

theorem size_advance_lt (own watcher : Option Stop) (s : Tokens)
    (h : (s.advance own watcher).1 = true) : (s.advance own watcher).2.size < s.size := by
  cases s with
  | threaded s => exact s.size_advance_lt own watcher h
  | inline s => exact s.size_advance_lt own watcher h

/-! ### Reading under the lexer's own context -/

/-- The next item, if there is one. -/
def next (own : Option Stop) (s : Tokens) : Option Item × Tokens :=
  match s.advance own own with
  | (true, after) => (after.current, after)
  | (false, after) => (none, after)

theorem size_next_lt {own : Option Stop} {s after : Tokens} {item : Item}
    (h : s.next own = (some item, after)) : after.size < s.size := by
  unfold next at h
  split at h
  · next moved hm =>
    obtain rfl : moved = after := congrArg Prod.snd h
    have := s.size_advance_lt own own
    rw [hm] at this
    exact this rfl
  · simp at h

/-- Up to so many items. -/
def take (own : Option Stop) : Nat → Tokens → List Item × Tokens
  | 0, s => ([], s)
  | n + 1, s =>
    match s.next own with
    | (some item, after) => let (items, last) := after.take own n; (item :: items, last)
    | (none, after) => ([], after)

/-- All items that are to come. -/
def drain (own : Option Stop) (s : Tokens) : List Item × Tokens :=
  match _h : s.next own with
  | (some item, after) => let (items, last) := after.drain own; (item :: items, last)
  | (none, after) => ([], after)
termination_by s.size
decreasing_by exact size_next_lt _h

end Tokens

/-- The whole of a source under one context. -/
def lex (driver : Driver) (stop : Option Stop) (source : ByteArray) : List Item :=
  ((Tokens.ofSource driver stop source).drain stop).1

/-- A stream of tokens that is read under a fixed context. -/
structure Watched where
  tokens : Tokens
  /-- How the lexer's own context stands. -/
  own : Option Stop
  /-- How the context stands under which the stream is read. -/
  watcher : Option Stop

instance : TokenStream Watched where
  advance s :=
    let (moved, after) := s.tokens.advance s.own s.watcher
    (moved, {s with tokens := after})
  current s := s.tokens.current
  stop? s := s.watcher
  size s := s.tokens.size
  size_advance_lt s h := s.tokens.size_advance_lt s.own s.watcher h

end PathFilter
