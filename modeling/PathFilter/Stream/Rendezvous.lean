import PathFilter.Lexer.Run

/-! Items handed over: the lexer runs on its own and waits at every item.

The lexer is a dialogue that has been played up to an offer and stays there until
the item is taken. A move takes the item and lets the lexer go on to its next
offer; giving the stream up refuses it, and the lexer ends. It never runs ahead
of the one who reads.

A move under a context that is done fails and changes nothing: if the lexer's own
context is still live, a later move under a live one goes on with the very next
item. -/
namespace PathFilter
open Lexer

structure Rendezvous where
  /-- The lexer, waiting at an offer or at its end. -/
  lexer : Dialogue Unit
  current : Option Item
  records : Array Record

namespace Rendezvous

/-- Starts a lexer on a source under its own context. -/
def start (own : Option Stop) (source : ByteArray) : Rendezvous :=
  let (records, waiting) := (session own source).settle
  ⟨waiting, none, records.toArray⟩

/-- The item the lexer waits with. -/
def offered (s : Rendezvous) : Option Item :=
  match s.lexer with
  | .offer item _ => some item
  | _ => none

/-- Answers the offer and lets the lexer go on to the next. -/
def reply (taken : Bool) (s : Rendezvous) : Rendezvous :=
  match s.lexer with
  | .offer _ answer =>
    let (records, waiting) := (answer taken).settle
    {s with lexer := waiting, records := s.records ++ records}
  | _ => s

/-- Gives the stream up. -/
def close (s : Rendezvous) : Rendezvous := s.reply false

/-- Moves to the next item. -/
def advance (own watcher : Option Stop) (s : Rendezvous) : Bool × Rendezvous :=
  if watcher.isSome then (false, s)
  else if own.isSome then (false, s.close)
  else
    match s.offered with
    | some item => (true, {s.reply true with current := some item})
    | none => (false, s)

/-- The most items that are to come. -/
def size (s : Rendezvous) : Nat := s.lexer.height

theorem size_advance_lt (own watcher : Option Stop) (s : Rendezvous)
    (h : (s.advance own watcher).1 = true) : (s.advance own watcher).2.size < s.size := by
  unfold advance at h ⊢
  split
  · simp_all
  split
  · simp_all
  split
  · next item ho =>
    unfold offered at ho
    split at ho
    · next answer hl =>
      simp only [size, reply, hl, Dialogue.settle_height, Dialogue.height]
      omega
    · contradiction
  · simp_all

end Rendezvous
end PathFilter
