import PathFilter.Outline

/-! A reader under commands.

A session is a list of commands that are given to one reader, one after another.
Every command has an answer, and the offset the reader has come to is noted after
each. -/
namespace PathFilter.Reader

inductive Command where
  | read
  | peek
  | unread
  | skipBlanks
  | length
  | isEmpty
  | slice (start stop : Nat)
  /-- Reads until a read fails. -/
  | readAll
  | describe

inductive Answer where
  | none
  /-- A character and its width in bytes, or why there is none. -/
  | char (found : Except ReadError (Char × Nat))
  | number (n : Nat)
  | flag (b : Bool)
  | text (found : Except ReadError String)
  /-- How many characters were read, and why no more. -/
  | exhausted (count : Nat) (cause : ReadError)
  | outline (text : String)
deriving DecidableEq

/-- Reads until a read fails: the characters read, the failure, and the reader. -/
def readAll (r : Reader) : List Char × ReadError × Reader :=
  match _h : r.read with
  | (.ok c, after) => let (found, cause, last) := after.readAll; (c :: found, cause, last)
  | (.error cause, after) => ([], cause, after)
termination_by r.left
decreasing_by
  have hc : r.read.1 = .ok c := by rw [_h]
  have := left_read_lt hc
  rwa [_h] at this

/-- The width that goes with a character. -/
def withWidth (found : Except ReadError Char) : Except ReadError (Char × Nat) :=
  found.map fun c => (c, c.utf8Size)

/-- What a command answers, and the reader after it. -/
def obey (r : Reader) : Command → Answer × Reader
  | .read => (.char (withWidth r.read.1), r.read.2)
  | .peek => (.char (withWidth r.peek.1), r.peek.2)
  | .unread => (.none, r.unread)
  | .skipBlanks => (.none, r.skipBlanks)
  | .length => (.number r.source.size, r)
  | .isEmpty => (.flag (r.source.size == 0), r)
  | .slice start stop => (.text (r.slice start stop), r)
  | .readAll =>
    let (found, cause, after) := r.readAll
    (.exhausted found.length cause, after)
  | .describe => (.outline r.outline.text, r)

/-- The answers of a session, each with the offset after it. -/
def session (r : Reader) : List Command → List (Answer × Nat)
  | [] => []
  | c :: rest =>
    let (answer, after) := r.obey c
    (answer, after.offset) :: after.session rest

end PathFilter.Reader
