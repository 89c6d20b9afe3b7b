import PathFilter.Text.Classes

/-! A cursor over the bytes of an expression.

A `Reader` decodes UTF-8 one character at a time and knows the byte offset it
has come to. A read moves past a character and remembers its width, so that the
latest read, and only that one, can be taken back. A read that fails moves
nothing: at the end of the source, or at bytes that are no character, every
further read fails in the same way.

`slice` cuts the source by byte offsets, whatever the cursor has read, and
accepts a stretch exactly if it is valid UTF-8 as a whole. -/
namespace PathFilter

/-- Why a read or a slice fails. -/
inductive ReadError where
  | endOfInput
  | invalidUtf8 (offset : Nat)
  | outOfBounds (start stop : Nat)
deriving DecidableEq

def ReadError.message : ReadError → String
  | .endOfInput => "unexpected end of input"
  | .invalidUtf8 offset => s!"invalid UTF-8 sequence at byte offset {offset}"
  | .outOfBounds start stop => s!"slice {start}..{stop} is out of bounds"

/-- Answers are compared cause by cause and value by value, so that a statement about a
concrete run is one the machine decides. -/
instance decidableEqExcept {ε α : Type} [DecidableEq ε] [DecidableEq α] :
    DecidableEq (Except ε α)
  | .ok a, .ok b => decidable_of_iff (a = b) (by simp)
  | .error a, .error b => decidable_of_iff (a = b) (by simp)
  | .ok _, .error _ => isFalse (by simp)
  | .error _, .ok _ => isFalse (by simp)

/-- The character that starts at a byte offset. -/
def decodeAt (source : ByteArray) (offset : Nat) : Except ReadError Char :=
  match source.utf8DecodeChar? offset with
  | some c => .ok c
  | none => .error (if offset < source.size then .invalidUtf8 offset else .endOfInput)

/-- The length of the longest valid prefix of at most the given length. -/
def validLength (bytes : ByteArray) : Nat → Nat
  | 0 => 0
  | n + 1 => if (bytes.extract 0 (n + 1)).IsValidUTF8 then n + 1 else validLength bytes n

structure Reader where
  source : ByteArray
  /-- Where the next character starts, in bytes. -/
  offset : Nat
  /-- The width of the character an `unread` gives back, 0 if there is none. -/
  lastWidth : Nat

namespace Reader

/-- The reader at the start of a source. -/
def ofBytes (source : ByteArray) : Reader := ⟨source, 0, 0⟩

/-- How many bytes are left to read. -/
def left (r : Reader) : Nat := r.source.size - r.offset

/-- Consumes the next character. A failed read leaves nothing to take back. -/
def read (r : Reader) : Except ReadError Char × Reader :=
  match decodeAt r.source r.offset with
  | .ok c => (.ok c, {r with offset := r.offset + c.utf8Size, lastWidth := c.utf8Size})
  | .error e => (.error e, {r with lastWidth := 0})

/-- Takes the latest read back. -/
def unread (r : Reader) : Reader := {r with offset := r.offset - r.lastWidth, lastWidth := 0}

/-- The next character, not consumed: a read that is taken back. -/
def peek (r : Reader) : Except ReadError Char × Reader :=
  let (found, after) := r.read
  (found, after.unread)

/-! ### How far a read moves -/

theorem read_of_ok {r : Reader} {c : Char} (h : r.read.1 = .ok c) :
    r.read.2 = {r with offset := r.offset + c.utf8Size, lastWidth := c.utf8Size} := by
  unfold read at h ⊢
  split <;> simp_all

theorem read_of_error {r : Reader} {e : ReadError} (h : r.read.1 = .error e) :
    r.read.2 = {r with lastWidth := 0} := by
  unfold read at h ⊢
  split <;> simp_all

/-- A peek forgets the latest read and moves nothing. -/
theorem peek_snd (r : Reader) : r.peek.2 = {r with lastWidth := 0} := by
  show r.read.2.unread = _
  cases h : r.read.1 with
  | ok c => rw [read_of_ok h]; simp [unread]
  | error e => rw [read_of_error h]; simp [unread]

/-- A character that is read lies within the source. -/
theorem le_size_of_read_ok {r : Reader} {c : Char} (h : r.read.1 = .ok c) :
    r.offset + c.utf8Size ≤ r.source.size := by
  have hd : r.source.utf8DecodeChar? r.offset = some c := by
    unfold read decodeAt at h
    split at h <;> split at * <;> simp_all
  have hs : (r.source.utf8DecodeChar? r.offset).isSome := by simp [hd]
  have := ByteArray.add_utf8Size_utf8DecodeChar_le_size (h := hs)
  simpa [ByteArray.utf8DecodeChar, hd] using this

theorem left_read_lt {r : Reader} {c : Char} (h : r.read.1 = .ok c) : r.read.2.left < r.left := by
  have := le_size_of_read_ok h
  have := Char.utf8Size_pos c
  rw [read_of_ok h]
  simp only [left]
  omega

theorem left_read_le (r : Reader) : r.read.2.left ≤ r.left := by
  cases h : r.read.1 with
  | ok c => exact Nat.le_of_lt (left_read_lt h)
  | error e => rw [read_of_error h]; exact Nat.le_refl _

theorem left_peek (r : Reader) : r.peek.2.left = r.left := by rw [peek_snd]; rfl

/-- What a peek finds is read next. -/
theorem read_peek (r : Reader) : r.peek.2.read.1 = r.read.1 := by rw [peek_snd]; rfl

/-! ### Runs of characters -/

/-- Consumes characters as long as they are in the class. It ends with a peek at
the character that is not, or at the failure that comes instead. -/
def skipWhile (p : Char → Bool) (r : Reader) : Reader :=
  match _h : r.peek.1 with
  | .ok c => if p c then skipWhile p r.peek.2.read.2 else r.peek.2
  | .error _ => r.peek.2
termination_by r.left
decreasing_by exact left_peek r ▸ left_read_lt ((read_peek r).trans _h)

theorem skipWhile_of_ok {p : Char → Bool} {r : Reader} {c : Char} (h : r.peek.1 = .ok c) :
    r.skipWhile p = if p c then r.peek.2.read.2.skipWhile p else r.peek.2 := by
  rw [skipWhile]
  split
  · next d hd => rw [Except.ok.inj (h.symm.trans hd)]
  · next e he => cases h.symm.trans he

theorem skipWhile_of_error {p : Char → Bool} {r : Reader} {e : ReadError}
    (h : r.peek.1 = .error e) : r.skipWhile p = r.peek.2 := by
  rw [skipWhile]
  split
  · next c hc => cases h.symm.trans hc
  · rfl

/-- Consumes white space. -/
def skipBlanks (r : Reader) : Reader := r.skipWhile Text.isBlank

theorem left_skipWhile_le (p : Char → Bool) (r : Reader) : (r.skipWhile p).left ≤ r.left := by
  fun_induction skipWhile p r with
  | case1 r c h hp ih => exact Nat.le_trans ih (left_peek r ▸ left_read_le _)
  | case2 r c h hp => exact Nat.le_of_eq (left_peek r)
  | case3 r e h => exact Nat.le_of_eq (left_peek r)

/-- A run that begins with a character of the class consumes it. -/
theorem left_skipWhile_lt {p : Char → Bool} {r : Reader} {c : Char} (h : r.read.1 = .ok c)
    (hc : p c = true) : (r.skipWhile p).left < r.left := by
  rw [skipWhile_of_ok h, if_pos hc]
  have hlt := left_read_lt ((read_peek r).trans h)
  rw [left_peek] at hlt
  exact Nat.lt_of_le_of_lt (left_skipWhile_le p _) hlt

/-! ### Slices -/

/-- The text between two byte offsets. -/
def slice (r : Reader) (start stop : Nat) : Except ReadError String :=
  if start ≤ stop ∧ stop ≤ r.source.size then
    let bytes := r.source.extract start stop
    match String.fromUTF8? bytes with
    | some text => .ok text
    | none => .error (.invalidUtf8 (start + validLength bytes bytes.size))
  else .error (.outOfBounds start stop)

end Reader
end PathFilter
