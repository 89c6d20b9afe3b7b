import PathFilter.Proofs.Reader.Decoding

/-! Sources put together.

Bytes in front of a source only move it: each character is decoded where it was, further
on by their number, and so is the fault that ends the reading (`decodeAt_append`). So
behind a text the source lies ahead as on its own (`cursor_append`). -/
namespace PathFilter

/-- The error, with so many bytes put in front of the source. -/
def ReadError.shift (d : Nat) : ReadError → ReadError
  | .endOfInput => .endOfInput
  | .invalidUtf8 offset => .invalidUtf8 (offset + d)
  | .outOfBounds start stop => .outOfBounds (start + d) (stop + d)

theorem ReadError.shift_eq_endOfInput_iff {d : Nat} {e : ReadError} :
    e.shift d = .endOfInput ↔ e = .endOfInput := by
  cases e <;> simp [shift]

/-- The cursor, with so many bytes put in front of the source. -/
def Cursor.shift (d : Nat) (k : Cursor) : Cursor := ⟨k.offset + d, k.ahead, k.cause.shift d⟩

/-- Behind other bytes the same is decoded. -/
theorem decodeAt_append (front source : ByteArray) (offset : Nat) :
    decodeAt (front ++ source) (offset + front.size) =
      (decodeAt source offset).mapError (.shift front.size) := by
  have hsame : (front ++ source).utf8DecodeChar? (offset + front.size) =
      source.utf8DecodeChar? offset := by
    rw [ByteArray.utf8DecodeChar?_eq_utf8DecodeChar?_extract, Nat.add_comm, ByteArray.size_append,
      ByteArray.extract_append_size_add, ← ByteArray.utf8DecodeChar?_eq_utf8DecodeChar?_extract]
  have hleft : offset + front.size < (front ++ source).size ↔ offset < source.size := by
    rw [ByteArray.size_append]
    omega
  simp only [decodeAt, hsame, hleft]
  cases source.utf8DecodeChar? offset with
  | some c => rfl
  | none =>
    have hsplit := apply_ite (ReadError.shift front.size) (offset < source.size)
      (.invalidUtf8 offset) .endOfInput
    exact congrArg Except.error hsplit.symm

namespace Reader

theorem read_fst_append (front source : ByteArray) (offset w : Nat) :
    (read ⟨front ++ source, offset + front.size, w⟩).1 =
      (read ⟨source, offset, w⟩).1.mapError (.shift front.size) := by
  rw [read_fst, read_fst]
  exact decodeAt_append front source offset

/-- **Behind other bytes the same lies ahead.** -/
theorem cursor_append (front source : ByteArray) (offset w : Nat) :
    cursor ⟨front ++ source, offset + front.size, w⟩ =
      (cursor ⟨source, offset, w⟩).shift front.size := by
  have hread := read_fst_append front source offset w
  generalize hahead : (cursor ⟨source, offset, w⟩).ahead = ahead
  induction ahead generalizing offset w with
  | nil =>
    have h := read_of_ahead_nil hahead
    rw [h] at hread
    rw [cursor_of_error h, cursor_of_error hread]
    rfl
  | cons c rest ih =>
    have h := read_of_ahead_cons hahead
    rw [h] at hread
    rw [cursor_of_ok h, read_of_ok h] at hahead
    rw [cursor_of_ok h, cursor_of_ok hread, read_of_ok h, read_of_ok hread]
    have hrest := ih (offset + c.utf8Size) c.utf8Size (read_fst_append _ _ _ _)
      (List.cons.inj hahead).2
    rw [Nat.add_right_comm] at hrest
    simp only [hrest]
    rfl

/-- In a source that begins with a text, the text lies ahead and then what lies ahead in the
rest. -/
theorem cursor_of_begins (text : List Char) (rest : ByteArray) :
    (ofBytes (text.utf8Encode ++ rest)).cursor =
      ⟨0, text ++ validText rest, (ending rest).shift (textSize text)⟩ := by
  have hle : 0 + textSize text ≤ (text.utf8Encode ++ rest).size := by
    rw [ByteArray.size_append, size_utf8Encode]
    omega
  have hext : (text.utf8Encode ++ rest).extract 0 (0 + textSize text) = text.utf8Encode := by
    rw [ByteArray.extract_append_eq_left]
    rw [size_utf8Encode, Nat.zero_add]
  have hbehind := cursor_append text.utf8Encode rest 0 0
  rw [size_utf8Encode] at hbehind
  have := (Decodes.of_extract hle hext).cursor_eq 0 0
  rw [hbehind] at this
  rw [← ahead_ofBytes, ← cause_ofBytes]
  exact this

end Reader
end PathFilter
