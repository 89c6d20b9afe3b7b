import PathFilter.Reader.Session

/-! What a reader can still read.

A `Cursor` is a reader seen from where it is: the offset it has come to, the
characters that lie ahead of it, and the failure that comes after the last of
them. The latest read, which only an `unread` can tell, is left out. Every move
of a reader is a move of its cursor, and a slice that ends where a reader has come
to is the text that was read since its beginning (`slice_of_ahead`).

A cursor at the start of a source has no invalid bytes ahead exactly if the source
is the text that lies ahead (`cursor_eq_endOfInput_iff`). -/
namespace PathFilter

/-- How many bytes a text takes. -/
def textSize : List Char → Nat
  | [] => 0
  | c :: text => c.utf8Size + textSize text

@[simp] theorem textSize_nil : textSize [] = 0 := rfl

@[simp] theorem textSize_cons (c : Char) (text : List Char) :
    textSize (c :: text) = c.utf8Size + textSize text := rfl

@[simp] theorem textSize_append (a b : List Char) :
    textSize (a ++ b) = textSize a + textSize b := by
  induction a with
  | nil => simp
  | cons c a ih => simp [ih, Nat.add_assoc]

theorem size_utf8Encode (text : List Char) : text.utf8Encode.size = textSize text := by
  induction text with
  | nil => rfl
  | cons c rest ih =>
    rw [List.utf8Encode_cons, ByteArray.size_append, ih, List.utf8Encode_singleton, textSize_cons]
    simp

structure Cursor where
  offset : Nat
  /-- The characters up to the first failure. -/
  ahead : List Char
  /-- The failure that comes after them. -/
  cause : ReadError

namespace Cursor

/-- Past the next character, if there is one. -/
def next (k : Cursor) : Cursor :=
  match k.ahead with
  | c :: rest => {k with offset := k.offset + c.utf8Size, ahead := rest}
  | [] => k

/-- Past the characters of a class. -/
def skipWhile (p : Char → Bool) (k : Cursor) : Cursor :=
  {k with offset := k.offset + textSize (k.ahead.takeWhile p), ahead := k.ahead.dropWhile p}

/-- Past white space. -/
def skipBlanks (k : Cursor) : Cursor := k.skipWhile Text.isBlank

theorem next_of_cons {k : Cursor} {c : Char} {rest : List Char} (h : k.ahead = c :: rest) :
    k.next = ⟨k.offset + c.utf8Size, rest, k.cause⟩ := by
  simp [next, h]

@[simp] theorem next_cause (k : Cursor) : k.next.cause = k.cause := by
  unfold next
  split <;> rfl

@[simp] theorem skipWhile_ahead (p : Char → Bool) (k : Cursor) :
    (k.skipWhile p).ahead = k.ahead.dropWhile p := rfl

@[simp] theorem skipWhile_cause (p : Char → Bool) (k : Cursor) :
    (k.skipWhile p).cause = k.cause := rfl

theorem skipWhile_of_head {p : Char → Bool} {k : Cursor} (h : ∀ c ∈ k.ahead.head?, p c = false) :
    k.skipWhile p = k := by
  obtain ⟨o, ahead, e⟩ := k
  cases ahead with
  | nil => rfl
  | cons c rest => simp [skipWhile, h c rfl]

theorem skipWhile_skipWhile (p : Char → Bool) (k : Cursor) :
    (k.skipWhile p).skipWhile p = k.skipWhile p := by
  apply skipWhile_of_head
  intro c hc
  have := List.head?_dropWhile_not p k.ahead
  simp_all

theorem skipBlanks_of_cons {k : Cursor} {c : Char} {rest : List Char} (h : k.ahead = c :: rest)
    (hc : Text.isBlank c = false) : k.skipBlanks = k :=
  skipWhile_of_head (by simpa [h] using hc)

theorem skipBlanks_skipBlanks (k : Cursor) : k.skipBlanks.skipBlanks = k.skipBlanks :=
  k.skipWhile_skipWhile Text.isBlank

theorem next_skipWhile {p : Char → Bool} {k : Cursor} {c : Char} {rest : List Char}
    (h : k.ahead = c :: rest) (hp : p c = true) : k.next.skipWhile p = k.skipWhile p := by
  rw [next_of_cons h]
  simp [skipWhile, h, hp, Nat.add_assoc]

theorem split_skipWhile (p : Char → Bool) (k : Cursor) :
    k.ahead = k.ahead.takeWhile p ++ (k.skipWhile p).ahead :=
  List.takeWhile_append_dropWhile.symm

theorem head_skipWhile {p : Char → Bool} {k : Cursor} {c : Char} {rest : List Char}
    (h : (k.skipWhile p).ahead = c :: rest) : p c = false := by
  have := List.head?_dropWhile_not p k.ahead
  rw [skipWhile_ahead] at h
  rwa [h] at this

/-- All that is of the class is skipped, and nothing more. -/
theorem skipWhile_of_append {p : Char → Bool} {k : Cursor} {skipped rest : List Char}
    (h : k.ahead = skipped ++ rest) (hskipped : ∀ c ∈ skipped, p c = true)
    (hrest : ∀ c ∈ rest.head?, p c = false) :
    k.ahead.takeWhile p = skipped ∧ (k.skipWhile p).ahead = rest := by
  have hstop : rest.takeWhile p = [] ∧ rest.dropWhile p = rest := by
    cases rest with
    | nil => exact ⟨rfl, rfl⟩
    | cons c rest =>
      have hc : p c = false := hrest c rfl
      simp [hc]
  rw [skipWhile_ahead, h, List.takeWhile_append_of_pos hskipped,
    List.dropWhile_append_of_pos hskipped, hstop.1, hstop.2, List.append_nil]
  exact ⟨rfl, rfl⟩

theorem length_next_le (k : Cursor) : k.next.ahead.length ≤ k.ahead.length := by
  unfold next
  split <;> simp_all

theorem length_skipWhile_le (p : Char → Bool) (k : Cursor) :
    (k.skipWhile p).ahead.length ≤ k.ahead.length :=
  (List.dropWhile_suffix p).length_le

theorem length_skipBlanks_le (k : Cursor) : k.skipBlanks.ahead.length ≤ k.ahead.length :=
  k.length_skipWhile_le Text.isBlank

end Cursor

namespace Reader

theorem read_fst (r : Reader) : r.read.1 = decodeAt r.source r.offset := by
  unfold read
  split <;> simp_all

/-- The reader seen from where it is. -/
def cursor (r : Reader) : Cursor := ⟨r.offset, r.readAll.1, r.readAll.2.1⟩

theorem cursor_of_ok {r : Reader} {c : Char} (h : r.read.1 = .ok c) :
    r.cursor = ⟨r.offset, c :: r.read.2.cursor.ahead, r.read.2.cursor.cause⟩ := by
  unfold cursor
  rw [readAll]
  split
  · next d after hr =>
    rw [hr] at h ⊢
    cases h
    rfl
  · next e after hr =>
    rw [hr] at h
    contradiction

theorem cursor_of_error {r : Reader} {e : ReadError} (h : r.read.1 = .error e) :
    r.cursor = ⟨r.offset, [], e⟩ := by
  unfold cursor
  rw [readAll]
  split
  · next d after hr =>
    rw [hr] at h
    contradiction
  · next e' after hr =>
    rw [hr] at h
    cases h
    rfl

theorem read_of_ahead_cons {r : Reader} {c : Char} {rest : List Char}
    (h : r.cursor.ahead = c :: rest) : r.read.1 = .ok c := by
  cases hr : r.read.1 with
  | ok d =>
    rw [cursor_of_ok hr] at h
    cases h
    rfl
  | error e =>
    rw [cursor_of_error hr] at h
    contradiction

theorem read_of_ahead_nil {r : Reader} (h : r.cursor.ahead = []) :
    r.read.1 = .error r.cursor.cause := by
  cases hr : r.read.1 with
  | ok d =>
    rw [cursor_of_ok hr] at h
    contradiction
  | error e => rw [cursor_of_error hr]

/-- What lies ahead does not depend on the latest read. -/
theorem cursor_forget (r : Reader) (w : Nat) : cursor {r with lastWidth := w} = r.cursor := by
  have hread : read {r with lastWidth := w} = r.read := rfl
  cases hr : r.read.1 with
  | ok c => rw [cursor_of_ok hr, cursor_of_ok (hread ▸ hr), hread]
  | error e => rw [cursor_of_error hr, cursor_of_error (hread ▸ hr)]

/-! ### Moves of the cursor -/

theorem cursor_peek (r : Reader) : r.peek.2.cursor = r.cursor := by
  rw [peek_snd, cursor_forget]

theorem cursor_read (r : Reader) : r.read.2.cursor = r.cursor.next := by
  cases hr : r.read.1 with
  | ok c =>
    rw [cursor_of_ok hr, Cursor.next_of_cons rfl]
    have hoffset : r.read.2.offset = r.offset + c.utf8Size := by rw [read_of_ok hr]
    rw [← hoffset]
    rfl
  | error e =>
    rw [read_of_error hr, cursor_forget, cursor_of_error hr]
    rfl

theorem cursor_skipWhile (p : Char → Bool) (r : Reader) :
    (r.skipWhile p).cursor = r.cursor.skipWhile p := by
  fun_induction skipWhile p r with
  | case1 r c h hp ih =>
    have hr : r.read.1 = .ok c := h
    rw [ih, cursor_read, cursor_peek, cursor_of_ok hr, Cursor.next_of_cons rfl]
    simp [Cursor.skipWhile, hp, Nat.add_assoc]
  | case2 r c h hp =>
    have hr : r.read.1 = .ok c := h
    rw [cursor_peek, Cursor.skipWhile_of_head]
    rw [cursor_of_ok hr]
    simpa using hp
  | case3 r e h =>
    have hr : r.read.1 = .error e := h
    rw [cursor_peek, Cursor.skipWhile_of_head]
    rw [cursor_of_error hr]
    simp

theorem cursor_skipBlanks (r : Reader) : r.skipBlanks.cursor = r.cursor.skipBlanks :=
  cursor_skipWhile _ r

theorem source_read (r : Reader) : r.read.2.source = r.source := by
  unfold read
  split <;> rfl

theorem source_peek (r : Reader) : r.peek.2.source = r.source := by rw [peek_snd]

theorem source_skipWhile (p : Char → Bool) (r : Reader) : (r.skipWhile p).source = r.source := by
  fun_induction skipWhile p r with
  | case1 r c h hp ih => rw [ih, source_read, source_peek]
  | case2 r c h hp => exact source_peek r
  | case3 r e h => exact source_peek r

/-! ### What was read -/

theorem le_size_of_ahead {r : Reader} {c : Char} {rest : List Char}
    (h : r.cursor.ahead = c :: rest) : r.offset + c.utf8Size ≤ r.source.size :=
  le_size_of_read_ok (read_of_ahead_cons h)

/-- The bytes of the next character. -/
theorem extract_of_read {r : Reader} {c : Char} (h : r.read.1 = .ok c) :
    r.source.extract r.offset (r.offset + c.utf8Size) = [c].utf8Encode := by
  have hd : r.source.utf8DecodeChar? r.offset = some c := by
    unfold read decodeAt at h
    split at h <;> split at * <;> simp_all
  have hs : (r.source.utf8DecodeChar? r.offset).isSome := by simp [hd]
  have hc : r.source.utf8DecodeChar r.offset hs = c := by simp [ByteArray.utf8DecodeChar, hd]
  have := ByteArray.utf8EncodeChar_utf8DecodeChar (h := hs)
  rw [hc] at this
  rw [← this, List.utf8Encode_singleton]

/-- The bytes of a text that lies ahead. -/
theorem extract_of_ahead {r : Reader} {text rest : List Char}
    (h : r.cursor.ahead = text ++ rest) (hb : r.offset ≤ r.source.size) :
    r.offset + textSize text ≤ r.source.size ∧
      r.source.extract r.offset (r.offset + textSize text) = text.utf8Encode := by
  induction text generalizing r with
  | nil => exact ⟨hb, by simp⟩
  | cons c text ih =>
    have hr : r.read.1 = .ok c := read_of_ahead_cons h
    have hafter : r.read.2.cursor.ahead = text ++ rest := by
      rw [cursor_of_ok hr] at h
      exact List.cons.inj h |>.2
    have hoffset : r.read.2.offset = r.offset + c.utf8Size := by rw [read_of_ok hr]
    obtain ⟨hle, hext⟩ := ih hafter
      (by rw [hoffset, source_read]; exact le_size_of_read_ok hr)
    rw [hoffset, source_read] at hle hext
    rw [textSize_cons, ← Nat.add_assoc]
    refine ⟨hle, ?_⟩
    rw [ByteArray.extract_eq_extract_append_extract (r.offset + c.utf8Size) (by omega) (by omega),
      extract_of_read hr, hext, ← List.utf8Encode_cons]

/-- The bytes of a text are that text. -/
theorem fromUTF8_utf8Encode (text : List Char) :
    String.fromUTF8? text.utf8Encode = some (String.ofList text) := by
  have hvalid : text.utf8Encode.IsValidUTF8 := ByteArray.isValidUTF8_utf8Encode
  rw [String.fromUTF8?, dif_pos hvalid]
  rfl

/-- A slice that begins where a reader was and ends where it has come to is the
text that was read. -/
theorem slice_of_ahead {r after : Reader} {text rest : List Char}
    (h : r.cursor.ahead = text ++ rest) (hb : r.offset ≤ r.source.size)
    (hs : after.source = r.source) (ho : after.offset = r.offset + textSize text) :
    after.slice r.offset after.offset = .ok (String.ofList text) := by
  obtain ⟨hle, hext⟩ := extract_of_ahead h hb
  unfold slice
  rw [hs, ho, if_pos ⟨by omega, hle⟩, hext]
  dsimp only
  rw [fromUTF8_utf8Encode]

/-- The text of a run of characters that was read. -/
theorem slice_skipWhile (p : Char → Bool) {r after : Reader} (hb : r.offset ≤ r.source.size)
    (hs : after.source = r.source) (hc : after.cursor = r.cursor.skipWhile p) :
    after.slice r.offset after.offset = .ok (String.ofList (r.cursor.ahead.takeWhile p)) :=
  slice_of_ahead (List.takeWhile_append_dropWhile).symm hb hs (congrArg Cursor.offset hc)

/-! ### Whole sources -/

theorem error_of_read {r : Reader} {e : ReadError} (h : r.read.1 = .error e) :
    e = if r.offset < r.source.size then .invalidUtf8 r.offset else .endOfInput := by
  unfold read at h
  split at h
  · contradiction
  · next e' hd =>
    obtain rfl : e' = e := Except.error.inj h
    unfold decodeAt at hd
    split at hd
    · contradiction
    · exact (Except.error.inj hd).symm

/-- The failure that comes after the last character, by the bytes that are left. -/
theorem cursor_cause (r : Reader) :
    r.cursor.cause =
      if r.offset + textSize r.cursor.ahead < r.source.size then
        .invalidUtf8 (r.offset + textSize r.cursor.ahead)
      else .endOfInput := by
  induction r using readAll.induct with
  | case1 r c after h found cause last _ ih =>
    have hr : r.read.1 = .ok c := by rw [h]
    obtain rfl : r.read.2 = after := by rw [h]
    rw [cursor_of_ok hr]
    simp only [textSize_cons, ← Nat.add_assoc]
    rw [ih, source_read, read_of_ok hr]
  | case2 r e after h =>
    have hr : r.read.1 = .error e := by rw [h]
    rw [cursor_of_error hr, textSize_nil, Nat.add_zero]
    exact error_of_read hr

/-- In the middle of a text, the rest of it lies ahead. -/
theorem cursor_of_append (a b : List Char) (w : Nat) :
    cursor ⟨(a ++ b).utf8Encode, textSize a, w⟩ = ⟨textSize a, b, .endOfInput⟩ := by
  induction b generalizing a w with
  | nil =>
    have hd : (a.utf8Encode).utf8DecodeChar? (textSize a) = none := by
      rw [ByteArray.utf8DecodeChar?_eq_utf8DecodeChar?_extract, size_utf8Encode]
      simp only [ByteArray.extract_same]
      rfl
    apply cursor_of_error
    simp [read, decodeAt, hd, size_utf8Encode]
  | cons c b ih =>
    have hd : ((a ++ c :: b).utf8Encode).utf8DecodeChar? (textSize a) = some c := by
      rw [ByteArray.utf8DecodeChar?_eq_utf8DecodeChar?_extract, List.utf8Encode_append,
        ByteArray.extract_append_eq_right (size_utf8Encode a).symm (by simp),
        List.utf8DecodeChar?_utf8Encode_cons]
    have hr : (Reader.mk (a ++ c :: b).utf8Encode (textSize a) w).read =
        (.ok c, ⟨(a ++ c :: b).utf8Encode, textSize a + c.utf8Size, c.utf8Size⟩) := by
      simp only [read, decodeAt, hd]
    have hafter := ih (a ++ [c]) c.utf8Size
    rw [cursor_of_ok (by rw [hr]), hr]
    simp only [List.append_assoc, List.singleton_append, textSize_append, textSize_cons,
      textSize_nil, Nat.add_zero] at hafter
    rw [hafter]

theorem cursor_of_text (s : String) : (ofBytes s.toUTF8).cursor = ⟨0, s.toList, .endOfInput⟩ := by
  have := cursor_of_append [] s.toList 0
  rw [List.nil_append, String.utf8Encode_toList] at this
  exact this

/-- Reading from the start comes to the end exactly if the source is the text that
lies ahead. -/
theorem cursor_eq_endOfInput_iff (source : ByteArray) :
    (ofBytes source).cursor.cause = .endOfInput ↔
      source = (String.ofList (ofBytes source).cursor.ahead).toUTF8 := by
  constructor
  · intro h
    obtain ⟨hle, hext⟩ := extract_of_ahead (r := ofBytes source)
      (List.append_nil _).symm (Nat.zero_le _)
    rw [cursor_cause] at h
    have hsize :
        (ofBytes source).offset + textSize (ofBytes source).cursor.ahead = source.size := by
      split at h
      · contradiction
      · next hlt => exact Nat.le_antisymm hle (Nat.not_lt.1 hlt)
    rw [hsize] at hext
    rw [String.toUTF8_eq_toByteArray, String.toByteArray_ofList, ← hext]
    exact (ByteArray.extract_zero_size).symm
  · intro h
    have := cursor_of_text (String.ofList (ofBytes source).cursor.ahead)
    rw [← h] at this
    rw [this]

end Reader
end PathFilter
