import PathFilter.Proofs.Lexer.Cursor

/-! Decoding one character after another.

`Decodes` leads from one byte offset to another past a text, a character at a time,
and it does so exactly if the bytes between the offsets are the text's own
(`decodes_iff`). So a stretch of bytes is valid as a whole exactly if decoding comes
to its end, and the longest valid prefix of a source is as far as decoding comes from
its beginning (`ahead_ofBytes`).

A byte tells how wide the character is that it begins (`leadWidth`). To take that many
bytes and ask whether they are a character finds the same as decoding does, whatever
the bytes (`decodeByLead_eq`). -/
namespace PathFilter

theorem decodeAt_eq_ok_iff {source : ByteArray} {offset : Nat} {c : Char} :
    decodeAt source offset = .ok c ↔ source.utf8DecodeChar? offset = some c := by
  unfold decodeAt
  split <;> simp_all

/-- The bytes of the character at an offset. -/
theorem extract_of_decodeAt {source : ByteArray} {offset : Nat} {c : Char}
    (h : decodeAt source offset = .ok c) :
    source.extract offset (offset + c.utf8Size) = [c].utf8Encode := by
  apply Reader.extract_of_read (r := ⟨source, offset, 0⟩)
  simp only [Reader.read, h]

/-- Where the bytes of a character stand, it is decoded, whatever comes behind them. -/
theorem decodeAt_of_extract {source : ByteArray} {offset stop : Nat} {c : Char}
    {rest : ByteArray} (hstop : stop ≤ source.size)
    (h : source.extract offset stop = [c].utf8Encode ++ rest) :
    decodeAt source offset = .ok c := by
  have hle : offset ≤ stop := by
    have := congrArg ByteArray.size h
    have := c.utf8Size_pos
    simp only [ByteArray.size_extract, ByteArray.size_append, size_utf8Encode, textSize_cons,
      textSize_nil] at *
    omega
  rw [decodeAt_eq_ok_iff, ByteArray.utf8DecodeChar?_eq_utf8DecodeChar?_extract,
    ByteArray.extract_eq_extract_append_extract stop hle hstop, h, ByteArray.append_assoc]
  exact List.utf8DecodeChar?_utf8Encode_singleton_append

/-- From one offset to another lies the text, decoded one character after another. -/
inductive Decodes (source : ByteArray) : Nat → List Char → Nat → Prop where
  | nil {offset : Nat} : Decodes source offset [] offset
  | cons {offset stop : Nat} {c : Char} {text : List Char}
      (head : decodeAt source offset = .ok c)
      (rest : Decodes source (offset + c.utf8Size) text stop) :
      Decodes source offset (c :: text) stop

namespace Decodes
variable {source : ByteArray} {offset stop other : Nat} {text more : List Char}

theorem stop_eq (h : Decodes source offset text stop) : stop = offset + textSize text := by
  induction h with
  | nil => rfl
  | cons _ _ ih => rw [ih, textSize_cons, Nat.add_assoc]

theorem le (h : Decodes source offset text stop) : offset ≤ stop := by
  rw [h.stop_eq]
  exact Nat.le_add_right _ _

theorem le_size (h : Decodes source offset text stop) (hb : offset ≤ source.size) :
    stop ≤ source.size := by
  induction h with
  | nil => exact hb
  | cons head _ ih =>
    exact ih (ByteArray.le_size_of_utf8DecodeChar?_eq_some (decodeAt_eq_ok_iff.1 head))

/-- Decoding a text begins with decoding what begins it. -/
theorem left (h : Decodes source offset (text ++ more) stop) :
    Decodes source offset text (offset + textSize text) := by
  induction text generalizing offset with
  | nil => exact .nil
  | cons c text ih =>
    cases h with
    | cons head rest =>
      rw [textSize_cons, ← Nat.add_assoc]
      exact .cons head (ih rest)

/-- The bytes of the text stand between the offsets. -/
theorem extract (h : Decodes source offset text stop) :
    source.extract offset stop = text.utf8Encode := by
  induction h with
  | nil => simp
  | @cons offset stop c text head rest ih =>
    have hle := rest.le
    have hsize := ByteArray.le_size_of_utf8DecodeChar?_eq_some (decodeAt_eq_ok_iff.1 head)
    have hstop := rest.le_size hsize
    rw [ByteArray.extract_eq_extract_append_extract (offset + c.utf8Size) (by omega) (by omega),
      extract_of_decodeAt head, ih, ← List.utf8Encode_cons]

/-- Where the bytes of a text stand, it is decoded. -/
theorem of_extract (hb : offset + textSize text ≤ source.size)
    (h : source.extract offset (offset + textSize text) = text.utf8Encode) :
    Decodes source offset text (offset + textSize text) := by
  induction text generalizing offset with
  | nil => exact .nil
  | cons c text ih =>
    rw [textSize_cons, ← Nat.add_assoc] at h hb ⊢
    have hsplit := h
    rw [List.utf8Encode_cons] at hsplit
    have head := decodeAt_of_extract hb hsplit
    refine .cons head (ih hb ?_)
    rw [ByteArray.extract_eq_extract_append_extract (offset + c.utf8Size) (by omega) (by omega),
      extract_of_decodeAt head] at hsplit
    exact (ByteArray.append_right_inj _).1 hsplit

/-- Of two texts that are decoded from one offset, the one that comes less far begins
the other. -/
theorem isPrefix (h : Decodes source offset text stop) (h' : Decodes source offset more other)
    (hle : stop ≤ other) : text <+: more := by
  induction h generalizing more other with
  | nil => exact List.nil_prefix
  | @cons offset stop c text head rest ih =>
    cases h' with
    | nil =>
      have := rest.le
      have := c.utf8Size_pos
      omega
    | cons head' rest' =>
      obtain rfl := Except.ok.inj (head.symm.trans head')
      exact (List.prefix_cons_inj _).2 (ih rest' hle)

end Decodes

theorem decodes_iff {source : ByteArray} {offset stop : Nat} {text : List Char}
    (hb : offset ≤ source.size) :
    Decodes source offset text stop ↔
      stop = offset + textSize text ∧ stop ≤ source.size ∧
        source.extract offset stop = text.utf8Encode :=
  ⟨fun h => ⟨h.stop_eq, h.le_size hb, h.extract⟩, fun ⟨hstop, hle, h⟩ => by
    subst hstop
    exact .of_extract hle h⟩

/-! ### Validity -/

/-- Bytes are valid if decoding comes to their end. -/
theorem isValidUTF8_extract_iff {source : ByteArray} {offset stop : Nat} (hle : offset ≤ stop)
    (hstop : stop ≤ source.size) :
    (source.extract offset stop).IsValidUTF8 ↔ ∃ text, Decodes source offset text stop := by
  constructor
  · rintro ⟨text, h⟩
    refine ⟨text, (decodes_iff (by omega)).2 ⟨?_, hstop, h⟩⟩
    have := congrArg ByteArray.size h
    rw [ByteArray.size_extract, size_utf8Encode] at this
    omega
  · rintro ⟨text, h⟩
    rw [h.extract]
    exact ByteArray.isValidUTF8_utf8Encode

section
variable {bytes : ByteArray} {m n : Nat}

theorem validLength_le (bytes : ByteArray) (n : Nat) : validLength bytes n ≤ n := by
  induction n with
  | zero => exact Nat.le_refl 0
  | succ n ih =>
    rw [validLength]
    split <;> omega

/-- The longest valid prefix is valid. -/
theorem isValidUTF8_validLength (bytes : ByteArray) (n : Nat) :
    (bytes.extract 0 (validLength bytes n)).IsValidUTF8 := by
  induction n with
  | zero =>
    rw [validLength, ByteArray.extract_same]
    exact ByteArray.isValidUTF8_empty
  | succ n ih =>
    rw [validLength]
    split
    · next h => exact h
    · exact ih

/-- No valid prefix is longer. -/
theorem le_validLength (hle : m ≤ n) (h : (bytes.extract 0 m).IsValidUTF8) :
    m ≤ validLength bytes n := by
  induction n with
  | zero => exact hle
  | succ n ih =>
    rw [validLength]
    split
    · exact hle
    · next hn =>
      have hne : m ≠ n + 1 := by
        rintro rfl
        exact hn h
      exact ih (by omega)

end

/-- The characters of the longest valid prefix of a source. -/
def validText (source : ByteArray) : List Char :=
  (String.fromUTF8 _ (isValidUTF8_validLength source source.size)).toList

/-! ### From the beginning -/

section
variable (source : ByteArray)

theorem utf8Encode_validText :
    (validText source).utf8Encode = source.extract 0 (validLength source source.size) :=
  String.utf8Encode_toList

theorem textSize_validText : textSize (validText source) = validLength source source.size := by
  have h := congrArg ByteArray.size (utf8Encode_validText source)
  have hle := validLength_le source source.size
  rw [size_utf8Encode, ByteArray.size_extract] at h
  omega

/-- Decoding comes from the beginning to the end of the longest valid prefix. -/
theorem decodes_validText :
    Decodes source 0 (validText source) (validLength source source.size) := by
  rw [decodes_iff (Nat.zero_le _), textSize_validText, Nat.zero_add, utf8Encode_validText]
  exact ⟨rfl, validLength_le source source.size, rfl⟩

end

/-- What is decoded from where a reader is lies ahead of it. -/
theorem Decodes.isPrefix_ahead {r : Reader} {text : List Char} {stop : Nat}
    (h : Decodes r.source r.offset text stop) : text <+: r.cursor.ahead := by
  induction text generalizing r with
  | nil => exact List.nil_prefix
  | cons c text ih =>
    cases h with
    | cons head rest =>
      have hr : r.read.1 = .ok c := by simp only [Reader.read, head]
      have hoffset : r.read.2.offset = r.offset + c.utf8Size := by rw [Reader.read_of_ok hr]
      rw [Reader.cursor_of_ok hr]
      rw [← hoffset, ← r.source_read] at rest
      exact (List.prefix_cons_inj c).2 (ih rest)

/-- Past a text that is decoded, the rest lies ahead, and the same failure comes after it. -/
theorem Decodes.cursor_eq {source : ByteArray} {offset stop : Nat} {text : List Char}
    (h : Decodes source offset text stop) (w v : Nat) :
    (Reader.mk source offset w).cursor =
      ⟨offset, text ++ (Reader.mk source stop v).cursor.ahead,
        (Reader.mk source stop v).cursor.cause⟩ := by
  induction h generalizing w with
  | nil => rw [← Reader.cursor_forget _ v]; rfl
  | @cons offset stop c text head rest ih =>
    have hr : (Reader.mk source offset w).read =
        (.ok c, ⟨source, offset + c.utf8Size, c.utf8Size⟩) := by
      simp only [Reader.read, head]
    rw [Reader.cursor_of_ok (by rw [hr]), hr, ih, List.cons_append]

/-- What lies ahead of a reader at the start is the longest valid prefix. -/
theorem Reader.ahead_ofBytes (source : ByteArray) :
    (ofBytes source).cursor.ahead = validText source := by
  have hbegins : validText source <+: (ofBytes source).cursor.ahead :=
    Decodes.isPrefix_ahead (r := ofBytes source) (decodes_validText source)
  obtain ⟨hle, hext⟩ := extract_of_ahead (r := ofBytes source)
    (List.append_nil _).symm (Nat.zero_le _)
  have hahead := Decodes.of_extract hle hext
  have hvalid : (source.extract 0 (0 + textSize (ofBytes source).cursor.ahead)).IsValidUTF8 :=
    (isValidUTF8_extract_iff (Nat.zero_le _) hle).2 ⟨_, hahead⟩
  have hback := hahead.isPrefix (decodes_validText source) (le_validLength hle hvalid)
  exact (hbegins.eq_of_length_le hback.length_le).symm

/-- Why reading a source from its beginning comes to an end: at the end of the source, or
where its longest valid prefix ends before. -/
def ending (source : ByteArray) : ReadError :=
  if validLength source source.size = source.size then .endOfInput
  else .invalidUtf8 (validLength source source.size)

theorem Reader.cause_ofBytes (source : ByteArray) :
    (ofBytes source).cursor.cause = ending source := by
  have hle := validLength_le source source.size
  rw [cursor_cause, ahead_ofBytes, textSize_validText, ending]
  simp only [ofBytes, Nat.zero_add]
  split <;> split <;> first | rfl | omega

/-! ### The width of a character -/

/-- How many bytes the character has that begins with the byte; 0 if none begins with it. -/
def leadWidth (lead : UInt8) : Nat :=
  if lead ≤ 0x7F then 1
  else if 0xC2 ≤ lead ∧ lead ≤ 0xDF then 2
  else if 0xE0 ≤ lead ∧ lead ≤ 0xEF then 3
  else if 0xF0 ≤ lead ∧ lead ≤ 0xF4 then 4
  else 0

/-- The character at an offset and its width, by the width that the byte there announces:
so many bytes have to follow, and on their own they have to be valid. -/
def decodeByLead (source : ByteArray) (offset : Nat) : Except ReadError (Char × Nat) :=
  match source[offset]? with
  | none => .error .endOfInput
  | some lead =>
    if leadWidth lead = 0 ∨ source.size < offset + leadWidth lead then .error (.invalidUtf8 offset)
    else
      match String.fromUTF8? (source.extract offset (offset + leadWidth lead)) with
      | some text =>
        match text.toList with
        | c :: _ => .ok (c, leadWidth lead)
        | [] => .error (.invalidUtf8 offset)
      | none => .error (.invalidUtf8 offset)

theorem leadWidth_ofNat {n : Nat} (h : n < 256) : leadWidth (UInt8.ofNat n) =
    if n ≤ 0x7F then 1 else if 0xC2 ≤ n ∧ n ≤ 0xDF then 2 else if 0xE0 ≤ n ∧ n ≤ 0xEF then 3
    else if 0xF0 ≤ n ∧ n ≤ 0xF4 then 4 else 0 := by
  have hn : (UInt8.ofNat n).toNat = n := by
    rw [UInt8.toNat_ofNat']
    omega
  simp only [leadWidth, UInt8.le_iff_toNat_le, hn]
  rfl

/-- The first byte of a character tells its width. -/
theorem leadWidth_utf8EncodeChar (c : Char) :
    (String.utf8EncodeChar c).head?.map leadWidth = some c.utf8Size := by
  have hmax : c.val.toNat < 0x110000 := by
    have := c.valid
    simp only [UInt32.isValidChar, Nat.isValidChar] at this
    omega
  simp only [String.utf8EncodeChar]
  by_cases hone : c.val.toNat ≤ 0x7F
  · have hsize : c.utf8Size = 1 := Char.utf8Size_eq_one_iff.2 (UInt32.le_iff_toNat_le.2 hone)
    rw [if_pos hone, hsize, List.head?_cons, Option.map_some, leadWidth_ofNat (by omega),
      if_pos hone]
  by_cases htwo : c.val.toNat ≤ 0x7FF
  · have hsize : c.utf8Size = 2 := Char.utf8Size_eq_two_iff.2
      ⟨UInt32.lt_iff_toNat_lt.2 (Nat.lt_of_not_le hone), UInt32.le_iff_toNat_le.2 htwo⟩
    rw [if_neg hone, if_pos htwo, hsize, List.head?_cons, Option.map_some,
      leadWidth_ofNat (by omega), if_neg (by omega), if_pos (by omega)]
  by_cases hthree : c.val.toNat ≤ 0xFFFF
  · have hsize : c.utf8Size = 3 := Char.utf8Size_eq_three_iff.2
      ⟨UInt32.lt_iff_toNat_lt.2 (Nat.lt_of_not_le htwo), UInt32.le_iff_toNat_le.2 hthree⟩
    rw [if_neg hone, if_neg htwo, if_pos hthree, hsize, List.head?_cons, Option.map_some,
      leadWidth_ofNat (by omega), if_neg (by omega), if_neg (by omega), if_pos (by omega)]
  · have hsize : c.utf8Size = 4 := Char.utf8Size_eq_four_iff.2
      (UInt32.lt_iff_toNat_lt.2 (Nat.lt_of_not_le hthree))
    rw [if_neg hone, if_neg htwo, if_neg hthree, hsize, List.head?_cons, Option.map_some,
      leadWidth_ofNat (by omega), if_neg (by omega), if_neg (by omega), if_neg (by omega),
      if_pos (by omega)]

theorem getElem?_toByteArray (bytes : List UInt8) (i : Nat) :
    bytes.toByteArray[i]? = bytes[i]? := by
  by_cases hi : i < bytes.length
  · rw [getElem?_pos _ i (by simpa using hi), List.getElem?_eq_getElem hi,
      List.getElem_toByteArray]
  · rw [getElem?_neg _ i (by simpa using hi), List.getElem?_eq_none (Nat.le_of_not_lt hi)]

theorem getElem?_extract {source : ByteArray} {start stop i : Nat} (hi : start + i < stop)
    (hstop : stop ≤ source.size) : (source.extract start stop)[i]? = source[start + i]? := by
  have hsize : i < (source.extract start stop).size := by
    rw [ByteArray.size_extract]
    omega
  rw [getElem?_pos _ i hsize, getElem?_pos source _ (by omega), ByteArray.getElem_extract]

/-- The bytes of the source where a character is decoded are its own. -/
theorem getElem?_of_decodeAt {source : ByteArray} {offset i : Nat} {c : Char}
    (h : decodeAt source offset = .ok c) (hi : i < c.utf8Size) :
    source[offset + i]? = (String.utf8EncodeChar c)[i]? := by
  have hle := ByteArray.le_size_of_utf8DecodeChar?_eq_some (decodeAt_eq_ok_iff.1 h)
  rw [← getElem?_extract (Nat.add_lt_add_left hi offset) hle, extract_of_decodeAt h,
    List.utf8Encode_singleton, getElem?_toByteArray]

/-- The byte at which a character is decoded tells its width. -/
theorem lead_of_decodeAt {source : ByteArray} {offset : Nat} {c : Char}
    (h : decodeAt source offset = .ok c) : source[offset]?.map leadWidth = some c.utf8Size := by
  have hfirst := getElem?_of_decodeAt h c.utf8Size_pos
  rw [Nat.add_zero, ← List.head?_eq_getElem?] at hfirst
  rw [hfirst, leadWidth_utf8EncodeChar]

/-- What is read of valid bytes is the character at their beginning. -/
theorem decodeAt_of_fromUTF8 {source : ByteArray} {offset stop : Nat} {text : String} {c : Char}
    {rest : List Char} (hstop : stop ≤ source.size)
    (h : String.fromUTF8? (source.extract offset stop) = some text)
    (htext : text.toList = c :: rest) : decodeAt source offset = .ok c := by
  have hbytes : source.extract offset stop = text.toByteArray := by
    unfold String.fromUTF8? at h
    split at h
    · rw [← Option.some.inj h]
      rfl
    · contradiction
  rw [← String.utf8Encode_toList, htext, List.utf8Encode_cons] at hbytes
  exact decodeAt_of_extract hstop hbytes

/-- **The width that a byte announces is right.** What is found by it is what is decoded,
whatever the bytes are. -/
theorem decodeByLead_eq (source : ByteArray) (offset : Nat) :
    decodeByLead source offset = (decodeAt source offset).map fun c => (c, c.utf8Size) := by
  cases hd : decodeAt source offset with
  | ok c =>
    have hle := ByteArray.le_size_of_utf8DecodeChar?_eq_some (decodeAt_eq_ok_iff.1 hd)
    obtain ⟨lead, hlead, hwidth⟩ := Option.map_eq_some_iff.1 (lead_of_decodeAt hd)
    have hpos := c.utf8Size_pos
    simp only [decodeByLead, hlead, hwidth]
    rw [if_neg (by omega), extract_of_decodeAt hd, Reader.fromUTF8_utf8Encode]
    simp [Except.map]
  | error e =>
    have he : e = if offset < source.size then .invalidUtf8 offset else .endOfInput :=
      Reader.error_of_read (r := ⟨source, offset, 0⟩) (by simp only [Reader.read, hd])
    rw [he]
    by_cases hlt : offset < source.size
    · rw [if_pos hlt, decodeByLead, getElem?_pos source offset hlt]
      dsimp only
      split
      · rfl
      · next hwidth =>
        split
        · next text htext =>
          split
          · next c rest hlist =>
            have := decodeAt_of_fromUTF8 (by omega) htext hlist
            rw [hd] at this
            contradiction
          · rfl
        · rfl
    · rw [if_neg hlt, decodeByLead, getElem?_neg source offset hlt]
      rfl

/-! ### The bytes of a text -/

/-- A byte below 128 is a character of its own. -/
theorem toNat_of_mem_utf8EncodeChar {c : Char} {b : UInt8} (h : b ∈ String.utf8EncodeChar c)
    (hb : b < 0x80) : c.toNat = b.toNat := by
  have hlt : b.toNat < 0x80 := UInt8.lt_iff_toNat_lt.1 hb
  have hbyte (n : Nat) (hn : 0x80 ≤ n) (hn' : n < 0x100) : b ≠ UInt8.ofNat n := by
    rintro rfl
    rw [UInt8.toNat_ofNat'] at hlt
    omega
  simp only [String.utf8EncodeChar] at h
  by_cases hone : c.val.toNat ≤ 0x7F
  · rw [if_pos hone] at h
    rw [List.mem_singleton.1 h, UInt8.toNat_ofNat']
    show c.val.toNat = _
    omega
  · -- all bytes of a longer character are at least 128
    exfalso
    rw [if_neg hone] at h
    split at h
    · simp only [List.mem_cons, List.not_mem_nil, or_false] at h
      rcases h with h | h <;> exact hbyte _ (by omega) (by omega) h
    · split at h
      · simp only [List.mem_cons, List.not_mem_nil, or_false] at h
        rcases h with h | h | h <;> exact hbyte _ (by omega) (by omega) h
      · simp only [List.mem_cons, List.not_mem_nil, or_false] at h
        rcases h with h | h | h | h <;> exact hbyte _ (by omega) (by omega) h

/-- The byte of a quote stands in a text only where a quote does. -/
theorem quote_mem_of_getElem? {text : List Char} {i : Nat}
    (h : text.utf8Encode[i]? = some 0x22) : '"' ∈ text := by
  rw [List.utf8Encode, getElem?_toByteArray] at h
  obtain ⟨c, hc, hbyte⟩ := List.mem_flatMap.1 (List.mem_of_getElem? h)
  have hquote : c = '"' := Char.toNat_inj.1 (toNat_of_mem_utf8EncodeChar hbyte (by decide))
  exact hquote ▸ hc

end PathFilter
