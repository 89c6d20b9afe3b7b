import PathFilter.Proofs.Reader.Decoding

/-! A slice is what reading finds.

A slice is checked as a whole, while a reader goes by the byte that begins each
character. `decodeWithin` goes that way from one offset towards another and tells how
far it comes. Nothing that is decoded from there comes further (`le_decodeWithin`), so
the slice is found exactly if it comes to the end, and where it gets stuck is where
the slice says its bytes are invalid (`slice_eq_decodeWithin`). -/
namespace PathFilter

theorem decodeByLead_eq_ok_iff {source : ByteArray} {offset width : Nat} {c : Char} :
    decodeByLead source offset = .ok (c, width) ↔
      decodeAt source offset = .ok c ∧ width = c.utf8Size := by
  rw [decodeByLead_eq]
  cases decodeAt source offset with
  | ok d =>
    simp only [Except.map, Except.ok.injEq, Prod.mk.injEq]
    constructor
    · rintro ⟨rfl, rfl⟩
      exact ⟨rfl, rfl⟩
    · rintro ⟨rfl, rfl⟩
      exact ⟨rfl, rfl⟩
  | error e => simp [Except.map]

/-- The characters that are decoded one after another from an offset, up to one that
would pass the bound or to bytes that are none, and the offset that is come to. -/
def decodeWithin (source : ByteArray) (offset bound : Nat) : List Char × Nat :=
  match _h : decodeByLead source offset with
  | .ok (c, width) =>
    if offset + width ≤ bound then
      let (text, last) := decodeWithin source (offset + width) bound
      (c :: text, last)
    else ([], offset)
  | .error _ => ([], offset)
termination_by bound - offset
decreasing_by
  have hwidth := (decodeByLead_eq_ok_iff.1 _h).2
  have := c.utf8Size_pos
  omega

section
variable (source : ByteArray) (offset bound : Nat)

/-- What `decodeWithin` tells is decoded. -/
theorem decodes_decodeWithin : Decodes source offset (decodeWithin source offset bound).1
    (decodeWithin source offset bound).2 := by
  fun_induction decodeWithin source offset bound with
  | case1 offset c width h hle text last hrest ih =>
    obtain ⟨hhead, rfl⟩ := decodeByLead_eq_ok_iff.1 h
    rw [hrest] at ih
    exact .cons hhead ih
  | case2 offset c width h hgt => exact .nil
  | case3 offset e h => exact .nil

theorem decodeWithin_le (h : offset ≤ bound) : (decodeWithin source offset bound).2 ≤ bound := by
  fun_induction decodeWithin source offset bound with
  | case1 offset c width _ hle text last hrest ih =>
    rw [hrest] at ih
    exact ih hle
  | case2 offset c width _ hgt => exact h
  | case3 offset e _ => exact h

end

/-- Nothing that is decoded comes further without passing the bound. -/
theorem le_decodeWithin {source : ByteArray} {offset bound other : Nat} {more : List Char}
    (h : Decodes source offset more other) (hle : other ≤ bound) :
    other ≤ (decodeWithin source offset bound).2 := by
  induction h with
  | @nil offset => exact (decodes_decodeWithin source offset bound).le
  | @cons offset stop c text head rest ih =>
    have hstep : offset + c.utf8Size ≤ bound := Nat.le_trans rest.le hle
    rw [decodeWithin]
    split
    · next d width h =>
      obtain ⟨hhead, rfl⟩ := decodeByLead_eq_ok_iff.1 h
      obtain rfl := Except.ok.inj (head.symm.trans hhead)
      rw [if_pos hstep]
      exact ih hle
    · next e h =>
      rw [decodeByLead_eq_ok_iff.2 ⟨head, rfl⟩] at h
      contradiction

/-- The longest valid prefix of a stretch of bytes ends where decoding gets stuck. -/
theorem add_validLength_extract {source : ByteArray} {start stop : Nat} (hle : start ≤ stop)
    (hstop : stop ≤ source.size) :
    start + validLength (source.extract start stop) (source.extract start stop).size =
      (decodeWithin source start stop).2 := by
  have hsize : (source.extract start stop).size = stop - start := by
    rw [ByteArray.size_extract, Nat.min_eq_left hstop]
  have hpart (n : Nat) (hn : n ≤ stop - start) :
      (source.extract start stop).extract 0 n = source.extract start (start + n) := by
    rw [ByteArray.extract_extract, Nat.add_zero, Nat.min_eq_left (by omega)]
  have hwithin := decodeWithin_le source start stop hle
  have hdecodes := decodes_decodeWithin source start stop
  rw [hsize]
  apply Nat.le_antisymm
  · -- the prefix is valid, so decoding comes to its end
    have hn := validLength_le (source.extract start stop) (stop - start)
    have hvalid := isValidUTF8_validLength (source.extract start stop) (stop - start)
    rw [hpart _ hn, isValidUTF8_extract_iff (by omega) (by omega)] at hvalid
    obtain ⟨text, h⟩ := hvalid
    exact le_decodeWithin h (by omega)
  · -- what decoding comes past is valid, and no valid prefix is longer
    have hstart := hdecodes.le
    have hn : (decodeWithin source start stop).2 - start ≤ stop - start := by omega
    have hvalid : ((source.extract start stop).extract 0
        ((decodeWithin source start stop).2 - start)).IsValidUTF8 := by
      rw [hpart _ hn, Nat.add_sub_cancel' hstart]
      exact (isValidUTF8_extract_iff hstart (by omega)).2 ⟨_, hdecodes⟩
    have := le_validLength hn hvalid
    omega

namespace Reader

/-- A slice within the source, by how far decoding comes. -/
theorem slice_of_le {r : Reader} {start stop : Nat} (hle : start ≤ stop)
    (hstop : stop ≤ r.source.size) :
    r.slice start stop =
      if (decodeWithin r.source start stop).2 = stop then
        .ok (String.ofList (decodeWithin r.source start stop).1)
      else .error (.invalidUtf8 (decodeWithin r.source start stop).2) := by
  have hdecodes := decodes_decodeWithin r.source start stop
  unfold slice
  rw [if_pos ⟨hle, hstop⟩]
  dsimp only
  rw [add_validLength_extract hle hstop]
  by_cases hend : (decodeWithin r.source start stop).2 = stop
  · rw [hend] at hdecodes
    rw [if_pos hend, hdecodes.extract, fromUTF8_utf8Encode]
  · have hinvalid : ¬ (r.source.extract start stop).IsValidUTF8 := by
      rw [isValidUTF8_extract_iff hle hstop]
      rintro ⟨text, h⟩
      have := le_decodeWithin h (Nat.le_refl stop)
      have := decodeWithin_le r.source start stop hle
      omega
    rw [if_neg hend, String.fromUTF8?, dif_neg hinvalid]

/-- Decoding the whole source comes as far as reading from its beginning does. -/
theorem decodeWithin_whole (source : ByteArray) :
    (decodeWithin source 0 source.size).2 = validLength source source.size := by
  have h := add_validLength_extract (Nat.zero_le source.size) (Nat.le_refl source.size)
  rw [ByteArray.extract_zero_size, Nat.zero_add] at h
  exact h.symm

/-- The slice of the whole source fails where reading from its beginning meets invalid
bytes, and only there. -/
theorem slice_whole_eq_error_iff (r : Reader) (e : ReadError) :
    r.slice 0 r.source.size = .error e ↔
      (∃ k, e = .invalidUtf8 k) ∧ (ofBytes r.source).readAll.2.1 = e := by
  have hcause : (ofBytes r.source).readAll.2.1 = ending r.source := cause_ofBytes r.source
  rw [slice_of_le (Nat.zero_le _) (Nat.le_refl _), hcause, decodeWithin_whole, ending]
  by_cases hwhole : validLength r.source r.source.size = r.source.size
  · rw [if_pos hwhole, if_pos hwhole]
    constructor
    · intro h
      contradiction
    · rintro ⟨⟨k, rfl⟩, h⟩
      contradiction
  · rw [if_neg hwhole, if_neg hwhole, Except.error.injEq]
    constructor
    · rintro rfl
      exact ⟨⟨_, rfl⟩, rfl⟩
    · exact And.right

/-- **A slice is what reading finds.** It is out of bounds exactly if its ends are not in
order or not within the source. Else it is found exactly if decoding from its beginning
comes to its end, and it is what was decoded; if decoding gets stuck before, the slice
tells where. The slice of the whole source fails exactly if reading from the beginning
meets invalid bytes, and with the same offset. -/
theorem slice_eq_decodeWithin (r : Reader) (start stop : Nat) :
    (r.slice start stop = .error (.outOfBounds start stop) ↔
      stop < start ∨ r.source.size < stop) ∧
    r.slice start stop =
      (if stop < start ∨ r.source.size < stop then .error (.outOfBounds start stop)
      else if (decodeWithin r.source start stop).2 = stop then
        .ok (String.ofList (decodeWithin r.source start stop).1)
      else .error (.invalidUtf8 (decodeWithin r.source start stop).2)) ∧
    (∀ offset w, decodeByLead r.source offset = withWidth (read ⟨r.source, offset, w⟩).1) ∧
    ∀ e, r.slice 0 r.source.size = .error e ↔
      (∃ k, e = .invalidUtf8 k) ∧ (ofBytes r.source).readAll.2.1 = e := by
  have hslice : r.slice start stop =
      if stop < start ∨ r.source.size < stop then .error (.outOfBounds start stop)
      else if (decodeWithin r.source start stop).2 = stop then
        .ok (String.ofList (decodeWithin r.source start stop).1)
      else .error (.invalidUtf8 (decodeWithin r.source start stop).2) := by
    by_cases hout : stop < start ∨ r.source.size < stop
    · rw [if_pos hout, slice, if_neg (by omega)]
    · rw [if_neg hout, slice_of_le (by omega) (by omega)]
  have hread (offset w : Nat) :
      decodeByLead r.source offset = withWidth (read ⟨r.source, offset, w⟩).1 := by
    rw [decodeByLead_eq, read_fst]
    rfl
  refine ⟨?_, hslice, hread, slice_whole_eq_error_iff r⟩
  constructor
  · intro h
    rw [hslice] at h
    split at h
    · assumption
    · split at h <;> simp at h
  · intro hout
    rw [hslice, if_pos hout]

/-- Decoding gets stuck before a surrogate, before a character that the bound cuts, and at
once in the middle of one. -/
example :
    decodeWithin ⟨#[0x61, 0xC3, 0xA9, 0xED, 0xA0, 0x80]⟩ 0 6 = (['a', 'é'], 3) ∧
    decodeWithin ⟨#[0x61, 0xC3, 0xA9]⟩ 0 2 = (['a'], 1) ∧
    decodeWithin ⟨#[0x61, 0xC3, 0xA9]⟩ 2 3 = ([], 2) := by decide +kernel

end Reader
end PathFilter
