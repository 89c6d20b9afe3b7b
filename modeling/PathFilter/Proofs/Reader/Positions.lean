import PathFilter.Proofs.Reader.Decoding

/-! A reader is a position in a text.

Between two commands a reader is somewhere among the characters of the longest valid
prefix of its source, and either the latest read can be taken back or nothing can. A
`Position` says no more than that. The answers of a reader are those of the position
(`session_eq_position`): the invariant is `At`, by which the width that a reader keeps
leads back to where an `unread` has to go. -/
namespace PathFilter.Reader

/-- The commands by which a reader moves, or might. -/
inductive Move where
  | read
  | peek
  | unread
  | skipBlanks

def Move.command : Move → Command
  | .read => .read
  | .peek => .peek
  | .unread => .unread
  | .skipBlanks => .skipBlanks

/-- Where a reader is among the characters of a text. -/
structure Position where
  /-- How many characters are behind it. -/
  index : Nat
  /-- The latest command has read a character. -/
  undoable : Bool

namespace Position

/-- What is found at a position: the character there, or why there is none. -/
def found (text : List Char) (cause : ReadError) (p : Position) : Except ReadError (Char × Nat) :=
  match text[p.index]? with
  | some c => .ok (c, c.utf8Size)
  | none => .error cause

/-- The index before the latest read. -/
def back (p : Position) : Nat := if p.undoable then p.index - 1 else p.index

/-- What a move answers at a position, and the position after it. -/
def obey (text : List Char) (cause : ReadError) (p : Position) : Move → Answer × Position
  | .read => (.char (p.found text cause),
      if p.index < text.length then ⟨p.index + 1, true⟩ else ⟨p.index, false⟩)
  | .peek => (.char (p.found text cause), ⟨p.index, false⟩)
  | .unread => (.none, ⟨p.back, false⟩)
  | .skipBlanks => (.none, ⟨p.index + (text.drop p.index).findIdx (!Text.isBlank ·), false⟩)

/-- The answers to moves, each with the width of what is behind the position after it. -/
def session (text : List Char) (cause : ReadError) (p : Position) : List Move → List (Answer × Nat)
  | [] => []
  | m :: rest =>
    let (answer, after) := p.obey text cause m
    (answer, textSize (text.take after.index)) :: after.session text cause rest

end Position

/-- The reader is at a position in the longest valid prefix of the source. -/
structure At (source : ByteArray) (p : Position) (r : Reader) : Prop where
  source_eq : r.source = source
  index_le : p.index ≤ (validText source).length
  offset_eq : r.offset = textSize ((validText source).take p.index)
  /-- The width that is kept leads back to before the latest read. -/
  back_eq : textSize ((validText source).take p.back) + r.lastWidth = r.offset

theorem lastWidth_skipWhile (p : Char → Bool) (r : Reader) : (r.skipWhile p).lastWidth = 0 := by
  fun_induction skipWhile p r with
  | case1 r c h hp ih => exact ih
  | case2 r c h hp => rw [peek_snd]
  | case3 r e h => rw [peek_snd]

namespace At
variable {source : ByteArray} {p : Position} {r : Reader}

theorem start (source : ByteArray) : At source ⟨0, false⟩ (ofBytes source) :=
  ⟨rfl, Nat.zero_le _, rfl, rfl⟩

/-- The rest of the text lies ahead, and behind it what ends every reading of the source. -/
theorem cursor_eq (h : At source p r) :
    r.cursor = ⟨r.offset, (validText source).drop p.index, ending source⟩ := by
  obtain ⟨bytes, offset, w⟩ := r
  obtain rfl : bytes = source := h.source_eq
  have hoffset : offset = textSize ((validText bytes).take p.index) := h.offset_eq
  have hwhole := decodes_validText bytes
  rw [← List.take_append_drop p.index (validText bytes)] at hwhole
  have hbehind := hwhole.left.cursor_eq 0 w
  rw [Nat.zero_add, ← hoffset] at hbehind
  have hahead := ahead_ofBytes bytes
  have hcause := cause_ofBytes bytes
  rw [ofBytes, hbehind] at hahead hcause
  have hdrop := hahead.trans (List.take_append_drop p.index (validText bytes)).symm
  rw [← List.append_cancel_left hdrop, ← hcause]
  rfl

theorem ahead_of_lt (h : At source p r) (hlt : p.index < (validText source).length) :
    r.cursor.ahead = (validText source)[p.index] :: (validText source).drop (p.index + 1) := by
  rw [h.cursor_eq]
  exact List.drop_eq_getElem_cons hlt

theorem ahead_of_le (h : At source p r) (hle : (validText source).length ≤ p.index) :
    r.cursor.ahead = [] := by
  rw [h.cursor_eq]
  exact List.drop_eq_nil_of_le hle

/-- What is read is what is found at the position. -/
theorem read_fst (h : At source p r) :
    withWidth r.read.1 = p.found (validText source) (ending source) := by
  unfold Position.found
  by_cases hlt : p.index < (validText source).length
  · have hahead := h.ahead_of_lt hlt
    rw [read_of_ahead_cons hahead, List.getElem?_eq_getElem hlt]
    rfl
  · have hahead := h.ahead_of_le (Nat.le_of_not_lt hlt)
    rw [read_of_ahead_nil hahead, List.getElem?_eq_none (Nat.le_of_not_lt hlt), h.cursor_eq]
    rfl

/-- Nothing can be taken back. -/
theorem forget (h : At source p r) : At source ⟨p.index, false⟩ {r with lastWidth := 0} :=
  ⟨h.source_eq, h.index_le, h.offset_eq, h.offset_eq.symm⟩

theorem read (h : At source p r) :
    At source (p.obey (validText source) (ending source) .read).2 r.read.2 := by
  simp only [Position.obey]
  by_cases hlt : p.index < (validText source).length
  · rw [if_pos hlt, read_of_ok (read_of_ahead_cons (h.ahead_of_lt hlt))]
    have hsize : textSize ((validText source).take (p.index + 1)) =
        r.offset + (validText source)[p.index].utf8Size := by
      rw [List.take_succ_eq_append_getElem hlt, textSize_append, ← h.offset_eq]
      simp
    have hback : Position.back ⟨p.index + 1, true⟩ = p.index := by simp [Position.back]
    refine ⟨h.source_eq, hlt, hsize.symm, ?_⟩
    rw [hback, ← h.offset_eq]
  · rw [if_neg hlt, read_of_error (read_of_ahead_nil (h.ahead_of_le (Nat.le_of_not_lt hlt)))]
    exact h.forget

theorem peek (h : At source p r) :
    At source (p.obey (validText source) (ending source) .peek).2 r.peek.2 := by
  rw [peek_snd]
  exact h.forget

theorem unread (h : At source p r) :
    At source (p.obey (validText source) (ending source) .unread).2 r.unread := by
  have hback : r.offset - r.lastWidth = textSize ((validText source).take p.back) := by
    rw [← h.back_eq, Nat.add_sub_cancel]
  have hle : p.back ≤ (validText source).length := by
    have := h.index_le
    unfold Position.back
    split <;> omega
  exact ⟨h.source_eq, hle, hback, hback.symm⟩

theorem skipBlanks (h : At source p r) :
    At source (p.obey (validText source) (ending source) .skipBlanks).2 r.skipBlanks := by
  have hoffset : r.skipBlanks.offset =
      r.offset + textSize (((validText source).drop p.index).takeWhile Text.isBlank) := by
    have := congrArg Cursor.offset (cursor_skipBlanks r)
    rwa [h.cursor_eq] at this
  have hindex : p.index + ((validText source).drop p.index).findIdx (!Text.isBlank ·) ≤
      (validText source).length := by
    have hlength : ((validText source).drop p.index).findIdx (!Text.isBlank ·) ≤
        ((validText source).drop p.index).length := List.findIdx_le_length
    have := h.index_le
    rw [List.length_drop] at hlength
    omega
  have hbehind : r.skipBlanks.offset = textSize ((validText source).take
      (p.index + ((validText source).drop p.index).findIdx (!Text.isBlank ·))) := by
    rw [hoffset, h.offset_eq, List.take_add, textSize_append,
      List.takeWhile_eq_take_findIdx_not]
  refine ⟨(source_skipWhile _ r).trans h.source_eq, hindex, hbehind, ?_⟩
  rw [Reader.skipBlanks, lastWidth_skipWhile]
  exact hbehind.symm

/-- A move answers what it answers at the position, and leads to the position after it. -/
theorem obey (h : At source p r) (m : Move) :
    (r.obey m.command).1 = (p.obey (validText source) (ending source) m).1 ∧
      At source (p.obey (validText source) (ending source) m).2 (r.obey m.command).2 := by
  cases m with
  | read => exact ⟨congrArg Answer.char h.read_fst, h.read⟩
  | peek => exact ⟨congrArg Answer.char h.read_fst, h.peek⟩
  | unread => exact ⟨rfl, h.unread⟩
  | skipBlanks => exact ⟨rfl, h.skipBlanks⟩

/-- So do any moves, one after another. -/
theorem session (h : At source p r) (moves : List Move) :
    r.session (moves.map Move.command) = p.session (validText source) (ending source) moves := by
  induction moves generalizing p r with
  | nil => rfl
  | cons m moves ih =>
    obtain ⟨hanswer, hafter⟩ := h.obey m
    simp only [List.map_cons, Reader.session, Position.session]
    rw [hanswer, hafter.offset_eq, ih hafter]

end At

/-- A position is within the text. -/
theorem At.offset_le {source : ByteArray} {p : Position} {r : Reader} (h : At source p r) :
    r.offset ≤ validLength source source.size := by
  have hsplit := congrArg textSize (List.take_append_drop p.index (validText source))
  rw [textSize_append, textSize_validText] at hsplit
  have := h.offset_eq
  omega

/-- The reader after moves. -/
def moved (r : Reader) (moves : List Move) : Reader :=
  moves.foldl (fun r m => (r.obey m.command).2) r

theorem At.moved {source : ByteArray} {p : Position} {r : Reader} (h : At source p r)
    (moves : List Move) : ∃ q, At source q (r.moved moves) := by
  induction moves generalizing p r with
  | nil => exact ⟨p, h⟩
  | cons m moves ih => exact ih (h.obey m).2

/-- **A reader is a position in a text**, and whatever moves are made it answers as the
position does. The width that it keeps is never more than the offset, so that an `unread`
comes to before the latest read, and the offset never leaves the longest valid prefix. -/
theorem session_eq_position (source : ByteArray) (moves : List Move) :
    (ofBytes source).session (moves.map Move.command) =
      Position.session (validText source) (ending source) ⟨0, false⟩ moves ∧
    ((ofBytes source).moved moves).lastWidth ≤ ((ofBytes source).moved moves).offset ∧
    ((ofBytes source).moved moves).offset ≤ validLength source source.size := by
  obtain ⟨q, hq⟩ := (At.start source).moved moves
  have hback := hq.back_eq
  exact ⟨(At.start source).session moves, by omega, hq.offset_le⟩

/-- A failed read takes the latest one out of reach. -/
example : Position.session (validText ⟨#[0x61, 0xC3, 0xA9, 0xFF]⟩)
    (ending ⟨#[0x61, 0xC3, 0xA9, 0xFF]⟩) ⟨0, false⟩ [.read, .read, .read, .unread] =
    [(.char (.ok ('a', 1)), 1), (.char (.ok ('é', 2)), 3),
      (.char (.error (.invalidUtf8 3)), 3), (.none, 3)] := by decide +kernel

end PathFilter.Reader
