import PathFilter.Proofs.Lexer.Spans
import PathFilter.Proofs.Reader.Decoding

/-! What a fault says of the source.

The last item of a run can report a fault, and what it says is true of the source where
it stands (`LexError.Truthful`): invalid bytes are where the longest valid prefix ends, a
character that is not wanted stands at the offset or directly before it, an unclosed name
has no second quote anywhere, and a number that is no integer is too large.

Each way to find nothing at a place is gone through once (`Place.truthful`), and the items
of a run are told by induction on what is found. -/
namespace PathFilter
open Lexer

/-- What a state wants where it looks at a character. The character is not consumed. -/
def wantedAhead : List (State × String) := [(.expression, "'.'"), (.connector, "'|' or ','")]

/-- What a state wants where it reads a character. The character is consumed. -/
def wantedRead : List (State × String) := [(.filter, "'.'"), (.index, "digit"), (.index, "']'")]

/-- The fault is true of the source if it is found at the offset. -/
inductive LexError.Truthful (source : ByteArray) (offset : Nat) : LexError → Prop where
  /-- The longest valid prefix ends here, and more bytes come. -/
  | broken {state : State} (hlt : offset < source.size)
      (hoffset : offset = validLength source source.size) :
      Truthful source offset (.read state.label (.invalidUtf8 offset))
  /-- The character begins here. -/
  | ahead {state : State} {wanted : String} {c : Char} (hwanted : (state, wanted) ∈ wantedAhead)
      (hc : decodeAt source offset = .ok c) :
      Truthful source offset (.expected state.label wanted (some c))
  /-- The character ends here. -/
  | behind {state : State} {wanted : String} {c : Char} {start : Nat}
      (hwanted : (state, wanted) ∈ wantedRead) (hc : decodeAt source start = .ok c)
      (hoffset : offset = start + c.utf8Size) :
      Truthful source offset (.expected state.label wanted (some c))
  /-- The source ends here. -/
  | missing {state : State} {wanted : String} (hwanted : (state, wanted) ∈ wantedRead)
      (hoffset : offset = source.size) :
      Truthful source offset (.expected state.label wanted none)
  /-- A quote begins the name and none comes after it. -/
  | unterminated {start : Nat} (hquote : source[start]? = some 0x22)
      (hopen : ∀ i, start < i → source[i]? ≠ some 0x22) (hvalid : source.IsValidUTF8)
      (hoffset : offset = source.size) : Truthful source offset (.unterminated start)
  /-- The digits before are as many as there are, and no 64-bit integer. -/
  | tooLarge {start : Nat} {digits : List Char} (hrun : DigitRun source ⟨start, offset⟩ digits)
      (hstop : offset = source.size ∨ ∃ c, decodeAt source offset = .ok c ∧ c.isDigit = false)
      (hlarge : Int64.maxValue.toInt < (Text.decimal digits : Int)) :
      Truthful source offset (.invalidInteger (String.ofList digits) .tooLarge)

/-- If the item reports a fault, the fault is true where the item stands. -/
def Item.Truthful (source : ByteArray) (item : Item) : Prop :=
  ∀ cause, item.token = .illegal cause →
    ∃ offset, item.span = .empty offset ∧ cause.Truthful source offset

/-- If what is found is the last item, it is true. -/
def Lexer.Found.Truthful (source : ByteArray) (found : Found) : Prop :=
  ∀ item, found = .last item → item.Truthful source

theorem Item.truthful_faultAt {source : ByteArray} {offset : Nat} {cause : LexError}
    (h : cause.Truthful source offset) : (faultAt offset cause).Truthful source := by
  rintro _ ⟨⟩
  exact ⟨offset, rfl, h⟩

section source
variable {source : ByteArray} {before : List Char} {j k : Cursor} {state : State} {wanted : String}
  {next place : Place}

/-- The next character of a cursor of the source is decoded where the cursor is. -/
theorem decodeAt_of_past {c : Char} {rest : List Char}
    (hj : (Reader.ofBytes source).cursor.Past before j) (h : j.ahead = c :: rest) :
    decodeAt source j.offset = .ok c := by
  obtain ⟨r, hsource, rfl⟩ := Reader.exists_cursor_eq hj
  have hread := Reader.read_of_ahead_cons h
  rw [Reader.read_fst, hsource] at hread
  exact hread

/-- The bytes between two cursors of the source are those of the text between them. -/
theorem extract_of_past {text : List Char} (hj : (Reader.ofBytes source).cursor.Past before j)
    (hover : j.Past text k) : source.extract j.offset k.offset = text.utf8Encode := by
  have hle := offset_le_size hj
  obtain ⟨r, hsource, rfl⟩ := Reader.exists_cursor_eq hj
  have hext := (Reader.extract_of_ahead hover.ahead (hsource ▸ hle)).2
  rw [hsource] at hext
  rw [hover.offset]
  exact hext

/-- With nothing ahead, a cursor of the source is where its longest valid prefix ends. -/
theorem offset_eq_validLength (hj : (Reader.ofBytes source).cursor.Past before j)
    (hnone : j.ahead = []) : j.offset = validLength source source.size := by
  have hahead := hj.ahead
  rw [Reader.ahead_ofBytes, hnone, List.append_nil] at hahead
  rw [hj.offset, ← hahead, textSize_validText]
  exact Nat.zero_add _

namespace Lexer

theorem truthful_brokenAt (hj : (Reader.ofBytes source).cursor.Past before j)
    (hnone : j.ahead = []) (hcause : j.cause ≠ .endOfInput) :
    (brokenAt state j).Truthful source := by
  have hoffset := offset_eq_validLength hj hnone
  have hle := validLength_le source source.size
  have hending := hj.cause.trans (Reader.cause_ofBytes source)
  unfold ending at hending
  split at hending
  · contradiction
  · rw [brokenAt, hending, ← hoffset]
    exact Item.truthful_faultAt (.broken (by omega) hoffset)

namespace Found

/-- A token tells no fault. -/
theorem truthful_token {item : Item} : (Found.token item next j).Truthful source := by
  intro _ h
  contradiction

theorem truthful_last {item : Item} (h : item.Truthful source) :
    (Found.last item).Truthful source := by
  rintro _ ⟨⟩
  exact h

theorem truthful_unwanted {c : Char} {rest : List Char}
    (hj : (Reader.ofBytes source).cursor.Past before j) (h : j.ahead = c :: rest)
    (hwanted : (state, wanted) ∈ wantedAhead) : (unwanted state wanted c j).Truthful source :=
  truthful_last (Item.truthful_faultAt (.ahead hwanted (decodeAt_of_past hj h)))

theorem truthful_exhausted {atEnd : Item} (hj : (Reader.ofBytes source).cursor.Past before j)
    (hnone : j.ahead = [])
    (hend : j.cause = .endOfInput → j.offset = source.size → atEnd.Truthful source) :
    (exhausted state j atEnd).Truthful source := by
  apply truthful_last
  split
  · next hcause => exact hend hcause (offset_eq_size hj hnone hcause)
  · next hcause => exact truthful_brokenAt hj hnone hcause

theorem truthful_ended (hj : (Reader.ofBytes source).cursor.Past before j) (hnone : j.ahead = []) :
    (ended state j).Truthful source :=
  truthful_exhausted hj hnone fun _ _ => nofun

theorem truthful_refused (hj : (Reader.ofBytes source).cursor.Past before j)
    (hwanted : (state, wanted) ∈ wantedRead) : (refused state wanted j).Truthful source := by
  unfold refused
  split
  · next c rest h =>
    have hoffset : j.next.offset = j.offset + c.utf8Size := by rw [Cursor.next_of_cons h]
    exact truthful_last
      (Item.truthful_faultAt (.behind hwanted (decodeAt_of_past hj h) hoffset))
  · next h =>
    exact truthful_exhausted hj h fun _ hsize => Item.truthful_faultAt (.missing hwanted hsize)

theorem truthful_quoted {rest : List Char} (hj : (Reader.ofBytes source).cursor.Past before j)
    (h : j.ahead = '"' :: rest) : (quoted state next j).Truthful source := by
  have hopen := Cursor.past_next h
  have hover := j.next.past_skipWhile (· ≠ '"')
  simp only [quoted]
  split
  · exact truthful_token
  · next hnone =>
    have hclosing := (hj.trans hopen).trans hover
    have hinside := extract_of_past (hj.trans hopen) hover
    have hone : j.next.offset = j.offset + 1 := hopen.offset
    refine truthful_exhausted hclosing hnone fun hcause hsize =>
      Item.truthful_faultAt (.unterminated ?_ ?_ ?_ hsize)
    · exact getElem?_of_decodeAt (i := 0) (decodeAt_of_past hj h) (by decide)
    · intro i hi hquote
      have hlt : i < source.size := by
        by_contra hle
        rw [getElem?_neg source i hle] at hquote
        contradiction
      have hat : (source.extract j.next.offset source.size)[i - j.next.offset]? =
          source[j.next.offset + (i - j.next.offset)]? :=
        getElem?_extract (by omega) (Nat.le_refl _)
      rw [← hsize, hinside, Nat.add_sub_cancel' (by omega), hquote] at hat
      have hmem := quote_mem_of_getElem? hat
      simpa using List.all_eq_true.1 List.all_takeWhile _ hmem
    · have hvalid := isValidUTF8_validLength source source.size
      rw [← offset_eq_validLength hclosing hnone, hsize, ByteArray.extract_zero_size] at hvalid
      exact hvalid

theorem truthful_number (hj : (Reader.ofBytes source).cursor.Past before j)
    (hfresh : ∀ c ∈ before.getLast?, c.isDigit = false) : (number next j).Truthful source := by
  have hover := j.past_skipWhile Char.isDigit
  have hafter := hj.trans hover
  simp only [number, numeral]
  split
  · next hhead =>
    obtain ⟨hne, hdigits⟩ := digits_of_head hhead
    split
    · next hbroken => exact truthful_last (truthful_brokenAt hafter hbroken.1 hbroken.2)
    · next hwhole =>
      split
      · exact truthful_token
      · next why hread =>
        obtain ⟨rfl, hlarge⟩ := Text.Numeral.tooLarge_of_read hne hdigits hread
        have hrun := digitRun_of_past hj hover hne hdigits hfresh (noDigit_skipWhile j)
        refine truthful_last (Item.truthful_faultAt (.tooLarge hrun ?_ hlarge))
        cases hahead : (j.skipWhile Char.isDigit).ahead with
        | nil =>
          have hcause : j.cause = .endOfInput := by
            by_contra hcause
            exact hwhole ⟨hahead, hcause⟩
          exact .inl (offset_eq_size hafter hahead hcause)
        | cons c rest =>
          exact .inr ⟨c, decodeAt_of_past hafter hahead, Cursor.head_skipWhile hahead⟩
  · exact truthful_refused hj (by decide)

theorem truthful_closing (hj : (Reader.ofBytes source).cursor.Past before j) :
    (closing j).Truthful source := by
  unfold closing
  split
  · exact truthful_token
  · exact truthful_refused hj (by decide)

theorem truthful_starting (hj : (Reader.ofBytes source).cursor.Past before j) :
    (starting j.ahead j).Truthful source := by
  generalize h : j.ahead = ahead
  fun_cases starting ahead with
  | case1 => exact truthful_token
  | case2 => exact truthful_unwanted hj h (by decide)
  | case3 => exact truthful_ended hj h

theorem truthful_selecting (hj : (Reader.ofBytes source).cursor.Past before j) :
    (selecting j.ahead j).Truthful source := by
  generalize h : j.ahead = ahead
  fun_cases selecting ahead with
  | case1 | case3 | case4 => exact truthful_token
  | case2 => exact truthful_quoted hj h
  | case5 => exact truthful_unwanted hj h (by decide)
  | case6 => exact truthful_ended hj h

theorem truthful_bracketed (hj : (Reader.ofBytes source).cursor.Past before j)
    (hfresh : ∀ c ∈ before.getLast?, c.isDigit = false) :
    (bracketed j.ahead j).Truthful source := by
  generalize h : j.ahead = ahead
  fun_cases bracketed ahead with
  | case1 => exact truthful_token
  | case2 => exact truthful_quoted hj h
  | case3 | case4 => exact truthful_number hj hfresh

theorem truthful_connective (hj : (Reader.ofBytes source).cursor.Past before j) :
    (connective j).Truthful source := by
  unfold connective
  generalize h : j.ahead = ahead
  fun_cases connecting ahead with
  | case1 | case2 | case3 => exact truthful_token
  | case4 => exact truthful_unwanted hj h (by decide)
  | case5 => exact truthful_ended hj h

end Found

/-- **What is found at a place of the source is true of it.** -/
theorem Place.truthful (hk : (Reader.ofBytes source).cursor.Past before k)
    (hfresh : place.Fresh before) : (place.find k).Truthful source := by
  obtain ⟨blanks, hblanks, gap⟩ := k.exists_past_blanks
  have hj := hk.trans gap
  cases place with
  | start => exact Found.truthful_starting hj
  | filter =>
    rw [find]
    split
    · exact Found.truthful_token
    · exact Found.truthful_refused hj (by decide)
  | period => exact Found.truthful_selecting hj
  | bracket =>
    exact Found.truthful_bracketed hj (getLast?_blanks hblanks (hfresh (.inl rfl)))
  | integer =>
    rw [find]
    split
    · exact Found.truthful_token
    · exact Found.truthful_closing hj
  | bound => exact Found.truthful_number hj (getLast?_blanks hblanks (hfresh (.inr rfl)))
  | close => exact Found.truthful_closing hj
  | selected within =>
    rw [find]
    split
    · exact Found.truthful_token
    · next h =>
      split
      · exact Found.truthful_connective hj
      · next hcause => exact Found.truthful_last (truthful_brokenAt hk h hcause)
    · exact Found.truthful_connective hj
  | marked => exact Found.truthful_connective hj

/-- From a place of the source on, every fault is true. -/
theorem Lexes.truthful {items : List Item} (h : Lexes place k items)
    (hk : (Reader.ofBytes source).cursor.Past before k) (hfresh : place.Fresh before) :
    ∀ item ∈ items, item.Truthful source := by
  induction h generalizing before with
  | @token place k item next after items found rest ih =>
    have hlies := place.lies k
    have hleads := place.reads k
    rw [found] at hlies hleads
    obtain ⟨passed, hafter, hnext⟩ := hlies.past hleads.1 hk
    intro i hi
    rcases List.mem_cons.1 hi with rfl | hi
    · intro cause hcause
      exact absurd (congrArg Token.kind hcause) hlies.kind_ne
    · exact ih hafter hnext i hi
  | @last place k item found =>
    intro i hi
    obtain rfl := List.mem_singleton.1 hi
    exact Place.truthful hk hfresh i found

end Lexer
end source

/-- **A fault tells the truth about the source.** Whatever stream a source is cut into,
with either driver, a fault in it stands at one offset, and it is one of the few that
`LexError.Truthful` lists, with all that is said there of the bytes around the offset. -/
theorem lex_truthful (driver : Driver) (stop : Option Stop) (source : ByteArray)
    {cause : LexError} {span : Span} (h : ⟨.illegal cause, span⟩ ∈ lex driver stop source) :
    ∃ offset, span = .empty offset ∧ cause.Truthful source offset := by
  cases stop with
  | none =>
    rw [lex_eq_itemsFrom] at h
    exact (lexes_of_source source).truthful (Cursor.past_refl _) nofun _ h cause rfl
  | some why =>
    rw [lex_of_stopped] at h
    contradiction

/-- A quote that is opened behind a period and not closed. -/
theorem truthful_of_open_quote :
    ⟨.illegal (.unterminated 1), .empty 4⟩ ∈ lex .inline none ".\"é".toUTF8 ∧
      ∃ offset, Span.empty 4 = .empty offset ∧
        (LexError.unterminated 1).Truthful ".\"é".toUTF8 offset := by
  have h : ⟨.illegal (.unterminated 1), .empty 4⟩ ∈ lex .inline none ".\"é".toUTF8 := by
    decide +kernel
  exact ⟨h, lex_truthful .inline none _ h⟩

end PathFilter
