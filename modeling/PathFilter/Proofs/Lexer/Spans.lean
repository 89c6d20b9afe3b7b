import Mathlib.Data.List.Chain
import PathFilter.Proofs.Lexer.Lexeme
import PathFilter.Proofs.Lexer.TokenByToken
import PathFilter.Proofs.Stream.Drivers

/-! Where the items stand in the source.

The span of an item covers what its token shows: a character, a name without its
quotes, all digits of a number (`Item.Sound`). Between the spans lies white space
and nothing else, but for the two quotes around a name that was written with them
(`Laid`). What is found at a place is told by cursors further on (`Place.lies`), and
a cursor of the source knows the text before it, so the offsets of two cursors cut
out the text between them (`slice_of_past`). -/
namespace PathFilter
open Lexer

/-! ### Cursors further on -/

/-- From the cursor, past the text, is the other. -/
structure Cursor.Past (k : Cursor) (text : List Char) (j : Cursor) : Prop where
  ahead : k.ahead = text ++ j.ahead
  offset : j.offset = k.offset + textSize text
  cause : j.cause = k.cause

namespace Cursor
variable {k j l : Cursor} {a b : List Char}

theorem past_refl (k : Cursor) : k.Past [] k := ⟨rfl, rfl, rfl⟩

theorem Past.trans (h : k.Past a j) (h' : j.Past b l) : k.Past (a ++ b) l where
  ahead := by rw [h.ahead, h'.ahead, List.append_assoc]
  offset := by rw [h'.offset, h.offset, textSize_append, Nat.add_assoc]
  cause := h'.cause.trans h.cause

theorem Past.offset_le (h : k.Past a j) : k.offset ≤ j.offset := h.offset ▸ Nat.le_add_right _ _

theorem past_next {c : Char} {rest : List Char} (h : k.ahead = c :: rest) : k.Past [c] k.next where
  ahead := by rw [next_of_cons h, h]; rfl
  offset := by rw [next_of_cons h]; rfl
  cause := k.next_cause

theorem past_skipWhile (p : Char → Bool) (k : Cursor) :
    k.Past (k.ahead.takeWhile p) (k.skipWhile p) := ⟨k.split_skipWhile p, rfl, rfl⟩

theorem exists_past_blanks (k : Cursor) : ∃ blanks, Blanks blanks ∧ k.Past blanks k.skipBlanks :=
  ⟨_, fun _ hc => (List.all_eq_true.1 List.all_takeWhile) _ hc, k.past_skipWhile Text.isBlank⟩

end Cursor

/-! ### What is found lies ahead -/

namespace Lexer

/-- The text that shows a token. -/
inductive Shows : Token → List Char → Prop where
  | symbol {token : Token} {c : Char} (h : symbol? token = some c) : Shows token [c]
  | name {text : List Char} : Shows (.name (String.ofList text)) text
  | integer {digits : List Char} {value : Int64} (hne : digits ≠ [])
      (h : ∀ c ∈ digits, c.isDigit = true) (hvalue : (Text.decimal digits : Int) = value.toInt) :
      Shows (.integer value) digits

/-- No digit comes next. -/
def NoDigit (text : List Char) : Prop := ∀ c ∈ text.head?, c.isDigit = false

/-- Past a run of digits no digit comes next. -/
theorem noDigit_skipWhile (k : Cursor) : NoDigit (k.skipWhile Char.isDigit).ahead := by
  intro c hc
  obtain ⟨rest, hrest⟩ := List.head?_eq_some_iff.1 hc
  exact Cursor.head_skipWhile hrest

/-- What is found lies ahead of the cursor. -/
inductive Found.Lies (k : Cursor) : Found → Prop where
  | plain {item : Item} {next : Place} {after opening : Cursor} {blanks text : List Char}
      (hblanks : Blanks blanks) (gap : k.Past blanks opening) (shows : Shows item.token text)
      (covers : opening.Past text after) (span : item.span = ⟨opening.offset, after.offset⟩)
      (stop : item.kind = .integer → NoDigit after.ahead) : Lies k (.token item next after)
  | quoted {item : Item} {next : Place} {after quote opening closing : Cursor}
      {blanks text : List Char} (hblanks : Blanks blanks) (gap : k.Past blanks quote)
      (opens : quote.Past ['"'] opening) (name : item.token = .name (String.ofList text))
      (covers : opening.Past text closing) (closes : closing.Past ['"'] after)
      (span : item.span = ⟨opening.offset, closing.offset⟩) : Lies k (.token item next after)
  | atEnd {item : Item} {j : Cursor} {blanks : List Char} (hend : item.token = .endOfInput)
      (hblanks : Blanks blanks) (gap : k.Past blanks j) (none : j.ahead = [])
      (cause : j.cause = .endOfInput) (span : item.span = .empty j.offset) : Lies k (.last item)
  | fault {text : List Char} {j : Cursor} {cause : LexError} (gap : k.Past text j) :
      Lies k (.last (faultAt j.offset cause))

namespace Found
variable {next : Place} {k j l : Cursor} {state : State} {wanted : String} {blanks text : List Char}

theorem lies_single {token : Token} {c : Char} {rest : List Char} (hblanks : Blanks blanks)
    (gap : k.Past blanks j) (h : j.ahead = c :: rest) (hsymbol : symbol? token = some c) :
    Lies k (single token next j) :=
  .plain hblanks gap (.symbol hsymbol) (Cursor.past_next h) rfl fun hkind => by
    cases token <;> contradiction

theorem lies_unwanted {c : Char} (gap : k.Past text j) : Lies k (unwanted state wanted c j) :=
  .fault gap

theorem lies_exhausted {atEnd : Item} (gap : k.Past text l)
    (h : l.cause = .endOfInput → Lies k (.last atEnd)) : Lies k (exhausted state l atEnd) := by
  unfold exhausted
  split
  · next hcause => exact h hcause
  · exact .fault gap

theorem lies_ended (hblanks : Blanks blanks) (gap : k.Past blanks j) (h : j.ahead = []) :
    Lies k (ended state j) :=
  lies_exhausted gap fun hcause => .atEnd rfl hblanks gap h hcause rfl

theorem lies_refused (gap : k.Past text j) : Lies k (refused state wanted j) := by
  unfold refused
  split
  · next h => exact lies_unwanted (gap.trans (Cursor.past_next h))
  · exact lies_exhausted gap fun _ => .fault gap

theorem lies_quoted {rest : List Char} (hblanks : Blanks blanks) (gap : k.Past blanks j)
    (h : j.ahead = '"' :: rest) : Lies k (quoted state next j) := by
  have hopen := Cursor.past_next h
  have hover := j.next.past_skipWhile (· ≠ '"')
  simp only [quoted]
  split
  · next c tail hclosing =>
    have hc : c = '"' := by simpa using Cursor.head_skipWhile hclosing
    have hclose := Cursor.past_next hclosing
    rw [hc] at hclose
    exact .quoted hblanks gap hopen rfl hover hclose rfl
  · have hpast := gap.trans (hopen.trans hover)
    exact lies_exhausted hpast fun _ => .fault hpast

theorem lies_bare (hblanks : Blanks blanks) (gap : k.Past blanks j) : Lies k (bare j) :=
  .plain hblanks gap .name (j.past_skipWhile Text.isLetter) rfl nofun

theorem lies_number (hblanks : Blanks blanks) (gap : k.Past blanks j) :
    Lies k (number next j) := by
  have hover := j.past_skipWhile Char.isDigit
  simp only [number, numeral]
  split
  · next hhead =>
    split
    · exact .fault (gap.trans hover)
    · split
      · next value hvalue =>
        obtain ⟨hne, hdigits, hdecimal⟩ := digits_of_read hhead hvalue
        exact .plain hblanks gap (.integer hne hdigits hdecimal) hover rfl fun _ =>
          noDigit_skipWhile j
      · exact .fault (gap.trans hover)
  · exact lies_refused gap

theorem lies_closing (hblanks : Blanks blanks) (gap : k.Past blanks j) : Lies k (closing j) := by
  unfold closing
  split
  · next hhead =>
    obtain ⟨rest, h⟩ := List.head?_eq_some_iff.1 hhead
    exact lies_single hblanks gap h rfl
  · exact lies_refused gap

theorem lies_starting (hblanks : Blanks blanks) (gap : k.Past blanks j) :
    Lies k (starting j.ahead j) := by
  generalize ha : j.ahead = ahead
  fun_cases starting ahead with
  | case1 => exact lies_single hblanks gap ha rfl
  | case2 => exact lies_unwanted gap
  | case3 => exact lies_ended hblanks gap ha

theorem lies_selecting (hblanks : Blanks blanks) (gap : k.Past blanks j) :
    Lies k (selecting j.ahead j) := by
  generalize ha : j.ahead = ahead
  fun_cases selecting ahead with
  | case1 | case3 => exact lies_single hblanks gap ha rfl
  | case2 => exact lies_quoted hblanks gap ha
  | case4 => exact lies_bare hblanks gap
  | case5 => exact lies_unwanted gap
  | case6 => exact lies_ended hblanks gap ha

theorem lies_bracketed (hblanks : Blanks blanks) (gap : k.Past blanks j) :
    Lies k (bracketed j.ahead j) := by
  generalize ha : j.ahead = ahead
  fun_cases bracketed ahead with
  | case1 => exact lies_single hblanks gap ha rfl
  | case2 => exact lies_quoted hblanks gap ha
  | case3 | case4 => exact lies_number hblanks gap

theorem lies_connective (hblanks : Blanks blanks) (gap : k.Past blanks j) :
    Lies k (connective j) := by
  unfold connective
  generalize ha : j.ahead = ahead
  fun_cases connecting ahead with
  | case1 | case2 | case3 => exact lies_single hblanks gap ha rfl
  | case4 => exact lies_unwanted gap
  | case5 => exact lies_ended hblanks gap ha

end Found

/-- **What is found at a place lies ahead of it.** -/
theorem Place.lies (place : Place) (k : Cursor) : Found.Lies k (place.find k) := by
  obtain ⟨blanks, hblanks, gap⟩ := k.exists_past_blanks
  cases place with
  | start => exact Found.lies_starting hblanks gap
  | filter =>
    rw [find]
    split
    · next hhead =>
      obtain ⟨rest, ha⟩ := List.head?_eq_some_iff.1 hhead
      exact Found.lies_single hblanks gap ha rfl
    · exact Found.lies_refused gap
  | period => exact Found.lies_selecting hblanks gap
  | bracket => exact Found.lies_bracketed hblanks gap
  | integer =>
    rw [find]
    split
    · next hhead =>
      obtain ⟨rest, ha⟩ := List.head?_eq_some_iff.1 hhead
      exact Found.lies_single hblanks gap ha rfl
    · exact Found.lies_closing hblanks gap
  | bound => exact Found.lies_number hblanks gap
  | close => exact Found.lies_closing hblanks gap
  | selected within =>
    rw [find]
    split
    · next ha => exact Found.lies_single (by simp [Blanks]) k.past_refl ha rfl
    · split
      · exact Found.lies_connective hblanks gap
      · exact .fault k.past_refl
    · exact Found.lies_connective hblanks gap
  | marked => exact Found.lies_connective hblanks gap

end Lexer

/-! ### What the spans say of the source -/

namespace Reader
variable {r : Reader} {j l : Cursor} {before text : List Char}

/-- A reader can be where a cursor further on is. -/
theorem exists_cursor_eq (h : r.cursor.Past before j) :
    ∃ after : Reader, after.source = r.source ∧ after.cursor = j := by
  induction before generalizing r with
  | nil =>
    refine ⟨r, rfl, ?_⟩
    obtain ⟨hahead, hoffset, hcause⟩ := h
    cases j
    simp_all [cursor]
  | cons c before ih =>
    have hnext := cursor_read r
    rw [Cursor.next_of_cons h.ahead] at hnext
    obtain ⟨after, hsource, hcursor⟩ := @ih r.read.2 ⟨by rw [hnext]; rfl,
      by rw [hnext, h.offset, textSize_cons, Nat.add_assoc], by rw [hnext]; exact h.cause⟩
    exact ⟨after, hsource.trans (source_read r), hcursor⟩

theorem slice_congr {other : Reader} (h : other.source = r.source) : other.slice = r.slice := by
  funext start stop
  rw [slice, slice, h]

end Reader

section source
variable {source : ByteArray} {j l : Cursor} {before text : List Char}

theorem offset_le_size (h : (Reader.ofBytes source).cursor.Past before j) :
    j.offset ≤ source.size := by
  have hle := (Reader.extract_of_ahead h.ahead (Nat.zero_le _)).1
  rw [h.offset]
  exact hle

/-- Two cursors of the source cut out the text between them. -/
theorem slice_of_past (h : (Reader.ofBytes source).cursor.Past before j) (hover : j.Past text l) :
    (Reader.ofBytes source).slice j.offset l.offset = .ok (String.ofList text) := by
  have hle := offset_le_size h
  obtain ⟨r, hsource, rfl⟩ := Reader.exists_cursor_eq h
  obtain ⟨after, hafter, rfl⟩ := Reader.exists_cursor_eq hover
  have hslice := Reader.slice_of_ahead hover.ahead (hsource ▸ hle) hafter hover.offset
  rw [Reader.slice_congr (hafter.trans hsource)] at hslice
  exact hslice

/-- A cursor that has come to the end is at the last byte of the source. -/
theorem offset_eq_size (h : (Reader.ofBytes source).cursor.Past before j) (hnone : j.ahead = [])
    (hcause : j.cause = .endOfInput) : j.offset = source.size := by
  have hcursor := Reader.cursor_cause (Reader.ofBytes source)
  rw [← h.cause, hcause] at hcursor
  have hahead : (Reader.ofBytes source).cursor.ahead = before := by
    rw [h.ahead, hnone, List.append_nil]
  have hle := offset_le_size h
  rw [hahead] at hcursor
  split at hcursor
  · contradiction
  · next hlt =>
    rw [h.offset] at hle ⊢
    exact Nat.le_antisymm hle (Nat.not_lt.1 hlt)

end source

/-- A character of the source begins or ends at the offset. -/
def Boundary (source : ByteArray) (offset : Nat) : Prop :=
  ∃ before after, (Reader.ofBytes source).cursor.ahead = before ++ after ∧
    offset = textSize before

/-- The span is a run of digits of the source, with no digit before or after it. -/
def DigitRun (source : ByteArray) (span : Span) (digits : List Char) : Prop :=
  ∃ before after, (Reader.ofBytes source).cursor.ahead = before ++ (digits ++ after) ∧
    span = ⟨textSize before, textSize before + textSize digits⟩ ∧ digits ≠ [] ∧
    (∀ c ∈ digits, c.isDigit = true) ∧ (∀ c ∈ before.getLast?, c.isDigit = false) ∧
    NoDigit after

/-- The span covers what the token shows: a fault nothing, the end of input nothing at the
end of the source, a name its text, a number all its digits, and any other token the one
byte of its character. -/
def Item.Marks (source : ByteArray) (item : Item) : Prop :=
  match item.token with
  | .illegal _ => item.span.start = item.span.stop
  | .endOfInput => item.span = .empty source.size
  | .name text => (Reader.ofBytes source).slice item.span.start item.span.stop = .ok text
  | .integer value => ∃ digits, DigitRun source item.span digits ∧
    (Reader.ofBytes source).slice item.span.start item.span.stop = .ok (String.ofList digits) ∧
    (Text.decimal digits : Int) = value.toInt
  | token => item.span.stop = item.span.start + 1 ∧ ∃ c, symbol? token = some c ∧
    (Reader.ofBytes source).slice item.span.start item.span.stop = .ok (String.ofList [c])

/-- The span lies in the source, between characters, and covers what the token shows. -/
structure Item.Sound (source : ByteArray) (item : Item) : Prop where
  start_le : item.span.start ≤ item.span.stop
  stop_le : item.span.stop ≤ source.size
  start_boundary : Boundary source item.span.start
  stop_boundary : Boundary source item.span.stop
  marks : item.Marks source

/-- Nothing but white space lies between the offsets. -/
def BlankBetween (source : ByteArray) (start stop : Nat) : Prop :=
  ∃ blanks, Blanks blanks ∧ (Reader.ofBytes source).slice start stop = .ok (String.ofList blanks)

/-- From the offset on, nothing but white space lies in front of the spans and between
them, except for a quote directly before and one directly after a name that was written
with quotes. What lies in front of a fault is not told. -/
inductive Laid (source : ByteArray) : Nat → List Item → Prop where
  | nil {offset : Nat} : Laid source offset []
  | plain {offset : Nat} {item : Item} {items : List Item} (hkind : item.kind ≠ .illegal)
      (gap : BlankBetween source offset item.span.start) (rest : Laid source item.span.stop items) :
      Laid source offset (item :: items)
  | quoted {offset quote : Nat} {item : Item} {items : List Item} (hkind : item.kind = .name)
      (gap : BlankBetween source offset quote)
      (opens : (Reader.ofBytes source).slice quote item.span.start = .ok "\"")
      (closes : (Reader.ofBytes source).slice item.span.stop (item.span.stop + 1) = .ok "\"")
      (rest : Laid source (item.span.stop + 1) items) : Laid source offset (item :: items)
  | fault {offset : Nat} {item : Item} (hkind : item.kind = .illegal) : Laid source offset [item]

section source
variable {source : ByteArray} {k j after : Cursor} {before : List Char} {place next : Place}
  {item : Item} {items : List Item}

theorem boundary_of_past (h : (Reader.ofBytes source).cursor.Past before j) :
    Boundary source j.offset :=
  ⟨before, j.ahead, h.ahead, h.offset.trans (Nat.zero_add _)⟩

theorem blankBetween_of_past {blanks : List Char} (hblanks : Blanks blanks)
    (h : (Reader.ofBytes source).cursor.Past before k) (gap : k.Past blanks j) :
    BlankBetween source k.offset j.offset := ⟨blanks, hblanks, slice_of_past h gap⟩

/-- No digit comes before a number that begins here. -/
def Lexer.Place.Fresh (place : Place) (before : List Char) : Prop :=
  place = .bracket ∨ place = .bound → ∀ c ∈ before.getLast?, c.isDigit = false

theorem getLast?_blanks {blanks : List Char} (hblanks : Blanks blanks)
    (h : ∀ c ∈ before.getLast?, c.isDigit = false) :
    ∀ c ∈ (before ++ blanks).getLast?, c.isDigit = false := by
  intro c hc
  rw [List.getLast?_append] at hc
  cases hlast : blanks.getLast? with
  | none =>
    rw [hlast] at hc
    exact h c hc
  | some d =>
    rw [hlast] at hc
    obtain rfl : d = c := Option.some.inj hc
    exact Text.isDigit_of_isBlank (hblanks d (List.mem_of_getLast? hlast))

theorem Lexer.Shows.of_symbol {token : Token} {text : List Char} {c : Char} (h : Shows token text)
    (hc : symbol? token = some c) : text = [c] := by
  cases h with
  | symbol h => rw [Option.some.inj (hc.symm.trans h)]
  | name => contradiction
  | integer => contradiction

theorem Lexer.Shows.kind_ne {token : Token} {text : List Char} (h : Shows token text) :
    token.kind ≠ .illegal := by
  cases h with
  | symbol h => cases token <;> first | contradiction | nofun
  | name => nofun
  | integer => nofun

/-- A run of digits between two cursors, where no digit comes before it or after it. -/
theorem digitRun_of_past {digits : List Char} (hj : (Reader.ofBytes source).cursor.Past before j)
    (covers : j.Past digits after) (hne : digits ≠ []) (h : ∀ c ∈ digits, c.isDigit = true)
    (hfresh : ∀ c ∈ before.getLast?, c.isDigit = false) (hstop : NoDigit after.ahead) :
    DigitRun source ⟨j.offset, after.offset⟩ digits := by
  have hoffset : j.offset = textSize before := hj.offset.trans (Nat.zero_add _)
  refine ⟨before, after.ahead, ?_, ?_, hne, h, hfresh, hstop⟩
  · rw [hj.ahead, covers.ahead]
  · rw [covers.offset, hoffset]

/-- A token of the place covers what it shows. -/
theorem Lexer.Shows.marks {text : List Char} (h : Shows item.token text)
    (hleads : place.Leads item.token next) (hj : (Reader.ofBytes source).cursor.Past before j)
    (covers : j.Past text after) (hspan : item.span = ⟨j.offset, after.offset⟩)
    (hfresh : place.Fresh before) (hstop : item.kind = .integer → NoDigit after.ahead) :
    item.Marks source := by
  obtain ⟨token, span⟩ := item
  subst hspan
  have hslice := slice_of_past hj covers
  cases h with
  | @symbol _ c h =>
    have hsize : c.utf8Size = 1 := by cases token <;> cases h <;> rfl
    have hone : after.offset = j.offset + 1 := by rw [covers.offset, textSize_cons, hsize]; rfl
    cases token <;> first | contradiction | exact ⟨hone, c, h, hslice⟩
  | name => exact hslice
  | integer hne h hvalue =>
    have hplace : place = .bracket ∨ place = .bound := by
      cases hleads with
      | element => exact .inl rfl
      | bound => exact .inr rfl
    exact ⟨text, digitRun_of_past hj covers hne h (hfresh hplace) (hstop rfl), hslice, hvalue⟩

/-- No digit comes before the place that a token leads to. -/
theorem Lexer.Shows.fresh {text : List Char} (h : Shows item.token text)
    (hleads : place.Leads item.token next) : next.Fresh (before ++ text) := by
  intro hnext c hc
  have hsymbol : symbol? item.token = some '[' ∨ symbol? item.token = some ':' := by
    generalize item.token = token at hleads ⊢
    cases hleads with
    | opening => exact .inl rfl
    | colon => exact .inr rfl
    | _ => rcases hnext with hnext | hnext <;> contradiction
  rcases hsymbol with hsymbol | hsymbol
  all_goals
    rw [h.of_symbol hsymbol, List.getLast?_concat] at hc
    obtain rfl := Option.some.inj hc
    rfl

namespace Lexer.Found.Lies

/-- A token that is found is no fault. -/
theorem kind_ne (h : Lies k (.token item next after)) : item.kind ≠ .illegal := by
  cases h with
  | plain _ _ shows => exact shows.kind_ne
  | quoted _ _ _ name =>
    rw [Item.kind, name]
    nofun

/-- What comes behind a token that is found. -/
theorem past (h : Lies k (.token item next after)) (hleads : place.Leads item.token next)
    (hk : (Reader.ofBytes source).cursor.Past before k) :
    ∃ passed, (Reader.ofBytes source).cursor.Past passed after ∧ next.Fresh passed := by
  cases h with
  | plain _ gap shows covers =>
    refine ⟨_, (hk.trans gap).trans covers, shows.fresh hleads⟩
  | quoted _ gap opens name covers closes =>
    refine ⟨_, hk.trans (gap.trans (opens.trans (covers.trans closes))), fun hnext => ?_⟩
    rw [name] at hleads
    cases hleads <;> rcases hnext with hnext | hnext <;> contradiction

/-- The span of a token lies between the place before it and the place behind it. -/
theorem between (h : Lies k (.token item next after)) :
    k.offset ≤ item.span.start ∧ item.span.stop ≤ after.offset := by
  cases h with
  | plain _ gap _ covers span =>
    rw [span]
    exact ⟨gap.offset_le, Nat.le_refl _⟩
  | quoted _ gap opens _ covers closes span =>
    rw [span]
    exact ⟨Nat.le_trans gap.offset_le opens.offset_le, closes.offset_le⟩

theorem sound (h : Lies k (.token item next after)) (hleads : place.Leads item.token next)
    (hk : (Reader.ofBytes source).cursor.Past before k) (hfresh : place.Fresh before) :
    item.Sound source := by
  cases h with
  | plain hblanks gap shows covers span stop =>
    have hopening := hk.trans gap
    have hafter := hopening.trans covers
    refine ⟨?_, ?_, ?_, ?_, ?_⟩
    · exact span ▸ covers.offset_le
    · exact span ▸ offset_le_size hafter
    · exact span ▸ boundary_of_past hopening
    · exact span ▸ boundary_of_past hafter
    · exact shows.marks hleads hopening covers span
        (fun hplace => getLast?_blanks hblanks (hfresh hplace)) stop
  | quoted _ gap opens name covers closes span =>
    have hopening := hk.trans (gap.trans opens)
    have hclosing := hopening.trans covers
    refine ⟨?_, ?_, ?_, ?_, ?_⟩
    · exact span ▸ covers.offset_le
    · exact span ▸ offset_le_size hclosing
    · exact span ▸ boundary_of_past hopening
    · exact span ▸ boundary_of_past hclosing
    · obtain ⟨token, _⟩ := item
      subst name span
      exact slice_of_past hopening covers

theorem laid (h : Lies k (.token item next after))
    (hk : (Reader.ofBytes source).cursor.Past before k) (rest : Laid source after.offset items) :
    Laid source k.offset (item :: items) := by
  cases h with
  | plain hblanks gap shows covers span =>
    have hgap := blankBetween_of_past hblanks hk gap
    refine .plain shows.kind_ne ?_ ?_
    · exact span ▸ hgap
    · exact span ▸ rest
  | @quoted _ _ _ quote _ closing _ _ hblanks gap opens name covers closes span =>
    have hquote := hk.trans gap
    have hclosing := (hquote.trans opens).trans covers
    have hone : after.offset = closing.offset + 1 := closes.offset
    have hcloses := slice_of_past hclosing closes
    rw [hone] at hcloses rest
    refine .quoted ?_ (blankBetween_of_past hblanks hk gap) ?_ ?_ ?_
    · rw [Item.kind, name]
      rfl
    · exact span ▸ slice_of_past hquote opens
    · exact span ▸ hcloses
    · exact span ▸ rest

/-- The last item. -/
theorem last (h : Lies k (.last item)) (hk : (Reader.ofBytes source).cursor.Past before k) :
    item.Sound source ∧ k.offset ≤ item.span.start ∧ Laid source k.offset [item] := by
  cases h with
  | @atEnd _ j _ hend hblanks gap none cause span =>
    have hj := hk.trans gap
    obtain ⟨token, _⟩ := item
    subst hend span
    refine ⟨⟨Nat.le_refl _, offset_le_size hj, boundary_of_past hj, boundary_of_past hj, ?_⟩,
      gap.offset_le, .plain nofun (blankBetween_of_past hblanks hk gap) .nil⟩
    exact congrArg Span.empty (offset_eq_size hj none cause)
  | fault gap =>
    have hj := hk.trans gap
    exact ⟨⟨Nat.le_refl _, offset_le_size hj, boundary_of_past hj, boundary_of_past hj, rfl⟩,
      gap.offset_le, .fault rfl⟩

end Lexer.Found.Lies

/-- **From a place of the source on, every item covers what it shows, the spans are in
order, and no text is lost.** -/
theorem Lexer.Lexes.spans (h : Lexes place k items)
    (hk : (Reader.ofBytes source).cursor.Past before k) (hfresh : place.Fresh before) :
    (∀ item ∈ items, item.Sound source) ∧
      (Span.empty k.offset :: items.map Item.span).IsChain (fun a b => a.stop ≤ b.start) ∧
      Laid source k.offset items := by
  induction h generalizing before with
  | @token place k item next after items found rest ih =>
    have hlies := place.lies k
    have hleads := place.reads k
    rw [found] at hlies hleads
    obtain ⟨passed, hafter, hnext⟩ := hlies.past hleads.1 hk
    obtain ⟨hsound, hchain, hlaid⟩ := ih hafter hnext
    obtain ⟨hstart, hstop⟩ := hlies.between
    refine ⟨?_, ?_, hlies.laid hk hlaid⟩
    · intro i hi
      rcases List.mem_cons.1 hi with rfl | hi
      · exact hlies.sound hleads.1 hk hfresh
      · exact hsound i hi
    · refine .cons_cons hstart (hchain.imp_head ?_)
      exact fun hle => Nat.le_trans hstop hle
  | @last place k item found =>
    have hlies := place.lies k
    rw [found] at hlies
    obtain ⟨hsound, hstart, hlaid⟩ := hlies.last hk
    refine ⟨?_, .cons_cons hstart (.singleton _), hlaid⟩
    intro i hi
    obtain rfl := List.mem_singleton.1 hi
    exact hsound

end source

/-- **Spans are sound and no text is lost.** The span of every item of a source lies in the
source, between characters, and covers what the item shows; it starts where the span before
it stops or further on; and nothing but white space lies in front of the spans and between
them, up to a fault, except for the quotes around a name that was written with them. -/
theorem lex_spans (driver : Driver) (source : ByteArray) :
    (∀ item ∈ lex driver none source, item.Sound source) ∧
      ((lex driver none source).map Item.span).IsChain (fun a b => a.stop ≤ b.start) ∧
      Laid source 0 (lex driver none source) := by
  rw [lex_eq_itemsFrom]
  have hspans := (lexes_of_source source).spans (Cursor.past_refl _) nofun
  exact ⟨hspans.1, hspans.2.1.of_cons, hspans.2.2⟩

example : (lex .inline none ".\"é\" . [ 07]".toUTF8).map Item.span =
    [⟨0, 1⟩, ⟨2, 4⟩, ⟨6, 7⟩, ⟨8, 9⟩, ⟨10, 12⟩, ⟨12, 13⟩, ⟨13, 13⟩] := by decide +kernel

end PathFilter
