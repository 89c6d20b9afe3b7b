import PathFilter.Proofs.Lexer.Accepts
import PathFilter.Proofs.Lexer.Lookahead
import PathFilter.Proofs.Reader.Joined

/-! Two sources with a connector between them.

The lexer knows of what it has read only where it stands: moved further on, it finds the
same, moved by as much (`Place.find_shift`). A connector ends what an end of the source
ends, so the items of the first source stay, and in place of its end comes the connector
(`Lexes.connect`). Behind a connector a filter has to start, and where a period comes next
that is no different from the beginning of a source. So the items of the second source
follow as they are on their own, moved (`lex_connected`). -/
namespace PathFilter
open Lexer

/-! ### Moving what is read -/

/-- The fault, with so many bytes put in front of the source. -/
def LexError.shift (d : Nat) : LexError → LexError
  | .read state cause => .read state (cause.shift d)
  | .expected state wanted found => .expected state wanted found
  | .unterminated start => .unterminated (start + d)
  | .invalidInteger literal fault => .invalidInteger literal fault

def Token.shift (d : Nat) : Token → Token
  | .illegal cause => .illegal (cause.shift d)
  | token => token

def Span.shift (d : Nat) (s : Span) : Span := ⟨s.start + d, s.stop + d⟩

/-- The item, with so many bytes put in front of the source. -/
def Item.shift (d : Nat) (i : Item) : Item := ⟨i.token.shift d, i.span.shift d⟩

namespace Cursor
variable (d : Nat) (k : Cursor)

@[simp] theorem shift_offset : (k.shift d).offset = k.offset + d := rfl

@[simp] theorem shift_ahead : (k.shift d).ahead = k.ahead := rfl

@[simp] theorem shift_cause : (k.shift d).cause = k.cause.shift d := rfl

@[simp] theorem next_shift : (k.shift d).next = k.next.shift d := by
  unfold next
  rw [shift_ahead]
  cases k.ahead with
  | nil => rfl
  | cons c rest => exact congrArg (Cursor.mk · rest _) (Nat.add_right_comm ..)

@[simp] theorem skipWhile_shift (p : Char → Bool) :
    (k.shift d).skipWhile p = (k.skipWhile p).shift d :=
  congrArg (Cursor.mk · _ _) (Nat.add_right_comm ..)

@[simp] theorem skipBlanks_shift : (k.shift d).skipBlanks = k.skipBlanks.shift d :=
  k.skipWhile_shift d Text.isBlank

end Cursor

namespace Lexer

namespace Found

/-- What is found, with so many bytes put in front of the source. -/
def shift (d : Nat) : Found → Found
  | .token item next after => .token (item.shift d) next (after.shift d)
  | .last item => .last (item.shift d)

section
variable (d : Nat) (k : Cursor) (place : Place) (state : State) (wanted : String)

theorem brokenAt_shift : brokenAt state (k.shift d) = (brokenAt state k).shift d := rfl

theorem single_shift {token : Token} (h : token.shift d = token) :
    single token place (k.shift d) = (single token place k).shift d := by
  simp only [single, shift, Item.shift, h, Cursor.next_shift]
  rfl

theorem unwanted_shift (c : Char) :
    unwanted state wanted c (k.shift d) = (unwanted state wanted c k).shift d := rfl

theorem exhausted_shift {atEnd other : Item} (h : other = atEnd.shift d) :
    exhausted state (k.shift d) other = (exhausted state k atEnd).shift d := by
  simp only [exhausted, shift, Cursor.shift_cause, ReadError.shift_eq_endOfInput_iff, h,
    brokenAt_shift, apply_ite (Item.shift d)]

theorem refused_shift : refused state wanted (k.shift d) = (refused state wanted k).shift d := by
  unfold refused
  rw [Cursor.shift_ahead, Cursor.next_shift]
  split
  · exact unwanted_shift ..
  · exact exhausted_shift _ _ _ rfl

theorem quoted_shift : quoted state place (k.shift d) = (quoted state place k).shift d := by
  simp only [quoted, Cursor.next_shift, Cursor.skipWhile_shift, Cursor.shift_ahead]
  split
  · rfl
  · exact exhausted_shift _ _ _ rfl

theorem bare_shift : bare (k.shift d) = (bare k).shift d := by
  simp only [bare, Cursor.skipWhile_shift]
  rfl

theorem numeral_shift : numeral place (k.shift d) = (numeral place k).shift d := by
  simp only [numeral, Cursor.skipWhile_shift, Cursor.shift_ahead, Cursor.shift_cause, ne_eq,
    ReadError.shift_eq_endOfInput_iff]
  split
  · rfl
  · split <;> rfl

theorem number_shift : number place (k.shift d) = (number place k).shift d := by
  simp only [number, numeral_shift, refused_shift, Cursor.shift_ahead]
  exact (apply_ite (shift d) ..).symm

theorem closing_shift : closing (k.shift d) = (closing k).shift d := by
  rw [closing, single_shift _ _ _ rfl, refused_shift, Cursor.shift_ahead]
  exact (apply_ite (shift d) ..).symm

theorem starting_shift (ahead : List Char) :
    starting ahead (k.shift d) = (starting ahead k).shift d := by
  fun_cases starting ahead with
  | case1 => exact single_shift _ _ _ rfl
  | case2 => rfl
  | case3 => exact exhausted_shift _ _ _ rfl

theorem selecting_shift (ahead : List Char) :
    selecting ahead (k.shift d) = (selecting ahead k).shift d := by
  fun_cases selecting ahead with
  | case1 | case3 => exact single_shift _ _ _ rfl
  | case2 => exact quoted_shift ..
  | case4 => exact bare_shift ..
  | case5 => rfl
  | case6 => exact exhausted_shift _ _ _ rfl

theorem bracketed_shift (ahead : List Char) :
    bracketed ahead (k.shift d) = (bracketed ahead k).shift d := by
  fun_cases bracketed ahead with
  | case1 => exact single_shift _ _ _ rfl
  | case2 => exact quoted_shift ..
  | case3 | case4 => exact number_shift ..

theorem connective_shift : connective (k.shift d) = (connective k).shift d := by
  rw [connective, connective, Cursor.shift_ahead]
  fun_cases connecting k.ahead with
  | case1 | case2 | case3 => exact single_shift _ _ _ rfl
  | case4 => rfl
  | case5 => exact exhausted_shift _ _ _ rfl

end
end Found

open Found

/-- **A place finds the same further on.** -/
theorem Place.find_shift (place : Place) (d : Nat) (k : Cursor) :
    place.find (k.shift d) = (place.find k).shift d := by
  cases place with
  | start =>
    simp only [find, Cursor.skipBlanks_shift, Cursor.shift_ahead]
    exact starting_shift ..
  | filter =>
    simp only [find, Cursor.skipBlanks_shift, Cursor.shift_ahead, refused_shift,
      single_shift d _ _ (rfl : Token.shift d .period = .period)]
    exact (apply_ite (Found.shift d) ..).symm
  | period =>
    simp only [find, Cursor.skipBlanks_shift, Cursor.shift_ahead]
    exact selecting_shift ..
  | bracket =>
    simp only [find, Cursor.skipBlanks_shift, Cursor.shift_ahead]
    exact bracketed_shift ..
  | integer =>
    simp only [find, Cursor.skipBlanks_shift, Cursor.shift_ahead, closing_shift,
      single_shift d _ _ (rfl : Token.shift d .colon = .colon)]
    exact (apply_ite (Found.shift d) ..).symm
  | bound =>
    simp only [find, Cursor.skipBlanks_shift]
    exact number_shift ..
  | close =>
    simp only [find, Cursor.skipBlanks_shift]
    exact closing_shift ..
  | selected within =>
    simp only [find, Cursor.skipBlanks_shift, Cursor.shift_ahead, Cursor.shift_cause,
      ReadError.shift_eq_endOfInput_iff]
    split
    · exact single_shift _ _ _ rfl
    · split
      · exact connective_shift ..
      · rfl
    · exact connective_shift ..
  | marked =>
    simp only [find, Cursor.skipBlanks_shift]
    exact connective_shift ..

section
variable {place next : Place} {k : Cursor} {token : Token} {items others : List Item}

theorem Lexes.shift (d : Nat) (h : Lexes place k items) :
    Lexes place (k.shift d) (items.map (Item.shift d)) := by
  induction h with
  | @token place k item next after items found rest ih =>
    have hfound := place.find_shift d k
    rw [found] at hfound
    exact .token hfound ih
  | @last place k item found =>
    have hfound := place.find_shift d k
    rw [found] at hfound
    exact .last hfound

/-! ### A connector in place of the end -/

/-- Where the source can end, a filter is complete, unless a bare period comes before. -/
theorem Place.Leads.whole (h : place.Leads token next) (htoken : token ≠ .period)
    (hfinal : next.Final) : next.Whole := by
  cases h <;> first
    | contradiction
    | exact hfinal.elim
    | exact .inl rfl
    | exact .inr ⟨_, rfl⟩

/-- A connector and the character that writes it. -/
def Connects (connector : Token) (c : Char) : Prop :=
  (connector = .pipe ∨ connector = .comma) ∧ symbol? connector = some c

variable {connector : Token} {c : Char} {rest blanks : List Char} {cause : ReadError}

theorem Connects.mem_punctuation (h : Connects connector c) : c ∈ Text.punctuation :=
  symbol_mem_punctuation h.2

theorem Connects.utf8Size (h : Connects connector c) : c.utf8Size = 1 := by
  rcases h with ⟨rfl | rfl, hc⟩ <;> cases hc <;> rfl

/-- Where a filter is complete, a connector behind white space is found. -/
theorem Place.find_connector (hplace : place.Whole) (h : Connects connector c)
    (hblanks : Blanks blanks) (offset : Nat) :
    place.find ⟨offset, blanks ++ c :: rest, cause⟩ =
      .token ⟨connector, offset + textSize blanks, offset + textSize blanks + 1⟩ .filter
        ⟨offset + textSize blanks + 1, rest, cause⟩ := by
  have hquestion : c ≠ '?' := by
    rcases h with ⟨rfl | rfl, hc⟩ <;> cases hc <;> decide
  have hend : ∀ d ∈ (c :: rest).head?, Text.isBlank d = false := by
    simpa using Text.isBlank_of_punctuation h.mem_punctuation
  rw [find_of_whole hplace rfl hblanks hquestion, Cursor.skipBlanks,
    (Cursor.skipWhile_append offset cause hblanks hend).2]
  rcases h with ⟨rfl | rfl, hc⟩ <;> cases hc <;> rfl

theorem delimited_of_punctuation (h : c ∈ Text.punctuation) : Delimited (c :: rest) := by
  simpa [Delimited] using ⟨Text.isLetter_of_punctuation h, Text.isDigit_of_punctuation h⟩

/-- **A connector stands in for the end of the source.** -/
theorem Lexes.connect {span : Span} {size : Nat}
    (h : Lexes place k (items ++ [⟨.endOfInput, span⟩])) (hplace : items = [] → place.Whole)
    (hlast : ∀ item ∈ items.getLast?, item.token ≠ .period)
    (hsize : k.offset + textSize k.ahead = size) (hc : Connects connector c)
    (hrest : Lexes .filter ⟨size + 1, rest, cause⟩ others) :
    Lexes place ⟨k.offset, k.ahead ++ c :: rest, cause⟩
      (items ++ ⟨connector, size, size + 1⟩ :: others) := by
  generalize hall : items ++ [⟨.endOfInput, span⟩] = all at h
  induction h generalizing items with
  | @token place k item next after tail found htail ih =>
    have hreads := place.reads k
    rw [found] at hreads
    have hleads := hreads.1
    cases items with
    | nil => exact absurd (congrArg Item.token (List.cons.inj hall).1).symm hleads.ne_endOfInput
    | cons first items =>
      obtain ⟨rfl, rfl⟩ := List.cons.inj hall
      obtain ⟨text, -, hpast, -, -, hfollow⟩ := Place.steady_of_token found
      have hahead : k.ahead ++ c :: rest = text ++ (after.ahead ++ c :: rest) := by
        rw [hpast.ahead, List.append_assoc]
      have hsize' : after.offset + textSize after.ahead = size := by
        rw [← hsize, hpast.offset, hpast.ahead, textSize_append, Nat.add_assoc]
      have hfollows : Follows first after (after.ahead ++ c :: rest) cause := by
        refine fun _ => ⟨?_, by simp⟩
        cases after.ahead with
        | cons d ahead => exact .inl rfl
        | nil => exact .inr (delimited_of_punctuation hc.mem_punctuation)
      have hwhole : items = [] → next.Whole := by
        rintro rfl
        have hend : [Item.mk .endOfInput span].map Item.token = [] ++ [.endOfInput] := rfl
        exact hleads.whole (hlast first rfl) (Place.nil_mem_residue.1 (htail.written hend).2.2)
      have hlast' : ∀ item ∈ items.getLast?, item.token ≠ .period := by
        intro item hitem
        refine hlast item ?_
        rw [List.getLast?_cons, hitem]
        rfl
      rw [hahead]
      exact .token (hfollow _ _ hfollows) (ih hwhole hlast' hsize' rfl)
  | @last place k item found =>
    cases items with
    | cons first items => simp at hall
    | nil =>
      obtain rfl := (List.cons.inj hall).1.symm
      have hreads := place.reads k
      rw [found] at hreads
      rcases hreads with ⟨offset, cause, hfault⟩ | ⟨-, hblanks, -⟩
      · cases hfault
      · subst hsize
        exact .token (Place.find_connector (hplace rfl) hc hblanks k.offset) hrest

end
end Lexer

/-! ### From the beginning -/

/-- White space and a period begin the source. -/
def BeginsFilter (source : ByteArray) : Prop :=
  ∃ blanks rest, Blanks blanks ∧ source = (blanks ++ ['.']).utf8Encode ++ rest

/-- What begins a filter is the same at the beginning of a source and behind a connector. -/
theorem lexes_filter_of_source {source : ByteArray} (h : BeginsFilter source) :
    Lexes .filter (Reader.ofBytes source).cursor
      (itemsFrom .expression (Reader.ofBytes source)) := by
  obtain ⟨blanks, rest, hblanks, rfl⟩ := h
  generalize hk : (Reader.ofBytes ((blanks ++ ['.']).utf8Encode ++ rest)).cursor = k
  have hahead : k.ahead = blanks ++ '.' :: validText rest := by
    rw [← hk, Reader.cursor_of_begins, List.append_assoc]
    rfl
  have hend : ∀ c ∈ ('.' :: validText rest).head?, Text.isBlank c = false := by
    simpa using Text.isBlank_of_punctuation (by decide)
  have hskip := (Cursor.skipWhile_of_append hahead hblanks hend).2
  refine .congr ?_ (hk ▸ lexes_of_source _)
  rw [Place.find_of_period hskip (.inr (.inl rfl)), Place.find_of_period hskip (.inl rfl)]

/-- Behind so many bytes, what begins a filter is the same, moved. -/
theorem lexes_filter_behind {source : ByteArray} (h : BeginsFilter source) (size : Nat) :
    Lexes .filter ⟨size, validText source, (ending source).shift size⟩
      ((itemsFrom .expression (Reader.ofBytes source)).map (Item.shift size)) := by
  have hmoved := (lexes_filter_of_source h).shift size
  have hcursor : (Reader.ofBytes source).cursor.shift size =
      ⟨size, validText source, (ending source).shift size⟩ := by
    rw [Cursor.shift, Reader.ahead_ofBytes, Reader.cause_ofBytes]
    exact congrArg (Cursor.mk · _ _) (Nat.zero_add size)
  rwa [hcursor] at hmoved

/-- The items of two sources with a connector between them. -/
theorem itemsFrom_connected {a b : ByteArray} {items : List Item} {span : Span}
    {connector : Token} {c : Char}
    (ha : itemsFrom .expression (Reader.ofBytes a) = items ++ [⟨.endOfInput, span⟩])
    (hne : items ≠ []) (hlast : ∀ item ∈ items.getLast?, item.token ≠ .period)
    (hb : BeginsFilter b) (hc : Connects connector c) :
    itemsFrom .expression (Reader.ofBytes (a ++ [c].utf8Encode ++ b)) =
      items ++ ⟨connector, a.size, a.size + 1⟩ ::
        (itemsFrom .expression (Reader.ofBytes b)).map (Item.shift (a.size + 1)) := by
  have hitems := lexes_of_source a
  rw [ha] at hitems
  have hend : (items ++ [Item.mk .endOfInput span]).map Item.token =
      items.map Item.token ++ [.endOfInput] := List.map_append
  -- the first source is the text ahead in it
  have hbytes : a = (validText a).utf8Encode := by
    have := (Reader.cursor_eq_endOfInput_iff a).1 (hitems.written hend).2.1
    rwa [Reader.ahead_ofBytes, String.toUTF8_eq_toByteArray, String.toByteArray_ofList] at this
  have hsize : textSize (validText a) = a.size := by rw [← size_utf8Encode, ← hbytes]
  have hjoined : (Reader.ofBytes (a ++ [c].utf8Encode ++ b)).cursor =
      ⟨0, validText a ++ c :: validText b, (ending b).shift (a.size + 1)⟩ := by
    have hfront : textSize (validText a ++ [c]) = a.size + 1 := by
      rw [textSize_append, hsize, textSize_cons, hc.utf8Size, textSize_nil]
    have := Reader.cursor_of_begins (validText a ++ [c]) b
    rwa [List.utf8Encode_append, ← hbytes, hfront, List.append_assoc] at this
  have hoffset : (Reader.ofBytes a).cursor.offset + textSize (Reader.ofBytes a).cursor.ahead =
      a.size := by
    rw [Reader.ahead_ofBytes, hsize]
    exact Nat.zero_add _
  have hlexes := hitems.connect (absurd · hne) hlast hoffset hc
    (lexes_filter_behind hb (a.size + 1))
  rw [Reader.ahead_ofBytes] at hlexes
  exact (lexes_of_source _).unique (hjoined ▸ hlexes)

/-- **Lexing composes at connectors.** Between a source that is read to its end, and not to
a bare period, and one that begins with a filter, a connector takes the place of the end
of the first, and behind it come the items of the second, moved and otherwise as they are. -/
theorem lex_connected (driver : Driver) {a b : ByteArray} {front : List Item} {last : Item}
    {span : Span} (ha : lex driver none a = front ++ [last, ⟨.endOfInput, span⟩])
    (hlast : last.token ≠ .period) (hb : BeginsFilter b) :
    lex driver none (a ++ "|".toUTF8 ++ b) = front ++ last :: ⟨.pipe, a.size, a.size + 1⟩ ::
        (lex driver none b).map (Item.shift (a.size + 1)) ∧
      lex driver none (a ++ ",".toUTF8 ++ b) = front ++ last :: ⟨.comma, a.size, a.size + 1⟩ ::
        (lex driver none b).map (Item.shift (a.size + 1)) := by
  rw [lex_eq_itemsFrom, List.append_cons] at ha
  have hlast' : ∀ item ∈ (front ++ [last]).getLast?, item.token ≠ .period := by
    intro item hitem
    rw [List.getLast?_concat] at hitem
    exact Option.some.inj hitem ▸ hlast
  have hconnect : ∀ connector c, Connects connector c →
      lex driver none (a ++ [c].utf8Encode ++ b) =
        front ++ last :: ⟨connector, a.size, a.size + 1⟩ ::
          (lex driver none b).map (Item.shift (a.size + 1)) := by
    intro connector c hc
    rw [lex_eq_itemsFrom, lex_eq_itemsFrom, List.append_cons]
    exact itemsFrom_connected ha (by simp) hlast' hb hc
  exact ⟨hconnect .pipe '|' ⟨.inl rfl, rfl⟩, hconnect .comma ',' ⟨.inr rfl, rfl⟩⟩

/-- White space stands on both sides of the connector, and the second source breaks off
inside a quoted name: where the bytes are broken is told by the joined source. -/
theorem lex_connected_broken :
    let a := ".\"b\"? ".toUTF8
    let b := " .\"é".toUTF8 ++ ⟨#[0xFF]⟩
    lex .threaded none a = [⟨.period, 0, 1⟩, ⟨.name "b", 2, 3⟩] ++
        [⟨.question, 4, 5⟩, ⟨.endOfInput, .empty 6⟩] ∧
      Token.question ≠ .period ∧ BeginsFilter b ∧
      (lex .threaded none b).map (Item.shift 7) = [⟨.period, 8, 9⟩,
        ⟨.illegal (.read State.quotedName.label (.invalidUtf8 12)), .empty 12⟩] ∧
      lex .threaded none (a ++ "|".toUTF8 ++ b) = [⟨.period, 0, 1⟩, ⟨.name "b", 2, 3⟩] ++
        ⟨.question, 4, 5⟩ :: ⟨.pipe, 6, 7⟩ :: (lex .threaded none b).map (Item.shift 7) ∧
      lex .threaded none (a ++ ",".toUTF8 ++ b) = [⟨.period, 0, 1⟩, ⟨.name "b", 2, 3⟩] ++
        ⟨.question, 4, 5⟩ :: ⟨.comma, 6, 7⟩ :: (lex .threaded none b).map (Item.shift 7) := by
  have ha : lex .threaded none ".\"b\"? ".toUTF8 = [⟨.period, 0, 1⟩, ⟨.name "b", 2, 3⟩] ++
      [⟨.question, 4, 5⟩, ⟨.endOfInput, .empty 6⟩] := by decide +kernel
  have hb : BeginsFilter (" .\"é".toUTF8 ++ ⟨#[0xFF]⟩) :=
    ⟨[' '], "\"é".toUTF8 ++ ⟨#[0xFF]⟩, by simp [Blanks]; decide, by decide +kernel⟩
  exact ⟨ha, nofun, hb, by decide +kernel, lex_connected .threaded ha nofun hb⟩

end PathFilter
