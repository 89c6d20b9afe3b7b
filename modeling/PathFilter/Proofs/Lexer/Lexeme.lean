import PathFilter.Proofs.Lexer.Place
import PathFilter.Proofs.Text.Classes
import PathFilter.Proofs.Text.Decimal

/-! How tokens are written.

A text writes a list of tokens if it is their lexemes in order, with white space
around them, except before a question mark (`Written`). What is found at a place is
a token that can stand there, behind white space and in one of its lexemes, or else
a fault or the end (`Place.reads`); and a lexeme of a token that can stand there is
found (`Place.takes`). -/
namespace PathFilter.Lexer

/-! ### Which token can stand where -/

/-- A filter is complete at the place. -/
def Place.Whole (place : Place) : Prop := place = .marked ∨ ∃ within, place = .selected within

/-- The token can stand at a place, and it leads to another. -/
inductive Place.Leads : Place → Token → Place → Prop where
  | start : Leads .start .period .period
  | filter : Leads .filter .period .period
  | period : Leads .period .period .period
  | name {text : String} {within : State} : Leads .period (.name text) (.selected within)
  | opening : Leads .period .leftBracket .bracket
  | all : Leads .bracket .rightBracket (.selected .index)
  | key {text : String} : Leads .bracket (.name text) .close
  | element {value : Int64} : Leads .bracket (.integer value) .integer
  | colon : Leads .integer .colon .bound
  | elementClose : Leads .integer .rightBracket (.selected .index)
  | bound {value : Int64} : Leads .bound (.integer value) .close
  | close : Leads .close .rightBracket (.selected .index)
  | question {within : State} : Leads (.selected within) .question .marked
  | next {place : Place} (h : place.Whole) : Leads place .period .period
  | pipe {place : Place} (h : place.Whole) : Leads place .pipe .filter
  | comma {place : Place} (h : place.Whole) : Leads place .comma .filter

/-- The source can end at the place. -/
def Place.Final : Place → Prop
  | .start | .period | .selected _ | .marked => True
  | _ => False

/-! ### Lexemes -/

def Blanks (text : List Char) : Prop := ∀ c ∈ text, Text.isBlank c = true

/-- The character that writes a token without a value. -/
def symbol? : Token → Option Char
  | .period => some '.'
  | .leftBracket => some '['
  | .rightBracket => some ']'
  | .colon => some ':'
  | .question => some '?'
  | .comma => some ','
  | .pipe => some '|'
  | _ => none

/-- A way to write the token. Directly behind an opening bracket, `inside`, a name
needs quotes. -/
inductive Lexeme (inside : Bool) : Token → List Char → Prop where
  | symbol {token : Token} {c : Char} (h : symbol? token = some c) : Lexeme inside token [c]
  | quoted {text : List Char} (h : '"' ∉ text) :
      Lexeme inside (.name (String.ofList text)) ('"' :: (text ++ ['"']))
  | bare {text : List Char} (outside : inside = false) (hne : text ≠ [])
      (h : ∀ c ∈ text, Text.isLetter c = true) : Lexeme inside (.name (String.ofList text)) text
  | integer {digits : List Char} {value : Int64} (hne : digits ≠ [])
      (h : ∀ c ∈ digits, c.isDigit = true) (hvalue : (Text.decimal digits : Int) = value.toInt) :
      Lexeme inside (.integer value) digits

/-- The text writes the tokens: lexemes with white space between and around them,
but none before a question mark. -/
inductive Written : Bool → List Token → List Char → Prop where
  | nil {inside : Bool} {blanks : List Char} (h : Blanks blanks) : Written inside [] blanks
  | cons {inside : Bool} {token : Token} {tokens : List Token} {blanks lexeme rest : List Char}
      (hblanks : Blanks blanks) (hglued : token = .question → blanks = [])
      (hlexeme : Lexeme inside token lexeme)
      (hrest : Written (decide (token = .leftBracket)) tokens rest) :
      Written inside (token :: tokens) (blanks ++ (lexeme ++ rest))

theorem exists_blanks (k : Cursor) :
    ∃ blanks, Blanks blanks ∧ k.ahead = blanks ++ k.skipBlanks.ahead :=
  ⟨_, fun _ hc => (List.all_eq_true.1 List.all_takeWhile) _ hc, k.split_skipWhile Text.isBlank⟩

/-! ### What is found is written there -/

namespace Found
variable {place next : Place} {k : Cursor} {state : State} {wanted : String}

/-- What is found begins here: it is a token that can stand here, and its lexeme lies
ahead, or a fault, or the end of a source that can end here. -/
def Begins (place : Place) (k : Cursor) : Found → Prop
  | .token item next after => place.Leads item.token next ∧ after.cause = k.cause ∧
      ∃ lexeme, Lexeme (decide (place = .bracket)) item.token lexeme ∧
        k.ahead = lexeme ++ after.ahead
  | .last item => (∃ offset cause, item = faultAt offset cause) ∨
      item.token = .endOfInput ∧ k.ahead = [] ∧ k.cause = .endOfInput ∧ place.Final

theorem begins_single {token : Token} {c : Char} {rest : List Char} (h : k.ahead = c :: rest)
    (hsymbol : symbol? token = some c) (hleads : place.Leads token next) :
    Begins place k (single token next k) := by
  refine ⟨hleads, k.next_cause, [c], .symbol hsymbol, ?_⟩
  rw [Cursor.next_of_cons h, h]
  rfl

theorem begins_unwanted {c : Char} : Begins place k (unwanted state wanted c k) := .inl ⟨_, _, rfl⟩

theorem begins_exhausted {j : Cursor} {atEnd : Item}
    (h : j.cause = .endOfInput → Begins place k (.last atEnd)) :
    Begins place k (exhausted state j atEnd) := by
  unfold exhausted
  split
  · next hcause => exact h hcause
  · exact .inl ⟨_, _, rfl⟩

theorem begins_ended (h : k.ahead = []) (hfinal : place.Final) : Begins place k (ended state k) :=
  begins_exhausted fun hcause => .inr ⟨rfl, h, hcause, hfinal⟩

theorem begins_refused {j : Cursor} : Begins place k (refused state wanted j) := by
  unfold refused
  split
  · exact .inl ⟨_, _, rfl⟩
  · exact begins_exhausted fun _ => .inl ⟨_, _, rfl⟩

theorem begins_quoted {rest : List Char} (h : k.ahead = '"' :: rest)
    (hleads : ∀ text, place.Leads (.name text) next) : Begins place k (quoted state next k) := by
  simp only [quoted]
  split
  · next c tail hclosing =>
    have hc : c = '"' := by simpa using Cursor.head_skipWhile hclosing
    have hnext : k.next.ahead = rest := by rw [Cursor.next_of_cons h]
    have hsplit := k.next.split_skipWhile (· ≠ '"')
    rw [hclosing, hc] at hsplit
    refine ⟨hleads _, by simp, _, .quoted fun hmem => ?_, ?_⟩
    · have := List.all_eq_true.1 List.all_takeWhile _ hmem
      simp at this
    · rw [Cursor.next_of_cons hclosing, h, ← hnext, List.cons_append, List.append_assoc]
      exact congrArg _ hsplit
  · exact begins_exhausted fun _ => .inl ⟨_, _, rfl⟩

theorem begins_bare {c : Char} {rest : List Char} (h : k.ahead = c :: rest)
    (hc : Text.isLetter c = true) (hplace : place ≠ .bracket)
    (hleads : ∀ text, place.Leads (.name text) (.selected .bareName)) :
    Begins place k (bare k) := by
  refine ⟨hleads _, rfl, _, .bare (decide_eq_false hplace) ?_ ?_, k.split_skipWhile Text.isLetter⟩
  · rw [h, List.takeWhile_cons_of_pos hc]
    nofun
  · exact fun d hd => List.all_eq_true.1 List.all_takeWhile _ hd

/-- Where a digit is ahead, so is a run of digits. -/
theorem digits_of_head (hhead : k.ahead.head?.any Char.isDigit = true) :
    k.ahead.takeWhile Char.isDigit ≠ [] ∧
      ∀ c ∈ k.ahead.takeWhile Char.isDigit, c.isDigit = true := by
  refine ⟨?_, fun c hc => List.all_eq_true.1 List.all_takeWhile _ hc⟩
  cases ha : k.ahead with
  | nil => simp [ha] at hhead
  | cons c rest =>
    rw [ha] at hhead
    rw [List.takeWhile_cons_of_pos (by simpa using hhead)]
    nofun

/-- An integer that is read is what its digits write. -/
theorem digits_of_read {value : Int64} (hhead : k.ahead.head?.any Char.isDigit = true)
    (hvalue : Text.Numeral.read (String.ofList (k.ahead.takeWhile Char.isDigit)) = .ok value) :
    k.ahead.takeWhile Char.isDigit ≠ [] ∧
      (∀ c ∈ k.ahead.takeWhile Char.isDigit, c.isDigit = true) ∧
        (Text.decimal (k.ahead.takeWhile Char.isDigit) : Int) = value.toInt := by
  obtain ⟨hne, hdigits⟩ := digits_of_head hhead
  exact ⟨hne, hdigits, (Text.Numeral.read_eq_ok_iff hne hdigits value).1 hvalue⟩

theorem begins_number (hleads : ∀ value, place.Leads (.integer value) next) :
    Begins place k (number next k) := by
  simp only [number, numeral]
  split
  · next hhead =>
    split
    · exact .inl ⟨_, _, rfl⟩
    · split
      · next value hvalue =>
        obtain ⟨hne, hdigits, hdecimal⟩ := digits_of_read hhead hvalue
        exact ⟨hleads value, rfl, _, .integer hne hdigits hdecimal,
          k.split_skipWhile Char.isDigit⟩
      · exact .inl ⟨_, _, rfl⟩
  · exact begins_refused

theorem begins_closing (hleads : place.Leads .rightBracket (.selected .index)) :
    Begins place k (closing k) := by
  unfold closing
  split
  · next hhead =>
    obtain ⟨rest, h⟩ := List.head?_eq_some_iff.1 hhead
    exact begins_single h rfl hleads
  · exact begins_refused

theorem begins_starting : Begins .start k (starting k.ahead k) := by
  generalize ha : k.ahead = ahead
  fun_cases starting ahead with
  | case1 => exact begins_single ha rfl .start
  | case2 => exact begins_unwanted
  | case3 => exact begins_ended ha trivial

theorem begins_selecting : Begins .period k (selecting k.ahead k) := by
  generalize ha : k.ahead = ahead
  fun_cases selecting ahead with
  | case1 => exact begins_single ha rfl .period
  | case2 => exact begins_quoted ha fun _ => .name
  | case3 => exact begins_single ha rfl .opening
  | case4 c rest _ _ _ hletter => exact begins_bare ha hletter (by simp) fun _ => .name
  | case5 => exact begins_unwanted
  | case6 => exact begins_ended ha trivial

theorem begins_bracketed : Begins .bracket k (bracketed k.ahead k) := by
  generalize ha : k.ahead = ahead
  fun_cases bracketed ahead with
  | case1 => exact begins_single ha rfl .all
  | case2 => exact begins_quoted ha fun _ => .key
  | case3 | case4 => exact begins_number fun _ => .element

theorem begins_connective (h : place.Whole) : Begins place k (connective k) := by
  unfold connective
  generalize ha : k.ahead = ahead
  fun_cases connecting ahead with
  | case1 => exact begins_single ha rfl (.pipe h)
  | case2 => exact begins_single ha rfl (.comma h)
  | case3 => exact begins_single ha rfl (.next h)
  | case4 => exact begins_unwanted
  | case5 =>
    apply begins_ended ha
    rcases h with rfl | ⟨within, rfl⟩ <;> trivial

/-- What is found is written ahead, behind white space, but for a question mark. -/
def Reads (place : Place) (k : Cursor) : Found → Prop
  | .token item next after => place.Leads item.token next ∧ after.cause = k.cause ∧
      ∃ blanks lexeme, Blanks blanks ∧ (item.token = .question → blanks = []) ∧
        Lexeme (decide (place = .bracket)) item.token lexeme ∧
          k.ahead = blanks ++ (lexeme ++ after.ahead)
  | .last item => (∃ offset cause, item = faultAt offset cause) ∨
      item.token = .endOfInput ∧ Blanks k.ahead ∧ k.cause = .endOfInput ∧ place.Final

theorem reads_of_begins {found : Found} (h : Begins place k found) : Reads place k found := by
  cases found with
  | token item next after =>
    obtain ⟨hleads, hcause, lexeme, hlexeme, hahead⟩ := h
    exact ⟨hleads, hcause, [], lexeme, nofun, fun _ => rfl, hlexeme, hahead⟩
  | last item =>
    refine h.imp_right fun ⟨hend, hahead, hcause, hfinal⟩ => ⟨hend, ?_, hcause, hfinal⟩
    rw [hahead]
    nofun

theorem reads_behind_blanks {found : Found} (h : Begins place k.skipBlanks found)
    (hplace : ∀ within, place ≠ .selected within) : Reads place k found := by
  obtain ⟨blanks, hblanks, hk⟩ := exists_blanks k
  cases found with
  | token item next after =>
    obtain ⟨hleads, hcause, lexeme, hlexeme, hahead⟩ := h
    refine ⟨hleads, hcause, blanks, lexeme, hblanks, fun hquestion => ?_, hlexeme, hahead ▸ hk⟩
    rw [hquestion] at hleads
    cases hleads
    exact absurd rfl (hplace _)
  | last item =>
    refine h.imp_right fun ⟨hend, hahead, hcause, hfinal⟩ => ⟨hend, ?_, hcause, hfinal⟩
    rw [hk, hahead, List.append_nil]
    exact hblanks

/-- What is read where no question mark can stand is read where one can. -/
theorem reads_selected {within : State} {found : Found} (h : Reads .marked k found) :
    Reads (.selected within) k found := by
  cases found with
  | token item next after =>
    obtain ⟨hleads, hrest⟩ := h
    refine ⟨?_, hrest⟩
    generalize item.token = token at hleads ⊢
    cases hleads with
    | next => exact .next (.inr ⟨within, rfl⟩)
    | pipe => exact .pipe (.inr ⟨within, rfl⟩)
    | comma => exact .comma (.inr ⟨within, rfl⟩)
  | last item => exact h.imp_right fun ⟨hend, hahead, hcause, _⟩ => ⟨hend, hahead, hcause, trivial⟩

end Found

/-- **What is found at a place is written there.** -/
theorem Place.reads (place : Place) (k : Cursor) : Found.Reads place k (place.find k) := by
  cases place with
  | start => exact Found.reads_behind_blanks Found.begins_starting (by simp)
  | filter =>
    refine Found.reads_behind_blanks ?_ (by simp)
    rw [find]
    split
    · next hhead =>
      obtain ⟨rest, ha⟩ := List.head?_eq_some_iff.1 hhead
      exact Found.begins_single ha rfl .filter
    · exact Found.begins_refused
  | period => exact Found.reads_behind_blanks Found.begins_selecting (by simp)
  | bracket => exact Found.reads_behind_blanks Found.begins_bracketed (by simp)
  | integer =>
    refine Found.reads_behind_blanks ?_ (by simp)
    rw [find]
    split
    · next hhead =>
      obtain ⟨rest, ha⟩ := List.head?_eq_some_iff.1 hhead
      exact Found.begins_single ha rfl .colon
    · exact Found.begins_closing .elementClose
  | bound => exact Found.reads_behind_blanks (Found.begins_number fun _ => .bound) (by simp)
  | close => exact Found.reads_behind_blanks (Found.begins_closing .close) (by simp)
  | selected within =>
    have hmarked : Found.Reads .marked k (Found.connective k.skipBlanks) :=
      Found.reads_behind_blanks (Found.begins_connective (.inl rfl)) (by simp)
    rw [find]
    split
    · next ha => exact Found.reads_of_begins (Found.begins_single ha rfl .question)
    · split
      · exact Found.reads_selected hmarked
      · exact .inl ⟨_, _, rfl⟩
    · exact Found.reads_selected hmarked
  | marked => exact Found.reads_behind_blanks (Found.begins_connective (.inl rfl)) (by simp)

/-! ### What is written is found there -/

section
variable {inside : Bool} {token : Token} {lexeme : List Char}

theorem Lexeme.of_symbol {c : Char} (h : Lexeme inside token lexeme) (hc : symbol? token = some c) :
    lexeme = [c] := by
  cases h with
  | symbol h => rw [Option.some.inj (hc.symm.trans h)]
  | quoted => contradiction
  | bare => contradiction
  | integer => contradiction

theorem symbol_mem_punctuation {c : Char} (h : symbol? token = some c) : c ∈ Text.punctuation := by
  cases token <;> cases h <;> decide

/-- A lexeme begins with something other than white space. -/
theorem Lexeme.exists_cons (h : Lexeme inside token lexeme) :
    ∃ c tail, lexeme = c :: tail ∧ Text.isBlank c = false := by
  cases h with
  | symbol h => exact ⟨_, _, rfl, Text.isBlank_of_punctuation (symbol_mem_punctuation h)⟩
  | quoted => exact ⟨_, _, rfl, Text.isBlank_of_punctuation (by decide)⟩
  | bare _ hne h =>
    obtain ⟨c, tail, rfl⟩ := List.exists_cons_of_ne_nil hne
    exact ⟨c, tail, rfl, Text.isBlank_of_isLetter (h c (.head _))⟩
  | integer hne h =>
    obtain ⟨c, tail, rfl⟩ := List.exists_cons_of_ne_nil hne
    exact ⟨c, tail, rfl, Text.isBlank_of_isDigit (h c (.head _))⟩

end

theorem append_quote (text rest : List Char) :
    '"' :: (text ++ ['"']) ++ rest = '"' :: (text ++ '"' :: rest) := by simp

/-- A name or a number ends in front of the text. -/
def Delimited (text : List Char) : Prop :=
  ∀ c ∈ text.head?, Text.isLetter c = false ∧ c.isDigit = false

namespace Found
variable {next : Place} {k : Cursor} {state : State} {rest : List Char}

/-- What is found is the token, and the rest lies behind it. -/
def Takes (token : Token) (rest : List Char) : Found → Prop
  | .token item _ after => item.token = token ∧ after.ahead = rest
  | .last _ => False

theorem takes_single {token : Token} {c : Char} (h : k.ahead = c :: rest) :
    Takes token rest (single token next k) :=
  ⟨rfl, by rw [Cursor.next_of_cons h]⟩

theorem takes_quoted {text : List Char} (hk : k.ahead = '"' :: (text ++ '"' :: rest))
    (h : '"' ∉ text) : Takes (.name (String.ofList text)) rest (quoted state next k) := by
  have hnext : k.next.ahead = text ++ '"' :: rest := by rw [Cursor.next_of_cons hk]
  obtain ⟨htext, hclosing⟩ := Cursor.skipWhile_of_append (p := (· ≠ '"')) hnext
    (fun c hc => decide_eq_true fun heq => h (heq ▸ hc)) (by simp)
  simp only [quoted, hclosing]
  exact ⟨by rw [htext], by rw [Cursor.next_of_cons hclosing]⟩

theorem takes_bare {text : List Char} (hk : k.ahead = text ++ rest)
    (h : ∀ c ∈ text, Text.isLetter c = true) (hrest : Delimited rest) :
    Takes (.name (String.ofList text)) rest (bare k) := by
  obtain ⟨htext, hafter⟩ := Cursor.skipWhile_of_append hk h fun c hc => (hrest c hc).1
  exact ⟨by rw [htext], hafter⟩

theorem takes_number (next : Place) {digits : List Char} {value : Int64}
    (hk : k.ahead = digits ++ rest) (hcause : k.cause = .endOfInput) (hne : digits ≠ [])
    (h : ∀ c ∈ digits, c.isDigit = true)
    (hvalue : (Text.decimal digits : Int) = value.toInt) (hrest : Delimited rest) :
    Takes (.integer value) rest (number next k) := by
  obtain ⟨hdigits, hafter⟩ := Cursor.skipWhile_of_append hk h fun c hc => (hrest c hc).2
  have hhead : k.ahead.head?.any Char.isDigit = true := by
    obtain ⟨c, tail, rfl⟩ := List.exists_cons_of_ne_nil hne
    rw [hk]
    exact h c (.head _)
  rw [number, if_pos hhead]
  simp only [numeral]
  rw [if_neg (fun hbroken => hbroken.2 hcause), hdigits,
    (Text.Numeral.read_eq_ok_iff hne h value).2 hvalue]
  exact ⟨rfl, hafter⟩

theorem takes_closing (h : k.ahead = ']' :: rest) : Takes .rightBracket rest (closing k) := by
  rw [closing, if_pos (by rw [h]; rfl)]
  exact takes_single h

/-- A name behind a period, with quotes or without. -/
theorem takes_selecting {text : String} {lexeme : List Char}
    (h : Lexeme false (.name text) lexeme) (hk : k.ahead = lexeme ++ rest)
    (hrest : Delimited rest) : Takes (.name text) rest (selecting k.ahead k) := by
  cases h with
  | symbol h => contradiction
  | quoted h =>
    have hquoted := hk.trans (append_quote _ rest)
    rw [hquoted]
    exact takes_quoted hquoted h
  | bare _ hne h =>
    have hbare := takes_bare hk h hrest
    obtain ⟨c, tail, rfl⟩ := List.exists_cons_of_ne_nil hne
    have hc := h c (.head _)
    rw [hk, List.cons_append, selecting_of_other (Text.ne_of_isLetter hc (by decide))
      (Text.ne_of_isLetter hc (by decide)) (Text.ne_of_isLetter hc (by decide)), if_pos hc]
    exact hbare

/-- A name between brackets has its quotes. -/
theorem takes_bracketed {text : String} {lexeme : List Char} (h : Lexeme true (.name text) lexeme)
    (hk : k.ahead = lexeme ++ rest) : Takes (.name text) rest (bracketed k.ahead k) := by
  cases h with
  | symbol h => contradiction
  | quoted h =>
    have hquoted := hk.trans (append_quote _ rest)
    rw [hquoted]
    exact takes_quoted hquoted h
  | bare houtside => contradiction

theorem takes_connective {token : Token} {c : Char} (h : k.ahead = c :: rest)
    (hc : symbol? token = some c) (htoken : token = .period ∨ token = .pipe ∨ token = .comma) :
    Takes token rest (connective k) := by
  rcases htoken with rfl | rfl | rfl <;> obtain rfl := Option.some.inj hc <;>
    simp only [connective, connecting, h] <;> exact takes_single h

end Found

/-- A question mark apart, the same is found at all places where a filter is complete. -/
theorem Place.find_of_whole {place : Place} {k : Cursor} {blanks rest : List Char} {c : Char}
    (h : place.Whole) (hk : k.ahead = blanks ++ c :: rest) (hblanks : Blanks blanks)
    (hc : c ≠ '?') : place.find k = Found.connective k.skipBlanks := by
  rcases h with rfl | ⟨within, rfl⟩
  · rfl
  · have hne : ∀ tail, k.ahead ≠ '?' :: tail := by
      intro tail heq
      rw [hk] at heq
      cases blanks with
      | nil => exact hc (List.cons.inj heq).1
      | cons b blanks =>
        have hb := hblanks b (.head _)
        rw [(List.cons.inj heq).1, Text.isBlank_of_punctuation (by decide)] at hb
        contradiction
    rw [find]
    split
    · next heq => exact absurd heq (hne _)
    · next heq => simp [hk] at heq
    · rfl

/-- **What is written at a place is found there.** -/
theorem Place.takes {place next : Place} {k : Cursor} {token : Token}
    {blanks lexeme rest : List Char} (hleads : place.Leads token next) (hblanks : Blanks blanks)
    (hglued : token = .question → blanks = [])
    (hlexeme : Lexeme (decide (place = .bracket)) token lexeme)
    (hk : k.ahead = blanks ++ (lexeme ++ rest)) (hcause : k.cause = .endOfInput)
    (hrest : symbol? token = none → Delimited rest) :
    Found.Takes token rest (place.find k) := by
  have hskip : k.skipBlanks.ahead = lexeme ++ rest := by
    obtain ⟨c, tail, rfl, hc⟩ := hlexeme.exists_cons
    exact (Cursor.skipWhile_of_append hk hblanks fun d hd => by
      rwa [← Option.some.inj hd]).2
  have hsymbol : ∀ c, symbol? token = some c → k.skipBlanks.ahead = c :: rest := by
    intro c hc
    rw [hskip, hlexeme.of_symbol hc]
    rfl
  cases hleads with
  | start =>
    rw [find, hsymbol '.' rfl]
    exact Found.takes_single (hsymbol '.' rfl)
  | filter =>
    rw [find, if_pos (by rw [hsymbol '.' rfl]; rfl)]
    exact Found.takes_single (hsymbol '.' rfl)
  | period =>
    rw [find, hsymbol '.' rfl]
    exact Found.takes_single (hsymbol '.' rfl)
  | name => exact Found.takes_selecting hlexeme hskip (hrest rfl)
  | opening =>
    rw [find, hsymbol '[' rfl]
    exact Found.takes_single (hsymbol '[' rfl)
  | all =>
    rw [find, hsymbol ']' rfl]
    exact Found.takes_single (hsymbol ']' rfl)
  | key => exact Found.takes_bracketed hlexeme hskip
  | element =>
    cases hlexeme with
    | symbol h => contradiction
    | integer hne h hvalue =>
      have hnumber := Found.takes_number .integer hskip hcause hne h hvalue (hrest rfl)
      obtain ⟨c, tail, rfl⟩ := List.exists_cons_of_ne_nil hne
      have hc := h c (.head _)
      rw [find_bracket_of_other hskip (Text.ne_of_isDigit hc (by decide))
        (Text.ne_of_isDigit hc (by decide))]
      exact hnumber
  | colon =>
    rw [find, if_pos (by rw [hsymbol ':' rfl]; rfl)]
    exact Found.takes_single (hsymbol ':' rfl)
  | elementClose =>
    rw [find, if_neg (by rw [hsymbol ']' rfl]; simp)]
    exact Found.takes_closing (hsymbol ']' rfl)
  | bound =>
    cases hlexeme with
    | symbol h => contradiction
    | integer hne h hvalue =>
      exact Found.takes_number .close hskip hcause hne h hvalue (hrest rfl)
  | close => exact Found.takes_closing (hsymbol ']' rfl)
  | question =>
    have hahead : k.ahead = '?' :: rest := by
      rw [hk, hglued rfl, hlexeme.of_symbol rfl]
      rfl
    rw [find, hahead]
    exact Found.takes_single hahead
  | next h =>
    rw [hlexeme.of_symbol rfl] at hk
    rw [find_of_whole h hk hblanks (by decide)]
    exact Found.takes_connective (hsymbol '.' rfl) rfl (.inl rfl)
  | pipe h =>
    rw [hlexeme.of_symbol rfl] at hk
    rw [find_of_whole h hk hblanks (by decide)]
    exact Found.takes_connective (hsymbol '|' rfl) rfl (.inr (.inl rfl))
  | comma h =>
    rw [hlexeme.of_symbol rfl] at hk
    rw [find_of_whole h hk hblanks (by decide)]
    exact Found.takes_connective (hsymbol ',' rfl) rfl (.inr (.inr rfl))

end PathFilter.Lexer
