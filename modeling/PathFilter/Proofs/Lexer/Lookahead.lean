import PathFilter.Proofs.Lexer.Spans

/-! What is found depends on little more than its own text.

A token is found in front of any text that can follow it (`Follows`): behind a name or a
number the next character decides where it ends, and behind a closing quote nothing does.
A fault at a character is found whatever comes behind that character. All that is left is
what is found where nothing is ahead any more. `Steady` says this of a way to look at a
cursor, and every place looks in a steady way (`Place.steady`). -/
namespace PathFilter
open Lexer

/-- A run of characters is skipped in front of other text too, if it ends there. -/
theorem Cursor.skipWhile_append {p : Char → Bool} {skipped rest : List Char} (offset : Nat)
    (cause : ReadError) (hskipped : ∀ c ∈ skipped, p c = true)
    (hrest : ∀ c ∈ rest.head?, p c = false) :
    (skipped ++ rest).takeWhile p = skipped ∧
      skipWhile p ⟨offset, skipped ++ rest, cause⟩ = ⟨offset + textSize skipped, rest, cause⟩ := by
  obtain ⟨htake, hdrop⟩ :=
    skipWhile_of_append (k := ⟨offset, skipped ++ rest, cause⟩) rfl hskipped hrest
  refine ⟨htake, ?_⟩
  rw [skipWhile_ahead] at hdrop
  rw [skipWhile, htake, hdrop]

namespace Lexer

/-- The text can stand behind the token in place of what does: it begins with the same
character, or with one that is part of no name and no number, and where it is empty the
source ends. A quote that closes the token makes all of this needless. -/
def Follows (item : Item) (after : Cursor) (rest : List Char) (cause : ReadError) : Prop :=
  item.span.stop = after.offset →
    (rest.head? = after.ahead.head? ∨ Delimited rest) ∧ (rest = [] → cause = .endOfInput)

namespace Found

/-- What is found by looking at the cursor is found in front of other text as well: a token
in front of what can follow it, and a fault at a character in front of anything. Any other
last item tells that nothing is ahead, and without an end of the source it is broken bytes. -/
def Steady (look : Cursor → Found) (k : Cursor) : Prop :=
  match look k with
  | .token item next after =>
    ∃ text, text ≠ [] ∧ k.Past text after ∧
      item.span.stop ≤ after.offset ∧ after.offset ≤ item.span.stop + 1 ∧
      ∀ rest cause, Follows item after rest cause →
        look ⟨k.offset, text ++ rest, cause⟩ = .token item next ⟨after.offset, rest, cause⟩
  | .last item =>
    (∃ text c rest, k.ahead = text ++ c :: rest ∧ k.offset + textSize text ≤ item.span.stop ∧
      ∀ others cause, look ⟨k.offset, text ++ c :: others, cause⟩ = .last item) ∨
    ∃ state j, k.Past k.ahead j ∧ item.span = .empty j.offset ∧
      (k.cause ≠ .endOfInput → item = brokenAt state j)

variable {look other : Cursor → Found} {k j after : Cursor} {place next : Place} {state : State}
  {wanted : String} {c : Char} {rest : List Char} {item : Item}

theorem steady_token (text : List Char) (hfound : look k = .token item next after) (hne : text ≠ [])
    (hpast : k.Past text after) (hstop : item.span.stop ≤ after.offset)
    (hafter : after.offset ≤ item.span.stop + 1)
    (h : ∀ rest cause, Follows item after rest cause →
      look ⟨k.offset, text ++ rest, cause⟩ = .token item next ⟨after.offset, rest, cause⟩) :
    Steady look k := by
  unfold Steady
  rw [hfound]
  exact ⟨text, hne, hpast, hstop, hafter, h⟩

/-- A fault at the character behind the text. -/
theorem steady_fault (text : List Char) (hfound : look k = .last item)
    (hahead : k.ahead = text ++ c :: rest) (hstop : k.offset + textSize text ≤ item.span.stop)
    (h : ∀ others cause, look ⟨k.offset, text ++ c :: others, cause⟩ = .last item) :
    Steady look k := by
  unfold Steady
  rw [hfound]
  exact .inl ⟨text, c, rest, hahead, hstop, h⟩

/-- Nothing is ahead any more, and what is found says so. -/
theorem steady_atEnd (state : State) (hfound : look k = .last item) (hpast : k.Past k.ahead j)
    (hspan : item.span = .empty j.offset)
    (hbroken : k.cause ≠ .endOfInput → item = brokenAt state j) : Steady look k := by
  unfold Steady
  rw [hfound]
  exact .inr ⟨state, j, hpast, hspan, hbroken⟩

theorem steady_exhausted (state : State) (atEnd : Item) (hfound : look k = exhausted state j atEnd)
    (hpast : k.Past k.ahead j) (hspan : atEnd.span = .empty j.offset) : Steady look k := by
  refine steady_atEnd state hfound hpast ?_ fun hcause => if_neg (hpast.cause ▸ hcause)
  split
  · exact hspan
  · rfl

/-- Looks that agree on cursors with the same next character are steady alike. -/
theorem Steady.congr (h : Steady other k)
    (hlook : ∀ j : Cursor, j.ahead.head? = k.ahead.head? → look j = other j) :
    Steady look k := by
  unfold Steady at h ⊢
  rw [hlook k rfl]
  split at h
  · next item next after hfound =>
    obtain ⟨text, hne, hpast, hstop, hafter, hfollow⟩ := h
    refine ⟨text, hne, hpast, hstop, hafter, fun rest cause hrest => ?_⟩
    rw [← hfollow rest cause hrest]
    apply hlook
    rw [hpast.ahead]
    obtain ⟨c, tail, rfl⟩ := List.exists_cons_of_ne_nil hne
    rfl
  · next item hfound =>
    refine h.imp_left fun ⟨text, c, rest, hahead, hstop, hsame⟩ =>
      ⟨text, c, rest, hahead, hstop, fun others cause => ?_⟩
    rw [← hsame others cause]
    apply hlook
    rw [hahead]
    cases text <;> rfl

/-- White space in front takes nothing from a steady look. -/
theorem Steady.skipBlanks (h : Steady look k.skipBlanks) :
    Steady (fun k => look k.skipBlanks) k := by
  obtain ⟨blanks, hblanks, hgap⟩ := k.exists_past_blanks
  -- in front of other text the same white space is skipped, if none begins that text
  have hskip : ∀ (d : Char) (tail others : List Char) (cause : ReadError),
      k.skipBlanks.ahead = d :: tail →
      Cursor.skipBlanks ⟨k.offset, blanks ++ d :: others, cause⟩ =
        ⟨k.skipBlanks.offset, d :: others, cause⟩ := by
    intro d tail others cause hd
    have hblank : ∀ e ∈ (d :: others).head?, Text.isBlank e = false := by
      simpa using Cursor.head_skipWhile hd
    rw [hgap.offset]
    exact (Cursor.skipWhile_append k.offset cause hblanks hblank).2
  cases hfound : look k.skipBlanks with
  | token item next after =>
    simp only [Steady, hfound] at h
    obtain ⟨text, hne, hpast, hstop, hafter, hfollow⟩ := h
    refine steady_token (blanks ++ text) hfound (List.append_ne_nil_of_right_ne_nil blanks hne)
      (hgap.trans hpast) hstop hafter fun rest cause hrest => ?_
    rw [← hfollow rest cause hrest]
    obtain ⟨d, tail, rfl⟩ := List.exists_cons_of_ne_nil hne
    rw [List.append_assoc, List.cons_append, hskip d _ _ cause hpast.ahead]
  | last item =>
    simp only [Steady, hfound] at h
    rcases h with ⟨text, d, rest, hahead, hstop, hsame⟩ | ⟨state, j, hpast, hspan, hbroken⟩
    · have hall : k.ahead = (blanks ++ text) ++ d :: rest := by
        rw [hgap.ahead, hahead, List.append_assoc]
      refine steady_fault (blanks ++ text) hfound hall ?_ fun others cause => ?_
      · rwa [textSize_append, ← Nat.add_assoc, ← hgap.offset]
      · rw [← hsame others cause, List.append_assoc]
        cases text with
        | nil => rw [List.nil_append, hskip d _ _ cause hahead]
        | cons e text => rw [List.cons_append, hskip e _ _ cause hahead]
    · refine steady_atEnd state hfound ?_ hspan fun hcause => hbroken (hgap.cause ▸ hcause)
      rw [hgap.ahead]
      exact hgap.trans hpast

/-- A look that goes by the next character is steady if the look it decides for is. -/
theorem Steady.of_head (h : Steady other k) (hahead : k.ahead = c :: rest)
    (hlook : ∀ (j : Cursor) tail, j.ahead = c :: tail → look j = other j) : Steady look k := by
  refine h.congr fun j hj => ?_
  rw [hahead] at hj
  obtain ⟨tail, htail⟩ := List.head?_eq_some_iff.1 hj
  exact hlook j tail htail

/-- Where the next character decides how to look, it is enough that this way is steady. -/
theorem Steady.of_next {ways : List Char → Cursor → Found}
    (hnext : ∀ c tail others, ways (c :: tail) = ways (c :: others))
    (h : Steady (ways k.ahead) k) : Steady (fun j => ways j.ahead j) k := by
  cases hk : k.ahead with
  | nil =>
    refine (hk ▸ h).congr fun j hj => ?_
    rw [hk] at hj
    rw [List.head?_eq_none_iff.1 hj]
  | cons c rest =>
    refine (hk ▸ h).of_head hk fun j tail hj => ?_
    rw [hj, hnext c tail rest]

theorem Steady.ite_head {p : Option Char → Prop} [DecidablePred p]
    (h : p k.ahead.head? → Steady look k) (hother : ¬p k.ahead.head? → Steady other k) :
    Steady (fun j => if p j.ahead.head? then look j else other j) k := by
  by_cases hp : p k.ahead.head?
  · exact (h hp).congr fun j hj => if_pos (hj ▸ hp)
  · exact (hother hp).congr fun j hj => if_neg (hj ▸ hp)

/-! ### Ways to look -/

theorem steady_single (token : Token) (place : Place) (h : k.ahead = c :: rest) :
    Steady (single token place) k := by
  refine steady_token [c] rfl (List.cons_ne_nil c []) (Cursor.past_next h) (Nat.le_refl _)
    (Nat.le_succ _) fun others cause _ => ?_
  rw [Cursor.next_of_cons h]
  rfl

theorem steady_unwanted (state : State) (wanted : String) (h : k.ahead = c :: rest) :
    Steady (unwanted state wanted c) k :=
  steady_fault [] rfl h (Nat.le_refl _) fun _ _ => rfl

theorem past_of_nil (h : k.ahead = []) : k.Past k.ahead k := by
  rw [h]
  exact k.past_refl

theorem steady_ended (state : State) (h : k.ahead = []) : Steady (ended state) k :=
  steady_exhausted state _ rfl (past_of_nil h) rfl

theorem steady_refused : Steady (refused state wanted) k := by
  cases h : k.ahead with
  | nil => exact steady_exhausted _ _ (by rw [refused, h]) (past_of_nil h) rfl
  | cons c rest =>
    have hnext := Cursor.next_of_cons h
    have hfound : refused state wanted k = unwanted state wanted c k.next := by rw [refused, h]
    refine steady_fault [] hfound h ?_ fun others cause => ?_
    · rw [hnext]
      exact Nat.le_add_right _ _
    · rw [hnext]
      rfl

theorem steady_quoted (state : State) (place : Place) (h : k.ahead = '"' :: rest) :
    Steady (quoted state place) k := by
  have hopen := Cursor.past_next h
  have hover := k.next.past_skipWhile (· ≠ '"')
  have hinside : ∀ c ∈ k.next.ahead.takeWhile (· ≠ '"'), decide (c ≠ '"') = true :=
    fun c hc => List.all_eq_true.1 List.all_takeWhile c hc
  generalize hname : k.next.ahead.takeWhile (· ≠ '"') = name at hover hinside
  generalize hclosing : k.next.skipWhile (· ≠ '"') = closing at hover
  cases hahead : closing.ahead with
  | nil =>
    have hfound : quoted state place k =
        exhausted state closing (faultAt closing.offset (.unterminated k.offset)) := by
      simp only [quoted, hclosing, hahead]
    have hall := hopen.trans hover
    have htext := hall.ahead
    rw [hahead, List.append_nil] at htext
    exact steady_exhausted _ _ hfound (htext ▸ hall) rfl
  | cons c tail =>
    obtain rfl : c = '"' := by
      rw [← hclosing] at hahead
      simpa using Cursor.head_skipWhile hahead
    have hclose := Cursor.past_next hahead
    have hfound : quoted state place k =
        .token ⟨.name (String.ofList name), k.next.offset, closing.offset⟩ place closing.next := by
      simp only [quoted, hclosing, hahead, hname]
    refine steady_token ('"' :: (name ++ ['"'])) hfound (List.cons_ne_nil _ _)
      (hopen.trans (hover.trans hclose)) hclose.offset_le (Nat.le_of_eq hclose.offset) ?_
    intro others cause _
    have hend : ∀ c ∈ ('"' :: others).head?, decide (c ≠ '"') = false := by simp
    obtain ⟨htake, hskip⟩ := Cursor.skipWhile_append k.next.offset cause hinside hend
    have hnext : Cursor.next ⟨k.offset, '"' :: (name ++ ['"']) ++ others, cause⟩ =
        ⟨k.next.offset, name ++ '"' :: others, cause⟩ := by
      rw [append_quote, Cursor.next_of_cons h]
      rfl
    simp only [quoted, hnext, htake, hskip, hclose.offset, hover.offset]
    rfl

theorem steady_bare (h : k.ahead = c :: rest) (hc : Text.isLetter c = true) : Steady bare k := by
  have hover := k.past_skipWhile Text.isLetter
  have hinside : ∀ c ∈ k.ahead.takeWhile Text.isLetter, Text.isLetter c = true :=
    fun c hc => List.all_eq_true.1 List.all_takeWhile c hc
  refine steady_token _ rfl ?_ hover (Nat.le_refl _) (Nat.le_succ _) fun others cause hfollow => ?_
  · rw [h, List.takeWhile_cons_of_pos hc]
    nofun
  · have hend : ∀ c ∈ others.head?, Text.isLetter c = false := by
      intro c hc
      rcases (hfollow rfl).1 with hsame | hdelimited
      · rw [hsame] at hc
        obtain ⟨tail, htail⟩ := List.head?_eq_some_iff.1 hc
        exact Cursor.head_skipWhile htail
      · exact (hdelimited c hc).1
    obtain ⟨htake, hskip⟩ := Cursor.skipWhile_append k.offset cause hinside hend
    simp only [bare, htake, hskip]
    rfl

/-- In front of text that ends them, digits are a number or too large for one. -/
theorem numeral_of_append {digits others : List Char} {cause : ReadError} (place : Place)
    (offset : Nat) (hinside : ∀ c ∈ digits, c.isDigit = true) (hend : NoDigit others)
    (hwhole : others = [] → cause = .endOfInput) :
    (∀ value, Text.Numeral.read (String.ofList digits) = .ok value →
      numeral place ⟨offset, digits ++ others, cause⟩ =
        .token ⟨.integer value, offset, offset + textSize digits⟩ place
          ⟨offset + textSize digits, others, cause⟩) ∧
    ∀ why, Text.Numeral.read (String.ofList digits) = .error why →
      numeral place ⟨offset, digits ++ others, cause⟩ =
        .last (faultAt (offset + textSize digits)
          (.invalidInteger (String.ofList digits) why)) := by
  obtain ⟨htake, hskip⟩ := Cursor.skipWhile_append offset cause hinside hend
  have hread : ¬(others = [] ∧ cause ≠ .endOfInput) := fun h => h.2 (hwhole h.1)
  refine ⟨fun value hvalue => ?_, fun why hwhy => ?_⟩
  · simp only [numeral, htake, hskip, hvalue]
    exact if_neg hread
  · simp only [numeral, htake, hskip, hwhy]
    exact if_neg hread

theorem steady_numeral (hhead : k.ahead.head?.any Char.isDigit = true) :
    Steady (numeral place) k := by
  have hover := k.past_skipWhile Char.isDigit
  have hstop := noDigit_skipWhile k
  obtain ⟨hne, hinside⟩ := digits_of_head hhead
  generalize hafter : k.skipWhile Char.isDigit = after at hover hstop
  generalize hdigits : k.ahead.takeWhile Char.isDigit = digits at hover hne hinside
  by_cases hbroken : after.ahead = [] ∧ k.cause ≠ .endOfInput
  · have hall := hover.ahead
    rw [hbroken.1, List.append_nil] at hall
    refine steady_exhausted .index (brokenAt .index after) ?_ (hall ▸ hover) rfl
    simp only [numeral, hafter, exhausted, if_pos hbroken, ite_self]
  obtain ⟨offset, ahead, cause⟩ := after
  obtain rfl : cause = k.cause := hover.cause
  obtain rfl : offset = k.offset + textSize digits := hover.offset
  have hahead : k.ahead = digits ++ ahead := hover.ahead
  have hwhole : ahead = [] → k.cause = .endOfInput := fun h =>
    Classical.not_not.1 fun hcause => hbroken ⟨h, hcause⟩
  obtain ⟨htoken, hfault⟩ :=
    numeral_of_append place k.offset hinside hstop hwhole
  rw [← hahead] at htoken hfault
  cases hread : Text.Numeral.read (String.ofList digits) with
  | ok value =>
    refine steady_token digits (htoken value hread) hne hover (Nat.le_refl _) (Nat.le_succ _) ?_
    intro others cause hfollow
    obtain ⟨hends, hends'⟩ := hfollow rfl
    refine (numeral_of_append place k.offset hinside (fun c hc => ?_) hends').1 value hread
    rcases hends with hhead | hdelimited
    · exact hstop c (hhead ▸ hc)
    · exact (hdelimited c hc).2
  | error why =>
    cases ahead with
    | nil =>
      have hall : k.Past k.ahead ⟨k.offset + textSize digits, [], k.cause⟩ := by
        rw [hahead, List.append_nil]
        exact hover
      exact steady_atEnd .index (hfault why hread) hall rfl
        fun hcause => absurd (hwhole rfl) hcause
    | cons c tail =>
      refine steady_fault digits (hfault why hread) hahead (Nat.le_refl _) fun others cause => ?_
      have hend : NoDigit (c :: others) := hstop
      have hnone : c :: others = [] → cause = .endOfInput := fun h =>
        absurd h (List.cons_ne_nil c others)
      exact (numeral_of_append place k.offset hinside hend hnone).2 why hread

theorem steady_number (place : Place) : Steady (number place) k :=
  .ite_head (p := fun head => head.any Char.isDigit = true) steady_numeral fun _ => steady_refused

/-- A character is required, and it is a token. -/
theorem steady_required (c : Char) (token : Token) (place : Place) (h : Steady look k) :
    Steady (fun j => if j.ahead.head? = some c then single token place j else look j) k := by
  refine .ite_head (p := (· = some c)) (fun hhead => ?_) fun _ => h
  obtain ⟨rest, hahead⟩ := List.head?_eq_some_iff.1 hhead
  exact steady_single token place hahead

theorem steady_closing : Steady closing k :=
  steady_required ']' .rightBracket (.selected .index) steady_refused

/-! ### Where the text ahead decides how to look -/

theorem steady_starting : Steady (fun j => starting j.ahead j) k := by
  refine .of_next (fun _ _ _ => rfl) ?_
  generalize h : k.ahead = ahead
  fun_cases starting ahead with
  | case1 => exact steady_single .period .period h
  | case2 => exact steady_unwanted .expression "'.'" h
  | case3 => exact steady_ended .expression h

theorem steady_selecting : Steady (fun j => selecting j.ahead j) k := by
  refine .of_next (fun _ _ _ => rfl) ?_
  generalize h : k.ahead = ahead
  fun_cases selecting ahead with
  | case1 => exact steady_single .period .period h
  | case2 => exact steady_quoted .quotedName (.selected .quotedName) h
  | case3 => exact steady_single .leftBracket .bracket h
  | case4 c rest _ _ _ hletter => exact steady_bare h hletter
  | case5 => exact steady_unwanted .expression "'.'" h
  | case6 => exact steady_ended .filter h

theorem steady_bracketed : Steady (fun j => bracketed j.ahead j) k := by
  refine .of_next (fun _ _ _ => rfl) ?_
  generalize h : k.ahead = ahead
  fun_cases bracketed ahead with
  | case1 => exact steady_single .rightBracket (.selected .index) h
  | case2 => exact steady_quoted .index .close h
  | case3 | case4 => exact steady_number .integer

theorem steady_connective : Steady connective k := by
  have hsteady : Steady (fun j => connecting j.ahead j) k := by
    refine .of_next (fun _ _ _ => rfl) ?_
    generalize h : k.ahead = ahead
    fun_cases connecting ahead with
    | case1 => exact steady_single .pipe .filter h
    | case2 => exact steady_single .comma .filter h
    | case3 => exact steady_single .period .period h
    | case4 => exact steady_unwanted .connector "'|' or ','" h
    | case5 => exact steady_ended .connector h
  exact hsteady

end Found

open Found

/-- **Every place looks in a steady way.** -/
theorem Place.steady (place : Place) (k : Cursor) : Steady (fun j => place.find j) k := by
  cases place with
  | start => exact steady_starting.skipBlanks
  | filter => exact (steady_required '.' .period .period steady_refused).skipBlanks
  | period => exact steady_selecting.skipBlanks
  | bracket => exact steady_bracketed.skipBlanks
  | integer => exact (steady_required ':' .colon .bound steady_closing).skipBlanks
  | bound => exact (steady_number .close).skipBlanks
  | close => exact steady_closing.skipBlanks
  | selected within =>
    have hconnective : Steady (fun j => connective j.skipBlanks) k := steady_connective.skipBlanks
    cases h : k.ahead with
    | nil =>
      by_cases hcause : k.cause = .endOfInput
      · have hsame : k.skipBlanks = k := Cursor.skipWhile_of_head (by simp [h])
        have hended : (Place.selected within).find k = ended .connector k := by
          simp only [find, h, if_pos hcause, hsame, connective, connecting]
        exact steady_exhausted _ _ hended (past_of_nil h) rfl
      · refine steady_atEnd within ?_ (past_of_nil h) rfl fun _ => rfl
        simp only [find, h, if_neg hcause]
    | cons c rest =>
      by_cases hquestion : c = '?'
      · subst hquestion
        refine (steady_single .question .marked h).of_head h fun j tail hj => ?_
        simp only [find, hj]
      · refine hconnective.of_head h fun j tail hj => ?_
        have hahead : j.ahead = [] ++ c :: tail := hj
        exact find_of_whole (.inr ⟨within, rfl⟩) hahead (List.forall_mem_nil _) hquestion
  | marked => exact steady_connective.skipBlanks

section
variable {place next : Place} {k after : Cursor} {item : Item}

/-- A token is found in front of whatever can follow it. -/
theorem Place.steady_of_token (found : place.find k = .token item next after) :
    ∃ text, text ≠ [] ∧ k.Past text after ∧
      item.span.stop ≤ after.offset ∧ after.offset ≤ item.span.stop + 1 ∧
      ∀ rest cause, Follows item after rest cause →
        place.find ⟨k.offset, text ++ rest, cause⟩ =
          .token item next ⟨after.offset, rest, cause⟩ := by
  have h := place.steady k
  simp only [Steady, found] at h
  exact h

/-- A fault at a character is found whatever comes behind it, and any other last item tells
that nothing is ahead. -/
theorem Place.steady_of_last (found : place.find k = .last item) :
    (∃ text c rest, k.ahead = text ++ c :: rest ∧ k.offset + textSize text ≤ item.span.stop ∧
      ∀ others cause, place.find ⟨k.offset, text ++ c :: others, cause⟩ = .last item) ∨
    ∃ state j, k.Past k.ahead j ∧ item.span = .empty j.offset ∧
      (k.cause ≠ .endOfInput → item = brokenAt state j) := by
  have h := place.steady k
  simp only [Steady, found] at h
  exact h

end

end Lexer
end PathFilter
