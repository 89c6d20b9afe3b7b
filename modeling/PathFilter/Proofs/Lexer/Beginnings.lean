import PathFilter.Proofs.Lexer.Accepts
import PathFilter.Proofs.Lexer.Lookahead
import PathFilter.Proofs.Lexer.Terminal
import PathFilter.Proofs.Reader.Joined

/-! Sources that begin alike.

A look that is steady does not depend on what comes further on, and so neither do the
items. Two sources with a common beginning have the items in common that stop inside it
(`lex_local`). A source that is not valid and its longest valid prefix differ only in why
no more can be read: what the one has in front of its fault the other has too, and the
fault is either the other's own or tells where the broken bytes are (`lex_of_invalid`). -/
namespace PathFilter
open Lexer

/-- The longest valid prefix of a source. -/
def validPrefix (source : ByteArray) : ByteArray :=
  source.extract 0 (validLength source source.size)

theorem utf8Encode_validText_eq (source : ByteArray) :
    (validText source).utf8Encode = validPrefix source := utf8Encode_validText source

theorem size_validPrefix (source : ByteArray) :
    (validPrefix source).size = validLength source source.size := by
  rw [← utf8Encode_validText_eq, size_utf8Encode, textSize_validText]

theorem isValidUTF8_validPrefix (source : ByteArray) : (validPrefix source).IsValidUTF8 :=
  isValidUTF8_validLength source source.size

/-! ### The same text, and another reason to end -/

/-- The cursor as if the source ended where nothing can be read any more. -/
def Cursor.whole (k : Cursor) : Cursor := {k with cause := .endOfInput}

namespace Lexer

section
variable {place next : Place} {k after : Cursor} {item : Item} {items others : List Item}

theorem Place.find_whole_token (h : place.find k = .token item next after) :
    place.find k.whole = .token item next after.whole := by
  obtain ⟨text, -, hpast, -, -, hfollow⟩ := Place.steady_of_token h
  have hwhole : k.whole = ⟨k.offset, text ++ after.ahead, .endOfInput⟩ := by
    rw [Cursor.whole, ← hpast.ahead]
  rw [hwhole]
  exact hfollow after.ahead .endOfInput fun _ => ⟨.inl rfl, fun _ => rfl⟩

/-- The last item of a source that breaks off is the same without the broken bytes, or it
tells where they are. -/
theorem Place.find_whole_last (h : place.find k = .last item) (hcause : k.cause ≠ .endOfInput) :
    place.find k.whole = .last item ∨
      ∃ state j, k.Past k.ahead j ∧ item = brokenAt state j := by
  obtain ⟨text, c, rest, hahead, -, hsame⟩ | ⟨state, j, hpast, -, hbroken⟩ :=
    Place.steady_of_last h
  · left
    have hwhole : k.whole = ⟨k.offset, text ++ c :: rest, .endOfInput⟩ := by
      rw [Cursor.whole, ← hahead]
    rw [hwhole]
    exact hsame rest .endOfInput
  · exact .inr ⟨state, j, hpast, hbroken hcause⟩

theorem Lexes.ne_nil (h : Lexes place k items) : items ≠ [] := by
  cases h <;> nofun

/-- **Broken bytes invent no token.** The items are those that come without them, or they
are the first of those and then a fault that tells where the broken bytes are. -/
theorem Lexes.whole (h : Lexes place k items) (hwhole : Lexes place k.whole others)
    (hcause : k.cause ≠ .endOfInput) :
    items = others ∨ ∃ front rest state j, items = front ++ [brokenAt state j] ∧
      others = front ++ rest ∧ rest ≠ [] ∧ k.Past k.ahead j := by
  induction h generalizing others with
  | @token place k item next after items found rest ih =>
    obtain ⟨text, -, hpast, -⟩ := Place.steady_of_token found
    cases hwhole with
    | last found' => cases (Place.find_whole_token found).symm.trans found'
    | token found' rest' =>
      cases (Place.find_whole_token found).symm.trans found'
      refine (ih rest' (hpast.cause ▸ hcause)).imp (congrArg _) ?_
      rintro ⟨front, more, state, j, rfl, rfl, hne, hj⟩
      exact ⟨item :: front, more, state, j, rfl, rfl, hne, hpast.ahead ▸ hpast.trans hj⟩
  | @last place k item found =>
    refine (Place.find_whole_last found hcause).imp (fun hsame => ?_) ?_
    · exact (Lexes.last hsame).unique hwhole
    · rintro ⟨state, j, hj, rfl⟩
      exact ⟨[], others, state, j, rfl, rfl, hwhole.ne_nil, hj⟩

end
end Lexer

/-! ### The same text, and then another -/

namespace Cursor

/-- At one offset, with the same text ahead up to the bound. -/
def Agree (bound : Nat) (k j : Cursor) : Prop :=
  k.offset = j.offset ∧ ∃ text rest others, k.ahead = text ++ rest ∧ j.ahead = text ++ others ∧
    k.offset + textSize text = bound

variable {bound : Nat} {k j : Cursor}

theorem Agree.symm (h : Agree bound k j) : Agree bound j k := by
  obtain ⟨hoffset, text, rest, others, hk, hj, hbound⟩ := h
  exact ⟨hoffset.symm, text, others, rest, hj, hk, hoffset ▸ hbound⟩

end Cursor

/-- Of two beginnings of one text, the smaller begins the other. -/
theorem isPrefix_of_textSize_le {a b rest others : List Char} (h : a ++ rest = b ++ others)
    (hle : textSize a ≤ textSize b) : a <+: b := by
  rcases List.append_eq_append_iff.1 h with ⟨tail, rfl, -⟩ | ⟨tail, rfl, -⟩
  · exact List.prefix_append a tail
  · cases tail with
    | nil => simp
    | cons c tail =>
      have := c.utf8Size_pos
      rw [textSize_append, textSize_cons] at hle
      omega

namespace Lexer

/-- The item that is found. -/
def Found.item : Found → Item
  | .token item _ _ => item
  | .last item => item

section
variable {bound : Nat} {place next : Place} {k j after : Cursor} {item : Item}
  {items others : List Item}

/-- A token that stops in front of the bound is found on both sides, and behind it the text
is still the same. -/
theorem Place.find_agree_token (hkj : k.Agree bound j) (h : place.find k = .token item next after)
    (hstop : item.span.stop < bound) :
    ∃ other, place.find j = .token item next other ∧ after.Agree bound other := by
  obtain ⟨hoffset, text, rest, others, hk, hj, hbound⟩ := hkj
  obtain ⟨shown, -, hpast, hle, hafter, hfollow⟩ := Place.steady_of_token h
  -- what is looked at is no longer than the common text
  have hshown : shown <+: text := by
    have := hpast.offset
    exact isPrefix_of_textSize_le (hpast.ahead.symm.trans hk) (by omega)
  obtain ⟨common, rfl⟩ := hshown
  rw [List.append_assoc] at hj hk
  have hahead : after.ahead = common ++ rest := by
    have := hpast.ahead.symm.trans hk
    exact List.append_cancel_left this
  have hcommon : after.offset + textSize common = bound := by
    rw [hpast.offset, ← hbound, textSize_append, Nat.add_assoc]
  refine ⟨⟨after.offset, common ++ others, j.cause⟩, ?_, rfl, common, rest, others, hahead, rfl,
    hcommon⟩
  have hj' : j = ⟨k.offset, shown ++ (common ++ others), j.cause⟩ := by rw [hoffset, ← hj]
  rw [hj']
  refine hfollow _ _ fun heq => ?_
  -- a token that nothing closes is followed by a character of the common text
  cases common with
  | nil =>
    rw [textSize_nil] at hcommon
    omega
  | cons c common =>
    rw [hahead]
    exact ⟨.inl rfl, nofun⟩

theorem Place.find_agree_last (hkj : k.Agree bound j) (h : place.find k = .last item)
    (hstop : item.span.stop < bound) : place.find j = .last item := by
  obtain ⟨hoffset, text, rest, others, hk, hj, hbound⟩ := hkj
  obtain ⟨shown, c, tail, hahead, hle, hsame⟩ | ⟨state, l, hpast, hspan, -⟩ :=
    Place.steady_of_last h
  · have hshown : shown <+: text :=
      isPrefix_of_textSize_le (hahead.symm.trans hk) (by omega)
    obtain ⟨common, rfl⟩ := hshown
    rw [List.append_assoc] at hj hk
    have hcommon := List.append_cancel_left (hahead.symm.trans hk)
    cases common with
    | nil =>
      rw [List.append_nil] at hbound
      omega
    | cons d common =>
      obtain ⟨rfl, rfl⟩ := List.cons.inj hcommon
      have hj' : j = ⟨k.offset, shown ++ c :: (common ++ others), j.cause⟩ := by
        rw [hoffset, ← List.cons_append, ← hj]
      rw [hj']
      exact hsame _ _
  · -- nothing is ahead any more, so the item stops where the whole text does
    have hall := hpast.offset
    rw [hk, textSize_append] at hall
    rw [hspan] at hstop
    change l.offset < bound at hstop
    omega

/-- An item that stops in front of the bound is found on both sides. -/
theorem Place.item_agree (hkj : k.Agree bound j) (hstop : (place.find k).item.span.stop < bound) :
    (place.find j).item = (place.find k).item := by
  cases h : place.find k with
  | token item next after =>
    rw [h] at hstop
    obtain ⟨other, hj, -⟩ := Place.find_agree_token hkj h hstop
    rw [hj]
    rfl
  | last item =>
    rw [h] at hstop
    rw [Place.find_agree_last hkj h hstop]

/-- No item stops in front of where the first one is looked for. -/
theorem Lexes.le_stop (h : Lexes place k items) :
    ∀ item ∈ items, k.offset ≤ item.span.stop := by
  induction h with
  | @token place k item next after items found rest ih =>
    obtain ⟨text, hne, hpast, hle, hafter, -⟩ := Place.steady_of_token found
    have hpos : 0 < textSize text := by
      obtain ⟨c, tail, rfl⟩ := List.exists_cons_of_ne_nil hne
      exact Nat.lt_of_lt_of_le c.utf8Size_pos (Nat.le_add_right _ _)
    have := hpast.offset
    intro i hi
    rcases List.mem_cons.1 hi with rfl | hi
    · omega
    · have := ih i hi
      omega
  | @last place k item found =>
    intro i hi
    obtain rfl := List.mem_singleton.1 hi
    rcases Place.steady_of_last found with ⟨text, c, rest, -, hle, -⟩ | ⟨state, j, hpast, hspan, -⟩
    · omega
    · rw [hspan]
      exact hpast.offset_le

/-- Where the first item does not stop in front of the bound, none does. -/
theorem Lexes.filter_eq_nil (h : Lexes place k items)
    (hle : ¬(place.find k).item.span.stop < bound) :
    items.filter (fun item => item.span.stop < bound) = [] := by
  refine List.filter_eq_nil_iff.2 fun i hi => ?_
  rw [decide_eq_true_iff]
  cases h with
  | token found rest =>
    obtain ⟨-, -, -, hafter, -⟩ := Place.steady_of_token found
    rw [found] at hle
    rcases List.mem_cons.1 hi with rfl | hi
    · exact hle
    · have := rest.le_stop i hi
      simp only [Found.item] at hle
      omega
  | last found =>
    rw [found] at hle
    obtain rfl := List.mem_singleton.1 hi
    exact hle

/-- Where the first item of one side does not stop in front of the bound, none does on
either side. -/
theorem Lexes.filter_agree (h : Lexes place k items) (h' : Lexes place j others)
    (hkj : k.Agree bound j) (hstop : ¬(place.find k).item.span.stop < bound) :
    items.filter (fun item => item.span.stop < bound) =
      others.filter (fun item => item.span.stop < bound) := by
  have hstop' : ¬(place.find j).item.span.stop < bound := fun hj =>
    hstop (Place.item_agree hkj.symm hj ▸ hj)
  rw [h.filter_eq_nil hstop, h'.filter_eq_nil hstop']

/-- **Up to the bound the items are the same.** -/
theorem Lexes.agree (h : Lexes place k items) (h' : Lexes place j others)
    (hkj : k.Agree bound j) :
    items.filter (fun item => item.span.stop < bound) =
      others.filter (fun item => item.span.stop < bound) := by
  induction h generalizing j others with
  | @token place k item next after items found rest ih =>
    by_cases hstop : item.span.stop < bound
    · obtain ⟨after', hj, hafter⟩ := Place.find_agree_token hkj found hstop
      cases h' with
      | last found' => cases hj.symm.trans found'
      | token found' rest' =>
        cases hj.symm.trans found'
        simp only [List.filter_cons, ih rest' hafter]
    · exact (Lexes.token found rest).filter_agree h' hkj (found ▸ hstop)
  | @last place k item found =>
    by_cases hstop : item.span.stop < bound
    · rw [(Lexes.last (Place.find_agree_last hkj found hstop)).unique h']
    · exact (Lexes.last found).filter_agree h' hkj (found ▸ hstop)

end
end Lexer

/-! ### From the beginning -/

/-- **Lexing is local.** Whatever comes behind a text, the items that stop inside it are the
same; and if at least the next character stays, so are those that stop at its end. -/
theorem lex_local (driver : Driver) (p : String) (t t' : ByteArray) :
    (lex driver none (p.toUTF8 ++ t)).filter (fun item => item.span.stop < p.utf8ByteSize) =
      (lex driver none (p.toUTF8 ++ t')).filter (fun item => item.span.stop < p.utf8ByteSize) ∧
    ∀ c : Char,
      (lex driver none ((p.push c).toUTF8 ++ t)).filter
          (fun item => item.span.stop ≤ p.utf8ByteSize) =
        (lex driver none ((p.push c).toUTF8 ++ t')).filter
          (fun item => item.span.stop ≤ p.utf8ByteSize) := by
  have hlocal : ∀ q : String,
      (lex driver none (q.toUTF8 ++ t)).filter (fun item => item.span.stop < q.utf8ByteSize) =
        (lex driver none (q.toUTF8 ++ t')).filter
          (fun item => item.span.stop < q.utf8ByteSize) := by
    intro q
    have hq : q.toUTF8 = q.toList.utf8Encode := String.utf8Encode_toList.symm
    have hsize : textSize q.toList = q.utf8ByteSize := by
      rw [← size_utf8Encode, ← hq]
      rfl
    rw [lex_eq_itemsFrom, lex_eq_itemsFrom]
    refine (lexes_of_source _).agree (lexes_of_source _) ?_
    rw [hq, Reader.cursor_of_begins, Reader.cursor_of_begins]
    exact ⟨rfl, q.toList, validText t, validText t', rfl, rfl, hsize ▸ Nat.zero_add _⟩
  refine ⟨hlocal p, fun c => ?_⟩
  -- an item that stops at the end of the text stops inside the text with the next character
  have hwithin : ∀ items : List Item,
      items.filter (fun item => item.span.stop ≤ p.utf8ByteSize) =
        (items.filter fun item => item.span.stop < (p.push c).utf8ByteSize).filter
          fun item => item.span.stop ≤ p.utf8ByteSize := by
    intro items
    have hpos := c.utf8Size_pos
    rw [List.filter_filter]
    refine List.filter_congr fun item _ => ?_
    rw [← Bool.decide_and, String.utf8ByteSize_push, decide_eq_decide]
    omega
  rw [hwithin, hlocal (p.push c), ← hwithin]

theorem Token.kind_eq_illegal {t : Token} (h : t.isTerminal = true) (hend : t ≠ .endOfInput) :
    t.kind = .illegal := by
  cases t <;> first | rfl | contradiction

/-- Without its broken bytes, the same lies ahead in a source, and then its end. -/
theorem cursor_validPrefix (source : ByteArray) :
    (Reader.ofBytes (validPrefix source)).cursor = (Reader.ofBytes source).cursor.whole := by
  have := Reader.cursor_of_append [] (validText source) 0
  rw [List.nil_append, utf8Encode_validText_eq, ← Reader.ahead_ofBytes] at this
  exact this

/-- Reading a source that is not valid fails behind its longest valid prefix. -/
theorem cause_of_invalid {source : ByteArray} (h : ¬source.IsValidUTF8) :
    (Reader.ofBytes source).cursor.cause = .invalidUtf8 (validPrefix source).size := by
  have hne : validLength source source.size ≠ source.size := by
    intro hall
    have hvalid := isValidUTF8_validPrefix source
    rw [validPrefix, hall, ByteArray.extract_zero_size] at hvalid
    exact h hvalid
  rw [Reader.cause_ofBytes, ending, if_neg hne, size_validPrefix]

/-- The fault at the broken bytes is the one behind the longest valid prefix. -/
theorem brokenAt_of_past {source : ByteArray} (h : ¬source.IsValidUTF8) {j : Cursor}
    (hj : (Reader.ofBytes source).cursor.Past (Reader.ofBytes source).cursor.ahead j)
    (state : State) : brokenAt state j =
      ⟨.illegal (.read state.label (.invalidUtf8 (validPrefix source).size)),
        .empty (validPrefix source).size⟩ := by
  have hoffset : j.offset = (validPrefix source).size := by
    rw [hj.offset, Reader.ahead_ofBytes, textSize_validText, ← size_validPrefix]
    exact Nat.zero_add _
  rw [brokenAt, hj.cause, cause_of_invalid h, hoffset]
  rfl

/-- **Invalid bytes are never accepted and invent no token.** The stream of a source that is
not valid ends with a fault. In front of it stand the first tokens of the longest valid
prefix, and it is the fault of that prefix or tells where the prefix ends. -/
theorem lex_of_invalid (driver : Driver) {source : ByteArray} (h : ¬source.IsValidUTF8) :
    ∃ front fault front' last, lex driver none source = front ++ [fault] ∧
      Ordinary front ∧ fault.kind = .illegal ∧
      lex driver none (validPrefix source) = front' ++ [last] ∧
      Ordinary front' ∧ last.token.isTerminal = true ∧
      front <+: front' ∧
      (front = front' ∧ fault = last ∨ ∃ state : State, fault =
        ⟨.illegal (.read state.label (.invalidUtf8 (validPrefix source).size)),
          .empty (validPrefix source).size⟩) := by
  have hbroken : (Reader.ofBytes source).cursor.cause ≠ .endOfInput := by
    simp [cause_of_invalid h]
  have hlexes := lexes_of_source source
  have hvalid := lexes_of_source (validPrefix source)
  obtain ⟨front, fault, hitems, hfront, hfault⟩ :=
    itemsFrom_terminated .expression (Reader.ofBytes source)
  obtain ⟨front', last, hothers, hfront', hlast⟩ :=
    itemsFrom_terminated .expression (Reader.ofBytes (validPrefix source))
  rw [hitems] at hlexes
  rw [hothers, cursor_validPrefix] at hvalid
  refine ⟨front, fault, front', last, (lex_eq_itemsFrom driver source).trans hitems, hfront, ?_,
    (lex_eq_itemsFrom driver _).trans hothers, hfront', hlast, ?_⟩
  · -- only where the source can be read to its end is the last item its end
    have hend : fault.token ≠ .endOfInput := by
      intro hend
      have htokens : (front ++ [fault]).map Item.token = front.map Item.token ++ [.endOfInput] := by
        rw [List.map_append, List.map_singleton, hend]
      exact hbroken (hlexes.written htokens).2.1
    exact Token.kind_eq_illegal hfault hend
  · rcases hlexes.whole hvalid hbroken with hsame | ⟨common, rest, state, j, hleft, hright, hne, hj⟩
    · obtain ⟨rfl, hitem⟩ := List.append_inj' hsame rfl
      exact ⟨List.prefix_rfl, .inl ⟨rfl, List.singleton_inj.1 hitem⟩⟩
    · obtain ⟨rfl, hitem⟩ := List.append_inj' hleft rfl
      obtain rfl := List.singleton_inj.1 hitem
      have hfirst : front' = front ++ rest.dropLast := by
        rw [← List.dropLast_append_of_ne_nil hne, ← hright, List.dropLast_concat]
      exact ⟨hfirst ▸ List.prefix_append front rest.dropLast,
        .inr ⟨state, brokenAt_of_past h hj state⟩⟩

/-- Broken bytes behind digits: the number is not read, since more of it could come. -/
theorem lex_of_broken_number :
    let source : ByteArray := ".[12".toUTF8 ++ ⟨#[0xC3, 0x28]⟩
    ¬source.IsValidUTF8 ∧ validPrefix source = ".[12".toUTF8 ∧
      lex .inline none source = [⟨.period, 0, 1⟩, ⟨.leftBracket, 1, 2⟩,
        ⟨.illegal (.read State.index.label (.invalidUtf8 4)), .empty 4⟩] ∧
      (lex .inline none (validPrefix source)).map Item.token = [.period, .leftBracket,
        .integer 12, .illegal (.expected State.index.label "']'" none)] ∧
      ∃ front fault front' last, lex .inline none source = front ++ [fault] ∧
        Ordinary front ∧ fault.kind = .illegal ∧
        lex .inline none (validPrefix source) = front' ++ [last] ∧
        Ordinary front' ∧ last.token.isTerminal = true ∧
        front <+: front' ∧
        (front = front' ∧ fault = last ∨ ∃ state : State, fault =
          ⟨.illegal (.read state.label (.invalidUtf8 (validPrefix source).size)),
            .empty (validPrefix source).size⟩) := by
  have hbroken : ¬(".[12".toUTF8 ++ ⟨#[0xC3, 0x28]⟩ : ByteArray).IsValidUTF8 := by decide +kernel
  exact ⟨hbroken, by decide +kernel, by decide +kernel, by decide +kernel,
    lex_of_invalid .inline hbroken⟩

end PathFilter
