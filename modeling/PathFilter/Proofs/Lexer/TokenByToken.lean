import PathFilter.Proofs.Lexer.Place
import PathFilter.Proofs.Text.Classes

/-! A run of the lexer offers its items token by token.

`itemsFrom_lexes`: in every state that fits a place, the run offers exactly the
items that are found from that place on. The states are followed once, scan by
scan, and what a whole source is cut into is `Lexes .start` of the cursor at its
beginning (`lexes_of_source`).

The induction is on the characters ahead; a state that consumes none leads to a
state of a smaller rank. -/
namespace PathFilter.Lexer
open Scan Found

/-- The state can be entered at the place. -/
inductive Fits : State → Place → Cursor → Prop where
  | start {k : Cursor} : Fits .expression .start k
  /-- After a period that is a filter of its own. -/
  | again {k : Cursor} {c : Char} {rest : List Char} (h : k.skipBlanks.ahead = c :: rest)
      (hquote : c ≠ '"') (hbracket : c ≠ '[') (hletter : Text.isLetter c = false) :
      Fits .expression .period k
  | filter {k : Cursor} : Fits .filter .filter k
  /-- A period follows. -/
  | period {k : Cursor} {place : Place} {rest : List Char} (h : k.skipBlanks.ahead = '.' :: rest)
      (hplace : place = .start ∨ place = .period ∨ place = .marked) : Fits .filter place k
  | bareName {k : Cursor} {c : Char} {rest : List Char} (h : k.ahead = c :: rest)
      (hletter : Text.isLetter c = true) : Fits .bareName .period k
  | quotedName {k : Cursor} {rest : List Char} (h : k.ahead = '"' :: rest) :
      Fits .quotedName .period k
  | index {k : Cursor} {rest : List Char} (h : k.ahead = '[' :: rest) : Fits .index .period k
  | connector {k : Cursor} : Fits .connector .marked k

/-- How long a run from a state and a cursor can be. -/
def measure (state : State) (k : Cursor) : Nat := 3 * k.ahead.length + state.rank

/-- Runs that are shorter than the bound offer what is found. -/
def FoundBelow (bound : Nat) : Prop :=
  ∀ state place (r : Reader), measure state r.cursor < bound → Fits state place r.cursor →
    Lexes place r.cursor (itemsFrom state r)

variable {state : State} {place next : Place} {r : Reader} {f : Unit → Scan (Option State)}

/-! ### Tokens of one character -/

theorem offset_eq {k : Cursor} (h : r.cursor = k) : r.offset = k.offset := congrArg Cursor.offset h

/-- A character that was read is a token of its own. -/
theorem lexes_single (next : Place) {token : Token} {k : Cursor} {items : List Item}
    (hfind : place.find k = single token next r.cursor)
    (hrest : Lexes next r.read.2.cursor items) :
    Lexes place k (⟨token, r.offset, r.read.2.offset⟩ :: items) := by
  rw [offset_eq r.cursor_read]
  rw [r.cursor_read] at hrest
  exact .token hfind hrest

/-! ### The end of the source -/

/-- Nothing has to be ahead, and nothing is. -/
theorem lexes_ended {k : Cursor} {g : Option Char → Scan (Option State)}
    (hfind : place.find k = ended state r.cursor) (ha : r.cursor.ahead = [])
    (hg : g none = finish) : Lexes place k (toCome state (peek >>= g) r) := by
  by_cases he : r.cursor.cause = .endOfInput
  · rw [toCome_peek_end ha he, hg, toCome_finish, offset_eq r.cursor_peek]
    exact .last (hfind.trans (by simp only [ended, exhausted, if_pos he]))
  · rw [toCome_peek_broken ha he]
    exact .last (hfind.trans (by simp only [ended, exhausted, if_neg he]))

/-! ### Parts of a filter -/

/-- The character that has to stand here is read, and scanning goes on. -/
theorem toCome_expect {c : Char} {rest : List Char} {wanted : String}
    (h : r.cursor.ahead = c :: rest) :
    toCome state (expect c wanted >>= f) r = toCome state (f ()) r.read.2 := by
  rw [toCome_demand, toCome_taken rfl h, if_pos rfl]
  rfl

/-- Anything else is refused. -/
theorem toCome_expect_refused (state : State) (wanted : String) {c : Char}
    (h : r.cursor.ahead.head? ≠ some c) :
    ∃ item, refused state wanted r.cursor = .last item ∧
      toCome state (expect c wanted >>= f) r = [item] := by
  unfold refused
  rw [toCome_demand]
  cases ha : r.cursor.ahead with
  | nil =>
    by_cases he : r.cursor.cause = .endOfInput
    · refine ⟨_, by rw [exhausted, if_pos he], ?_⟩
      rw [toCome_taken_end rfl ha he, if_neg (by simp),
        Reader.read_of_error (Reader.read_of_ahead_nil ha)]
      rfl
    · refine ⟨_, by rw [exhausted, if_neg he], ?_⟩
      rw [toCome_taken_broken rfl ha he]
  | cons d rest =>
    have hd : d ≠ c := fun hd => h (by rw [ha, hd]; rfl)
    refine ⟨_, rfl, ?_⟩
    rw [toCome_taken rfl ha, if_neg (by simpa using hd), ← Reader.cursor_read]
    rfl

/-- A question mark can follow directly; then the connector is next. -/
theorem lexes_finishFilter {bound : Nat} (ih : FoundBelow bound)
    (hbound : 3 * r.cursor.ahead.length + 1 < bound) :
    Lexes (.selected state) r.cursor (toCome state finishFilter r) := by
  have hplain : Place.find r.cursor (.selected state) = Place.find r.cursor .marked →
      Lexes (.selected state) r.cursor (itemsFrom .connector r.peek.2) := by
    intro hfind
    have := ih .connector .marked r.peek.2 (by rw [r.cursor_peek]; exact hbound) .connector
    rw [r.cursor_peek] at this
    exact this.congr hfind
  unfold finishFilter optionalMark
  rw [Scan.bind_assoc]
  cases ha : r.cursor.ahead with
  | nil =>
    by_cases he : r.cursor.cause = .endOfInput
    · rw [toCome_peek_end ha he, if_neg (by simp)]
      exact hplain (by simp only [Place.find, ha, if_pos he])
    · rw [toCome_peek_broken ha he]
      exact .last (by simp only [Place.find, ha, if_neg he])
  | cons c rest =>
    rw [toCome_peek ha]
    by_cases hc : c = '?'
    · subst hc
      rw [if_pos rfl, Scan.bind_assoc, toCome_offset, Scan.bind_assoc, toCome_bump, toCome_emit]
      refine lexes_single (r := r.peek.2) .marked ?_ ?_
      · rw [r.cursor_peek]
        simp only [Place.find, ha]
      · apply ih .connector .marked _ _ .connector
        rw [Reader.cursor_read, r.cursor_peek]
        have := r.cursor.length_next_le
        simp only [measure, State.rank]
        omega
    · rw [if_neg (by simpa using hc)]
      exact hplain (by simp [Place.find, ha, hc])

/-- A name in quotes, and what comes after it. -/
theorem lexes_quotedName (next : Place) {k : Cursor} {rest : List Char}
    (hfind : place.find k = quoted state next r.cursor) (h : r.cursor.ahead = '"' :: rest)
    (hrest : ∀ after : Reader, after.cursor.ahead.length < r.cursor.ahead.length →
      Lexes next after.cursor (toCome state (f ()) after)) :
    Lexes place k (toCome state (quotedName >>= f) r) := by
  have hclosing : (r.read.2.skipWhile (· ≠ '"')).cursor = r.cursor.next.skipWhile (· ≠ '"') := by
    rw [Reader.cursor_skipWhile, Reader.cursor_read]
  generalize hr : r.read.2.skipWhile (· ≠ '"') = closing at hclosing
  unfold quotedName
  rw [Scan.bind_assoc, toCome_offset, Scan.bind_assoc, toCome_expect h, Scan.bind_assoc,
    toCome_offset, Scan.bind_assoc, toCome_skipWhile, hr, Scan.bind_assoc]
  simp only [quoted, ← hclosing] at hfind
  cases ha : closing.cursor.ahead with
  | nil =>
    simp only [ha] at hfind
    by_cases he : closing.cursor.cause = .endOfInput
    · rw [toCome_peek_end ha he, if_pos rfl, Scan.bind_assoc, toCome_illegal,
        offset_eq closing.cursor_peek]
      rw [exhausted, if_pos he] at hfind
      exact .last hfind
    · rw [toCome_peek_broken ha he]
      rw [exhausted, if_neg he] at hfind
      exact .last hfind
  | cons c tail =>
    simp only [ha] at hfind
    have hsize : r.read.2.offset ≤ r.read.2.source.size := by
      rw [Reader.source_read, Reader.read_of_ok (Reader.read_of_ahead_cons h)]
      exact Reader.le_size_of_ahead h
    have hsource : closing.peek.2.source = r.read.2.source := by
      rw [Reader.source_peek, ← hr, Reader.source_skipWhile]
    have htext := Reader.slice_skipWhile (· ≠ '"') hsize hsource
      (by rw [Reader.cursor_peek, hclosing, Reader.cursor_read])
    rw [toCome_peek ha, if_neg (by simp), closeName, Scan.bind_assoc, toCome_textSince htext,
      Scan.bind_assoc, toCome_emit, toCome_bump]
    have hafter : closing.peek.2.read.2.cursor = closing.cursor.next := by
      rw [Reader.cursor_read, Reader.cursor_peek]
    rw [offset_eq r.cursor_read, offset_eq closing.cursor_peek, r.cursor_read]
    apply Lexes.token hfind
    rw [← hafter]
    apply hrest _
    have hle := Nat.le_trans (Cursor.length_next_le closing.cursor)
      (hclosing ▸ Cursor.length_skipWhile_le (· ≠ '"') r.cursor.next)
    rw [hafter, h]
    rw [Cursor.next_of_cons h] at hle
    exact Nat.lt_succ_of_le hle

/-- The run of digits that starts with the one that was read. -/
theorem lexes_moreDigits {k : Cursor} {c : Char} {rest : List Char}
    (hfind : place.find k = numeral next r.cursor) (h : r.cursor.ahead = c :: rest)
    (hc : c.isDigit = true)
    (hrest : ∀ after : Reader, after.cursor.ahead.length < r.cursor.ahead.length →
      Lexes next after.cursor (toCome .index (f ()) after)) :
    Lexes place k (toCome .index (moreDigits r.offset >>= f) r.read.2) := by
  have hlast : (r.read.2.skipWhile Char.isDigit).cursor = r.cursor.skipWhile Char.isDigit := by
    rw [Reader.cursor_skipWhile, Reader.cursor_read, Cursor.next_skipWhile h hc]
  generalize hr : r.read.2.skipWhile Char.isDigit = last at hlast
  unfold moreDigits
  rw [Scan.bind_assoc, toCome_skipWhile, hr, Scan.bind_assoc]
  have hsize : r.offset ≤ r.source.size :=
    Nat.le_trans (Nat.le_add_right _ _) (Reader.le_size_of_ahead h)
  have hsource : last.peek.2.source = r.source := by
    rw [Reader.source_peek, ← hr, Reader.source_skipWhile, Reader.source_read]
  have htext := Reader.slice_skipWhile Char.isDigit hsize hsource
    (by rw [Reader.cursor_peek, hlast])
  rw [numeral, ← hlast] at hfind
  by_cases hb : last.cursor.ahead = [] ∧ last.cursor.cause ≠ .endOfInput
  · have hcause : last.cursor.cause = r.cursor.cause := by rw [hlast]; rfl
    rw [if_pos (by rwa [← hcause])] at hfind
    rw [Scan.bind_assoc, toCome_peek_broken hb.1 hb.2]
    exact .last hfind
  · have hcause : last.cursor.cause = r.cursor.cause := by rw [hlast]; rfl
    rw [if_neg (by rwa [← hcause])] at hfind
    rw [Scan.bind_assoc, toCome_peek_ignored hb, toCome_textSince htext]
    cases hvalue : Text.Numeral.read (String.ofList (r.cursor.ahead.takeWhile Char.isDigit)) with
    | ok value =>
      simp only [hvalue] at hfind ⊢
      rw [toCome_emit, offset_eq last.cursor_peek]
      apply Lexes.token hfind
      rw [← last.cursor_peek]
      apply hrest _
      rw [last.cursor_peek, hlast, ← Cursor.next_skipWhile h hc, Cursor.next_of_cons h, h]
      exact Nat.lt_succ_of_le (Cursor.length_skipWhile_le _ _)
    | error why =>
      simp only [hvalue] at hfind ⊢
      rw [toCome_illegal, offset_eq last.cursor_peek]
      exact .last hfind

/-- An integer, and what comes after it. -/
theorem lexes_integer {k : Cursor} (hfind : place.find k = number next r.cursor)
    (hrest : ∀ after : Reader, after.cursor.ahead.length < r.cursor.ahead.length →
      Lexes next after.cursor (toCome .index (f ()) after)) :
    Lexes place k (toCome .index (integer >>= f) r) := by
  unfold integer
  rw [Scan.bind_assoc, toCome_offset, Scan.bind_assoc, toCome_read]
  unfold number at hfind
  cases ha : r.cursor.ahead with
  | nil =>
    rw [ha] at hfind
    simp only [List.head?_nil, Option.any_none, Bool.false_eq_true, if_false, refused, ha] at hfind
    by_cases he : r.cursor.cause = .endOfInput
    · rw [exhausted, if_pos he] at hfind
      rw [toCome_taken_end rfl ha he, if_pos (by simp), Scan.bind_assoc, toCome_refuse_bind,
        Reader.read_of_error (Reader.read_of_ahead_nil ha)]
      exact .last hfind
    · rw [exhausted, if_neg he] at hfind
      rw [toCome_taken_broken rfl ha he]
      exact .last hfind
  | cons c rest =>
    rw [ha] at hfind
    rw [toCome_taken rfl ha]
    by_cases hc : c.isDigit = true
    · rw [if_neg (by simp [hc])]
      rw [List.head?_cons, Option.any_some, if_pos hc] at hfind
      exact lexes_moreDigits hfind ha hc hrest
    · rw [if_pos (by simp [hc]), Scan.bind_assoc, toCome_refuse_bind, offset_eq r.cursor_read]
      rw [List.head?_cons, Option.any_some, if_neg hc, refused, ha] at hfind
      exact .last hfind

/-- The bracket that closes an index, and what comes after it. -/
theorem lexes_closeIndex {bound : Nat} (ih : FoundBelow bound) {k : Cursor}
    (hfind : place.find k = closing r.cursor.skipBlanks)
    (hbound : 3 * r.cursor.ahead.length + 1 < bound) :
    Lexes place k (toCome .index closeIndex r) := by
  rw [← r.cursor_skipBlanks] at hfind
  have hlength := r.cursor.length_skipBlanks_le
  rw [← r.cursor_skipBlanks] at hlength
  unfold closeIndex
  rw [toCome_skipBlanks, toCome_offset]
  by_cases hc : r.skipBlanks.cursor.ahead.head? = some ']'
  · obtain ⟨rest, ha⟩ := List.head?_eq_some_iff.1 hc
    rw [toCome_expect ha, toCome_emit]
    apply lexes_single (.selected .index) (by rw [hfind, closing, if_pos hc])
    apply lexes_finishFilter ih
    have := Cursor.length_next_le r.skipBlanks.cursor
    rw [Reader.cursor_read]
    omega
  · obtain ⟨item, hitem, hcome⟩ := toCome_expect_refused .index "']'"
      (f := fun _ => do emit .rightBracket r.skipBlanks.offset; finishFilter) hc
    rw [hcome]
    exact .last (by rw [hfind, closing, if_neg hc, hitem])

/-- An index or the bounds of a slice, the closing bracket, and what comes after. -/
theorem lexes_bounds {bound : Nat} (ih : FoundBelow bound) {k : Cursor}
    (hfind : place.find k = number .integer r.cursor)
    (hbound : 3 * r.cursor.ahead.length + 1 < bound) :
    Lexes place k (toCome .index (bounds >>= fun _ => closeIndex) r) := by
  unfold bounds
  rw [Scan.bind_assoc]
  apply lexes_integer hfind
  intro after hafter
  rw [Scan.bind_assoc, toCome_skipBlanks, Scan.bind_assoc]
  have hskip := after.cursor_skipBlanks
  have hlength := after.cursor.length_skipBlanks_le
  rw [← hskip] at hlength
  have hplain : after.skipBlanks.cursor.ahead.head? ≠ some ':' →
      Lexes .integer after.cursor (toCome .index closeIndex after.skipBlanks.peek.2) := by
    intro hc
    refine lexes_closeIndex ih ?_ (by rw [Reader.cursor_peek]; omega)
    rw [Reader.cursor_peek, hskip, Place.find, if_neg (hskip ▸ hc), Cursor.skipBlanks_skipBlanks]
  cases ha : after.skipBlanks.cursor.ahead with
  | nil =>
    by_cases he : after.skipBlanks.cursor.cause = .endOfInput
    · rw [toCome_peek_end ha he, if_neg (by simp)]
      exact hplain (by simp [ha])
    · rw [toCome_peek_broken ha he]
      apply Lexes.last
      simp only [Place.find, closing, refused, exhausted, ← hskip, ha, List.head?_nil, reduceCtorEq,
        if_false, if_neg he]
  | cons c rest =>
    rw [toCome_peek ha]
    by_cases hc : c = ':'
    · subst hc
      rw [if_pos rfl, Scan.bind_assoc, toCome_offset, Scan.bind_assoc, toCome_bump,
        Scan.bind_assoc, toCome_emit, Scan.bind_assoc, toCome_skipBlanks]
      refine lexes_single (r := after.skipBlanks.peek.2) .bound ?_ ?_
      · rw [Reader.cursor_peek, hskip, Place.find, if_pos (by rw [← hskip, ha]; rfl)]
      · generalize hcolon : after.skipBlanks.peek.2.read.2 = colon
        have hcursor : colon.cursor = after.skipBlanks.cursor.next := by
          rw [← hcolon, Reader.cursor_read, Reader.cursor_peek]
        have hnext := after.skipBlanks.cursor.length_next_le
        have hblanks := colon.cursor.length_skipBlanks_le
        rw [← hcursor] at hnext
        rw [← colon.cursor_skipBlanks] at hblanks
        apply lexes_integer (by rw [Place.find, colon.cursor_skipBlanks])
        intro last hlast
        exact lexes_closeIndex ih (by rw [Place.find]) (by omega)
    · rw [if_neg (by simpa using hc)]
      exact hplain (by simpa [ha] using hc)

/-! ### The states -/

theorem lexes_index {bound : Nat} (ih : FoundBelow bound) {rest : List Char}
    (h : r.cursor.ahead = '[' :: rest) (hbound : bound = measure .index r.cursor) :
    Lexes .period r.cursor (toCome .index index r) := by
  have hblank : r.cursor.skipBlanks = r.cursor :=
    Cursor.skipBlanks_of_cons h (Text.isBlank_of_punctuation (by decide))
  have hskip : r.skipBlanks.cursor = r.cursor := by rw [Reader.cursor_skipBlanks, hblank]
  unfold index
  rw [toCome_skipBlanks, toCome_offset, toCome_expect (hskip ▸ h), toCome_emit, toCome_skipBlanks]
  refine lexes_single .bracket ?_ ?_
  · rw [hskip, Place.find, hblank, h]
    rfl
  generalize hopening : r.skipBlanks.read.2 = opening
  have hlength : opening.cursor.ahead.length < r.cursor.ahead.length := by
    rw [← hopening, Reader.cursor_read, hskip, Cursor.next_of_cons h, h]
    exact Nat.lt_succ_self _
  simp only [measure, State.rank] at hbound
  have hinner := opening.cursor_skipBlanks
  have hinnerLength := opening.cursor.length_skipBlanks_le
  rw [← hinner] at hinnerLength
  generalize opening.skipBlanks = inner at hinner hinnerLength
  cases ha : inner.cursor.ahead with
  | nil =>
    by_cases he : inner.cursor.cause = .endOfInput
    · rw [toCome_peek_end ha he]
      refine lexes_bounds ih ?_ (by rw [Reader.cursor_peek]; omega)
      rw [Reader.cursor_peek, Place.find, ← hinner, ha]
      rfl
    · rw [toCome_peek_broken ha he]
      apply Lexes.last
      simp only [Place.find, ← hinner, ha, bracketed, number, refused, exhausted, List.head?_nil,
        Option.any_none, Bool.false_eq_true, if_false, if_neg he]
  | cons c tail =>
    rw [toCome_peek ha]
    split
    · next hc =>
      obtain rfl : c = ']' := Option.some.inj hc
      refine lexes_closeIndex ih ?_ (by rw [Reader.cursor_peek]; omega)
      rw [Reader.cursor_peek,
        Cursor.skipBlanks_of_cons ha (Text.isBlank_of_punctuation (by decide)), closing,
        if_pos (by rw [ha]; rfl), Place.find, ← hinner, ha]
      rfl
    · next hc =>
      obtain rfl : c = '"' := Option.some.inj hc
      refine lexes_quotedName .close ?_ (by rw [Reader.cursor_peek, ha]) fun after hafter => ?_
      · rw [Reader.cursor_peek, Place.find, ← hinner, ha]
        rfl
      · rw [Reader.cursor_peek] at hafter
        exact lexes_closeIndex ih (by rw [Place.find]) (by omega)
    · next hbracket hquote =>
      refine lexes_bounds ih ?_ (by rw [Reader.cursor_peek]; omega)
      rw [Reader.cursor_peek, hinner]
      exact Place.find_bracket_of_other (hinner ▸ ha) (fun h => hbracket (congrArg some h))
        fun h => hquote (congrArg some h)

theorem lexes_quotedField {bound : Nat} (ih : FoundBelow bound) {rest : List Char}
    (h : r.cursor.ahead = '"' :: rest) (hbound : bound = measure .quotedName r.cursor) :
    Lexes .period r.cursor (toCome .quotedName quotedField r) := by
  have hblank : r.cursor.skipBlanks = r.cursor :=
    Cursor.skipBlanks_of_cons h (Text.isBlank_of_punctuation (by decide))
  simp only [measure, State.rank] at hbound
  refine lexes_quotedName (.selected .quotedName) ?_ h fun after hafter => ?_
  · rw [Place.find, hblank, h]
    rfl
  · exact lexes_finishFilter ih (by omega)

theorem lexes_bareField {bound : Nat} (ih : FoundBelow bound) {c : Char} {rest : List Char}
    (h : r.cursor.ahead = c :: rest) (hc : Text.isLetter c = true)
    (hbound : bound = measure .bareName r.cursor) :
    Lexes .period r.cursor (toCome .bareName bareField r) := by
  have hblank : r.cursor.skipBlanks = r.cursor :=
    Cursor.skipBlanks_of_cons h (Text.isBlank_of_isLetter hc)
  have hlast := r.cursor_skipWhile Text.isLetter
  have hsize : r.offset ≤ r.source.size :=
    Nat.le_trans (Nat.le_add_right _ _) (Reader.le_size_of_ahead h)
  have htext := Reader.slice_skipWhile Text.isLetter hsize (r.source_skipWhile _) hlast
  have hlength := r.cursor.length_skipWhile_le Text.isLetter
  simp only [measure, State.rank] at hbound
  unfold bareField
  rw [toCome_offset, toCome_check, toCome_skipWhile, toCome_textSince htext, toCome_emit,
    offset_eq hlast]
  rw [← hlast] at hlength
  have hfind : Place.find r.cursor .period = bare r.cursor := by
    rw [Place.find_period_of_other (hblank ▸ h) (Text.ne_of_isLetter hc (by decide))
      (Text.ne_of_isLetter hc (by decide)) (Text.ne_of_isLetter hc (by decide)), if_pos hc, hblank]
  apply Lexes.token hfind
  rw [← hlast]
  exact lexes_finishFilter ih (by omega)

theorem lexes_connector {bound : Nat} (ih : FoundBelow bound)
    (hbound : bound = measure .connector r.cursor) :
    Lexes .marked r.cursor (toCome .connector connector r) := by
  have hskip := r.cursor_skipBlanks
  have hlength := r.cursor.length_skipBlanks_le
  rw [← hskip] at hlength
  unfold connector
  rw [toCome_skipBlanks, toCome_offset]
  generalize r.skipBlanks = inner at hskip hlength
  simp only [measure, State.rank] at hbound
  have hfind : Place.find r.cursor .marked = connective inner.cursor := by rw [Place.find, hskip]
  -- Both connectors leave the lexer where a filter has to start.
  have hconnective : ∀ {token : Token} {c : Char} {rest : List Char},
      inner.cursor.ahead = c :: rest → connective inner.cursor = single token .filter inner.cursor →
      Lexes .marked r.cursor (toCome .connector (do
        bump
        emit token inner.offset
        return some .filter) inner.peek.2) := by
    intro token c rest ha hc
    have hoffset : inner.offset = inner.peek.2.offset := (offset_eq inner.cursor_peek).symm
    rw [toCome_bump, toCome_emit, toCome_next, hoffset]
    apply lexes_single (r := inner.peek.2) .filter (by rw [hfind, Reader.cursor_peek, hc])
    apply ih .filter .filter _ _ .filter
    rw [Reader.cursor_read, Reader.cursor_peek, Cursor.next_of_cons ha]
    rw [ha, List.length_cons] at hlength
    simp only [measure, State.rank]
    omega
  cases ha : inner.cursor.ahead with
  | nil => exact lexes_ended (by rw [hfind, connective, ha]; rfl) ha rfl
  | cons c rest =>
    rw [toCome_peek ha]
    split
    · next hc =>
      obtain rfl : c = '|' := Option.some.inj hc
      exact hconnective ha (by simp only [connective, connecting, ha])
    · next hc =>
      obtain rfl : c = ',' := Option.some.inj hc
      exact hconnective ha (by simp only [connective, connecting, ha])
    · next hc =>
      obtain rfl : c = '.' := Option.some.inj hc
      have hblank : inner.cursor.skipBlanks = inner.cursor :=
        Cursor.skipBlanks_of_cons ha (Text.isBlank_of_punctuation (by decide))
      have hrest : Lexes .marked inner.peek.2.cursor (itemsFrom .filter inner.peek.2) := by
        refine ih .filter .marked _ ?_ (@Fits.period _ _ rest ?_ (.inr (.inr rfl)))
        · rw [Reader.cursor_peek]
          simp only [measure, State.rank]
          omega
        · rw [Reader.cursor_peek, hblank, ha]
      rw [Reader.cursor_peek] at hrest
      exact hrest.congr (by simp only [Place.find, hskip, Cursor.skipBlanks_skipBlanks])
    · next hc => contradiction
    · next hpipe hcomma hperiod _ =>
      rw [toCome_refuse, offset_eq inner.cursor_peek]
      refine .last (hfind.trans ?_)
      exact connective_of_other ha (fun h => hpipe (congrArg some h))
        (fun h => hcomma (congrArg some h)) (fun h => hperiod (congrArg some h))

theorem lexes_period {bound : Nat} (ih : FoundBelow bound)
    (hbound : 3 * r.cursor.ahead.length + 2 < bound) :
    Lexes .period r.cursor (toCome .filter leavePeriod r) := by
  have hskip := r.cursor_skipBlanks
  have hlength := r.cursor.length_skipBlanks_le
  rw [← hskip] at hlength
  unfold leavePeriod
  rw [toCome_skipBlanks]
  generalize r.skipBlanks = inner at hskip hlength
  have hfind : Place.find r.cursor .period = Place.find inner.cursor .period := by
    simp only [Place.find, hskip, Cursor.skipBlanks_skipBlanks]
  have hnext : ∀ state, Fits state .period inner.cursor →
      Lexes .period r.cursor (itemsFrom state inner.peek.2) := by
    intro state hfits
    have hrest := ih state .period inner.peek.2
    rw [Reader.cursor_peek] at hrest
    refine (hrest ?_ hfits).congr hfind
    have : state.rank ≤ 2 := by cases state <;> decide
    simp only [measure]
    omega
  have hblank : inner.cursor.skipBlanks = inner.cursor := by
    rw [hskip, Cursor.skipBlanks_skipBlanks]
  cases ha : inner.cursor.ahead with
  | nil =>
    have hended : Place.find r.cursor .period = ended .filter inner.cursor := by
      rw [Place.find, ← hskip, ha]
      rfl
    exact lexes_ended hended ha rfl
  | cons c rest =>
    rw [toCome_peek ha]
    split
    · next hc =>
      obtain rfl : c = '"' := Option.some.inj hc
      exact hnext .quotedName (.quotedName ha)
    · next hc =>
      obtain rfl : c = '[' := Option.some.inj hc
      exact hnext .index (.index ha)
    · next d hquote hbracket hd =>
      obtain rfl : c = d := Option.some.inj hd
      rw [toCome_next]
      by_cases hletter : Text.isLetter c = true
      · rw [if_pos hletter]
        exact hnext .bareName (.bareName ha hletter)
      · rw [if_neg hletter]
        refine hnext .expression (.again (by rw [hblank, ha]) ?_ ?_ (by simpa using hletter))
        · exact hquote
        · exact hbracket
    · next hc => contradiction

theorem lexes_filter {bound : Nat} (ih : FoundBelow bound) (hfits : Fits .filter place r.cursor)
    (hbound : bound = measure .filter r.cursor) :
    Lexes place r.cursor (toCome .filter filter r) := by
  have hskip := r.cursor_skipBlanks
  have hlength := r.cursor.length_skipBlanks_le
  rw [← hskip] at hlength
  simp only [measure, State.rank] at hbound
  unfold filter
  rw [toCome_skipBlanks, toCome_offset]
  generalize r.skipBlanks = inner at hskip hlength
  by_cases hc : inner.cursor.ahead.head? = some '.'
  · obtain ⟨rest, ha⟩ := List.head?_eq_some_iff.1 hc
    have hfind : place.find r.cursor = single .period .period inner.cursor := by
      rw [hskip] at ha ⊢
      apply Place.find_of_period ha
      cases hfits with
      | filter => exact .inr (.inl rfl)
      | period _ hplace =>
        rcases hplace with rfl | rfl | rfl
        · exact .inl rfl
        · exact .inr (.inr (.inl rfl))
        · exact .inr (.inr (.inr rfl))
    rw [toCome_expect ha, toCome_emit]
    apply lexes_single .period hfind
    have hnext : inner.read.2.cursor.ahead.length < inner.cursor.ahead.length := by
      rw [Reader.cursor_read, Cursor.next_of_cons ha, ha]
      exact Nat.lt_succ_self _
    exact lexes_period ih (by omega)
  · have hplace : place = .filter := by
      cases hfits with
      | filter => rfl
      | period h _ => exact absurd (by rw [hskip, h]; rfl) hc
    obtain ⟨item, hitem, hcome⟩ := toCome_expect_refused .filter "'.'"
      (f := fun _ => emit .period inner.offset >>= fun _ => leavePeriod) hc
    rw [hskip] at hc
    subst hplace
    rw [hcome]
    exact .last (by rw [Place.find, if_neg hc, ← hskip, hitem])

theorem lexes_expression {bound : Nat} (ih : FoundBelow bound)
    (hfits : Fits .expression place r.cursor) (hbound : bound = measure .expression r.cursor) :
    Lexes place r.cursor (toCome .expression expression r) := by
  have hskip := r.cursor_skipBlanks
  have hlength := r.cursor.length_skipBlanks_le
  rw [← hskip] at hlength
  simp only [measure, State.rank] at hbound
  unfold expression
  rw [toCome_skipBlanks]
  generalize r.skipBlanks = inner at hskip hlength
  cases ha : inner.cursor.ahead with
  | nil =>
    have hfind : place.find r.cursor = ended .expression inner.cursor := by
      cases hfits with
      | start => rw [Place.find, ← hskip, ha]; rfl
      | again h => rw [← hskip, ha] at h; contradiction
    exact lexes_ended hfind ha rfl
  | cons c rest =>
    rw [toCome_peek ha]
    split
    · next hc =>
      obtain rfl : c = '.' := Option.some.inj hc
      have hblank : inner.cursor.skipBlanks = inner.cursor :=
        Cursor.skipBlanks_of_cons ha (Text.isBlank_of_punctuation (by decide))
      have hplace : place = .start ∨ place = .period := by
        cases hfits with
        | start => exact .inl rfl
        | again => exact .inr rfl
      have hrest : Lexes place inner.peek.2.cursor (itemsFrom .filter inner.peek.2) := by
        refine ih .filter place _ ?_ (@Fits.period _ _ rest ?_ ?_)
        · rw [Reader.cursor_peek]
          simp only [measure, State.rank]
          omega
        · rw [Reader.cursor_peek, hblank, ha]
        · exact hplace.imp_right .inl
      rw [Reader.cursor_peek] at hrest
      apply hrest.congr
      rcases hplace with rfl | rfl <;>
        simp only [Place.find, hskip, Cursor.skipBlanks_skipBlanks]
    · next hc => contradiction
    · next hperiod _ =>
      rw [toCome_refuse, offset_eq inner.cursor_peek]
      apply Lexes.last
      have hne : c ≠ '.' := fun h => hperiod (congrArg some h)
      rw [hskip] at ha
      cases hfits with
      | start =>
        rw [hskip]
        simp only [Place.find, ha, starting, unwanted]
      | again h hquote hbracket hletter =>
        obtain ⟨rfl, -⟩ := List.cons.inj (ha.symm.trans h)
        rw [Place.find_period_of_other h hne hquote hbracket, hletter, hskip]
        rfl

/-! ### The run -/

/-- **A run offers what is found from its place on.** -/
theorem itemsFrom_lexes (state : State) (place : Place) (r : Reader)
    (hfits : Fits state place r.cursor) : Lexes place r.cursor (itemsFrom state r) := by
  induction hn : measure state r.cursor using Nat.strongRecOn generalizing state place r with
  | ind bound ih =>
    have ih : FoundBelow bound := fun state place r hlt hfits =>
      ih _ hlt state place r hfits rfl
    rw [itemsFrom_eq]
    cases hfits with
    | start => exact lexes_expression ih .start hn.symm
    | again h hquote hbracket hletter =>
      exact lexes_expression ih (.again h hquote hbracket hletter) hn.symm
    | filter => exact lexes_filter ih .filter hn.symm
    | period h hplace => exact lexes_filter ih (.period h hplace) hn.symm
    | bareName h hletter => exact lexes_bareField ih h hletter hn.symm
    | quotedName h => exact lexes_quotedField ih h hn.symm
    | index h => exact lexes_index ih h hn.symm
    | connector => exact lexes_connector ih hn.symm

/-- What a source is cut into. -/
theorem lexes_of_source (source : ByteArray) :
    Lexes .start (Reader.ofBytes source).cursor (itemsFrom .expression (Reader.ofBytes source)) :=
  itemsFrom_lexes _ _ _ .start

end PathFilter.Lexer
