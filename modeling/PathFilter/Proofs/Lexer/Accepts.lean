import PathFilter.Proofs.Lexer.Sentences
import PathFilter.Proofs.Lexer.TokenByToken
import PathFilter.Proofs.Stream.Drivers

/-! The lexer accepts its language and yields the tokens that are written.

A run that ends at the end of the source has read, place by place, what is written
(`Lexes.written`), and what is written is read, since no lexeme can be taken for a
longer one in front of what follows it (`exists_lexes`). -/
namespace PathFilter
open Lexer

namespace Lexer
variable {place next : Place} {k : Cursor} {token : Token} {ts : List Token}

namespace Place.Leads

theorem ne_endOfInput (h : place.Leads token next) : token ≠ .endOfInput := by
  cases h <;> nofun

/-- A name needs quotes directly behind an opening bracket. -/
theorem bracket_iff (h : place.Leads token next) : token = .leftBracket ↔ next = .bracket := by
  cases h <;> simp

/-- Where a token leads decides what may come then, whatever state it was read in. -/
theorem residue_eq {other : Place} (h : place.Leads token next) (h' : place.Leads token other) :
    next.residue = other.residue := by
  cases h <;> cases h' <;> rfl

/-- Behind a name or a number stands punctuation. -/
theorem exists_symbol {last : Place} {following : Token} (h : place.Leads token next)
    (hvalue : symbol? token = none) (h' : next.Leads following last) :
    ∃ c, symbol? following = some c := by
  cases h <;> first | contradiction | cases h' <;> exact ⟨_, rfl⟩

end Place.Leads

/-! ### What is read is written -/

/-- **A run to the end of the source has read what is written.** -/
theorem Lexes.written {items : List Item} (h : Lexes place k items)
    (hitems : items.map Item.token = ts ++ [.endOfInput]) :
    Written (decide (place = .bracket)) ts k.ahead ∧ k.cause = .endOfInput ∧
      ts ∈ place.residue := by
  induction h generalizing ts with
  | @token place k item next after items found rest ih =>
    have hreads := place.reads k
    rw [found] at hreads
    obtain ⟨hleads, hcause, blanks, lexeme, hblanks, hglued, hlexeme, hahead⟩ := hreads
    cases ts with
    | nil => exact absurd (List.cons.inj hitems).1 hleads.ne_endOfInput
    | cons t ts =>
      obtain ⟨rfl, htail⟩ := List.cons.inj hitems
      obtain ⟨hwritten, hend, hts⟩ := ih htail
      refine ⟨?_, hcause ▸ hend, Place.mem_of_leads hleads hts⟩
      rw [hahead]
      refine .cons hblanks hglued hlexeme ?_
      rwa [decide_eq_decide.2 hleads.bracket_iff]
  | @last place k item found =>
    have hreads := place.reads k
    rw [found] at hreads
    cases ts with
    | cons t ts => simp at hitems
    | nil =>
      have hend : item.token = .endOfInput := (List.cons.inj hitems).1
      rcases hreads with ⟨offset, cause, rfl⟩ | ⟨_, hblanks, hcause, hfinal⟩
      · contradiction
      · exact ⟨.nil hblanks, hcause, Place.nil_mem_residue.2 hfinal⟩

/-! ### What is written is read -/

/-- What follows a name or a number delimits it. -/
theorem delimited_of_written {inside : Bool} {rest : List Char} (hleads : place.Leads token next)
    (hvalue : symbol? token = none) (h : Written inside ts rest) (hts : ts ∈ next.residue) :
    Delimited rest := by
  intro c hc
  cases h with
  | nil hblanks =>
    have hblank := hblanks c (List.mem_of_mem_head? hc)
    exact ⟨Text.isLetter_of_isBlank hblank, Text.isDigit_of_isBlank hblank⟩
  | @cons _ following _ blanks lexeme _ hblanks _ hlexeme _ =>
    obtain ⟨last, hfollowing, -⟩ := Place.leads_of_mem hts
    obtain ⟨d, hd⟩ := hleads.exists_symbol hvalue hfollowing
    rw [hlexeme.of_symbol hd] at hc
    cases blanks with
    | nil =>
      obtain rfl : d = c := Option.some.inj hc
      have hmem := symbol_mem_punctuation hd
      exact ⟨Text.isLetter_of_punctuation hmem, Text.isDigit_of_punctuation hmem⟩
    | cons b blanks =>
      obtain rfl : b = c := Option.some.inj hc
      have hblank := hblanks b (.head _)
      exact ⟨Text.isLetter_of_isBlank hblank, Text.isDigit_of_isBlank hblank⟩

/-- White space up to the end of the source is the end, where there can be one. -/
theorem Place.find_end (hfinal : place.Final) (hblanks : Blanks k.ahead)
    (hcause : k.cause = .endOfInput) :
    ∃ item, place.find k = .last item ∧ item.token = .endOfInput := by
  have hskip : k.skipBlanks.ahead = [] :=
    (Cursor.skipWhile_of_append (List.append_nil _).symm hblanks nofun).2
  have hended : ∀ state, ∃ item, Found.ended state k.skipBlanks = .last item ∧
      item.token = .endOfInput := fun state => ⟨_, congrArg Found.last (if_pos hcause), rfl⟩
  have hconnective : ∃ item, Found.connective k.skipBlanks = .last item ∧
      item.token = .endOfInput := by
    rw [Found.connective, hskip]
    exact hended _
  cases place with
  | start =>
    rw [find, hskip]
    exact hended _
  | period =>
    rw [find, hskip]
    exact hended _
  | marked => exact hconnective
  | selected within =>
    rw [find]
    split
    · next hk =>
      have := hblanks '?' (by rw [hk]; exact .head _)
      rw [Text.isBlank_of_punctuation (by decide)] at this
      contradiction
    · rwa [if_pos hcause]
    · exact hconnective
  | filter | bracket | integer | bound | close => exact hfinal.elim

/-- **What is written at a place is read from there.** -/
theorem exists_lexes {text : List Char} (h : Written (decide (place = .bracket)) ts text)
    (hts : ts ∈ place.residue) (hk : k.ahead = text) (hcause : k.cause = .endOfInput) :
    ∃ items, Lexes place k items ∧ items.map Item.token = ts ++ [.endOfInput] := by
  induction ts generalizing place k text with
  | nil =>
    cases h with
    | nil hblanks =>
      obtain ⟨item, hfind, hend⟩ :=
        Place.find_end (Place.nil_mem_residue.1 hts) (hk ▸ hblanks) hcause
      exact ⟨[item], .last hfind, by rw [List.map_singleton, hend]; rfl⟩
  | cons t ts ih =>
    cases h with
    | @cons _ _ _ blanks lexeme rest hblanks hglued hlexeme hrest =>
      obtain ⟨next, hleads, hmem⟩ := Place.leads_of_mem hts
      have htakes := Place.takes hleads hblanks hglued hlexeme hk hcause fun hvalue =>
        delimited_of_written hleads hvalue hrest hmem
      have hreads := place.reads k
      cases hfind : place.find k with
      | last item =>
        rw [hfind] at htakes
        exact htakes.elim
      | token item other after =>
        rw [hfind] at htakes hreads
        obtain ⟨rfl, hafter⟩ := htakes
        rw [hleads.residue_eq hreads.1] at hmem
        rw [decide_eq_decide.2 hreads.1.bracket_iff] at hrest
        obtain ⟨items, hlexes, hitems⟩ := ih hrest hmem hafter (hreads.2.1.trans hcause)
        exact ⟨item :: items, .token hfind hlexes, by rw [List.map_cons, hitems]; rfl⟩

end Lexer

/-- **The lexer accepts exactly its language and yields exactly the written tokens.** The
items of a source are some tokens and then its end if and only if the source is a text
that writes the tokens and they are a sentence. -/
theorem lex_eq_iff_written (driver : Driver) (source : ByteArray) (ts : List Token) :
    (lex driver none source).map Item.token = ts ++ [.endOfInput] ↔
      ∃ text : String, source = text.toUTF8 ∧ Written false ts text.toList ∧
        ts ∈ Sentences.sentences := by
  rw [lex_eq_itemsFrom]
  constructor
  · intro hitems
    obtain ⟨hwritten, hcause, hts⟩ := (lexes_of_source source).written hitems
    refine ⟨_, (Reader.cursor_eq_endOfInput_iff source).1 hcause, ?_, hts⟩
    rw [String.toList_ofList]
    exact hwritten
  · rintro ⟨text, rfl, hwritten, hts⟩
    have hcursor := Reader.cursor_of_text text
    obtain ⟨items, hlexes, hitems⟩ := @exists_lexes .start _ _ _ hwritten hts
      (congrArg Cursor.ahead hcursor) (congrArg Cursor.cause hcursor)
    rwa [(lexes_of_source _).unique hlexes]

example : (lex .inline none ". \"a\" .[ 007]? ".toUTF8).map Item.token =
    [.period, .name "a", .period, .leftBracket, .integer 7, .rightBracket, .question,
      .endOfInput] := by decide +kernel

end PathFilter
