import PathFilter.Proofs.Agreement
import PathFilter.Proofs.Lexer.Accepts
import PathFilter.Proofs.Parse.Chains
import PathFilter.Proofs.Parse.Viable

/-! Which sources are parsed, and into what.

A source is parsed if it writes the tokens of a derivation, and its query is the tree of
that derivation. One thing keeps a derivation from being written: the parser takes a
period in front of a connector for a filter of its own, and the lexer finds no connector
there. Tokens without such a place are `Lexable`. On them the lexer goes wherever the
parser goes (`mem_residue_of_accepts`), so derivations that are lexable are exactly what
sources are parsed by (`run_of_written`, `exists_written_of_run`). -/
namespace PathFilter
open Grammar Lexer

/-! ### The lexer goes where the parser goes -/

namespace Lexer
variable {place next : Place} {t : Token} {ts : List Token}

theorem Place.Leads.eq_period_iff (h : place.Leads t next) : t = .period ↔ next = .period := by
  cases h <;> simp

theorem Place.Leads.ne_connector (h : Place.period.Leads t next) : t ≠ .pipe ∧ t ≠ .comma := by
  cases h with
  | pipe hwhole | comma hwhole => rcases hwhole with h | ⟨within, h⟩ <;> contradiction
  | _ => exact ⟨nofun, nofun⟩

/-- What the lexer finds is lexable. -/
theorem Place.lexable_of_mem (h : ts ∈ place.residue) : Lexable ts := by
  induction ts generalizing place with
  | nil => exact .nil
  | cons t ts ih =>
    obtain ⟨next, hleads, hts⟩ := leads_of_mem h
    refine List.isChain_cons.2 ⟨fun u hu hperiod => ?_, ih hts⟩
    obtain ⟨rest, rfl⟩ := List.head?_eq_some_iff.1 hu
    obtain ⟨last, hlast, -⟩ := leads_of_mem hts
    rw [hleads.eq_period_iff.1 hperiod] at hlast
    exact hlast.ne_connector

/-- Where the parser goes on from a place, the lexer goes along, unless it meets a
connector behind a period. -/
theorem Place.exists_leads {s : Stand} (h : place.stand.next t = some s) (hs : s ≠ .over)
    (ht : place = .period → t ≠ .pipe ∧ t ≠ .comma) :
    ∃ next, place.Leads t next ∧ next.stand = s := by
  cases place with
  | start =>
    cases t with
    | period => exact ⟨_, .start, Option.some.inj h⟩
    | _ => cases h
  | filter =>
    cases t with
    | period => exact ⟨_, .filter, Option.some.inj h⟩
    | _ => cases h
  | period =>
    cases t with
    | name => exact ⟨.selected .bareName, .name, Option.some.inj h⟩
    | leftBracket => exact ⟨_, .opening, Option.some.inj h⟩
    | period => exact ⟨_, .period, Option.some.inj h⟩
    | pipe => exact absurd rfl (ht rfl).1
    | comma => exact absurd rfl (ht rfl).2
    | endOfInput => exact absurd (Option.some.inj h).symm hs
    | _ => cases h
  | bracket =>
    cases t with
    | rightBracket => exact ⟨_, .all, Option.some.inj h⟩
    | name => exact ⟨_, .key, Option.some.inj h⟩
    | integer => exact ⟨_, .element, Option.some.inj h⟩
    | _ => cases h
  | integer =>
    cases t with
    | colon => exact ⟨_, .colon, Option.some.inj h⟩
    | rightBracket => exact ⟨_, .elementClose, Option.some.inj h⟩
    | _ => cases h
  | bound =>
    cases t with
    | integer => exact ⟨_, .bound, Option.some.inj h⟩
    | _ => cases h
  | close =>
    cases t with
    | rightBracket => exact ⟨_, .close, Option.some.inj h⟩
    | _ => cases h
  | selected within =>
    have hwhole : (Place.selected within).Whole := .inr ⟨within, rfl⟩
    cases t with
    | question => exact ⟨_, .question, Option.some.inj h⟩
    | period => exact ⟨_, .next hwhole, Option.some.inj h⟩
    | pipe => exact ⟨_, .pipe hwhole, Option.some.inj h⟩
    | comma => exact ⟨_, .comma hwhole, Option.some.inj h⟩
    | endOfInput => exact absurd (Option.some.inj h).symm hs
    | _ => cases h
  | marked =>
    have hwhole : Place.marked.Whole := .inl rfl
    cases t with
    | period => exact ⟨_, .next hwhole, Option.some.inj h⟩
    | pipe => exact ⟨_, .pipe hwhole, Option.some.inj h⟩
    | comma => exact ⟨_, .comma hwhole, Option.some.inj h⟩
    | endOfInput => exact absurd (Option.some.inj h).symm hs
    | _ => cases h

/-- What the parser accepts from a place and is lexable, the lexer can find there. -/
theorem Place.mem_residue_of_accepts (hend : Token.endOfInput ∉ ts)
    (h : place.stand.accepts (ts ++ [.endOfInput]) = true) (hts : Lexable ts)
    (hhead : place = .period → ∀ t ∈ ts.head?, t ≠ .pipe ∧ t ≠ .comma) : ts ∈ place.residue := by
  induction ts generalizing place with
  | nil =>
    apply Place.nil_mem_residue.2
    cases place <;> trivial
  | cons t ts ih =>
    have ht : t ≠ .endOfInput := fun heq => hend (heq ▸ List.mem_cons_self)
    cases hs : place.stand.next t with
    | none =>
      rw [List.cons_append, Stand.accepts_refused place.stand_ne_over hs] at h
      contradiction
    | some s =>
      have hover : s ≠ .over := fun heq => ht (Stand.eq_endOfInput_of_next (heq ▸ hs))
      obtain ⟨next, hleads, rfl⟩ := exists_leads hs hover fun hp => hhead hp t rfl
      obtain ⟨hfirst, hrest⟩ := List.isChain_cons.1 hts
      rw [List.cons_append, Stand.accepts_cons hs] at h
      refine mem_of_leads hleads (ih (fun hmem => hend (.tail _ hmem)) h hrest ?_)
      exact fun hnext u hu => hfirst u hu (hleads.eq_period_iff.2 hnext)

/-- Nothing comes behind the end of input. -/
theorem Lexes.eq_nil_of_end {k : Cursor} {items : List Item} {rest : List Token}
    (h : Lexes place k items) (hitems : items.map Item.token = ts ++ .endOfInput :: rest) :
    rest = [] := by
  induction h generalizing ts with
  | @token place k item next after items found _ ih =>
    have hreads := place.reads k
    rw [found] at hreads
    cases ts with
    | nil => exact absurd (List.cons.inj hitems).1 hreads.1.ne_endOfInput
    | cons t ts => exact ih (List.cons.inj hitems).2
  | last =>
    cases ts with
    | nil => exact (List.cons.inj hitems).2.symm
    | cons t ts => simp at hitems

end Lexer

/-- A derivation is one of the sentences of the lexer if it is lexable. -/
theorem Grammar.Pipe.tokens_mem_sentences_iff (d : Pipe) :
    d.tokens ∈ Sentences.sentences ↔ Lexable d.tokens := by
  refine ⟨@Place.lexable_of_mem .start _, fun h => ?_⟩
  have haccepts := d.accepts_sentence []
  rw [List.append_nil] at haccepts
  exact @Place.mem_residue_of_accepts .start _ d.endOfInput_notMem haccepts h nofun

/-! ### What sources are parsed into -/

section
variable {options : ParseOptions} {source : ByteArray} {q : Query} {d : Pipe} {text : String}

theorem lists_of_source (options : ParseOptions) (source : ByteArray) :
    Lists (Watched.mk (.ofSource options.driver none source) none none)
      (itemsFrom .expression (Reader.ofBytes source)) .streamClosed :=
  (Tokens.handsOver_ofSource options.driver source).lists

/-- **What is parsed is written.** The items of the source are the tokens of a derivation and
the end, and the source writes them. -/
theorem exists_written_of_run (h : options.run none source = .ok q) :
    ∃ (text : String) (d : Pipe), source = text.toUTF8 ∧ Written false d.tokens text.toList ∧
      Lexable d.tokens ∧ q = ⟨[d.tree]⟩ ∧
      (itemsFrom .expression (Reader.ofBytes source)).map Item.token = d.sentence := by
  rcases build_outcome (lists_of_source options source) with ⟨d, hd, hok⟩ | ⟨err, -, herr⟩
  · obtain ⟨rest, hitems⟩ :=
      exists_upToEnd_append ((itemsFrom .expression (Reader.ofBytes source)).map Item.token)
    rw [hd, Pipe.sentence, List.append_assoc] at hitems
    obtain rfl := (lexes_of_source source).eq_nil_of_end hitems
    obtain ⟨hwritten, hcause, hmem⟩ := (lexes_of_source source).written hitems
    refine ⟨_, d, (Reader.cursor_eq_endOfInput_iff source).1 hcause, ?_,
      d.tokens_mem_sentences_iff.1 hmem, ?_, hitems⟩
    · rw [String.toList_ofList]
      exact hwritten
    · exact Except.ok.inj (h.symm.trans hok)
  · cases h.symm.trans herr

/-- **What is written is parsed.** -/
theorem run_of_written (options : ParseOptions) (h : Written false d.tokens text.toList)
    (hlexable : Lexable d.tokens) : options.run none text.toUTF8 = .ok ⟨[d.tree]⟩ := by
  have hcursor := Reader.cursor_of_text text
  obtain ⟨items, hlexes, hitems⟩ := @exists_lexes .start _ _ _ h
    (d.tokens_mem_sentences_iff.2 hlexable) (congrArg Cursor.ahead hcursor)
    (congrArg Cursor.cause hcursor)
  rw [← (lexes_of_source _).unique hlexes] at hitems
  have hsentence := upToEnd_append d.endOfInput_notMem []
  exact build_of_sentence (lists_of_source options _) (by rw [hitems, hsentence]; rfl)

end
end PathFilter
