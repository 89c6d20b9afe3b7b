import PathFilter.Proofs.Lexer.Lexeme
import PathFilter.Proofs.Lexer.TokenByToken
import PathFilter.Proofs.Parse.Builds
import PathFilter.Proofs.Stream.Drivers

/-! The lexer and the parser agree on every source.

They were written apart, and they meet in the tokens between them. Wherever the
lexer is, the parser stands somewhere too (`Place.stand`), and every token the lexer
finds leads both of them on (`Place.Leads.stand`). So the parser refuses nothing but
the last item, and that only where the lexer gave up or nothing was written. -/
namespace PathFilter
open Lexer

/-! ### Where the parser stands -/

/-- The stand of a parser that was shown the tokens before the place. -/
def Lexer.Place.stand : Place → Stand
  | .start | .filter => .filter
  | .period => .period
  | .bracket => .bracket
  | .integer => .integer
  | .bound => .bound
  | .close => .close
  | .selected _ => .selected
  | .marked => .whole

theorem Lexer.Place.stand_ne_over (place : Place) : place.stand ≠ .over := by
  cases place <;> nofun

theorem Lexer.Place.Leads.ne_start {place next : Place} {token : Token}
    (h : place.Leads token next) : next ≠ .start := by
  cases h <;> nofun

/-- A token leads the parser along with the lexer. -/
theorem Lexer.Place.Leads.stand {place next : Place} {token : Token}
    (h : place.Leads token next) : place.stand.next token = some next.stand := by
  cases h with
  | next h | pipe h | comma h => rcases h with rfl | ⟨within, rfl⟩ <;> rfl
  | _ => rfl

/-- Behind the first token, the source ends where an expression can end. -/
theorem Lexer.Place.Final.stand {place : Place} (h : place.Final) (hplace : place ≠ .start) :
    place.stand.next .endOfInput = some .over := by
  cases place <;> first | rfl | contradiction

/-! ### What the parser makes of a source -/

/-- A fault of the lexer is passed on wherever the parser stands. -/
theorem Stand.complaint_faultAt (s : Stand) (offset : Nat) (cause : LexError) :
    s.complaint (faultAt offset cause) = .lexical offset cause := by
  cases s <;> rfl

theorem Stand.next_illegal (s : Stand) (cause : LexError) : s.next (.illegal cause) = none := by
  cases s <;> rfl

variable {ending : ParseError} {place : Place} {k : Cursor} {items : List Item}

/-- Behind the first token, the fault of the items is the one that the lexer found, if
it found one. -/
theorem fault_of_lexes (ending : ParseError) (h : Lexes place k items) (hplace : place ≠ .start) :
    ∃ front last, items = front ++ [last] ∧
      ((∃ offset cause, last = faultAt offset cause ∧
        place.stand.fault ending items = some (.lexical offset cause)) ∨
      last.token = .endOfInput ∧ place.stand.fault ending items = none) := by
  induction h with
  | @token place k item next after items found rest ih =>
    have hreads := place.reads k
    rw [found] at hreads
    obtain ⟨front, last, hitems, hlast⟩ := ih hreads.1.ne_start
    refine ⟨item :: front, last, by rw [hitems]; rfl, ?_⟩
    rw [Stand.fault_cons hreads.1.stand]
    exact hlast
  | @last place k item found =>
    have hreads := place.reads k
    rw [found] at hreads
    refine ⟨[], item, rfl, ?_⟩
    rcases hreads with ⟨offset, cause, rfl⟩ | ⟨hend, _, _, hfinal⟩
    · refine .inl ⟨offset, cause, rfl, ?_⟩
      rw [Stand.fault_refused place.stand_ne_over (Stand.next_illegal _ _), Stand.complaint_faultAt]
    · refine .inr ⟨hend, ?_⟩
      rw [Stand.fault_cons (by rw [hend]; exact hfinal.stand hplace), Stand.fault_over]

/-- What a stream of a source is built into: the fault at its end, the error for a blank
source, or a query. -/
theorem build_of_source {σ : Type} [TokenStream σ] {stream : σ} {source : ByteArray}
    (h : Lists stream (itemsFrom .expression (Reader.ofBytes source)) ending) :
    ∃ front last, itemsFrom .expression (Reader.ofBytes source) = front ++ [last] ∧
      ((∃ offset cause, last = faultAt offset cause ∧
        (build stream).1 = .error (.lexical offset cause)) ∨
      (last.token = .endOfInput ∧ front = [] ∧
        (build stream).1 = .error (.unexpectedEnd "filter expression")) ∨
      (last.token = .endOfInput ∧ front ≠ [] ∧ ∃ node, (build stream).1 = .ok ⟨[node]⟩)) := by
  have hlexes := lexes_of_source source
  have hreads := Place.reads .start (Reader.ofBytes source).cursor
  generalize itemsFrom .expression (Reader.ofBytes source) = items at h hlexes
  cases hlexes with
  | @token _ _ item next after items found rest =>
    rw [found] at hreads
    obtain ⟨front, last, hitems, hlast⟩ := fault_of_lexes ending rest hreads.1.ne_start
    refine ⟨item :: front, last, by rw [hitems]; rfl, ?_⟩
    rw [← Stand.fault_cons hreads.1.stand] at hlast
    rcases hlast with ⟨offset, cause, hlast, hfault⟩ | ⟨hend, hfault⟩
    · exact .inl ⟨offset, cause, hlast, build_of_fault h hfault⟩
    · obtain ⟨d, hd⟩ := build_of_no_fault h hfault
      exact .inr (.inr ⟨hend, nofun, _, hd⟩)
  | last found =>
    rw [found] at hreads
    refine ⟨[], _, rfl, ?_⟩
    rcases hreads with ⟨offset, cause, rfl⟩ | ⟨hend, _⟩
    · exact .inl ⟨offset, cause, rfl, build_of_fault h rfl⟩
    · refine .inr (.inl ⟨hend, rfl, build_of_fault h ?_⟩)
      rw [Stand.fault_refused (by decide) (by rw [hend]; rfl), Stand.complaint, Item.noFilter, hend]

/-- **The lexer and the parser agree on every source.** If the items of the source end in
a fault, parsing reports that fault; if there are none before the end, it reports that a
filter is missing; and in every other case it succeeds with one filter. There are no
other errors. -/
theorem run_of_lex (options : ParseOptions) (source : ByteArray) :
    (∀ offset cause,
      (lex options.driver none source).getLast? = some ⟨.illegal cause, offset, offset⟩ →
        options.run none source = .error (.lexical offset cause)) ∧
    (∀ span, lex options.driver none source = [⟨.endOfInput, span⟩] →
      options.run none source = .error (.unexpectedEnd "filter expression")) ∧
    ((∀ offset cause,
      (lex options.driver none source).getLast? ≠ some ⟨.illegal cause, offset, offset⟩) →
      (∀ span, lex options.driver none source ≠ [⟨.endOfInput, span⟩]) →
        ∃ node, options.run none source = .ok ⟨[node]⟩) ∧
    ∀ err, options.run none source = .error err →
      (∃ offset cause, err = .lexical offset cause) ∨
        err = .unexpectedEnd "filter expression" := by
  obtain ⟨front, last, hitems, hrun⟩ :=
    build_of_source (Tokens.handsOver_ofSource options.driver source).lists
  rw [lex_eq_itemsFrom, hitems, ParseOptions.run]
  generalize (build (Watched.mk (.ofSource options.driver none source) none none)).1 = outcome
    at hrun
  rw [List.getLast?_concat]
  rcases hrun with ⟨offset, cause, rfl, rfl⟩ | ⟨hend, rfl, rfl⟩ | ⟨hend, hfront, node, rfl⟩
  · refine ⟨fun o c h => ?_, fun span h => ?_, fun h => absurd rfl (h offset cause),
      fun err h => ?_⟩
    · cases h
      rfl
    · have := congrArg List.getLast? h
      rw [List.getLast?_concat] at this
      cases this
    · cases h
      exact .inl ⟨offset, cause, rfl⟩
  · refine ⟨fun o c h => ?_, fun _ _ => rfl, fun _ h => ?_, fun err h => ?_⟩
    · rw [Option.some.inj h] at hend
      contradiction
    · exact absurd (congrArg (fun token => [Item.mk token last.span]) hend) (h last.span)
    · cases h
      exact .inr rfl
  · refine ⟨fun o c h => ?_, fun span h => ?_, fun _ _ => ⟨node, rfl⟩, nofun⟩
    · rw [Option.some.inj h] at hend
      contradiction
    · exact absurd (List.append_eq_singleton_iff.1 h) (by simp [hfront])

theorem run_of_sources :
    ({} : ParseOptions).run none ".a |".toUTF8 =
      .error (.lexical 4 (.expected "filter-start" "'.'" none)) ∧
    ({} : ParseOptions).run none "".toUTF8 = .error (.unexpectedEnd "filter expression") ∧
    ∃ node, ({} : ParseOptions).run none ".a".toUTF8 = .ok ⟨[node]⟩ := by
  have hlast : (lex .threaded none ".a".toUTF8).getLast? = some ⟨.endOfInput, 2, 2⟩ := by
    decide +kernel
  have hlength : (lex .threaded none ".a".toUTF8).length ≠ 1 := by decide +kernel
  refine ⟨(run_of_lex {} _).1 4 _ (by decide +kernel),
    (run_of_lex {} _).2.1 ⟨0, 0⟩ (by decide +kernel),
    (run_of_lex {} _).2.2.1 (fun offset cause => ?_) fun span h => ?_⟩
  · rw [hlast]
    nofun
  · exact hlength (congrArg List.length h)

/-- **The two drivers agree.** Both hand over the same items of every source and then
fail for good, and under a context that is live throughout or done from the start a
source is parsed into the same query or the same error. -/
theorem drivers_agree (source : ByteArray) :
    lex .threaded none source = lex .inline none source ∧
    (∀ driver, ((Tokens.ofSource driver none source).drain none).2.advance none none =
      (false, ((Tokens.ofSource driver none source).drain none).2)) ∧
    ∀ timeout stop, ({timeout, driver := .threaded} : ParseOptions).run stop source =
      ({timeout, driver := .inline} : ParseOptions).run stop source := by
  refine ⟨?_, fun driver => ?_, fun timeout stop => ?_⟩
  · rw [lex_eq_itemsFrom, lex_eq_itemsFrom]
  · exact (Tokens.handsOver_ofSource driver source).drain.2
  · obtain ⟨items, ending, h⟩ := exists_lists_ofSource stop source
    exact build_congr (h .threaded) (h .inline)

end PathFilter
