import PathFilter.Proofs.Parse.Rules

/-! What a parser makes of the items it is shown.

There are two outcomes (`build_outcome`): the items begin with a sentence, and the
query is its tree, or they have a fault, and it is the error. A sentence has no
fault and only one derivation, so either outcome excludes the other. -/
namespace PathFilter
open Grammar

/-- The tokens up to the first end of input, and with it. -/
def upToEnd : List Token → List Token
  | [] => []
  | token :: tokens => if token = .endOfInput then [token] else token :: upToEnd tokens

theorem exists_upToEnd_append (tokens : List Token) : ∃ rest, tokens = upToEnd tokens ++ rest := by
  induction tokens with
  | nil => exact ⟨[], rfl⟩
  | cons token tokens ih =>
    obtain ⟨rest, h⟩ := ih
    by_cases htoken : token = .endOfInput
    · exact ⟨tokens, by rw [upToEnd, if_pos htoken]; rfl⟩
    · exact ⟨rest, by rw [upToEnd, if_neg htoken, List.cons_append, ← h]⟩

theorem upToEnd_append {tokens : List Token} (h : Token.endOfInput ∉ tokens) (rest : List Token) :
    upToEnd (tokens ++ .endOfInput :: rest) = tokens ++ [.endOfInput] := by
  induction tokens with
  | nil => rfl
  | cons token tokens ih =>
    simp only [List.mem_cons, not_or] at h
    rw [List.cons_append, upToEnd, if_neg (Ne.symm h.1), ih h.2, List.cons_append]

namespace Grammar

theorem endOfInput_notMem_spell {α : Type} {separator : List Token} {member : α → List Token}
    (hseparator : Token.endOfInput ∉ separator) (h : ∀ a, Token.endOfInput ∉ member a)
    (l : Level α) : Token.endOfInput ∉ Level.spell separator member l := by
  intro hmem
  rcases Level.mem_spell hmem with hmem | ⟨a, -, hmem⟩
  · exact hseparator hmem
  · exact h a hmem

theorem endOfInput_notMem_step (a : Step) : Token.endOfInput ∉ a.tokens := by
  have hmark : ∀ marked, Token.endOfInput ∉ mark marked := by decide
  cases a with
  | period => decide
  | name text marked => simp [Step.tokens, hmark]
  | index inner marked => cases inner <;> simp [Step.tokens, Index.tokens, hmark]

theorem Pipe.endOfInput_notMem (d : Pipe) : Token.endOfInput ∉ d.tokens :=
  endOfInput_notMem_spell (by decide) (endOfInput_notMem_spell (by decide)
    (endOfInput_notMem_spell (by decide) endOfInput_notMem_step)) d

end Grammar

section
variable {σ : Type} [TokenStream σ] {stream : σ} {items : List Item} {ending : ParseError}

/-- The query of a sentence, or the fault of the items; and unless they ran out, what comes
behind the item that decides is left. -/
theorem build_leaves (h : Lists stream items ending) :
    (∃ d : Pipe, upToEnd (items.map Item.token) = d.sentence ∧
      (build stream).1 = .ok ⟨[d.tree]⟩ ∧
        Lists (build stream).2 (Stand.left .filter items) ending) ∨
    ∃ err, Stand.fault ending .filter items = some err ∧ (build stream).1 = .error err ∧
      (err = ending ∨ Lists (build stream).2 (Stand.left .filter items) ending) := by
  have hstart := Parser.comes_start (l := .ofStream stream) (.stream rfl h)
  rw [Parser.Comes] at hstart
  unfold build
  cases hs : Parser.start (Lookahead.ofStream stream) with
  | ok q l =>
    rw [hs] at hstart
    obtain ⟨d, rest, hread, rfl, hrest⟩ := hstart
    refine .inl ⟨d, ?_, rfl, ?_⟩
    · rw [hread.spelled, Pipe.sentence, List.append_assoc]
      exact upToEnd_append d.endOfInput_notMem _
    · rwa [hread.left, Stand.left_over]
  | error err l =>
    rw [hs] at hstart
    exact .inr ⟨err, hstart.fault, rfl, hstart.left⟩

/-- The query of a sentence, or the fault of the items. -/
theorem build_outcome (h : Lists stream items ending) :
    (∃ d : Pipe, upToEnd (items.map Item.token) = d.sentence ∧
      (build stream).1 = .ok ⟨[d.tree]⟩) ∨
    ∃ err, Stand.fault ending .filter items = some err ∧ (build stream).1 = .error err := by
  rcases build_leaves h with ⟨d, hd, hok, -⟩ | ⟨err, hfault, herr, -⟩
  · exact .inl ⟨d, hd, hok⟩
  · exact .inr ⟨err, hfault, herr⟩

/-- A sentence has no fault. -/
theorem fault_of_sentence {d : Pipe} (h : upToEnd (items.map Item.token) = d.sentence) :
    Stand.fault ending .filter items = none := by
  obtain ⟨rest, hitems⟩ := exists_upToEnd_append (items.map Item.token)
  apply Stand.fault_of_accepts
  rw [hitems, h]
  exact d.accepts_sentence rest

theorem build_of_fault {err : ParseError} (h : Lists stream items ending)
    (hfault : Stand.fault ending .filter items = some err) : (build stream).1 = .error err := by
  rcases build_outcome h with ⟨d, hd, _⟩ | ⟨err', hfault', herr⟩
  · rw [fault_of_sentence hd] at hfault
    contradiction
  · rw [herr, Option.some.inj (hfault'.symm.trans hfault)]

theorem build_of_no_fault (h : Lists stream items ending)
    (hfault : Stand.fault ending .filter items = none) :
    ∃ d : Pipe, (build stream).1 = .ok ⟨[d.tree]⟩ := by
  rcases build_outcome h with ⟨d, _, hd⟩ | ⟨err, hfault', _⟩
  · exact ⟨d, hd⟩
  · rw [hfault] at hfault'
    contradiction

theorem build_of_sentence {d : Pipe} (h : Lists stream items ending)
    (hd : upToEnd (items.map Item.token) = d.sentence) : (build stream).1 = .ok ⟨[d.tree]⟩ := by
  rcases build_outcome h with ⟨e, he, hok⟩ | ⟨err, hfault, _⟩
  · rw [hok, Pipe.sentence_injective (he.symm.trans hd)]
  · rw [fault_of_sentence hd] at hfault
    contradiction

/-- Two streams that list the same are built alike. -/
theorem build_congr {τ : Type} [TokenStream τ] {other : τ} (h : Lists stream items ending)
    (h' : Lists other items ending) : (build stream).1 = (build other).1 := by
  rcases build_outcome h with ⟨d, hd, hok⟩ | ⟨err, hfault, herr⟩
  · rw [hok, build_of_sentence h' hd]
  · rw [herr, build_of_fault h' hfault]

/-- **The builder parses exactly its grammar.** Whatever stream lists the items (every
list of items has one, by `Replay.lists`), they are built if and only if they spell a
sentence up to the first end of input, and the query is the tree of that sentence, which
has only one derivation. -/
theorem build_eq_ok_iff (h : Lists stream items ending) :
    (∀ q, (build stream).1 = .ok q ↔
      ∃ d : Pipe, upToEnd (items.map Item.token) = d.sentence ∧ q = ⟨[d.tree]⟩) ∧
    ∀ d e : Pipe, d.sentence = e.sentence → d = e := by
  refine ⟨fun q => ⟨fun hq => ?_, fun ⟨d, hd, hq⟩ => ?_⟩, fun d e => Pipe.sentence_injective⟩
  · rcases build_outcome h with ⟨d, hd, hok⟩ | ⟨err, _, herr⟩
    · exact ⟨d, hd, Except.ok.inj (hq.symm.trans hok)⟩
    · rw [hq] at herr
      contradiction
  · rw [build_of_sentence h hd, hq]

end

/-- Names side by side, one of them marked, replayed under a live context. -/
theorem build_replay_union :
    (build (Replay.mk [⟨.period, 0, 1⟩, ⟨.name "a", 1, 2⟩, ⟨.comma, 2, 3⟩, ⟨.period, 3, 4⟩,
      ⟨.name "b", 4, 5⟩, ⟨.question, 5, 6⟩, ⟨.endOfInput, 6, 6⟩] none .empty ⟨0⟩ 0 none none)).1 =
      .ok ⟨[.union [.field "a", .optional (.field "b")]]⟩ :=
  ((build_eq_ok_iff (Replay.lists rfl _ _ _)).1 _).2
    ⟨⟨⟨⟨.name "a" false, []⟩, [⟨.name "b" true, []⟩]⟩, []⟩, rfl, rfl⟩

end PathFilter
