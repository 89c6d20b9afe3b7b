import PathFilter.Proofs.Parse.Builds

/-! A parser stops at the first item that no expression has there.

Tokens that were read without a fault can be completed: wherever a parser stands, a
few tokens end the expression (`Stand.completion`), and what is accepted is a sentence,
because a parser reads it (`exists_tokens_of_accepts`). A token that is refused begins
no sentence together with those before it, since every sentence is accepted. What is
said of an item depends on where the parser stands, and that can be told from the one
token before it (`Stand.next_cases`). -/
namespace PathFilter
open Grammar

/-- The tokens can be the beginning of a sentence. -/
def Viable (tokens : List Token) : Prop := ∃ d : Pipe, tokens <+: d.sentence

/-- The error describes the item. A fault of the lexer is passed on, and the end of input
is said to come too early. Of any other token it is said that a filter has to start in its
place, if nothing or a connector comes before it; that no filter has it after a period; or
that it is not what is wanted. -/
def Item.Described (previous : Option Token) (item : Item) (err : ParseError) : Prop :=
  match item.token with
  | .illegal cause => err = .lexical item.span.start cause
  | .endOfInput => ∃ wanted, err = .unexpectedEnd wanted
  | other =>
    match previous with
    | none | some .pipe | some .comma => err = .expectedFilter other.kind item.span.start
    | some .period => err = .unsupported other.kind item.span.start
    | some _ => ∃ wanted, err = .unexpected wanted other.kind item.span.start

namespace Stand
variable {s t : Stand} {token : Token} {tokens : List Token} {item : Item} {items : List Item}
  {ending err : ParseError}

/-! ### Where tokens lead to -/

/-- The stand that the tokens lead to. -/
def reach (s : Stand) (tokens : List Token) : Option Stand := tokens.foldlM next s

theorem reach_cons :
    s.reach (token :: tokens) = some t ↔ ∃ u, s.next token = some u ∧ u.reach tokens = some t := by
  rw [reach, List.foldlM_cons]
  exact Option.bind_eq_some_iff

theorem reach_concat :
    s.reach (tokens ++ [token]) = some t ↔
      ∃ u, s.reach tokens = some u ∧ u.next token = some t := by
  simp only [reach, List.foldlM_append, List.foldlM_cons, List.foldlM_nil, bind_pure]
  exact Option.bind_eq_some_iff

theorem accepts_append (h : s.reach tokens = some t) (rest : List Token) :
    s.accepts (tokens ++ rest) = t.accepts rest := by
  induction tokens generalizing s with
  | nil => rw [List.nil_append, Option.some.inj h]
  | cons token tokens ih =>
    obtain ⟨u, hu, hrest⟩ := reach_cons.1 h
    rw [List.cons_append, accepts_cons hu]
    exact ih hrest

/-- What a token leads to tells what token it was. -/
theorem next_cases (h : s.next token = some t) :
    (t = .filter ∧ (token = .pipe ∨ token = .comma)) ∨ (t = .period ∧ token = .period) ∨
      (t ≠ .filter ∧ t ≠ .period ∧ token ≠ .pipe ∧ token ≠ .comma ∧ token ≠ .period) := by
  cases s <;> cases token <;> cases h <;> simp

/-- Nothing but the end of input ends an expression. -/
theorem eq_endOfInput_of_next (h : s.next token = some .over) : token = .endOfInput := by
  cases s <;> cases token <;> cases h <;> rfl

theorem isTerminal_of_next (h : s.next token = some t) (ht : t ≠ .over) :
    token.isTerminal = false := by
  cases s <;> cases token <;> cases h <;> first | contradiction | rfl

theorem eq_over_of_reach (h : reach .over tokens = some t) : t = .over := by
  cases tokens with
  | nil => exact (Option.some.inj h).symm
  | cons token tokens =>
    obtain ⟨u, hu, _⟩ := reach_cons.1 h
    contradiction

/-- No terminal token is read before the expression is over. -/
theorem isTerminal_of_reach (h : s.reach tokens = some t) (ht : t ≠ .over) :
    ∀ token ∈ tokens, token.isTerminal = false := by
  induction tokens generalizing s with
  | nil => nofun
  | cons first tokens ih =>
    obtain ⟨u, hu, hrest⟩ := reach_cons.1 h
    intro token htoken
    rcases List.mem_cons.1 htoken with rfl | htoken
    · exact isTerminal_of_next hu fun hover => ht (eq_over_of_reach (hover ▸ hrest))
    · exact ih hrest token htoken

/-! ### Completing an expression -/

/-- Tokens that end an expression from a stand. -/
def completion : Stand → List Token
  | .filter => [.period]
  | .bracket | .integer | .close => [.rightBracket]
  | .bound => [.integer 0, .rightBracket]
  | .period | .selected | .whole | .over => []

theorem accepts_completion : s.accepts (s.completion ++ [.endOfInput]) = true := by
  cases s <;> rfl

theorem endOfInput_notMem_completion : Token.endOfInput ∉ s.completion := by
  cases s <;> decide

end Stand

/-- What is accepted is a sentence: a parser that is shown the tokens reads it. -/
theorem exists_tokens_of_accepts {tokens : List Token} (hend : Token.endOfInput ∉ tokens)
    (h : Stand.accepts .filter (tokens ++ [.endOfInput]) = true) :
    ∃ d : Pipe, d.tokens = tokens := by
  let shown : List Item := (tokens ++ [Token.endOfInput]).map fun token => ⟨token, .empty 0⟩
  have htokens : shown.map Item.token = tokens ++ [.endOfInput] := by
    rw [List.map_map]
    exact List.map_id _
  have hlists : Lists (Replay.mk shown none .empty ⟨0⟩ 0 none none) shown .streamClosed :=
    Replay.lists rfl _ _ _
  rcases build_outcome hlists with ⟨d, hd, -⟩ | ⟨err, hfault, -⟩
  · rw [htokens, upToEnd_append hend] at hd
    exact ⟨d, (List.append_cancel_right hd).symm⟩
  · rw [Stand.fault_of_accepts (htokens ▸ h)] at hfault
    contradiction

section
variable {t : Stand} {token : Token} {tokens : List Token} {item : Item} {items : List Item}
  {ending err : ParseError}

/-- What was read without a fault begins an expression. -/
theorem exists_prefix_of_reach (h : Stand.reach .filter tokens = some t) (ht : t ≠ .over) :
    ∃ d : Pipe, tokens <+: d.tokens := by
  have haccepts : Stand.accepts .filter (tokens ++ t.completion ++ [.endOfInput]) = true := by
    rw [List.append_assoc, Stand.accepts_append h]
    exact Stand.accepts_completion
  have hend : Token.endOfInput ∉ tokens ++ t.completion := by
    rw [List.mem_append, not_or]
    refine ⟨fun hmem => ?_, Stand.endOfInput_notMem_completion⟩
    have := Stand.isTerminal_of_reach h ht _ hmem
    contradiction
  obtain ⟨d, hd⟩ := exists_tokens_of_accepts hend haccepts
  exact ⟨d, t.completion, hd.symm⟩

theorem viable_of_prefix {d : Pipe} (h : tokens <+: d.tokens) : Viable tokens :=
  ⟨d, h.trans (List.prefix_append _ _)⟩

/-- With a token that is refused, no sentence begins. -/
theorem not_viable_of_refused (h : Stand.reach .filter tokens = some t) (ht : t ≠ .over)
    (hnext : t.next token = none) : ¬ Viable (tokens ++ [token]) := by
  rintro ⟨d, rest, hd⟩
  have haccepts := d.accepts_sentence []
  rw [List.append_nil, ← hd, List.append_assoc, Stand.accepts_append h, List.singleton_append,
    Stand.accepts_refused ht hnext] at haccepts
  contradiction

/-! ### The item that decides -/

/-- The items run out, or one of them decides. -/
theorem Stand.decides {s : Stand} (hs : s ≠ .over) (ending : ParseError) (items : List Item) :
    ∃ t, t ≠ .over ∧
      ((s.reach (items.map Item.token) = some t ∧ s.fault ending items = some ending) ∨
        ∃ front item, items = front ++ item :: s.left items ∧
          s.reach (front.map Item.token) = some t ∧
            ((item.token = .endOfInput ∧ s.fault ending items = none) ∨
              (t.next item.token = none ∧ s.fault ending items = some (t.complaint item)))) := by
  induction items generalizing s with
  | nil => exact ⟨s, hs, .inl ⟨rfl, fault_nil hs⟩⟩
  | cons item items ih =>
    cases hnext : s.next item.token with
    | none =>
      rw [fault_refused hs hnext, left_refused hs hnext]
      exact ⟨s, hs, .inr ⟨[], item, rfl, rfl, .inr ⟨hnext, rfl⟩⟩⟩
    | some u =>
      rw [fault_cons hnext, left_cons hnext]
      by_cases hu : u = .over
      · subst hu
        rw [fault_over, left_over]
        exact ⟨s, hs, .inr ⟨[], item, rfl, rfl, .inl ⟨eq_endOfInput_of_next hnext, rfl⟩⟩⟩
      · obtain ⟨t, ht, ⟨hreach, hfault⟩ | ⟨front, last, hitems, hreach, hlast⟩⟩ := ih hu
        · exact ⟨t, ht, .inl ⟨reach_cons.2 ⟨u, hnext, hreach⟩, hfault⟩⟩
        · refine ⟨t, ht, .inr ⟨item :: front, last, ?_, reach_cons.2 ⟨u, hnext, hreach⟩, hlast⟩⟩
          rw [List.cons_append, ← hitems]

theorem described_noFilter {previous : Option Token}
    (h : previous = none ∨ previous = some .pipe ∨ previous = some .comma) (item : Item) :
    item.Described previous item.noFilter := by
  unfold Item.Described Item.noFilter
  cases item.token <;> rcases h with rfl | rfl | rfl <;> first | rfl | exact ⟨_, rfl⟩

theorem described_noSelection (h : Stand.next .period item.token = none) :
    item.Described (some .period) item.noSelection := by
  unfold Item.Described Item.noSelection
  cases htoken : item.token with
  | endOfInput =>
    rw [htoken] at h
    contradiction
  | _ => rfl

theorem described_unexpected (hpipe : token ≠ .pipe) (hcomma : token ≠ .comma)
    (hperiod : token ≠ .period) (item : Item) (wanted : String) :
    item.Described (some token) (item.unexpected wanted) := by
  unfold Item.Described Item.unexpected
  cases item.token <;> cases token <;> first | contradiction | rfl | exact ⟨_, rfl⟩

/-- Where neither a filter nor a selection has to stand, one token is wanted. -/
theorem Stand.complaint_of_other (hfilter : t ≠ .filter) (hperiod : t ≠ .period) (item : Item) :
    ∃ wanted, t.complaint item = item.unexpected wanted := by
  cases t <;> first | contradiction | exact ⟨_, rfl⟩

/-- What is said of an item that is refused describes it. -/
theorem described_complaint {front : List Item}
    (h : Stand.reach .filter (front.map Item.token) = some t) (hnext : t.next item.token = none) :
    item.Described (front.getLast?.map Item.token) (t.complaint item) := by
  rcases List.eq_nil_or_concat front with rfl | ⟨front, last, rfl⟩
  · obtain rfl := Option.some.inj h
    exact described_noFilter (.inl rfl) item
  · rw [List.concat_eq_append] at h ⊢
    rw [List.map_append] at h
    obtain ⟨u, -, hlast⟩ := Stand.reach_concat.1 h
    rw [List.getLast?_concat, Option.map_some]
    rcases Stand.next_cases hlast with ⟨rfl, hconnector⟩ | ⟨rfl, hperiod⟩ |
      ⟨hfilter, hperiod, hother⟩
    · refine described_noFilter (.inr ?_) item
      exact hconnector.imp (congrArg some) (congrArg some)
    · rw [hperiod]
      exact described_noSelection hnext
    · obtain ⟨wanted, hwanted⟩ := Stand.complaint_of_other hfilter hperiod item
      rw [hwanted]
      exact described_unexpected hother.1 hother.2.1 hother.2.2 item wanted

/-- What is said of an item is not said of the stream or of a node. -/
theorem Stand.complaint_of_item (s : Stand) (item : Item) :
    s.complaint item ≠ .streamClosed ∧ ∀ node, s.complaint item ≠ .notAppendable node := by
  obtain ⟨token, span⟩ := item
  cases s <;> cases token <;> exact ⟨nofun, nofun⟩

variable {σ : Type} [TokenStream σ] {stream : σ}

/-- Unless the items run out, what comes behind the item that decides is left. -/
theorem lists_of_build (h : Lists stream items ending)
    (hfault : Stand.fault ending .filter items ≠ some ending) :
    Lists (build stream).2 (Stand.left .filter items) ending := by
  rcases build_leaves h with ⟨d, -, -, hleft⟩ | ⟨err, herr, -, rfl | hleft⟩
  · exact hleft
  · exact absurd herr hfault
  · exact hleft

/-- **Errors are exact and immediate.** Whatever stream lists the items (every list of items
has one, by `Replay.lists`), nothing is read behind the item that decides, and that is
behind no terminal item. It is the end of input of a sentence, or it is the first item that
rules out every sentence, and the error describes it. If no item decides, the items begin an
expression, and the error says that the stream was closed. -/
theorem build_decides (h : Lists stream items .streamClosed) :
    ((∃ front item rest, items = front ++ item :: rest ∧
        (∀ earlier ∈ front, earlier.token.isTerminal = false) ∧
        Viable (front.map Item.token) ∧ Lists (build stream).2 rest .streamClosed ∧
        ((item.token = .endOfInput ∧ ∃ q, (build stream).1 = .ok q) ∨
          (¬ Viable ((front ++ [item]).map Item.token) ∧ ∃ err, (build stream).1 = .error err ∧
            item.Described (front.getLast?.map Item.token) err))) ∨
      ((∃ d : Pipe, items.map Item.token <+: d.tokens) ∧
        (build stream).1 = .error .streamClosed)) ∧
    ∀ node, (build stream).1 ≠ .error (.notAppendable node) := by
  obtain ⟨t, ht, ⟨hreach, hfault⟩ | ⟨front, item, hitems, hreach, hitem⟩⟩ :=
    Stand.decides (s := .filter) (by decide) .streamClosed items
  · have herr := build_of_fault h hfault
    refine ⟨.inr ⟨exists_prefix_of_reach hreach ht, herr⟩, ?_⟩
    rw [herr]
    nofun
  obtain ⟨d, hd⟩ := exists_prefix_of_reach hreach ht
  have hfront : ∀ earlier ∈ front, earlier.token.isTerminal = false := fun earlier hearlier =>
    Stand.isTerminal_of_reach hreach ht _ (List.mem_map_of_mem hearlier)
  rcases hitem with ⟨hend, hfault⟩ | ⟨hnext, hfault⟩
  · obtain ⟨e, hok⟩ := build_of_no_fault h hfault
    have hleft := lists_of_build h (by rw [hfault]; nofun)
    refine ⟨.inl ⟨front, item, _, hitems, hfront, viable_of_prefix hd, hleft, .inl ?_⟩, ?_⟩
    · exact ⟨hend, _, hok⟩
    · rw [hok]
      nofun
  · obtain ⟨hstream, hnode⟩ := t.complaint_of_item item
    have herr := build_of_fault h hfault
    have hleft := lists_of_build h (by rw [hfault]; exact fun heq => hstream (Option.some.inj heq))
    refine ⟨.inl ⟨front, item, _, hitems, hfront, viable_of_prefix hd, hleft, .inr ?_⟩, ?_⟩
    · rw [List.map_append, List.map_singleton]
      exact ⟨not_viable_of_refused hreach ht hnext, _, herr, described_complaint hreach hnext⟩
    · rw [herr]
      exact fun node heq => hnode node (Except.error.inj heq)

end

/-- A colon after a period decides, and the end of input is left. -/
theorem build_replay_unsupported :
    ∃ front item rest,
      [⟨.period, 0, 1⟩, ⟨.colon, 1, 2⟩, ⟨.endOfInput, 2, 2⟩] = front ++ item :: rest ∧
      ¬ Viable ((front ++ [item]).map Item.token) ∧
      item.Described (front.getLast?.map Item.token) (.unsupported .colon 1) ∧
      Lists (build (Replay.mk [⟨.period, 0, 1⟩, ⟨.colon, 1, 2⟩, ⟨.endOfInput, 2, 2⟩]
        none .empty ⟨0⟩ 0 none none)).2 rest .streamClosed := by
  have herr : (build (Replay.mk [⟨.period, 0, 1⟩, ⟨.colon, 1, 2⟩, ⟨.endOfInput, 2, 2⟩]
      none .empty ⟨0⟩ 0 none none)).1 = .error (.unsupported .colon 1) := by decide +kernel
  have hlists : Lists (Replay.mk [⟨.period, 0, 1⟩, ⟨.colon, 1, 2⟩, ⟨.endOfInput, 2, 2⟩]
      none .empty ⟨0⟩ 0 none none) _ .streamClosed := Replay.lists rfl _ _ _
  have hdecides := (build_decides hlists).1
  rw [herr] at hdecides
  rcases hdecides with ⟨front, item, rest, hitems, -, -, hleft, hitem⟩ | ⟨-, hclosed⟩
  · rcases hitem with ⟨-, q, hok⟩ | ⟨hviable, err, herr, hdescribed⟩
    · contradiction
    · cases herr
      exact ⟨front, item, rest, hitems, hviable, hdescribed, hleft⟩
  · contradiction

end PathFilter
