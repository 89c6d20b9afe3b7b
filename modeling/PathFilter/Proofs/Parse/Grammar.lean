import PathFilter.Filter

/-! The grammar of filter expressions as data.

A derivation is a tree of its own: it spells a list of tokens, and it stands for a
filter. Three levels of the grammar are the same but for their separator and for
the node that holds their members, so they are one `Level`.

`Pipe.tokens_injective`: no two derivations spell the same tokens. What tells two
members of a level apart is one token of what follows, so every rule is shown to
be separable in front of the tokens that can follow it. -/
namespace PathFilter.Grammar

/-! ### Derivations -/

/-- `LBRACK (RBRACK | STRING RBRACK | INT RBRACK | INT COLON INT RBRACK)` -/
inductive Index where
  | all
  | name (text : String)
  | element (position : Int64)
  | slice (start stop : Int64)
deriving DecidableEq

/-- `PERIOD | PERIOD (STRING | index) QUESTION?` -/
inductive Step where
  | period
  | name (text : String) (marked : Bool)
  | index (inner : Index) (marked : Bool)
deriving DecidableEq

/-- `member (separator member)*` -/
structure Level (α : Type) where
  first : α
  more : List α
deriving DecidableEq

/-- `filter filter*` -/
abbrev Chain := Level Step

/-- `chain (COMMA chain)*` -/
abbrev Union := Level Chain

/-- `union (PIPE union)*` -/
abbrev Pipe := Level Union

/-! ### What they spell -/

def Index.tokens : Index → List Token
  | .all => [.leftBracket, .rightBracket]
  | .name text => [.leftBracket, .name text, .rightBracket]
  | .element position => [.leftBracket, .integer position, .rightBracket]
  | .slice start stop => [.leftBracket, .integer start, .colon, .integer stop, .rightBracket]

def mark : Bool → List Token
  | true => [.question]
  | false => []

def Step.tokens : Step → List Token
  | .period => [.period]
  | .name text marked => .period :: .name text :: mark marked
  | .index inner marked => .period :: (inner.tokens ++ mark marked)

/-- Members after the first, each with its separator. -/
def spellMore {α : Type} (separator : List Token) (member : α → List Token) (more : List α) :
    List Token :=
  more.flatMap fun next => separator ++ member next

def Level.spell {α : Type} (separator : List Token) (member : α → List Token) (l : Level α) :
    List Token :=
  member l.first ++ spellMore separator member l.more

def Chain.tokens : Chain → List Token := Level.spell [] Step.tokens

def Union.tokens : Union → List Token := Level.spell [.comma] Chain.tokens

def Pipe.tokens : Pipe → List Token := Level.spell [.pipe] Union.tokens

/-- `pipe EOF` -/
def Pipe.sentence (d : Pipe) : List Token := d.tokens ++ [.endOfInput]

/-! ### What they stand for -/

def Index.tree : Index → Filter
  | .all => .iterate
  | .name text => .field text
  | .element position => .index position
  | .slice start stop => .slice start stop

def markTree : Bool → Filter → Filter
  | true, node => .optional node
  | false, node => node

def Step.tree : Step → Filter
  | .period => .identity
  | .name text marked => markTree marked (.field text)
  | .index inner marked => markTree marked inner.tree

/-- One member stands for itself, and several are held in order. -/
def Level.hold {α : Type} (wrap : List Filter → Filter) (member : α → Filter) : Level α → Filter
  | ⟨first, []⟩ => member first
  | ⟨first, more⟩ => wrap (member first :: more.map member)

def Chain.tree : Chain → Filter := Level.hold .pipe Step.tree

def Union.tree : Union → Filter := Level.hold .union Chain.tree

def Pipe.tree : Pipe → Filter := Level.hold .pipe Union.tree

/-! ### Members of a level -/

namespace Level
variable {α : Type} {separator : List Token} {member : α → List Token}

def members (l : Level α) : List α := l.first :: l.more

theorem members_cons (first next : α) (more : List α) :
    members ⟨first, next :: more⟩ = first :: members ⟨next, more⟩ := rfl

theorem hold_of_single {wrap : List Filter → Filter} {tree : α → Filter} {l : Level α}
    (h : l.more = []) : Level.hold wrap tree l = tree l.first := by
  obtain ⟨first, more⟩ := l
  obtain rfl : more = [] := h
  rfl

theorem hold_of_several {wrap : List Filter → Filter} {tree : α → Filter} {l : Level α}
    (h : l.more ≠ []) : Level.hold wrap tree l = wrap (l.members.map tree) := by
  obtain ⟨first, more⟩ := l
  cases more with
  | nil => exact absurd rfl h
  | cons next more => rfl

theorem spell_cons (first next : α) (more : List α) :
    Level.spell separator member ⟨first, next :: more⟩ =
      member first ++ (separator ++ Level.spell separator member ⟨next, more⟩) := by
  simp only [Level.spell, spellMore, List.flatMap_cons, List.append_assoc]

theorem spell_single (first : α) : Level.spell separator member ⟨first, []⟩ = member first :=
  List.append_nil _

/-- A level spells what its members spell and separators. -/
theorem mem_spell {l : Level α} {t : Token} (h : t ∈ Level.spell separator member l) :
    t ∈ separator ∨ ∃ a ∈ l.members, t ∈ member a := by
  rw [Level.spell, spellMore, List.mem_append, List.mem_flatMap] at h
  rcases h with h | ⟨a, ha, h⟩
  · exact .inr ⟨_, .head _, h⟩
  · exact (List.mem_append.1 h).imp_right fun h => ⟨a, .tail _ ha, h⟩

theorem mem_spell_of_mem {l : Level α} {a : α} {t : Token} (ha : a ∈ l.members)
    (h : t ∈ member a) : t ∈ Level.spell separator member l := by
  rw [Level.spell, spellMore, List.mem_append, List.mem_flatMap]
  rcases List.mem_cons.1 ha with rfl | ha
  · exact .inl h
  · exact .inr ⟨a, ha, List.mem_append_right _ h⟩

end Level

/-! ### What can follow -/

/-- The tokens begin with one of the set. -/
def Starts (set : List Token) : List Token → Prop
  | [] => False
  | t :: _ => t ∈ set

/-- Every member with its separator begins with the token. -/
def Leads {α : Type} (lead : Token) (separator : List Token) (member : α → List Token) : Prop :=
  ∀ a, ∃ rest, separator ++ member a = lead :: rest

theorem leads_step : Leads .period [] Step.tokens
  | .period => ⟨_, rfl⟩
  | .name .. => ⟨_, rfl⟩
  | .index .. => ⟨_, rfl⟩

theorem leads_separator {α : Type} {lead : Token} {member : α → List Token} :
    Leads lead [lead] member := fun _ => ⟨_, rfl⟩

section levels
variable {α : Type} {lead : Token} {separator follow : List Token} {member : α → List Token}

theorem Starts.cons {ts : List Token} (h : Starts follow ts) : Starts (lead :: follow) ts := by
  cases ts with
  | nil => exact h
  | cons t ts => exact List.mem_cons_of_mem _ h

/-- Behind a member there is another one or what follows the level. -/
theorem starts_more (hlead : Leads lead separator member) (more : List α) {rest : List Token}
    (hrest : Starts follow rest) :
    Starts (lead :: follow) (spellMore separator member more ++ rest) := by
  cases more with
  | nil => exact hrest.cons
  | cons next more =>
    obtain ⟨tail, h⟩ := hlead next
    rw [spellMore, List.flatMap_cons, h]
    exact List.mem_cons_self

/-! ### One derivation -/

/-- Behind what follows a rule, what it spells tells the derivation. -/
def Separable (member : α → List Token) (follow : List Token) : Prop :=
  ∀ a b rest rest', Starts follow rest → Starts follow rest' →
    member a ++ rest = member b ++ rest' → a = b ∧ rest = rest'

theorem separable_more (hlead : Leads lead separator member) (hfollow : lead ∉ follow)
    (h : Separable member (lead :: follow)) (more others : List α) {rest rest' : List Token}
    (hrest : Starts follow rest) (hrest' : Starts follow rest')
    (heq : spellMore separator member more ++ rest = spellMore separator member others ++ rest') :
    more = others ∧ rest = rest' := by
  -- What follows the level does not begin like another member.
  have habsurd : ∀ {next : α} {tail ts : List Token}, Starts follow ts →
      ts ≠ separator ++ member next ++ tail := by
    intro next tail ts hts hne
    obtain ⟨inner, hinner⟩ := hlead next
    rw [hinner] at hne
    rw [hne] at hts
    exact hfollow hts
  induction more generalizing others with
  | nil =>
    cases others with
    | nil => exact ⟨rfl, heq⟩
    | cons next others =>
      rw [spellMore, spellMore, List.flatMap_nil, List.flatMap_cons, List.append_assoc] at heq
      exact absurd heq (habsurd hrest)
  | cons next more ih =>
    cases others with
    | nil =>
      rw [spellMore, spellMore, List.flatMap_nil, List.flatMap_cons, List.append_assoc] at heq
      exact absurd heq.symm (habsurd hrest')
    | cons other others =>
      rw [spellMore, spellMore, List.flatMap_cons, List.flatMap_cons] at heq
      simp only [List.append_assoc, List.append_cancel_left_eq] at heq
      obtain ⟨rfl, htail⟩ := h next other _ _ (starts_more hlead more hrest)
        (starts_more hlead others hrest') heq
      obtain ⟨rfl, hrest⟩ := ih others htail
      exact ⟨rfl, hrest⟩

theorem separable_level (hlead : Leads lead separator member) (hfollow : lead ∉ follow)
    (h : Separable member (lead :: follow)) : Separable (Level.spell separator member) follow := by
  intro ⟨first, more⟩ ⟨other, others⟩ rest rest' hrest hrest' heq
  rw [Level.spell, Level.spell, List.append_assoc, List.append_assoc] at heq
  obtain ⟨rfl, htail⟩ := h first other _ _ (starts_more hlead more hrest)
    (starts_more hlead others hrest') heq
  obtain ⟨rfl, hrest⟩ := separable_more hlead hfollow h more others hrest hrest' htail
  exact ⟨rfl, hrest⟩

end levels

theorem separable_mark {rest rest' : List Token} {a b : Bool}
    (h : Starts [.period, .comma, .pipe, .endOfInput] rest)
    (h' : Starts [.period, .comma, .pipe, .endOfInput] rest')
    (heq : mark a ++ rest = mark b ++ rest') : a = b ∧ rest = rest' := by
  cases a <;> cases b
  · exact ⟨rfl, heq⟩
  · rw [show rest = .question :: rest' from heq] at h
    simp [Starts] at h
  · rw [show rest' = .question :: rest from heq.symm] at h'
    simp [Starts] at h'
  · exact ⟨rfl, (List.cons.inj heq).2⟩

theorem separable_index {a b : Index} {rest rest' : List Token}
    (heq : a.tokens ++ rest = b.tokens ++ rest') : a = b ∧ rest = rest' := by
  cases a <;> cases b <;> simp_all [Index.tokens]

/-- An index does not begin like a name or like what follows a filter. -/
theorem Index.tokens_eq_cons (a : Index) : ∃ rest, a.tokens = .leftBracket :: rest := by
  cases a <;> exact ⟨_, rfl⟩

theorem separable_step : Separable Step.tokens [.period, .comma, .pipe, .endOfInput] := by
  intro a b rest rest' h h' heq
  cases a with
  | period =>
    cases b with
    | period => exact ⟨rfl, (List.cons.inj heq).2⟩
    | name text marked =>
      obtain rfl := (List.cons.inj heq).2
      simp [Starts] at h
    | index inner marked =>
      obtain ⟨tail, hinner⟩ := inner.tokens_eq_cons
      obtain rfl := (List.cons.inj heq).2
      simp [hinner, Starts] at h
  | name text marked =>
    cases b with
    | period =>
      obtain rfl := (List.cons.inj heq).2
      simp [Starts] at h'
    | name other marked' =>
      obtain ⟨hname, htail⟩ := List.cons.inj (List.cons.inj heq).2
      obtain rfl := Token.name.inj hname
      obtain ⟨rfl, hrest⟩ := separable_mark h h' htail
      exact ⟨rfl, hrest⟩
    | index inner marked' =>
      obtain ⟨tail, hinner⟩ := inner.tokens_eq_cons
      simp [Step.tokens, hinner] at heq
  | index inner marked =>
    obtain ⟨tail, hinner⟩ := inner.tokens_eq_cons
    cases b with
    | period =>
      obtain rfl := (List.cons.inj heq).2
      simp [hinner, Starts] at h'
    | name text marked' => simp [Step.tokens, hinner] at heq
    | index other marked' =>
      simp only [Step.tokens, List.cons_append, List.cons.injEq, true_and, List.append_assoc] at heq
      obtain ⟨rfl, hmark⟩ := separable_index heq
      obtain ⟨rfl, hrest⟩ := separable_mark h h' hmark
      exact ⟨rfl, hrest⟩

/-- **No two derivations spell the same tokens.** -/
theorem Pipe.sentence_injective {d e : Pipe} (h : d.sentence = e.sentence) : d = e := by
  have hchain := separable_level leads_step (by decide) separable_step
  have hunion := separable_level leads_separator (by decide) hchain
  have hpipe := separable_level leads_separator (by decide) hunion
  exact (hpipe d e _ _ List.mem_cons_self List.mem_cons_self h).1

end PathFilter.Grammar
