import PathFilter.Proofs.Parse.Chains

/-! Which trees derivations stand for.

A step is the identity, a leaf or an optional leaf. Chains hold steps, unions hold chains,
and an expression is a chain, a union or a pipe of unions (`Filter.IsExpression`). The
tree of a derivation is an expression, if its values can be written and it is lexable
(`Pipe.isExpression_tree`). An expression tells one such derivation (`Pipe.of`): a pipe
that holds nothing but steps is taken for a chain, since it could stand for either. -/
namespace PathFilter

/-- The value of the token can be written: a name between quotes, a number without a sign. -/
def Token.Writable : Token → Prop
  | .name text => '"' ∉ text.toList
  | .integer value => 0 ≤ value.toInt
  | .period | .leftBracket | .rightBracket | .colon | .question | .comma | .pipe => True
  | .illegal _ | .endOfInput => False

namespace Filter

/-! ### Shapes -/

/-- A step that selects something and carries values that can be written. -/
def IsLeaf : Filter → Prop
  | .field name => '"' ∉ name.toList
  | .index position => 0 ≤ position.toInt
  | .slice start stop => 0 ≤ start.toInt ∧ 0 ≤ stop.toInt
  | .iterate => True
  | .identity | .optional _ | .pipe _ | .union _ => False

instance : DecidablePred IsLeaf
  | .field name => inferInstanceAs (Decidable ('"' ∉ name.toList))
  | .index position => inferInstanceAs (Decidable (0 ≤ position.toInt))
  | .slice start stop => inferInstanceAs (Decidable (0 ≤ start.toInt ∧ 0 ≤ stop.toInt))
  | .iterate => isTrue trivial
  | .identity | .optional _ | .pipe _ | .union _ => isFalse not_false

/-- What is written from one period to the next. -/
def IsStep : Filter → Prop
  | .identity => True
  | .optional inner => inner.IsLeaf
  | f => f.IsLeaf

instance : DecidablePred IsStep
  | .identity => isTrue trivial
  | .optional inner => inferInstanceAs (Decidable inner.IsLeaf)
  | .field name => inferInstanceAs (Decidable (field name).IsLeaf)
  | .index position => inferInstanceAs (Decidable (index position).IsLeaf)
  | .slice start stop => inferInstanceAs (Decidable (slice start stop).IsLeaf)
  | .iterate => inferInstanceAs (Decidable iterate.IsLeaf)
  | .pipe children => inferInstanceAs (Decidable (pipe children).IsLeaf)
  | .union children => inferInstanceAs (Decidable (union children).IsLeaf)

/-- A step, or several written back to back. -/
def IsChain : Filter → Prop
  | .pipe steps => 2 ≤ steps.length ∧ ∀ f ∈ steps, f.IsStep
  | f => f.IsStep

/-- A chain, or several side by side. -/
def IsUnion : Filter → Prop
  | .union chains => 2 ≤ chains.length ∧ ∀ f ∈ chains, f.IsChain
  | f => f.IsChain

theorem IsStep.isChain {f : Filter} (h : f.IsStep) : f.IsChain := by
  cases f <;> first | exact h | exact h.elim

theorem IsChain.isUnion {f : Filter} (h : f.IsChain) : f.IsUnion := by
  cases f <;> first | exact h | exact h.elim

/-- The chains of a union. Anything else is one chain. -/
def chains : Filter → List Filter
  | .union chains => chains
  | f => [f]

theorem IsChain.chains_eq {f : Filter} (h : f.IsChain) : f.chains = [f] := by
  cases f <;> first | rfl | exact h.elim

/-- The last step of the chain is the identity. -/
def EndsInIdentity : Filter → Prop
  | .pipe steps => steps.getLast? = some .identity
  | f => f = .identity

/-- What a query holds: a step, a chain of several, a union of several chains, or a pipe of
several unions. A pipe of nothing but steps is a chain. If there is a connector, no chain
but the last ends in the identity. -/
def IsExpression (t : Filter) : Prop :=
  t.IsStep ∨
  (∃ steps, t = .pipe steps ∧ 2 ≤ steps.length ∧ ∀ f ∈ steps, f.IsStep) ∨
  (∃ chains, t = .union chains ∧ 2 ≤ chains.length ∧ (∀ f ∈ chains, f.IsChain) ∧
    ∀ c ∈ chains.dropLast, ¬ c.EndsInIdentity) ∨
  (∃ unions, t = .pipe unions ∧ 2 ≤ unions.length ∧ (∀ f ∈ unions, f.IsUnion) ∧
    (∃ f ∈ unions, ¬ f.IsStep) ∧ ∀ c ∈ (unions.flatMap chains).dropLast, ¬ c.EndsInIdentity)

/-! ### How deep they are -/

mutual

/-- The most filters one inside another, the filter itself among them. -/
def depth : Filter → Nat
  | .optional inner => inner.depth + 1
  | .pipe children | .union children => depths children + 1
  | _ => 1

def depths : List Filter → Nat
  | [] => 0
  | f :: rest => max f.depth (depths rest)

end

theorem depths_le {n : Nat} {fs : List Filter} (h : ∀ f ∈ fs, f.depth ≤ n) : depths fs ≤ n := by
  induction fs with
  | nil => exact Nat.zero_le n
  | cons f fs ih => exact Nat.max_le.2 ⟨h f (.head _), ih fun g hg => h g (.tail _ hg)⟩

theorem IsLeaf.depth_le {f : Filter} (h : f.IsLeaf) : f.depth ≤ 1 := by
  cases f <;> first | contradiction | exact Nat.le_refl 1

theorem IsStep.depth_le {f : Filter} (h : f.IsStep) : f.depth ≤ 2 := by
  cases f with
  | optional inner => exact Nat.succ_le_succ (IsLeaf.depth_le h)
  | pipe | union => exact h.elim
  | _ => exact Nat.le_succ 1

theorem IsChain.depth_le {f : Filter} (h : f.IsChain) : f.depth ≤ 3 := by
  cases f with
  | pipe steps => exact Nat.succ_le_succ (depths_le fun g hg => (h.2 g hg).depth_le)
  | _ => exact Nat.le_succ_of_le (IsStep.depth_le h)

theorem IsUnion.depth_le {f : Filter} (h : f.IsUnion) : f.depth ≤ 4 := by
  cases f with
  | union chains => exact Nat.succ_le_succ (depths_le fun g hg => (h.2 g hg).depth_le)
  | _ => exact Nat.le_succ_of_le (IsChain.depth_le h)

/-- No query is deeper than a pipe of unions of chains of optional leaves. -/
theorem IsExpression.depth_le {t : Filter} (h : t.IsExpression) : t.depth ≤ 5 := by
  rcases h with h | ⟨steps, rfl, -, h⟩ | ⟨chains, rfl, -, h, -⟩ | ⟨unions, rfl, -, h, -⟩
  · exact Nat.le_trans h.depth_le (by decide)
  · exact Nat.succ_le_succ (depths_le fun g hg => Nat.le_trans (h g hg).depth_le (by decide))
  · exact Nat.succ_le_succ (depths_le fun g hg => Nat.le_trans (h g hg).depth_le (by decide))
  · exact Nat.succ_le_succ (depths_le fun g hg => (h g hg).depth_le)

end Filter

namespace Grammar
open PathFilter.Filter

namespace Level
variable {α : Type}

theorem two_le_length_members {l : Level α} (h : l.more ≠ []) : 2 ≤ l.members.length :=
  Nat.succ_le_succ (List.length_pos_iff.2 h)

end Level

/-! ### From derivations to trees -/

theorem Step.isStep_tree {a : Step} (h : ∀ t ∈ a.tokens, t.Writable) : a.tree.IsStep := by
  cases a with
  | period => trivial
  | name text marked =>
    have htext : '"' ∉ text.toList := h (.name text) (.tail _ (.head _))
    cases marked <;> exact htext
  | index inner marked =>
    have hleaf : inner.tree.IsLeaf := by
      cases inner with
      | all => trivial
      | name text => exact h (.name text) (by simp [Step.tokens, Index.tokens])
      | element position => exact h (.integer position) (by simp [Step.tokens, Index.tokens])
      | slice start stop =>
        exact ⟨h (.integer start) (by simp [Step.tokens, Index.tokens]),
          h (.integer stop) (by simp [Step.tokens, Index.tokens])⟩
    cases marked with
    | true => exact hleaf
    | false => cases inner <;> exact hleaf

theorem Chain.isChain_tree {c : Chain} (h : ∀ t ∈ c.tokens, t.Writable) : c.tree.IsChain := by
  have hsteps : ∀ a ∈ c.members, a.tree.IsStep := fun a ha =>
    a.isStep_tree fun t ht => h t (Level.mem_spell_of_mem ha ht)
  by_cases hmore : c.more = []
  · rw [Chain.tree, Level.hold_of_single hmore]
    exact (hsteps _ (.head _)).isChain
  · rw [Chain.tree, Level.hold_of_several hmore]
    exact ⟨by simpa using Level.two_le_length_members hmore, List.forall_mem_map.2 hsteps⟩

theorem Union.isUnion_tree {u : Union} (h : ∀ t ∈ u.tokens, t.Writable) : u.tree.IsUnion := by
  have hchains : ∀ c ∈ u.members, c.tree.IsChain := fun c hc =>
    c.isChain_tree fun t ht => h t (Level.mem_spell_of_mem hc ht)
  by_cases hmore : u.more = []
  · rw [Union.tree, Level.hold_of_single hmore]
    exact (hchains _ (.head _)).isUnion
  · rw [Union.tree, Level.hold_of_several hmore]
    exact ⟨by simpa using Level.two_le_length_members hmore, List.forall_mem_map.2 hchains⟩

theorem Step.chains_tree (a : Step) : a.tree.chains = [a.tree] := by
  cases a with
  | period => rfl
  | name text marked => cases marked <;> rfl
  | index inner marked => cases inner <;> cases marked <;> rfl

theorem Chain.chains_tree (c : Chain) : c.tree.chains = [c.tree] := by
  obtain ⟨first, more⟩ := c
  cases more with
  | nil => exact first.chains_tree
  | cons => rfl

theorem Union.chains_tree (u : Union) : u.tree.chains = u.members.map Chain.tree := by
  by_cases hmore : u.more = []
  · rw [Union.tree, Level.hold_of_single hmore, Level.members, hmore]
    exact u.first.chains_tree
  · rw [Union.tree, Level.hold_of_several hmore]
    rfl

/-- The trees of the chains are the chains of the trees. -/
theorem Pipe.map_chains (d : Pipe) :
    d.chains.map Chain.tree = (d.members.map Union.tree).flatMap Filter.chains := by
  rw [Pipe.chains, List.map_flatMap, List.flatMap_map]
  exact List.flatMap_congr fun u _ => (Union.chains_tree u).symm

/-! ### Bare periods -/

theorem Step.endsInIdentity_iff {a : Step} : a.tree.EndsInIdentity ↔ a = .period := by
  cases a with
  | period => simp [Step.tree, EndsInIdentity]
  | name text marked => cases marked <;> simp [Step.tree, markTree, EndsInIdentity]
  | index inner marked =>
    cases inner <;> cases marked <;> simp [Step.tree, markTree, Index.tree, EndsInIdentity]

theorem Step.tree_eq_identity_iff {a : Step} : a.tree = .identity ↔ a = .period := by
  refine ⟨fun h => Step.endsInIdentity_iff.1 (by rw [h]; rfl), fun h => by rw [h]; rfl⟩

theorem Step.getLast?_eq_period_iff {a : Step} :
    a.tokens.getLast? = some .period ↔ a = .period := by
  cases a with
  | period => simp [Step.tokens]
  | name text marked => cases marked <;> simp [Step.tokens, mark]
  | index inner marked => cases inner <;> cases marked <;> simp [Step.tokens, mark, Index.tokens]

theorem Step.tokens_ne_nil (a : Step) : a.tokens ≠ [] := by cases a <;> nofun

/-- A chain ends in a bare period if its last step is the identity. -/
theorem Chain.closed_iff {c : Chain} : c.Closed ↔ ¬ c.tree.EndsInIdentity := by
  obtain ⟨front, last, hmembers⟩ : ∃ front last, c.members = front ++ [last] :=
    ⟨_, _, (List.dropLast_append_getLast (List.cons_ne_nil c.first c.more)).symm⟩
  have htokens : c.tokens.getLast? = last.tokens.getLast? := by
    have : c.tokens = c.members.flatMap Step.tokens := rfl
    rw [this, hmembers, List.flatMap_append, List.flatMap_singleton,
      List.getLast?_append_of_ne_nil _ last.tokens_ne_nil]
  have htree : c.tree.EndsInIdentity ↔ last = .period := by
    by_cases hmore : c.more = []
    · rw [Level.members, hmore] at hmembers
      obtain ⟨rfl, rfl⟩ : front = [] ∧ last = c.first := by
        cases front <;> simp_all
      rw [Chain.tree, Level.hold_of_single hmore, Step.endsInIdentity_iff]
    · rw [Chain.tree, Level.hold_of_several hmore, hmembers, List.map_append, EndsInIdentity,
        List.map_singleton, List.getLast?_concat, Option.some_inj, Step.tree_eq_identity_iff]
  rw [Chain.Closed, htokens, htree]
  exact not_congr Step.getLast?_eq_period_iff

theorem Pipe.lexable_iff_chains (d : Pipe) : Lexable d.tokens ↔
    ∀ f ∈ ((d.members.map Union.tree).flatMap Filter.chains).dropLast, ¬ f.EndsInIdentity := by
  rw [d.lexable_iff, ← d.map_chains, ← List.map_dropLast, List.forall_mem_map]
  exact forall₂_congr fun c _ => Chain.closed_iff

/-- **What a derivation stands for is an expression**, if it can be written. -/
theorem Pipe.isExpression_tree {d : Pipe} (hwritable : ∀ t ∈ d.tokens, t.Writable)
    (hlexable : Lexable d.tokens) : d.tree.IsExpression := by
  have hunions : ∀ u ∈ d.members, ∀ t ∈ u.tokens, t.Writable := fun u hu t ht =>
    hwritable t (Level.mem_spell_of_mem hu ht)
  rw [Pipe.lexable_iff_chains] at hlexable
  by_cases hmore : d.more = []
  · rw [Level.members, hmore, List.map_singleton, List.flatMap_singleton] at hlexable
    rw [Pipe.tree, Level.hold_of_single hmore]
    have hunion := d.first.isUnion_tree (hunions _ (.head _))
    cases htree : d.first.tree with
    | pipe steps =>
      rw [htree] at hunion
      exact .inr (.inl ⟨steps, rfl, hunion⟩)
    | union chains =>
      rw [htree] at hunion hlexable
      exact .inr (.inr (.inl ⟨chains, rfl, hunion.1, hunion.2, hlexable⟩))
    | _ =>
      rw [htree] at hunion
      exact .inl hunion
  · have hlength : 2 ≤ (d.members.map Union.tree).length := by
      simpa using Level.two_le_length_members hmore
    rw [Pipe.tree, Level.hold_of_several hmore]
    by_cases hsteps : ∀ f ∈ d.members.map Union.tree, f.IsStep
    · exact .inr (.inl ⟨_, rfl, hlength, hsteps⟩)
    · push Not at hsteps
      refine .inr (.inr (.inr ⟨_, rfl, hlength, ?_, hsteps, hlexable⟩))
      exact List.forall_mem_map.2 fun u hu => u.isUnion_tree (hunions u hu)

/-! ### From trees to derivations -/

/-- What is behind the period of a leaf. -/
def Step.ofLeaf (marked : Bool) : Filter → Step
  | .field text => .name text marked
  | .index position => .index (.element position) marked
  | .slice start stop => .index (.slice start stop) marked
  | .iterate => .index .all marked
  | _ => .period

def Step.of : Filter → Step
  | .optional inner => .ofLeaf true inner
  | f => .ofLeaf false f

def Chain.of : Filter → Chain
  | .pipe (first :: more) => ⟨Step.of first, more.map Step.of⟩
  | f => ⟨Step.of f, []⟩

def Union.of : Filter → Union
  | .union (first :: more) => ⟨Chain.of first, more.map Chain.of⟩
  | f => ⟨Chain.of f, []⟩

/-- Steps back to back need no connectors. -/
def Pipe.of : Filter → Pipe
  | .pipe (first :: more) =>
    if ∀ f ∈ first :: more, f.IsStep then ⟨Union.of (.pipe (first :: more)), []⟩
    else ⟨Union.of first, more.map Union.of⟩
  | f => ⟨Union.of f, []⟩

/-- A derivation stands for the tree, and its values can be written. -/
structure Tells {α : Type} (tokens : α → List Token) (tree : α → Filter) (a : α) (f : Filter) :
    Prop where
  tree_eq : tree a = f
  writable : ∀ t ∈ tokens a, t.Writable

section
variable {α : Type} {tokens : α → List Token} {tree : α → Filter} {separator : List Token}
  {wrap : List Filter → Filter} {of : Filter → α} {a : α} {f first : Filter} {more : List Filter}

theorem map_tree_of {fs : List Filter} (h : ∀ f ∈ fs, Tells tokens tree (of f) f) :
    (fs.map of).map tree = fs := by
  rw [List.map_map]
  exact (List.map_congr_left fun f hf => (h f hf).tree_eq).trans (List.map_id _)

theorem Tells.single (h : Tells tokens tree a f) :
    Tells (Level.spell separator tokens) (Level.hold wrap tree) ⟨a, []⟩ f where
  tree_eq := h.tree_eq
  writable := by
    rw [Level.spell_single]
    exact h.writable

theorem Tells.several (hseparator : ∀ t ∈ separator, t.Writable)
    (hmore : 2 ≤ (first :: more).length) (h : ∀ f ∈ first :: more, Tells tokens tree (of f) f) :
    Tells (Level.spell separator tokens) (Level.hold wrap tree) ⟨of first, more.map of⟩
      (wrap (first :: more)) where
  tree_eq := by
    have hne : more.map of ≠ [] := by
      rintro heq
      rw [List.map_eq_nil_iff.1 heq] at hmore
      contradiction
    rw [Level.hold_of_several hne]
    exact congrArg wrap (map_tree_of h)
  writable t ht := by
    rcases Level.mem_spell ht with ht | ⟨a, ha, ht⟩
    · exact hseparator t ht
    · obtain ⟨f, hf, rfl⟩ := List.mem_map.1 (show a ∈ (first :: more).map of from ha)
      exact (h f hf).writable t ht

end

theorem Step.tells_ofLeaf {f : Filter} (marked : Bool) (h : f.IsLeaf) :
    Tells Step.tokens Step.tree (.ofLeaf marked f) (markTree marked f) := by
  have hmark : ∀ t ∈ mark marked, t.Writable := by
    cases marked with
    | true => exact List.forall_mem_singleton.2 trivial
    | false => exact nofun
  have hindex : ∀ inner : Index, (∀ t ∈ inner.tokens, t.Writable) →
      ∀ t ∈ (Step.index inner marked).tokens, t.Writable := fun inner hinner =>
    List.forall_mem_cons.2 ⟨trivial, List.forall_mem_append.2 ⟨hinner, hmark⟩⟩
  cases f with
  | field text =>
    exact ⟨rfl, List.forall_mem_cons.2 ⟨trivial, List.forall_mem_cons.2 ⟨h, hmark⟩⟩⟩
  | index position =>
    have hposition : 0 ≤ position.toInt := h
    exact ⟨rfl, hindex (.element position) (by simp [Index.tokens, Token.Writable, hposition])⟩
  | slice start stop =>
    obtain ⟨hstart, hstop⟩ : 0 ≤ start.toInt ∧ 0 ≤ stop.toInt := h
    exact ⟨rfl, hindex (.slice start stop)
      (by simp [Index.tokens, Token.Writable, hstart, hstop])⟩
  | iterate => exact ⟨rfl, hindex .all (by simp [Index.tokens, Token.Writable])⟩
  | identity | optional | pipe | union => exact h.elim

theorem Step.tells_of {f : Filter} (h : f.IsStep) : Tells Step.tokens Step.tree (.of f) f := by
  cases f with
  | identity => exact ⟨rfl, List.forall_mem_singleton.2 trivial⟩
  | optional inner => exact @Step.tells_ofLeaf inner true h
  | field text => exact @Step.tells_ofLeaf (.field text) false h
  | index position => exact @Step.tells_ofLeaf (.index position) false h
  | slice start stop => exact @Step.tells_ofLeaf (.slice start stop) false h
  | iterate => exact @Step.tells_ofLeaf .iterate false h
  | pipe | union => exact h.elim

theorem Chain.tells_of {f : Filter} (h : f.IsChain) : Tells Chain.tokens Chain.tree (.of f) f := by
  cases f with
  | pipe steps =>
    cases steps with
    | nil => exact absurd h.1 (by decide)
    | cons first more => exact .several nofun h.1 fun f hf => Step.tells_of (h.2 f hf)
  | _ => exact .single (Step.tells_of h)

theorem Union.tells_of {f : Filter} (h : f.IsUnion) : Tells Union.tokens Union.tree (.of f) f := by
  cases f with
  | union chains =>
    cases chains with
    | nil => exact absurd h.1 (by decide)
    | cons first more =>
      exact .several (List.forall_mem_singleton.2 trivial) h.1 fun f hf => Chain.tells_of (h.2 f hf)
  | _ => exact .single (Chain.tells_of h)

theorem Pipe.tells_single {f : Filter} (h : f.IsUnion)
    (hchains : ∀ c ∈ f.chains.dropLast, ¬ c.EndsInIdentity) :
    Tells Pipe.tokens Pipe.tree ⟨.of f, []⟩ f ∧ Lexable (Pipe.tokens ⟨.of f, []⟩) := by
  have hof := Union.tells_of h
  refine ⟨.single hof, (Pipe.lexable_iff_chains _).2 ?_⟩
  rwa [Level.members, List.map_singleton, List.flatMap_singleton, hof.tree_eq]

/-- **Every expression is what some derivation stands for**, and that can be written. -/
theorem Pipe.tells_of {t : Filter} (h : t.IsExpression) :
    Tells Pipe.tokens Pipe.tree (.of t) t ∧ Lexable (Pipe.of t).tokens := by
  rcases h with h | ⟨steps, rfl, hlength, h⟩ | ⟨chains, rfl, hlength, h, hchains⟩ |
    ⟨unions, rfl, hlength, h, hstep, hchains⟩
  · have hchains : ∀ c ∈ t.chains.dropLast, ¬ c.EndsInIdentity := by
      rw [h.isChain.chains_eq]
      exact nofun
    have hof := Pipe.tells_single h.isChain.isUnion hchains
    cases t with
    | pipe => exact h.elim
    | _ => exact hof
  · obtain ⟨first, more, rfl⟩ := List.exists_cons_of_length_pos (Nat.le_of_succ_le hlength)
    rw [Pipe.of, if_pos h]
    exact Pipe.tells_single (f := .pipe (first :: more)) ⟨hlength, h⟩ nofun
  · exact Pipe.tells_single (f := .union chains) ⟨hlength, h⟩ hchains
  · obtain ⟨first, more, rfl⟩ := List.exists_cons_of_length_pos (Nat.le_of_succ_le hlength)
    have hof : ∀ f ∈ first :: more, Tells Union.tokens Union.tree (.of f) f := fun f hf =>
      Union.tells_of (h f hf)
    obtain ⟨f, hf, hnot⟩ := hstep
    rw [Pipe.of, if_neg fun hall => hnot (hall f hf)]
    refine ⟨.several (List.forall_mem_singleton.2 trivial) hlength hof,
      (Pipe.lexable_iff_chains _).2 ?_⟩
    have hmembers : (Level.members ⟨Union.of first, more.map Union.of⟩).map Union.tree =
        first :: more := map_tree_of hof
    rwa [hmembers]

end Grammar
end PathFilter
