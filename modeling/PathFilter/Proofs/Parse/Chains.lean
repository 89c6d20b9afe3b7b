import Mathlib.Data.List.Chain
import PathFilter.Proofs.Parse.Builds

/-! The chains of a derivation, in the order they are written.

The levels above a chain only put connectors between chains. So what the tokens of a
derivation look like around a connector is told by its chains alone: no connector
comes directly behind a period if and only if no chain but the last ends in a bare
period (`Pipe.lexable_iff`). -/
namespace PathFilter

/-- No connector comes directly behind a period. -/
def Lexable (ts : List Token) : Prop :=
  ts.IsChain fun a b => a = .period → b ≠ .pipe ∧ b ≠ .comma

namespace Grammar

/-! ### Connectors are spelled above the chains -/

/-- Only levels above a chain spell connectors. -/
theorem Step.ne_connector {a : Step} {t : Token} (h : t ∈ a.tokens) : t ≠ .pipe ∧ t ≠ .comma := by
  have hmark : ∀ marked, ∀ t ∈ mark marked, t ≠ .pipe ∧ t ≠ .comma := by decide
  cases a with
  | period =>
    rw [List.mem_singleton.1 h]
    decide
  | name text marked =>
    rcases List.mem_cons.1 h with rfl | h
    · decide
    · rcases List.mem_cons.1 h with rfl | h
      · exact ⟨nofun, nofun⟩
      · exact hmark _ _ h
  | index inner marked =>
    have hinner : ∀ t ∈ inner.tokens, t ≠ .pipe ∧ t ≠ .comma := by
      cases inner <;> simp [Index.tokens]
    rcases List.mem_cons.1 h with rfl | h
    · decide
    · exact (List.mem_append.1 h).elim (hinner t) (hmark marked t)

theorem Chain.ne_connector {c : Chain} {t : Token} (h : t ∈ c.tokens) : t ≠ .pipe ∧ t ≠ .comma := by
  rcases Level.mem_spell h with h | ⟨a, -, h⟩
  · exact nomatch h
  · exact a.ne_connector h

theorem Union.ne_pipe {u : Union} {t : Token} (h : t ∈ u.tokens) : t ≠ .pipe := by
  rcases Level.mem_spell h with h | ⟨c, -, h⟩
  · rw [List.mem_singleton.1 h]
    nofun
  · exact c.ne_connector h |>.1

/-! ### Connectors behind periods -/

/-- The chain does not end in a bare period. -/
def Chain.Closed (c : Chain) : Prop := c.tokens.getLast? ≠ some .period

theorem lexable_of_ne_connector {ts : List Token} (h : ∀ t ∈ ts, t ≠ .pipe ∧ t ≠ .comma) :
    Lexable ts := by
  induction ts with
  | nil => exact .nil
  | cons t ts ih =>
    refine List.isChain_cons.2 ⟨fun u hu _ => h u (.tail _ (List.mem_of_mem_head? hu)), ?_⟩
    exact ih fun u hu => h u (.tail _ hu)

/-- The chains a rule is made of tell whether what it spells is lexable, alone and in front
of a connector. -/
structure Cut {α : Type} (member : α → List Token) (chains : α → List Chain) : Prop where
  ne_nil : ∀ a, chains a ≠ []
  alone : ∀ a, Lexable (member a) ↔ ∀ c ∈ (chains a).dropLast, c.Closed
  before : ∀ a connector rest, connector = .pipe ∨ connector = .comma →
    (Lexable (member a ++ connector :: rest) ↔ (∀ c ∈ chains a, c.Closed) ∧ Lexable rest)

theorem cut_chain : Cut Chain.tokens fun c => [c] where
  ne_nil _ := List.cons_ne_nil _ _
  alone c := iff_of_true (lexable_of_ne_connector fun _ => c.ne_connector) nofun
  before c connector rest hconnector := by
    have hchain : Lexable c.tokens := lexable_of_ne_connector fun _ => c.ne_connector
    have hrest : Lexable (connector :: rest) ↔ Lexable rest := by
      refine List.isChain_cons.trans (and_iff_right fun u _ hperiod => ?_)
      rcases hconnector with rfl | rfl <;> contradiction
    have hlast : (∀ t ∈ c.tokens.getLast?, ∀ u ∈ (connector :: rest).head?,
        t = .period → u ≠ .pipe ∧ u ≠ .comma) ↔ c.Closed := by
      constructor
      · intro h hperiod
        have := h _ hperiod _ rfl rfl
        rcases hconnector with rfl | rfl
        · exact this.1 rfl
        · exact this.2 rfl
      · rintro h t ht u - rfl
        exact absurd ht h
    rw [Lexable, List.isChain_append, hlast, List.forall_mem_singleton]
    exact ⟨fun h => ⟨h.2.2, hrest.1 h.2.1⟩, fun h => ⟨hchain, hrest.2 h.2, h.1⟩⟩

section
variable {α : Type} {member : α → List Token} {chains : α → List Chain} {connector : Token}

theorem cut_level (hconnector : connector = .pipe ∨ connector = .comma) (h : Cut member chains) :
    Cut (Level.spell [connector] member) fun l => l.members.flatMap chains where
  ne_nil l := by
    rw [Level.members, List.flatMap_cons]
    exact List.append_ne_nil_of_left_ne_nil (h.ne_nil _) _
  alone l := by
    obtain ⟨first, more⟩ := l
    induction more generalizing first with
    | nil =>
      rw [Level.spell_single, h.alone]
      simp only [Level.members, List.flatMap_singleton]
    | cons next more ih =>
      have hne : (Level.members ⟨next, more⟩).flatMap chains ≠ [] := by
        rw [Level.members, List.flatMap_cons]
        exact List.append_ne_nil_of_left_ne_nil (h.ne_nil _) _
      rw [Level.spell_cons, List.singleton_append, h.before _ _ _ hconnector, ih,
        Level.members_cons, List.flatMap_cons, List.dropLast_append_of_ne_nil hne,
        List.forall_mem_append]
  before l second rest hsecond := by
    obtain ⟨first, more⟩ := l
    induction more generalizing first with
    | nil =>
      rw [Level.spell_single, h.before _ _ _ hsecond]
      simp only [Level.members, List.flatMap_singleton]
    | cons next more ih =>
      rw [Level.spell_cons, List.append_assoc, List.singleton_append, List.cons_append,
        h.before _ _ _ hconnector, ih, Level.members_cons, List.flatMap_cons,
        List.forall_mem_append, and_assoc]

end

/-- The chains of a derivation, in order. -/
def Pipe.chains (d : Pipe) : List Chain := d.members.flatMap Level.members

/-- A derivation is lexable if no chain but the last ends in a bare period. -/
theorem Pipe.lexable_iff (d : Pipe) : Lexable d.tokens ↔ ∀ c ∈ d.chains.dropLast, c.Closed := by
  have hunion := cut_level (.inr rfl) cut_chain
  have hpipe := cut_level (.inl rfl) hunion
  have hmembers : (fun u : Union => u.members.flatMap fun c => [c]) = Level.members :=
    funext fun u => List.flatMap_singleton' _
  rw [hmembers] at hpipe
  exact hpipe.alone d

end Grammar
end PathFilter
