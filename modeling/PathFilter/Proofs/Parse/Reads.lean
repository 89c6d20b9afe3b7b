import PathFilter.Proofs.Parse.Results

/-! What a parser reads of the items that its stream lists.

`Sees` are the items in front of a parser: one that was pushed back, and those
that the stream still lists. `Comes m l Q E` says that `m`, begun at `l`, ends with
a value in `Q` or with an error in `E`, so it leaves no outcome open. Both classes see
what is left behind, so how far the stream was moved is told of an error too. -/
namespace PathFilter

/-- The items in front of a parser, and the error in which reading them all ends. -/
inductive Lookahead.Sees {σ : Type} [TokenStream σ] (ending : ParseError) :
    Lookahead σ → List Item → Prop where
  | stream {l : Lookahead σ} {items : List Item} (none : l.pushed = 0)
      (rest : Lists l.stream items ending) : Sees ending l items
  | pushed {l : Lookahead σ} {item : Item} {items : List Item} (one : l.pushed = 1)
      (held : l.slots[0]? = some item) (rest : Lists l.stream items ending) :
      Sees ending l (item :: items)

namespace Parser
variable {σ α β : Type}

/-- Every outcome of the parser is in one of two classes. -/
def Comes (m : Parser σ α) (l : Lookahead σ) (Q : α → Lookahead σ → Prop)
    (E : ParseError → Lookahead σ → Prop) : Prop :=
  match m l with
  | .ok a after => Q a after
  | .error e after => E e after

section rules
variable {m : Parser σ α} {f : α → Parser σ β} {l : Lookahead σ} {P Q : α → Lookahead σ → Prop}
  {E : ParseError → Lookahead σ → Prop}

theorem Comes.mono (h : Comes m l P E) (hPQ : ∀ a after, P a after → Q a after) :
    Comes m l Q E := by
  unfold Comes at *
  cases hm : m l with
  | ok a after =>
    rw [hm] at h
    exact hPQ a after h
  | error e after =>
    rw [hm] at h
    exact h

theorem Comes.mono_error {F : ParseError → Lookahead σ → Prop} (h : Comes m l Q E)
    (hEF : ∀ e after, E e after → F e after) : Comes m l Q F := by
  unfold Comes at *
  cases hm : m l with
  | ok a after =>
    rw [hm] at h
    exact h
  | error e after =>
    rw [hm] at h
    exact hEF e after h

theorem Comes.pure {a : α} (h : Q a l) : Comes (Pure.pure a : Parser σ α) l Q E := h

theorem Comes.bind {S : β → Lookahead σ → Prop}
    (h : Comes m l (fun a after => Comes (f a) after S E) E) : Comes (m >>= f) l S E := by
  unfold Comes at h ⊢
  simp only [Bind.bind, EStateM.bind]
  cases hm : m l with
  | ok a after =>
    rw [hm] at h
    exact h
  | error e after =>
    rw [hm] at h
    exact h

theorem comes_throw {e : ParseError} (h : E e l) : Comes (throw e : Parser σ α) l Q E := h

theorem Comes.of_ok {a : α} {after : Lookahead σ} (h : m.result l = (.ok a, after))
    (hQ : Q a after) : Comes m l Q E := by
  rw [Comes, result_eq_ok_iff.1 h]
  exact hQ

theorem Comes.of_error {e : ParseError} {after : Lookahead σ}
    (h : m.result l = (.error e, after)) (hE : E e after) : Comes m l Q E := by
  rw [Comes, result_eq_error_iff.1 h]
  exact hE

end rules

/-! ### Reading one item -/

section reads
variable [TokenStream σ] {ending : ParseError} {l : Lookahead σ} {items : List Item}
  {E : ParseError → Lookahead σ → Prop}

/-- The first item is consumed, and it can be pushed back. -/
theorem next_of_sees (h : l.Sees ending items) : l.pushed ≤ 1 ∧
    ((∃ item rest after, items = item :: rest ∧ next.result l = (.ok item, after) ∧
        Lists after.stream rest ending ∧ after.Sees ending rest ∧
        Lookahead.Sees ending {after with pushed := after.pushed + 1} items) ∨
      items = [] ∧ ∃ after, next.result l = (.error ending, after)) := by
  cases h with
  | stream none hlists =>
    refine ⟨by omega, ?_⟩
    rcases hlists.move with ⟨item, rest, rfl, ho, hrest⟩ | ⟨rfl, ho⟩
    · exact .inl ⟨item, rest, _, rfl, next_of_ok none ho, hrest, .stream rfl hrest,
        .pushed rfl (by simp) hrest⟩
    · exact .inr ⟨rfl, _, next_of_error none ho⟩
  | pushed one held rest =>
    exact ⟨Nat.le_of_eq one, .inl ⟨_, _, _, rfl, next_of_pushed one held, rest, .stream rfl rest,
      .pushed rfl held rest⟩⟩

/-- The first item is consumed. -/
theorem comes_next {Q : Item → Lookahead σ → Prop} (h : l.Sees ending items)
    (hnil : items = [] → ∀ after, E ending after)
    (hcons : ∀ item rest after, items = item :: rest → Lists after.stream rest ending →
      after.Sees ending rest → Q item after) : Comes next l Q E := by
  rcases (next_of_sees h).2 with ⟨item, rest, after, hitems, hnext, hrest, hsees, -⟩ |
    ⟨hitems, after, hnext⟩
  · exact .of_ok hnext (hcons item rest after hitems hrest hsees)
  · exact .of_error hnext (hnil hitems after)

/-- The first item is looked at. -/
theorem comes_peek {Q : Item → Lookahead σ → Prop} (h : l.Sees ending items)
    (hnil : items = [] → ∀ after, E ending after)
    (hcons : ∀ item rest after, items = item :: rest → Lists after.stream rest ending →
      after.Sees ending items → Q item after) : Comes peek l Q E := by
  obtain ⟨hp, ⟨item, rest, after, hitems, hnext, hrest, -, hback⟩ | ⟨hitems, after, hnext⟩⟩ :=
    next_of_sees h
  · exact .of_ok (peek_of_ok hp hnext) (hcons item rest _ hitems hrest hback)
  · exact .of_error (peek_of_error hp hnext) (hnil hitems after)

theorem comes_peekKind {Q : Kind → Lookahead σ → Prop} (h : l.Sees ending items)
    (hnil : items = [] → ∀ after, E ending after)
    (hcons : ∀ item rest after, items = item :: rest → after.Sees ending items →
      Q item.kind after) : Comes peekKind l Q E :=
  .bind <| comes_peek h hnil fun item rest after hitems _ hsees =>
    .pure <| hcons item rest after hitems hsees

/-- An item of the kind is consumed, and any other is pushed back. -/
theorem comes_accept {kind : Kind} {Q : Bool → Lookahead σ → Prop} (h : l.Sees ending items)
    (hnil : items = [] → ∀ after, E ending after)
    (hyes : ∀ item rest after, items = item :: rest → item.kind = kind →
      after.Sees ending rest → Q true after)
    (hno : ∀ item rest after, items = item :: rest → item.kind ≠ kind →
      after.Sees ending items → Q false after) : Comes (accept kind) l Q E := by
  rcases (next_of_sees h).2 with ⟨item, rest, after, hitems, hnext, -, hsees, hback⟩ |
    ⟨hitems, after, hnext⟩
  · have haccept : (accept kind).result l = _ := accept_of_ok hnext
    split at haccept
    · next hkind => exact .of_ok haccept (hyes item rest after hitems hkind hsees)
    · next hkind => exact .of_ok haccept (hno item rest _ hitems hkind hback)
  · exact .of_error (accept_of_error hnext) (hnil hitems after)

theorem comes_expect {kind : Kind} {wanted : String} {Q : Item → Lookahead σ → Prop}
    (h : l.Sees ending items) (hnil : items = [] → ∀ after, E ending after)
    (hyes : ∀ item rest after, items = item :: rest → item.kind = kind →
      Lists after.stream rest ending → after.Sees ending rest → Q item after)
    (hno : ∀ item rest after, items = item :: rest → item.kind ≠ kind →
      Lists after.stream rest ending → E (item.unexpected wanted) after) :
    Comes (expect kind wanted) l Q E := by
  refine .bind <| comes_next h hnil fun item rest after hitems hrest hsees => ?_
  split
  · next hkind => exact .pure <| hyes item rest after hitems hkind hrest hsees
  · next hkind => exact comes_throw <| hno item rest after hitems hkind hrest

end reads
end Parser
end PathFilter
