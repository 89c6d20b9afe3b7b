import PathFilter.Parse.Error
import PathFilter.Stream.Replay

/-! What a stream shows to one who reads on until a move fails.

`Lists` is the relation between a stream, its items and the error in which the
reading ends. A parser is told nothing else by its stream. -/
namespace PathFilter

/-- What a failed move is reported as. -/
def TokenStream.ending : Option Stop → ParseError
  | some why => .stopped why
  | none => .streamClosed

/-- The stream shows the items, one a move, and then reading ends in the error. -/
inductive Lists {σ : Type} [TokenStream σ] : σ → List Item → ParseError → Prop where
  | item {s after : σ} {item : Item} {items : List Item} {e : ParseError}
      (moved : TokenStream.advance s = (true, after))
      (shown : TokenStream.current after = some item) (rest : Lists after items e) :
      Lists s (item :: items) e
  /-- A move succeeds and shows nothing. -/
  | hole {s after : σ} (moved : TokenStream.advance s = (true, after))
      (shown : TokenStream.current after = none) : Lists s [] .streamClosed
  | refused {s after : σ} (moved : TokenStream.advance s = (false, after)) :
      Lists s [] (TokenStream.ending (TokenStream.stop? after))

/-- Every stream lists something. -/
theorem exists_lists {σ : Type} [TokenStream σ] (s : σ) : ∃ items e, Lists s items e := by
  induction hn : TokenStream.size s using Nat.strongRecOn generalizing s with
  | ind n ih =>
    cases hm : TokenStream.advance s with
    | mk moved after =>
      cases moved with
      | false => exact ⟨[], _, .refused hm⟩
      | true =>
        cases hc : TokenStream.current after with
        | none => exact ⟨[], _, .hole hm hc⟩
        | some item =>
          have hlt := TokenStream.size_advance_lt s (by rw [hm])
          rw [hm, hn] at hlt
          obtain ⟨items, e, h⟩ := ih _ hlt after rfl
          exact ⟨item :: items, e, .item hm hc h⟩

/-- A list of items that is replayed under a live context. -/
theorem Replay.lists {contexts : Contexts} {context : Context}
    (live : contexts.stop? context = none) (items : List Item) :
    ∀ moves current,
      Lists (Replay.mk items current contexts context moves none none) items .streamClosed := by
  have hdone : contexts.isDone context = false := by rw [Contexts.isDone, live]; rfl
  induction items with
  | nil =>
    intro moves current
    have hmove : Replay.advance ⟨[], current, contexts, context, moves, none, none⟩ =
        (false, ⟨[], none, contexts, context, moves + 1, none, none⟩) := by
      simp [advance, sabotage, shift, hdone]
    have := Lists.refused (σ := Replay) hmove
    rwa [show TokenStream.stop? (σ := Replay) _ = none from live] at this
  | cons item items ih =>
    intro moves current
    have hmove : Replay.advance ⟨item :: items, current, contexts, context, moves, none, none⟩ =
        (true, ⟨items, some item, contexts, context, moves + 1, none, none⟩) := by
      simp [advance, sabotage, shift, hdone]
    exact .item hmove rfl (ih _ _)

end PathFilter
