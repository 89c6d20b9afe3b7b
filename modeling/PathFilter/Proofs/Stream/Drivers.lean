import PathFilter.Proofs.Lexer.Heard
import PathFilter.Proofs.Stream.Listing
import PathFilter.Stream.Tokens

/-! Both drivers hand over the items of the same run.

The threaded driver plays a dialogue from offer to offer, and the inline driver
runs a state at a time and queues what it offers. What either has still to hand
over is what is heard of the rest of the dialogue when every offer is taken
(`handsOver_threaded`, `handsOver_inline`). -/
namespace PathFilter
open Lexer

/-! ### Handing over -/

namespace Tokens

theorem next_of_moved {own : Option Stop} {s after : Tokens} {item : Item}
    (moved : s.advance own own = (true, after)) (shown : after.current = some item) :
    s.next own = (some item, after) := by
  rw [next, moved]
  exact congrArg (·, after) shown

theorem next_of_refused {own : Option Stop} {s after : Tokens}
    (refused : s.advance own own = (false, after)) : s.next own = (none, after) := by
  rw [next, refused]

theorem drain_of_some {own : Option Stop} {s after : Tokens} {item : Item}
    (h : s.next own = (some item, after)) :
    s.drain own = (item :: (after.drain own).1, (after.drain own).2) := by
  rw [drain]
  split
  · next h' =>
    cases h.symm.trans h'
    rfl
  · next h' => cases h.symm.trans h'

theorem drain_of_none {own : Option Stop} {s after : Tokens} (h : s.next own = (none, after)) :
    s.drain own = ([], after) := by
  rw [drain]
  split
  · next h' => cases h.symm.trans h'
  · next h' =>
    cases h.symm.trans h'
    rfl

/-- Moves under a live context show the items one by one. After the last of them
every move fails and changes nothing. -/
inductive HandsOver : Tokens → List Item → Prop where
  | item {s after : Tokens} {item : Item} {items : List Item}
      (moved : s.advance none none = (true, after)) (shown : after.current = some item)
      (rest : HandsOver after items) : HandsOver s (item :: items)
  | last {s after : Tokens} (refused : s.advance none none = (false, after))
      (again : after.advance none none = (false, after)) : HandsOver s []

namespace HandsOver
variable {s : Tokens} {items : List Item}

/-- All of the items are drained, and nothing comes after them. -/
theorem drain (h : HandsOver s items) :
    (s.drain none).1 = items ∧
      (s.drain none).2.advance none none = (false, (s.drain none).2) := by
  induction h with
  | @item s after item items moved shown rest ih =>
    rw [drain_of_some (next_of_moved moved shown)]
    exact ⟨congrArg _ ih.1, ih.2⟩
  | @last s after refused again =>
    rw [drain_of_none (next_of_refused refused)]
    exact ⟨rfl, again⟩

/-- A parser that watches under a live context is shown the same items. -/
theorem lists (h : HandsOver s items) : Lists (Watched.mk s none none) items .streamClosed := by
  induction h with
  | @item s after item items moved shown rest ih =>
    have hmoved : TokenStream.advance (Watched.mk s none none) = (true, ⟨after, none, none⟩) := by
      simp only [TokenStream.advance, moved]
    exact .item hmoved shown ih
  | @last s after refused again =>
    have hrefused :
        TokenStream.advance (Watched.mk s none none) = (false, ⟨after, none, none⟩) := by
      simp only [TokenStream.advance, refused]
    exact .refused hrefused

end HandsOver
end Tokens

/-! ### A lexer that waits -/

/-- A lexer that was played up to an offer hands over all that is heard of it. -/
theorem Rendezvous.handsOver_threaded (d : Dialogue Unit) : ∀ current records,
    Tokens.HandsOver (.threaded ⟨d.settle.2, current, records⟩) (d.listen true).items := by
  induction d with
  | done => exact fun _ _ => .last rfl rfl
  | note record rest ih => exact ih
  | offer item answer ih => exact fun _ _ => .item rfl rfl (ih true _ _)

/-! ### A lexer that is run on demand -/

namespace OnDemand
variable {own : Option Stop}

/-- The items that are to come. If the lexer's own context is done, they are the queue. -/
def toCome (own : Option Stop) (s : OnDemand) : List Item :=
  s.queue ++ if own.isSome then [] else ((resume (s.next, s.reader)).listen true).items

/-- Nothing is queued, and no state is left to run. -/
def Spent (s : OnDemand) : Prop := s.next = none ∧ s.queue = []

theorem Spent.toCome {s : OnDemand} (h : s.Spent) (own : Option Stop) : s.toCome own = [] := by
  rw [OnDemand.toCome, h.1, h.2]
  cases own <;> rfl

/-- A stream that is spent stays as it is. -/
theorem Spent.advance {s : OnDemand} (h : s.Spent) (own watcher : Option Stop) :
    s.advance own watcher = (false, s) := by
  obtain ⟨reader, next, queue, current, records⟩ := s
  obtain ⟨rfl, rfl⟩ : next = none ∧ queue = [] := h
  rw [OnDemand.advance]
  split <;> rfl

/-- A state that is run leaves the same items to come. -/
theorem toCome_work {s : OnDemand} {state : State} (h : s.next = some state) :
    (s.work own state).toCome own = s.toCome own := by
  cases own with
  | some why =>
    obtain ⟨after, ha⟩ := step_stopped state s.reader
    simp [toCome, work, ha, Dialogue.listen]
  | none =>
    have hrun : ((resume (s.next, s.reader)).listen true).items =
        ((step false state s.reader).listen true).items ++
          ((resume ((step false state s.reader).listen true).result).listen true).items := by
      rw [h]
      show ((run state s.reader).listen true).items = _
      rw [run_eq, Dialogue.listen_bind]
      rfl
    simp only [toCome, Option.isSome_none, Bool.false_eq_true, if_false]
    rw [hrun, ← List.append_assoc]
    rfl

/-- A move that succeeds takes the first of the items that are to come. One that fails
leaves the stream spent, and under a live context there was nothing to come. -/
theorem advance_spec (own watcher : Option Stop) (s : OnDemand) :
    match s.advance own watcher with
    | (true, after) => ∃ item, after.current = some item ∧
        s.toCome own = item :: after.toCome own
    | (false, after) => after.Spent ∧ after.current = s.current ∧
        (watcher = none → s.toCome own = []) := by
  fun_induction advance own watcher s with
  | case1 s h =>
    refine ⟨⟨rfl, rfl⟩, rfl, fun hlive => ?_⟩
    rw [hlive] at h
    contradiction
  | case2 s _ item rest hqueue =>
    refine ⟨item, rfl, ?_⟩
    rw [toCome, hqueue]
    rfl
  | case3 s h hqueue hnext =>
    have hspent : s.Spent := ⟨hnext, hqueue⟩
    exact ⟨hspent, rfl, fun _ => hspent.toCome own⟩
  | case4 s h hqueue state hnext ih =>
    rw [toCome_work hnext] at ih
    exact ih

theorem handsOver_inline (s : OnDemand) : Tokens.HandsOver (.inline s) (s.toCome none) := by
  induction hitems : s.toCome none generalizing s with
  | nil =>
    have hspec := s.advance_spec none none
    cases hmove : s.advance none none with
    | mk moved after =>
      rw [hmove] at hspec
      cases moved with
      | true =>
        obtain ⟨item, -, h⟩ := hspec
        rw [hitems] at h
        contradiction
      | false =>
        have hrefused : (Tokens.inline s).advance none none = (false, .inline after) := by
          simp only [Tokens.advance, hmove]
        exact .last hrefused (by simp only [Tokens.advance, hspec.1.advance])
  | cons item items ih =>
    have hspec := s.advance_spec none none
    cases hmove : s.advance none none with
    | mk moved after =>
      rw [hmove] at hspec
      cases moved with
      | true =>
        obtain ⟨first, hcurrent, h⟩ := hspec
        obtain ⟨rfl, hrest⟩ := List.cons.inj (hitems.symm.trans h)
        have hmoved : (Tokens.inline s).advance none none = (true, .inline after) := by
          simp only [Tokens.advance, hmove]
        exact .item hmoved hcurrent (ih after hrest.symm)
      | false =>
        rw [hitems] at hspec
        exact nomatch hspec.2.2 rfl

end OnDemand

/-! ### A whole source -/

/-- A source that is opened under a live context hands over the items of one run,
with either driver. -/
theorem Tokens.handsOver_ofSource (driver : Driver) (source : ByteArray) :
    HandsOver (.ofSource driver none source) (itemsFrom .expression (Reader.ofBytes source)) := by
  cases driver with
  | threaded => exact Rendezvous.handsOver_threaded _ _ _
  | inline => exact OnDemand.handsOver_inline (.ofSource source)

theorem lex_eq_itemsFrom (driver : Driver) (source : ByteArray) :
    lex driver none source = itemsFrom .expression (Reader.ofBytes source) :=
  (Tokens.handsOver_ofSource driver source).drain.1

/-- No move succeeds under a context that is done. -/
theorem Tokens.advance_of_stopped (s : Tokens) (own : Option Stop) (why : Stop) :
    (s.advance own (some why)).1 = false := by
  cases s with
  | threaded s => rfl
  | inline s => simp [Tokens.advance, OnDemand.advance]

/-- Under a context that is done from the start nothing is shown. -/
theorem Tokens.lists_of_stopped (s : Tokens) (own : Option Stop) (why : Stop) :
    Lists (Watched.mk s own (some why)) [] (.stopped why) := by
  have hrefused : TokenStream.advance (Watched.mk s own (some why)) =
      (false, ⟨(s.advance own (some why)).2, own, some why⟩) :=
    Prod.ext (s.advance_of_stopped own why) rfl
  exact .refused hrefused

theorem lex_of_stopped (driver : Driver) (why : Stop) (source : ByteArray) :
    lex driver (some why) source = [] := by
  have hmove := (Tokens.ofSource driver (some why) source).advance_of_stopped (some why) why
  have hnext : ((Tokens.ofSource driver (some why) source).next (some why)).1 = none := by
    unfold Tokens.next
    split <;> simp_all
  rw [lex, Tokens.drain]
  split <;> simp_all

/-- What a parser is shown of a source does not depend on the driver. -/
theorem exists_lists_ofSource (stop : Option Stop) (source : ByteArray) : ∃ items e, ∀ driver,
    Lists (Watched.mk (.ofSource driver stop source) stop stop) items e := by
  cases stop with
  | none => exact ⟨_, _, fun driver => (Tokens.handsOver_ofSource driver source).lists⟩
  | some why => exact ⟨_, _, fun driver => Tokens.lists_of_stopped _ _ why⟩

end PathFilter
