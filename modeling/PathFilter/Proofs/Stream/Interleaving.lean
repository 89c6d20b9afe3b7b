import PathFilter.Proofs.Context.Table
import PathFilter.Proofs.Lexer.Terminal
import PathFilter.Proofs.Stream.Drivers
import PathFilter.Stream.Session

/-! A stream on demand, moved under two contexts in any order.

What has been handed over and what is to come are a prefix of what was to come
before, whatever is done to the stream, and all of it while the lexer's own context is
live and no move is refused: a move takes the first item, a done context only cuts off
the end, and a command is a number of moves or one change of a context.
So one relation, `Serves`, is followed from a move over a command to a list of commands,
where it composes (`Serves.trans`). Once the lexer's own context is done, the items to
come are the queue, and all that is handed over from then on is a prefix of that. -/
namespace PathFilter
open Lexer

/-! ### One move after another -/

namespace OnDemand
variable {s t u : OnDemand} {own before after last : Option Stop} {items more : List Item}
  {refused again : Prop}

/-- What is queued is the end of what one state offered, and no state was run since: the
reader stands where that one left it. -/
def Offered (s : OnDemand) : Prop :=
  s.queue = [] ∨ ∃ state r, s.reader = ((step false state r).listen true).result.2 ∧
    s.queue <:+ ((step false state r).listen true).items

/-- The first item that the state offered was handed over. -/
def Leftover (s : OnDemand) : Prop :=
  s.queue = [] ∨ ∃ state r, s.reader = ((step false state r).listen true).result.2 ∧
    s.queue <:+ ((step false state r).listen true).items.tail

theorem Leftover.offered (h : s.Leftover) : s.Offered := by
  refine h.imp_right fun ⟨state, r, hreader, hqueue⟩ => ⟨state, r, hreader, ?_⟩
  exact hqueue.trans (List.tail_suffix _)

theorem Offered.leftover {item : Item} {rest : List Item} (h : s.Offered)
    (hqueue : s.queue = item :: rest) :
    Leftover {s with queue := rest, current := some item} := by
  rcases h with hnil | ⟨state, r, hreader, front, hitems⟩
  · rw [hqueue] at hnil
    contradiction
  · refine .inr ⟨state, r, hreader, ?_⟩
    rw [← hitems, hqueue]
    cases front with
    | nil => exact List.suffix_refl _
    | cons first front => exact ⟨front ++ [item], by rw [List.append_assoc]; rfl⟩

theorem Leftover.length_le (h : s.Leftover) : s.queue.length ≤ 5 := by
  rcases h with hnil | ⟨state, r, -, hqueue⟩
  · rw [hnil]
    exact Nat.zero_le 5
  · have hlength := (step_concluded state r).2
    have hle := hqueue.length_le
    rw [List.length_tail] at hle
    omega

theorem offered_work (own : Option Stop) (state : State) (hqueue : s.queue = []) :
    (s.work own state).Offered := by
  cases own with
  | some why =>
    obtain ⟨_, ha⟩ := step_stopped state s.reader
    refine .inl ?_
    rw [work, hqueue, Option.isSome_some, ha]
    rfl
  | none =>
    refine .inr ⟨state, s.reader, rfl, ?_⟩
    rw [work, hqueue]
    exact List.suffix_refl _

theorem leftover_advance (own watcher : Option Stop) (s : OnDemand) (h : s.Offered) :
    (s.advance own watcher).2.Leftover := by
  fun_induction advance own watcher s with
  | case1 => exact .inl rfl
  | case2 s _ item rest hqueue => exact h.leftover hqueue
  | case3 s _ hqueue => exact .inl hqueue
  | case4 s _ hqueue state hnext ih => exact ih (offered_work own state hqueue)

/-- The stream hands over the items and becomes the other, while the lexer's own context
goes from one standing to another. It may be that a move is refused. -/
structure Serves (s : OnDemand) (before : Option Stop) (items : List Item) (refused : Prop)
    (t : OnDemand) (after : Option Stop) : Prop where
  /-- A context that is done stays so. -/
  standing : before.isSome → after.isSome
  current : t.current = items.getLast?.or s.current
  toCome : items ++ t.toCome after <+: s.toCome before
  /-- Nothing is lost while the context is live and no move is refused. -/
  whole : ¬ refused → after = none → items ++ t.toCome after = s.toCome before
  leftover : s.Leftover → t.Leftover
  spent : s.Spent ∨ refused → t.Spent

namespace Serves

/-- Nothing is done but that the lexer's own context may become done. -/
theorem rest (h : before.isSome → after.isSome) (hrefused : ¬ refused) :
    Serves s before [] refused s after where
  standing := h
  current := rfl
  toCome := by
    rw [List.nil_append]
    cases after with
    | none =>
      cases before with
      | none => exact List.prefix_refl _
      | some => exact absurd (h rfl) (by decide)
    | some =>
      rw [OnDemand.toCome, Option.isSome_some, if_pos rfl, List.append_nil]
      exact List.prefix_append _ _
  whole := by
    rintro - rfl
    cases before with
    | none => rfl
    | some => exact absurd (h rfl) (by decide)
  leftover := id
  spent h := h.resolve_right hrefused

theorem trans (h : Serves s before items refused t after)
    (h' : Serves t after more again u last) :
    Serves s before (items ++ more) (refused ∨ again) u last where
  standing := h'.standing ∘ h.standing
  current := by
    rw [h'.current, h.current, List.getLast?_append, Option.or_assoc]
  toCome := by
    rw [List.append_assoc]
    exact ((List.prefix_append_right_inj items).2 h'.toCome).trans h.toCome
  whole := by
    intro hnone hlast
    obtain ⟨hrefused, hagain⟩ := not_or.1 hnone
    have hlive : after = none := by
      cases hafter : after with
      | none => rfl
      | some why =>
        have hdone := h'.standing (by rw [hafter]; rfl)
        rw [hlast] at hdone
        contradiction
    rw [List.append_assoc, h'.whole hagain hlast, h.whole hrefused hlive]
  leftover := h'.leftover ∘ h.leftover
  spent hspent := by
    rcases hspent with hspent | hrefused | hagain
    · exact h'.spent (.inl (h.spent (.inl hspent)))
    · exact h'.spent (.inl (h.spent (.inr hrefused)))
    · exact h'.spent (.inr hagain)

theorem congr (h : Serves s before items refused t after) (hiff : refused ↔ again) :
    Serves s before items again t after := propext hiff ▸ h

end Serves

/-- A move hands over one item, or it is refused. -/
theorem advance_serves (own watcher : Option Stop) (s : OnDemand) :
    match s.advance own watcher with
    | (true, t) => ∃ item, t.current = some item ∧ Serves s own [item] False t own
    | (false, t) => t.current = s.current ∧ Serves s own [] True t own := by
  have hspec := s.advance_spec own watcher
  have hleftover := s.leftover_advance own watcher
  have hspent := fun h : s.Spent => h.advance own watcher
  generalize s.advance own watcher = outcome at hspec hleftover hspent
  obtain ⟨moved, t⟩ := outcome
  cases moved with
  | true =>
    obtain ⟨item, hcurrent, hcome⟩ := hspec
    refine ⟨item, hcurrent, id, hcurrent, ?_, fun _ _ => hcome.symm,
      fun h => hleftover h.offered, fun h => ?_⟩
    · rw [hcome]
      exact List.prefix_refl _
    · cases hspent (h.resolve_right id)
  | false =>
    obtain ⟨ht, hcurrent, -⟩ := hspec
    refine ⟨hcurrent, id, hcurrent, ?_, fun h => absurd trivial h,
      fun h => hleftover h.offered, fun _ => ht⟩
    rw [ht.toCome]
    exact List.nil_prefix

/-! ### Reading under the lexer's own context -/

theorem next_serves (own : Option Stop) (s : OnDemand) :
    ∃ found t, (Tokens.inline s).next own = (found, .inline t) ∧
      Serves s own found.toList (found = none) t own := by
  have hserves := s.advance_serves own own
  cases hmove : s.advance own own with
  | mk moved t =>
    rw [hmove] at hserves
    cases moved with
    | true =>
      obtain ⟨item, hcurrent, hserves⟩ := hserves
      refine ⟨some item, t, ?_, hserves.congr (by simp)⟩
      simp only [Tokens.next, Tokens.advance, hmove, Tokens.current, hcurrent]
    | false =>
      refine ⟨none, t, ?_, hserves.2.congr (by simp)⟩
      simp only [Tokens.next, Tokens.advance, hmove]

theorem take_serves (own : Option Stop) (n : Nat) (s : OnDemand) :
    ∃ items t, (Tokens.inline s).take own n = (items, .inline t) ∧
      Serves s own items (items.length < n) t own := by
  induction n generalizing s with
  | zero => exact ⟨[], s, rfl, .rest id (Nat.not_lt_zero _)⟩
  | succ n ih =>
    obtain ⟨found, t, hnext, hserves⟩ := s.next_serves own
    cases found with
    | none => exact ⟨[], t, by rw [Tokens.take, hnext], hserves.congr (by simp)⟩
    | some item =>
      obtain ⟨items, u, htake, hrest⟩ := ih t
      refine ⟨item :: items, u, by rw [Tokens.take, hnext]; simp only [htake], ?_⟩
      exact (hserves.trans hrest).congr (by simp)

theorem drain_serves (own : Option Stop) (s : OnDemand) :
    ∃ items t, (Tokens.inline s).drain own = (items, .inline t) ∧
      Serves s own items True t own := by
  induction hsize : (Tokens.inline s).size using Nat.strongRecOn generalizing s with
  | ind n ih =>
    obtain ⟨found, t, hnext, hserves⟩ := s.next_serves own
    cases found with
    | none => exact ⟨[], t, Tokens.drain_of_none hnext, hserves.congr (by simp)⟩
    | some item =>
      obtain ⟨items, u, hdrain, hrest⟩ := ih _ (hsize ▸ Tokens.size_next_lt hnext) t rfl
      refine ⟨item :: items, u, by rw [Tokens.drain_of_some hnext, hdrain], ?_⟩
      exact (hserves.trans hrest).congr (by simp)

/-! ### One move -/

theorem toCome_of_done (h : own.isSome) (s : OnDemand) : s.toCome own = s.queue := by
  rw [toCome, if_pos h, List.append_nil]

theorem advance_of_done (own : Option Stop) {watcher : Option Stop} (h : watcher.isSome)
    (s : OnDemand) : ∃ t, s.advance own watcher = (false, t) ∧ t.current = s.current := by
  rw [advance, if_pos h]
  exact ⟨_, rfl, rfl⟩

/-- A live observer is handed over the first item that is to come. -/
theorem advance_of_live (own : Option Stop) (s : OnDemand) :
    (s.advance own none).1 = !(s.toCome own).isEmpty ∧
      (s.advance own none).2.current = (s.toCome own).head?.or s.current := by
  have hspec := s.advance_spec own none
  generalize s.advance own none = outcome at hspec ⊢
  obtain ⟨moved, t⟩ := outcome
  cases moved with
  | true =>
    obtain ⟨item, hcurrent, hcome⟩ := hspec
    rw [hcome]
    exact ⟨rfl, hcurrent⟩
  | false =>
    obtain ⟨-, hcurrent, hcome⟩ := hspec
    rw [hcome rfl]
    exact ⟨rfl, hcurrent⟩

end OnDemand

/-! ### Commands -/

namespace Tokens

/-- The items that a command hands over, by its answer. -/
def Command.delivered : Command → Answer → List Item
  | .advance _, .moved true shown => shown.toList
  | .next, .item found => found.toList
  | .take _, .items found => found
  | .drain, .items found => found
  | _, _ => []

/-- Whether a move that the command makes is refused, by its answer. -/
def Command.refused : Command → Answer → Bool
  | .advance _, .moved success _ => !success
  | .next, .item found => found.isNone
  | .take n, .items found => found.length < n
  | .drain, _ => true
  | _, _ => false

namespace Session

/-- The session after a list of commands. -/
def after (s : Session) : List Command → Session
  | [] => s
  | c :: rest => (s.obey c).2.after rest

/-- All items that the commands hand over. -/
def delivered (s : Session) : List Command → List Item
  | [] => []
  | c :: rest => c.delivered (s.obey c).1 ++ (s.obey c).2.delivered rest

/-- Whether a move that one of the commands makes is refused. -/
def refused (s : Session) : List Command → Bool
  | [] => false
  | c :: rest => c.refused (s.obey c).1 || (s.obey c).2.refused rest

variable {s : Session} {stream : OnDemand}

/-- What a command does to a stream on demand. -/
theorem obey_serves (h : s.tokens = .inline stream) (c : Command) :
    ∃ t, (s.obey c).2.tokens = .inline t ∧
      stream.Serves (s.standing .own) (c.delivered (s.obey c).1) (c.refused (s.obey c).1 = true)
        t ((s.obey c).2.standing .own) := by
  cases c with
  | advance under =>
    have hserves := stream.advance_serves (s.standing .own) (s.standing under)
    cases hmove : stream.advance (s.standing .own) (s.standing under) with
    | mk moved t =>
      rw [hmove] at hserves
      have hobey : s.obey (.advance under) =
          (.moved moved t.current, {s with tokens := .inline t}) := by
        simp only [obey, h, Tokens.advance, hmove, Tokens.current]
      rw [hobey]
      refine ⟨t, rfl, ?_⟩
      cases moved with
      | true =>
        obtain ⟨item, hcurrent, hserves⟩ := hserves
        rw [hcurrent]
        exact hserves.congr (by simp [Command.refused])
      | false => exact hserves.2.congr (by simp [Command.refused])
  | next =>
    obtain ⟨found, t, hnext, hserves⟩ := stream.next_serves (s.standing .own)
    have hobey : s.obey .next = (.item found, {s with tokens := .inline t}) := by
      simp only [obey, h, hnext]
    rw [hobey]
    exact ⟨t, rfl, hserves.congr Option.isNone_iff_eq_none.symm⟩
  | take n =>
    obtain ⟨items, t, htake, hserves⟩ := stream.take_serves (s.standing .own) n
    have hobey : s.obey (.take n) = (.items items, {s with tokens := .inline t}) := by
      simp only [obey, h, htake]
    rw [hobey]
    exact ⟨t, rfl, hserves.congr decide_eq_true_iff.symm⟩
  | drain =>
    obtain ⟨items, t, hdrain, hserves⟩ := stream.drain_serves (s.standing .own)
    have hobey : s.obey .drain = (.items items, {s with tokens := .inline t}) := by
      simp only [obey, h, hdrain]
    rw [hobey]
    exact ⟨t, rfl, hserves.congr (by simp [Command.refused])⟩
  | cancel whose => exact ⟨stream, h, .rest Contexts.stop?_cancel Bool.false_ne_true⟩
  | release whose => exact ⟨stream, h, .rest Contexts.stop?_release Bool.false_ne_true⟩
  | current | stop | describe => exact ⟨stream, h, .rest id Bool.false_ne_true⟩

/-- **What a list of commands does to a stream on demand.** -/
theorem run_serves (h : s.tokens = .inline stream) (commands : List Command) :
    ∃ t, (s.after commands).tokens = .inline t ∧
      stream.Serves (s.standing .own) (s.delivered commands) (s.refused commands = true)
        t ((s.after commands).standing .own) := by
  induction commands generalizing s stream with
  | nil => exact ⟨stream, h, .rest id Bool.false_ne_true⟩
  | cons c rest ih =>
    obtain ⟨t, ht, hfirst⟩ := obey_serves h c
    obtain ⟨u, hu, hrest⟩ := ih ht
    exact ⟨u, hu, (hfirst.trans hrest).congr Bool.or_eq_true_iff.symm⟩

/-- A reader whose context is done is handed over nothing. -/
theorem obey_of_done (h : s.tokens = .inline stream) (hown : (s.standing .own).isSome) :
    (s.obey (.advance .own)).1 = .moved false s.tokens.current ∧
      (s.obey .next).1 = .item none := by
  obtain ⟨t, hmove, hcurrent⟩ := stream.advance_of_done (s.standing .own) hown
  constructor
  · simp only [obey, h, Tokens.advance, hmove, Tokens.current, hcurrent]
  · simp only [obey, h, Tokens.next, Tokens.advance, hmove]

/-- A party whose context is live is handed over the first item that is to come. -/
theorem obey_of_live (h : s.tokens = .inline stream) {p : Party} (hlive : s.standing p = none) :
    (s.obey (.advance p)).1 = .moved (!(stream.toCome (s.standing .own)).isEmpty)
      ((stream.toCome (s.standing .own)).head?.or s.tokens.current) := by
  obtain ⟨hmoved, hcurrent⟩ := stream.advance_of_live (s.standing .own)
  simp only [obey, h, hlive, Tokens.advance, Tokens.current, hmoved, hcurrent]

end Session
end Tokens

open Tokens in
/-- **A stream on demand under any interleaving.** Whatever is done to the stream of a
source, it hands over the items of the source from the first on, and shows the latest. While
the lexer's own context is live and no move was refused, the next item comes out as soon as
it is asked for under a live context. Once a move was refused, every move is, and nothing
changes. Once the lexer's own context is done, moves under it are refused, and a live observer
is handed over what one state left in the queue, at most five items, and nothing else; nothing
at all, if it was done from the start. -/
theorem inline_interleaving (own observer : Contexts.Origin) (source : ByteArray)
    (commands : List Command) :
    let start := Session.start .inline own observer source
    let s := start.after commands
    start.delivered commands <+: lex .inline none source ∧
    s.tokens.current = (start.delivered commands).getLast? ∧
    (s.standing .own = none → start.refused commands = false →
      ∃ rest, lex .inline none source = start.delivered commands ++ rest ∧
        ∀ p, s.standing p = none → (s.obey (.advance p)).1 =
          .moved (!rest.isEmpty) (rest.head?.or s.tokens.current)) ∧
    (start.refused commands = true →
      ∀ own watcher, s.tokens.advance own watcher = (false, s.tokens)) ∧
    ((s.standing .own).isSome → ∃ stream, s.tokens = .inline stream ∧
      stream.Leftover ∧ stream.queue.length ≤ 5 ∧
      (s.standing .observer = none → (s.obey (.advance .observer)).1 =
        .moved (!stream.queue.isEmpty) (stream.queue.head?.or s.tokens.current)) ∧
      ∀ later, s.delivered later <+: stream.queue ∧
        ((s.after later).obey (.advance .own)).1 = .moved false (s.after later).tokens.current ∧
        ((s.after later).obey .next).1 = .item none) ∧
    ((start.standing .own).isSome → start.delivered commands = []) := by
  intro start s
  obtain ⟨stream, hstream, hserves⟩ := Session.run_serves (s := start) rfl commands
  have hstart : (OnDemand.ofSource source).Serves none [] False _ (start.standing .own) :=
    .rest nofun not_false
  have hsource := hstart.trans hserves
  have hdelivered := (List.prefix_append _ _).trans hserves.toCome
  rw [lex_eq_itemsFrom]
  refine ⟨?_, ?_, fun hown hrefused => ?_, fun hrefused own watcher => ?_, fun hown => ?_,
    fun hown => ?_⟩
  · exact (List.prefix_append _ _).trans hsource.toCome
  · rw [hstream]
    exact hserves.current.trans (Option.or_none ..)
  · have hwhole := hsource.whole (by simp [hrefused]) hown
    exact ⟨_, hwhole.symm, fun p hlive => Session.obey_of_live hstream hlive⟩
  · rw [hstream, Tokens.advance, (hserves.spent (.inr hrefused)).advance]
  · have hleftover := hserves.leftover (.inl rfl)
    refine ⟨stream, hstream, hleftover, hleftover.length_le, fun hlive => ?_, fun later => ?_⟩
    · rw [Session.obey_of_live hstream hlive, OnDemand.toCome_of_done hown]
    · obtain ⟨t, ht, hlater⟩ := Session.run_serves hstream later
      refine ⟨?_, Session.obey_of_done ht (hlater.standing hown)⟩
      rw [← OnDemand.toCome_of_done hown]
      exact (List.prefix_append _ _).trans hlater.toCome
  · rw [OnDemand.toCome_of_done hown] at hdelivered
    exact List.prefix_nil.1 hdelivered

open Tokens in
/-- The first move under a live context takes the period. When the lexer's own context is
cancelled, the question mark is queued, and it alone can come out. A stream that was drained
stays so, and one that was opened under a cancelled context hands over nothing. -/
theorem interleaving_of_cancelled :
    let start := Session.start .inline .cancel .background ".a?".toUTF8
    let s := start.after [.next, .next, .cancel .own]
    (∃ rest, lex .inline none ".a?".toUTF8 = rest ∧ (start.obey (.advance .observer)).1 =
      .moved (!rest.isEmpty) (rest.head?.or start.tokens.current)) ∧
    (∃ stream, s.tokens = .inline stream ∧
      (s.obey (.advance .observer)).1 =
        .moved (!stream.queue.isEmpty) (stream.queue.head?.or s.tokens.current) ∧
      ∀ later, s.delivered later <+: stream.queue) ∧
    (∀ own watcher, (start.after [.drain]).tokens.advance own watcher =
      (false, (start.after [.drain]).tokens)) ∧
    (Session.start .inline .cancelled .background ".a?".toUTF8).delivered
      [.next, .advance .observer] = [] := by
  intro start s
  have hlive := (inline_interleaving .cancel .background ".a?".toUTF8 []).2.2.1
    (by decide) rfl
  have hcancelled := (inline_interleaving .cancel .background ".a?".toUTF8
    [.next, .next, .cancel .own]).2.2.2.2.1 (by decide +kernel)
  obtain ⟨rest, hrest, hmove⟩ := hlive
  obtain ⟨stream, hstream, -, -, hobserver, hlater⟩ := hcancelled
  refine ⟨⟨rest, hrest, hmove .observer (by decide)⟩,
    ⟨stream, hstream, hobserver (by decide +kernel), fun later => (hlater later).1⟩, ?_, ?_⟩
  · exact (inline_interleaving .cancel .background ".a?".toUTF8 [.drain]).2.2.2.1 rfl
  · exact (inline_interleaving .cancelled .background ".a?".toUTF8
      [.next, .advance .observer]).2.2.2.2.2 (by decide)

end PathFilter
