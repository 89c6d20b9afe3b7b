import PathFilter.Proofs.Stream.Interleaving

/-! Items that two threads hand over.

A session runs the lexer up to its next offer at once. In truth the lexer works on its own,
and the reader may call at any time, wait, and be refused while the lexer already waits
with the next item. An `Exchange` takes such small steps, in any order. Each of them is a
command of a session, or none (`Exchange.Step.simulated`), so whatever the two threads do,
the reader cannot tell it from a session, and for a session it is one move after another:
the items still to come are what is heard of the dialogue the lexer is in, a move takes the
first of them, and a refused move leaves them as they are (`Session.Waits`). -/
namespace PathFilter
open Lexer

/-! ### A lexer that waits -/

namespace Lexer.Dialogue

/-- All items of a dialogue, none of them refused. -/
def items (d : Dialogue Unit) : List Item := (d.listen true).items

/-- A dialogue that was played to its first offer waits there, or it has ended. -/
theorem settle_cases : (d : Dialogue Unit) →
    d.items = [] ∧ d.settle.2 = .done () ∨ ∃ item answer,
      d.items = item :: (answer true).items ∧ d.settle.2 = .offer item answer
  | .done _ => .inl ⟨rfl, rfl⟩
  | .note _ rest => settle_cases rest
  | .offer item answer => .inr ⟨item, answer, rfl, rfl⟩

end Lexer.Dialogue

namespace Tokens

/-- A command that moves the stream at most once and leaves the lexer's own context alone. -/
def Command.Spares : Command → Prop
  | .take _ | .drain | .cancel .own | .release .own => False
  | _ => True

/-- Whether the move that the command was succeeded. -/
def Answer.success? : Answer → Option Bool
  | .moved success _ => some success
  | _ => Option.none

namespace Session
variable {s : Session} {d : Dialogue Unit} {p : Party}

theorem after_append (s : Session) (a b : List Command) :
    s.after (a ++ b) = (s.after a).after b := by
  induction a generalizing s with
  | nil => rfl
  | cons c rest ih => exact ih _

theorem delivered_append (s : Session) (a b : List Command) :
    s.delivered (a ++ b) = s.delivered a ++ (s.after a).delivered b := by
  induction a generalizing s with
  | nil => rfl
  | cons c rest ih => rw [List.cons_append, delivered, delivered, ih, List.append_assoc]; rfl

theorem run_append (s : Session) (a b : List Command) :
    s.run (a ++ b) = s.run a ++ (s.after a).run b := by
  induction a generalizing s with
  | nil => rfl
  | cons c rest ih => exact congrArg _ (ih _)

/-- The lexer is in a dialogue, under a context that is live, and it does not work ahead. -/
structure Waits (s : Session) (d : Dialogue Unit) : Prop where
  stream : ∃ stream, s.tokens = .threaded stream ∧ stream.lexer = d.settle.2
  live : s.standing .own = none
  apart : s.own ≠ s.observer

/-- What the next move does when these items are still to come. -/
structure Expects (s : Session) (rest : List Item) : Prop where
  /-- A move under a live context takes the next item. -/
  advance : ∀ p, s.standing p = none → (s.obey (.advance p)).1 =
    .moved (!rest.isEmpty) (rest.head?.or s.tokens.current)
  next : (s.obey .next).1 = .item rest.head?
  /-- A move under a done context changes nothing. -/
  refused : ∀ p, (s.standing p).isSome →
    s.obey (.advance p) = (.moved false s.tokens.current, s)
  /-- No move goes beyond the last item. -/
  ended : rest = [] → ∀ p, s.obey (.advance p) = (.moved false s.tokens.current, s)

theorem obey_next (s : Session) : s.obey .next =
    (.item (match (s.obey (.advance .own)).1 with
      | .moved true shown => shown
      | _ => none), (s.obey (.advance .own)).2) := by
  simp only [obey, Tokens.next]
  cases s.tokens.advance (s.standing .own) (s.standing .own) with
  | mk moved after => cases moved <;> rfl

namespace Waits

theorem refused (h : s.Waits d) (hdone : (s.standing p).isSome) :
    s.obey (.advance p) = (.moved false s.tokens.current, s) := by
  obtain ⟨stream, hstream, -⟩ := h.stream
  have hmove : s.tokens.advance (s.standing .own) (s.standing p) = (false, s.tokens) := by
    rw [hstream, Tokens.advance, Rendezvous.advance, if_pos hdone]
  simp only [obey, hmove]

theorem ended (h : s.Waits d) (hitems : d.items = []) (p : Party) :
    s.obey (.advance p) = (.moved false s.tokens.current, s) := by
  by_cases hdone : (s.standing p).isSome
  · exact h.refused hdone
  · obtain ⟨stream, hstream, hlexer⟩ := h.stream
    rcases d.settle_cases with ⟨-, hsettle⟩ | ⟨item, answer, hmore, -⟩
    · have hmove : s.tokens.advance (s.standing .own) (s.standing p) = (false, s.tokens) := by
        rw [hstream, Tokens.advance, Rendezvous.advance, if_neg hdone, h.live,
          Rendezvous.offered, hlexer, hsettle]
        rfl
      simp only [obey, hmove]
    · rw [hitems] at hmore
      contradiction

/-- A live party takes the item that is offered. -/
theorem taken (h : s.Waits d) (hlive : s.standing p = none) {item : Item}
    {answer : Bool → Dialogue Unit} (hsettle : d.settle.2 = .offer item answer) :
    ∃ tokens, s.obey (.advance p) = (.moved true (some item), {s with tokens}) ∧
      tokens.current = some item ∧ Waits {s with tokens} (answer true) := by
  obtain ⟨stream, hstream, hlexer⟩ := h.stream
  have hmove : s.tokens.advance (s.standing .own) (s.standing p) =
      (true, .threaded {stream.reply true with current := some item}) := by
    rw [hstream, Tokens.advance, Rendezvous.advance, hlive, h.live, Rendezvous.offered, hlexer,
      hsettle]
    rfl
  refine ⟨.threaded {stream.reply true with current := some item}, ?_, rfl, ⟨_, rfl, ?_⟩, h.live,
    h.apart⟩
  · simp only [obey, hmove]
    rfl
  · simp only [Rendezvous.reply, hlexer, hsettle]

theorem expects (h : s.Waits d) : s.Expects d.items where
  advance p hlive := by
    rcases d.settle_cases with ⟨hitems, -⟩ | ⟨item, answer, hitems, hsettle⟩
    · rw [h.ended hitems, hitems]
      rfl
    · obtain ⟨tokens, hobey, -⟩ := h.taken hlive hsettle
      rw [hobey, hitems]
      rfl
  next := by
    rw [obey_next]
    rcases d.settle_cases with ⟨hitems, -⟩ | ⟨item, answer, hitems, hsettle⟩
    · rw [h.ended hitems, hitems]
      rfl
    · obtain ⟨tokens, hobey, -⟩ := h.taken h.live hsettle
      rw [hobey, hitems]
      rfl
  refused _ hdone := h.refused hdone
  ended hitems p := h.ended hitems p

/-- A move takes the first item that is to come, or none. -/
theorem advance (h : s.Waits d) (p : Party) : ∃ (e : Dialogue Unit) (found : Option Item),
    (s.obey (.advance p)).1 = .moved found.isSome (found.or s.tokens.current) ∧
      (s.obey (.advance p)).2.Waits e ∧ d.items = found.toList ++ e.items ∧
      (s.obey (.advance p)).2.tokens.current = found.or s.tokens.current := by
  by_cases hdone : (s.standing p).isSome
  · rw [h.refused hdone]
    exact ⟨d, none, rfl, h, rfl, rfl⟩
  · rcases d.settle_cases with ⟨hitems, -⟩ | ⟨item, answer, hitems, hsettle⟩
    · rw [h.ended hitems]
      exact ⟨d, none, rfl, h, rfl, rfl⟩
    · have hlive := Option.not_isSome_iff_eq_none.1 hdone
      obtain ⟨tokens, hobey, hcurrent, hwaits⟩ := h.taken hlive hsettle
      rw [hobey]
      exact ⟨answer true, some item, rfl, hwaits, hitems, hcurrent⟩

/-- What the observer's context comes to does not concern the lexer's own. -/
theorem concerning_observer (h : s.Waits d) {contexts : Contexts}
    (hother : ∀ c, c ≠ s.observer → contexts.stop? c = s.contexts.stop? c) :
    Waits {s with contexts} d where
  stream := h.stream
  live := (hother s.own h.apart).trans h.live
  apart := h.apart

/-- A command hands over the first items that are to come. -/
theorem obey (h : s.Waits d) {c : Command} (hc : c.Spares) : ∃ e,
    (s.obey c).2.Waits e ∧ d.items = c.delivered (s.obey c).1 ++ e.items ∧
      (s.obey c).2.tokens.current = (c.delivered (s.obey c).1).getLast?.or s.tokens.current := by
  cases c with
  | advance under =>
    obtain ⟨e, found, hanswer, hwaits, hitems, hcurrent⟩ := h.advance under
    rw [hanswer]
    cases found <;> exact ⟨e, hwaits, hitems, hcurrent⟩
  | next =>
    obtain ⟨e, found, hanswer, hwaits, hitems, hcurrent⟩ := h.advance .own
    rw [obey_next, hanswer]
    cases found <;> exact ⟨e, hwaits, hitems, hcurrent⟩
  | current | stop | describe => exact ⟨d, h, rfl, rfl⟩
  | cancel whose =>
    cases whose with
    | own => exact hc.elim
    | observer =>
      exact ⟨d, h.concerning_observer fun _ => Contexts.stop?_cancel_of_ne, rfl, rfl⟩
  | release whose =>
    cases whose with
    | own => exact hc.elim
    | observer =>
      exact ⟨d, h.concerning_observer fun _ => Contexts.stop?_release_of_ne, rfl, rfl⟩
  | take | drain => exact hc.elim

theorem after (h : s.Waits d) {commands : List Command} (hspares : ∀ c ∈ commands, c.Spares) :
    ∃ e, (s.after commands).Waits e ∧ d.items = s.delivered commands ++ e.items ∧
      (s.after commands).tokens.current =
        (s.delivered commands).getLast?.or s.tokens.current := by
  induction commands generalizing s d with
  | nil => exact ⟨d, h, rfl, rfl⟩
  | cons c rest ih =>
    obtain ⟨hc, hrest⟩ := List.forall_mem_cons.1 hspares
    obtain ⟨e, hwaits, hitems, hcurrent⟩ := h.obey hc
    obtain ⟨f, hwaits, hmore, hlast⟩ := ih hwaits hrest
    refine ⟨f, hwaits, ?_, ?_⟩
    · rw [hitems, hmore, delivered, List.append_assoc]
    · rw [Session.after, hlast, hcurrent, delivered, List.getLast?_append, Option.or_assoc]

end Waits

/-! ### A lexer whose context is done -/

/-- A context that is done stays so. -/
theorem standing_obey (h : (s.standing p).isSome) (c : Command) :
    ((s.obey c).2.standing p).isSome := by
  cases c with
  | cancel whose => cases p <;> exact Contexts.stop?_cancel h
  | release whose => cases p <;> exact Contexts.stop?_release h
  | _ => exact h

section
variable {own : Option Stop} (h : own.isSome) (stream : Rendezvous)
include h

theorem next_of_done : (Tokens.threaded stream).next own = (none, .threaded stream) := by
  have hmove : (Tokens.threaded stream).advance own own = (false, .threaded stream) := by
    rw [Tokens.advance, Rendezvous.advance, if_pos h]
  rw [Tokens.next, hmove]

theorem take_of_done (n : Nat) :
    (Tokens.threaded stream).take own n = ([], .threaded stream) := by
  cases n with
  | zero => rfl
  | succ n => rw [Tokens.take, next_of_done h]

theorem drain_of_done : (Tokens.threaded stream).drain own = ([], .threaded stream) :=
  Tokens.drain_of_none (next_of_done h stream)

end

section
variable {stream : Rendezvous} (hstream : s.tokens = .threaded stream)
  (h : (s.standing .own).isSome)
include hstream h

theorem advance_of_own_done (p : Party) : ∃ after, after.current = stream.current ∧
    s.obey (.advance p) = (.moved false stream.current, {s with tokens := .threaded after}) := by
  have hmove : ∃ after, after.current = stream.current ∧
      s.tokens.advance (s.standing .own) (s.standing p) = (false, .threaded after) := by
    rw [hstream, Tokens.advance, Rendezvous.advance]
    by_cases hdone : (s.standing p).isSome
    · exact ⟨stream, rfl, by rw [if_pos hdone]⟩
    · refine ⟨stream.close, ?_, by rw [if_neg hdone, if_pos h]⟩
      unfold Rendezvous.close Rendezvous.reply
      split <;> rfl
  obtain ⟨after, hcurrent, hmove⟩ := hmove
  refine ⟨after, hcurrent, ?_⟩
  simp only [obey, hmove, Tokens.current, hcurrent]

/-- A lexer whose own context is done hands over nothing to anyone. -/
theorem obey_of_own_done (c : Command) : ∃ after, (s.obey c).2.tokens = .threaded after ∧
    after.current = stream.current ∧ c.delivered (s.obey c).1 = [] := by
  cases c with
  | advance under =>
    obtain ⟨after, hcurrent, hobey⟩ := advance_of_own_done hstream h under
    rw [hobey]
    exact ⟨after, rfl, hcurrent, rfl⟩
  | next =>
    simp only [obey, hstream, next_of_done h]
    exact ⟨stream, rfl, rfl, rfl⟩
  | take n =>
    simp only [obey, hstream, take_of_done h]
    exact ⟨stream, rfl, rfl, rfl⟩
  | drain =>
    simp only [obey, hstream, drain_of_done h]
    exact ⟨stream, rfl, rfl, rfl⟩
  | cancel | release | current | stop | describe => exact ⟨stream, hstream, rfl, rfl⟩

theorem delivered_of_own_done (commands : List Command) : s.delivered commands = [] ∧
    ∀ p, ((s.after commands).obey (.advance p)).1 = .moved false stream.current := by
  induction commands generalizing s stream with
  | nil =>
    refine ⟨rfl, fun p => ?_⟩
    obtain ⟨after, -, hobey⟩ := advance_of_own_done hstream h p
    exact congrArg Prod.fst hobey
  | cons c rest ih =>
    obtain ⟨after, hafter, hcurrent, hdelivered⟩ := obey_of_own_done hstream h c
    obtain ⟨hrest, hmoves⟩ := ih hafter (standing_obey h c)
    rw [hcurrent] at hmoves
    exact ⟨by rw [delivered, hdelivered, hrest]; rfl, hmoves⟩

end

end Session

/-! ### Two threads -/

/-- The lexer on its own thread, and a reader who calls for items. -/
structure Exchange where
  contexts : Contexts
  own : Context
  observer : Context
  /-- Where the lexer has got to. -/
  lexer : Dialogue Unit
  /-- Under whose context the reader waits for an item, while it waits. -/
  waiting : Option Party
  current : Option Item

namespace Exchange

/-- Opens a source. The reader does not wait yet. -/
def start (own observer : Contexts.Origin) (source : ByteArray) : Exchange :=
  let s := Session.start .threaded own observer source
  ⟨s.contexts, s.own, s.observer, session (s.standing .own) source, none, none⟩

inductive Event where
  /-- The lexer goes on by itself. -/
  | work
  /-- The reader calls, and waits. -/
  | call (under : Party)
  /-- The reader calls, but the context is done. -/
  | decline (under : Party)
  /-- The reader waits, and so does the lexer, with an item. -/
  | handOver (item : Item)
  /-- The reader waits, but the context is done by now. -/
  | giveUp (under : Party)
  /-- The reader waits, but the lexer has ended. -/
  | hangUp
  /-- The observer's context is cancelled. -/
  | cancel
  /-- The canceller of the observer's context is given up. -/
  | release

def Event.item? : Event → Option Item
  | .handOver item => some item
  | _ => none

/-- Whether the call that ends here succeeded. -/
def Event.success? : Event → Option Bool
  | .handOver _ => some true
  | .decline _ | .giveUp _ | .hangUp => some false
  | _ => none

/-- The items that are handed over. -/
def handedOver : List Event → List Item
  | [] => []
  | e :: rest => e.item?.toList ++ handedOver rest

/-- How the calls end, one after another. -/
def outcomes : List Event → List Bool
  | [] => []
  | e :: rest => e.success?.toList ++ outcomes rest

def standing (x : Exchange) : Party → Option Stop
  | .own => x.contexts.stop? x.own
  | .observer => x.contexts.stop? x.observer

/-- One thread does one thing. If several are possible, any of them can happen: a reader
that waits under a context that is done by now may still be handed an item. -/
inductive Step : Exchange → Event → Exchange → Prop where
  | work {x : Exchange} {record : Record} {rest : Dialogue Unit}
      (hlexer : x.lexer = .note record rest) : Step x .work {x with lexer := rest}
  | call {x : Exchange} {p : Party} (hidle : x.waiting = none) (hlive : x.standing p = none) :
      Step x (.call p) {x with waiting := some p}
  | decline {x : Exchange} {p : Party} (hidle : x.waiting = none)
      (hdone : (x.standing p).isSome) : Step x (.decline p) x
  | handOver {x : Exchange} {item : Item} {answer : Bool → Dialogue Unit}
      (hwaiting : x.waiting.isSome) (hlexer : x.lexer = .offer item answer) :
      Step x (.handOver item) {x with lexer := answer true, waiting := none, current := some item}
  | giveUp {x : Exchange} {p : Party} (hwaiting : x.waiting = some p)
      (hdone : (x.standing p).isSome) : Step x (.giveUp p) {x with waiting := none}
  | hangUp {x : Exchange} (hwaiting : x.waiting.isSome) (hlexer : x.lexer = .done ()) :
      Step x .hangUp {x with waiting := none}
  | cancel {x : Exchange} : Step x .cancel {x with contexts := x.contexts.cancel x.observer}
  | release {x : Exchange} : Step x .release {x with contexts := x.contexts.release x.observer}

inductive Run : Exchange → List Event → Exchange → Prop where
  | refl {x : Exchange} : Run x [] x
  | step {x y z : Exchange} {e : Event} {events : List Event} (first : Step x e y)
      (rest : Run y events z) : Run x (e :: events) z

variable {x y z : Exchange} {e : Event} {events : List Event}

/-! ### What comes over -/

/-- A step takes the item it hands over from what is to come, and nothing else. -/
theorem Step.items (h : x.Step e y) : x.lexer.items = e.item?.toList ++ y.lexer.items ∧
    y.current = e.item?.or x.current := by
  cases h with
  | work hlexer | handOver _ hlexer =>
    rw [hlexer]
    exact ⟨rfl, rfl⟩
  | _ => exact ⟨rfl, rfl⟩

theorem Run.items (h : x.Run events y) : x.lexer.items = handedOver events ++ y.lexer.items ∧
    y.current = (handedOver events).getLast?.or x.current := by
  induction h with
  | refl => exact ⟨rfl, rfl⟩
  | @step x y z e events first rest ih =>
    obtain ⟨hitems, hcurrent⟩ := first.items
    rw [handedOver, List.getLast?_append, hitems, ih.1, ih.2, hcurrent, List.append_assoc,
      Option.or_assoc]
    exact ⟨rfl, by cases e.item? <;> rfl⟩

/-- The lexer works up to its next offer without the reader. -/
theorem exists_run_work (x : Exchange) :
    ∃ n, x.Run (List.replicate n .work) {x with lexer := x.lexer.settle.2} := by
  obtain ⟨contexts, own, observer, lexer, waiting, current⟩ := x
  induction lexer with
  | done | offer => exact ⟨0, .refl⟩
  | note record rest ih =>
    obtain ⟨n, h⟩ := ih
    exact ⟨n + 1, .step (.work rfl) h⟩

/-- What happens next when these items are still to come. -/
structure Expects (x : Exchange) (rest : List Item) : Prop where
  /-- Only the next item can be handed over. -/
  handOver : ∀ item y, x.Step (.handOver item) y → rest.head? = some item
  /-- Only behind the last item the reader finds that the lexer has ended. -/
  hangUp : ∀ y, x.Step .hangUp y → rest = []
  /-- A reader that waits needs nothing but the lexer to be answered. -/
  answered : x.waiting.isSome → ∃ n y z, x.Run (List.replicate n .work) y ∧
    y.Step ((rest.head?.map .handOver).getD .hangUp) z

theorem expects (x : Exchange) : x.Expects x.lexer.items where
  handOver item y h := by
    rw [h.items.1]
    rfl
  hangUp y h := by
    cases h with
    | hangUp _ hlexer =>
      rw [hlexer]
      rfl
  answered hwaiting := by
    obtain ⟨n, hrun⟩ := x.exists_run_work
    rcases x.lexer.settle_cases with ⟨hitems, hsettle⟩ | ⟨item, answer, hitems, hsettle⟩
    · rw [hitems]
      exact ⟨n, _, _, hrun, .hangUp hwaiting hsettle⟩
    · rw [hitems]
      exact ⟨n, _, _, hrun, .handOver hwaiting hsettle⟩

/-! ### Nothing but a session -/

/-- The session is where the two threads are, but for the work that the lexer still does on
its own. -/
structure Agrees (x : Exchange) (s : Session) : Prop where
  contexts : s.contexts = x.contexts
  own : s.own = x.own
  observer : s.observer = x.observer
  current : s.tokens.current = x.current
  waits : s.Waits x.lexer

variable {s : Session}

theorem Agrees.standing (h : x.Agrees s) (p : Party) : s.standing p = x.standing p := by
  cases p with
  | own => rw [Session.standing, Session.context, h.contexts, h.own, Exchange.standing]
  | observer => rw [Session.standing, Session.context, h.contexts, h.observer, Exchange.standing]

/-- The reader does not tell by the session whether it waits. -/
theorem Agrees.waiting (h : x.Agrees s) (waiting : Option Party) :
    Agrees {x with waiting} s where
  contexts := h.contexts
  own := h.own
  observer := h.observer
  current := h.current
  waits := h.waits

/-- These commands of a session come to the same as the events: they hand over the same
items, calls end alike, and the session is where the two threads are by then. -/
structure Simulates (s : Session) (commands : List Command) (events : List Event)
    (y : Exchange) : Prop where
  spares : ∀ c ∈ commands, c.Spares
  agrees : y.Agrees (s.after commands)
  delivered : s.delivered commands = handedOver events
  success : (s.run commands).filterMap Answer.success? = outcomes events

namespace Simulates

theorem of_obey {c : Command} {answer : Answer} {s' : Session} (hobey : s.obey c = (answer, s'))
    (hspares : c.Spares) (hagrees : y.Agrees s') (hdelivered : c.delivered answer = e.item?.toList)
    (hsuccess : answer.success?.toList = e.success?.toList) : Simulates s [c] [e] y where
  spares := List.forall_mem_singleton.2 hspares
  agrees := by rwa [Session.after, hobey]
  delivered := by
    rw [Session.delivered, hobey, hdelivered, handedOver, Session.delivered, handedOver]
  success := by
    rw [Session.run, hobey, outcomes, ← hsuccess, List.filterMap_cons]
    cases answer.success? <;> rfl

theorem cons {commands more : List Command} (h : Simulates s commands [e] y)
    (hmore : Simulates (s.after commands) more events z) :
    Simulates s (commands ++ more) (e :: events) z where
  spares := List.forall_mem_append.2 ⟨h.spares, hmore.spares⟩
  agrees := by
    rw [Session.after_append]
    exact hmore.agrees
  delivered := by
    rw [Session.delivered_append, h.delivered, hmore.delivered, handedOver, handedOver, handedOver,
      List.append_nil]
  success := by
    rw [Session.run_append, List.filterMap_append, h.success, hmore.success, outcomes, outcomes,
      outcomes, List.append_nil]

end Simulates

/-- **A step is a command of a session, or none.** -/
theorem Step.simulated (h : x.Step e y) (ha : x.Agrees s) :
    ∃ command : Option Command, Simulates s command.toList [e] y := by
  cases h with
  | work hlexer =>
    obtain ⟨stream, hstream, hwaits⟩ := ha.waits.stream
    rw [hlexer] at hwaits
    exact ⟨none, nofun, ⟨ha.contexts, ha.own, ha.observer, ha.current,
      ⟨⟨stream, hstream, hwaits⟩, ha.waits.live, ha.waits.apart⟩⟩, rfl, rfl⟩
  | @call p => exact ⟨none, nofun, ha.waiting (some p), rfl, rfl⟩
  | @decline p _ hdone =>
    have hobey := ha.waits.refused (p := p) (by rwa [ha.standing])
    exact ⟨some (.advance p), .of_obey hobey trivial ha rfl rfl⟩
  | @giveUp p _ hdone =>
    have hobey := ha.waits.refused (p := p) (by rwa [ha.standing])
    exact ⟨some (.advance p), .of_obey hobey trivial (ha.waiting none) rfl rfl⟩
  | hangUp _ hlexer =>
    have hobey := ha.waits.ended (by rw [hlexer]; rfl) .own
    exact ⟨some (.advance .own), .of_obey hobey trivial (ha.waiting none) rfl rfl⟩
  | handOver _ hlexer =>
    obtain ⟨tokens, hobey, hcurrent, hwaits⟩ :=
      ha.waits.taken ha.waits.live (by rw [hlexer]; rfl)
    exact ⟨some (.advance .own), .of_obey hobey trivial
      ⟨ha.contexts, ha.own, ha.observer, hcurrent, hwaits⟩ rfl rfl⟩
  | cancel =>
    have hcontexts : s.contexts.cancel s.observer = x.contexts.cancel x.observer := by
      rw [ha.contexts, ha.observer]
    exact ⟨some (.cancel .observer), .of_obey rfl trivial ⟨hcontexts, ha.own, ha.observer,
      ha.current, ha.waits.concerning_observer fun _ => Contexts.stop?_cancel_of_ne⟩ rfl rfl⟩
  | release =>
    have hcontexts : s.contexts.release s.observer = x.contexts.release x.observer := by
      rw [ha.contexts, ha.observer]
    exact ⟨some (.release .observer), .of_obey rfl trivial ⟨hcontexts, ha.own, ha.observer,
      ha.current, ha.waits.concerning_observer fun _ => Contexts.stop?_release_of_ne⟩ rfl rfl⟩

/-- **Whatever the two threads do, it is a session for the reader.** -/
theorem Run.simulated (h : x.Run events y) (ha : x.Agrees s) :
    ∃ commands : List Command, Simulates s commands events y := by
  induction h generalizing s with
  | refl => exact ⟨[], nofun, ha, rfl, rfl⟩
  | step first rest ih =>
    obtain ⟨command, hfirst⟩ := first.simulated ha
    obtain ⟨commands, hrest⟩ := ih hfirst.agrees
    exact ⟨command.toList ++ commands, hfirst.cons hrest⟩

theorem agrees_start (own observer : Contexts.Origin) (source : ByteArray)
    (hlive : (Session.start .threaded own observer source).standing .own = none) :
    (start own observer source).Agrees (Session.start .threaded own observer source) := by
  refine ⟨rfl, rfl, rfl, rfl, ⟨_, rfl, rfl⟩, hlive, ?_⟩
  have hown : (Session.start .threaded own observer source).own = ⟨0⟩ := by cases own <;> rfl
  have hobserver : (Session.start .threaded own observer source).observer = ⟨1⟩ := by
    cases own <;> cases observer <;> rfl
  rw [hown, hobserver]
  decide

end Exchange
end Tokens

open Tokens Exchange in
/-- **Two threads lose nothing.** While the lexer's own context is live, whatever the two
parties do with the stream of a source and with the observer's context, the items of the
source are handed over from the first on, one by one, the latest of them is current, and the
next move under a live context takes the next item, while a move under a done context leaves
all as it was. The same is true if the lexer works on its own, the reader waits, and contexts
are cancelled in between, and it comes to the same as a session: a reader that waits is
handed over the next item, or gives up and leaves it. If the lexer's own context was done
from the start, nobody is handed over anything. -/
theorem threaded_interleaving (own observer : Contexts.Origin) (source : ByteArray) :
    let start := Session.start .threaded own observer source
    let exchange := Exchange.start own observer source
    (start.standing .own = none →
      (∀ commands, (∀ c ∈ commands, c.Spares) → ∃ rest,
        lex .threaded none source = start.delivered commands ++ rest ∧
        (start.after commands).tokens.current = (start.delivered commands).getLast? ∧
        (start.after commands).Expects rest) ∧
      ∀ events x, exchange.Run events x → ∃ rest,
        lex .threaded none source = handedOver events ++ rest ∧
        x.current = (handedOver events).getLast? ∧ x.Expects rest ∧
        ∃ commands, (∀ c ∈ commands, c.Spares) ∧ start.delivered commands = handedOver events ∧
          (start.run commands).filterMap Answer.success? = outcomes events ∧
          (start.after commands).contexts = x.contexts) ∧
    ((start.standing .own).isSome →
      (∀ commands, start.delivered commands = [] ∧
        ∀ p, ((start.after commands).obey (.advance p)).1 = .moved false none) ∧
      ∀ events x, exchange.Run events x → handedOver events = []) := by
  intro start exchange
  refine ⟨fun hlive => ?_, fun hdone => ⟨fun commands => ?_, fun events x hrun => ?_⟩⟩
  · have hagrees := agrees_start own observer source hlive
    have hlexer : exchange.lexer = session none source := congrArg (session · source) hlive
    have hitems : lex .threaded none source = exchange.lexer.items := by
      rw [lex_eq_itemsFrom, hlexer]
      rfl
    rw [hitems]
    refine ⟨fun commands hspares => ?_, fun events x hrun => ?_⟩
    · obtain ⟨d, hwaits, hrest, hcurrent⟩ := hagrees.waits.after hspares
      exact ⟨d.items, hrest, hcurrent.trans (Option.or_none ..), hwaits.expects⟩
    · obtain ⟨hrest, hcurrent⟩ := hrun.items
      obtain ⟨commands, h⟩ := hrun.simulated hagrees
      exact ⟨x.lexer.items, hrest, hcurrent.trans (Option.or_none ..), x.expects, commands,
        h.spares, h.delivered, h.success, h.agrees.contexts⟩
  · exact Session.delivered_of_own_done rfl hdone commands
  · have hitems : exchange.lexer.items = [] := by
      obtain ⟨why, hwhy⟩ := Option.isSome_iff_exists.1 hdone
      have hlexer : exchange.lexer = session (some why) source :=
        congrArg (session · source) hwhy
      rw [hlexer]
      rfl
    have hrest := hrun.items.1
    rw [hitems] at hrest
    exact (List.nil_eq_append_iff.1 hrest).1

open Tokens Exchange in
/-- The observer is cancelled between two moves, and then while it waits. Its move is refused
either way, and the next item comes to the other party. A lexer whose context was cancelled
hands over nothing. -/
theorem interleaving_of_observer_cancelled :
    let start := Session.start .threaded .background .cancel ".a?".toUTF8
    let s := start.after [.next, .advance .observer, .cancel .observer, .advance .observer]
    (s.obey .next).1 = .item (some ⟨.question, 2, 3⟩) ∧
    (∃ x, (Exchange.start .background .cancel ".a?".toUTF8).Run
        [.call .observer, .cancel, .giveUp .observer] x ∧
      x.current = none ∧ x.Expects (lex .threaded none ".a?".toUTF8)) ∧
    (Session.start .threaded .cancelled .background ".a?".toUTF8).delivered
      [.next, .advance .observer] = [] := by
  intro start s
  obtain ⟨hsession, hexchange⟩ :=
    (threaded_interleaving .background .cancel ".a?".toUTF8).1 (by decide)
  obtain ⟨rest, hitems, -, hexpects⟩ := hsession
    [.next, .advance .observer, .cancel .observer, .advance .observer] (by simp [Command.Spares])
  have hrun : (Exchange.start .background .cancel ".a?".toUTF8).Run
      [.call .observer, .cancel, .giveUp .observer] _ :=
    .step (.call rfl (by decide)) (.step .cancel (.step (.giveUp rfl (by decide)) .refl))
  obtain ⟨later, hlater, hcurrent, hnext, -⟩ := hexchange _ _ hrun
  refine ⟨?_, ⟨_, hrun, hcurrent, ?_⟩,
    ((threaded_interleaving .cancelled .background ".a?".toUTF8).2 (by decide)).1 _ |>.1⟩
  · have hlex : lex .threaded none ".a?".toUTF8 = start.delivered
        [.next, .advance .observer, .cancel .observer, .advance .observer] ++
          [⟨.question, 2, 3⟩, ⟨.endOfInput, 3, 3⟩] := by decide +kernel
    rw [hexpects.next, ← List.append_cancel_left (hlex.symm.trans hitems)]
    rfl
  · rw [hlater]
    exact hnext

end PathFilter
