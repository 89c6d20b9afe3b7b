import PathFilter.Lexer.Run

/-! Items on demand: the lexer runs on the reader's own time.

The stream keeps the state to run next and a queue of items. A move hands over
the first item of the queue; if there is none, it runs states until one of them
leaves an item. A whole state runs at a time, so a state that offers several
items fills the queue for the moves that follow.

The lexer was opened under a context of its own, and each move is made under a
context that may be another one. A move under a done context ends the stream for
good. If only the lexer's own context is done, the items that wait in the queue
still come out, and the next state to run gives up. -/
namespace PathFilter
open Lexer

structure OnDemand where
  reader : Reader
  /-- The state to run next. -/
  next : Option State
  /-- Items that were offered and not yet handed over. -/
  queue : List Item
  current : Option Item
  records : Array Record

namespace OnDemand

/-- The stream of a source, with nothing read of it. -/
def ofSource (source : ByteArray) : OnDemand :=
  ⟨Reader.ofBytes source, some .expression, [], none, #[]⟩

/-- Runs one state under the lexer's own context. -/
def work (own : Option Stop) (state : State) (s : OnDemand) : OnDemand :=
  let heard := (step own.isSome state s.reader).listen own.isNone
  {s with
    reader := heard.result.2
    next := heard.result.1
    queue := s.queue ++ heard.items
    records := s.records ++ heard.records}

/-- What the states to come have left to do. -/
def weight (s : OnDemand) : Nat :=
  match s.next with
  | none => 0
  | some state => Lexer.weight state s.reader + 1

theorem weight_work_lt {s : OnDemand} {state : State} (h : s.next = some state)
    (own : Option Stop) : (s.work own state).weight < s.weight := by
  have hb := (step_descends own.isSome state s.reader).listen own.isNone
  simp only [weight, h, work]
  split
  · omega
  · next state' hs => exact Nat.succ_lt_succ (hb state' hs)

/-- Moves to the next item. -/
def advance (own watcher : Option Stop) (s : OnDemand) : Bool × OnDemand :=
  if watcher.isSome then (false, {s with next := none, queue := []})
  else
    match s.queue with
    | item :: rest => (true, {s with queue := rest, current := some item})
    | [] =>
      match _h : s.next with
      | none => (false, s)
      | some state => advance own watcher (s.work own state)
termination_by s.weight
decreasing_by exact weight_work_lt _h own

/-! ### How many items are to come -/

/-- The items in the queue and the most the states to come can offer. -/
def size (s : OnDemand) : Nat := s.queue.length + (resume (s.next, s.reader)).height

/-- Under a done context a state gives up before it offers anything. -/
theorem step_stopped (state : State) (r : Reader) :
    ∃ after, step true state r =
      .note (.entered state r.offset) (.note (.aborted state) (.done (none, after))) := by
  cases state <;> exact ⟨_, rfl⟩

theorem size_work_le {s : OnDemand} {state : State} (h : s.next = some state)
    (own : Option Stop) : (s.work own state).size ≤ s.size := by
  cases own with
  | some why =>
    obtain ⟨after, ha⟩ := step_stopped state s.reader
    simp [size, work, ha, Dialogue.listen, resume, Dialogue.height]
  | none =>
    have := Dialogue.listen_add_height_le true resume (step false state s.reader)
    rw [← run_eq] at this
    simp only [size, work, h, Option.isSome_none, Option.isNone_none, List.length_append,
      Prod.eta]
    show _ ≤ s.queue.length + (run state s.reader).height
    omega

theorem size_advance_lt (own watcher : Option Stop) (s : OnDemand)
    (h : (s.advance own watcher).1 = true) : (s.advance own watcher).2.size < s.size := by
  fun_induction advance own watcher s with
  | case1 => simp at h
  | case2 s _ item rest hq => simp [size, hq]
  | case3 => simp at h
  | case4 s _ hq state hn ih => exact Nat.lt_of_lt_of_le (ih h) (size_work_le hn own)

end OnDemand
end PathFilter
