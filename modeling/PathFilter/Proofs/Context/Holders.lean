import Mathlib.Data.List.Nodup
import PathFilter.Proofs.Context.Table

/-! Contexts and cancellers in the hands of a program.

A program holds handles of contexts and the cancellers that came with them. It makes
contexts, copies handles, fires cancellers, gives them up, and overwrites both. A `World`
is the table of contexts with what the program holds, and it keeps a history of which
context was made how and whose canceller was fired or given up.

The table agrees with the history (`Records`), and the program holds the cancellers that
the history says were made and not given up, each of them once (`Holding`). Every
operation preserves both (`Sound.act`). So what a context reports is told by the history
(`reports_over_runs`). -/
namespace PathFilter.Contexts

/-! ### Programs -/

/-- How a context is made. -/
inductive Kind where
  | background
  | cancel
  | deadline (time : Nat)
  | timeout (span : Nat)
deriving DecidableEq

namespace Kind

/-- It comes with a canceller. -/
def held : Kind → Bool
  | .background => false
  | _ => true

/-- When a context that is made now expires. -/
def expiry (now : Nat) : Kind → Option Nat
  | .background | .cancel => none
  | .deadline time => some time
  | .timeout span => some (now + span)

/-- A context that was made at one time has expired at another. -/
def Passed (kind : Kind) (made now : Nat) : Prop :=
  ∃ time, kind.expiry made = some time ∧ time ≤ now

def make (t : Contexts) : Kind → Context × Contexts
  | .background => t.background
  | .cancel => t.withCancel
  | .deadline time => t.withDeadline time
  | .timeout span => t.withTimeout span

theorem make_eq (kind : Kind) (t : Contexts) :
    kind.make t = t.add ⟨if kind.held then .armed else .absent, kind.expiry t.now⟩ := by
  cases kind <;> rfl

end Kind

inductive Event where
  | made (c : Context) (kind : Kind) (time : Nat)
  /-- The canceller of the context was fired. -/
  | fired (c : Context)
  /-- The canceller of the context was given up. -/
  | dropped (c : Context)
deriving DecidableEq

def Event.made? : Event → Option Context
  | .made c .. => some c
  | _ => none

/-- The canceller of the context was fired or given up. -/
def Ended (history : List Event) (c : Context) : Prop :=
  .fired c ∈ history ∨ .dropped c ∈ history

theorem Ended.mono {history later : List Event} {c : Context} (h : Ended history c)
    (happend : history <+: later) : Ended later c :=
  h.imp (fun hfired => happend.subset hfired) (fun hdropped => happend.subset hdropped)

/-- A canceller came with the context, and it was not given up. -/
def Owned (history : List Event) (c : Context) : Prop :=
  (∃ kind time, .made c kind time ∈ history ∧ kind.held = true) ∧ .dropped c ∉ history

/-- The table and what a program holds. -/
structure World where
  contexts : Contexts
  handles : List Context
  /-- Every canceller is known by the context it was made with. Where it was given up, or
  there never was one, the place is empty. -/
  cancellers : List (Option Context)
  history : List Event

inductive Operation where
  | create (kind : Kind)
  | clone (handle : Nat)
  | cancel (canceller : Nat)
  | drop (canceller : Nat)
  /-- Overwrites a handle and a canceller with new ones. -/
  | replace (handle canceller : Nat) (kind : Kind)
  | wait (span : Nat)

namespace World

def empty : World := ⟨.empty, [], [], []⟩

def canceller? (w : World) (place : Nat) : Option Context := w.cancellers[place]?.join

def fire (place : Nat) (w : World) : World :=
  match w.canceller? place with
  | some c => {w with contexts := w.contexts.cancel c, history := w.history ++ [.fired c]}
  | none => w

def drop (place : Nat) (w : World) : World :=
  match w.canceller? place with
  | some c =>
    { w with
      contexts := w.contexts.release c
      cancellers := w.cancellers.set place none
      history := w.history ++ [.dropped c] }
  | none => w

/-- Makes a context. Its handle and its canceller are still to be put somewhere. -/
def make (kind : Kind) (w : World) : Context × World :=
  let (c, contexts) := kind.make w.contexts
  (c, {w with contexts, history := w.history ++ [.made c kind w.contexts.now]})

def create (kind : Kind) (w : World) : World :=
  let (c, w) := w.make kind
  { w with
    handles := w.handles ++ [c]
    cancellers := w.cancellers ++ [if kind.held then some c else none] }

/-- What was at the place is given up after the new context was made. -/
def replace (handle place : Nat) (kind : Kind) (w : World) : World :=
  if place < w.cancellers.length then
    let (c, w) := w.make kind
    let w := w.drop place
    { w with
      handles := w.handles.set handle c
      cancellers := w.cancellers.set place (if kind.held then some c else none) }
  else w

def act (w : World) : Operation → World
  | .create kind => w.create kind
  | .clone handle => {w with handles := w.handles ++ w.handles[handle]?.toList}
  | .cancel place => w.fire place
  | .drop place => w.drop place
  | .replace handle place kind => w.replace handle place kind
  | .wait span => {w with contexts := w.contexts.elapse span}

def run (w : World) : List Operation → World
  | [] => w
  | operation :: rest => (w.act operation).run rest

end World

/-! ### The table agrees with the history -/

/-- What the history says, the table says. -/
structure Records (t : Contexts) (history : List Event) : Prop where
  known : ∀ c, t.Knows c ↔ ∃ kind time, .made c kind time ∈ history
  /-- No two calls made the same context. -/
  distinct : (history.filterMap Event.made?).Nodup
  deadline : ∀ c kind time, .made c kind time ∈ history → t.deadline c = kind.expiry time
  absent : ∀ c kind time, .made c kind time ∈ history →
    (t.trigger c = .absent ↔ kind.held = false)
  gone : ∀ c, t.trigger c = .gone ↔ Ended history c
  announced : t.announced.Nodup ∧ ∀ c, c ∈ t.announced ↔ .fired c ∈ history

namespace Records
variable {t : Contexts} {history : List Event} {c : Context}

theorem empty : Records .empty [] where
  known _ := iff_of_false (Nat.not_lt_zero _) nofun
  distinct := .nil
  deadline := nofun
  absent := nofun
  gone _ := iff_of_false nofun nofun
  announced := ⟨.nil, fun _ => iff_of_false nofun nofun⟩

theorem elapse (h : Records t history) (span : Nat) : Records (t.elapse span) history where
  known := h.known
  distinct := h.distinct
  deadline := h.deadline
  absent := h.absent
  gone := h.gone
  announced := h.announced

theorem mem_concat_made {d : Context} {kind other : Kind} {made time : Nat} :
    .made d other time ∈ history ++ [.made c kind made] ↔
      .made d other time ∈ history ∨ d = c ∧ other = kind ∧ time = made := by
  simp only [List.mem_append, List.mem_singleton, Event.made.injEq]

theorem make (h : Records t history) (kind : Kind) :
    Records (kind.make t).2 (history ++ [.made (kind.make t).1 kind t.now]) := by
  rw [kind.make_eq]
  set cell : Context.Cell := ⟨if kind.held then .armed else .absent, kind.expiry t.now⟩
  have hnew : ¬ t.Knows (t.add cell).1 := not_knows_add
  have hold : ∀ {d kind time}, .made d kind time ∈ history → t.Knows d := fun hd =>
    (h.known _).2 ⟨_, _, hd⟩
  constructor
  case known =>
    intro d
    simp only [knows_add, h.known, mem_concat_made]
    constructor
    · rintro (⟨other, time, hd⟩ | rfl)
      · exact ⟨other, time, .inl hd⟩
      · exact ⟨kind, t.now, .inr ⟨rfl, rfl, rfl⟩⟩
    · rintro ⟨other, time, hd | ⟨rfl, -, -⟩⟩
      · exact .inl ⟨other, time, hd⟩
      · exact .inr rfl
  case distinct =>
    rw [List.filterMap_append]
    refine h.distinct.append (List.nodup_singleton _) (List.disjoint_singleton.2 fun hmem => ?_)
    obtain ⟨e, he, hc⟩ := List.mem_filterMap.1 hmem
    cases e with
    | made d => exact hnew (Option.some.inj hc ▸ hold he)
    | fired | dropped => cases hc
  case deadline =>
    intro d other time hd
    rcases mem_concat_made.1 hd with hd | ⟨rfl, rfl, rfl⟩
    · rw [deadline_add (hold hd), h.deadline _ _ _ hd]
    · exact deadline_add_self
  case absent =>
    intro d other time hd
    rcases mem_concat_made.1 hd with hd | ⟨rfl, rfl, rfl⟩
    · rw [trigger_add (hold hd), h.absent _ _ _ hd]
    · rw [trigger_add_self]
      cases hheld : other.held <;> simp [cell, hheld]
  case gone =>
    intro d
    have hended : Ended (history ++ [.made (t.add cell).1 kind t.now]) d ↔ Ended history d := by
      simp [Ended]
    rw [hended, ← h.gone]
    by_cases hd : t.Knows d
    · rw [trigger_add hd]
    · rw [trigger_of_not_knows hd]
      by_cases heq : d = (t.add cell).1
      · rw [heq, trigger_add_self]
        cases hheld : kind.held <;> simp [cell, hheld]
      · rw [trigger_of_not_knows fun hknows => (knows_add.1 hknows).elim hd heq]
  case announced =>
    refine ⟨h.announced.1, fun d => (h.announced.2 d).trans ?_⟩
    simp

theorem ne_absent (h : Records t history) {kind : Kind} {time : Nat}
    (hmade : .made c kind time ∈ history) (hheld : kind.held = true) : t.trigger c ≠ .absent := by
  rw [Ne, h.absent c kind time hmade, hheld]
  nofun

/-- A canceller is used up, and the log tells whether it was fired. -/
theorem use (h : Records t history) (habsent : t.trigger c ≠ .absent) {e : Event}
    (he : e = .fired c ∨ e = .dropped c) {log : List Context}
    (hlog : log.Nodup ∧ ∀ d, d ∈ log ↔ .fired d ∈ history ++ [e]) :
    Records {t.release c with announced := log} (history ++ [e]) := by
  have hmade : ∀ {d kind time},
      .made d kind time ∈ history ++ [e] ↔ .made d kind time ∈ history := by
    rcases he with rfl | rfl <;> simp
  have hended : ∀ {d}, Ended (history ++ [e]) d ↔ Ended history d ∨ d = c := by
    intro d
    rcases he with rfl | rfl <;> simp [Ended, or_assoc, or_comm, or_left_comm]
  have htrigger : ∀ {d}, d ≠ c → Contexts.trigger {t.release c with announced := log} d =
      t.trigger d := trigger_release_of_ne
  have hgone : Contexts.trigger {t.release c with announced := log} c = .gone :=
    trigger_release_self habsent
  constructor
  case known =>
    intro d
    simp only [hmade, ← h.known]
    exact knows_release
  case distinct =>
    have hnone : [e].filterMap Event.made? = [] := by rcases he with rfl | rfl <;> rfl
    rw [List.filterMap_append, hnone, List.append_nil]
    exact h.distinct
  case deadline =>
    intro d kind time hd
    rw [← h.deadline d kind time (hmade.1 hd)]
    exact deadline_release
  case absent =>
    intro d kind time hd
    rw [← h.absent d kind time (hmade.1 hd)]
    by_cases heq : d = c
    · rw [heq, hgone]
      exact iff_of_false nofun habsent
    · rw [htrigger heq]
  case announced => exact hlog
  case gone =>
    intro d
    rw [hended]
    by_cases heq : d = c
    · rw [heq, hgone]
      exact iff_of_true rfl (.inr rfl)
    · rw [htrigger heq, h.gone, or_iff_left heq]

/-- A canceller is given up. -/
theorem release (h : Records t history) (habsent : t.trigger c ≠ .absent) :
    Records (t.release c) (history ++ [.dropped c]) := by
  have hlog : t.announced.Nodup ∧ ∀ d, d ∈ t.announced ↔ .fired d ∈ history ++ [.dropped c] :=
    ⟨h.announced.1, fun d => (h.announced.2 d).trans (by simp)⟩
  have huse := h.use habsent (.inr rfl) hlog
  rwa [← announced_release (c := c)] at huse

/-- A canceller that was not given up is fired. -/
theorem cancel (h : Records t history) (habsent : t.trigger c ≠ .absent)
    (hdropped : .dropped c ∉ history) : Records (t.cancel c) (history ++ [.fired c]) := by
  rw [cancel_eq]
  refine h.use habsent (.inl rfl) ?_
  by_cases harmed : t.trigger c = .armed
  · have hfresh : c ∉ t.announced := fun hmem => by
      have := (h.gone c).2 (.inl ((h.announced.2 c).1 hmem))
      rw [harmed] at this
      contradiction
    rw [if_pos harmed]
    refine ⟨h.announced.1.append (List.nodup_singleton c) ?_, fun d => ?_⟩
    · rwa [List.disjoint_singleton]
    · simp [h.announced.2]
  · -- It was fired before.
    have hfired : .fired c ∈ history := by
      refine ((h.gone c).1 ?_).resolve_right hdropped
      cases htrigger : t.trigger c <;> simp_all
    rw [if_neg harmed, List.append_nil]
    refine ⟨h.announced.1, fun d => (h.announced.2 d).trans ?_⟩
    simp only [List.mem_append, List.mem_singleton, Event.fired.injEq, iff_self_or]
    rintro rfl
    exact hfired

end Records

/-! ### The program holds what was not given up -/

/-- The cancellers that are held are those that were made and not given up. -/
structure Holding (held : List Context) (history : List Event) : Prop where
  nodup : held.Nodup
  iff : ∀ c, c ∈ held ↔ Owned history c

namespace Holding
variable {held other : List Context} {history : List Event} {c : Context}

theorem perm (h : Holding held history) (hperm : held.Perm other) : Holding other history where
  nodup := hperm.nodup_iff.1 h.nodup
  iff c := hperm.mem_iff.symm.trans (h.iff c)

theorem make (h : Holding held history) (hnew : ∀ kind time, .made c kind time ∉ history)
    (hdropped : .dropped c ∉ history) (kind : Kind) (time : Nat) :
    Holding ((if kind.held then some c else none).toList ++ held)
      (history ++ [.made c kind time]) := by
  have hc : c ∉ held := fun hmem => by
    obtain ⟨⟨kind, time, hmade, -⟩, -⟩ := (h.iff c).1 hmem
    exact hnew kind time hmade
  have howned : ∀ d, Owned (history ++ [.made c kind time]) d ↔
      d = c ∧ kind.held = true ∨ d ∈ held := by
    intro d
    rw [h.iff, Owned, Owned]
    simp only [List.mem_append, List.mem_singleton, Event.made.injEq, reduceCtorEq, or_false]
    constructor
    · rintro ⟨⟨other, time, hd | ⟨rfl, rfl, rfl⟩, hheld⟩, hd'⟩
      · exact .inr ⟨⟨other, time, hd, hheld⟩, hd'⟩
      · exact .inl ⟨rfl, hheld⟩
    · rintro (⟨rfl, hheld⟩ | ⟨⟨other, time, hd, hheld⟩, hd'⟩)
      · exact ⟨⟨kind, time, .inr ⟨rfl, rfl, rfl⟩, hheld⟩, hdropped⟩
      · exact ⟨⟨other, time, .inl hd, hheld⟩, hd'⟩
  cases hheld : kind.held with
  | false =>
    refine ⟨h.nodup, fun d => ?_⟩
    rw [howned, hheld]
    simp
  | true =>
    refine ⟨List.nodup_cons.2 ⟨hc, h.nodup⟩, fun d => ?_⟩
    rw [howned, hheld]
    simp

theorem drop (h : Holding (c :: held) history) : Holding held (history ++ [.dropped c]) where
  nodup := h.nodup.of_cons
  iff d := by
    have hd : d ∈ held ↔ d ∈ c :: held ∧ d ≠ c := by
      have hc : c ∉ held := (List.nodup_cons.1 h.nodup).1
      by_cases heq : d = c <;> simp [heq, hc]
    rw [hd, h.iff, Owned, Owned]
    simp [and_assoc]

theorem fire (h : Holding held history) (c : Context) : Holding held (history ++ [.fired c]) where
  nodup := h.nodup
  iff d := (h.iff d).trans (by simp [Owned])

end Holding

/-! ### Every operation keeps the books -/

namespace World
variable {w : World} {c : Context} {place : Nat} {hand : Option Context}

/-- The cancellers that the program holds. -/
def held (w : World) : List Context := w.cancellers.filterMap id

/-- The world is in order, with a canceller in hand that is still to be put somewhere. -/
structure Sound (hand : Option Context) (w : World) : Prop where
  records : Records w.contexts w.history
  holding : Holding (hand.toList ++ w.held) w.history
  handles : ∀ c ∈ w.handles, w.contexts.Knows c

theorem canceller?_eq_some_iff :
    w.canceller? place = some c ↔ w.cancellers[place]? = some (some c) :=
  Option.join_eq_some_iff

theorem fire_of_some (h : w.canceller? place = some c) : w.fire place =
    {w with contexts := w.contexts.cancel c, history := w.history ++ [.fired c]} := by
  rw [fire, h]

theorem drop_of_some (h : w.canceller? place = some c) : w.drop place =
    { w with
      contexts := w.contexts.release c
      cancellers := w.cancellers.set place none
      history := w.history ++ [.dropped c] } := by
  rw [drop, h]

theorem fire_of_none (h : w.canceller? place = none) : w.fire place = w := by rw [fire, h]

theorem drop_of_none (h : w.canceller? place = none) : w.drop place = w := by rw [drop, h]

theorem filterMap_id_cons (new : Option Context) (l : List (Option Context)) :
    (new :: l).filterMap id = new.toList ++ l.filterMap id := by
  cases new <;> rfl

/-- What is put to a place comes for what was there. -/
theorem perm_set {l : List (Option Context)} {old : Option Context} (h : l[place]? = some old)
    (new : Option Context) :
    (old.toList ++ (l.set place new).filterMap id).Perm (new.toList ++ l.filterMap id) := by
  obtain ⟨hlength, rfl⟩ := List.getElem?_eq_some_iff.1 h
  have hset : l.set place new = l.take place ++ new :: l.drop (place + 1) :=
    List.set_eq_take_cons_drop new hlength
  have hget : l = l.take place ++ l[place] :: l.drop (place + 1) := by
    rw [List.getElem_cons_drop, List.take_append_drop]
  conv_rhs => rw [hget]
  rw [hset, List.filterMap_append, List.filterMap_append, filterMap_id_cons, filterMap_id_cons]
  generalize (l.take place).filterMap id = front, (l.drop (place + 1)).filterMap id = back
  calc
    (l[place].toList ++ (front ++ (new.toList ++ back))).Perm
        (front ++ (l[place].toList ++ (new.toList ++ back))) := List.perm_append_comm_assoc ..
    List.Perm _ (front ++ (new.toList ++ (l[place].toList ++ back))) :=
      (List.perm_append_comm_assoc ..).append_left front
    List.Perm _ (new.toList ++ (front ++ (l[place].toList ++ back))) :=
      List.perm_append_comm_assoc ..

theorem handles_drop : (w.drop place).handles = w.handles := by
  unfold drop
  split <;> rfl

theorem knows_drop : (w.drop place).contexts.Knows c ↔ w.contexts.Knows c := by
  unfold drop
  split
  · exact knows_release
  · rfl

/-- A place is empty once its canceller was given up. -/
theorem cancellers_drop (h : place < w.cancellers.length) :
    (w.drop place).cancellers[place]? = some none := by
  unfold drop
  split
  · simp [h]
  · next hnone =>
    unfold canceller? at hnone
    rw [List.getElem?_eq_getElem h] at hnone ⊢
    exact congrArg some hnone

namespace Sound

theorem ne_absent (h : w.Sound hand) (hc : w.canceller? place = some c) :
    w.contexts.trigger c ≠ .absent ∧ .dropped c ∉ w.history := by
  have hmem : c ∈ w.held :=
    List.mem_filterMap.2 ⟨_, List.mem_of_getElem? (canceller?_eq_some_iff.1 hc), rfl⟩
  obtain ⟨⟨kind, time, hmade, hheld⟩, hdropped⟩ :=
    (h.holding.iff c).1 (List.mem_append_right _ hmem)
  exact ⟨h.records.ne_absent hmade hheld, hdropped⟩

theorem fire (h : w.Sound hand) (place : Nat) : (w.fire place).Sound hand := by
  cases hc : w.canceller? place with
  | none => rwa [fire_of_none hc]
  | some c =>
    obtain ⟨habsent, hdropped⟩ := h.ne_absent hc
    rw [fire_of_some hc]
    refine ⟨h.records.cancel habsent hdropped, h.holding.fire c, fun d hd => ?_⟩
    exact knows_cancel.2 (h.handles d hd)

theorem drop (h : w.Sound hand) (place : Nat) : (w.drop place).Sound hand := by
  cases hc : w.canceller? place with
  | none => rwa [drop_of_none hc]
  | some c =>
    obtain ⟨habsent, -⟩ := h.ne_absent hc
    rw [drop_of_some hc]
    refine ⟨h.records.release habsent, .drop ?_, fun d hd => knows_release.2 (h.handles d hd)⟩
    have hperm := perm_set (canceller?_eq_some_iff.1 hc) none
    exact h.holding.perm ((hperm.symm.append_left hand.toList).trans List.perm_middle)

/-- A context is made, and its canceller is in hand. -/
theorem make (h : w.Sound none) (kind : Kind) :
    (w.make kind).2.Sound (if kind.held then some (w.make kind).1 else none) ∧
      (w.make kind).2.contexts.Knows (w.make kind).1 := by
  have hnew : ¬ w.contexts.Knows (w.make kind).1 := by
    simp only [World.make, kind.make_eq]
    exact not_knows_add
  have hrecords := h.records.make kind
  refine ⟨⟨hrecords, ?_, fun c hc => ?_⟩, ?_⟩
  · refine Holding.make h.holding (fun other time hmade => ?_) (fun hdropped => ?_) kind _
    · exact hnew ((h.records.known _).2 ⟨other, time, hmade⟩)
    · have hgone := (h.records.gone _).2 (.inr hdropped)
      rw [trigger_of_not_knows hnew] at hgone
      contradiction
  · simp only [World.make, kind.make_eq]
    exact knows_add.2 (.inl (h.handles c hc))
  · exact (hrecords.known _).2 ⟨kind, _, List.mem_concat_self⟩

/-- What is in hand is put to an empty place. -/
theorem put (h : w.Sound hand) (hplace : w.cancellers[place]? = some none) :
    Sound none {w with cancellers := w.cancellers.set place hand} where
  records := h.records
  holding := h.holding.perm (perm_set hplace hand).symm
  handles := h.handles

/-- What is in hand is put to a new place. -/
theorem push (h : w.Sound hand) : Sound none {w with cancellers := w.cancellers ++ [hand]} where
  records := h.records
  holding := by
    have hheld : held {w with cancellers := w.cancellers ++ [hand]} = w.held ++ hand.toList := by
      rw [held, List.filterMap_append, filterMap_id_cons]
      exact congrArg _ (List.append_nil _)
    refine h.holding.perm ?_
    rw [hheld]
    exact List.perm_append_comm
  handles := h.handles

theorem with_handles (h : w.Sound hand) {handles : List Context}
    (hknown : ∀ c ∈ handles, w.contexts.Knows c) : Sound hand {w with handles} where
  records := h.records
  holding := h.holding
  handles := hknown

theorem empty : World.empty.Sound none := ⟨.empty, ⟨.nil, fun _ => iff_of_false nofun nofun⟩, nofun⟩

theorem create (h : w.Sound none) (kind : Kind) : (w.create kind).Sound none := by
  obtain ⟨hmade, hknown⟩ := h.make kind
  refine hmade.push.with_handles fun c hc => ?_
  rcases List.mem_append.1 hc with hc | hc
  · exact hmade.handles c hc
  · rwa [List.mem_singleton.1 hc]

theorem replace (h : w.Sound none) (handle place : Nat) (kind : Kind) :
    (w.replace handle place kind).Sound none := by
  unfold World.replace
  split
  · next hplace =>
    obtain ⟨hmade, hknown⟩ := h.make kind
    refine ((hmade.drop place).put (cancellers_drop hplace)).with_handles fun c hc => ?_
    rw [handles_drop] at hc
    refine knows_drop.2 ?_
    rcases List.mem_or_eq_of_mem_set hc with hc | rfl
    · exact hmade.handles c hc
    · exact hknown
  · exact h

/-- **Every operation keeps the books.** -/
theorem act (h : w.Sound none) (operation : Operation) : (w.act operation).Sound none := by
  cases operation with
  | create kind => exact h.create kind
  | clone handle =>
    refine h.with_handles fun c hc => ?_
    rcases List.mem_append.1 hc with hc | hc
    · exact h.handles c hc
    · exact h.handles c (List.mem_of_getElem? (Option.mem_toList.1 hc))
  | cancel place => exact h.fire place
  | drop place => exact h.drop place
  | replace handle place kind => exact h.replace handle place kind
  | wait span => exact ⟨h.records.elapse span, h.holding, h.handles⟩

theorem run (h : w.Sound none) (operations : List Operation) : (w.run operations).Sound none := by
  induction operations generalizing w with
  | nil => exact h
  | cons operation rest ih => exact ih (h.act operation)

end Sound

/-! ### What is never undone -/

theorem history_drop : w.history <+: (w.drop place).history := by
  unfold drop
  split
  · exact List.prefix_append _ _
  · exact List.prefix_refl _

theorem history_act (operation : Operation) : w.history <+: (w.act operation).history := by
  cases operation with
  | create kind => exact List.prefix_append _ _
  | clone | wait => exact List.prefix_refl _
  | cancel place =>
    rw [act, fire]
    split
    · exact List.prefix_append _ _
    · exact List.prefix_refl _
  | drop place => exact history_drop
  | replace handle place kind =>
    rw [act, replace]
    split
    · exact (List.prefix_append _ _).trans (@history_drop (w.make kind).2 place)
    · exact List.prefix_refl _

theorem history_run (operations : List Operation) : w.history <+: (w.run operations).history := by
  induction operations generalizing w with
  | nil => exact List.prefix_refl _
  | cons operation rest ih => exact (history_act operation).trans ih

theorem announced_drop : (w.drop place).contexts.announced = w.contexts.announced := by
  unfold drop
  split
  · exact announced_release
  · rfl

/-- Only firing a canceller is announced. -/
theorem announced_act {operation : Operation} (h : ∀ place, operation ≠ .cancel place) :
    (w.act operation).contexts.announced = w.contexts.announced := by
  have hmake : ∀ kind, (w.make kind).2.contexts.announced = w.contexts.announced := fun kind => by
    simp only [make, kind.make_eq]
    rfl
  cases operation with
  | create kind => exact hmake kind
  | clone | wait => rfl
  | cancel place => exact absurd rfl (h place)
  | drop place => exact announced_drop
  | replace handle place kind =>
    rw [act, replace]
    split
    · exact announced_drop.trans (hmake kind)
    · rfl

/-! ### What a context reports -/

/-- Somebody has a sender of the signal of the context: the context itself, if it came
without a canceller, or a canceller that was not fired. -/
def Sending (w : World) (c : Context) : Prop :=
  (∃ kind time, .made c kind time ∈ w.history ∧ kind.held = false) ∨
    c ∈ w.held ∧ .fired c ∉ w.history

/-- What is reported of a context that was made so. -/
structure Reports (w : World) (c : Context) (kind : Kind) (made : Nat) : Prop where
  canceled : w.contexts.stop? c = some .canceled ↔ Ended w.history c
  deadlineExceeded : w.contexts.stop? c = some .deadlineExceeded ↔
    ¬ Ended w.history c ∧ kind.Passed made w.contexts.now
  live : w.contexts.stop? c = none ↔ ¬ Ended w.history c ∧ ¬ kind.Passed made w.contexts.now
  background : kind = .background → w.contexts.isDone c = false
  signal : w.contexts.isDisconnected c = true ↔ w.contexts.stop? c = some .canceled
  /-- The signal is disconnected once nobody has a sender. -/
  senders : w.contexts.isDisconnected c = true ↔ ¬ w.Sending c
  expired : w.contexts.isExpired c = true ↔ kind.Passed made w.contexts.now

namespace Sound
variable {kind : Kind} {made : Nat}

theorem canceled_iff (h : w.Sound none) :
    w.contexts.stop? c = some .canceled ↔ Ended w.history c :=
  stop?_eq_canceled_iff.trans (h.records.gone c)

theorem expired_iff (h : w.Sound none) (hmade : .made c kind made ∈ w.history) :
    w.contexts.isExpired c = true ↔ kind.Passed made w.contexts.now := by
  rw [isExpired_iff, h.records.deadline c kind made hmade]
  rfl

theorem not_ended (h : w.Sound none) (hmade : .made c kind made ∈ w.history)
    (hheld : kind.held = false) : ¬ Ended w.history c := by
  rw [← h.records.gone, (h.records.absent c kind made hmade).2 hheld]
  nofun

theorem ended_iff_not_sending (h : w.Sound none) (hmade : .made c kind made ∈ w.history) :
    Ended w.history c ↔ ¬ w.Sending c := by
  cases hheld : kind.held with
  | false =>
    exact iff_of_false (h.not_ended hmade hheld) (not_not_intro (.inl ⟨kind, made, hmade, hheld⟩))
  | true =>
    have hwith : ¬ ∃ kind time, .made c kind time ∈ w.history ∧ kind.held = false := by
      rintro ⟨other, time, hother, hnot⟩
      exact h.records.ne_absent hmade hheld ((h.records.absent c other time hother).2 hnot)
    have hheld : c ∈ w.held ↔ .dropped c ∉ w.history :=
      (h.holding.iff c).trans (and_iff_right ⟨kind, made, hmade, hheld⟩)
    rw [Sending, or_iff_right hwith, hheld, Ended]
    tauto

theorem reports (h : w.Sound none) (hmade : .made c kind made ∈ w.history) :
    w.Reports c kind made := by
  have hgone : w.contexts.isDisconnected c = true ↔ Ended w.history c :=
    decide_eq_true_iff.trans (h.records.gone c)
  have hlive : w.contexts.stop? c = none ↔
      ¬ Ended w.history c ∧ ¬ kind.Passed made w.contexts.now := by
    rw [stop?_eq_none_iff, ← Bool.not_eq_true, h.expired_iff hmade, Ne, h.records.gone]
  refine ⟨h.canceled_iff, ?_, hlive, ?_, hgone.trans h.canceled_iff.symm,
    hgone.trans (h.ended_iff_not_sending hmade), h.expired_iff hmade⟩
  · rw [stop?_eq_deadlineExceeded_iff, h.expired_iff hmade, Ne, h.records.gone]
  · rintro rfl
    rw [isDone, hlive.2 ⟨h.not_ended hmade rfl, nofun⟩]
    rfl

end Sound
end World

/-- **What contexts report over whole runs.** Whatever a program does, every handle reports
what was done with the canceller that came with its context, and else whether its deadline
has passed. A clone is a handle of the same context, and no two calls make the same one. A
cancellation is never undone, it is announced once, when it is the canceller that fires, and
firing or giving up a canceller concerns no other context. -/
theorem reports_over_runs (operations : List Operation) :
    let w := World.empty.run operations
    (∀ c ∈ w.handles, ∃ kind made, .made c kind made ∈ w.history ∧ w.Reports c kind made) ∧
    (∀ handle c, w.handles[handle]? = some c →
      (w.act (.clone handle)).handles = w.handles ++ [c]) ∧
    (w.history.filterMap Event.made?).Nodup ∧
    (∀ c later, w.contexts.stop? c = some .canceled →
      (w.run later).contexts.stop? c = some .canceled) ∧
    (w.contexts.announced.Nodup ∧ ∀ c, c ∈ w.contexts.announced ↔ .fired c ∈ w.history) ∧
    (∀ operation, (∀ place, operation ≠ .cancel place) →
      (w.act operation).contexts.announced = w.contexts.announced) ∧
    ∀ place c, w.canceller? place = some c →
      (w.act (.cancel place)).contexts.stop? c = some .canceled ∧
      (w.act (.drop place)).contexts.stop? c = some .canceled ∧
      (Ended w.history c → (w.act (.cancel place)).contexts = w.contexts) ∧
      ∀ d, d ≠ c → (w.act (.cancel place)).contexts.stop? d = w.contexts.stop? d ∧
        (w.act (.drop place)).contexts.stop? d = w.contexts.stop? d := by
  intro w
  have h : w.Sound none := .run .empty operations
  refine ⟨fun c hc => ?_, fun handle c hc => ?_, h.records.distinct, fun c later hcanceled => ?_,
    h.records.announced, fun _ => World.announced_act, fun place c hc => ?_⟩
  · obtain ⟨kind, made, hmade⟩ := (h.records.known c).1 (h.handles c hc)
    exact ⟨kind, made, hmade, h.reports hmade⟩
  · rw [World.act, hc]
    rfl
  · have hhistory := (World.history_run later : w.history <+: _)
    exact (h.run later).canceled_iff.2 ((h.canceled_iff.1 hcanceled).mono hhistory)
  · have hcancel : w.act (.cancel place) = _ := World.fire_of_some hc
    have hdrop : w.act (.drop place) = _ := World.drop_of_some hc
    refine ⟨(h.act _).canceled_iff.2 ?_, (h.act _).canceled_iff.2 ?_, fun hended => ?_,
      fun d hd => ?_⟩
    · rw [hcancel]
      exact .inl List.mem_concat_self
    · rw [hdrop]
      exact .inr List.mem_concat_self
    · have hgone := (h.records.gone c).2 hended
      rw [hcancel]
      exact cancel_of_ne_armed (by rw [hgone]; nofun)
    · rw [hcancel, hdrop]
      exact ⟨stop?_cancel_of_ne hd, stop?_release_of_ne hd⟩

/-- A cancellation overrides a deadline that has passed, firing again changes nothing, and
the other context does not notice. -/
theorem reports_of_expired :
    let w := World.empty.run [.create (.deadline 5), .create .cancel, .clone 0, .wait 10, .cancel 0]
    w.contexts.stop? ⟨0⟩ = some .canceled ∧ w.contexts.isExpired ⟨0⟩ = true ∧
      w.contexts.stop? ⟨1⟩ = none ∧
      (w.run [.replace 1 1 .background]).contexts.stop? ⟨0⟩ = some .canceled ∧
      (w.act (.cancel 0)).contexts = w.contexts ∧
      (w.act (.drop 1)).contexts.stop? ⟨0⟩ = w.contexts.stop? ⟨0⟩ ∧
      (w.act (.drop 1)).contexts.announced = w.contexts.announced := by
  intro w
  obtain ⟨hreports, -, -, hnever, -, hannounced, hcancellers⟩ := reports_over_runs
    [.create (.deadline 5), .create .cancel, .clone 0, .wait 10, .cancel 0]
  obtain ⟨kind, made, hmade, hfirst⟩ := hreports ⟨0⟩ (by decide)
  obtain ⟨rfl, rfl⟩ : kind = .deadline 5 ∧ made = 0 := by
    have : .made ⟨0⟩ kind made ∈
        [Event.made ⟨0⟩ (.deadline 5) 0, .made ⟨1⟩ .cancel 0, .fired ⟨0⟩] := hmade
    simpa using this
  obtain ⟨other, time, hother, hsecond⟩ := hreports ⟨1⟩ (by decide)
  obtain ⟨rfl, rfl⟩ : other = .cancel ∧ time = 0 := by
    have : .made ⟨1⟩ other time ∈
        [Event.made ⟨0⟩ (.deadline 5) 0, .made ⟨1⟩ .cancel 0, .fired ⟨0⟩] := hother
    simpa using this
  have hcanceled := hfirst.canceled.2 (.inl (by decide))
  refine ⟨hcanceled, hfirst.expired.2 ⟨5, rfl, by decide⟩, hsecond.live.2 ⟨?_, nofun⟩,
    hnever ⟨0⟩ _ hcanceled, (hcancellers 0 ⟨0⟩ (by decide)).2.2.1 (.inl (by decide)),
    ((hcancellers 1 ⟨1⟩ (by decide)).2.2.2 ⟨0⟩ (by decide)).2, hannounced _ nofun⟩
  rintro (hfired | hdropped)
  · exact absurd hfired (by decide)
  · exact absurd hdropped (by decide)

end PathFilter.Contexts
