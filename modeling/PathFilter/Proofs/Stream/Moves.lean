import PathFilter.Proofs.Stream.Listing

/-! What the moves of a stream lead to.

A move comes to an item or to the error that is reported if it shows none (`outcome`). A
stream is moved as long as its moves show items (`Shown`), and then it is `Stuck`. What
was shown is what the stream had listed, so where moves lead to is settled by how many they
are. A `Logged` stream keeps a record of its moves and is the same stream otherwise. -/
namespace PathFilter

/-- The error is the end of a stream, and not what is said of an item or a node. -/
def ParseError.ofStream : ParseError → Bool
  | .streamClosed | .stopped _ => true
  | _ => false

theorem TokenStream.ofStream_ending (stop : Option Stop) : (ending stop).ofStream = true := by
  cases stop <;> rfl

namespace TokenStream
variable {σ : Type} [TokenStream σ]

/-- The stream after a move, whatever the move comes to. -/
def moved (s : σ) : σ := (advance s).2

/-- What a move comes to: the item it shows, or the error if it shows none. -/
def outcome (s : σ) : Except ParseError Item :=
  match advance s with
  | (true, after) =>
    match current after with
    | some item => .ok item
    | none => .error .streamClosed
  | (false, after) => .error (ending (stop? after))

end TokenStream

section streams
variable {σ : Type} [TokenStream σ] {s t u : σ} {items others : List Item}
  {e err : ParseError}

/-- Moves from one stream to another have succeeded and shown the items, one a move. -/
inductive Shown : σ → List Item → σ → Prop where
  | nil {s : σ} : Shown s [] s
  | cons {s after last : σ} {item : Item} {items : List Item}
      (moved : TokenStream.advance s = (true, after))
      (shown : TokenStream.current after = some item) (rest : Shown after items last) :
      Shown s (item :: items) last

/-- A move shows no item, which is reported as the error. -/
inductive Stuck : σ → ParseError → σ → Prop where
  /-- It succeeds all the same. -/
  | hole {s after : σ} (moved : TokenStream.advance s = (true, after))
      (shown : TokenStream.current after = none) : Stuck s .streamClosed after
  | refused {s after : σ} (moved : TokenStream.advance s = (false, after)) :
      Stuck s (TokenStream.ending (TokenStream.stop? after)) after

theorem Shown.concat {item : Item} (h : Shown s items t) (moved : TokenStream.advance t = (true, u))
    (shown : TokenStream.current u = some item) : Shown s (items ++ [item]) u := by
  induction h with
  | nil => exact .cons moved shown .nil
  | cons moved' shown' _ ih => exact .cons moved' shown' (ih moved)

theorem Shown.concat_of_outcome {item : Item} (h : Shown s items t)
    (ho : TokenStream.outcome t = .ok item) : Shown s (items ++ [item]) (TokenStream.moved t) := by
  unfold TokenStream.outcome at ho
  split at ho
  · next after hmove =>
    split at ho
    · next found hcurrent =>
      obtain rfl := Except.ok.inj ho
      rw [TokenStream.moved, hmove]
      exact h.concat hmove hcurrent
    · contradiction
  · contradiction

theorem Stuck.of_outcome (ho : TokenStream.outcome s = .error e) :
    Stuck s e (TokenStream.moved s) := by
  unfold TokenStream.outcome at ho
  split at ho
  · next after hmove =>
    split at ho
    · contradiction
    · next hcurrent =>
      obtain rfl := Except.error.inj ho
      rw [TokenStream.moved, hmove]
      exact .hole hmove hcurrent
  · next after hmove =>
    obtain rfl := Except.error.inj ho
    rw [TokenStream.moved, hmove]
    exact .refused hmove

theorem Stuck.ofStream (h : Stuck s e t) : e.ofStream = true := by
  cases h with
  | hole => rfl
  | refused => exact TokenStream.ofStream_ending _

theorem Shown.unique (h : Shown s items t) (h' : Shown s items u) : t = u := by
  induction h with
  | nil =>
    cases h'
    rfl
  | cons moved _ _ ih =>
    cases h' with
    | cons moved' _ rest' =>
      cases moved.symm.trans moved'
      exact ih rest'

theorem Stuck.unique (h : Stuck s e t) (h' : Stuck s err u) : t = u := by
  have hmove : (TokenStream.advance s).2 = t := by cases h with | _ moved => rw [moved]
  have hmove' : (TokenStream.advance s).2 = u := by cases h' with | _ moved => rw [moved]
  exact hmove.symm.trans hmove'

/-- What was shown is listed, and the rest is listed still. -/
theorem Shown.lists (h : Shown s items t) (hlists : Lists s others e) :
    ∃ rest, others = items ++ rest ∧ Lists t rest e := by
  induction h generalizing others with
  | nil => exact ⟨others, rfl, hlists⟩
  | cons moved shown _ ih =>
    cases hlists with
    | item moved' shown' rest =>
      cases moved.symm.trans moved'
      cases shown.symm.trans shown'
      obtain ⟨more, rfl, hmore⟩ := ih rest
      exact ⟨more, rfl, hmore⟩
    | hole moved' shown' =>
      cases moved.symm.trans moved'
      cases shown.symm.trans shown'
    | refused moved' => cases moved.symm.trans moved'

/-- A stream that is stuck lists nothing. -/
theorem Stuck.lists (h : Stuck s err t) (hlists : Lists s items e) : items = [] ∧ err = e := by
  cases h with
  | hole moved shown =>
    cases hlists with
    | item moved' shown' rest =>
      cases moved.symm.trans moved'
      cases shown.symm.trans shown'
    | hole => exact ⟨rfl, rfl⟩
    | refused moved' => cases moved.symm.trans moved'
  | refused moved =>
    cases hlists with
    | item moved' => cases moved.symm.trans moved'
    | hole moved' => cases moved.symm.trans moved'
    | refused moved' =>
      cases moved.symm.trans moved'
      exact ⟨rfl, rfl⟩

/-- A move comes to the first item that is listed, or if none is, to the error. -/
theorem Lists.move (h : Lists s items e) :
    (∃ item rest, items = item :: rest ∧ TokenStream.outcome s = .ok item ∧
      Lists (TokenStream.moved s) rest e) ∨ items = [] ∧ TokenStream.outcome s = .error e := by
  cases ho : TokenStream.outcome s with
  | ok item =>
    obtain ⟨rest, rfl, hrest⟩ := (Shown.nil.concat_of_outcome ho).lists h
    exact .inl ⟨item, rest, rfl, rfl, hrest⟩
  | error err =>
    obtain ⟨rfl, rfl⟩ := (Stuck.of_outcome ho).lists h
    exact .inr ⟨rfl, rfl⟩

theorem Lists.unique (h : Lists s items e) (h' : Lists s others err) : items = others := by
  induction h generalizing others with
  | item moved shown _ ih =>
    obtain ⟨rest, rfl, hrest⟩ := (Shown.cons moved shown .nil).lists h'
    rw [ih hrest]
    rfl
  | hole moved shown => exact ((Stuck.hole moved shown).lists h').1.symm
  | refused moved => exact ((Stuck.refused moved).lists h').1.symm

theorem Lists.ofStream (h : Lists s items e) : e.ofStream = true := by
  induction h with
  | item _ _ _ ih => exact ih
  | hole => rfl
  | refused => exact TokenStream.ofStream_ending _

end streams

/-! ### Keeping a record -/

/-- A stream that keeps a record of what its moves have shown, the latest last. -/
structure Logged (σ : Type) where
  stream : σ
  /-- The item that a move has shown, none if it failed or showed nothing. -/
  shown : List (Option Item)

instance {σ : Type} [TokenStream σ] : TokenStream (Logged σ) where
  advance s :=
    let (moved, after) := TokenStream.advance s.stream
    (moved, ⟨after, s.shown ++ [if moved then TokenStream.current after else none]⟩)
  current s := TokenStream.current s.stream
  stop? s := TokenStream.stop? s.stream
  size s := TokenStream.size s.stream
  size_advance_lt s h := TokenStream.size_advance_lt s.stream h

namespace Logged
variable {σ : Type} [TokenStream σ] {stream s : σ} {record : List (Option Item)}
  {t u : Logged σ} {items : List Item} {e : ParseError}

theorem advance_mk {moved : Bool} {after : σ} (h : TokenStream.advance s = (moved, after))
    (record : List (Option Item)) : TokenStream.advance (Logged.mk s record) =
      (moved, ⟨after, record ++ [if moved then TokenStream.current after else none]⟩) := by
  simp only [TokenStream.advance, h]

theorem of_advance {moved : Bool} (h : TokenStream.advance t = (moved, u)) :
    TokenStream.advance t.stream = (moved, u.stream) ∧
      u.shown = t.shown ++ [if moved then TokenStream.current u.stream else none] := by
  cases hm : TokenStream.advance t.stream with
  | mk b after =>
    cases (advance_mk hm t.shown).symm.trans h
    exact ⟨rfl, rfl⟩

/-- To keep a record changes nothing of what is listed. -/
theorem lists (h : Lists stream items e) (record : List (Option Item)) :
    Lists (Logged.mk stream record) items e := by
  induction h generalizing record with
  | item moved shown _ ih => exact .item (advance_mk moved record) shown (ih _)
  | hole moved shown => exact .hole (advance_mk moved record) shown
  | refused moved => exact .refused (advance_mk moved record)

/-- The record is of the items that were shown. -/
theorem of_shown (h : Shown t items u) :
    Shown t.stream items u.stream ∧ u.shown = t.shown ++ items.map some := by
  induction h with
  | nil => exact ⟨.nil, (List.append_nil _).symm⟩
  | @cons t after u item items moved shown _ ih =>
    obtain ⟨hstream, hrecord⟩ := ih
    obtain ⟨hmoved, hafter⟩ := of_advance moved
    have hshown : TokenStream.current after.stream = some item := shown
    rw [if_pos rfl, hshown] at hafter
    refine ⟨.cons hmoved shown hstream, ?_⟩
    rw [hrecord, hafter, List.append_assoc]
    rfl

/-- A move that shows nothing is on record. -/
theorem of_stuck (h : Stuck t e u) :
    Stuck t.stream e u.stream ∧ u.shown = t.shown ++ [none] := by
  cases h with
  | hole moved shown =>
    obtain ⟨hmoved, hafter⟩ := of_advance moved
    have hshown : TokenStream.current u.stream = none := shown
    rw [if_pos rfl, hshown] at hafter
    exact ⟨.hole hmoved shown, hafter⟩
  | refused moved =>
    obtain ⟨hmoved, hafter⟩ := of_advance moved
    exact ⟨.refused hmoved, hafter⟩

end Logged

end PathFilter
