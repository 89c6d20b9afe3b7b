import Mathlib.Data.Stream.Init
import Mathlib.Logic.Function.Iterate
import PathFilter.Proofs.Parse.Requests

/-! A lookahead is a cursor.

An `ItemCursor` moves over what a stream shows: it has no slots and counts nothing, it has
items behind it and what the moves of the stream come to ahead. A lookahead whose requests
are in order answers them as the cursor does (`Matches.serve`), since what is ahead of the
cursor is the item that was pushed back, if one was, and then what the stream has still to
show. A backup finds its item in the first slot, where every pull has left the latest. -/
namespace PathFilter
open TokenStream Lookahead

/-! ### What a stream shows -/

namespace TokenStream
variable {σ : Type} [TokenStream σ] {s : σ} {n : Nat}

/-- What the moves of a stream come to, one after another. -/
def outcomes (s : σ) : Stream' (Except ParseError Item) := fun n => outcome (moved^[n] s)

/-- The items that so many moves show. -/
def shownBy (n : Nat) (s : σ) : List Item := ((outcomes s).take n).filterMap Except.toOption

theorem outcomes_eq_cons {s : σ} {o : Except ParseError Item} (h : outcome s = o) :
    outcomes s = Stream'.cons o (outcomes (moved s)) := by
  rw [← h]
  exact (Stream'.eta (outcomes s)).symm

/-- The items that are listed come first, and the error behind them. -/
theorem outcomes_of_lists {s : σ} {items : List Item} {e : ParseError} (h : Lists s items e) :
    ∃ rest, outcomes s = Stream'.appendStream' (items.map .ok) (Stream'.cons (.error e) rest) := by
  induction items generalizing s with
  | nil =>
    rcases h.move with ⟨item, rest, hitems, -⟩ | ⟨-, ho⟩
    · contradiction
    · exact ⟨_, outcomes_eq_cons ho⟩
  | cons item items ih =>
    rcases h.move with ⟨_, _, hitems, ho, hrest⟩ | ⟨hnil, -⟩
    · cases hitems
      obtain ⟨rest, hrest⟩ := ih hrest
      refine ⟨rest, ?_⟩
      rw [outcomes_eq_cons ho, hrest]
      rfl
    · contradiction

theorem moved_iterate (n : Nat) (s : σ) : moved (moved^[n] s) = moved^[n + 1] s :=
  (Function.iterate_succ_apply' moved n s).symm

theorem shownBy_of_ok {item : Item} (h : outcome (moved^[n] s) = .ok item) :
    shownBy (n + 1) s = shownBy n s ++ [item] := by
  have hget : (outcomes s).get n = .ok item := h
  rw [shownBy, Stream'.take_succ', hget, List.filterMap_append]
  rfl

theorem shownBy_of_error {e : ParseError} (h : outcome (moved^[n] s) = .error e) :
    shownBy (n + 1) s = shownBy n s := by
  have hget : (outcomes s).get n = .error e := h
  rw [shownBy, Stream'.take_succ', hget, List.filterMap_append]
  exact List.append_nil _

end TokenStream

/-! ### Cursors -/

/-- A cursor over the items that a stream shows. -/
structure ItemCursor where
  /-- The items it has passed, the latest first. -/
  behind : List Item
  /-- The items it comes to, and between them the errors of moves that show none. -/
  ahead : Stream' (Except ParseError Item)

namespace ItemCursor

/-- In front of all that a stream shows. -/
def ofStream {σ : Type} [TokenStream σ] (s : σ) : ItemCursor := ⟨[], outcomes s⟩

/-- Past what is next, an item or an error. An error is not kept. -/
def forward (c : ItemCursor) : ItemCursor :=
  match c.ahead.head with
  | .ok item => ⟨item :: c.behind, c.ahead.tail⟩
  | .error _ => ⟨c.behind, c.ahead.tail⟩

/-- Back to the item that was passed last. -/
def back (c : ItemCursor) : ItemCursor :=
  match c.behind with
  | item :: behind => ⟨behind, Stream'.cons (.ok item) c.ahead⟩
  | [] => c

/-- What a request is answered, and the cursor after it. -/
def serve (c : ItemCursor) : (r : Request) → Except ParseError r.Answer × ItemCursor
  | .peek =>
    match c.ahead.head with
    | .ok item => (.ok item, c)
    | .error e => (.error e, c.forward)
  | .next => (c.ahead.head, c.forward)
  | .accept kind =>
    match c.ahead.head with
    | .ok item => if item.kind = kind then (.ok true, c.forward) else (.ok false, c)
    | .error e => (.error e, c.forward)
  | .expect kind wanted =>
    match c.ahead.head with
    | .ok item =>
      if item.kind = kind then (.ok item, c.forward)
      else (.error (item.unexpected wanted), c.forward)
    | .error e => (.error e, c.forward)
  | .backup => (.ok (), c.back)

def replies (c : ItemCursor) : List Request → List Reply
  | [] => []
  | r :: rest => ⟨r, (c.serve r).1⟩ :: (c.serve r).2.replies rest

def after (c : ItemCursor) : List Request → ItemCursor
  | [] => c
  | r :: rest => (c.serve r).2.after rest

section
variable {c : ItemCursor} {item : Item} {rest : Stream' (Except ParseError Item)}

theorem forward_of_ok (h : c.ahead = Stream'.cons (.ok item) rest) :
    c.forward = ⟨item :: c.behind, rest⟩ := by
  rw [forward, h]
  rfl

theorem forward_of_error {e : ParseError} (h : c.ahead = Stream'.cons (.error e) rest) :
    c.forward = ⟨c.behind, rest⟩ := by
  rw [forward, h]
  rfl

theorem serve_of_error {r : Request} {e : ParseError} (hr : r ≠ .backup)
    (h : c.ahead.head = .error e) : c.serve r = (.error e, c.forward) := by
  cases r <;> first | contradiction | simp only [serve, h]

theorem back_forward (h : c.ahead.head = .ok item) : c.forward.back = c := by
  have hahead : c.ahead = Stream'.cons (.ok item) c.ahead.tail := by rw [← h, Stream'.eta]
  rw [forward_of_ok hahead]
  exact congrArg (mk c.behind) hahead.symm

end
end ItemCursor

/-! ### A lookahead beside its cursor -/

namespace Lookahead
variable {σ : Type} [TokenStream σ] {s : σ} {l after : Lookahead σ} {c : ItemCursor}
  {consumed : Bool}

/-- The items that are to be read again, in that order. -/
def buffered (l : Lookahead σ) : List Item := (l.slots.toList.take l.pushed).reverse

omit [TokenStream σ] in
theorem buffered_of_empty (h : l.pushed = 0) : l.buffered = [] := by
  rw [buffered, h]
  rfl

omit [TokenStream σ] in
theorem buffered_of_pushed {item : Item} (h : l.pushed = 1) (held : l.slots[0]? = some item) :
    l.buffered = [item] := by
  rw [buffered, h, List.take_one, List.head?_eq_getElem?, Vector.getElem?_toList, held]
  rfl

/-- The lookahead has come from the stream to where the cursor is. -/
structure Matches (s : σ) (l : Lookahead σ) (c : ItemCursor) : Prop where
  atMostOne : l.pushed ≤ 1
  /-- What is buffered comes next, and then what the stream has still to show. -/
  ahead : c.ahead = Stream'.appendStream' (l.buffered.map .ok) (outcomes l.stream)
  /-- What the stream has shown was passed or is buffered, in that order. -/
  shown : ∃ n, l.stream = moved^[n] s ∧ shownBy n s = c.behind.reverse ++ l.buffered

theorem Matches.empty_iff (h : l.pushed = 0) : Matches s l c ↔ c.ahead = outcomes l.stream ∧
    ∃ n, l.stream = moved^[n] s ∧ shownBy n s = c.behind.reverse := by
  have hbuffered := buffered_of_empty h
  constructor
  · rintro ⟨-, hahead, n, hstream, hshown⟩
    rw [hbuffered] at hahead hshown
    exact ⟨hahead, n, hstream, by rw [hshown, List.append_nil]⟩
  · rintro ⟨hahead, n, hstream, hshown⟩
    refine ⟨by omega, ?_, n, hstream, ?_⟩
    · rw [hbuffered]
      exact hahead
    · rw [hbuffered, hshown, List.append_nil]

theorem Matches.pushed_iff {item : Item} (h : l.pushed = 1) (held : l.slots[0]? = some item) :
    Matches s l c ↔ c.ahead = Stream'.cons (.ok item) (outcomes l.stream) ∧
      ∃ n, l.stream = moved^[n] s ∧ shownBy n s = c.behind.reverse ++ [item] := by
  have hbuffered := buffered_of_pushed h held
  constructor
  · rintro ⟨-, hahead, n, hstream, hshown⟩
    rw [hbuffered] at hahead hshown
    exact ⟨hahead, n, hstream, hshown⟩
  · rintro ⟨hahead, n, hstream, hshown⟩
    refine ⟨by omega, ?_, n, hstream, ?_⟩
    · rw [hbuffered]
      exact hahead
    · rw [hbuffered, hshown]

/-- If an item was just consumed, it is in the first slot. -/
structure Follows (s : σ) (consumed : Bool) (l : Lookahead σ) (c : ItemCursor) : Prop
    extends Matches s l c where
  latest : consumed = true → l.pushed = 0 ∧
    ∃ item behind, l.slots[0]? = some item ∧ c.behind = item :: behind

theorem follows_ofStream (s : σ) : Follows s false (ofStream s) (.ofStream s) where
  toMatches := (Matches.empty_iff rfl).2 ⟨rfl, 0, rfl, rfl⟩
  latest := nofun

namespace Follows

/-- To consume an item moves the cursor forward, and so does a pull that fails. -/
theorem next (h : Follows s consumed l c) :
    (∃ item after, Parser.next.result l = (.ok item, after) ∧ c.ahead.head = .ok item ∧
      Follows s true after c.forward) ∨
    ∃ e after, Parser.next.result l = (.error e, after) ∧ c.ahead.head = .error e ∧
      e.ofStream = true ∧ Follows s false after c.forward := by
  rcases Parser.next_cases h.atMostOne with
    ⟨hone, item, held, hnext⟩ | ⟨hzero, item, ho, hnext⟩ | ⟨hzero, e, ho, hnext⟩
  · -- the item was pushed back
    obtain ⟨hahead, n, hstream, hshown⟩ := (Matches.pushed_iff hone held).1 h.toMatches
    rw [ItemCursor.forward_of_ok hahead]
    refine .inl ⟨_, _, hnext, by rw [hahead]; rfl, ?_, fun _ => ⟨rfl, _, _, held, rfl⟩⟩
    exact (Matches.empty_iff rfl).2 ⟨rfl, n, hstream, hshown.trans List.reverse_cons.symm⟩
  · -- the stream shows the item
    obtain ⟨hahead, n, hstream, hshown⟩ := (Matches.empty_iff hzero).1 h.toMatches
    rw [outcomes_eq_cons ho] at hahead
    rw [ItemCursor.forward_of_ok hahead]
    refine .inl ⟨_, _, hnext, by rw [hahead]; rfl, ?_, fun _ => ⟨rfl, _, _, by simp, rfl⟩⟩
    rw [hstream] at ho
    refine (Matches.empty_iff rfl).2 ⟨rfl, n + 1, ?_, ?_⟩
    · rw [← moved_iterate, ← hstream]
    · rw [shownBy_of_ok ho, hshown, List.reverse_cons]
  · -- the stream shows nothing
    obtain ⟨hahead, n, hstream, hshown⟩ := (Matches.empty_iff hzero).1 h.toMatches
    rw [outcomes_eq_cons ho] at hahead
    rw [ItemCursor.forward_of_error hahead]
    refine .inr ⟨_, _, hnext, by rw [hahead]; rfl, (Stuck.of_outcome ho).ofStream, ?_, nofun⟩
    rw [hstream] at ho
    refine (Matches.empty_iff (l := {l with stream := moved l.stream}) hzero).2
      ⟨rfl, n + 1, ?_, ?_⟩
    · rw [← moved_iterate, ← hstream]
    · rw [shownBy_of_error ho, hshown]

/-- An item that was just consumed is still in its slot, so the count alone pushes it back. -/
theorem back (h : Follows s true l c) :
    Follows s false {l with pushed := l.pushed + 1} c.back := by
  obtain ⟨hzero, item, behind, held, hbehind⟩ := h.latest rfl
  obtain ⟨hahead, n, hstream, hshown⟩ := (Matches.empty_iff hzero).1 h.toMatches
  have hone : l.pushed + 1 = 1 := by rw [hzero]
  refine ⟨(Matches.pushed_iff (l := {l with pushed := l.pushed + 1}) hone held).2 ?_, nofun⟩
  rw [ItemCursor.back, hbehind]
  refine ⟨congrArg (Stream'.cons _) hahead, n, hstream, ?_⟩
  rw [hshown, hbehind, List.reverse_cons]

/-- A request for which there is an item. -/
theorem serve_of_ok {item : Item} (h : Follows s consumed l c) {r : Request} (hr : r ≠ .backup)
    (hnext : Parser.next.result l = (.ok item, after)) (hhead : c.ahead.head = .ok item)
    (hafter : Follows s true after c.forward) :
    (l.serve r).1 = (c.serve r).1 ∧
      Follows s (Reply.mk r (l.serve r).1).consumed (l.serve r).2 (c.serve r).2 := by
  have hback : Follows s false {after with pushed := after.pushed + 1} c := by
    rw [← ItemCursor.back_forward hhead]
    exact hafter.back
  cases r with
  | peek =>
    have hpeek : l.serve .peek = _ := Parser.peek_of_ok h.atMostOne hnext
    rw [hpeek, ItemCursor.serve, hhead]
    exact ⟨rfl, hback⟩
  | next =>
    have hserve : l.serve .next = _ := hnext
    rw [hserve, ItemCursor.serve, hhead]
    exact ⟨rfl, hafter⟩
  | accept kind =>
    have haccept : l.serve (.accept kind) = _ := Parser.accept_of_ok hnext
    rw [haccept, ItemCursor.serve, hhead]
    by_cases hkind : item.kind = kind
    · simp only [if_pos hkind]
      exact ⟨trivial, hafter⟩
    · simp only [if_neg hkind]
      exact ⟨trivial, hback⟩
  | expect kind wanted =>
    have hexpect : l.serve (.expect kind wanted) = _ := Parser.expect_of_ok hnext
    rw [hexpect, ItemCursor.serve, hhead]
    by_cases hkind : item.kind = kind
    · simp only [if_pos hkind]
      exact ⟨trivial, hafter⟩
    · simp only [if_neg hkind]
      refine ⟨trivial, ?_⟩
      rw [Reply.consumed, item.ofStream_unexpected]
      exact hafter
  | backup => contradiction

/-- **A request is answered as the cursor answers it**, and the lookahead goes where the cursor
goes. -/
theorem serve (h : Follows s consumed l c) (r : Request) (hr : r = .backup → consumed = true) :
    (l.serve r).1 = (c.serve r).1 ∧
      Follows s (Reply.mk r (l.serve r).1).consumed (l.serve r).2 (c.serve r).2 := by
  by_cases hbackup : r = .backup
  · obtain rfl := hr hbackup
    subst hbackup
    exact ⟨rfl, h.back⟩
  · rcases h.next with ⟨item, after, hnext, hhead, hafter⟩ | ⟨e, after, hnext, hhead, hown, hafter⟩
    · exact h.serve_of_ok hbackup hnext hhead hafter
    · rw [Lookahead.serve_of_error h.atMostOne hbackup hnext,
        ItemCursor.serve_of_error hbackup hhead]
      refine ⟨rfl, ?_⟩
      rw [Reply.consumed_of_error hown]
      exact hafter

/-- **Requests that are in order are answered as the cursor answers them.** -/
theorem replies (h : Follows s consumed l c) (requests : List Request)
    (horder : Disciplined consumed (l.replies requests)) :
    l.replies requests = c.replies requests ∧ Matches s (l.after requests) (c.after requests) := by
  induction requests generalizing l c consumed with
  | nil => exact ⟨rfl, h.toMatches⟩
  | cons r rest ih =>
    obtain ⟨hanswer, hafter⟩ := h.serve r horder.1
    obtain ⟨hreplies, hlast⟩ := ih hafter horder.2
    rw [Lookahead.replies, ItemCursor.replies, hanswer, hreplies]
    exact ⟨rfl, hlast⟩

end Follows

/-! ### What holds between requests -/

/-- The lookahead has come from the stream to where the cursor is, and no request that it is given
next reads beside its slots, pulls too early or is upset by a pull that fails. -/
structure Stands (s : σ) (l : Lookahead σ) (c : ItemCursor) : Prop extends Matches s l c where
  /-- A read looks at no slot beyond the count. -/
  inside : ∀ i ≤ l.pushed, ∃ item, Parser.slot i l = .ok item l
  /-- Only with nothing buffered is the stream moved, and then once. -/
  moves : ∀ r, (l.serve r).2.stream =
    if r ≠ .backup ∧ l.pushed = 0 then moved l.stream else l.stream
  /-- A pull that fails leaves the buffer empty and the slots as they were. -/
  failed : ∀ r e, r ≠ .backup → l.pushed = 0 → outcome l.stream = .error e →
    l.serve r = (.error e, {l with stream := moved l.stream})
  /-- No request fails as the stream does unless a pull failed. -/
  fails : ∀ r e, (l.serve r).1 = .error e → e.ofStream = true →
    l.pushed = 0 ∧ outcome l.stream = .error e

theorem Matches.stands (h : Matches s l c) : Stands s l c := by
  refine ⟨h, ?_, ?_, ?_, ?_⟩
  · intro i hi
    have hle := h.atMostOne
    have hlt : i < 3 := by omega
    exact ⟨l.slots[i], by rw [Parser.slot, Vector.getElem?_eq_getElem hlt]⟩
  · intro r
    by_cases hr : r = .backup
    · rw [if_neg (fun hand => hand.1 hr), hr]
      rfl
    rcases Parser.next_cases h.atMostOne with
      ⟨hone, item, -, hnext⟩ | ⟨hzero, item, ho, hnext⟩ | ⟨hzero, e, ho, hnext⟩
    · rw [if_neg (by omega), stream_serve_of_ok h.atMostOne hr hnext]
    · rw [if_pos ⟨hr, hzero⟩, stream_serve_of_ok h.atMostOne hr hnext]
    · rw [if_pos ⟨hr, hzero⟩, serve_of_error h.atMostOne hr hnext]
  · intro r e hr hzero ho
    exact serve_of_error h.atMostOne hr (Parser.next_of_error hzero ho)
  · intro r e he hown
    by_cases hr : r = .backup
    · subst hr
      contradiction
    rcases Parser.next_cases h.atMostOne with
      ⟨-, item, -, hnext⟩ | ⟨-, item, -, hnext⟩ | ⟨hzero, err, ho, hnext⟩
    · exact absurd ((serve_of_ok h.atMostOne hr hnext).2 e he) (by simp [hown])
    · exact absurd ((serve_of_ok h.atMostOne hr hnext).2 e he) (by simp [hown])
    · rw [serve_of_error h.atMostOne hr hnext] at he
      exact ⟨hzero, Except.error.inj he ▸ ho⟩

/-- The requests are answered as the cursor answers them, and the lookahead is left where the
cursor is. -/
structure Faithful (s : σ) (requests : List Request) : Prop where
  replies : (ofStream s).replies requests = (ItemCursor.ofStream s).replies requests
  stands : Stands s ((ofStream s).after requests) ((ItemCursor.ofStream s).after requests)

theorem Disciplined.faithful {requests : List Request}
    (h : Disciplined false ((ofStream s).replies requests)) : Faithful s requests := by
  obtain ⟨hreplies, hmatches⟩ := (follows_ofStream s).replies requests h
  exact ⟨hreplies, hmatches.stands⟩

/-- What a parser makes of a stream are requests that are in order. -/
theorem exists_requests (s : σ) : ∃ requests, Parser.Runs Parser.start (ofStream s)
    ((ofStream s).replies requests) (build s).1 ((ofStream s).after requests) ∧
      ((ofStream s).after requests).stream = (build s).2 ∧
      Disciplined false ((ofStream s).replies requests) := by
  obtain ⟨replies, outcome, last, hruns, horder⟩ := Parser.scripted_start (ofStream s)
  obtain ⟨hreplies, hlast⟩ := hruns.served
  refine ⟨replies.map Reply.request, ?_⟩
  rw [hreplies, hlast, hruns.build_eq]
  exact ⟨hruns, rfl, horder⟩

/-- **The lookahead is a cursor over the items of its stream.** Whatever the stream is, requests
among which a backup comes only directly after an item was consumed are answered as a cursor
answers them that looks at the next item, moves past it and moves back by one. What the
stream has shown was passed or is buffered, in that order, and at most one item is buffered.
The stream is moved only if none is, and a move that shows nothing leaves the buffer empty.
A parser makes nothing but such requests of any stream, and so this holds after each of them.
The cursor begins in front of the items that the stream lists. -/
theorem faithful_cursor (s : σ) :
    (∀ requests, Disciplined false ((ofStream s).replies requests) → Faithful s requests) ∧
    (∃ requests, Parser.Runs Parser.start (ofStream s) ((ofStream s).replies requests) (build s).1
        ((ofStream s).after requests) ∧
      ((ofStream s).after requests).stream = (build s).2 ∧
      Disciplined false ((ofStream s).replies requests) ∧
      ∀ k, Faithful s (requests.take k)) ∧
    ∀ items e, Lists s items e → ∃ rest, (ItemCursor.ofStream s).ahead =
      Stream'.appendStream' (items.map .ok) (Stream'.cons (.error e) rest) := by
  refine ⟨fun requests h => h.faithful, ?_, fun items e h => outcomes_of_lists h⟩
  obtain ⟨requests, hruns, hstream, horder⟩ := exists_requests s
  refine ⟨requests, hruns, hstream, horder, fun k => Disciplined.faithful ?_⟩
  rw [replies_take]
  exact horder.take k

/-- Three items, and a second move that shows none of them. -/
def holed : Replay :=
  ⟨[⟨.period, 0, 1⟩, ⟨.name "a", 1, 2⟩, ⟨.endOfInput, 2, 2⟩], none, .empty, ⟨0⟩, 0, none, some 1⟩

/-- Items that are looked at, refused and pushed back, and a pull between them that fails. -/
def thereAndBack : List Request :=
  [.peek, .next, .backup, .accept .colon, .next, .peek, .accept .name, .backup,
    .expect .question "'?'", .backup, .next, .next]

theorem faithful_over_hole :
    Disciplined false ((ofStream holed).replies thereAndBack) ∧ Faithful holed thereAndBack ∧
    (ofStream holed).replies thereAndBack =
      [⟨.peek, .ok ⟨.period, 0, 1⟩⟩, ⟨.next, .ok ⟨.period, 0, 1⟩⟩, ⟨.backup, .ok ()⟩,
        ⟨.accept .colon, .ok false⟩, ⟨.next, .ok ⟨.period, 0, 1⟩⟩, ⟨.peek, .error .streamClosed⟩,
        ⟨.accept .name, .ok true⟩, ⟨.backup, .ok ()⟩,
        ⟨.expect .question "'?'", .error (.unexpected "'?'" .name 1)⟩, ⟨.backup, .ok ()⟩,
        ⟨.next, .ok ⟨.name "a", 1, 2⟩⟩, ⟨.next, .ok ⟨.endOfInput, 2, 2⟩⟩] ∧
    Lists holed [⟨.period, 0, 1⟩] .streamClosed ∧
    ∃ rest, (ItemCursor.ofStream holed).ahead =
      Stream'.cons (.ok ⟨.period, 0, 1⟩) (Stream'.cons (.error .streamClosed) rest) :=
  have hlists : Lists holed [⟨.period, 0, 1⟩] .streamClosed := .item rfl rfl (.hole rfl rfl)
  ⟨by decide, (faithful_cursor _).1 _ (by decide), rfl, hlists, (faithful_cursor _).2.2 _ _ hlists⟩

end Lookahead
end PathFilter
