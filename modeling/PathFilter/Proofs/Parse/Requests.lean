import PathFilter.Parse
import PathFilter.Proofs.Parse.Results

/-! What a parser asks of its lookahead.

A lookahead answers requests: to look at the next item, to consume it, whatever it is or
only if it is of a kind, and to push the latest back. A parser does nothing else with it:
`Runs` says which requests it makes, one after another, and that it goes on with what they
are answered. It is `Scripted` if its requests are in order, which is that a backup comes
directly after an item that was consumed. What the rules of the grammar are put together
from is scripted, so they are. -/
namespace PathFilter

open TokenStream

theorem Item.ofStream_unexpected (item : Item) (wanted : String) :
    (item.unexpected wanted).ofStream = false := by
  unfold Item.unexpected
  split <;> rfl

/-! ### Requests -/

namespace Lookahead

inductive Request where
  | peek
  | next
  | accept (kind : Kind)
  | expect (kind : Kind) (wanted : String)
  | backup
deriving DecidableEq

/-- What a request is answered with, unless it fails. -/
abbrev Request.Answer : Request → Type
  | .peek | .next | .expect _ _ => Item
  | .accept _ => Bool
  | .backup => Unit

/-- A request and what came of it. -/
structure Reply where
  request : Request
  answer : Except ParseError request.Answer

/-- The request has moved past an item, be it one that was not wanted. -/
def Reply.consumed : Reply → Bool
  | ⟨.next, .ok _⟩ => true
  | ⟨.accept _, .ok taken⟩ => taken
  | ⟨.expect _ _, .ok _⟩ => true
  | ⟨.expect _ _, .error e⟩ => !e.ofStream
  | _ => false

theorem Reply.consumed_of_error {r : Request} {e : ParseError} (h : e.ofStream = true) :
    (Reply.mk r (.error e)).consumed = false := by
  cases r <;> simp [consumed, h]

/-- Every backup comes directly after an item was consumed, the first perhaps after one
that was consumed before. -/
def Disciplined : Bool → List Reply → Prop
  | _, [] => True
  | consumed, reply :: replies =>
    (reply.request = .backup → consumed = true) ∧ Disciplined reply.consumed replies

instance decidableDisciplined : ∀ consumed replies, Decidable (Disciplined consumed replies)
  | _, [] => isTrue trivial
  | consumed, reply :: replies =>
    have := decidableDisciplined reply.consumed replies
    inferInstanceAs (Decidable ((reply.request = .backup → consumed = true) ∧ _))

section
variable {consumed : Bool} {replies more : List Reply}

theorem Disciplined.of_false (h : Disciplined false replies) : Disciplined consumed replies := by
  cases replies with
  | nil => trivial
  | cons reply replies => exact ⟨fun hbackup => Bool.noConfusion (h.1 hbackup), h.2⟩

theorem Disciplined.append (h : Disciplined consumed replies) (h' : Disciplined false more) :
    Disciplined consumed (replies ++ more) := by
  induction replies generalizing consumed with
  | nil => exact h'.of_false
  | cons reply replies ih => exact ⟨h.1, ih h.2⟩

theorem Disciplined.take (h : Disciplined consumed replies) (k : Nat) :
    Disciplined consumed (replies.take k) := by
  induction replies generalizing consumed k with
  | nil => simpa using h
  | cons reply replies ih =>
    cases k with
    | zero => trivial
    | succ k => exact ⟨h.1, ih h.2 k⟩

end
end Lookahead
open Lookahead

/-- What the request is to a parser. -/
def Parser.ask {σ : Type} [TokenStream σ] : (r : Request) → Parser σ r.Answer
  | .peek => peek
  | .next => next
  | .accept kind => accept kind
  | .expect kind wanted => expect kind wanted
  | .backup => backup

namespace Lookahead
variable {σ : Type} [TokenStream σ]

/-- What comes of a request, and the lookahead after it. -/
def serve (l : Lookahead σ) (r : Request) : Except ParseError r.Answer × Lookahead σ :=
  (Parser.ask r).result l

/-- A pull that fails is what comes of any request that needs it. -/
theorem serve_of_error {l after : Lookahead σ} {r : Request} {e : ParseError} (hp : l.pushed ≤ 1)
    (hr : r ≠ .backup) (h : Parser.next.result l = (.error e, after)) :
    l.serve r = (.error e, after) := by
  cases r with
  | peek => exact Parser.peek_of_error hp h
  | next => exact h
  | accept kind => exact Parser.accept_of_error h
  | expect kind wanted => exact Parser.expect_of_error h
  | backup => contradiction

/-- Where there is an item, a request consumes it, or it consumes it and pushes it back. -/
theorem serve_of_ok {l after : Lookahead σ} {r : Request} {item : Item} (hp : l.pushed ≤ 1)
    (hr : r ≠ .backup) (h : Parser.next.result l = (.ok item, after)) :
    ((l.serve r).2 = after ∨ (l.serve r).2 = {after with pushed := after.pushed + 1} ∧
      (Reply.mk r (l.serve r).1).consumed = false) ∧
    ∀ e, (l.serve r).1 = .error e → e.ofStream = false := by
  cases r with
  | peek =>
    have hserve : l.serve .peek = _ := Parser.peek_of_ok hp h
    rw [hserve]
    exact ⟨.inr ⟨rfl, rfl⟩, nofun⟩
  | next =>
    have hserve : l.serve .next = _ := h
    rw [hserve]
    exact ⟨.inl rfl, nofun⟩
  | accept kind =>
    have hserve : l.serve (.accept kind) = _ := Parser.accept_of_ok h
    rw [hserve]
    split
    · exact ⟨.inl rfl, nofun⟩
    · exact ⟨.inr ⟨rfl, rfl⟩, nofun⟩
  | expect kind wanted =>
    have hserve : l.serve (.expect kind wanted) = _ := Parser.expect_of_ok h
    rw [hserve]
    split
    · exact ⟨.inl rfl, nofun⟩
    · refine ⟨.inl rfl, fun e he => ?_⟩
      rw [← Except.error.inj he]
      exact item.ofStream_unexpected wanted
  | backup => contradiction

theorem stream_serve_of_ok {l after : Lookahead σ} {r : Request} {item : Item} (hp : l.pushed ≤ 1)
    (hr : r ≠ .backup) (h : Parser.next.result l = (.ok item, after)) :
    (l.serve r).2.stream = after.stream := by
  rcases (serve_of_ok hp hr h).1 with hlast | ⟨hlast, -⟩
  · rw [hlast]
  · rw [hlast]

/-- What comes of requests, one after another. -/
def replies (l : Lookahead σ) : List Request → List Reply
  | [] => []
  | r :: rest => ⟨r, (l.serve r).1⟩ :: (l.serve r).2.replies rest

def after (l : Lookahead σ) : List Request → Lookahead σ
  | [] => l
  | r :: rest => (l.serve r).2.after rest

theorem replies_cons {l mid : Lookahead σ} {r : Request} {answer : Except ParseError r.Answer}
    (h : l.serve r = (answer, mid)) (rest : List Request) :
    l.replies (r :: rest) = ⟨r, answer⟩ :: mid.replies rest := by
  rw [replies, h]

theorem after_cons {l mid : Lookahead σ} {r : Request} {answer : Except ParseError r.Answer}
    (h : l.serve r = (answer, mid)) (rest : List Request) :
    l.after (r :: rest) = mid.after rest := by
  rw [after, h]

theorem replies_take (l : Lookahead σ) (requests : List Request) (k : Nat) :
    l.replies (requests.take k) = (l.replies requests).take k := by
  induction requests generalizing l k with
  | nil => simp [replies]
  | cons r rest ih =>
    cases k with
    | zero => rfl
    | succ k => exact congrArg (_ :: ·) (ih _ k)

end Lookahead

/-! ### The requests of a parser -/

namespace Parser
variable {σ α β : Type} [TokenStream σ] {l mid last : Lookahead σ} {replies more : List Reply}

/-- The parser makes requests, one after another, and goes on with what they are answered. It
ends with a value, with an error of its own, or with that of a request that fails. -/
inductive Runs {α : Type} :
    Parser σ α → Lookahead σ → List Reply → Except ParseError α → Lookahead σ → Prop where
  | value (a : α) (l : Lookahead σ) : Runs (pure a) l [] (.ok a) l
  | fault {e : ParseError} (own : e.ofStream = false) (l : Lookahead σ) :
      Runs (throw e) l [] (.error e) l
  | answered {r : Request} {go : r.Answer → Parser σ α} {a : r.Answer} {l mid last : Lookahead σ}
      {replies : List Reply} {outcome : Except ParseError α}
      (served : l.serve r = (.ok a, mid)) (rest : Runs (go a) mid replies outcome last) :
      Runs (ask r >>= go) l (⟨r, .ok a⟩ :: replies) outcome last
  | failed {r : Request} {go : r.Answer → Parser σ α} {e : ParseError} {l last : Lookahead σ}
      (served : l.serve r = (.error e, last)) :
      Runs (ask r >>= go) l [⟨r, .error e⟩] (.error e) last

namespace Runs
variable {m : Parser σ α} {f : α → Parser σ β} {outcome : Except ParseError α}
  {final : Except ParseError β}

/-- What the requests lead to is what the parser ends with. -/
theorem result_eq (h : Runs m l replies outcome last) : m.result l = (outcome, last) := by
  induction h with
  | value a l => rfl
  | fault own l => rfl
  | answered served _ ih => exact (bind_of_ok served).trans ih
  | failed served => exact bind_of_error served

/-- The requests are served one after another. -/
theorem served (h : Runs m l replies outcome last) :
    l.replies (replies.map Reply.request) = replies ∧
      l.after (replies.map Reply.request) = last := by
  induction h with
  | value a l => exact ⟨rfl, rfl⟩
  | fault own l => exact ⟨rfl, rfl⟩
  | answered served _ ih =>
    refine ⟨(replies_cons served _).trans ?_, (after_cons served _).trans ih.2⟩
    rw [ih.1]
  | failed served => exact ⟨replies_cons served [], after_cons served []⟩

theorem bind {a : α} (h : Runs m l replies (.ok a) mid) (h' : Runs (f a) mid more final last) :
    Runs (m >>= f) l (replies ++ more) final last := by
  generalize hok : Except.ok a = outcome at h
  induction h with
  | value b l =>
    cases hok
    rw [pure_bind]
    exact h'
  | fault => cases hok
  | answered served _ ih =>
    rw [bind_assoc]
    exact .answered served (ih h' hok)
  | failed => cases hok

theorem bind_error {e : ParseError} (h : Runs m l replies (.error e) last) :
    Runs (m >>= f) l replies (.error e) last := by
  generalize herror : Except.error e = outcome at h
  induction h with
  | value => cases herror
  | fault own l =>
    cases herror
    exact .fault own l
  | answered served _ ih =>
    rw [bind_assoc]
    exact .answered served (ih herror)
  | failed served =>
    cases herror
    rw [bind_assoc]
    exact .failed served

end Runs

theorem runs_ask (r : Request) (l : Lookahead σ) :
    Runs (ask r) l [⟨r, (l.serve r).1⟩] (l.serve r).1 (l.serve r).2 := by
  have hask : ask r >>= pure = (ask r : Parser σ r.Answer) := bind_pure _
  cases hserved : l.serve r with
  | mk answer mid =>
    rw [← hask]
    cases answer with
    | ok a => exact .answered hserved (.value a mid)
    | error e => exact .failed hserved

/-- The requests that the parser makes are in order. -/
def Scripted (m : Parser σ α) (l : Lookahead σ) : Prop :=
  ∃ replies outcome last, Runs m l replies outcome last ∧ Disciplined false replies

section
variable {m : Parser σ α} {f : α → Parser σ β}

theorem Scripted.pure {a : α} : Scripted (Pure.pure a) l := ⟨_, _, _, .value a l, trivial⟩

theorem Scripted.throw {e : ParseError} (h : e.ofStream = false) :
    Scripted (throw e : Parser σ α) l := ⟨_, _, _, .fault h l, trivial⟩

theorem Scripted.bind (hm : Scripted m l)
    (hf : ∀ a mid, m.result l = (.ok a, mid) → Scripted (f a) mid) : Scripted (m >>= f) l := by
  obtain ⟨replies, outcome, mid, hruns, horder⟩ := hm
  cases outcome with
  | error e => exact ⟨_, _, _, hruns.bind_error, horder⟩
  | ok a =>
    obtain ⟨more, final, last, hruns', horder'⟩ := hf a mid hruns.result_eq
    exact ⟨_, _, _, hruns.bind hruns', horder.append horder'⟩

end

/-! ### Every rule of the grammar makes requests that are in order -/

theorem scripted_ask {r : Request} (h : r ≠ .backup) (l : Lookahead σ) : Scripted (ask r) l :=
  ⟨_, _, _, runs_ask r l, fun hbackup => absurd hbackup h, trivial⟩

theorem scripted_next (l : Lookahead σ) : Scripted next l := scripted_ask (r := .next) nofun l

theorem scripted_peek (l : Lookahead σ) : Scripted peek l := scripted_ask (r := .peek) nofun l

theorem scripted_peekKind (l : Lookahead σ) : Scripted peekKind l :=
  (scripted_peek l).bind fun _ _ _ => .pure

/-- What is refused is pushed back, directly after it was consumed. -/
theorem scripted_accept (kind : Kind) (l : Lookahead σ) : Scripted (accept kind) l := by
  cases hnext : l.serve .next with
  | mk answer mid =>
    cases answer with
    | error e => exact ⟨_, _, _, .failed hnext, nofun, trivial⟩
    | ok item =>
      by_cases hkind : item.kind = kind
      · have hruns : Runs (accept kind) l [⟨.next, .ok item⟩] (.ok true) mid := by
          refine .answered (r := .next) hnext ?_
          rw [if_pos hkind]
          exact .value true mid
        exact ⟨_, _, _, hruns, nofun, trivial⟩
      · have hruns : Runs (accept kind) l [⟨.next, .ok item⟩, ⟨.backup, .ok ()⟩] (.ok false)
            {mid with pushed := mid.pushed + 1} := by
          refine .answered (r := .next) hnext ?_
          rw [if_neg hkind]
          exact .answered (r := .backup) rfl (.value false _)
        exact ⟨_, _, _, hruns, nofun, fun _ => rfl, trivial⟩

theorem scripted_expect (kind : Kind) (wanted : String) (l : Lookahead σ) :
    Scripted (expect kind wanted) l := by
  refine (scripted_next l).bind fun item mid _ => ?_
  split
  · exact .pure
  · exact .throw (item.ofStream_unexpected wanted)

theorem scripted_integer (l : Lookahead σ) : Scripted integer l := by
  refine (scripted_next l).bind fun item mid _ => ?_
  split
  · exact .pure
  · exact .throw (item.ofStream_unexpected _)

theorem scripted_index (l : Lookahead σ) : Scripted index l := by
  refine (scripted_expect _ _ l).bind fun _ mid _ => (scripted_next mid).bind fun item mid _ => ?_
  split
  · exact .pure
  · exact (scripted_expect _ _ mid).bind fun _ _ _ => .pure
  · refine (scripted_accept _ mid).bind fun taken mid _ => ?_
    split
    · exact (scripted_integer mid).bind fun _ mid _ =>
        (scripted_expect _ _ mid).bind fun _ _ _ => .pure
    · exact (scripted_expect _ _ mid).bind fun _ _ _ => .pure
  · exact .throw (item.ofStream_unexpected _)

theorem scripted_period (l : Lookahead σ) : Scripted period l := by
  refine (scripted_next l).bind fun item mid _ => ?_
  split
  · exact .pure
  all_goals exact .throw rfl

theorem scripted_selection (l : Lookahead σ) : Scripted selection l := by
  refine (scripted_peek l).bind fun item mid _ => ?_
  split
  · exact (scripted_next mid).bind fun _ _ _ => .pure
  · exact scripted_index mid
  all_goals first | exact .pure | exact .throw rfl

theorem scripted_filter (l : Lookahead σ) : Scripted filter l := by
  refine (scripted_period l).bind fun _ mid _ => (scripted_selection mid).bind fun node mid _ =>
    (scripted_accept _ mid).bind fun taken _ _ => ?_
  split
  · exact .pure
  · exact .pure

theorem scripted_another (l : Lookahead σ) : Scripted another l :=
  (scripted_peekKind l).bind fun _ _ _ => .pure

theorem ofStream_append {node child : Filter} {e : ParseError}
    (h : node.append child = .error e) : e.ofStream = false := by
  unfold Filter.append at h
  split at h <;> cases h
  rfl

section levels
variable {more : Parser σ Bool} {member : Parser σ Filter}
  {hmore : ∀ l, Ends more l fun _ after => after.size ≤ l.size}
  {hmember : ∀ l, Ends member l fun _ after => after.size < l.size}

/-- A loop over members asks whether there are more, reads one and goes on. -/
theorem collect_eq (node : Filter) : collect more member hmore hmember node = (do
    if ← more then
      let child ← member
      match node.append child with
      | .error e => throw e
      | .ok node => collect more member hmore hmember node
    else return node) := by
  funext l
  simp only [collect, Bind.bind, EStateM.bind]
  rw [collectFrom]
  split
  · next hm => rw [hm]
  · next hm =>
    rw [hm]
    rfl
  · next after hm =>
    rw [hm]
    simp only [if_true, EStateM.bind]
    split
    · next hc => rw [hc]
    · next child last hc =>
      rw [hc]
      cases happend : node.append child with
      | error e =>
        simp only [happend]
        rfl
      | ok node =>
        simp only [happend]
        rfl

/-- The loop goes on where the member has left less to read. -/
theorem scripted_collect (h : ∀ l, Scripted more l) (h' : ∀ l, Scripted member l) (node : Filter)
    (l : Lookahead σ) : Scripted (collect more member hmore hmember node) l := by
  induction hn : l.size using Nat.strongRecOn generalizing l node with
  | ind n ih =>
    rw [collect_eq]
    refine (h l).bind fun found mid hmid => ?_
    split
    · refine (h' mid).bind fun child last hlast => ?_
      have hle := hmore l
      have hlt := hmember mid
      rw [Ends, result_eq_ok_iff.1 hmid] at hle
      rw [Ends, result_eq_ok_iff.1 hlast] at hlt
      split
      · next happend => exact .throw (ofStream_append happend)
      · exact ih _ (by omega) _ last rfl
    · exact .pure

/-- The requests of a level are in order if those of its members are and of what comes between
them. -/
theorem scripted_level (kind : Kind) (wrap : Filter → Filter) (h : ∀ l, Scripted more l)
    (h' : ∀ l, Scripted member l) (l : Lookahead σ) : Scripted (do
      let first ← member
      if (← peekKind) = kind then collect more member hmore hmember (wrap first)
      else return first) l := by
  refine (h' l).bind fun first mid _ => (scripted_peekKind mid).bind fun found mid _ => ?_
  split
  · exact scripted_collect h h' _ mid
  · exact .pure

end levels

theorem scripted_chain (l : Lookahead σ) : Scripted chain l :=
  scripted_level .period (fun first => .pipe [first]) scripted_another scripted_filter l

theorem scripted_union (l : Lookahead σ) : Scripted union l :=
  scripted_level .comma (fun first => .union [first]) (scripted_accept _) scripted_chain l

theorem scripted_pipe (l : Lookahead σ) : Scripted pipe l :=
  scripted_level .pipe (fun first => .pipe [first]) (scripted_accept _) scripted_union l

theorem scripted_start (l : Lookahead σ) : Scripted Parser.start l :=
  (scripted_pipe l).bind fun _ mid _ => (scripted_expect _ _ mid).bind fun _ _ _ => .pure

theorem Runs.build_eq {s : σ} {outcome : Except ParseError Query}
    (h : Runs Parser.start (.ofStream s) replies outcome last) :
    build s = (outcome, last.stream) := by
  have hresult := h.result_eq
  unfold build
  cases outcome with
  | ok q => rw [result_eq_ok_iff.1 hresult]
  | error e => rw [result_eq_error_iff.1 hresult]

end Parser
end PathFilter
