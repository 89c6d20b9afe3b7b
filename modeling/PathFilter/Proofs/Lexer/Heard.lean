import PathFilter.Proofs.Lexer.Cursor
import PathFilter.Lexer.Run

/-! What a lexer says when every item is taken.

`itemsFrom` are all items of a run that begins in a state and is never refused.
They are computed forwards: `toCome` is what a scan and everything after it still
offers, and it passes from one scan to the next by what the first of them did
(`toCome_of_ok`, `toCome_of_illegal`). What a scan that looks at the source does
is told by the cursor alone. -/
namespace PathFilter.Lexer

namespace Dialogue
variable {α β : Type}

/-- What is heard of a dialogue and then of another. -/
def Heard.andThen (first : Heard α) (rest : Heard β) : Heard β :=
  ⟨first.records ++ rest.records, first.items ++ rest.items, rest.result⟩

theorem listen_bind (taken : Bool) (f : α → Dialogue β) : (d : Dialogue α) →
    (d.bind f).listen taken =
      (d.listen taken).andThen ((f (d.listen taken).result).listen taken)
  | .done _ => rfl
  | .note record rest => by
    simp only [bind, listen, listen_bind taken f rest]
    rfl
  | .offer item answer => by
    simp only [bind, listen, listen_bind taken f (answer taken)]
    cases taken <;> rfl

end Dialogue

/-- All items of a run, none of them refused. -/
def itemsFrom (state : State) (r : Reader) : List Item := ((run state r).listen true).items

/-- What follows the end of a state. -/
def onward (state : State) : Except Halt (Option State) × Reader → Dialogue Unit
  | (.ok next, after) => resume (next, after)
  | (.error .aborted, after) => .note (.aborted state) (resume (none, after))
  | (.error (.illegal cause), after) =>
    .note (.illegal cause) <|
      .offer ⟨.illegal cause, .empty after.offset⟩ fun _ => resume (none, after)

theorem run_eq_onward (state : State) (r : Reader) :
    run state r =
      .note (.entered state r.offset) (((body state).run ⟨state, false⟩ r).bind (onward state)) := by
  rw [run_eq]
  simp only [step, Dialogue.bind, Dialogue.bind_assoc]
  congr 2
  funext outcome
  obtain ⟨result, after⟩ := outcome
  cases result with
  | ok next => rfl
  | error halt => cases halt <;> rfl

/-- The item that reports a fault. -/
def faultAt (offset : Nat) (cause : LexError) : Item := ⟨.illegal cause, .empty offset⟩

/-- The item that reports bytes that are no character. -/
def brokenAt (state : State) (k : Cursor) : Item := faultAt k.offset (.read state.label k.cause)

namespace Scan
variable {α : Type} {state : State} {r : Reader}

/-- The items of a scan and of everything after it, none of them refused. -/
def toCome (state : State) (m : Scan (Option State)) (r : Reader) : List Item :=
  (((m.run ⟨state, false⟩ r).bind (onward state)).listen true).items

theorem itemsFrom_eq (state : State) (r : Reader) :
    itemsFrom state r = toCome state (body state) r := by
  rw [itemsFrom, run_eq_onward]
  rfl

/-! ### From one scan to the next -/

/-- What is left to come after a scan that offered nothing. -/
theorem toCome_of_ok {m : Scan α} {f : α → Scan (Option State)} {a : α} {after : Reader}
    (h : m.run ⟨state, false⟩ r = .done (.ok a, after)) :
    toCome state (m >>= f) r = toCome state (f a) after := by
  rw [toCome, run_bind, h]
  rfl

theorem toCome_of_illegal {m : Scan α} {f : α → Scan (Option State)} {cause : LexError}
    {after : Reader} (h : m.run ⟨state, false⟩ r = .done (.error (.illegal cause), after)) :
    toCome state (m >>= f) r = [faultAt after.offset cause] := by
  rw [toCome, run_bind, h]
  rfl

theorem toCome_next (next : State) : toCome state (pure (some next)) r = itemsFrom next r := rfl

theorem toCome_refuse (wanted : String) (found : Option Char) :
    toCome state (refuse wanted found) r =
      [faultAt r.offset (.expected state.label wanted found)] := rfl

theorem toCome_finish :
    toCome state finish r = [⟨.endOfInput, .empty r.offset⟩] := rfl

theorem toCome_emit (token : Token) (start : Nat) (f : Unit → Scan (Option State)) :
    toCome state (emit token start >>= f) r =
      ⟨token, start, r.offset⟩ :: toCome state (f ()) r := rfl

theorem toCome_skipBlanks {f : Unit → Scan (Option State)} :
    toCome state (skipBlanks >>= f) r = toCome state (f ()) r.skipBlanks := rfl

theorem toCome_skipWhile {p : Char → Bool} {f : Unit → Scan (Option State)} :
    toCome state (skipWhile p >>= f) r = toCome state (f ()) (r.skipWhile p) := rfl

theorem toCome_offset {f : Nat → Scan (Option State)} :
    toCome state (offset >>= f) r = toCome state (f r.offset) r := rfl

theorem toCome_check {f : Unit → Scan (Option State)} :
    toCome state (check >>= f) r = toCome state (f ()) r := rfl

theorem toCome_bump {f : Unit → Scan (Option State)} :
    toCome state (bump >>= f) r = toCome state (f ()) r.read.2 := rfl

theorem toCome_illegal {cause : LexError} {f : α → Scan (Option State)} :
    toCome state (illegal cause >>= f) r = [faultAt r.offset cause] := rfl

theorem toCome_refuse_bind {wanted : String} {found : Option Char} {f : α → Scan (Option State)} :
    toCome state (refuse wanted found >>= f) r =
      [faultAt r.offset (.expected state.label wanted found)] := rfl

theorem toCome_textSince {start : Nat} {text : String} {f : String → Scan (Option State)}
    (h : r.slice start r.offset = .ok text) :
    toCome state (textSince start >>= f) r = toCome state (f text) r :=
  toCome_of_ok (run_textSince_of_ok h)

/-! ### Looking at the source -/

section looks
variable {view : View} {c : Char} {rest : List Char} {wanted : String}
  {f : Option Char → Scan (Option State)}

theorem toCome_look (h : (view.see r).1 = .ok c) :
    toCome state (look view >>= f) r = toCome state (f (some c)) (view.see r).2 :=
  toCome_of_ok (run_look_of_ok h)

theorem toCome_look_end (h : (view.see r).1 = .error .endOfInput) :
    toCome state (look view >>= f) r = toCome state (f none) (view.see r).2 :=
  toCome_of_ok (run_look_of_end h)

theorem toCome_look_broken {e : ReadError} (h : (view.see r).1 = .error e) (he : e ≠ .endOfInput) :
    toCome state (look view >>= f) r =
      [faultAt (view.see r).2.offset (.read state.label e)] :=
  toCome_of_illegal (run_look_of_error h he)

theorem toCome_peek (h : r.cursor.ahead = c :: rest) :
    toCome state (peek >>= f) r = toCome state (f (some c)) r.peek.2 :=
  toCome_look (Reader.read_of_ahead_cons h)

theorem toCome_peek_end (h : r.cursor.ahead = []) (he : r.cursor.cause = .endOfInput) :
    toCome state (peek >>= f) r = toCome state (f none) r.peek.2 :=
  toCome_look_end (he ▸ Reader.read_of_ahead_nil h)

theorem toCome_peek_broken (h : r.cursor.ahead = []) (he : r.cursor.cause ≠ .endOfInput) :
    toCome state (peek >>= f) r = [brokenAt state r.cursor] := by
  have hpeek : (View.peek.see r).1 = .error r.cursor.cause := Reader.read_of_ahead_nil h
  refine (toCome_look_broken hpeek he).trans ?_
  rw [View.see, Reader.peek_snd]
  rfl

/-- A peek whose answer is not used only asks for bytes that are a character. -/
theorem toCome_peek_ignored {m : Scan (Option State)}
    (h : ¬(r.cursor.ahead = [] ∧ r.cursor.cause ≠ .endOfInput)) :
    toCome state (peek >>= fun _ => m) r = toCome state m r.peek.2 := by
  cases ha : r.cursor.ahead with
  | nil => exact toCome_peek_end ha (by simpa [ha] using h)
  | cons c rest => exact toCome_peek ha

/-- A look that consumes what it finds. -/
theorem toCome_taken (hview : view.see r = r.read) (h : r.cursor.ahead = c :: rest) :
    toCome state (look view >>= f) r = toCome state (f (some c)) r.read.2 := by
  rw [toCome_look (hview ▸ Reader.read_of_ahead_cons h), hview]

theorem toCome_taken_end (hview : view.see r = r.read) (h : r.cursor.ahead = [])
    (he : r.cursor.cause = .endOfInput) :
    toCome state (look view >>= f) r = toCome state (f none) r.read.2 := by
  rw [toCome_look_end (hview ▸ he ▸ Reader.read_of_ahead_nil h), hview]

theorem toCome_taken_broken (hview : view.see r = r.read) (h : r.cursor.ahead = [])
    (he : r.cursor.cause ≠ .endOfInput) :
    toCome state (look view >>= f) r = [brokenAt state r.cursor] := by
  have hread := Reader.read_of_ahead_nil h
  rw [toCome_look_broken (hview ▸ hread) he, hview, Reader.read_of_error hread]
  rfl

theorem toCome_read :
    toCome state (read >>= f) r = toCome state (look .read >>= f) r := rfl

theorem toCome_demand {g : Unit → Scan (Option State)} :
    toCome state (expect c wanted >>= g) r = toCome state (look (.demand c) >>= fun found =>
      (if found = some c then pure () else refuse wanted found) >>= g) r := rfl

end looks
end Scan
end PathFilter.Lexer
