import PathFilter.Proofs.Lexer.Acts
import PathFilter.Proofs.Lexer.Spans
import PathFilter.Proofs.Lexer.Terminal

/-! Where states are entered, and what they never do.

A state leaves the reader where the next one wants it: a bare name is begun at a letter, a
name between quotes at its quote, an index at its bracket, and a filter at its period or
behind a connector (`Entered`). From that it follows which of its acts cannot fail
(`Flawless`): a character is bumped over only behind a peek that saw it, an opening quote
or bracket is there when it is read, and a text that was read can be cut out.

A scan is followed from one act to the next. `Going` is where it has come to, with the
acts so far, none of which failed; `Safe m g Q` says that `m` goes on from there in the
same way. The states pass what the next one needs (`safe_body`), and every state that a
run can reach was passed it (`reached_entered`). -/
namespace PathFilter

/-! ### Readers further on -/

theorem Cursor.exists_past_next (k : Cursor) : ∃ text, k.Past text k.next := by
  cases h : k.ahead with
  | nil =>
    refine ⟨[], ?_⟩
    rw [next, h]
    exact k.past_refl
  | cons c rest => exact ⟨[c], past_next h⟩

/-- The other reader is further on in the same source. -/
structure Reader.Further (r after : Reader) : Prop where
  source : after.source = r.source
  past : ∃ text, r.cursor.Past text after.cursor

namespace Reader
variable {r after last : Reader}

theorem further_refl (r : Reader) : r.Further r := ⟨rfl, [], r.cursor.past_refl⟩

theorem Further.trans (h : r.Further after) (h' : after.Further last) : r.Further last := by
  obtain ⟨a, ha⟩ := h.past
  obtain ⟨b, hb⟩ := h'.past
  exact ⟨h'.source.trans h.source, a ++ b, ha.trans hb⟩

theorem further_peek (r : Reader) : r.Further r.peek.2 :=
  ⟨r.source_peek, [], r.cursor_peek ▸ r.cursor.past_refl⟩

theorem further_read (r : Reader) : r.Further r.read.2 :=
  ⟨r.source_read, r.cursor_read ▸ r.cursor.exists_past_next⟩

theorem further_skipWhile (p : Char → Bool) (r : Reader) : r.Further (r.skipWhile p) :=
  ⟨r.source_skipWhile p, _, r.cursor_skipWhile p ▸ r.cursor.past_skipWhile p⟩

/-- What was read can be cut out. -/
theorem Further.slice (h : r.Further after) (hb : r.offset ≤ r.source.size) :
    ∃ text, after.slice r.offset after.offset = .ok text := by
  obtain ⟨text, hpast⟩ := h.past
  exact ⟨_, slice_of_ahead hpast.ahead hb h.source hpast.offset⟩

/-- A reader further on stands further on, and still in the source. -/
theorem Further.offset_le (h : r.Further after) (hb : r.offset ≤ r.source.size) :
    r.offset ≤ after.offset ∧ after.offset ≤ after.source.size := by
  obtain ⟨text, hpast⟩ := h.past
  refine ⟨hpast.offset_le, ?_⟩
  have hle := (extract_of_ahead hpast.ahead hb).1
  rw [h.source]
  exact (congrArg (· ≤ r.source.size) hpast.offset).mpr hle

theorem further_see (view : Lexer.View) (r : Reader) : r.Further (view.see r).2 := by
  cases view with
  | peek => exact r.further_peek
  | read => exact r.further_read
  | demand _ => exact r.further_read

end Reader
namespace Lexer
variable {α β : Type}

/-! ### Ends of a dialogue -/

namespace Dialogue

/-- Some answers lead to the end. -/
inductive CanEnd : Dialogue α → α → Prop where
  | done {a : α} : CanEnd (.done a) a
  | note {record : Record} {rest : Dialogue α} {a : α} (h : rest.CanEnd a) :
      CanEnd (.note record rest) a
  | offer {item : Item} {answer : Bool → Dialogue α} {a : α} (taken : Bool)
      (h : (answer taken).CanEnd a) : CanEnd (.offer item answer) a

theorem CanEnd.of_always {P : α → Prop} {d : Dialogue α} {a : α} (h : d.CanEnd a)
    (hd : d.Always P) : P a := by
  induction h with
  | done => exact hd
  | note _ ih => exact ih hd
  | offer taken _ ih => exact ih (hd taken)

theorem canEnd_listen (taken : Bool) (d : Dialogue α) : d.CanEnd (d.listen taken).result := by
  induction d with
  | done a => exact .done
  | note record rest ih => exact .note ih
  | offer item answer ih =>
    have hresult : ((Dialogue.offer item answer).listen taken).result =
        ((answer taken).listen taken).result := by
      cases taken <;> rfl
    rw [hresult]
    exact .offer taken (ih taken)

end Dialogue

/-! ### Acts that do not fail -/

/-- What is owed by an act to those before it, the latest first. Behind a peek nothing else
may have looked at the source. -/
def Act.Sound (state : State) (before : List Act) : Act → Prop
  | .bumped offset found =>
    ∃ c, found = .ok c ∧ before.find? Act.looks = some (.peeked offset (.ok c))
  | .demanded wanted _ found => wanted = '"' ∨ wanted = '[' → found = .ok wanted
  | .cut _ _ found => ∃ text, found = .ok text
  | .offered item _ => state = .bareName → item.token ≠ .name ""
  | .skipped | .peeked .. | .read .. => True

/-- An item was offered and refused. -/
def Act.refused : Act → Bool
  | .offered _ taken => !taken
  | _ => false

theorem View.act_taken (view : View) (offset : Nat) (found : Except ReadError Char) :
    (view.act offset found).refused = false := by
  cases view <;> rfl

/-- The latest act is not that an item was refused. -/
def Unrefused (acts : List Act) : Prop := ∀ act ∈ acts.head?, act.refused = false

/-- No act fails, and none follows a refused item. -/
inductive Flawless (state : State) : List Act → Prop where
  | nil : Flawless state []
  | cons {act : Act} {before : List Act} (sound : act.Sound state before)
      (unrefused : Unrefused before) (rest : Flawless state before) :
      Flawless state (act :: before)

/-- A refused item is the latest act. -/
theorem Flawless.latest_of_refused {state : State} {act : Act} {later before : List Act}
    (h : Flawless state (later ++ act :: before)) (hact : act.refused = true) : later = [] := by
  induction later with
  | nil => rfl
  | cons last later ih =>
    cases h with
    | cons _ unrefused rest =>
      obtain rfl := ih rest
      rw [unrefused act rfl] at hact
      contradiction

/-- Where a scan has come to, in a state that was entered with the reader `base`. -/
structure Going (base : Reader) (state : State) where
  reader : Reader
  acts : List Act
  start_le : base.offset ≤ base.source.size
  further : base.Further reader
  flawless : Flawless state acts
  unrefused : Unrefused acts

/-- A scan stays within the source. -/
theorem Going.offset_le {base : Reader} {state : State} (g : Going base state) :
    g.reader.offset ≤ g.reader.source.size := (g.further.offset_le g.start_le).2

/-- A character was peeked at, and it comes next. -/
structure Going.Seen {base : Reader} {state : State} (g : Going base state) (c : Char) : Prop where
  next : g.reader.read.1 = .ok c
  peeked : g.acts.find? Act.looks = some (.peeked g.reader.offset (.ok c))

/-- From there it goes on, with no act that fails, to an end in the class. -/
def Observed.Safe {base : Reader} {state : State} (m : Observed α) (g : Going base state)
    (Q : α → Going base state → Prop) : Prop :=
  (m ⟨state, false⟩ g.reader g.acts).Always fun
    | (.ok a, after, acts) => ∃ g' : Going base state, g'.reader = after ∧ g'.acts = acts ∧ Q a g'
    | (.error _, _, acts) => Flawless state acts

namespace Scan

/-- The scan goes on from there, with no act that fails, to an end in the class. -/
def Safe {base : Reader} {state : State} (m : Scan α) (g : Going base state)
    (Q : α → Going base state → Prop) : Prop := m.observe.Safe g Q

section rules
variable {base : Reader} {state : State} {g : Going base state} {m : Scan α}
  {f : α → Scan β} {Q : α → Going base state → Prop}

theorem Safe.bind {S : β → Going base state → Prop}
    (h : m.Safe g fun a g' => (f a).Safe g' S) : Safe (m >>= f) g S := by
  unfold Safe Observed.Safe at *
  rw [observe_bind]
  refine Dialogue.Always.bind (h.mono ?_)
  rintro ⟨halt | a, after, acts⟩ hend
  · exact hend
  · obtain ⟨g', rfl, rfl, hf⟩ := hend
    exact hf

theorem safe_pure {a : α} (h : Q a g) : Safe (pure a) g Q := ⟨g, rfl, rfl, h⟩

theorem safe_ask {op : Operation} {Q : op.Answer → Going base state → Prop}
    (h : op.observe.Safe g Q) : (ask op done).Safe g Q := by
  rw [Safe, observe_ask]
  exact h

theorem safe_illegal {cause : LexError} : (illegal cause : Scan α).Safe g Q := g.flawless

theorem safe_refuse {wanted : String} {found : Option Char} :
    (refuse wanted found : Scan α).Safe g Q := g.flawless

end rules

section steps
variable {base : Reader} {state : State} {g : Going base state}

/-- An act that does not fail leads on. -/
theorem exists_going (g : Going base state) (act : Act) (after : Reader)
    (hfurther : g.reader.Further after) (hsound : act.Sound state g.acts)
    (hunrefused : act.refused = false) :
    ∃ g' : Going base state, g'.reader = after ∧ g'.acts = act :: g.acts :=
  ⟨⟨after, act :: g.acts, g.start_le, g.further.trans hfurther, .cons hsound g.unrefused g.flawless,
    fun _ h => Option.some.inj h ▸ hunrefused⟩, rfl, rfl⟩

theorem safe_check {Q : Unit → Going base state → Prop} (h : Q () g) : check.Safe g Q :=
  ⟨g, rfl, rfl, h⟩

theorem safe_offset {Q : Nat → Going base state → Prop} (h : Q g.reader.offset g) :
    offset.Safe g Q := ⟨g, rfl, rfl, h⟩

theorem safe_look {view : View} {Q : Option Char → Going base state → Prop}
    (hsound : (view.act g.reader.offset (view.see g.reader).1).Sound state g.acts)
    (hc : ∀ c g', (view.see g.reader).1 = .ok c → g'.reader = (view.see g.reader).2 →
      g'.acts = view.act g.reader.offset (.ok c) :: g.acts → Q (some c) g')
    (he : ∀ g', g'.reader = (view.see g.reader).2 → Q none g') : (look view).Safe g Q := by
  obtain ⟨g', hreader, hacts⟩ :=
    exists_going g _ (view.see g.reader).2 (g.reader.further_see view) hsound (view.act_taken _ _)
  refine safe_ask ?_
  unfold Observed.Safe
  cases hv : (view.see g.reader).1 with
  | ok c =>
    rw [hv] at hacts
    simp only [Operation.observe, hv]
    exact ⟨g', hreader, hacts, hc c g' hv hreader hacts⟩
  | error cause =>
    rw [hv] at hacts
    by_cases hend : cause = .endOfInput
    · subst hend
      simp only [Operation.observe, hv]
      exact ⟨g', hreader, hacts, he g' hreader⟩
    · simp only [Operation.observe, hv]
      exact hacts ▸ g'.flawless

theorem safe_peek {Q : Option Char → Going base state → Prop}
    (hc : ∀ c g', g'.Seen c → g'.reader = g.reader.peek.2 → Q (some c) g')
    (he : ∀ g', g'.reader = g.reader.peek.2 → Q none g') : peek.Safe g Q := by
  refine .bind <| safe_check <| safe_look trivial (fun c g' hread hreader hacts => ?_) he
  refine hc c g' ⟨?_, ?_⟩ hreader
  · rw [hreader]
    exact g.reader.read_peek.trans hread
  · have hoffset : (View.peek.see g.reader).2.offset = g.reader.offset := by
      rw [View.see, Reader.peek_snd]
    rw [hacts, hreader, hoffset]
    rfl

/-- Whatever a peek finds, the reader is where it was. -/
theorem safe_peek_ignored {Q : Option Char → Going base state → Prop}
    (h : ∀ found g', g'.reader = g.reader.peek.2 → Q found g') : peek.Safe g Q :=
  safe_peek (fun c g' _ => h (some c) g') (h none)

theorem safe_read {Q : Option Char → Going base state → Prop}
    (hc : ∀ c g', g.reader.read.1 = .ok c → g'.reader = g.reader.read.2 → Q (some c) g')
    (he : ∀ g', Q none g') : read.Safe g Q :=
  .bind <| safe_check <| safe_look trivial
    (fun c g' hread hreader _ => hc c g' hread hreader) fun g' _ => he g'

/-- A character that was seen can be bumped over. -/
theorem safe_bump {Q : Unit → Going base state → Prop} {c : Char} (seen : g.Seen c)
    (h : ∀ g', g'.reader = g.reader.read.2 → Q () g') : bump.Safe g Q := by
  obtain ⟨g', hreader, hacts⟩ := exists_going g
    (.bumped g.reader.offset g.reader.read.1) g.reader.read.2 g.reader.further_read
    ⟨c, seen.next, seen.peeked⟩ rfl
  exact ⟨g', hreader, hacts, h g' hreader⟩

theorem safe_skipBlanks {Q : Unit → Going base state → Prop}
    (h : ∀ g', g'.reader = g.reader.skipBlanks → Q () g') : skipBlanks.Safe g Q := by
  obtain ⟨g', hreader, hacts⟩ := exists_going g .skipped g.reader.skipBlanks
    (g.reader.further_skipWhile _) trivial rfl
  exact ⟨g', hreader, hacts, h g' hreader⟩

/-- Every character of a run is seen before it is bumped over. -/
theorem exists_going_sweep (p : Char → Bool) {r : Reader} {acts : List Act}
    (g : Going base state) (hr : g.reader = r) (ha : g.acts = acts) :
    ∃ g' : Going base state, g'.reader = (sweep p r acts).1 ∧ g'.acts = (sweep p r acts).2 := by
  fun_induction sweep p r acts generalizing g with
  | case1 r acts c h acts' hp ih =>
    subst hr ha
    obtain ⟨peeked, hreader, hacts⟩ := exists_going g (.peeked g.reader.offset (.ok c))
      g.reader.peek.2 g.reader.further_peek trivial rfl
    have hread : g.reader.peek.2.read.1 = .ok c := g.reader.read_peek.trans h
    rw [← hreader] at hread ih
    have hlast : peeked.acts.find? Act.looks = some (.peeked peeked.reader.offset (.ok c)) := by
      rw [hacts, hreader, Reader.peek_snd]
      rfl
    obtain ⟨bumped, hbumped, hmore⟩ := exists_going peeked
      (.bumped peeked.reader.offset peeked.reader.read.1) peeked.reader.read.2
      peeked.reader.further_read ⟨c, hread, hlast⟩ rfl
    rw [← hreader]
    exact ih bumped hbumped (hmore.trans (congrArg _ hacts))
  | case2 r acts c h acts' hp =>
    subst hr ha
    exact exists_going g _ g.reader.peek.2 g.reader.further_peek trivial rfl
  | case3 r acts e h =>
    subst hr ha
    exact exists_going g _ g.reader.peek.2 g.reader.further_peek trivial rfl

theorem safe_skipWhile {p : Char → Bool} {Q : Unit → Going base state → Prop}
    (h : ∀ g', g'.reader = g.reader.skipWhile p → Q () g') : (skipWhile p).Safe g Q := by
  obtain ⟨g', hreader, hacts⟩ := exists_going_sweep p g rfl rfl
  exact ⟨g', hreader, hacts, h g' (hreader.trans (sweep_fst p g.reader g.acts))⟩

theorem safe_textSince {start : Nat} {text : String} {Q : String → Going base state → Prop}
    (hslice : g.reader.slice start g.reader.offset = .ok text)
    (h : ∀ g', g'.reader = g.reader → (∀ c, g.Seen c → g'.Seen c) → Q text g') :
    (textSince start).Safe g Q := by
  obtain ⟨g', hreader, hacts⟩ := exists_going g (.cut start g.reader.offset (.ok text))
    g.reader g.reader.further_refl ⟨text, rfl⟩ rfl
  refine safe_ask ?_
  unfold Observed.Safe
  simp only [Operation.observe, hslice]
  refine ⟨g', hreader, hacts, h g' hreader fun c seen => ⟨hreader ▸ seen.next, ?_⟩⟩
  rw [hacts, hreader]
  exact seen.peeked

theorem safe_emit {token : Token} {start : Nat} {Q : Unit → Going base state → Prop}
    (hname : state = .bareName → token ≠ .name "")
    (h : ∀ g', g'.reader = g.reader → (∀ c, g.Seen c → g'.Seen c) → Q () g') :
    (emit token start).Safe g Q := by
  intro taken
  cases taken with
  | false => exact .cons hname g.unrefused g.flawless
  | true =>
    obtain ⟨g', hreader, hacts⟩ := exists_going g
      (.offered ⟨token, start, g.reader.offset⟩ true) g.reader g.reader.further_refl hname
      rfl
    refine ⟨g', hreader, hacts, h g' hreader fun c seen => ⟨hreader ▸ seen.next, ?_⟩⟩
    rw [hacts, hreader]
    exact seen.peeked

theorem safe_expect {c : Char} {wanted : String} {Q : Unit → Going base state → Prop}
    (hopening : c = '"' ∨ c = '[' → g.reader.read.1 = .ok c)
    (h : ∀ g', g.reader.read.1 = .ok c → g'.reader = g.reader.read.2 → Q () g') :
    (expect c wanted).Safe g Q := by
  refine .bind <| safe_check <| .bind <|
    safe_look hopening (fun d g' hread hreader _ => ?_) fun g' _ => ?_
  · split
    · next heq =>
      obtain rfl := Option.some.inj heq
      exact safe_pure (h g' hread hreader)
    · exact safe_refuse
  · exact safe_refuse

end steps

/-! ### The parts of a filter -/

section parts
variable {base : Reader} {state : State} {g : Going base state}

theorem safe_finish {Q : Option State → Going base state → Prop} (h : ∀ g', Q none g') :
    finish.Safe g Q :=
  .bind <| safe_offset <| .bind <| safe_emit nofun fun g' _ _ => safe_pure (h g')

theorem safe_optionalMark {Q : Unit → Going base state → Prop} (h : ∀ g', Q () g') :
    optionalMark.Safe g Q := by
  refine .bind <| safe_peek (fun c g' seen _ => ?_) fun g' _ => safe_pure (h g')
  split
  · exact .bind <| safe_offset <| .bind <| safe_bump seen fun _ _ =>
      safe_emit nofun fun _ _ _ => h _
  · exact safe_pure (h g')

theorem safe_finishFilter {Q : Option State → Going base state → Prop}
    (h : ∀ g', Q (some .connector) g') : finishFilter.Safe g Q :=
  .bind <| safe_optionalMark fun g' => safe_pure (h g')

/-- A name between quotes that begins with its quote. It may be empty. -/
theorem safe_quotedName {Q : Unit → Going base state → Prop} (hstate : state ≠ .bareName)
    (hquote : g.reader.read.1 = .ok '"') (h : ∀ g', Q () g') : quotedName.Safe g Q := by
  refine .bind <| safe_offset <| .bind <| safe_expect (fun _ => hquote) fun opened _ _ =>
    .bind <| safe_offset <| .bind <| safe_skipWhile fun swept hswept => .bind <|
      safe_peek (fun c closing seen hclosing => ?_) fun _ _ => safe_illegal.bind
  have hsource : closing.reader.source = opened.reader.source := by
    rw [hclosing, Reader.source_peek, hswept, Reader.source_skipWhile]
  have hcursor : closing.reader.cursor = opened.reader.cursor.skipWhile (· ≠ '"') := by
    rw [hclosing, Reader.cursor_peek, hswept, Reader.cursor_skipWhile]
  have hslice := Reader.slice_skipWhile _ opened.offset_le hsource hcursor
  exact .bind <| safe_textSince hslice fun _ _ hcut => .bind <|
    safe_emit (fun hbare => absurd hbare hstate) fun _ _ hemit =>
      safe_bump (hemit c (hcut c seen)) fun g' _ => h g'

/-- All that was read since the first digit can be cut out. -/
theorem safe_integer {Q : Unit → Going base state → Prop} (h : ∀ g', Q () g') :
    integer.Safe g Q := by
  refine .bind <| safe_offset <| .bind <| safe_read (fun c digit hread hdigit => ?_)
    fun _ => safe_refuse.bind
  split
  · exact safe_refuse.bind
  · refine .bind <| safe_skipWhile fun swept hswept => .bind <|
      safe_peek_ignored fun _ last hlast => ?_
    have hfurther : g.reader.Further last.reader := by
      rw [hlast, hswept, hdigit]
      exact (g.reader.further_read.trans (Reader.further_skipWhile _ _)).trans
        (Reader.further_peek _)
    obtain ⟨text, hslice⟩ := hfurther.slice g.offset_le
    refine .bind <| safe_textSince hslice fun _ _ _ => ?_
    split
    · exact safe_emit nofun fun g' _ _ => h g'
    · exact safe_illegal

theorem safe_bounds {Q : Unit → Going base state → Prop} (h : ∀ g', Q () g') :
    bounds.Safe g Q := by
  refine .bind <| safe_integer fun _ => .bind <| safe_skipBlanks fun _ _ => .bind <|
    safe_peek (fun c _ seen _ => ?_) fun g' _ => safe_pure (h g')
  split
  · exact .bind <| safe_offset <| .bind <| safe_bump seen fun _ _ => .bind <|
      safe_emit nofun fun _ _ _ => .bind <| safe_skipBlanks fun _ _ => safe_integer h
  · exact safe_pure (h _)

theorem safe_closeIndex {Q : Option State → Going base state → Prop}
    (h : ∀ g', Q (some .connector) g') : closeIndex.Safe g Q :=
  .bind <| safe_skipBlanks fun _ _ => .bind <| safe_offset <| .bind <|
    safe_expect (by simp) fun _ _ _ => .bind <| safe_emit nofun fun _ _ _ =>
      safe_finishFilter h

end parts
end Scan

/-! ### Where the states are entered -/

/-- What a state relies on when it is entered. -/
def State.Ready (r : Reader) : State → Prop
  | .expression | .connector => True
  | .filter => r.read.1 = .ok '.' ∨
    ∃ before : Reader, (before.read.1 = .ok '|' ∨ before.read.1 = .ok ',') ∧ r = before.read.2
  | .bareName => ∃ c, r.read.1 = .ok c ∧ Text.isLetter c = true
  | .quotedName => r.read.1 = .ok '"'
  | .index => r.read.1 = .ok '['

/-- The state was entered with the reader in the source, where the state can begin. -/
structure Entered (source : ByteArray) (state : State) (r : Reader) : Prop where
  further : (Reader.ofBytes source).Further r
  ready : state.Ready r

/-- The states that a run under a live context can enter, and the readers they start from. -/
inductive Reached (source : ByteArray) : State → Reader → Prop where
  | start : Reached source .expression (.ofBytes source)
  | next {state next : State} {r after : Reader} (reached : Reached source state r)
      (step : (step false state r).CanEnd (some next, after)) : Reached source next after

namespace Scan
variable {base : Reader}

/-- The next state can begin where this one leaves the reader. -/
def Leads {state : State} (next : Option State) (g : Going base state) : Prop :=
  ∀ s, next = some s → s.Ready g.reader

theorem leads_none {state : State} (g : Going base state) : Leads none g := nofun

theorem leads_some {state next : State} {g : Going base state} (h : next.Ready g.reader) :
    Leads (some next) g := by
  intro s hs
  exact Option.some.inj hs ▸ h

theorem safe_expression (g : Going base .expression) : expression.Safe g Leads := by
  refine .bind <| safe_skipBlanks fun _ _ => .bind <| safe_peek (fun c g' seen _ => ?_)
    fun _ _ => safe_finish leads_none
  split
  · next heq =>
    obtain rfl := Option.some.inj heq
    exact safe_pure (leads_some (.inl seen.next))
  · exact safe_finish leads_none
  · exact safe_refuse

theorem safe_filter (g : Going base .filter) : filter.Safe g Leads := by
  refine .bind <| safe_skipBlanks fun _ _ => .bind <| safe_offset <| .bind <|
    safe_expect (by simp) fun _ _ _ => .bind <| safe_emit nofun fun _ _ _ => .bind <|
      safe_skipBlanks fun _ _ => .bind <| safe_peek (fun c g' seen _ => ?_)
        fun _ _ => safe_finish leads_none
  split
  · next heq =>
    obtain rfl := Option.some.inj heq
    exact safe_pure (leads_some seen.next)
  · next heq =>
    obtain rfl := Option.some.inj heq
    exact safe_pure (leads_some seen.next)
  · next d _ _ heq =>
    obtain rfl := Option.some.inj heq
    refine safe_pure (leads_some ?_)
    split
    · next hletter => exact ⟨c, seen.next, hletter⟩
    · trivial
  · exact safe_finish leads_none

/-- The letter that a bare name is begun at is part of it. -/
theorem safe_bareField (g : Going base .bareName) (h : State.bareName.Ready g.reader) :
    bareField.Safe g Leads := by
  obtain ⟨c, hread, hletter⟩ := h
  have hhead : g.reader.cursor.ahead = c :: g.reader.read.2.cursor.ahead := by
    rw [Reader.cursor_of_ok hread]
  refine .bind <| safe_offset <| .bind <| safe_check <| .bind <|
    safe_skipWhile fun swept hswept => ?_
  have hsource : swept.reader.source = g.reader.source := by
    rw [hswept, Reader.source_skipWhile]
  have hcursor : swept.reader.cursor = g.reader.cursor.skipWhile Text.isLetter := by
    rw [hswept, Reader.cursor_skipWhile]
  have hslice := Reader.slice_skipWhile _ g.offset_le hsource hcursor
  refine .bind <| safe_textSince hslice fun _ _ _ => .bind <| safe_emit (fun _ hempty => ?_)
    fun _ _ _ => safe_finishFilter fun _ => leads_some trivial
  have hnil := congrArg String.toList (Token.name.inj hempty)
  rw [String.toList_ofList, hhead, List.takeWhile_cons_of_pos hletter] at hnil
  exact absurd hnil (List.cons_ne_nil _ _)

theorem safe_quotedField (g : Going base .quotedName) (h : State.quotedName.Ready g.reader) :
    quotedField.Safe g Leads :=
  .bind <| safe_quotedName nofun h fun _ => safe_finishFilter fun _ => leads_some trivial

theorem safe_index (g : Going base .index) (h : State.index.Ready g.reader) :
    index.Safe g Leads := by
  have hopen : g.reader.skipBlanks.read.1 = .ok '[' := by
    have hhead : g.reader.cursor.ahead = '[' :: g.reader.read.2.cursor.ahead := by
      rw [Reader.cursor_of_ok h]
    apply Reader.read_of_ahead_cons
    rw [Reader.cursor_skipBlanks,
      Cursor.skipBlanks_of_cons hhead (Text.isBlank_of_punctuation (by decide))]
    exact hhead
  have hclose (g' : Going base .index) : closeIndex.Safe g' Leads :=
    safe_closeIndex fun _ => leads_some trivial
  refine .bind <| safe_skipBlanks fun _ hblanks => .bind <| safe_offset <| .bind <|
    safe_expect (fun _ => hblanks ▸ hopen) fun _ _ _ => .bind <| safe_emit nofun fun _ _ _ =>
      .bind <| safe_skipBlanks fun _ _ => .bind <| safe_peek (fun c g' seen _ => ?_)
        fun _ _ => .bind <| safe_bounds hclose
  split
  · exact hclose g'
  · next heq =>
    obtain rfl := Option.some.inj heq
    exact .bind <| safe_quotedName nofun seen.next hclose
  · exact .bind <| safe_bounds hclose

theorem safe_connector (g : Going base .connector) : connector.Safe g Leads := by
  refine .bind <| safe_skipBlanks fun _ _ => .bind <| safe_offset <| .bind <|
    safe_peek (fun c g' seen _ => ?_) fun _ _ => safe_finish leads_none
  -- a connector that was seen is consumed, and a filter is begun behind it
  have hconnect (token : Token) (start : Nat) (hc : c = '|' ∨ c = ',')
      (hname : ∀ text, token ≠ .name text) : Safe (do
        bump
        emit token start
        return some .filter) g' Leads := by
    have hbefore : g'.reader.read.1 = .ok '|' ∨ g'.reader.read.1 = .ok ',' :=
      hc.imp (seen.next.trans <| congrArg Except.ok ·) (seen.next.trans <| congrArg Except.ok ·)
    exact .bind <| safe_bump seen fun bumped hbumped => .bind <|
      safe_emit (fun _ => hname "") fun emitted hemitted _ => safe_pure <| leads_some <| .inr
        ⟨g'.reader, hbefore, hemitted.trans hbumped⟩
  split
  · next heq => exact hconnect .pipe _ (.inl (Option.some.inj heq)) nofun
  · next heq => exact hconnect .comma _ (.inr (Option.some.inj heq)) nofun
  · next heq =>
    obtain rfl := Option.some.inj heq
    exact safe_pure (leads_some (.inl seen.next))
  · exact safe_finish leads_none
  · exact safe_refuse

/-- **A state that is entered where it can begin has no act that fails**, and it leaves the
reader where the next one can begin. -/
theorem safe_body (state : State) (g : Going base state) (h : state.Ready g.reader) :
    (body state).Safe g Leads := by
  cases state
  · exact safe_expression g
  · exact safe_filter g
  · exact safe_bareField g h
  · exact safe_quotedField g h
  · exact safe_index g h
  · exact safe_connector g

end Scan

section reached
variable {source : ByteArray} {state : State} {r : Reader}

theorem Entered.offset_le (h : Entered source state r) : r.offset ≤ r.source.size :=
  (h.further.offset_le (Nat.zero_le _)).2

/-- The acts of a state and where they lead. -/
theorem Entered.acts (h : Entered source state r) :
    ((body state).observe ⟨state, false⟩ r []).Always fun (outcome, after, acts) =>
      Flawless state acts ∧
        ∀ next, outcome = .ok (some next) → Entered source next after ∧ r.Further after := by
  let g : Going r state := ⟨r, [], h.offset_le, r.further_refl, .nil, nofun⟩
  refine Dialogue.Always.mono ?_ (Scan.safe_body state g h.ready)
  rintro ⟨halt | next, after, acts⟩ hend
  · exact ⟨hend, nofun⟩
  · obtain ⟨g', rfl, rfl, hleads⟩ := hend
    exact ⟨g'.flawless, fun s hs =>
      ⟨⟨h.further.trans g'.further, hleads s (Except.ok.inj hs)⟩, g'.further⟩⟩

/-- The next state is entered where it can begin, and not behind this one. -/
theorem Entered.step (h : Entered source state r) :
    (Lexer.step false state r).Always fun (next, after) =>
      ∀ s, next = some s → Entered source s after ∧ r.Further after := by
  have hbody : ((body state).run ⟨state, false⟩ r).Always fun (outcome, after) =>
      ∀ next, outcome = .ok (some next) → Entered source next after ∧ r.Further after := by
    rw [← (body state).follows_observe ⟨state, false⟩ r []]
    exact .bind (h.acts.mono fun _ hend => hend.2)
  rw [step_eq_conclude]
  refine Dialogue.Always.bind (hbody.mono ?_)
  rintro ⟨(_ | cause) | next, after⟩ hend
  · exact nofun
  · exact fun _ => nofun
  · exact fun s hs => hend s (congrArg Except.ok hs)

theorem Reached.entered (h : Reached source state r) : Entered source state r := by
  induction h with
  | start => exact ⟨Reader.further_refl _, trivial⟩
  | next _ step ih => exact (step.of_always ih.step _ rfl).1

/-- Where all items are taken the next state is reached. -/
theorem Reached.listen {next : State} (h : Reached source state r)
    (hnext : ((step false state r).listen true).result.1 = some next) :
    Reached source next ((step false state r).listen true).result.2 := by
  refine h.next ?_
  rw [← hnext]
  exact Dialogue.canEnd_listen true _

/-- **Every state is entered where it can begin, and no act of it fails.** A bare name is
entered at a letter, a name between quotes at its quote, an index at its bracket, and a
filter at its period or behind a connector that was consumed. So a character is bumped over
only if the latest look at the source was a peek that saw it at the same offset; where the
quote or the bracket that opens something is demanded, it is there; what was read is cut out
as a text; a bare name is not empty; and behind a refused item nothing more is done. -/
theorem reached_flawless (h : Reached source state r) :
    Entered source state r ∧ (body state).observe.Follows (body state).run ∧
      ((body state).observe ⟨state, false⟩ r []).Always fun (_, _, acts) => Flawless state acts :=
  ⟨h.entered, (body state).follows_observe, h.entered.acts.mono fun _ hend => hend.1⟩

/-- The bare name of the source is reached at its second byte. -/
theorem reached_flawless_of_bareName : ∃ r, r.offset = 1 ∧ Reached ".a".toUTF8 .bareName r ∧
    Entered ".a".toUTF8 .bareName r ∧ (body .bareName).observe.Follows (body .bareName).run ∧
    ((body .bareName).observe ⟨.bareName, false⟩ r []).Always fun (_, _, acts) =>
      Flawless .bareName acts := by
  have hfilter : Reached ".a".toUTF8 .filter _ := Reached.start.listen (by decide +kernel)
  have hname : Reached ".a".toUTF8 .bareName _ := hfilter.listen (by decide +kernel)
  exact ⟨_, by decide +kernel, hname, reached_flawless hname⟩

end reached
end Lexer
end PathFilter
