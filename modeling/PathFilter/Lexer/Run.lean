import PathFilter.Lexer.Step

/-! A whole run of the lexer.

What a state leaves to the next is told by cases (`Leaves`), once for every state
(`ends_body`). Either it has consumed something, or it has seen a period and leaves it to a
filter, or it is a bare name that was not begun at a letter. So states that consume nothing
lead to states that do, and every run ends: three times the bytes that are left, plus a
rank of the state, goes down from each state to the next (`step_descends`). `run` is the
dialogue of all states one after another. -/
namespace PathFilter.Lexer

open Scan

/-! ### What the parts of a filter leave -/

theorem ends_finish {r : Reader} {Q : Option State → Reader → Prop} (h : Q none r) :
    finish.Ends r Q :=
  .bind <| ends_offset <| .bind <| ends_emit <| .pure h

theorem ends_optionalMark {r : Reader} {Q : Unit → Reader → Prop}
    (h : ∀ after, after.left ≤ r.left → Q () after) : optionalMark.Ends r Q := by
  refine .bind <| ends_peek fun found after ha => ?_
  split
  · exact .bind <| ends_offset <| .bind <| ends_bump fun last hl =>
      ends_emit <| h last (ha ▸ hl)
  · exact .pure <| h after (Nat.le_of_eq ha)

theorem ends_finishFilter {r : Reader} {Q : Option State → Reader → Prop}
    (h : ∀ after, after.left ≤ r.left → Q (some .connector) after) : finishFilter.Ends r Q :=
  .bind <| ends_optionalMark fun after ha => .pure <| h after ha

theorem ends_closeName {r : Reader} {start : Nat} {Q : Unit → Reader → Prop}
    (h : ∀ after, after.left ≤ r.left → Q () after) : (closeName start).Ends r Q :=
  .bind <| ends_textSince fun _ => .bind <| ends_emit <| ends_bump h

/-- A quoted name consumes something, if only its quotes. -/
theorem ends_quotedName {r : Reader} {Q : Unit → Reader → Prop}
    (h : ∀ after, after.left < r.left → Q () after) : quotedName.Ends r Q := by
  refine .bind <| ends_offset <| .bind <| ends_expect fun a ha => .bind <| ends_offset <|
    .bind <| ends_skipWhile fun b hb => .bind <| ends_peek fun found c hc => ?_
  split
  · exact .bind ends_illegal
  · exact ends_closeName fun d hd => h d (by omega)

theorem ends_moreDigits {r : Reader} {start : Nat} {Q : Unit → Reader → Prop}
    (h : ∀ after, after.left ≤ r.left → Q () after) : (moreDigits start).Ends r Q := by
  refine .bind <| ends_skipWhile fun a ha => .bind <| ends_peek fun _ b hb =>
    .bind <| ends_textSince fun text => ?_
  split
  · exact ends_emit <| h b (by omega)
  · exact ends_illegal

theorem ends_integer {r : Reader} {Q : Unit → Reader → Prop}
    (h : ∀ after, after.left ≤ r.left → Q () after) : integer.Ends r Q := by
  have hread : ∀ {P : Option Char → Reader → Prop},
      (∀ found after, after.left ≤ r.left → P found after) → read.Ends r P :=
    fun h => ends_read (fun c after hc => h (some c) after (Nat.le_of_lt hc)) (h none)
  refine .bind <| ends_offset <| .bind <| hread fun found a ha => ?_
  split
  · exact .bind ends_refuse
  · exact ends_moreDigits fun b hb => h b (by omega)

theorem ends_bounds {r : Reader} {Q : Unit → Reader → Prop}
    (h : ∀ after, after.left ≤ r.left → Q () after) : bounds.Ends r Q := by
  refine .bind <| ends_integer fun a ha => .bind <| ends_skipBlanks fun b hb =>
    .bind <| ends_peek fun found c hc => ?_
  split
  · exact .bind <| ends_offset <| .bind <| ends_bump fun d hd => .bind <| ends_emit <|
      .bind <| ends_skipBlanks fun e he => ends_integer fun g hg => h g (by omega)
  · exact .pure <| h c (by omega)

theorem ends_closeIndex {r : Reader} {Q : Option State → Reader → Prop}
    (h : ∀ after, after.left < r.left → Q (some .connector) after) : closeIndex.Ends r Q :=
  .bind <| ends_skipBlanks fun a ha => .bind <| ends_offset <| .bind <|
    ends_expect fun b hb => .bind <| ends_emit <| ends_finishFilter fun c hc => h c (by omega)

/-! ### What the states leave -/

/-- Where a state is begun: a bare name at a letter. Every other state looks for itself at
what comes next. -/
def Begun : State → Reader → Prop
  | .bareName, r => ∃ c, r.read.1 = .ok c ∧ Text.isLetter c = true
  | _, _ => True

/-- What a state that was entered with the reader leaves. -/
inductive Leaves (state : State) (r : Reader) : Option State → Reader → Prop where
  /-- Nothing is left to do. -/
  | last {after : Reader} : Leaves state r none after
  /-- Something was consumed, and the next state is begun where it can be. -/
  | consumed {next : State} {after : Reader} (begun : Begun next after)
      (less : after.left < r.left) : Leaves state r (some next) after
  /-- A period was seen, and it is left to the filter that it begins. -/
  | period {after : Reader} (waits : state = .expression ∨ state = .connector)
      (seen : after.read.1 = .ok '.') (le : after.left ≤ r.left) :
      Leaves state r (some .filter) after
  /-- A bare name was not begun at a letter. -/
  | unread {after : Reader} (isBare : state = .bareName) (unbegun : ¬Begun .bareName r)
      (le : after.left ≤ r.left) : Leaves state r (some .connector) after

theorem ends_expression (r : Reader) : expression.Ends r (Leaves .expression r) := by
  refine .bind <| ends_skipBlanks fun a ha => .bind <| ends_peek_seen ?_ ?_
  · intro c b seen hb
    split
    · next heq =>
      obtain rfl := Option.some.inj heq
      exact .pure <| .period (.inl rfl) seen (hb ▸ ha)
    · exact ends_finish .last
    · exact ends_refuse
  · exact fun _ _ => ends_finish .last

theorem ends_filter (r : Reader) : filter.Ends r (Leaves .filter r) := by
  refine .bind <| ends_skipBlanks fun a ha => .bind <| ends_offset <| .bind <|
    ends_expect fun b hb => .bind <| ends_emit <| .bind <| ends_skipBlanks fun c hc =>
      .bind <| ends_peek_seen ?_ ?_
  · intro d after seen hafter
    have hless : after.left < r.left := by omega
    split
    · exact .pure <| .consumed trivial hless
    · exact .pure <| .consumed trivial hless
    · next e _ _ heq =>
      obtain rfl := Option.some.inj heq
      by_cases hletter : Text.isLetter d = true
      · rw [if_pos hletter]
        exact .pure <| .consumed ⟨d, seen, hletter⟩ hless
      · rw [if_neg hletter]
        exact .pure <| .consumed trivial hless
    · exact ends_finish .last
  · exact fun _ _ => ends_finish .last

theorem ends_bareField (r : Reader) : bareField.Ends r (Leaves .bareName r) := by
  refine .bind <| ends_offset <| .bind <| ends_check <| .bind <| ends_move <|
    .bind <| ends_textSince fun text => .bind <| ends_emit <| ends_finishFilter fun b hb => ?_
  by_cases hbegun : Begun .bareName r
  · obtain ⟨c, hread, hletter⟩ := hbegun
    exact .consumed trivial (Nat.lt_of_le_of_lt hb (Reader.left_skipWhile_lt hread hletter))
  · exact .unread rfl hbegun (Nat.le_trans hb (Reader.left_skipWhile_le _ r))

theorem ends_quotedField (r : Reader) : quotedField.Ends r (Leaves .quotedName r) :=
  .bind <| ends_quotedName fun _ ha => ends_finishFilter fun _ hb =>
    .consumed trivial (Nat.lt_of_le_of_lt hb ha)

theorem ends_index (r : Reader) : index.Ends r (Leaves .index r) := by
  refine .bind <| ends_skipBlanks fun a ha => .bind <| ends_offset <| .bind <|
    ends_expect fun b hb => .bind <| ends_emit <| .bind <| ends_skipBlanks fun c hc =>
      .bind <| ends_peek fun found d hd => ?_
  have hclose : ∀ after, after.left ≤ r.left → closeIndex.Ends after (Leaves .index r) :=
    fun after ha => ends_closeIndex fun last hl => .consumed trivial (Nat.lt_of_lt_of_le hl ha)
  split
  · exact hclose d (by omega)
  · exact .bind <| ends_quotedName fun e he => hclose e (by omega)
  · exact .bind <| ends_bounds fun e he => hclose e (by omega)

theorem ends_connector (r : Reader) : connector.Ends r (Leaves .connector r) := by
  refine .bind <| ends_skipBlanks fun a ha => .bind <| ends_offset <| .bind <|
    ends_peek_seen ?_ ?_
  · intro c b seen hb
    have hbump : b.read.2.left < r.left := by
      have := Reader.left_read_lt seen
      omega
    split
    · exact .bind <| ends_move <| .bind <| ends_emit <| .pure <| .consumed trivial hbump
    · exact .bind <| ends_move <| .bind <| ends_emit <| .pure <| .consumed trivial hbump
    · next heq =>
      obtain rfl := Option.some.inj heq
      exact .pure <| .period (.inr rfl) seen (hb ▸ ha)
    · exact ends_finish .last
    · exact ends_refuse
  · exact fun _ _ => ends_finish .last

/-- **What a state leaves**, if it ends with no fault. -/
theorem ends_body (state : State) (r : Reader) : (body state).Ends r (Leaves state r) := by
  cases state
  · exact ends_expression r
  · exact ends_filter r
  · exact ends_bareField r
  · exact ends_quotedField r
  · exact ends_index r
  · exact ends_connector r

theorem step_leaves (stopped : Bool) (state : State) (r : Reader) :
    (step stopped state r).Always fun (next, after) => Leaves state r next after :=
  Dialogue.Always.bind <| (ends_body state r ⟨state, stopped⟩).mono fun
    | (.ok _, _) => fun h => h
    | (.error .aborted, _) => fun _ => .last
    | (.error (.illegal _), _) => fun _ _ => .last

/-! ### What goes down -/

/-- How long a state can put off consuming something. -/
def State.rank : State → Nat
  | .filter => 0
  | .expression | .connector => 1
  | .bareName | .quotedName | .index => 2

/-- What is left to do, which every state lessens. -/
def weight (state : State) (r : Reader) : Nat := 3 * r.left + state.rank

/-- The next state has less to do than the bound. -/
def Below (bound : Nat) (next : Option State) (after : Reader) : Prop :=
  ∀ state, next = some state → weight state after < bound

theorem Leaves.below {state : State} {r after : Reader} {next : Option State}
    (h : Leaves state r next after) : Below (weight state r) next after := by
  intro following hnext
  cases h with
  | last => contradiction
  | @consumed next _ _ less =>
    obtain rfl := Option.some.inj hnext
    have hrank : next.rank ≤ 2 := by cases next <;> decide
    simp only [weight]
    omega
  | period waits _ le =>
    obtain rfl := Option.some.inj hnext
    rcases waits with rfl | rfl <;> simp only [weight, State.rank] <;> omega
  | unread isBare _ le =>
    obtain rfl := Option.some.inj hnext
    subst isBare
    simp only [weight, State.rank]
    omega

/-- Every state lessens what is left to do. -/
theorem step_descends (stopped : Bool) (state : State) (r : Reader) :
    (step stopped state r).Always fun (next, after) => Below (weight state r) next after :=
  (step_leaves stopped state r).mono fun _ => Leaves.below

/-! ### The run -/

/-- Runs states under a live context until one of them is the last. -/
def run (state : State) (r : Reader) : Dialogue Unit :=
  ((step false state r).attach (step_descends false state r)).bind fun
    | ⟨(none, after), _⟩ => .note (.finished after.offset) (.done ())
    | ⟨(some next, after), h⟩ =>
      have := h next rfl
      run next after
termination_by weight state r

/-- What is left of a run after a state. -/
def resume : Option State × Reader → Dialogue Unit
  | (none, after) => .note (.finished after.offset) (.done ())
  | (some next, after) => run next after

/-- A run is its first state and what is left after it. -/
theorem run_eq (state : State) (r : Reader) :
    run state r = (step false state r).bind resume := by
  rw [run, ← Dialogue.bind_attach resume _ (step_descends false state r)]
  congr 1
  funext ⟨(next, after), h⟩
  cases next <;> rfl

/-- The dialogue of a lexer that is opened under a context and runs on its own. -/
def session (stop : Option Stop) (source : ByteArray) : Dialogue Unit :=
  let r := Reader.ofBytes source
  match stop with
  | some why => .note (.stopping .expression why) <| .note (.finished r.offset) <| .done ()
  | none => run .expression r

end PathFilter.Lexer
