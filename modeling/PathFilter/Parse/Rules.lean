import PathFilter.Filter
import PathFilter.Parse.Lookahead

/-! The grammar of filter expressions, one parser a rule.

Loosest first:

    start  := pipe EOF
    pipe   := union ('|' union)*
    union  := chain (',' chain)*
    chain  := filter filter*
    filter := '.' (STRING | index)? '?'?
    index  := '[' (']' | STRING ']' | INT (':' INT)? ']')

A level with one member is that member, and a level with more holds them in the
order they were written. A period that no name and no bracket follows is the
identity. The members of a level are read until the next token is not one that
goes on with it, and since every member reads at least its period, that ends
(`collect`). -/
namespace PathFilter.Parser
variable {σ : Type} [TokenStream σ]

/-- The upper bound of a slice. -/
def integer : Parser σ Int64 := do
  let item ← next
  match item.token with
  | .integer value => return value
  | _ => throw (item.unexpected "integer")

/-- What stands between brackets. -/
def index : Parser σ Filter := do
  let _ ← expect .leftBracket "'['"
  let item ← next
  match item.token with
  | .rightBracket => return .iterate
  | .name text =>
    let _ ← expect .rightBracket "']'"
    return .field text
  | .integer start =>
    if ← accept .colon then
      let stop ← integer
      let _ ← expect .rightBracket "']'"
      return .slice start stop
    else
      let _ ← expect .rightBracket "']'"
      return .index start
  | _ => throw (item.unexpected "index, slice or ']'")

/-- The period every filter starts with. -/
def period : Parser σ Unit := do
  let item ← next
  match item.token with
  | .period => return ()
  | .illegal cause => throw (.lexical item.span.start cause)
  | .endOfInput => throw (.unexpectedEnd "filter expression")
  | other => throw (.expectedFilter other.kind item.span.start)

/-- What follows the period. -/
def selection : Parser σ Filter := do
  let item ← peek
  match item.token with
  | .name text =>
    let _ ← next
    return .field text
  | .leftBracket => index
  | .endOfInput | .period | .pipe | .comma => return .identity
  | .illegal cause => throw (.lexical item.span.start cause)
  | other => throw (.unsupported other.kind item.span.start)

def filter : Parser σ Filter := do
  period
  let node ← selection
  if ← accept .question then return .optional node
  return node

/-! ### Members of a level -/

/-- Reads members from where the parser stands. -/
def collectFrom (more : Parser σ Bool) (member : Parser σ Filter)
    (hmore : ∀ l, Ends more l fun _ after => after.size ≤ l.size)
    (hmember : ∀ l, Ends member l fun _ after => after.size < l.size)
    (node : Filter) (l : Lookahead σ) : EStateM.Result ParseError (Lookahead σ) Filter :=
  match _hl : more l with
  | .error e after => .error e after
  | .ok false after => .ok node after
  | .ok true after =>
    match _ha : member after with
    | .error e last => .error e last
    | .ok child last =>
      match node.append child with
      | .error e => .error e last
      | .ok node => collectFrom more member hmore hmember node last
termination_by l.size
decreasing_by
  have h₁ := hmore l
  have h₂ := hmember after
  rw [Ends, _hl] at h₁
  rw [Ends, _ha] at h₂
  exact Nat.lt_of_lt_of_le h₂ h₁

/-- Reads members and appends them to the node, as long as there are more. -/
def collect (more : Parser σ Bool) (member : Parser σ Filter)
    (hmore : ∀ l, Ends more l fun _ after => after.size ≤ l.size)
    (hmember : ∀ l, Ends member l fun _ after => after.size < l.size)
    (node : Filter) : Parser σ Filter :=
  fun l => collectFrom more member hmore hmember node l

section
variable {more : Parser σ Bool} {member : Parser σ Filter}
  {hmore : ∀ l, Ends more l fun _ after => after.size ≤ l.size}
  {hmember : ∀ l, Ends member l fun _ after => after.size < l.size}

theorem size_collect (node : Filter) (l : Lookahead σ) :
    Ends (collect more member hmore hmember node) l fun _ after => after.size ≤ l.size := by
  unfold Ends collect
  fun_induction collectFrom more member hmore hmember node l with
  | case1 | case3 | case4 => trivial
  | case2 node l after hl =>
    have := hmore l
    rwa [Ends, hl] at this
  | case5 node l after hl child last ha node' hn ih =>
    have h₁ := hmore l
    have h₂ := hmember after
    rw [Ends, hl] at h₁
    rw [Ends, ha] at h₂
    cases hr : collectFrom more member hmore hmember node' last with
    | ok =>
      rw [hr] at ih
      exact Nat.le_trans ih (Nat.le_trans (Nat.le_of_lt h₂) h₁)
    | error => trivial

theorem ends_collect {node : Filter} {l : Lookahead σ} {Q : Filter → Lookahead σ → Prop}
    (h : ∀ node after, after.size ≤ l.size → Q node after) :
    Ends (collect more member hmore hmember node) l Q :=
  (size_collect node l).mono h

end

/-! ### Every rule reads something -/

theorem ends_integer {l : Lookahead σ} {Q : Int64 → Lookahead σ → Prop}
    (h : ∀ value after, after.size < l.size → Q value after) : Ends integer l Q := by
  refine .bind <| ends_next fun item after ha => ?_
  split
  · exact .pure <| h _ after ha
  · exact ends_throw

theorem ends_index {l : Lookahead σ} {Q : Filter → Lookahead σ → Prop}
    (h : ∀ node after, after.size ≤ l.size → Q node after) : Ends index l Q := by
  refine .bind <| ends_expect fun _ a ha => .bind <| ends_next fun item b hb => ?_
  split
  · exact .pure <| h _ b (by omega)
  · exact .bind <| ends_expect fun _ c hc => .pure <| h _ c (by omega)
  · refine .bind <| ends_accept fun taken c hc => ?_
    split
    · exact .bind <| ends_integer fun _ d hd => .bind <| ends_expect fun _ e he =>
        .pure <| h _ e (by omega)
    · exact .bind <| ends_expect fun _ d hd => .pure <| h _ d (by omega)
  · exact ends_throw

theorem ends_period {l : Lookahead σ} {Q : Unit → Lookahead σ → Prop}
    (h : ∀ after, after.size < l.size → Q () after) : Ends period l Q := by
  refine .bind <| ends_next fun item after ha => ?_
  split
  · exact .pure <| h after ha
  all_goals exact ends_throw

theorem ends_selection {l : Lookahead σ} {Q : Filter → Lookahead σ → Prop}
    (h : ∀ node after, after.size ≤ l.size → Q node after) : Ends selection l Q := by
  refine .bind <| ends_peek fun item a ha => ?_
  split
  · exact .bind <| ends_next fun _ b hb => .pure <| h _ b (by omega)
  · exact ends_index fun node b hb => h node b (by omega)
  all_goals first | exact .pure <| h _ a ha | exact ends_throw

theorem ends_filter (l : Lookahead σ) : Ends filter l fun _ after => after.size < l.size := by
  refine .bind <| ends_period fun a ha => .bind <| ends_selection fun node b hb =>
    .bind <| ends_accept fun taken c hc => ?_
  split
  · exact .pure (by omega)
  · exact .pure (by omega)

theorem ends_more (kind : Kind) (l : Lookahead σ) :
    Ends (accept kind) l fun _ after => after.size ≤ l.size :=
  ends_accept fun _ _ h => h

/-! ### The levels -/

/-- Another filter follows directly. -/
def another : Parser σ Bool := return (← peekKind) = .period

theorem ends_another (l : Lookahead σ) :
    Ends another l fun _ after => after.size ≤ l.size :=
  .bind <| ends_peekKind fun _ _ h => .pure h

/-- Filters written back to back. -/
def chain : Parser σ Filter := do
  let first ← filter
  if (← peekKind) = .period then
    collect another filter ends_another ends_filter (.pipe [first])
  else return first

theorem ends_chain (l : Lookahead σ) : Ends chain l fun _ after => after.size < l.size := by
  refine .bind <| (ends_filter l).mono fun first a ha => .bind <| ends_peekKind fun kind b hb => ?_
  split
  · exact ends_collect fun _ c hc => by omega
  · exact .pure (by omega)

/-- Chains side by side. -/
def union : Parser σ Filter := do
  let first ← chain
  if (← peekKind) = .comma then
    collect (accept .comma) chain (ends_more .comma) ends_chain (.union [first])
  else return first

theorem ends_union (l : Lookahead σ) : Ends union l fun _ after => after.size < l.size := by
  refine .bind <| (ends_chain l).mono fun first a ha => .bind <| ends_peekKind fun kind b hb => ?_
  split
  · exact ends_collect fun _ c hc => by omega
  · exact .pure (by omega)

/-- Unions one after another. -/
def pipe : Parser σ Filter := do
  let first ← union
  if (← peekKind) = .pipe then
    collect (accept .pipe) union (ends_more .pipe) ends_union (.pipe [first])
  else return first

end PathFilter.Parser
