import PathFilter.Parse.Lookahead
import PathFilter.Proofs.Parse.Grammar

/-! Where a parser stands between two tokens.

Every token leads to one next stand or is refused there. `Stand.fault` is the
error in which the tokens from a stand end, `Stand.left` are the items behind the one
that was refused, and `Stand.accepts` says that none was. A filter that is complete
leaves the same stand however it was written (`Passes`), so what a derivation spells is
accepted rule by rule. -/
namespace PathFilter
open Grammar

inductive Stand where
  /-- A filter has to start here. -/
  | filter
  | period
  /-- After an opening bracket. -/
  | bracket
  /-- After an integer that can be the first bound of a slice. -/
  | integer
  /-- After a colon. -/
  | bound
  /-- A bracket has to be closed. -/
  | close
  /-- After a name or a closing bracket, where a question mark can stand. -/
  | selected
  /-- After a complete filter. -/
  | whole
  | over
deriving DecidableEq

/-- The token that was found is not one that can stand here. -/
def Item.noFilter (item : Item) : ParseError :=
  match item.token with
  | .illegal cause => .lexical item.span.start cause
  | .endOfInput => .unexpectedEnd "filter expression"
  | other => .expectedFilter other.kind item.span.start

def Item.noSelection (item : Item) : ParseError :=
  match item.token with
  | .illegal cause => .lexical item.span.start cause
  | other => .unsupported other.kind item.span.start

namespace Stand

/-- What a complete filter is followed by. -/
def onward : Token → Option Stand
  | .period => some .period
  | .comma | .pipe => some .filter
  | .endOfInput => some .over
  | _ => none

def next : Stand → Token → Option Stand
  | .filter, .period => some .period
  | .period, .name _ => some .selected
  | .period, .leftBracket => some .bracket
  | .bracket, .rightBracket => some .selected
  | .bracket, .name _ => some .close
  | .bracket, .integer _ => some .integer
  | .integer, .colon => some .bound
  | .integer, .rightBracket => some .selected
  | .bound, .integer _ => some .close
  | .close, .rightBracket => some .selected
  | .selected, .question => some .whole
  | .period, token => onward token
  | .selected, token => onward token
  | .whole, token => onward token
  | _, _ => none

/-- What is said of an item that is refused. -/
def complaint : Stand → Item → ParseError
  | .filter, item => item.noFilter
  | .period, item => item.noSelection
  | .bracket, item => item.unexpected "index, slice or ']'"
  | .integer, item => item.unexpected "']'"
  | .bound, item => item.unexpected "integer"
  | .close, item => item.unexpected "']'"
  | _, item => item.unexpected "end of input"

/-- The error in which the items from a stand end, if their end is an error for the
stream that shows them. -/
def fault (ending : ParseError) : Stand → List Item → Option ParseError
  | .over, _ => none
  | _, [] => some ending
  | s, item :: items =>
    match s.next item.token with
    | some s => s.fault ending items
    | none => some (s.complaint item)

/-- The items behind the one that decides. -/
def left : Stand → List Item → List Item
  | .over, items => items
  | _, [] => []
  | s, item :: items =>
    match s.next item.token with
    | some s => s.left items
    | none => items

/-- The tokens from a stand are an expression up to an end of input. -/
def accepts : Stand → List Token → Bool
  | .over, _ => true
  | _, [] => false
  | s, token :: tokens =>
    match s.next token with
    | some s => s.accepts tokens
    | none => false

variable {e : ParseError} {s t : Stand}

theorem fault_over (items : List Item) : fault e .over items = none := by cases items <;> rfl

theorem accepts_over (tokens : List Token) : accepts .over tokens = true := by
  cases tokens <;> rfl

theorem fault_nil (hs : s ≠ .over) : s.fault e [] = some e := by
  cases s <;> first | rfl | contradiction

theorem fault_cons {item : Item} {items : List Item} (h : s.next item.token = some t) :
    s.fault e (item :: items) = t.fault e items := by
  cases s <;> first | contradiction | simp only [fault, h]

theorem fault_refused {item : Item} {items : List Item} (hs : s ≠ .over)
    (h : s.next item.token = none) : s.fault e (item :: items) = some (s.complaint item) := by
  cases s <;> first | contradiction | simp only [fault, h]

theorem left_over (items : List Item) : left .over items = items := by cases items <;> rfl

theorem left_cons {item : Item} {items : List Item} (h : s.next item.token = some t) :
    s.left (item :: items) = t.left items := by
  cases s <;> first | contradiction | simp only [left, h]

theorem left_refused {item : Item} {items : List Item} (hs : s ≠ .over)
    (h : s.next item.token = none) : s.left (item :: items) = items := by
  cases s <;> first | contradiction | simp only [left, h]

theorem accepts_cons {token : Token} {tokens : List Token} (h : s.next token = some t) :
    s.accepts (token :: tokens) = t.accepts tokens := by
  cases s <;> first | contradiction | simp only [accepts, h]

theorem accepts_refused {token : Token} {tokens : List Token} (hs : s ≠ .over)
    (h : s.next token = none) : s.accepts (token :: tokens) = false := by
  cases s <;> first | contradiction | simp only [accepts, h]

/-- There is no fault in what is accepted. -/
theorem fault_of_accepts {items : List Item} (h : s.accepts (items.map Item.token) = true) :
    s.fault e items = none := by
  induction items generalizing s with
  | nil => cases s <;> first | rfl | contradiction
  | cons item items ih =>
    by_cases hs : s = .over
    · rw [hs, fault_over]
    · cases hn : s.next item.token with
      | some t =>
        rw [List.map_cons, accepts_cons hn] at h
        rw [fault_cons hn]
        exact ih h
      | none =>
        rw [List.map_cons, accepts_refused hs hn] at h
        contradiction

end Stand

/-! ### Derivations are accepted -/

/-- In front of what follows a rule, what it spells leads from the start of a filter
to its end. -/
def Passes {α : Type} (member : α → List Token) (follow : List Token) : Prop :=
  ∀ a rest, Starts follow rest →
    Stand.accepts .filter (member a ++ rest) = Stand.accepts .whole rest

section levels
variable {α : Type} {lead : Token} {separator follow : List Token} {member : α → List Token}

/-- The separator leads to the next filter. -/
def Joins (separator : List Token) (member : α → List Token) : Prop :=
  ∀ a rest, Stand.accepts .whole (separator ++ member a ++ rest) =
    Stand.accepts .filter (member a ++ rest)

theorem passes_level (hlead : Leads lead separator member) (hjoin : Joins separator member)
    (h : Passes member (lead :: follow)) : Passes (Level.spell separator member) follow := by
  intro ⟨first, more⟩ rest hrest
  rw [Level.spell, List.append_assoc, h first _ (starts_more hlead more hrest)]
  induction more with
  | nil => rfl
  | cons next more ih =>
    rw [spellMore, List.flatMap_cons, List.append_assoc, hjoin]
    exact (h next _ (starts_more hlead more hrest)).trans ih

end levels

/-- What follows a filter is treated alike after all its last tokens. -/
theorem accepts_of_starts {s : Stand} {rest : List Token}
    (hrest : Starts [.period, .comma, .pipe, .endOfInput] rest)
    (hs : s = .period ∨ s = .selected) : s.accepts rest = Stand.accepts .whole rest := by
  cases rest with
  | nil => exact hrest.elim
  | cons token rest =>
    have hnext : s.next token = Stand.next .whole token := by
      simp only [Starts, List.mem_cons, List.not_mem_nil, or_false] at hrest
      rcases hrest with rfl | rfl | rfl | rfl <;> rcases hs with rfl | rfl <;> rfl
    rcases hs with rfl | rfl <;> simp only [Stand.accepts, hnext]

theorem accepts_mark {rest : List Token}
    (hrest : Starts [.period, .comma, .pipe, .endOfInput] rest) (marked : Bool) :
    Stand.accepts .selected (mark marked ++ rest) = Stand.accepts .whole rest := by
  cases marked with
  | true => rfl
  | false => exact accepts_of_starts hrest (.inr rfl)

theorem accepts_index (inner : Index) (rest : List Token) :
    Stand.accepts .period (inner.tokens ++ rest) = Stand.accepts .selected rest := by
  cases inner <;> rfl

theorem passes_step : Passes Step.tokens [.period, .comma, .pipe, .endOfInput] := by
  intro a rest hrest
  cases a with
  | period => exact accepts_of_starts hrest (.inl rfl)
  | name text marked => exact accepts_mark hrest marked
  | index inner marked =>
    show Stand.accepts .period (inner.tokens ++ mark marked ++ rest) = _
    rw [List.append_assoc, accepts_index, accepts_mark hrest]

theorem joins_step : Joins [] Step.tokens := by
  intro a rest
  obtain ⟨tail, h⟩ := leads_step a
  rw [List.nil_append] at h
  rw [List.nil_append, h]
  rfl

theorem joins_comma {α : Type} {member : α → List Token} : Joins [.comma] member := fun _ _ => rfl

theorem joins_pipe {α : Type} {member : α → List Token} : Joins [.pipe] member := fun _ _ => rfl

/-- Every sentence of the grammar is accepted, whatever comes after it. -/
theorem Grammar.Pipe.accepts_sentence (d : Pipe) (rest : List Token) :
    Stand.accepts .filter (d.sentence ++ rest) = true := by
  have hchain := passes_level leads_step joins_step passes_step
  have hunion := passes_level leads_separator joins_comma hchain
  have hpipe := passes_level leads_separator joins_pipe hunion
  rw [Pipe.sentence, List.append_assoc]
  refine (hpipe d ([.endOfInput] ++ rest) (List.mem_singleton_self _)).trans ?_
  rw [List.singleton_append, Stand.accepts_cons (t := .over) rfl]
  exact Stand.accepts_over _

end PathFilter
