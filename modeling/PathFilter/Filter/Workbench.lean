import PathFilter.Json.Encode
import PathFilter.Outline

/-! Building trees by hand.

A workbench holds a query and a filter in hand. Commands change the filter in
hand, take it apart, add to it, and add copies of it to the query. -/
namespace PathFilter

structure Workbench where
  query : Query
  hand : Filter

namespace Workbench

inductive Command where
  | set (filter : Filter)
  /-- Makes the filter in hand optional, so many times. -/
  | wrap (n : Nat)
  | append (child : Filter)
  | appendRoot
  /-- Takes a child of the filter in hand. -/
  | child (i : Nat)
  /-- Takes a top-level filter of the query. -/
  | rootChild (i : Nat)
  | equals (filter : Filter)
  | single
  | root
  | indentedRoot
  | indented
  | describe

inductive Answer where
  | none
  | done
  | failed (error : ParseError)
  | flag (b : Bool)
  | filter (found : Option Filter)
  | query (q : Query)
  | text (s : String)
deriving DecidableEq

/-- A query with nothing in it, and the identity in hand. -/
def start : Workbench := ⟨.empty, .identity⟩

/-- Makes a filter optional, so many times. -/
def wrapped (n : Nat) (f : Filter) : Filter := n.repeat .optional f

/-- Takes a filter, if there is one. -/
def take (b : Workbench) : Option Filter → Answer × Workbench
  | some f => (.flag true, {b with hand := f})
  | none => (.flag false, b)

/-- What a command answers, and the workbench after it. -/
def obey (b : Workbench) : Command → Answer × Workbench
  | .set f => (.none, {b with hand := f})
  | .wrap n => (.none, {b with hand := wrapped n b.hand})
  | .append child =>
    match b.hand.append child with
    | .ok f => (.done, {b with hand := f})
    | .error e => (.failed e, b)
  | .appendRoot =>
    match b.query.append b.hand with
    | .ok q => (.done, {b with query := q})
    | .error e => (.failed e, b)
  | .child i => b.take b.hand.children[i]?
  | .rootChild i => b.take b.query.children[i]?
  | .equals f => (.flag (b.hand = f), b)
  | .single => (.filter b.query.single?, b)
  | .root => (.query b.query, b)
  | .indentedRoot => (.text (b.query.toJson.render .indented), b)
  | .indented => (.text (b.hand.toJson.render .indented), b)
  | .describe => (.text b.hand.outline.text, b)

/-- The answers of a list of commands, each with the workbench after it. -/
def run (b : Workbench) : List Command → List (Answer × Workbench)
  | [] => []
  | c :: rest =>
    let (answer, after) := b.obey c
    (answer, after) :: after.run rest

end Workbench
end PathFilter
