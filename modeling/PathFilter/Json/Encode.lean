import PathFilter.Json.Value
import PathFilter.Query

/-! Queries, filters and tokens as JSON.

A token is an object with its kind and, if it carries one, its value; a fault
shows its message. An item is its token and its span. A filter is an object with
its type and its parts, and a query the list of its filters. -/
namespace PathFilter
open Json

def Token.toJson (t : Token) : Value :=
  let kind := ("kind", .text t.kind.tag)
  match t with
  | .illegal cause => .object [kind, ("value", .text cause.message)]
  | .name text => .object [kind, ("value", .text text)]
  | .integer value => .object [kind, ("value", .number value.toInt)]
  | _ => .object [kind]

def Span.toJson (s : Span) : Value := .object [("start", .number s.start), ("end", .number s.stop)]

def Item.toJson (i : Item) : Value :=
  .object [("token", i.token.toJson), ("span", i.span.toJson)]

/-- Items in order. -/
def itemsToJson (items : List Item) : Value := .list (items.map Item.toJson)

namespace Filter

mutual

def toJson : Filter → Value
  | .identity => .object [("type", .text "identity")]
  | .field name => .object [("type", .text "field"), ("name", .text name)]
  | .index position => .object [("type", .text "index"), ("index", .number position.toInt)]
  | .slice start stop =>
    .object [("type", .text "slice"), ("from", .number start.toInt), ("to", .number stop.toInt)]
  | .iterate => .object [("type", .text "iterate")]
  | .optional inner => .object [("type", .text "optional"), ("inner", inner.toJson)]
  | .pipe children => .object [("type", .text "pipe"), ("children", .list (allToJson children))]
  | .union children => .object [("type", .text "union"), ("children", .list (allToJson children))]

def allToJson : List Filter → List Value
  | [] => []
  | f :: rest => f.toJson :: allToJson rest

end

end Filter

def Query.toJson (q : Query) : Value := .object [("children", .list (Filter.allToJson q.children))]

end PathFilter
