import PathFilter.Filter

/-! Queries: the root a parsed expression hangs from.

A query holds its top-level filters in order. An expression that was parsed has
exactly one. -/
namespace PathFilter

structure Query where
  children : List Filter
deriving DecidableEq

namespace Query

def empty : Query := ⟨[]⟩

def length (q : Query) : Nat := q.children.length

def isEmpty (q : Query) : Bool := q.children.isEmpty

/-- The only top-level filter, if there is exactly one. -/
def single? (q : Query) : Option Filter :=
  match q.children with
  | [filter] => some filter
  | _ => none

/-- Adds a last top-level filter. The root takes any number of them. -/
def append (q : Query) (filter : Filter) : Except ParseError Query :=
  .ok ⟨q.children ++ [filter]⟩

end Query
end PathFilter
