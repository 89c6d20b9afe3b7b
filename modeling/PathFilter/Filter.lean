import PathFilter.Parse.Error

/-! Filters: the tree of a path expression.

A filter records what was written, not what it selects. The leaves are one step
each: the value itself, a field, an index, a slice, all elements. A question mark
wraps the step before it, and pipes and unions hold their members in the order
they were written. Filters written back to back are a pipe, too. -/
namespace PathFilter

inductive Filter where
  /-- The value itself, `.`. -/
  | identity
  /-- A field, `.name` or `."name"` or `.["name"]`. -/
  | field (name : String)
  /-- An element, `.[10]`. -/
  | index (position : Int64)
  /-- A stretch of elements, `.[10:100]`. -/
  | slice (start stop : Int64)
  /-- All elements, `.[]`. -/
  | iterate
  /-- A filter that may find nothing, `.name?`. -/
  | optional (inner : Filter)
  /-- Filters one after another. -/
  | pipe (children : List Filter)
  /-- Filters side by side. -/
  | union (children : List Filter)

namespace Filter

/-- The name of the kind of filter. -/
def name : Filter → String
  | .identity => "identity"
  | .field _ => "field"
  | .index _ => "index"
  | .slice .. => "slice"
  | .iterate => "iterate"
  | .optional _ => "optional"
  | .pipe _ => "pipe"
  | .union _ => "union"

/-- The filters directly below. -/
def children : Filter → List Filter
  | .pipe children | .union children => children
  | .optional inner => [inner]
  | _ => []

/-- Adds a last child. Only pipes and unions take one. -/
def append (node child : Filter) : Except ParseError Filter :=
  match node with
  | .pipe children => .ok (.pipe (children ++ [child]))
  | .union children => .ok (.union (children ++ [child]))
  | other => .error (.notAppendable other.name)

/-! ### Equality -/

mutual

/-- The two filters are written alike. -/
def same : Filter → Filter → Bool
  | .identity, .identity => true
  | .field a, .field b => a = b
  | .index a, .index b => a = b
  | .slice a b, .slice c d => a = c && b = d
  | .iterate, .iterate => true
  | .optional a, .optional b => same a b
  | .pipe as, .pipe bs => sameAll as bs
  | .union as, .union bs => sameAll as bs
  | _, _ => false

def sameAll : List Filter → List Filter → Bool
  | [], [] => true
  | a :: as, b :: bs => same a b && sameAll as bs
  | _, _ => false

end

mutual

theorem same_iff : (a b : Filter) → (same a b = true ↔ a = b)
  | .identity, b => by cases b <;> simp [same]
  | .field _, b => by cases b <;> simp [same]
  | .index _, b => by cases b <;> simp [same]
  | .slice .., b => by cases b <;> simp [same]
  | .iterate, b => by cases b <;> simp [same]
  | .optional a, b => by cases b <;> simp [same, same_iff a]
  | .pipe as, b => by cases b <;> simp [same, sameAll_iff as]
  | .union as, b => by cases b <;> simp [same, sameAll_iff as]

theorem sameAll_iff : (as bs : List Filter) → (sameAll as bs = true ↔ as = bs)
  | [], bs => by cases bs <;> simp [sameAll]
  | a :: as, bs => by cases bs <;> simp [sameAll, same_iff a, sameAll_iff as]

end

instance : DecidableEq Filter := fun a b => decidable_of_iff _ (same_iff a b)

end Filter
end PathFilter
