import PathFilter.Context
import PathFilter.Token

/-! Token streams: where a parser gets its items from.

A stream is moved to its next item and then shows it. Moving fails at the end of
the stream and once the context it is read under is done, and the stream says
which. Every stream is finite: it has a bound on the items still to come, which
each successful move lowers, so a parser that reads on until it fails will
stop. -/
namespace PathFilter

class TokenStream (σ : Type) where
  /-- Makes the next item current. -/
  advance : σ → Bool × σ
  /-- The item of the latest successful move. -/
  current : σ → Option Item
  /-- Why the context the stream is read under is done. -/
  stop? : σ → Option Stop
  /-- A bound on the successful moves still to come. -/
  size : σ → Nat
  size_advance_lt : ∀ s, (advance s).1 = true → size (advance s).2 < size s

end PathFilter
