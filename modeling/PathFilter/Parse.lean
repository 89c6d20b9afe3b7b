import PathFilter.Parse.Rules
import PathFilter.Query
import PathFilter.Stream.Tokens

/-! Parsing an expression into a query.

`build` parses any stream of tokens and gives back what is left of it, so that
what a parser has read can be told from what it has not. `parse` and `parseWith`
open a source for it. Whichever driver is chosen, the query or the error is the
same; the default driver is the threaded one. -/
namespace PathFilter

/-- A whole expression. -/
def Parser.start {σ : Type} [TokenStream σ] : Parser σ Query := do
  let filter ← pipe
  let _ ← expect .endOfInput "end of input"
  match Query.empty.append filter with
  | .ok query => return query
  | .error e => throw e

/-- Parses a stream of tokens. -/
def build {σ : Type} [TokenStream σ] (stream : σ) : Except ParseError Query × σ :=
  match Parser.start (.ofStream stream) with
  | .ok query l => (.ok query, l.stream)
  | .error e l => (.error e, l.stream)

/-- How to parse a source. -/
structure ParseOptions where
  /-- How long parsing may take, in milliseconds. -/
  timeout : Option Nat := none
  driver : Driver := .threaded

/-- Parses a source with the chosen driver, under a context that stands as given.
The timeout is up to the one who makes the context. -/
def ParseOptions.run (options : ParseOptions) (stop : Option Stop) (source : ByteArray) :
    Except ParseError Query :=
  (build (Watched.mk (.ofSource options.driver stop source) stop stop)).1

/-- Parses a source, with no limit of time. -/
def parse (source : ByteArray) : Except ParseError Query := ({} : ParseOptions).run none source

/-- Parses a source under a context with the timeout of the options. -/
def parseWith (options : ParseOptions) (source : ByteArray) : Except ParseError Query :=
  let (context, contexts) :=
    match options.timeout with
    | some span => Contexts.empty.withTimeout span
    | none => Contexts.empty.background
  options.run (contexts.stop? context) source

end PathFilter
