import PathFilter.Stream.Replay
import PathFilter.Reader.Session
import PathFilter.Stream.Session
import PathFilter.Filter.Workbench
import PathFilter.Journal
import PathFilter.Proofs.Agreement
import PathFilter.Proofs.Lexer.Accepts
import PathFilter.Proofs.Lexer.Terminal
import PathFilter.Proofs.Lexer.Spans
import PathFilter.Proofs.Parse.Viable
import PathFilter.Proofs.Stream.Interleaving
import PathFilter.Proofs.Sources
import PathFilter.Proofs.Parse.Shape
import PathFilter.Proofs.Printing
import PathFilter.Proofs.Composition
import PathFilter.Proofs.Context.Holders
import PathFilter.Proofs.Stream.Handover
import PathFilter.Proofs.Reader.Decoding
import PathFilter.Proofs.Reader.Slices
import PathFilter.Proofs.Reader.Positions
import PathFilter.Proofs.Lexer.Faults
import PathFilter.Proofs.Parse.Pulls
import PathFilter.Proofs.Parse.Cut
import PathFilter.Proofs.Lexer.Beginnings
import PathFilter.Proofs.Lexer.Connectors
import PathFilter.Proofs.Lexer.Halting
import PathFilter.Proofs.Traces
import PathFilter.Proofs.Json.Decode
import PathFilter.Proofs.Parse.Results
import PathFilter.Proofs.Parse.Requests
import PathFilter.Proofs.Parse.Pushback
