import PathFilter.Proofs.Parse.Shape
import PathFilter.Proofs.Sources

/-! Printing expressions, and what parsing can give back.

An expression is printed as the lexemes of a derivation that stands for it, with no
white space. Names are put in quotes, since only letters can do without them, and numbers
are printed in decimal. What is printed is written (`written_lexemes`), so it is parsed
into the expression it was printed from, and nothing but expressions is ever parsed
(`run_image`). -/
namespace PathFilter
open Grammar Lexer

/-! ### Tokens that can be written -/

/-- A lexeme of the token. -/
def Token.lexeme : Token → List Char
  | .name text => '"' :: (text.toList ++ ['"'])
  | .integer value => Nat.toDigits 10 value.toInt.toNat
  | token => (symbol? token).toList

theorem Lexer.lexeme_of_writable (inside : Bool) {token : Token} (h : token.Writable) :
    Lexeme inside token token.lexeme := by
  cases token with
  | name text =>
    have hquoted := @Lexeme.quoted inside text.toList h
    rwa [String.ofList_toList] at hquoted
  | integer value =>
    have hvalue : Text.decimal (Nat.toDigits 10 value.toInt.toNat) = value.toInt.toNat :=
      Nat.ofDigitChars_ten_toDigits
    refine .integer Nat.toDigits_ne_nil (fun c hc => ?_) ?_
    · exact Nat.isDigit_of_mem_toDigits (b := 10) (by decide) (by decide) hc
    · rw [Token.lexeme, hvalue]
      exact Int.toNat_of_nonneg h
  | illegal | endOfInput => exact h.elim
  | _ => exact .symbol rfl

theorem Lexer.Lexeme.writable {inside : Bool} {token : Token} {lexeme : List Char}
    (h : Lexeme inside token lexeme) : token.Writable := by
  cases h with
  | symbol hsymbol => cases token <;> trivial
  | quoted htext =>
    rw [Token.Writable, String.toList_ofList]
    exact htext
  | bare _ _ hletters =>
    rw [Token.Writable, String.toList_ofList]
    intro hmem
    have := Text.isLetter_of_punctuation (c := '"') (by decide)
    rw [hletters _ hmem] at this
    contradiction
  | integer _ _ hvalue =>
    rw [Token.Writable, ← hvalue]
    exact Int.natCast_nonneg _

/-- The lexemes back to back write the tokens. -/
theorem Lexer.written_lexemes {ts : List Token} (h : ∀ t ∈ ts, t.Writable) (inside : Bool) :
    Written inside ts (ts.flatMap Token.lexeme) := by
  have hblanks : Blanks [] := nofun
  induction ts generalizing inside with
  | nil => exact .nil hblanks
  | cons t ts ih =>
    obtain ⟨ht, hts⟩ := List.forall_mem_cons.1 h
    exact .cons hblanks (fun _ => rfl) (lexeme_of_writable inside ht) (ih hts _)

theorem Lexer.Written.writable {inside : Bool} {ts : List Token} {text : List Char}
    (h : Written inside ts text) : ∀ t ∈ ts, t.Writable := by
  induction h with
  | nil => exact nofun
  | cons _ _ hlexeme _ ih => exact List.forall_mem_cons.2 ⟨hlexeme.writable, ih⟩

/-! ### Expressions -/

/-- The text of an expression. -/
def Filter.print (t : Filter) : String :=
  String.ofList ((Pipe.of t).tokens.flatMap Token.lexeme)

/-- **Parsing gives back exactly the expressions.** Whatever source is parsed, under
whatever context, its query holds one expression, which is at most five filters deep; and
every expression is printed as a text that is parsed into just that expression. -/
theorem run_image (options : ParseOptions) :
    (∀ stop source q, options.run stop source = .ok q →
      ∃ t : Filter, q = ⟨[t]⟩ ∧ t.IsExpression ∧ t.depth ≤ 5) ∧
    ∀ t : Filter, t.IsExpression → options.run none t.print.toUTF8 = .ok ⟨[t]⟩ := by
  refine ⟨fun stop source q h => ?_, fun t ht => ?_⟩
  · cases stop with
    | some why =>
      have hstopped := build_of_fault (Tokens.lists_of_stopped (.ofSource options.driver (some why)
        source) (some why) why) rfl
      exact nomatch hstopped.symm.trans h
    | none =>
      obtain ⟨text, d, -, hwritten, hlexable, rfl, -⟩ := exists_written_of_run h
      have hexpression := Pipe.isExpression_tree hwritten.writable hlexable
      exact ⟨d.tree, rfl, hexpression, hexpression.depth_le⟩
  · obtain ⟨htells, hlexable⟩ := Pipe.tells_of ht
    have hwritten : Written false (Pipe.of t).tokens t.print.toList := by
      rw [Filter.print, String.toList_ofList]
      exact written_lexemes htells.writable false
    rw [run_of_written options hwritten hlexable, htells.tree_eq]

/-- Chains, one of them of steps, in a union in a pipe that ends in the identity. -/
theorem run_image_of_unions :
    ({} : ParseOptions).run none ".\"a b\".[7]?,.[0:9223372036854775807]|..".toUTF8 =
        .ok ⟨[.pipe [.union [.pipe [.field "a b", .optional (.index 7)],
          .slice 0 Int64.maxValue], .pipe [.identity, .identity]]]⟩ ∧
      ∃ t : Filter, ({} : ParseOptions).run none
        ".\"a b\".[7]?,.[0:9223372036854775807]|..".toUTF8 = .ok ⟨[t]⟩ ∧
          t.IsExpression ∧ t.depth ≤ 5 := by
  have hmax : 0 ≤ Int64.maxValue.toInt := by decide
  have hparsed := (run_image {}).2 (.pipe [.union [.pipe [.field "a b", .optional (.index 7)],
    .slice 0 Int64.maxValue], .pipe [.identity, .identity]])
    (.inr (.inr (.inr ⟨_, rfl, by decide,
      by simp [Filter.IsUnion, Filter.IsChain, Filter.IsStep, Filter.IsLeaf, hmax],
      ⟨_, .head _, not_false⟩, by simp [Filter.chains, Filter.EndsInIdentity]⟩)))
  have hprint : (Filter.pipe [.union [.pipe [.field "a b", .optional (.index 7)],
      .slice 0 Int64.maxValue], .pipe [.identity, .identity]]).print =
      ".\"a b\".[7]?,.[0:9223372036854775807]|.." := by decide +kernel
  rw [hprint] at hparsed
  obtain ⟨t, ht, hexpression, hdepth⟩ := (run_image {}).1 none _ _ hparsed
  exact ⟨hparsed, t, hparsed.trans (congrArg Except.ok ht), hexpression, hdepth⟩

end PathFilter
