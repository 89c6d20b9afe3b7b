import Mathlib.Computability.Language
import PathFilter.Proofs.Lexer.Lexeme

/-! The token sequences that a source can be cut into.

`sentences` is a regular language. What may still come at a place is a language of
its own (`Place.residue`). Unfolding the repetitions once tells which token can be
the first and which place it leads to, so membership goes from place to place by the
moves of `Place.Leads` (`leads_of_mem`, `mem_of_leads`), and it can end where a place
is final (`nil_mem_residue`). -/
namespace PathFilter
open Computability

namespace Sentences

/-! ### Words of one token -/

/-- The words of one token that has the property. -/
def letter (p : Token → Prop) : Language Token := {ts | ∃ t, ts = [t] ∧ p t}

section letters
variable {p : Token → Prop} {L : Language Token} {t : Token} {ts : List Token}

theorem nil_notMem_letter_mul : [] ∉ letter p * L := by
  rintro ⟨_, ⟨t, rfl, -⟩, ts, -, h⟩
  exact nomatch h

theorem cons_mem_letter_mul : t :: ts ∈ letter p * L ↔ p t ∧ ts ∈ L := by
  constructor
  · rintro ⟨_, ⟨u, rfl, hu⟩, us, hus, h⟩
    obtain ⟨rfl, rfl⟩ := List.cons.inj h
    exact ⟨hu, hus⟩
  · rintro ⟨ht, hts⟩
    exact ⟨[t], ⟨t, rfl, ht⟩, ts, hts, rfl⟩

theorem cons_notMem_one : t :: ts ∉ (1 : Language Token) := nofun

end letters

def period : Language Token := letter (· = .period)
def opening : Language Token := letter (· = .leftBracket)
def closing : Language Token := letter (· = .rightBracket)
def colon : Language Token := letter (· = .colon)
def question : Language Token := letter (· = .question)
def comma : Language Token := letter (· = .comma)
def pipe : Language Token := letter (· = .pipe)
def name : Language Token := letter (∃ text, · = .name text)
def integer : Language Token := letter (∃ value, · = .integer value)

/-! ### The language -/

/-- `D`: one or more periods. -/
def periods : Language Token := period * period∗

/-- `C` -/
def connector : Language Token := pipe + comma

/-- What stands between brackets. -/
def inner : Language Token := 1 + name + integer + integer * colon * integer

/-- `B`: what a period selects. -/
def selection : Language Token := (name + opening * inner * closing) * (1 + question)

/-- `empty | D | D B (C? D B)* (C? D)?` -/
def sentences : Language Token :=
  1 + periods +
    periods * selection * ((1 + connector) * periods * selection)∗ * (1 + (1 + connector) * periods)

/-! ### What may still come -/

def afterSelection : Language Token :=
  ((1 + connector) * periods * selection)∗ * (1 + (1 + connector) * periods)

def afterPeriod : Language Token := period∗ * (1 + selection * afterSelection)

def beforeMark : Language Token := (1 + question) * afterSelection

theorem sentences_eq : sentences = 1 + period * afterPeriod := by
  simp only [sentences, afterPeriod, afterSelection, periods, mul_add, mul_one, mul_assoc,
    add_assoc]

theorem afterPeriod_eq : afterPeriod =
    1 + (name * beforeMark + opening * (inner * closing * beforeMark)) + period * afterPeriod := by
  have hselection : selection * afterSelection =
      name * beforeMark + opening * (inner * closing * beforeMark) := by
    simp only [selection, beforeMark, add_mul, mul_assoc]
  rw [← hselection]
  conv_lhs => rw [afterPeriod, ← one_add_mul_kstar, add_mul, one_mul, mul_assoc]
  rfl

theorem afterSelection_eq : afterSelection =
    1 + (period * afterPeriod +
      (pipe * (period * afterPeriod) + comma * (period * afterPeriod))) := by
  have h : afterSelection = 1 + (1 + connector) * periods +
      (1 + connector) * periods * selection * afterSelection := by
    conv_lhs => rw [afterSelection, ← one_add_mul_kstar, add_mul, one_mul, mul_assoc]
    rfl
  have hperiods : periods + periods * selection * afterSelection = period * afterPeriod := by
    simp only [afterPeriod, periods, mul_add, mul_one, mul_assoc]
  rw [h, mul_assoc, mul_assoc, add_assoc, ← mul_add, ← mul_assoc periods, hperiods, connector]
  simp only [add_mul, one_mul]

theorem inner_eq : inner * closing * beforeMark =
    closing * beforeMark + name * (closing * beforeMark) +
      integer * (closing * beforeMark + colon * (integer * (closing * beforeMark))) := by
  simp only [inner, add_mul, mul_add, one_mul, mul_assoc, add_assoc]

theorem beforeMark_eq : beforeMark = afterSelection + question * afterSelection := by
  rw [beforeMark, add_mul, one_mul]

end Sentences

namespace Lexer
open Sentences

/-- The tokens that may still come at a place. -/
def Place.residue : Place → Language Token
  | .start => sentences
  | .filter => Sentences.period * afterPeriod
  | .period => afterPeriod
  | .bracket => Sentences.inner * Sentences.closing * beforeMark
  | .integer => Sentences.closing * beforeMark +
      colon * (Sentences.integer * (Sentences.closing * beforeMark))
  | .bound => Sentences.integer * (Sentences.closing * beforeMark)
  | .close => Sentences.closing * beforeMark
  | .selected _ => beforeMark
  | .marked => afterSelection

theorem Place.nil_mem_residue {place : Place} : [] ∈ place.residue ↔ place.Final := by
  have hselection : [] ∈ afterSelection := by
    rw [afterSelection_eq]
    exact .inl Language.nil_mem_one
  cases place with
  | start => exact iff_of_true (.inl (.inl Language.nil_mem_one)) trivial
  | period =>
    refine iff_of_true ?_ trivial
    rw [residue, afterPeriod_eq]
    exact .inl (.inl Language.nil_mem_one)
  | selected within =>
    refine iff_of_true ?_ trivial
    rw [residue, beforeMark_eq]
    exact .inl hselection
  | marked => exact iff_of_true hselection trivial
  | bracket =>
    refine iff_of_false (fun h => ?_) nofun
    rw [residue, inner_eq] at h
    rcases h with (h | h) | h <;> exact nil_notMem_letter_mul h
  | integer =>
    refine iff_of_false (fun h => ?_) nofun
    rcases h with h | h <;> exact nil_notMem_letter_mul h
  | filter => exact iff_of_false (fun h => nil_notMem_letter_mul h) nofun
  | bound => exact iff_of_false (fun h => nil_notMem_letter_mul h) nofun
  | close => exact iff_of_false (fun h => nil_notMem_letter_mul h) nofun

theorem Place.leads_of_afterSelection {place : Place} {t : Token} {ts : List Token}
    (h : place.Whole) (hts : t :: ts ∈ afterSelection) :
    ∃ next, Leads place t next ∧ ts ∈ next.residue := by
  rw [afterSelection_eq] at hts
  rcases hts with hts | hts | hts | hts
  · exact absurd hts cons_notMem_one
  · obtain ⟨rfl, hrest⟩ := cons_mem_letter_mul.1 hts
    exact ⟨.period, .next h, hrest⟩
  · obtain ⟨rfl, hrest⟩ := cons_mem_letter_mul.1 hts
    exact ⟨.filter, .pipe h, hrest⟩
  · obtain ⟨rfl, hrest⟩ := cons_mem_letter_mul.1 hts
    exact ⟨.filter, .comma h, hrest⟩

/-- The first token of what may come leads to a place where the rest may come. -/
theorem Place.leads_of_mem {place : Place} {t : Token} {ts : List Token}
    (h : t :: ts ∈ place.residue) : ∃ next, Leads place t next ∧ ts ∈ next.residue := by
  cases place with
  | start =>
    rw [residue, sentences_eq] at h
    rcases h with h | h
    · exact absurd h cons_notMem_one
    · obtain ⟨rfl, hts⟩ := cons_mem_letter_mul.1 h
      exact ⟨.period, .start, hts⟩
  | filter =>
    obtain ⟨rfl, hts⟩ := cons_mem_letter_mul.1 h
    exact ⟨.period, .filter, hts⟩
  | period =>
    rw [residue, afterPeriod_eq] at h
    rcases h with (h | h | h) | h
    · exact absurd h cons_notMem_one
    · obtain ⟨⟨text, rfl⟩, hts⟩ := cons_mem_letter_mul.1 h
      exact ⟨.selected .bareName, .name, hts⟩
    · obtain ⟨rfl, hts⟩ := cons_mem_letter_mul.1 h
      exact ⟨.bracket, .opening, hts⟩
    · obtain ⟨rfl, hts⟩ := cons_mem_letter_mul.1 h
      exact ⟨.period, .period, hts⟩
  | bracket =>
    rw [residue, inner_eq] at h
    rcases h with (h | h) | h
    · obtain ⟨rfl, hts⟩ := cons_mem_letter_mul.1 h
      exact ⟨_, .all, hts⟩
    · obtain ⟨⟨text, rfl⟩, hts⟩ := cons_mem_letter_mul.1 h
      exact ⟨.close, .key, hts⟩
    · obtain ⟨⟨value, rfl⟩, hts⟩ := cons_mem_letter_mul.1 h
      exact ⟨.integer, .element, hts⟩
  | integer =>
    rcases h with h | h
    · obtain ⟨rfl, hts⟩ := cons_mem_letter_mul.1 h
      exact ⟨_, .elementClose, hts⟩
    · obtain ⟨rfl, hts⟩ := cons_mem_letter_mul.1 h
      exact ⟨.bound, .colon, hts⟩
  | bound =>
    obtain ⟨⟨value, rfl⟩, hts⟩ := cons_mem_letter_mul.1 h
    exact ⟨.close, .bound, hts⟩
  | close =>
    obtain ⟨rfl, hts⟩ := cons_mem_letter_mul.1 h
    exact ⟨_, .close, hts⟩
  | selected within =>
    rw [residue, beforeMark_eq] at h
    rcases h with h | h
    · exact leads_of_afterSelection (.inr ⟨within, rfl⟩) h
    · obtain ⟨rfl, hts⟩ := cons_mem_letter_mul.1 h
      exact ⟨.marked, .question, hts⟩
  | marked => exact leads_of_afterSelection (.inl rfl) h

theorem Place.mem_of_afterSelection {place : Place} {ts : List Token}
    (h : place.Whole) (hts : ts ∈ afterSelection) :
    ts ∈ place.residue := by
  rcases h with rfl | ⟨within, rfl⟩
  · exact hts
  · rw [residue, beforeMark_eq]
    exact .inl hts

theorem Place.mem_of_leads {place next : Place} {t : Token} {ts : List Token}
    (h : Leads place t next) (hts : ts ∈ next.residue) : t :: ts ∈ place.residue := by
  cases h with
  | start =>
    rw [residue, sentences_eq]
    exact .inr (cons_mem_letter_mul.2 ⟨rfl, hts⟩)
  | filter => exact cons_mem_letter_mul.2 ⟨rfl, hts⟩
  | period =>
    rw [residue, afterPeriod_eq]
    exact .inr (cons_mem_letter_mul.2 ⟨rfl, hts⟩)
  | name =>
    rw [residue, afterPeriod_eq]
    exact .inl (.inr (.inl (cons_mem_letter_mul.2 ⟨⟨_, rfl⟩, hts⟩)))
  | opening =>
    rw [residue, afterPeriod_eq]
    exact .inl (.inr (.inr (cons_mem_letter_mul.2 ⟨rfl, hts⟩)))
  | all =>
    rw [residue, inner_eq]
    exact .inl (.inl (cons_mem_letter_mul.2 ⟨rfl, hts⟩))
  | key =>
    rw [residue, inner_eq]
    exact .inl (.inr (cons_mem_letter_mul.2 ⟨⟨_, rfl⟩, hts⟩))
  | element =>
    rw [residue, inner_eq]
    exact .inr (cons_mem_letter_mul.2 ⟨⟨_, rfl⟩, hts⟩)
  | colon => exact .inr (cons_mem_letter_mul.2 ⟨rfl, hts⟩)
  | elementClose => exact .inl (cons_mem_letter_mul.2 ⟨rfl, hts⟩)
  | bound => exact cons_mem_letter_mul.2 ⟨⟨_, rfl⟩, hts⟩
  | close => exact cons_mem_letter_mul.2 ⟨rfl, hts⟩
  | question =>
    rw [residue, beforeMark_eq]
    exact .inr (cons_mem_letter_mul.2 ⟨rfl, hts⟩)
  | next h =>
    apply mem_of_afterSelection h
    rw [afterSelection_eq]
    exact .inr (.inl (cons_mem_letter_mul.2 ⟨rfl, hts⟩))
  | pipe h =>
    apply mem_of_afterSelection h
    rw [afterSelection_eq]
    exact .inr (.inr (.inl (cons_mem_letter_mul.2 ⟨rfl, hts⟩)))
  | comma h =>
    apply mem_of_afterSelection h
    rw [afterSelection_eq]
    exact .inr (.inr (.inr (cons_mem_letter_mul.2 ⟨rfl, hts⟩)))

end Lexer
end PathFilter
