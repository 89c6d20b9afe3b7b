import PathFilter.Proofs.Json.Reading
import PathFilter.Json.Encode

/-! Queries, filters and items read back from their texts.

What can be written is a `Document`: a query, a filter, or a list of items. The message of
a fault is all that is written of it, so documents leave faults out.

Every reader accepts the JSON of what it answers and nothing else (`ofJson_eq_some_iff`), so
`decode` accepts exactly the texts that denote a document (`decode_eq_some_iff`). Both
layouts of a document denote the same JSON value, and so both are read back
(`decode_print`). -/
namespace PathFilter
open Json

namespace Json.Value

/-- The integer of a number, if it is in range. -/
def integer? : Value → Option Int64
  | .number n => if (Int64.ofInt n).toInt = n then some (.ofInt n) else none
  | _ => none

def offset? : Value → Option Nat
  | .number (.ofNat n) => some n
  | _ => none

theorem integer?_eq_some_iff {v : Value} {n : Int64} :
    v.integer? = some n ↔ v = .number n.toInt := by
  constructor
  · intro h
    cases v with
    | number m =>
      simp only [integer?, Option.ite_none_right_eq_some, Option.some.injEq] at h
      obtain ⟨hm, rfl⟩ := h
      rw [hm]
    | _ => cases h
  · rintro rfl
    simp [integer?]

theorem offset?_eq_some_iff {v : Value} {n : Nat} : v.offset? = some n ↔ v = .number n := by
  constructor
  · intro h
    unfold offset? at h
    split at h
    · cases h; rfl
    · cases h
  · rintro rfl
    rfl

end Json.Value

/-! ### Filters and queries -/

namespace Filter

mutual

def ofJson : Value → Option Filter
  | .object [("type", .text "identity")] => some .identity
  | .object [("type", .text "field"), ("name", .text name)] => some (.field name)
  | .object [("type", .text "index"), ("index", position)] => position.integer?.map .index
  | .object [("type", .text "slice"), ("from", start), ("to", stop)] =>
    start.integer?.bind fun a => stop.integer?.map fun b => .slice a b
  | .object [("type", .text "iterate")] => some .iterate
  | .object [("type", .text "optional"), ("inner", inner)] => (ofJson inner).map .optional
  | .object [("type", .text "pipe"), ("children", .list children)] =>
    (allOfJson children).map .pipe
  | .object [("type", .text "union"), ("children", .list children)] =>
    (allOfJson children).map .union
  | _ => none

def allOfJson : List Value → Option (List Filter)
  | [] => some []
  | v :: rest => (ofJson v).bind fun f => (allOfJson rest).map (f :: ·)

end

mutual

theorem ofJson_toJson : (f : Filter) → ofJson f.toJson = some f
  | .identity | .field _ | .iterate => by simp [toJson, ofJson]
  | .index _ | .slice .. => by simp [toJson, ofJson, Value.integer?]
  | .optional inner => by simp [toJson, ofJson, ofJson_toJson inner]
  | .pipe children | .union children => by simp [toJson, ofJson, allOfJson_allToJson children]

theorem allOfJson_allToJson : (fs : List Filter) → allOfJson (allToJson fs) = some fs
  | [] => rfl
  | f :: rest => by simp [allToJson, allOfJson, ofJson_toJson f, allOfJson_allToJson rest]

end

mutual

/-- Nothing but the JSON of a filter is read as the filter. -/
theorem eq_toJson_of_ofJson : (v : Value) → {f : Filter} → ofJson v = some f → v = f.toJson
  | v, f, h => by
    unfold ofJson at h
    split at h
    case h_1 | h_2 | h_5 => cases h; rfl
    case h_3 =>
      simp only [Option.map_eq_some_iff, Value.integer?_eq_some_iff] at h
      obtain ⟨n, rfl, rfl⟩ := h
      rfl
    case h_4 =>
      simp only [Option.bind_eq_some_iff, Option.map_eq_some_iff, Value.integer?_eq_some_iff] at h
      obtain ⟨a, rfl, b, rfl, rfl⟩ := h
      rfl
    case h_6 inner =>
      obtain ⟨g, hg, rfl⟩ := Option.map_eq_some_iff.mp h
      rw [eq_toJson_of_ofJson inner hg, toJson]
    case h_7 children | h_8 children =>
      obtain ⟨fs, hfs, rfl⟩ := Option.map_eq_some_iff.mp h
      rw [eq_allToJson_of_allOfJson children hfs, toJson]
    case h_9 => cases h

theorem eq_allToJson_of_allOfJson : (vs : List Value) → {fs : List Filter} →
    allOfJson vs = some fs → vs = allToJson fs
  | [], fs, h => by cases h; rfl
  | v :: rest, fs, h => by
    simp only [allOfJson, Option.bind_eq_some_iff, Option.map_eq_some_iff] at h
    obtain ⟨f, hf, gs, hgs, rfl⟩ := h
    rw [eq_toJson_of_ofJson v hf, eq_allToJson_of_allOfJson rest hgs, allToJson]

end

theorem ofJson_eq_some_iff {v : Value} {f : Filter} : ofJson v = some f ↔ v = f.toJson :=
  ⟨eq_toJson_of_ofJson v, fun h => h ▸ ofJson_toJson f⟩

theorem allOfJson_eq_some_iff {vs : List Value} {fs : List Filter} :
    allOfJson vs = some fs ↔ vs = allToJson fs :=
  ⟨eq_allToJson_of_allOfJson vs, fun h => h ▸ allOfJson_allToJson fs⟩

end Filter

/-! ### Items -/

/-- A token that is no fault. -/
def Token.ofJson : Value → Option Token
  | .object [("kind", .text "STRING"), ("value", .text text)] => some (.name text)
  | .object [("kind", .text "INT"), ("value", value)] => value.integer?.map .integer
  | .object [("kind", .text "EOF")] => some .endOfInput
  | .object [("kind", .text "PERIOD")] => some .period
  | .object [("kind", .text "LBRACK")] => some .leftBracket
  | .object [("kind", .text "RBRACK")] => some .rightBracket
  | .object [("kind", .text "COLON")] => some .colon
  | .object [("kind", .text "QUESTION")] => some .question
  | .object [("kind", .text "COMMA")] => some .comma
  | .object [("kind", .text "PIPE")] => some .pipe
  | _ => none

theorem Token.ofJson_eq_some_iff {v : Value} {t : Token} :
    ofJson v = some t ↔ v = t.toJson ∧ t.kind ≠ .illegal := by
  constructor
  · intro h
    unfold ofJson at h
    split at h
    case h_2 =>
      simp only [Option.map_eq_some_iff, Value.integer?_eq_some_iff] at h
      obtain ⟨n, rfl, rfl⟩ := h
      exact ⟨rfl, by simp [kind]⟩
    case h_11 => cases h
    all_goals
      cases h
      exact ⟨rfl, by simp [kind]⟩
  · rintro ⟨rfl, hlegal⟩
    cases t <;> simp_all [toJson, ofJson, kind, Kind.tag, Value.integer?]

def Span.ofJson : Value → Option Span
  | .object [("start", start), ("end", stop)] =>
    start.offset?.bind fun a => stop.offset?.map fun b => ⟨a, b⟩
  | _ => none

theorem Span.ofJson_eq_some_iff {v : Value} {s : Span} : ofJson v = some s ↔ v = s.toJson := by
  constructor
  · intro h
    unfold ofJson at h
    split at h
    · simp only [Option.bind_eq_some_iff, Option.map_eq_some_iff, Value.offset?_eq_some_iff] at h
      obtain ⟨a, rfl, b, rfl, rfl⟩ := h
      rfl
    · cases h
  · rintro rfl
    rfl

/-- An item that is no fault. -/
def Item.ofJson : Value → Option Item
  | .object [("token", token), ("span", span)] =>
    (Token.ofJson token).bind fun t => (Span.ofJson span).map fun s => ⟨t, s⟩
  | _ => none

theorem Item.ofJson_eq_some_iff {v : Value} {i : Item} :
    ofJson v = some i ↔ v = i.toJson ∧ i.kind ≠ .illegal := by
  constructor
  · intro h
    unfold ofJson at h
    split at h
    · simp only [Option.bind_eq_some_iff, Option.map_eq_some_iff, Token.ofJson_eq_some_iff,
        Span.ofJson_eq_some_iff] at h
      obtain ⟨t, ⟨rfl, hlegal⟩, s, rfl, rfl⟩ := h
      exact ⟨rfl, hlegal⟩
    · cases h
  · rintro ⟨rfl, hlegal⟩
    have ht : Token.ofJson i.token.toJson = some i.token :=
      Token.ofJson_eq_some_iff.mpr ⟨rfl, hlegal⟩
    have hs : Span.ofJson i.span.toJson = some i.span := Span.ofJson_eq_some_iff.mpr rfl
    simp [Item.toJson, ofJson, ht, hs]

/-- Items, none of which is a fault. -/
def itemsOfJson : List Value → Option (List Item)
  | [] => some []
  | v :: rest => (Item.ofJson v).bind fun i => (itemsOfJson rest).map (i :: ·)

theorem itemsOfJson_map : {items : List Item} → (∀ i ∈ items, i.kind ≠ .illegal) →
    itemsOfJson (items.map Item.toJson) = some items
  | [], _ => rfl
  | i :: rest, h => by
    have hi : Item.ofJson i.toJson = some i := Item.ofJson_eq_some_iff.mpr ⟨rfl, h i (.head _)⟩
    have hrest := itemsOfJson_map fun j hj => h j (.tail _ hj)
    simp [itemsOfJson, hi, hrest]

theorem eq_map_of_itemsOfJson : (vs : List Value) → {items : List Item} →
    itemsOfJson vs = some items →
    vs = items.map Item.toJson ∧ ∀ i ∈ items, i.kind ≠ .illegal
  | [], items, h => by cases h; simp
  | v :: rest, items, h => by
    simp only [itemsOfJson, Option.bind_eq_some_iff, Option.map_eq_some_iff,
      Item.ofJson_eq_some_iff] at h
    obtain ⟨i, ⟨rfl, hi⟩, others, hothers, rfl⟩ := h
    obtain ⟨rfl, hlegal⟩ := eq_map_of_itemsOfJson rest hothers
    exact ⟨rfl, List.forall_mem_cons.mpr ⟨hi, hlegal⟩⟩

/-! ### Documents -/

/-- What is written and read back. -/
inductive Document where
  | query (q : Query)
  | filter (f : Filter)
  /-- Items as the lexer finds them, up to a fault. -/
  | items (found : List Item) (legal : ∀ i ∈ found, i.kind ≠ .illegal)

namespace Document

def toJson : Document → Value
  | .query q => q.toJson
  | .filter f => f.toJson
  | .items found _ => itemsToJson found

/-- The text of a document. -/
def print (l : Layout) (d : Document) : String := d.toJson.render l

def ofJson : Value → Option Document
  | .object [("children", .list children)] =>
    (Filter.allOfJson children).map fun fs => .query ⟨fs⟩
  | .list vs => (itemsOfJson vs).bind fun found =>
    if legal : ∀ i ∈ found, i.kind ≠ .illegal then some (.items found legal) else none
  | v => (Filter.ofJson v).map .filter

theorem ofJson_toJson (d : Document) : ofJson d.toJson = some d := by
  cases d with
  | query q => simp [toJson, Query.toJson, ofJson, Filter.allOfJson_allToJson]
  | filter f =>
    have hf : Filter.ofJson f.toJson = some f := Filter.ofJson_toJson f
    cases f <;> simpa [toJson, Filter.toJson, ofJson] using hf
  | items found legal =>
    simp only [toJson, itemsToJson, ofJson, itemsOfJson_map legal, Option.bind_some]
    exact dif_pos legal

theorem eq_toJson_of_ofJson {v : Value} {d : Document} (h : ofJson v = some d) : v = d.toJson := by
  unfold ofJson at h
  split at h
  case h_1 children =>
    simp only [Option.map_eq_some_iff, Filter.allOfJson_eq_some_iff] at h
    obtain ⟨fs, rfl, rfl⟩ := h
    rfl
  case h_2 vs =>
    obtain ⟨found, hfound, hlegal⟩ := Option.bind_eq_some_iff.mp h
    obtain ⟨rfl, legal⟩ := eq_map_of_itemsOfJson vs hfound
    rw [dif_pos legal] at hlegal
    cases hlegal
    rfl
  case h_3 =>
    simp only [Option.map_eq_some_iff, Filter.ofJson_eq_some_iff] at h
    obtain ⟨f, rfl, rfl⟩ := h
    rfl

/-- The document of a text. -/
def decode (text : String) : Option Document := (parse text).bind ofJson

/-- The texts that are read are those that denote a document. -/
theorem decode_eq_some_iff {text : String} {d : Document} :
    decode text = some d ↔ parse text = some d.toJson := by
  constructor
  · intro h
    obtain ⟨v, hv, hd⟩ := Option.bind_eq_some_iff.mp h
    rw [hv, eq_toJson_of_ofJson hd]
  · intro h
    rw [decode, h]
    exact ofJson_toJson d

theorem decode_print {l : Layout} (hl : l.Spaced) (d : Document) : decode (d.print l) = some d :=
  decode_eq_some_iff.mpr (parse_render hl d.toJson)

theorem print_injective {l : Layout} (hl : l.Spaced) : Function.Injective (print l) := by
  intro d e h
  have hd : decode (e.print l) = some d := h ▸ decode_print hl d
  exact Option.some.inj (hd.symm.trans (decode_print hl e))

/-- Writing loses nothing. The compact and the indented text of a document are read back as
the document, distinct documents have distinct texts in either layout, and the two texts of
a document denote one JSON value. -/
theorem print_lossless :
    (∀ d : Document, decode (d.print .compact) = some d ∧ decode (d.print .indented) = some d) ∧
    Function.Injective (print .compact) ∧ Function.Injective (print .indented) ∧
    ∀ d : Document,
      parse (d.print .compact) = some d.toJson ∧ parse (d.print .indented) = some d.toJson :=
  ⟨fun d => ⟨decode_print spaced_compact d, decode_print spaced_indented d⟩,
    print_injective spaced_compact, print_injective spaced_indented,
    fun d => ⟨parse_render spaced_compact d.toJson, parse_render spaced_indented d.toJson⟩⟩

end Document

example : (parse "\x7b \"type\" : \"field\",\n\"name\":\"\\u0041\\\\\"\x7d").bind Filter.ofJson =
    some (.field "A\\") := by decide +kernel

end PathFilter
