import PathFilter.Proofs.Parse.Shape
import PathFilter.Proofs.Sources

/-! Joining two sources by a connector.

Both connectors join derivations without taking them apart. A pipe puts the unions of
the second source behind those of the first (`Level.append`). A comma binds tighter, so
it joins just the two unions it stands between (`Pipe.graft`). The text between two
sources is written, since white space at the end of the first may stand before a
connector (`Written.connect`), and the joined tokens are lexable unless the first source
ends in a bare period. So it is parsed, into a tree that the trees of the two sources
tell (`run_connected`). -/
namespace PathFilter
open Grammar Lexer

/-! ### Joined derivations -/

namespace Grammar

namespace Level
variable {α : Type} {separator : List Token} {member : α → List Token}

/-- The members of both. -/
def append (l m : Level α) : Level α := ⟨l.first, l.more ++ m.members⟩

theorem members_append (l m : Level α) : (l.append m).members = l.members ++ m.members := rfl

theorem spell_append (l m : Level α) : (l.append m).spell separator member =
    l.spell separator member ++ (separator ++ m.spell separator member) := by
  simp only [spell, spellMore, append, members, List.flatMap_append, List.flatMap_cons,
    List.append_assoc]

theorem hold_append {wrap : List Filter → Filter} {tree : α → Filter} (l m : Level α) :
    (l.append m).hold wrap tree = wrap (l.members.map tree ++ m.members.map tree) := by
  have hmore : (l.append m).more ≠ [] := List.append_ne_nil_of_right_ne_nil _ nofun
  rw [hold_of_several hmore, members_append, List.map_append]

end Level

/-- The unions of both, the last of the first joined with the first of the second. -/
def Pipe.graft (e : Pipe) (first : Union) : List Union → Pipe
  | [] => ⟨first.append e.first, e.more⟩
  | next :: more => ⟨first, (graft e next more).members⟩

theorem Pipe.tokens_graft (e : Pipe) (first : Union) (more : List Union) :
    (graft e first more).tokens = Pipe.tokens ⟨first, more⟩ ++ .comma :: e.tokens := by
  induction more generalizing first with
  | nil =>
    rw [graft, Pipe.tokens, Level.spell_single, Level.spell, Level.spell, Union.tokens,
      Level.spell_append, List.append_assoc, List.append_assoc]
    rfl
  | cons next more ih =>
    have hcons : (graft e first (next :: more)).tokens =
        first.tokens ++ ([.pipe] ++ (graft e next more).tokens) := Level.spell_cons ..
    rw [hcons, ih, Pipe.tokens, Level.spell_cons, List.append_assoc, List.append_assoc]

theorem Pipe.members_graft (e : Pipe) (first : Union) (more : List Union) :
    ∃ front last, Level.members ⟨first, more⟩ = front ++ [last] ∧
      (graft e first more).members = front ++ last.append e.first :: e.more := by
  induction more generalizing first with
  | nil => exact ⟨[], first, rfl, rfl⟩
  | cons next more ih =>
    obtain ⟨front, last, hmembers, hgraft⟩ := ih next
    refine ⟨first :: front, last, ?_, ?_⟩
    · rw [Level.members_cons, hmembers, List.cons_append]
    · rw [List.cons_append, ← hgraft]
      rfl

end Grammar

/-! ### Joined texts -/

/-- What is written on both sides of a connector is written with it between. -/
theorem Lexer.Written.connect {inside : Bool} {ts us : List Token} {text rest : List Char}
    {connector : Token} {c : Char} (hsymbol : symbol? connector = some c)
    (hconnector : connector ≠ .question) (h : Written inside ts text)
    (h' : Written (decide (connector = .leftBracket)) us rest) :
    Written inside (ts ++ connector :: us) (text ++ c :: rest) := by
  induction h with
  | nil hblanks =>
    exact .cons hblanks (fun h => absurd h hconnector) (.symbol hsymbol) h'
  | cons hblanks hglued hlexeme _ ih =>
    rw [List.append_assoc, List.append_assoc]
    exact .cons hblanks hglued hlexeme ih

theorem Lexable.connect {ts us : List Token} {connector : Token} (h : Lexable ts)
    (hlast : ts.getLast? ≠ some .period) (hconnector : connector ≠ .period) (h' : Lexable us) :
    Lexable (ts ++ connector :: us) := by
  refine List.isChain_append.2 ⟨h, List.isChain_cons.2 ⟨fun _ _ hperiod => ?_, h'⟩, ?_⟩
  · exact absurd hperiod hconnector
  · rintro t ht _ - rfl
    exact absurd ht hlast

/-! ### The trees of joined sources -/

/-- The tokens of the source, without the end. -/
def tokensOf (driver : Driver) (source : ByteArray) : List Token :=
  ((lex driver none source).map Item.token).filter (· ≠ .endOfInput)

/-- What the pipes of the tokens separate in their tree. -/
def segments (tokens : List Token) (tree : Filter) : List Filter :=
  if .pipe ∈ tokens then tree.children else [tree]

/-- One segment stands for itself, and several are a pipe. -/
def Filter.ofSegments : List Filter → Filter
  | [segment] => segment
  | segments => .pipe segments

theorem Grammar.Pipe.tree_eq_ofSegments (d : Pipe) :
    d.tree = .ofSegments (d.members.map Union.tree) := by
  obtain ⟨first, more⟩ := d
  cases more <;> rfl

theorem Grammar.Pipe.segments_tree (d : Pipe) :
    segments d.tokens d.tree = d.members.map Union.tree := by
  by_cases hmore : d.more = []
  · have htokens : d.tokens = d.first.tokens := by
      rw [Pipe.tokens, Level.spell, hmore]
      exact List.append_nil _
    have hpipe : .pipe ∉ d.tokens := fun h => Union.ne_pipe (htokens ▸ h) rfl
    rw [segments, if_neg hpipe, Pipe.tree, Level.hold_of_single hmore, Level.members, hmore]
    rfl
  · have hpipe : .pipe ∈ d.tokens := by
      obtain ⟨next, more, hcons⟩ := List.exists_cons_of_ne_nil hmore
      simp [Pipe.tokens, Level.spell, spellMore, hcons]
    rw [segments, if_pos hpipe, Pipe.tree, Level.hold_of_several hmore]
    rfl

theorem tokensOf_of_sentence {d : Pipe} {source : ByteArray} (driver : Driver)
    (h : (itemsFrom .expression (Reader.ofBytes source)).map Item.token = d.sentence) :
    tokensOf driver source = d.tokens := by
  have hne : ∀ t ∈ d.tokens, decide (t ≠ .endOfInput) = true := fun t ht =>
    decide_eq_true fun heq => d.endOfInput_notMem (heq ▸ ht)
  rw [tokensOf, lex_eq_itemsFrom, h, Pipe.sentence, List.filter_append,
    List.filter_eq_self.2 hne]
  exact List.append_nil _

theorem toUTF8_connect (text connector rest : String) :
    text.toUTF8 ++ connector.toUTF8 ++ rest.toUTF8 = (text ++ connector ++ rest).toUTF8 := by
  simp only [String.toUTF8, String.toByteArray_append]

/-- Joined derivations are parsed from the joined texts. -/
theorem run_joined (options : ParseOptions) {d e f : Pipe} {text rest : String} {connector : Token}
    {c : Char} (hsymbol : symbol? connector = some c)
    (hconnector : connector = .pipe ∨ connector = .comma) (hd : Written false d.tokens text.toList)
    (he : Written false e.tokens rest.toList) (hlexable : Lexable d.tokens)
    (hlast : d.tokens.getLast? ≠ some .period) (hlexable' : Lexable e.tokens)
    (hf : f.tokens = d.tokens ++ connector :: e.tokens) :
    options.run none (text.toUTF8 ++ (String.singleton c).toUTF8 ++ rest.toUTF8) =
      .ok ⟨[f.tree]⟩ := by
  obtain ⟨hquestion, hperiod, hbracket⟩ :
      connector ≠ .question ∧ connector ≠ .period ∧ connector ≠ .leftBracket := by
    rcases hconnector with rfl | rfl <;> exact ⟨nofun, nofun, nofun⟩
  have hwritten : Written false f.tokens (text ++ String.singleton c ++ rest).toList := by
    rw [← decide_eq_false hbracket] at he
    rw [hf]
    simpa using hd.connect hsymbol hquestion he
  rw [toUTF8_connect]
  refine run_of_written options hwritten ?_
  rw [hf]
  exact hlexable.connect hlast hperiod hlexable'

/-- **Connectors compose.** Two sources that are parsed, the first of which does not end in a
bare period, are parsed with a connector between them. Behind a pipe the segments of the
second source follow those of the first. A comma binds tighter: it joins the last segment
of the first source and the first of the second to one union of the chains of both, and
leaves the other segments as they are. -/
theorem run_connected (options : ParseOptions) {a b : ByteArray} {qa qb : Query}
    (ha : options.run none a = .ok qa) (hb : options.run none b = .ok qb)
    (hlast : (tokensOf options.driver a).getLast? ≠ some .period) :
    ∃ ta tb, qa = ⟨[ta]⟩ ∧ qb = ⟨[tb]⟩ ∧
      options.run none (a ++ "|".toUTF8 ++ b) = .ok ⟨[.pipe
        (segments (tokensOf options.driver a) ta ++ segments (tokensOf options.driver b) tb)]⟩ ∧
      ∃ front last first back,
        segments (tokensOf options.driver a) ta = front ++ [last] ∧
        segments (tokensOf options.driver b) tb = first :: back ∧
        options.run none (a ++ ",".toUTF8 ++ b) = .ok ⟨[.ofSegments
          (front ++ .union (last.chains ++ first.chains) :: back)]⟩ := by
  obtain ⟨text, d, rfl, hwritten, hlexable, rfl, hd⟩ := exists_written_of_run ha
  obtain ⟨rest, e, rfl, hwritten', hlexable', rfl, he⟩ := exists_written_of_run hb
  rw [tokensOf_of_sentence _ hd] at hlast
  rw [tokensOf_of_sentence _ hd, tokensOf_of_sentence _ he]
  have hrun := fun {f : Pipe} {connector : Token} {c : Char} hsymbol hconnector =>
    @run_joined options d e f text rest connector c hsymbol hconnector hwritten hwritten' hlexable
      hlast hlexable'
  refine ⟨d.tree, e.tree, rfl, rfl, ?_⟩
  rw [d.segments_tree, e.segments_tree]
  constructor
  · have hpipe := hrun (f := d.append e) rfl (.inl rfl) (d.spell_append e)
    rwa [Pipe.tree, d.hold_append] at hpipe
  · obtain ⟨front, last, hmembers, hgraft⟩ := e.members_graft d.first d.more
    have hcomma := hrun rfl (.inr rfl) (e.tokens_graft d.first d.more)
    refine ⟨front.map Union.tree, Union.tree last, Union.tree e.first, e.more.map Union.tree,
      ?_, rfl, ?_⟩
    · rw [show d.members = front ++ [last] from hmembers, List.map_append, List.map_singleton]
    · rw [Pipe.tree_eq_ofSegments, hgraft, List.map_append, List.map_cons, Union.tree,
        Level.hold_append] at hcomma
      rwa [Union.chains_tree, Union.chains_tree]

/-- A comma between pipes joins a chain and a union. -/
theorem run_connected_pipes :
    ({} : ParseOptions).run none (".a|.b.c ".toUTF8 ++ "|".toUTF8 ++ ".d,.e|.f".toUTF8) =
      .ok ⟨[.pipe [.field "a", .pipe [.field "b", .field "c"],
        .union [.field "d", .field "e"], .field "f"]]⟩ ∧
    ({} : ParseOptions).run none (".a|.b.c ".toUTF8 ++ ",".toUTF8 ++ ".d,.e|.f".toUTF8) =
      .ok ⟨[.pipe [.field "a", .union [.pipe [.field "b", .field "c"], .field "d", .field "e"],
        .field "f"]]⟩ := by
  have ha : ({} : ParseOptions).run none ".a|.b.c ".toUTF8 =
      .ok ⟨[.pipe [.field "a", .pipe [.field "b", .field "c"]]]⟩ := by decide +kernel
  have hb : ({} : ParseOptions).run none ".d,.e|.f".toUTF8 =
      .ok ⟨[.pipe [.union [.field "d", .field "e"], .field "f"]]⟩ := by decide +kernel
  have hta : tokensOf .threaded ".a|.b.c ".toUTF8 =
      [.period, .name "a", .pipe, .period, .name "b", .period, .name "c"] := by decide +kernel
  have htb : tokensOf .threaded ".d,.e|.f".toUTF8 =
      [.period, .name "d", .comma, .period, .name "e", .pipe, .period, .name "f"] := by
    decide +kernel
  obtain ⟨ta, tb, hqa, hqb, hpipe, front, last, first, back, hfront, hback, hcomma⟩ :=
    run_connected {} ha hb (by rw [hta]; decide)
  obtain rfl := (List.cons.inj (Query.mk.inj hqa)).1
  obtain rfl := (List.cons.inj (Query.mk.inj hqb)).1
  rw [hta] at hpipe hfront
  rw [htb] at hpipe hback
  have hparts : [Filter.field "a"] = front ∧ [.pipe [.field "b", .field "c"]] = [last] :=
    List.append_inj' hfront rfl
  obtain ⟨rfl, hlast⟩ := hparts
  obtain ⟨rfl, rfl⟩ := List.cons.inj hback
  rw [← (List.cons.inj hlast).1] at hcomma
  exact ⟨hpipe, hcomma⟩

end PathFilter
