import PathFilter.Parse
import PathFilter.Proofs.Parse.Reads
import PathFilter.Proofs.Parse.Stand

/-! Every rule of the parser reads a derivation of its own.

`Reads m s t` says what becomes of `m` when it is begun at the stand `s`: either it
reads what some derivation spells, ends with what the derivation stands for, and
leaves the stand `t`, or it `Fails` there: it ends with the fault of the items from `s`
on, and the stream is left right behind the item that was refused. The three levels
are one proof, by induction on the reads that `collect` makes. -/
namespace PathFilter.Parser
open Grammar

variable {σ : Type} [TokenStream σ] {ending : ParseError} {items rest last : List Item}
  {s t u : Stand}

/-- The parser ends with the fault of the items, and unless they ran out, the stream
still lists those behind the one that was refused. -/
structure Fails (ending : ParseError) (s : Stand) (items : List Item) (err : ParseError)
    (after : Lookahead σ) : Prop where
  fault : s.fault ending items = some err
  left : err = ending ∨ Lists after.stream (s.left items) ending

namespace Fails
variable {after : Lookahead σ} {err : ParseError}

theorem ranOut (hs : s ≠ .over) (hnil : items = []) (after : Lookahead σ) :
    Fails ending s items ending after := ⟨hnil ▸ Stand.fault_nil hs, .inl rfl⟩

theorem refused {item : Item} (hs : s ≠ .over) (h : s.next item.token = none)
    (hrest : Lists after.stream rest ending) (herr : s.complaint item = err) :
    Fails ending s (item :: rest) err after where
  fault := herr ▸ Stand.fault_refused hs h
  left := .inr (by rwa [Stand.left_refused hs h])

end Fails

/-- The tokens lead from one stand to another, and no fault is among them. -/
structure Stretch (ending : ParseError) (s t : Stand) (items rest : List Item)
    (tokens : List Token) : Prop where
  spelled : items.map Item.token = tokens ++ rest.map Item.token
  fault : s.fault ending items = t.fault ending rest
  left : s.left items = t.left rest

namespace Stretch

theorem refl : Stretch ending s s items items [] := ⟨rfl, rfl, rfl⟩

theorem item {item : Item} {token : Token} (htoken : item.token = token)
    (h : s.next token = some t) : Stretch ending s t (item :: rest) rest [token] where
  spelled := by rw [List.map_cons, htoken]; rfl
  fault := Stand.fault_cons (htoken ▸ h)
  left := Stand.left_cons (htoken ▸ h)

/-- Where both stands treat the next item alike, one is as good as the other. -/
theorem plain {item : Item} (hs : s ≠ .over) (ht : t ≠ .over)
    (hnext : s.next item.token = t.next item.token) (hcomplaint : s.complaint = t.complaint) :
    Stretch ending s t (item :: rest) (item :: rest) [] := by
  cases h : t.next item.token with
  | some u =>
    rw [h] at hnext
    refine ⟨rfl, ?_, ?_⟩
    · rw [Stand.fault_cons hnext, Stand.fault_cons h]
    · rw [Stand.left_cons hnext, Stand.left_cons h]
  | none =>
    rw [h] at hnext
    refine ⟨rfl, ?_, ?_⟩
    · rw [Stand.fault_refused hs hnext, Stand.fault_refused ht h, hcomplaint]
    · rw [Stand.left_refused hs hnext, Stand.left_refused ht h]

theorem trans {tokens more : List Token} (first : Stretch ending s t items rest tokens)
    (second : Stretch ending t u rest last more) :
    Stretch ending s u items last (tokens ++ more) where
  spelled := by rw [first.spelled, second.spelled, List.append_assoc]
  fault := first.fault.trans second.fault
  left := first.left.trans second.left

/-- What fails behind the tokens fails in front of them. -/
theorem fails {tokens : List Token} (h : Stretch ending s t items rest tokens) {err : ParseError}
    {after : Lookahead σ} (hrest : Fails ending t rest err after) :
    Fails ending s items err after where
  fault := h.fault.trans hrest.fault
  left := by
    rw [h.left]
    exact hrest.left

end Stretch

/-- The first item is of none of the kinds. -/
def Stops (kinds : List Kind) (items : List Item) : Prop :=
  ∀ kind ∈ kinds, items.head?.map Item.kind ≠ some kind

theorem stops_nil : Stops [] items := nofun

/-- The parser reads what a derivation spells, stops before the kinds that would go on
with it and gives what the derivation stands for, or it finds the fault that the items
have from the stand on. -/
def Reads {α δ : Type} (ending : ParseError) (m : Parser σ α) (s t : Stand) (kinds : List Kind)
    (tokens : δ → List Token) (value : δ → α) : Prop :=
  ∀ l items, l.Sees ending items → Comes m l
    (fun a after => ∃ d rest, Stretch ending s t items rest (tokens d) ∧ Stops kinds rest ∧
      a = value d ∧ after.Sees ending rest)
    (Fails ending s items)

/-- What comes after tokens fails where they lead to. -/
theorem Stretch.comes {α : Type} {m : Parser σ α} {l : Lookahead σ} {tokens : List Token}
    {Q : α → Lookahead σ → Prop} (h : Stretch ending s t items rest tokens)
    (hm : Comes m l Q (Fails ending t rest)) : Comes m l Q (Fails ending s items) :=
  hm.mono_error fun _ _ => h.fails

/-- What comes after a derivation fails at the stand it leads to. -/
theorem Reads.bind {α β δ : Type} {m : Parser σ α} {f : α → Parser σ β} {kinds : List Kind}
    {tokens : δ → List Token} {value : δ → α} {Q : β → Lookahead σ → Prop} {l : Lookahead σ}
    (hm : Reads ending m s t kinds tokens value) (h : l.Sees ending items)
    (hf : ∀ d rest after, Stretch ending s t items rest (tokens d) → Stops kinds rest →
      after.Sees ending rest →
        Comes (f (value d)) after Q (Fails ending t rest)) :
    Comes (m >>= f) l Q (Fails ending s items) := by
  apply Comes.bind
  apply (hm l items h).mono
  intro a after hend
  obtain ⟨d, rest, hread, hstops, rfl, hsees⟩ := hend
  exact hread.comes (hf d rest after hread hstops hsees)

/-- What is of a kind without values is known by its kind. -/
theorem token_of_kind (token : Token) {item : Item} (h : item.kind = token.kind)
    (hname : token.kind ≠ .name) (hinteger : token.kind ≠ .integer)
    (hillegal : token.kind ≠ .illegal) : item.token = token := by
  rw [Item.kind] at h
  cases hi : item.token <;> rw [hi] at h <;> cases token <;> first | rfl | contradiction

/-! ### Brackets -/

theorem reads_integer : Reads ending (integer (σ := σ)) .bound .close []
    (fun value => [.integer value]) id := by
  intro l items h
  refine .bind <| comes_next h (.ranOut (by decide)) fun item rest after hitems hrest hsees => ?_
  subst hitems
  split
  · next value htoken =>
    exact .pure ⟨value, rest, .item htoken rfl, stops_nil, rfl, hsees⟩
  · next hother =>
    refine comes_throw (.refused (by decide) ?_ hrest rfl)
    cases htoken : item.token with
    | integer value => exact absurd htoken (hother value)
    | _ => rfl

theorem reads_close : Reads ending (expect (σ := σ) .rightBracket "']'") .close .selected []
    (fun _ => [.rightBracket]) id := by
  intro l items h
  refine comes_expect h (.ranOut (by decide)) (fun item rest after hitems hkind _ hsees => ?_)
    fun item rest after hitems hkind hrest => ?_
  · subst hitems
    have htoken : item.token = .rightBracket :=
      token_of_kind _ hkind (by decide) (by decide) (by decide)
    exact ⟨item, rest, .item htoken rfl, stops_nil, rfl, hsees⟩
  · subst hitems
    refine .refused (by decide) ?_ hrest rfl
    cases htoken : item.token with
    | rightBracket => exact absurd (congrArg Token.kind htoken) hkind
    | _ => rfl

/-- An integer that no colon follows is an index. -/
theorem stretch_integer {item : Item} (h : item.kind ≠ .colon) :
    Stretch ending .integer .close (item :: rest) (item :: rest) [] := by
  refine .plain (by decide) (by decide) ?_ rfl
  cases htoken : item.token with
  | colon => exact absurd (congrArg Token.kind htoken) h
  | _ => rfl

theorem comes_index {item : Item} {l : Lookahead σ} (h : l.Sees ending (item :: items))
    (hitem : item.token = .leftBracket) :
    Comes index l
      (fun node after => ∃ inner rest,
        Stretch ending .period .selected (item :: items) rest (Index.tokens inner) ∧
          node = inner.tree ∧ after.Sees ending rest)
      (Fails ending .period (item :: items)) := by
  have hopen : Stretch ending .period .bracket (item :: items) items [.leftBracket] :=
    .item hitem rfl
  apply hopen.comes
  refine .bind <| comes_expect h nofun (fun _ _ opened hitems _ _ hopened => ?_)
    fun _ _ _ hitems hkind _ => ?_
  · obtain ⟨rfl, rfl⟩ := List.cons.inj hitems
    refine .bind <| comes_next hopened (.ranOut (by decide))
      fun first rest inside hitems hrest hinside => ?_
    subst hitems
    split
    · next htoken =>
      exact .pure ⟨.all, rest, hopen.trans (.item htoken rfl), rfl, hinside⟩
    · next text htoken =>
      have hname : Stretch ending .bracket .close (first :: rest) rest [.name text] :=
        .item htoken rfl
      apply hname.comes
      apply reads_close.bind hinside
      intro _ last after hclose _ hsees
      exact .pure ⟨.name text, last, hopen.trans (hname.trans hclose), rfl, hsees⟩
    · next start htoken =>
      have hstart : Stretch ending .bracket .integer (first :: rest) rest [.integer start] :=
        .item htoken rfl
      apply hstart.comes
      refine .bind <| comes_accept hinside (.ranOut (by decide))
        (fun second tail after hitems hkind hsees => ?_)
        fun second tail after hitems hkind hsees => ?_
      · subst hitems
        have hcolon : Stretch ending .integer .bound (second :: tail) tail [.colon] :=
          .item (token_of_kind _ hkind (by decide) (by decide) (by decide)) rfl
        apply hcolon.comes
        apply reads_integer.bind hsees
        intro stop rest after hstop _ hsees
        apply reads_close.bind hsees
        intro _ last after hclose _ hsees
        exact .pure ⟨.slice start stop, last,
          hopen.trans (hstart.trans (hcolon.trans (hstop.trans hclose))), rfl, hsees⟩
      · subst hitems
        have hplain : Stretch ending .integer .close (second :: tail) (second :: tail) [] :=
          stretch_integer hkind
        apply hplain.comes
        apply reads_close.bind hsees
        intro _ last after hclose _ hsees
        exact .pure ⟨.element start, last,
          hopen.trans (hstart.trans (hplain.trans hclose)), rfl, hsees⟩
    · next hbracket hname hinteger =>
      refine comes_throw (.refused (by decide) ?_ hrest rfl)
      cases htoken : first.token with
      | rightBracket => exact absurd htoken hbracket
      | name text => exact absurd htoken (hname text)
      | integer value => exact absurd htoken (hinteger value)
      | _ => rfl
  · obtain ⟨rfl, rfl⟩ := List.cons.inj hitems
    exact absurd (congrArg Token.kind hitem) hkind

/-! ### Filters -/

theorem reads_period : Reads ending (period (σ := σ)) .filter .period []
    (fun _ : Unit => [.period]) id := by
  intro l items h
  refine .bind <| comes_next h (.ranOut (by decide)) fun item rest after hitems hrest hsees => ?_
  subst hitems
  have hrefused : ∀ {err}, item.token ≠ .period → item.noFilter = err →
      Fails ending .filter (item :: rest) err after := by
    intro err hne herr
    refine .refused (by decide) ?_ hrest herr
    cases htoken : item.token with
    | period => exact absurd htoken hne
    | _ => rfl
  split
  · next htoken => exact .pure ⟨(), rest, .item htoken rfl, stops_nil, rfl, hsees⟩
  · next cause htoken =>
    refine comes_throw (hrefused (by rw [htoken]; nofun) ?_)
    rw [Item.noFilter, htoken]
  · next htoken =>
    refine comes_throw (hrefused (by rw [htoken]; nofun) ?_)
    rw [Item.noFilter, htoken]
  · next hperiod hillegal hend =>
    refine comes_throw (hrefused hperiod ?_)
    rw [Item.noFilter]
    split
    · next cause htoken => exact absurd htoken (hillegal cause)
    · next htoken => exact absurd htoken hend
    · rfl

/-- What follows the period makes the filter, but for a question mark. -/
inductive Selects (ending : ParseError) : Filter → List Item → List Item → Prop where
  | identity {item : Item} {rest : List Item} (hkind : item.kind ≠ .question)
      (read : Stretch ending .period .whole (item :: rest) (item :: rest) []) :
      Selects ending .identity (item :: rest) (item :: rest)
  | step {node : Filter} {items rest : List Item} {tokens : List Token} (step : Bool → Step)
      (read : Stretch ending .period .selected items rest tokens)
      (spelled : ∀ marked, (step marked).tokens = .period :: (tokens ++ mark marked))
      (tree : ∀ marked, (step marked).tree = markTree marked node) :
      Selects ending node items rest

theorem comes_selection {l : Lookahead σ} (h : l.Sees ending items) :
    Comes selection l
      (fun node after => ∃ rest, Selects ending node items rest ∧ after.Sees ending rest)
      (Fails ending .period items) := by
  refine .bind <| comes_peek h (.ranOut (by decide)) fun item rest peeked hitems hrest hsees => ?_
  subst hitems
  -- Tokens that follow a complete filter are left to be read.
  have hidentity : ∀ {token t}, item.token = token → Stand.next .period token = some t →
      Stand.next .whole token = some t →
        Selects ending .identity (item :: rest) (item :: rest) := by
    intro token t htoken hperiod hwhole
    subst htoken
    refine .identity (fun hkind => ?_) ⟨rfl, ?_, ?_⟩
    · rw [token_of_kind .question hkind (by decide) (by decide) (by decide)] at hwhole
      contradiction
    · rw [Stand.fault_cons hperiod, Stand.fault_cons hwhole]
    · rw [Stand.left_cons hperiod, Stand.left_cons hwhole]
  split
  · next text htoken =>
    refine .bind <| comes_next hsees nofun fun _ _ after hitems _ hsees => ?_
    obtain ⟨rfl, rfl⟩ := List.cons.inj hitems
    exact .pure ⟨_, .step (.name text) (.item htoken rfl) (fun _ => rfl) fun _ => rfl, hsees⟩
  · next htoken =>
    refine (comes_index hsees htoken).mono fun node after ⟨inner, last, hread, hnode, hsees⟩ => ?_
    exact ⟨last, .step (.index inner) hread (fun _ => rfl) fun _ => hnode ▸ rfl, hsees⟩
  · next htoken => exact .pure ⟨_, hidentity htoken rfl rfl, hsees⟩
  · next htoken => exact .pure ⟨_, hidentity htoken rfl rfl, hsees⟩
  · next htoken => exact .pure ⟨_, hidentity htoken rfl rfl, hsees⟩
  · next htoken => exact .pure ⟨_, hidentity htoken rfl rfl, hsees⟩
  · next cause htoken =>
    refine comes_throw (.refused (by decide) (by rw [htoken]; rfl) hrest ?_)
    rw [Stand.complaint, Item.noSelection, htoken]
  · next hname hbracket hend hperiod hpipe hcomma hillegal =>
    refine comes_throw (.refused (by decide) ?_ hrest ?_)
    · cases htoken : item.token with
      | name text => exact absurd htoken (hname text)
      | leftBracket => exact absurd htoken hbracket
      | endOfInput => exact absurd htoken hend
      | period => exact absurd htoken hperiod
      | pipe => exact absurd htoken hpipe
      | comma => exact absurd htoken hcomma
      | _ => rfl
    · rw [Stand.complaint, Item.noSelection]
      split
      · next cause htoken => exact absurd htoken (hillegal cause)
      · rfl

/-- Where no question mark stands, a filter is complete. -/
theorem stretch_selected {item : Item} (h : item.kind ≠ .question) :
    Stretch ending .selected .whole (item :: rest) (item :: rest) [] := by
  refine .plain (by decide) (by decide) ?_ rfl
  cases htoken : item.token with
  | question => exact absurd (congrArg Token.kind htoken) h
  | _ => rfl

theorem reads_filter :
    Reads ending (filter (σ := σ)) .filter .whole [] Step.tokens Step.tree := by
  intro l items h
  apply reads_period.bind h
  intro _ rest after hperiod _ hsees
  apply Comes.bind
  apply (comes_selection hsees).mono
  intro node after hselection
  obtain ⟨last, hselected, hsees⟩ := hselection
  cases hselected with
  | @identity item last hkind hread =>
    apply hread.comes
    refine .bind <| comes_accept hsees nofun (fun _ _ _ hitems hkind' _ => ?_)
      fun _ _ after _ _ hsees => ?_
    · obtain ⟨rfl, rfl⟩ := List.cons.inj hitems
      exact absurd hkind' hkind
    · exact .pure ⟨.period, _, hperiod.trans hread, stops_nil, rfl, hsees⟩
  | step step hread hspelled htree =>
    apply hread.comes
    refine .bind <| comes_accept hsees (.ranOut (by decide))
      (fun item tail after hitems hkind htail => ?_)
      fun item tail after hitems hkind hsees => ?_
    · subst hitems
      have hmark : Stretch ending .selected .whole (item :: tail) tail [.question] :=
        .item (token_of_kind _ hkind (by decide) (by decide) (by decide)) rfl
      refine .pure ⟨step true, tail, ?_, stops_nil, (htree true).symm, htail⟩
      rw [hspelled]
      exact hperiod.trans (hread.trans hmark)
    · subst hitems
      have hplain : Stretch ending .selected .whole (item :: tail) (item :: tail) [] :=
        stretch_selected hkind
      refine .pure ⟨step false, _, ?_, stops_nil, (htree false).symm, hsees⟩
      rw [hspelled]
      exact hperiod.trans (hread.trans hplain)

/-! ### Levels -/

/-- The question whether a level goes on. It is answered by the leading token, and the
separator is consumed. -/
def Asks (ending : ParseError) (more : Parser σ Bool) (lead : Kind) (separator : List Token) :
    Prop :=
  ∀ l items, l.Sees ending items → Comes more l
    (fun found after => ∃ rest, after.Sees ending rest ∧
      match found with
      | true => Stretch ending .whole .filter items rest separator
      | false => rest = items ∧ items.head?.map Item.kind ≠ some lead)
    (Fails ending .whole items)

theorem asks_another : Asks ending (another (σ := σ)) .period [] := by
  intro l items h
  refine .bind <| comes_peekKind h (.ranOut (by decide)) fun item rest after hitems hsees => ?_
  refine .pure ⟨items, hsees, ?_⟩
  by_cases hkind : item.kind = .period
  · rw [decide_eq_true hkind]
    have htoken := token_of_kind .period hkind (by decide) (by decide) (by decide)
    have hfilter : Stand.next .filter item.token = some .period := by rw [htoken]; rfl
    have hwhole : Stand.next .whole item.token = some .period := by rw [htoken]; rfl
    rw [hitems]
    refine ⟨rfl, ?_, ?_⟩
    · rw [Stand.fault_cons hwhole, Stand.fault_cons hfilter]
    · rw [Stand.left_cons hwhole, Stand.left_cons hfilter]
  · rw [decide_eq_false hkind]
    refine ⟨rfl, fun hhead => hkind ?_⟩
    rw [hitems] at hhead
    exact Option.some.inj hhead

theorem asks_accept {token : Token} (h : token = .comma ∨ token = .pipe) :
    Asks ending (accept (σ := σ) token.kind) token.kind [token] := by
  intro l items hsees
  refine comes_accept hsees (.ranOut (by decide))
    (fun item rest after hitems hkind hsees => ?_) fun item rest after hitems hkind hsees => ?_
  · refine ⟨rest, hsees, ?_⟩
    rw [hitems]
    refine .item (token_of_kind _ hkind ?_ ?_ ?_) ?_ <;> rcases h with rfl | rfl <;> decide
  · refine ⟨items, hsees, rfl, fun hhead => hkind ?_⟩
    rw [hitems] at hhead
    exact Option.some.inj hhead

section levels
variable {δ : Type} {more : Parser σ Bool} {member : Parser σ Filter} {lead : Kind}
  {kinds : List Kind} {separator : List Token} {tokens : δ → List Token} {tree : δ → Filter}
  {wrap : List Filter → Filter}
  {hmore : ∀ l, Ends more l fun _ after => after.size ≤ l.size}
  {hmember : ∀ l, Ends member l fun _ after => after.size < l.size}

theorem Stops.cons (h : Stops kinds items) (hlead : items.head?.map Item.kind ≠ some lead) :
    Stops (lead :: kinds) items
  | _, .head _ => hlead
  | _, .tail _ hkind => h _ hkind

/-- Members are read as long as there are more, and each is appended to the node. -/
theorem comes_collect (hasks : Asks ending more lead separator)
    (hreads : Reads ending member .filter .whole kinds tokens tree)
    (happend : ∀ held child, (wrap held).append child = .ok (wrap (held ++ [child])))
    (held : List Filter) {l : Lookahead σ} (h : l.Sees ending items) (hstops : Stops kinds items) :
    Comes (collect more member hmore hmember (wrap held)) l
      (fun node after => ∃ ds : List δ, ∃ rest,
        Stretch ending .whole .whole items rest (spellMore separator tokens ds) ∧
          Stops (lead :: kinds) rest ∧ node = wrap (held ++ ds.map tree) ∧
          after.Sees ending rest ∧ (items.head?.map Item.kind = some lead → ds ≠ []))
      (Fails ending .whole items) := by
  unfold Comes collect
  generalize hnode : wrap held = node
  fun_induction collectFrom more member hmore hmember node l generalizing items held with
  | case1 node l e after hl =>
    have hmore := hasks l items h
    rw [Comes, hl] at hmore
    exact hmore
  | case2 node l after hl =>
    have hmore := hasks l items h
    rw [Comes, hl] at hmore
    obtain ⟨rest, hsees, rfl, hhead⟩ := hmore
    exact ⟨[], rest, .refl, hstops.cons hhead, by simp [hnode], hsees,
      fun hlead => absurd hlead hhead⟩
  | case3 node l after hl e last ha =>
    have hmore := hasks l items h
    rw [Comes, hl] at hmore
    obtain ⟨rest, hsees, hjoin⟩ := hmore
    have hmember := hreads after rest hsees
    rw [Comes, ha] at hmember
    exact hjoin.fails hmember
  | case4 node l after hl child last ha e hn =>
    rw [← hnode, happend] at hn
    contradiction
  | case5 node l after hl child last ha node' hn ih =>
    have hmore := hasks l items h
    rw [Comes, hl] at hmore
    obtain ⟨rest, hsees, hjoin⟩ := hmore
    have hmember := hreads after rest hsees
    rw [Comes, ha] at hmember
    obtain ⟨d, next, hread, hstops, rfl, hnext⟩ := hmember
    have hfirst := hjoin.trans hread
    rw [← hnode, happend] at hn
    have hrest := ih (held ++ [tree d]) hnext hstops (Except.ok.inj hn)
    cases hr : collectFrom more member ‹_› ‹_› node' last with
    | ok node final =>
      rw [hr] at hrest
      obtain ⟨ds, behind, hmany, hstops, rfl, hsees, -⟩ := hrest
      refine ⟨d :: ds, behind, hfirst.trans hmany, hstops, ?_, hsees, fun _ => by simp⟩
      rw [List.append_assoc]
      rfl
    | error e final =>
      rw [hr] at hrest
      exact hfirst.fails hrest

/-- Members of a level, with the node that holds them if there are several. -/
def level (lead : Kind) (more : Parser σ Bool) (member : Parser σ Filter)
    (hmore : ∀ l, Ends more l fun _ after => after.size ≤ l.size)
    (hmember : ∀ l, Ends member l fun _ after => after.size < l.size)
    (wrap : List Filter → Filter) : Parser σ Filter := do
  let first ← member
  if (← peekKind) = lead then collect more member hmore hmember (wrap [first])
  else return first

theorem reads_level (hmore : ∀ l, Ends more l fun _ after => after.size ≤ l.size)
    (hmember : ∀ l, Ends member l fun _ after => after.size < l.size)
    (hasks : Asks ending more lead separator)
    (hreads : Reads ending member .filter .whole kinds tokens tree)
    (happend : ∀ held child, (wrap held).append child = .ok (wrap (held ++ [child]))) :
    Reads ending (level lead more member hmore hmember wrap) .filter .whole (lead :: kinds)
      (Level.spell separator tokens) (Level.hold wrap tree) := by
  intro l items h
  apply hreads.bind h
  intro d rest after hfirst hstops hsees
  refine .bind <| comes_peekKind hsees (.ranOut (by decide))
    fun item tail peeked hitems hsees => ?_
  split
  · next hkind =>
    apply (comes_collect hasks hreads happend [tree d] hsees hstops).mono
    intro node after hmembers
    obtain ⟨ds, last, hmany, hstops, hheld, hsees, hlead⟩ := hmembers
    refine ⟨⟨d, ds⟩, last, hfirst.trans hmany, hstops, ?_, hsees⟩
    cases ds with
    | nil => exact absurd rfl (hlead (by rw [hitems, ← hkind]; rfl))
    | cons next ds => exact hheld
  · next hkind =>
    refine .pure ⟨⟨d, []⟩, rest, hfirst.trans .refl, hstops.cons fun hhead => hkind ?_, rfl, hsees⟩
    rw [hitems] at hhead
    exact Option.some.inj hhead

end levels

/-! ### The whole grammar -/

theorem reads_chain :
    Reads ending (chain (σ := σ)) .filter .whole [.period] Chain.tokens Chain.tree :=
  reads_level ends_another ends_filter asks_another reads_filter
    fun _ _ => rfl

theorem reads_union :
    Reads ending (union (σ := σ)) .filter .whole [.comma, .period] Union.tokens Union.tree :=
  reads_level (ends_more .comma) ends_chain (asks_accept (.inl rfl))
    reads_chain fun _ _ => rfl

theorem reads_pipe :
    Reads ending (pipe (σ := σ)) .filter .whole [.pipe, .comma, .period] Pipe.tokens Pipe.tree :=
  reads_level (ends_more .pipe) ends_union (asks_accept (.inr rfl))
    reads_union fun _ _ => rfl

/-- A whole expression is a sentence, and what comes after it is left to be read, or its
fault is reported. -/
theorem comes_start {l : Lookahead σ} (h : l.Sees ending items) :
    Comes start l
      (fun q after => ∃ d : Pipe, ∃ rest, Stretch ending .filter .over items rest d.sentence ∧
        q = ⟨[d.tree]⟩ ∧ Lists after.stream rest ending)
      (Fails ending .filter items) := by
  apply reads_pipe.bind h
  intro d rest after hread hstops hsees
  refine .bind <| comes_expect hsees (.ranOut (by decide))
    (fun item tail _ hitems hkind htail _ => ?_) fun item tail _ hitems hkind htail => ?_
  · have htoken := token_of_kind .endOfInput hkind (by decide) (by decide) (by decide)
    subst hitems
    exact .pure ⟨d, tail, hread.trans (.item htoken rfl), rfl, htail⟩
  · subst hitems
    refine .refused (by decide) ?_ htail rfl
    have hne : ∀ token : Token, token.kind ∈ [Kind.pipe, .comma, .period] → item.token ≠ token :=
      fun token hmem htoken => hstops _ hmem (congrArg (some ∘ Token.kind) htoken)
    cases htoken : item.token with
    | endOfInput => exact absurd (congrArg Token.kind htoken) hkind
    | period => exact absurd htoken (hne .period (by decide))
    | comma => exact absurd htoken (hne .comma (by decide))
    | pipe => exact absurd htoken (hne .pipe (by decide))
    | _ => rfl

end PathFilter.Parser
