import PathFilter.Journal
import PathFilter.Proofs.Lexer.Tour

/-! What the drivers leave in the logs.

Both drivers run the same states, so what they record is the path of one run. A lexer on its
own records in addition where its run came to an end (`traces_agree`).

The drivers differ in how far they have gone when a stream is given up. A lexer that is
driven by its reader runs a whole state at a time: `OnDemand.forecast` is what it will have
recorded when so many items are taken, and a move does not change it. A lexer on its own
waits with the next item, which is then refused (`take_leave`). -/
namespace PathFilter
open Lexer

/-! ### The lines of the log -/

theorem line_finished (offset : Nat) : (Entry.lexer (.finished offset)).line =
    s!"TRACE lexer: run finished at byte offset {offset}" := by
  show "TRACE" ++ " " ++ ("lexer: run finished at byte offset " ++ toString offset) = _
  rw [← String.append_assoc]
  rfl

theorem line_illegal (cause : LexError) : (Entry.lexer (.illegal cause)).line =
    s!"DEBUG lexer: illegal input: {cause.message}" := by
  show "DEBUG" ++ " " ++ ("lexer: illegal input: " ++ cause.message) = _
  rw [← String.append_assoc]
  rfl

theorem line_aborted (state : State) : (Entry.lexer (.aborted state)).line =
    s!"DEBUG lexer: {state.label} aborted" := by
  cases state <;> rfl

/-! ### Enough items -/

/-- To take more items than there are is to take all of them. -/
theorem Tokens.HandsOver.take_eq_drain {s : Tokens} {items : List Item} (h : HandsOver s items)
    {n : Nat} (hn : items.length < n) : s.take none n = s.drain none := by
  induction h generalizing n with
  | @item s after item items moved shown rest ih =>
    cases n with
    | zero => contradiction
    | succ n =>
      have hnext := next_of_moved moved shown
      rw [take, hnext, drain_of_some hnext, ← ih (Nat.lt_of_succ_lt_succ hn)]
  | @last s after refused again =>
    cases n with
    | zero => contradiction
    | succ n =>
      have hnext := next_of_refused refused
      rw [take, hnext, drain_of_none hnext]

/-! ### A lexer that waits -/

/-- A lexer that was played up to an offer is left with its next item. -/
theorem Rendezvous.take_leave (d : Dialogue Unit) (n : Nat) (s : Rendezvous)
    (before : List Record) (hlexer : s.lexer = d.settle.2)
    (hrecords : s.records.toList = before ++ d.settle.1) : ∃ t,
      ((Tokens.threaded s).take none n).2.close = .threaded t ∧ t.lexer = (d.leave n).2 ∧
        t.records.toList = before ++ (d.leave n).1 := by
  induction d generalizing n s before with
  | done a =>
    have htake : ((Tokens.threaded s).take none n).2 = .threaded s := by
      cases n with
      | zero => rfl
      | succ n =>
        simp [Tokens.take, Tokens.next, Tokens.advance, advance, offered, hlexer, Dialogue.settle]
    refine ⟨s, ?_, hlexer, hrecords⟩
    rw [htake, Tokens.close, close, reply, hlexer]
    rfl
  | note record rest ih =>
    have h := ih n s (before ++ [record]) hlexer (by simpa [Dialogue.settle] using hrecords)
    simpa [Dialogue.leave] using h
  | offer item answer ih =>
    cases n with
    | zero =>
      refine ⟨s.close, rfl, ?_, ?_⟩
      · rw [close, reply, hlexer]
        rfl
      · rw [close, reply, hlexer]
        simpa [Dialogue.settle, Dialogue.leave] using hrecords
    | succ n =>
      -- the item is taken, and the lexer goes on to the next one
      have hmoved : (Tokens.threaded s).advance none none =
          (true, .threaded {s.reply true with current := some item}) := by
        simp [Tokens.advance, advance, offered, hlexer, Dialogue.settle]
      have hreply : s.reply true = {s with
          lexer := (answer true).settle.2
          records := s.records ++ (answer true).settle.1} := by
        rw [reply, hlexer]
        rfl
      obtain ⟨t, htake, hdialogue, hafter⟩ := ih true n
        {s.reply true with current := some item} before (by rw [hreply]) (by
          rw [hreply]
          simpa [Dialogue.settle] using hrecords)
      refine ⟨t, ?_, hdialogue, hafter⟩
      rw [Tokens.take, Tokens.next_of_moved hmoved rfl]
      exact htake

/-! ### A lexer that is run on demand -/

namespace OnDemand
variable {s after : OnDemand}

/-- The visits that are still to be made. -/
def ahead (s : OnDemand) : List Visit := visitsAfter (s.next, s.reader)

/-- What will be on record when so many items are taken. -/
def forecast (n : Nat) (s : OnDemand) : List Record :=
  s.records.toList ++ (upTo (n - s.queue.length) s.ahead).flatMap Visit.records

/-- To run a state, as is done when an item is wanted and none is left, changes nothing of what
will be on record. -/
theorem forecast_work {state : State} (n : Nat) (h : s.next = some state) (hqueue : s.queue = []) :
    (s.work none state).forecast (n + 1) = s.forecast (n + 1) := by
  have hahead : s.ahead =
      ⟨state, s.reader⟩ :: visitsAfter (Visit.mk state s.reader).heard.result := by
    rw [ahead, h]
    exact visits_eq state s.reader
  rw [forecast, forecast, hahead, hqueue, List.length_nil, Nat.sub_zero, upTo, List.flatMap_cons,
    ← List.append_assoc]
  simp only [work, hqueue, List.nil_append, Array.toList_appendList]
  rfl

/-- A move takes one of the items, and what will be on record stays the same. -/
theorem forecast_advance (n : Nat) (s : OnDemand) :
    match s.advance none none with
    | (true, after) => s.forecast (n + 1) = after.forecast n
    | (false, after) => s.forecast (n + 1) = after.records.toList := by
  fun_induction advance none none s with
  | case1 s h => contradiction
  | case2 s _ item rest hqueue =>
    rw [forecast, hqueue, List.length_cons, Nat.add_sub_add_right]
    rfl
  | case3 s _ hqueue hnext =>
    rw [forecast, ahead, hnext, visitsAfter, upTo_nil]
    exact List.append_nil _
  | case4 s _ hqueue state hnext ih =>
    rw [forecast_work n hnext hqueue] at ih
    exact ih

/-- What is on record when so many items were taken. -/
theorem records_take (n : Nat) (s : OnDemand) : ∃ t,
    ((Tokens.inline s).take none n).2 = .inline t ∧ t.records.toList = s.forecast n := by
  induction n generalizing s with
  | zero =>
    refine ⟨s, rfl, ?_⟩
    rw [forecast, Nat.zero_sub, upTo]
    exact (List.append_nil _).symm
  | succ n ih =>
    have hforecast := s.forecast_advance n
    have hspec := s.advance_spec none none
    cases hmove : s.advance none none with
    | mk moved after =>
      rw [hmove] at hforecast hspec
      have hmoved : (Tokens.inline s).advance none none = (moved, .inline after) := by
        simp only [Tokens.advance, hmove]
      cases moved with
      | false =>
        rw [Tokens.take, Tokens.next_of_refused hmoved]
        exact ⟨after, rfl, hforecast.symm⟩
      | true =>
        obtain ⟨item, hcurrent, -⟩ := hspec
        rw [Tokens.take, Tokens.next_of_moved hmoved hcurrent, hforecast]
        exact ih after

end OnDemand

/-! ### Whole sources -/

/-- What stands in the log of a caller before a source is opened. -/
def announcements (contexts : Contexts) : List Entry :=
  contexts.announced.map fun _ => Entry.canceled

/-- The lines of a path. -/
def logged (path : List Visit) : List Entry := (path.flatMap Visit.records).map Entry.lexer

theorem logged_append (a b : List Visit) : logged (a ++ b) = logged a ++ logged b := by
  simp [logged]

theorem exists_logged_cons (v : Visit) (path : List Visit) :
    ∃ more, logged (v :: path) = .lexer v.entry :: more := by
  obtain ⟨more, hrecords⟩ := v.exists_records
  exact ⟨_, by rw [logged, List.flatMap_cons, hrecords]; rfl⟩

section
variable {contexts : Contexts} {context : Context} {source : ByteArray}
  (live : contexts.stop? context = none)
include live

theorem journal_inline_take (n : Nat) :
    journal .inline contexts context source (.take n) =
      ⟨announcements contexts ++ logged (upTo n (tour source)), []⟩ := by
  obtain ⟨t, htake, hrecords⟩ := OnDemand.records_take n (.ofSource source)
  have hforecast : (OnDemand.ofSource source).forecast n =
      (upTo n (tour source)).flatMap Visit.records := rfl
  simp only [journal, live, Tokens.consume, Tokens.ofSource, htake, Tokens.close, Tokens.records,
    hrecords, hforecast]
  simp [announcements, logged]

theorem journal_threaded_take (n : Nat) :
    journal .threaded contexts context source (.take n) =
      ⟨announcements contexts,
        ((run .expression (.ofBytes source)).leave n).1.map Entry.lexer⟩ := by
  obtain ⟨t, htake, -, hrecords⟩ := Rendezvous.take_leave (run .expression (.ofBytes source)) n
    (.start none source) [] rfl (by simp [Rendezvous.start, session])
  rw [List.nil_append] at hrecords
  simp only [journal, live, Tokens.consume, Tokens.ofSource, htake, Tokens.records, hrecords]
  simp [announcements]

/-- If the next item is a fault, or if there is none, the run is whole. -/
theorem journal_threaded_take_of_illegal {n : Nat}
    (h : ∀ item, (lex .threaded none source)[n]? = some item → item.kind = .illegal) :
    journal .threaded contexts context source (.take n) = ⟨announcements contexts,
      ((run .expression (.ofBytes source)).listen true).records.map Entry.lexer⟩ := by
  rw [lex_eq_itemsFrom] at h
  rw [journal_threaded_take live, leave_run_of_illegal h]

/-- To consume a source to its end is to take more items than there are. -/
theorem journal_all (driver : Driver) {n : Nat} (h : (lex driver none source).length < n) :
    journal driver contexts context source .all =
      journal driver contexts context source (.take n) := by
  rw [lex_eq_itemsFrom] at h
  have htake := (Tokens.handsOver_ofSource driver source).take_eq_drain h
  simp only [journal, live, Tokens.consume, htake]

theorem journal_threaded_all : journal .threaded contexts context source .all =
    ⟨announcements contexts,
      ((run .expression (.ofBytes source)).listen true).records.map Entry.lexer⟩ := by
  rw [journal_all live .threaded (Nat.lt_succ_self _)]
  refine journal_threaded_take_of_illegal live fun item hitem => ?_
  rw [List.getElem?_eq_none (Nat.le_succ _)] at hitem
  contradiction

/-- The log of a whole run. -/
theorem exists_journal_all (source : ByteArray) : ∃ fault stop,
    logged (tour source) =
      ((tour source).map Visit.entry ++ fault.toList.map Record.illegal).map Entry.lexer ∧
    (∀ driver, (lex driver none source).getLast? = some ⟨terminal fault, .empty stop⟩) ∧
    journal .inline contexts context source .all =
      ⟨announcements contexts ++ logged (tour source), []⟩ ∧
    journal .threaded contexts context source .all =
      ⟨announcements contexts, logged (tour source) ++ [.lexer (.finished stop)]⟩ := by
  obtain ⟨fault, stop, hentries, hrecords, hlast⟩ := exists_ending .expression (.ofBytes source)
  have hlength : (lex .inline none source).length = offers (tour source) := by
    rw [lex_eq_itemsFrom, itemsFrom_eq_flatMap]
    rfl
  refine ⟨fault, stop, ?_, ?_, ?_, ?_⟩
  · rw [logged, tour, hentries]
  · intro driver
    rw [lex_eq_itemsFrom]
    exact hlast
  · rw [journal_all live .inline (Nat.lt_succ_self _), journal_inline_take live, hlength,
      upTo_of_lt (Nat.lt_succ_self _)]
  · rw [journal_threaded_all live, hrecords, List.map_append]
    rfl

/-- **The logs of the drivers agree.** If a source is consumed to its end, what the caller
finds in the log with a lexer that it drives is what a lexer on its own has recorded, but for
the last record of the latter, which tells where the terminal item is. It is the path of the
run: the states that were entered, from the start of an expression at offset 0 on, at offsets
that never go back and never pass the end of the source; and then, exactly if the last item
is a fault, that fault. -/
theorem traces_agree (source : ByteArray) : ∃ fault stop trace,
    trace = (tour source).map Visit.entry ++ fault.toList.map Record.illegal ∧
    journal .inline contexts context source .all =
      ⟨announcements contexts ++ trace.map Entry.lexer, []⟩ ∧
    journal .threaded contexts context source .all =
      ⟨announcements contexts, (trace ++ [Record.finished stop]).map Entry.lexer⟩ ∧
    (∀ driver, (lex driver none source).getLast? = some ⟨terminal fault, .empty stop⟩) ∧
    ((tour source).map Visit.entry).head? = some (.entered .expression 0) ∧
    ((tour source).map fun v => v.reader.offset).IsChain (· ≤ ·) ∧
    (∀ v ∈ tour source, v.reader.offset ≤ source.size) ∧
    (Entry.lexer (.finished stop)).line = s!"TRACE lexer: run finished at byte offset {stop}" ∧
    ∀ cause, (Entry.lexer (.illegal cause)).line =
      s!"DEBUG lexer: illegal input: {cause.message}" := by
  obtain ⟨fault, stop, hlogged, hlast, hinline, hthreaded⟩ := exists_journal_all live source
  have hstart : Reached source .expression (.ofBytes source) := .start
  obtain ⟨hreached, hchain⟩ := reached_visits hstart
  refine ⟨fault, stop, _, rfl, ?_, ?_, hlast, ?_, ?_, ?_, ?_, ?_⟩
  · rw [← hlogged, hinline]
  · rw [List.map_append, ← hlogged, hthreaded]
    rfl
  · rw [tour, visits_eq]
    rfl
  · refine List.isChain_map_of_isChain _ (fun v w hfurther => ?_) hchain
    obtain ⟨text, hpast⟩ := hfurther.past
    exact hpast.offset_le
  · intro v hv
    have hentered := (hreached v hv).entered
    have hle := hentered.offset_le
    rwa [hentered.further.source] at hle
  · exact line_finished stop
  · exact line_illegal

omit live in
/-- A bare name, under a context that is never done. -/
theorem traces_agree_of_background :
    Contexts.empty.background.2.stop? Contexts.empty.background.1 = none ∧ ∃ stop,
      (journal .threaded Contexts.empty.background.2 Contexts.empty.background.1 ".a".toUTF8
        .all).lexer = (journal .inline Contexts.empty.background.2 Contexts.empty.background.1
          ".a".toUTF8 .all).caller ++ [.lexer (.finished stop)] := by
  have live : Contexts.empty.background.2.stop? Contexts.empty.background.1 = none := rfl
  obtain ⟨fault, stop, trace, -, hinline, hthreaded, -⟩ := traces_agree live ".a".toUTF8
  refine ⟨live, stop, ?_⟩
  rw [hthreaded, hinline, List.map_append]
  rfl

/-- **A stream that is given up was read no further than needed.** After so many items:

* with a lexer that the caller drives, the log is that of the whole run, cut in front of the
  state that follows the one that offered the last of them;
* with a lexer on its own, if the next item is there and is no fault, it was refused: the log
  is that of the whole run up to the entry of the state that tries to offer it, and then tells
  that the state gave up and that the run came to an end where the item ends. Otherwise the
  log is that of the whole run.

The lexer offers nothing after that, and in no state it does anything behind a refused item. -/
theorem traces_of_take (source : ByteArray) (n : Nat) :
    (∃ stop, journal .inline contexts context source .all =
        ⟨announcements contexts ++ logged (tour source), []⟩ ∧
      journal .threaded contexts context source .all =
        ⟨announcements contexts, logged (tour source) ++ [.lexer (.finished stop)]⟩) ∧
    (∃ made rest, tour source = made ++ rest ∧ CutAt (tour source) n made ∧
      journal .inline contexts context source (.take n) =
        ⟨announcements contexts ++ logged made, []⟩) ∧
    (∀ item, (lex .threaded none source)[n]? = some item → item.kind ≠ .illegal →
      ∃ earlier v rest more, tour source = earlier ++ v :: rest ∧
        offers earlier ≤ n ∧ n < offers (earlier ++ [v]) ∧
        logged (tour source) = logged earlier ++ .lexer v.entry :: more ∧
        journal .threaded contexts context source (.take n) =
          ⟨announcements contexts, logged earlier ++ [.lexer v.entry, .lexer (.aborted v.state),
            .lexer (.finished item.span.stop)]⟩) ∧
    ((∀ item, (lex .threaded none source)[n]? = some item → item.kind = .illegal) →
      journal .threaded contexts context source (.take n) =
        journal .threaded contexts context source .all) ∧
    (∃ stream, ((Tokens.ofSource .threaded none source).take none n).2.close = .threaded stream ∧
      stream.lexer = .done ()) ∧
    (∀ v ∈ tour source, (body v.state).observe.Follows (body v.state).run ∧
      ((body v.state).observe ⟨v.state, false⟩ v.reader []).Always fun (_, _, acts) =>
        ∀ later act before, acts = later ++ act :: before → act.refused = true → later = []) ∧
    (∀ state : State, (Entry.lexer (.aborted state)).line =
      s!"DEBUG lexer: {state.label} aborted") ∧
    ∀ offset, (Entry.lexer (.finished offset)).line =
      s!"TRACE lexer: run finished at byte offset {offset}" := by
  obtain ⟨fault, stop, -, -, hinline, hthreaded⟩ := exists_journal_all live source
  have hstart : Reached source .expression (.ofBytes source) := .start
  refine ⟨⟨stop, hinline, hthreaded⟩, ?_, ?_, ?_, ?_, ?_, line_aborted, line_finished⟩
  · obtain ⟨rest, hpath, -⟩ := upTo_append n (tour source)
    exact ⟨_, rest, hpath, cutAt_upTo n _, journal_inline_take live n⟩
  · intro item hitem hkind
    rw [lex_eq_itemsFrom] at hitem
    obtain ⟨earlier, v, rest, hpath, hle, hgt, hleave⟩ := leave_run hitem hkind
    obtain ⟨more, hmore⟩ := exists_logged_cons v rest
    refine ⟨earlier, v, rest, more, hpath, hle, hgt, ?_, ?_⟩
    · rw [tour, hpath, logged_append, hmore]
    · rw [journal_threaded_take live, hleave, List.map_append]
      rfl
  · intro h
    rw [journal_threaded_take_of_illegal live h, journal_threaded_all live]
  · obtain ⟨t, htake, hlexer, -⟩ := Rendezvous.take_leave (run .expression (.ofBytes source)) n
      (.start none source) [] rfl (by simp [Rendezvous.start, session])
    exact ⟨t, htake, hlexer.trans (leave_run_snd _ _ n)⟩
  · intro v hv
    have hentered := ((reached_visits hstart).1 v hv).entered
    refine ⟨(body v.state).follows_observe, hentered.acts.mono ?_⟩
    rintro ⟨outcome, after, acts⟩ ⟨hflawless, -⟩ later act before rfl hact
    exact hflawless.latest_of_refused hact

omit live in
/-- A lexer whose second item, a bare name, is refused. -/
theorem traces_of_take_of_background :
    Contexts.empty.background.2.stop? Contexts.empty.background.1 = none ∧
      ∃ (earlier : List Visit) (v : Visit),
      journal .threaded Contexts.empty.background.2 Contexts.empty.background.1 ".a".toUTF8
        (.take 1) = ⟨[], logged earlier ++ [.lexer v.entry, .lexer (.aborted v.state),
          .lexer (.finished 2)]⟩ := by
  have live : Contexts.empty.background.2.stop? Contexts.empty.background.1 = none := rfl
  obtain ⟨-, -, hrefused, -⟩ := traces_of_take live ".a".toUTF8 1
  obtain ⟨earlier, v, -, -, -, -, -, -, hjournal⟩ :=
    hrefused ⟨.name "a", 1, 2⟩ (by decide +kernel) (by decide)
  exact ⟨live, earlier, v, hjournal⟩

omit live in
example : (journal .threaded Contexts.empty.background.2 Contexts.empty.background.1 ".a".toUTF8
    (.take 1)).lexer.map Entry.line =
      ["TRACE lexer: expression-start at byte offset 0",
        "TRACE lexer: filter-start at byte offset 0",
        "TRACE lexer: ident-field at byte offset 1", "DEBUG lexer: ident-field aborted",
        "TRACE lexer: run finished at byte offset 2"] := by decide +kernel

end
end PathFilter
