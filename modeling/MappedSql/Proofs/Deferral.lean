import MappedSql.Proofs.Recordings
import MappedSql.Proofs.Twins
import MappedSql.Proofs.Watching

/-!
# Deferred updates

The same calls of a session on two scripted drivers, whose executors send updates one at a time
or in batches. As long as nothing is rolled back and the calls end with a commit, both drivers
execute the same updates with the same values in the same order and get the same queries, and
the selects of both sessions show the same. The batches that wait are executed before any query
is: whatever a query is to see has happened.
-/

namespace MappedSql

-- ---------------------------------------------------------------------------
-- Effects on scripted drivers
-- ---------------------------------------------------------------------------

/-- The updates and queries that a driver has executed, with their values. -/
structure Effects where
  executed : List (String × List Value) := []
  queries : List (String × List Value) := []

namespace Effects

def engine (results : Keyed String ResultSet) : Engine Effects where
  update x sql values := { x with executed := x.executed ++ [(sql, values)] }
  batch x sql batch := { x with executed := x.executed ++ batch.map fun values => (sql, values) }
  answer _ sql _ := (Keyed.get? results sql).getD {}
  asked x sql values := { x with queries := x.queries ++ [(sql, values)] }
  commit x := x
  rollback x := x

theorem engine_folds (results : Keyed String ResultSet) : (engine results).Folds := by
  intro x sql batch
  induction batch generalizing x with
  | nil => simp [engine]
  | cons values rest ih =>
    rw [List.foldl_cons, ← ih]
    simp [engine]

def ofBatches (batches : List (String × List (List Value))) : List (String × List Value) :=
  batches.flatMap fun batch => batch.2.map fun values => (batch.1, values)

def ofRecords : ExecutorType → Records → Effects
  | .batch, r => { executed := ofBatches r.batches, queries := r.queries }
  | .simple, r | .reuse, r => { executed := r.updates, queries := r.queries }

end Effects

def Script.station (results : Keyed String ResultSet) (type : ExecutorType) :
    Station (Seen Effects) (Watched Recording) where
  driver := { results : Script }.driver.watched
  Rep := Desk.Watches (Recording.Lays (Effects.ofRecords type))
  type := type

theorem Script.station_serves (results : Keyed String ResultSet) (type : ExecutorType) :
    (station results type).Serves (Effects.engine results).watched := by
  have hanswers : { results : Script }.driver.Answers (Effects.engine results)
      (Recording.Lays (Effects.ofRecords type)) :=
    answers rfl (fun _ _ _ => rfl) (by cases type <;> exact fun _ _ _ => rfl) (fun _ => rfl)
      fun _ => rfl
  refine Driver.Serves.watched { hosts _ _, hanswers with updates := ?_, collects := ?_ }
  · intro ht
    refine updates rfl ?_
    cases type with
    | batch => exact absurd rfl ht
    | simple => exact fun _ _ _ => rfl
    | reuse => exact fun _ _ _ => rfl
  · rintro rfl
    refine collects nofun nofun fun r sql batch => ?_
    simp [Effects.engine, Effects.ofRecords, Effects.ofBatches]

-- ---------------------------------------------------------------------------
-- Runs of both kinds
-- ---------------------------------------------------------------------------

def Configuration.itemsOf (c : Configuration) (done : List (Call × Except Error Reply)) :
    List (Except Error Item) :=
  done.filterMap fun
    | (.update id argument, .ok _) => some (c.item id argument)
    | _ => none

/-- The same call, which shows the same when it is a select. -/
def Call.SameEnd (u v : Call × Except Error Reply) : Prop :=
  v.1 = u.1 ∧ (u.1.IsSelect → v.2 = u.2)

def Item.effect (i : Item) : String × List Value :=
  (i.sql, i.values)

theorem Configuration.itemsOf_concat (c : Configuration) (done : List (Call × Except Error Reply))
    (u : Call × Except Error Reply) :
    c.itemsOf (done ++ [u]) = c.itemsOf done ++ c.itemsOf [u] := by
  simp [itemsOf]

namespace Call.Changes

variable {c : Configuration} {call : Call} {r : Except Error Reply}

theorem updates_or_reads {δ : Type} {m : Engine δ} {x x' : δ} (h : call.Changes m c x x' r) :
    (∃ i, c.itemsOf [(call, r)] = [.ok i] ∧ x' = m.update x i.sql i.values) ∨
      c.itemsOf [(call, r)] = [] ∧ (m.Reads x x' ∨ x' = m.commit x) := by
  cases call with
  | update id argument =>
    cases r with
    | ok reply =>
      obtain ⟨i, hi, rfl⟩ := h
      exact .inl ⟨i, by simp [Configuration.itemsOf, hi], rfl⟩
    | error e => exact .inr ⟨rfl, .inl (.inl h)⟩
  | selectList id argument bounds => exact .inr ⟨rfl, .inl h⟩
  | selectOne id argument => exact .inr ⟨rfl, .inl h⟩
  | handOut id argument bounds enough => exact .inr ⟨rfl, .inl h⟩
  | commit force =>
    cases r with
    | ok reply => exact .inr ⟨rfl, h.imp_left .inl⟩
    | error e => exact .inr ⟨rfl, .inl (.inl h)⟩
  | flush => exact .inr ⟨rfl, .inl (.inl h)⟩
  | rollback force => exact .inr ⟨rfl, .inl (.inl h)⟩
  | clearCache => exact .inr ⟨rfl, .inl (.inl h)⟩
  | close => exact .inr ⟨rfl, .inl (.inl h)⟩
  | drop => exact .inr ⟨rfl, .inl (.inl h)⟩

variable {results : Keyed String ResultSet} {x x' : Seen Effects}

theorem executed (h : call.Changes (Effects.engine results).watched c x x' r) :
    ∃ items : List Item, c.itemsOf [(call, r)] = items.map .ok ∧
      x'.current.executed = x.current.executed ++ items.map (·.effect) := by
  rcases h.updates_or_reads with ⟨i, hi, rfl⟩ | ⟨hi, h⟩
  · exact ⟨[i], hi, rfl⟩
  · refine ⟨[], hi, ?_⟩
    rw [List.map_nil, List.append_nil]
    rcases h with (rfl | ⟨_, _, rfl⟩) | rfl <;> rfl

theorem seen (h : call.Changes (Effects.engine results).watched c x x' r) :
    ∃ new, x'.seen = x.seen ++ new ∧ ∀ y ∈ new, y = x.current := by
  rcases h.updates_or_reads with ⟨i, -, rfl⟩ | ⟨-, (rfl | ⟨_, _, rfl⟩) | rfl⟩
  · exact ⟨[], (List.append_nil _).symm, nofun⟩
  · exact ⟨[], (List.append_nil _).symm, nofun⟩
  · exact ⟨[x.current], rfl, by simp⟩
  · exact ⟨[], (List.append_nil _).symm, nofun⟩

end Call.Changes

namespace Deferral

variable (results : Keyed String ResultSet) (c : Configuration) (timeout : Option Timeout)
  (caches : Caches)

def runs (type : ExecutorType) (calls : List Call) :
    List (Call × Except Error Reply) × Session (Watched Recording) × World (Watched Recording) :=
  Action.inTurn Call.perform calls
    (Session.opened { results : Script }.driver.watched c timeout type
      { database := { state := default }, caches })

theorem runs_concat (type : ExecutorType) (calls : List Call) (call : Call) :
    runs results c timeout caches type (calls ++ [call]) =
      ((runs results c timeout caches type calls).1 ++
        [(call, (call.perform.outcome (runs results c timeout caches type calls).2).1)],
        (call.perform.outcome (runs results c timeout caches type calls).2).2) :=
  Action.inTurn_append ..

/-- Twin runs, on a database with all the updates that succeeded. -/
structure Met (x : Seen Effects) (calls : List Call) : Prop where
  twins : Session.Twins (Script.station results .simple) (Script.station results .batch)
    (Effects.engine results).watched c.Generator c x (runs results c timeout caches .simple calls).2
    (runs results c timeout caches .batch calls).2
  executed : ∃ items : List Item,
    c.itemsOf (runs results c timeout caches .batch calls).1 = items.map .ok ∧
      x.current.executed = items.map (·.effect)
  ends : List.Forall₂ Call.SameEnd (runs results c timeout caches .simple calls).1
    (runs results c timeout caches .batch calls).1

theorem met_nil : ∃ x, Met results c timeout caches x [] := by
  have hshows (type : ExecutorType) : Channel.Shows (Script.station results type).Rep
      { current := {} } { database := { state := default } } := by
    refine ⟨{ database := { current := {} } }, ⟨⟨?_, fun _ => rfl, nofun⟩, .nil⟩, rfl⟩
    cases type <;> rfl
  have hworks (type : ExecutorType) : Worker.Works (Script.station results type).driver
      (Effects.engine results).watched (Script.station results type).Rep c.Generator type c
      { current := {} } [] (Session.work (Session.opened (Script.station results type).driver c
        timeout type { database := { state := default }, caches })) :=
    Session.opened_works (hshows type) c timeout
  refine ⟨{ current := {} }, ⟨⟨⟨[], hworks .simple, hworks .batch⟩, ?_, rfl⟩, rfl⟩, ⟨[], rfl, rfl⟩,
    .nil⟩
  exact (Executor.start_overlays ..).trans (Executor.start_overlays ..).symm

variable {results c timeout caches}

theorem Met.next {x x' : Seen Effects} {calls : List Call} {call : Call}
    {r r' : Except Error Reply} {y : Session (Watched Recording) × World (Watched Recording)}
    {z : Session (Watched Recording) × World (Watched Recording)}
    (h : Met results c timeout caches x calls)
    (hy : call.perform.outcome (runs results c timeout caches .simple calls).2 = (r, y))
    (hz : call.perform.outcome (runs results c timeout caches .batch calls).2 = (r', z))
    (ht : Session.Twins (Script.station results .simple) (Script.station results .batch)
      (Effects.engine results).watched c.Generator c x' y z)
    (hsame : call.IsSelect → r' = r)
    (hc : call.Changes (Effects.engine results).watched c x x' r') :
    Met results c timeout caches x' (calls ++ [call]) := by
  obtain ⟨items, hi, hx⟩ := h.executed
  obtain ⟨new, hnew, hx'⟩ := hc.executed
  refine ⟨?_, ⟨items ++ new, ?_, ?_⟩, ?_⟩
  · rw [runs_concat, runs_concat, hy, hz]
    exact ht
  · rw [runs_concat, hz, c.itemsOf_concat, hi, hnew, List.map_append]
  · rw [hx', hx, List.map_append]
  · rw [runs_concat, runs_concat, hy, hz]
    exact List.rel_append h.ends (.cons ⟨rfl, hsame⟩ .nil)

theorem Met.step {x : Seen Effects} {calls : List Call} {call : Call}
    (h : Met results c timeout caches x calls) (hcall : call.Proceeds)
    (hs : KeysGenerated c.Generator
      (runs results c timeout caches .simple (calls ++ [call])).2.2.journal)
    (hb : KeysGenerated c.Generator
      (runs results c timeout caches .batch (calls ++ [call])).2.2.journal) :
    ∃ x' r, Met results c timeout caches x' (calls ++ [call]) ∧
      call.Changes (Effects.engine results).watched c x x' r := by
  have ht := Call.perform_twins (Script.station_serves results .simple)
    (Script.station_serves results .batch) (Effects.engine_folds results).watched h.twins call hcall
  rw [runs_concat] at hs hb
  unfold Session.TwinCalls TwinOn Twin at ht
  -- Where only one of them fails, or they fail differently, a key generator has failed.
  rcases hy : call.perform.outcome (runs results c timeout caches .simple calls).2 with ⟨r, y⟩
  rcases hz : call.perform.outcome (runs results c timeout caches .batch calls).2 with ⟨r', z⟩
  rw [hy] at ht hs
  rw [hz] at ht hb
  cases r with
  | ok reply =>
    cases r' with
    | ok reply' =>
      obtain ⟨x', ⟨hagree, hc⟩, ht⟩ := ht
      have hc' : call.Changes (Effects.engine results).watched c x x' (.ok reply') := by
        cases call <;> exact hc
      exact ⟨x', _, h.next hy hz ht (fun hsel => congrArg _ (hagree hsel)) hc', hc'⟩
    | error e => exact absurd hb ht
  | error e =>
    cases r' with
    | ok reply' => exact absurd hs ht
    | error e' =>
      rcases ht with ⟨rfl, x', hc, ht⟩ | hl | hl
      · exact ⟨x', _, h.next hy hz ht (fun _ => rfl) hc, hc⟩
      · exact absurd hs hl
      · exact absurd hb hl

theorem runs_notes (type : ExecutorType) {before calls : List Call} (hp : before <+: calls) :
    (runs results c timeout caches type before).2.2.journal <+:
      (runs results c timeout caches type calls).2.2.journal := by
  obtain ⟨after, rfl⟩ := hp
  unfold runs
  rw [Action.inTurn_append]
  exact Action.Respects.inTurn (R := Order.Preimage (fun z : Session _ × World _ => z.2.journal)
    (· <+: ·)) Call.perform_notes after _

theorem met {calls : List Call} (hcalls : ∀ call ∈ calls, call.Proceeds)
    (hs : KeysGenerated c.Generator (runs results c timeout caches .simple calls).2.2.journal)
    (hb : KeysGenerated c.Generator (runs results c timeout caches .batch calls).2.2.journal) :
    ∃ x, Met results c timeout caches x calls := by
  -- On the calls from the last one. Those before it have noted less in the journal, so their key
  -- generators did not fail either.
  induction calls using List.reverseRecOn with
  | nil => exact met_nil results c timeout caches
  | append_singleton before call ih =>
    have hp := List.prefix_append before [call]
    obtain ⟨x, h⟩ := ih (fun other hm => hcalls other (List.mem_append_left _ hm))
      (hs.of_prefix (runs_notes .simple hp)) (hb.of_prefix (runs_notes .batch hp))
    obtain ⟨x', -, h', -⟩ := h.step (hcalls call (by simp)) hs hb
    exact ⟨x', h'⟩

theorem Met.works_simple {x : Seen Effects} {calls : List Call}
    (h : Met results c timeout caches x calls) :
    ∃ l, Worker.Works (Script.station results .simple).driver (Effects.engine results).watched
      (Script.station results .simple).Rep c.Generator .simple c x l
      (Session.work (runs results c timeout caches .simple calls).2) := by
  obtain ⟨l, hw, -⟩ := h.twins.executors.works
  exact ⟨l, hw⟩

theorem Met.works_batch {x : Seen Effects} {calls : List Call}
    (h : Met results c timeout caches x calls) :
    ∃ l, Worker.Works (Script.station results .batch).driver (Effects.engine results).watched
      (Script.station results .batch).Rep c.Generator .batch c x l
      (Session.work (runs results c timeout caches .batch calls).2) := by
  obtain ⟨l, -, hw⟩ := h.twins.executors.works
  exact ⟨l, hw⟩

theorem Met.commit_idles {x : Seen Effects} {calls : List Call}
    (h : Met results c timeout caches x calls) (force : Bool) :
    Worker.Idle (Session.work
      (runs results c timeout caches .batch (calls ++ [.commit force])).2) := by
  obtain ⟨_, hw⟩ := h.works_batch
  rw [runs_concat]
  refine Strategy.queue_of_held ?_
  exact ((Call.perform_commit_letsGo (Driver.keeps_sees _).strategy hw.driver force).mono
    (fun _ _ hl => hl.held hw.isOpen) fun _ _ hl => hl.held hw.isOpen).state

theorem records_eq (type : ExecutorType) {x : Seen Effects} {channel : Channel (Watched Recording)}
    (h : channel.Shows (Script.station results type).Rep x) :
    x.current = Effects.ofRecords type channel.database.state.records := by
  obtain ⟨D, hr, rfl⟩ := h
  exact hr.current.database

theorem Met.sees {x x' : Seen Effects} {calls : List Call} {call : Call} {r : Except Error Reply}
    (h : Met results c timeout caches x calls)
    (h' : Met results c timeout caches x' (calls ++ [call]))
    (hc : call.Changes (Effects.engine results).watched c x x' r) :
    ∃ new, (runs results c timeout caches .batch (calls ++ [call])).2.2.database.seen =
        (runs results c timeout caches .batch calls).2.2.database.seen ++ new ∧
      ∀ r ∈ new, Effects.ofBatches r.batches = x.current.executed := by
  obtain ⟨l, hw⟩ := h.works_batch
  obtain ⟨l', hw'⟩ := h'.works_batch
  have hseen : (runs results c timeout caches .batch calls).2.2.database.seen <+:
      (runs results c timeout caches .batch (calls ++ [call])).2.2.database.seen := by
    rw [runs_concat]
    exact (((Call.perform_moves (Driver.keeps_sees _).strategy hw.driver call).mono
      (fun _ _ hm => hm.strategy.2) fun _ _ hm => hm.strategy.2).state)
  obtain ⟨new, hnew⟩ := hseen
  obtain ⟨asked, hasked, hcurrent⟩ := hc.seen
  have hold : List.Forall₂ _ x.seen
      (runs results c timeout caches .batch calls).2.2.database.seen :=
    hw.shows.seen
  have hall : List.Forall₂ _ x'.seen
      (runs results c timeout caches .batch (calls ++ [call])).2.2.database.seen := hw'.shows.seen
  -- What was seen before the call is the same in both lists, so the rest of one shows the other.
  rw [hasked, ← hnew] at hall
  have hlater := List.forall₂_drop_append _ _ _ hall
  rw [← hold.length_eq, List.drop_left] at hlater
  refine ⟨new, hnew.symm, hlater.forall_right fun y hy r ⟨D, hD, he⟩ => ?_⟩
  rw [← hcurrent y hy, ← he, hD.database]
  rfl

/-- The batches of a session that executes its updates in batches have, item for item, the SQL and
the values of the updates that a session executes one at a time; both get the same queries, and
their selects show the same. With batches, whatever a query sees has all the updates that
succeeded before its call. -/
theorem batches_execute_single_updates (results : Keyed String ResultSet) (c : Configuration)
    (timeout : Option Timeout) (caches : Caches) (calls : List Call) (force : Bool)
    (hcalls : ∀ call ∈ calls, call.Proceeds)
    (hsimple : KeysGenerated c.Generator
      (runs results c timeout caches .simple (calls ++ [.commit force])).2.2.journal)
    (hbatch : KeysGenerated c.Generator
      (runs results c timeout caches .batch (calls ++ [.commit force])).2.2.journal) :
    let simple := runs results c timeout caches .simple (calls ++ [.commit force])
    let batch := runs results c timeout caches .batch (calls ++ [.commit force])
    Effects.ofBatches batch.2.2.database.state.batches = simple.2.2.database.state.updates ∧
      batch.2.2.database.state.queries = simple.2.2.database.state.queries ∧
      List.Forall₂ Call.SameEnd simple.1 batch.1 ∧
      ∀ before call, before ++ [call] <+: calls ++ [.commit force] →
        ∃ (items : List Item) (new : List Recording),
          c.itemsOf (runs results c timeout caches .batch before).1 = items.map .ok ∧
          (runs results c timeout caches .batch (before ++ [call])).2.2.database.seen =
            (runs results c timeout caches .batch before).2.2.database.seen ++ new ∧
          ∀ r ∈ new, Effects.ofBatches r.batches = items.map (·.effect) := by
  intro simple batch
  have hproceeds : ∀ call ∈ calls ++ [.commit force], call.Proceeds := by
    simpa [or_imp, forall_and] using ⟨hcalls, trivial⟩
  have hmet (before : List Call) (hp : before <+: calls ++ [.commit force]) :
      ∃ x, Met results c timeout caches x before :=
    met (fun call hm => hproceeds call (hp.subset hm))
      (hsimple.of_prefix (runs_notes .simple hp)) (hbatch.of_prefix (runs_notes .batch hp))
  obtain ⟨x, h⟩ := hmet _ (List.prefix_refl _)
  have hrecords : Effects.ofRecords .batch batch.2.2.database.state.records =
      Effects.ofRecords .simple simple.2.2.database.state.records := by
    obtain ⟨_, hs⟩ := h.works_simple
    obtain ⟨_, hb⟩ := h.works_batch
    obtain ⟨_, h₀⟩ := hmet calls (List.prefix_append ..)
    exact (records_eq .batch (hb.shows.database (h₀.commit_idles force))).symm.trans
      (records_eq .simple (hs.shows.database hs.shows.simple_queue))
  refine ⟨congrArg Effects.executed hrecords, congrArg Effects.queries hrecords, h.ends,
    fun before call hp => ?_⟩
  · obtain ⟨x, h⟩ := hmet before ((List.prefix_append before [call]).trans hp)
    obtain ⟨x', r, h', hc⟩ := h.step (hproceeds call (hp.subset (by simp)))
      (hsimple.of_prefix (runs_notes .simple hp)) (hbatch.of_prefix (runs_notes .batch hp))
    obtain ⟨items, hi, hx⟩ := h.executed
    obtain ⟨new, hnew, hseen⟩ := h.sees h' hc
    exact ⟨items, new, hi, hnew, fun r hr => (hseen r hr).trans hx⟩

end Deferral

namespace Notes

/-- One read is answered from a cache and one update fails. -/
def calls : List Call :=
  [.update "write" (.ofInt 1), .update "write" (.ofInt 2), .selectList "read" .null .unbounded,
    .selectList "read" .null .unbounded, .update "write" (.ofInt 3), .update "draw" .null,
    .update "wipe" .null]

def results : Keyed String ResultSet :=
  [("select n from note", .ofValues ["n"] [[.int 1], [.int 2]])]

end Notes

namespace Deferral

open Notes in
theorem notes_execute_alike :
    let simple := runs results configuration none caches .simple (calls ++ [.commit false])
    let batch := runs results configuration none caches .batch (calls ++ [.commit false])
    batch.2.2.database.state.batches.map (·.1) =
        ["insert into note values (?)", "insert into note values (?)", "delete from note"] ∧
      simple.2.2.database.state.updates.map (·.1) =
        ["insert into note values (?)", "insert into note values (?)",
          "insert into note values (?)", "delete from note"] ∧
      Effects.ofBatches batch.2.2.database.state.batches = simple.2.2.database.state.updates ∧
      batch.2.2.database.state.queries = simple.2.2.database.state.queries ∧
      batch.2.2.database.state.queries.map (·.1) = ["select n from note"] := by
  have h := batches_execute_single_updates results configuration none caches calls false
    (by simp [calls, Call.Proceeds]) (keysGenerated _) (keysGenerated _)
  refine ⟨by decide +kernel, by decide +kernel, h.1, h.2.1, by decide +kernel⟩

end Deferral

end MappedSql
