import MappedSql.Proofs.Recordings

/-!
# Pending updates

Updates that go to a scripted driver in batches. Those that succeed wait in groups, one for each
maximal run of updates of one statement and one SQL text; those that fail leave no trace there.
A flush that succeeds executes what waits in the order of the calls, item for item.
-/

namespace MappedSql

-- ---------------------------------------------------------------------------
-- Results
-- ---------------------------------------------------------------------------

theorem BatchResult.Reports.arguments_flatten {results : List BatchResult} {runs : List (List Item)}
    (h : List.Forall₂ Reports results runs) :
    results.flatMap (·.arguments) = runs.flatten.map (·.argument) := by
  induction h with
  | nil => rfl
  | cons hr _ ih => simp [hr.arguments, ih]

theorem Item.values_batches (runs : List (List Item)) :
    (runs.map batchOf).flatMap (·.2) = runs.flatten.map (·.values) := by
  simp [List.flatMap_def, batchOf, List.map_flatten, Function.comp_def]

-- ---------------------------------------------------------------------------
-- Items that wait
-- ---------------------------------------------------------------------------

variable {σ δ : Type} {d : Driver σ} {m : Engine δ} {Rep : Desk δ → σ → Prop} {x : δ}
  {c : Configuration} {queue : BatchQueue} {items : List Item} {fails : Prop}

abbrev anyGenerator : String → KeyGenerator → Prop :=
  fun _ _ => True

namespace Worker

variable {w : Worker σ × Channel σ}

structure Pends (d : Driver σ) (Rep : Desk δ → σ → Prop) (c : Configuration) (x : δ)
    (queue : BatchQueue) (items : List Item) (w : Worker σ × Channel σ) : Prop where
  configuration : w.1.configuration = c
  driver : w.1.transaction.driver = d
  isOpen : w.1.isClosed = false
  strategy : w.1.strategy = .batch queue
  holds : BatchQueue.Holds Rep anyGenerator x items (queue, w.2)

theorem update_pends (hd : d.Hosts Rep) (hc : d.Collects m Rep fails) (s : Statement)
    (argument : Argument) (h : Pends d Rep c x queue items w) :
    Triple (update s argument) w
      (fun _ w' => ∃ i, Item.ofUpdate c.handlers s argument = .ok i ∧
        ∃ queue', Pends d Rep c x queue' (items ++ [i]) w')
      (fun _ => Pends d Rep c x queue items) := by
  obtain ⟨rfl, hdriver, ho, hq, hx⟩ := h
  refine update_rule hdriver ho (fun bound hb => ?_) fun _ _ => ⟨rfl, hdriver, ho, hq, hx⟩
  have hupdate := BatchQueue.update_holds (e := w.1.execution s bound) hd hc
    (fun _ _ => trivial) hx
  refine onStrategy_ok (x := ({ w.1 with localCache := [] }, w.2))
    (P := fun _ s' => ∃ values, bound.values w.1.configuration.handlers = .ok values ∧
      ∃ queue', s'.1 = .batch queue' ∧ BatchQueue.Holds Rep anyGenerator x
        (items ++ [(w.1.execution s bound).item values]) (queue', s'.2))
    (F := fun _ s' => s'.1 = .batch queue ∧ BatchQueue.Holds Rep anyGenerator x items (queue, s'.2))
    ?_ ?_ ?_
  · rw [hq]
    refine Strategy.dispatch_batch (hupdate.mono ?_ ?_)
    · rintro _ s' ⟨-, values, hv, h'⟩
      exact ⟨values, hv, s'.1, rfl, h'⟩
    · rintro _ ⟨_, c'⟩ ⟨rfl, h', -⟩
      exact ⟨rfl, h'⟩
  · rintro _ _ c' ⟨values, hv, queue', rfl, h'⟩
    exact ⟨_, Item.ofUpdate_execution (e := w.1.execution s bound) hb hv, queue', rfl, hdriver, ho,
      rfl, h'⟩
  · rintro _ _ c' ⟨rfl, h'⟩
    exact ⟨rfl, hdriver, ho, rfl, h'⟩

end Worker

namespace Executor

variable {y : Executor σ × World σ}

def Pends (d : Driver σ) (Rep : Desk δ → σ → Prop) (c : Configuration) (x : δ)
    (queue : BatchQueue) (items : List Item) (y : Executor σ × World σ) : Prop :=
  Worker.Pends d Rep c x queue items (work y)

theorem Pends.queue_eq (h : Pends d Rep c x queue items y) : y.1.worker.strategy.queue = queue :=
  congrArg Strategy.queue h.strategy

theorem Pends.groups (h : Pends d Rep c x queue items y) :
    List.Forall₂ BatchGroup.Awaits queue (items.splitBy Item.joins) := by
  obtain ⟨D, -, -, hw⟩ := h.holds
  exact hw.groups.imp fun _ _ => Desk.Collected.toAwaits

theorem update_pends (hd : d.Hosts Rep) (hc : d.Collects m Rep fails) (s : Statement)
    (argument : Argument) (h : Pends d Rep c x queue items y) :
    Triple (update s argument) y
      (fun _ y' => ∃ i, Item.ofUpdate c.handlers s argument = .ok i ∧
        ∃ queue', Pends d Rep c x queue' (items ++ [i]) y')
      (fun _ => Pends d Rep c x queue items) := by
  -- Hiding a cache first does not touch the worker, where the updates wait.
  refine .bind (P := fun _ y₁ => Pends d Rep c x queue items y₁) ?_ fun _ y₁ h₁ => ?_
  · have hsame (y₁ : Executor σ × World σ) (hw : work y₁ = work y) :
        Pends d Rep c x queue items y₁ := by
      unfold Pends
      rwa [hw]
    exact ((flushCacheFor_idles s).triple y).mono (fun _ => hsame) fun _ => hsame
  · exact onWorker_ok (Worker.update_pends hd hc s argument h₁) (fun _ _ => id) fun _ _ => id

theorem flush_pends (hd : d.Hosts Rep) (hc : d.Collects m Rep fails)
    (h : Pends d Rep c x queue items y) :
    Triple flush y
      (fun results y' => y'.1.worker.strategy.queue = [] ∧
        List.Forall₂ BatchResult.Reports results (items.splitBy Item.joins) ∧
        y'.2.Shows Rep (m.execute x (items.splitBy Item.joins)))
      (fun _ y' => y'.1.worker.strategy.queue = []) := by
  obtain ⟨-, hdriver, ho, hq, hx⟩ := h
  refine onWorker_ok (P := fun results x' => x'.1.strategy.queue = [] ∧
      List.Forall₂ BatchResult.Reports results (items.splitBy Item.joins) ∧
      x'.2.Shows Rep (m.execute x (items.splitBy Item.joins)))
    (F := fun _ x' => x'.1.strategy.queue = []) ?_ (fun _ _ => id) fun _ _ => id
  refine Worker.bind_ensureOpen (fun _ => Worker.bind_current
    (Worker.bind_connection hdriver ho ?_)) fun hc => absurd (ho.symm.trans hc) Bool.false_ne_true
  refine Worker.onStrategy_ok (P := fun results s' => s'.1.queue = [] ∧
      List.Forall₂ BatchResult.Reports results (items.splitBy Item.joins) ∧
      s'.2.Shows Rep (m.execute x (items.splitBy Item.joins)))
    (F := fun _ s' => s'.1.queue = []) ?_ (fun _ _ _ => id) fun _ _ _ => id
  rw [hq]
  exact Strategy.dispatch_batch ((BatchQueue.flush_executes hd hc hx).mono (fun _ _ => id)
    fun _ _ h => h.1)

end Executor

-- ---------------------------------------------------------------------------
-- Updates on a scripted driver
-- ---------------------------------------------------------------------------

namespace Executor

/-- Databases that consist of the batches that were executed. -/
def batchEngine : Engine (List (String × List (List Value))) where
  update executed _ _ := executed
  batch executed sql batch := executed ++ [(sql, batch)]
  answer _ _ _ := {}
  asked executed _ _ := executed
  commit executed := executed
  rollback executed := executed

theorem batchEngine_execute (executed : List (String × List (List Value)))
    (runs : List (List Item)) :
    batchEngine.execute executed runs = executed ++ runs.map Item.batchOf := by
  unfold Engine.execute
  induction runs generalizing executed with
  | nil => simp
  | cons run rest ih =>
    rw [List.foldl_cons, ih]
    simp [batchEngine]

theorem script_collects (script : Script) :
    script.driver.Collects batchEngine (Recording.Lays Records.batches) True :=
  Script.collects (fun _ _ => trivial) (fun _ _ => trivial) fun _ _ _ => rfl

structure Batches (script : Script) (c : Configuration)
    (y : Executor Recording × World Recording) : Prop where
  configuration : y.1.worker.configuration = c
  driver : y.1.worker.transaction.driver = script.driver
  type : y.1.worker.strategy.type = .batch
  numbered : y.2.database.Numbered

theorem run_batches (script : Script) (c : Configuration) (timeout : Option Timeout)
    (caches : Caches) (past : List Request) :
    Batches script c
      (Request.run (Request.opened script.driver c timeout .batch default caches) past) := by
  refine Action.inTurn_induction (I := fun _ => Batches script c) ?_ fun before r _ hb => ?_
  · refine ⟨?_, ?_, ?_, nofun⟩ <;> rw [Request.opened_worker] <;> rfl
  · have hkept (y' : Executor Recording × World Recording)
        (h : Request.Moves (Strategy.Alongside Script.Numbers) r
          (Action.inTurn Request.perform before _).2 y') : Batches script c y' :=
      ⟨h.configuration.trans hb.configuration, h.driver.trans hb.driver,
        h.strategy.1.trans hb.type, h.strategy.2 hb.numbered⟩
    exact (Request.perform_moves script.keeps_numbers.strategy hb.driver r).mono (fun _ => hkept)
      fun _ => hkept

theorem Batches.pends {script : Script} {y : Executor Recording × World Recording}
    (hb : Batches script c y) (ho : y.1.isClosed = false)
    (hq : y.1.worker.strategy.queue = []) :
    Pends script.driver (Recording.Lays Records.batches) c y.2.database.batches [] [] y := by
  have hs : y.1.worker.strategy = .batch [] := by
    have ht := hb.type
    cases h : y.1.worker.strategy <;> rw [h] at ht hq
    · cases ht
    · cases ht
    · exact congrArg _ hq
  exact ⟨hb.configuration, hb.driver, ho, hs, ⟨_, Keyed.get? y.2.database.statements⟩,
    ⟨rfl, fun _ => rfl, hb.numbered⟩, rfl, .nil⟩

def updateAll (updates : List (Statement × Argument)) (y : Executor Recording × World Recording) :
    List ((Statement × Argument) × Except Error UpdateCount) ×
      Executor Recording × World Recording :=
  Action.inTurn (fun u => update u.1 u.2) updates y

def itemsOf (c : Configuration) (done : List ((Statement × Argument) × Except Error UpdateCount)) :
    List (Except Error Item) :=
  (done.filter (·.2.isOk)).map fun u => Item.ofUpdate c.handlers u.1.1 u.1.2

theorem updateAll_pends (script : Script) {c : Configuration}
    {executed : List (String × List (List Value))} {y : Executor Recording × World Recording}
    (h : Pends script.driver (Recording.Lays Records.batches) c executed [] [] y)
    (updates : List (Statement × Argument)) :
    ∃ (items : List Item) (queue : BatchQueue), itemsOf c (updateAll updates y).1 = items.map .ok ∧
      Pends script.driver (Recording.Lays Records.batches) c executed queue items
        (updateAll updates y).2 := by
  refine Action.inTurn_induction (I := fun done y' => ∃ (items : List Item) (queue : BatchQueue),
    itemsOf c done = items.map .ok ∧
      Pends script.driver (Recording.Lays Records.batches) c executed queue items y')
    ⟨[], [], rfl, h⟩ ?_
  rintro before ⟨s, argument⟩ - ⟨items, queue, hi, hp⟩
  refine (update_pends (script.hosts _) (script_collects script) s argument hp).mono ?_ ?_
  · rintro _ y' ⟨i, hs, queue', hp'⟩
    refine ⟨items ++ [i], queue', ?_, hp'⟩
    simpa [itemsOf, Except.isOk, Except.toBool, hs] using hi
  · rintro _ y' hp'
    refine ⟨items, queue, ?_, hp'⟩
    simpa [itemsOf, Except.isOk, Except.toBool] using hi

/-- Updates to an executor of batches in whose queue nothing waits, some of which may fail. The
groups that wait are the maximal runs of the updates that succeeded; an update that fails leaves
them as they were. A flush that succeeds executes one batch for each of them, with the values of
these updates in the order of the calls, and reports their arguments with one count for each. -/
theorem updates_run_in_order (script : Script) (c : Configuration) (timeout : Option Timeout)
    (caches : Caches) (past : List Request) (y : Executor Recording × World Recording)
    (hy : Request.run (Request.opened script.driver c timeout .batch default caches) past = y)
    (ho : y.1.isClosed = false) (hq : y.1.worker.strategy.queue = [])
    (updates : List (Statement × Argument)) :
    ∃ items : List Item, itemsOf c (updateAll updates y).1 = items.map .ok ∧
      List.Forall₂ BatchGroup.Awaits (updateAll updates y).2.1.worker.strategy.queue
        (items.splitBy Item.joins) ∧
      (∀ before s argument after cause y', updates = before ++ (s, argument) :: after →
        (update s argument).outcome (updateAll before y).2 = (.error cause, y') →
        y'.1.worker.strategy.queue = (updateAll before y).2.1.worker.strategy.queue) ∧
      ∀ results y', flush.outcome (updateAll updates y).2 = (.ok results, y') →
        y'.1.worker.strategy.queue = [] ∧
        (∃ batches, y'.2.database.batches = y.2.database.batches ++ batches ∧
          batches = (items.splitBy Item.joins).map Item.batchOf ∧
          batches.flatMap (·.2) = items.map (·.values)) ∧
        List.Forall₂ BatchResult.Reports results (items.splitBy Item.joins) ∧
        results.flatMap (·.arguments) = items.map (·.argument) := by
  have hstart := (hy ▸ run_batches script c timeout caches past).pends ho hq
  obtain ⟨items, queue, hi, hp⟩ := updateAll_pends script hstart updates
  refine ⟨items, hi, ?_, ?_, ?_⟩
  · rw [hp.queue_eq]
    exact hp.groups
  · rintro before s argument after cause y' - hfailed
    obtain ⟨items₀, queue₀, -, hp₀⟩ := updateAll_pends script hstart before
    have hstep := update_pends (script.hosts _) (script_collects script) s argument hp₀
    rw [Triple, hfailed] at hstep
    exact (Pends.queue_eq hstep).trans hp₀.queue_eq.symm
  · intro results y' hflush
    have hflushed := flush_pends (script.hosts _) (script_collects script) hp
    rw [Triple, hflush] at hflushed
    obtain ⟨hempty, hreports, D, hr, hx⟩ := hflushed
    have hbatches := hr.database.symm.trans (hx.trans (batchEngine_execute ..))
    refine ⟨hempty, ⟨_, hbatches, rfl, ?_⟩, hreports, ?_⟩
    · rw [Item.values_batches, List.flatten_splitBy]
    · rw [BatchResult.Reports.arguments_flatten hreports, List.flatten_splitBy]

end Executor

namespace Notes

def forgetful : Script where
  failAddBatch := some 3

def written : Executor Recording × World Recording :=
  Request.run (Request.opened forgetful.driver {} none .batch default {})
    [.update write (.ofInt 0), .flush]

def updates : List (Statement × Argument) :=
  [(write, .ofInt 1), (write, .ofInt 2), (write, .ofInt 3), (wipe, .null), (write, .ofInt 4)]

def noted (n : Int64) : Item where
  statement := "write"
  sql := "insert into note values (?)"
  argument := .ofInt n
  values := [.int n]

def wiped : Item where
  statement := "wipe"
  sql := "delete from note"
  argument := .null
  values := []

end Notes

namespace Executor

open Notes in
theorem notes_run_in_order :
    written.1.isClosed = false ∧ written.1.worker.strategy.queue = [] ∧
      ∃ results y', flush.outcome (updateAll updates written).2 = (.ok results, y') ∧
        y'.1.worker.strategy.queue = [] ∧
        (∃ batches, y'.2.database.batches = written.2.database.batches ++ batches ∧
          batches.flatMap (·.2) = [[.int 1], [.int 3], [], [.int 4]]) ∧
        results.flatMap (·.arguments) = [.ofInt 1, .ofInt 3, .null, .ofInt 4] := by
  have hopen : written.1.isClosed = false := by decide +kernel
  have hempty : written.1.worker.strategy.queue = [] := by with_unfolding_all rfl
  have hitems : itemsOf {} (updateAll updates written).1 =
      [noted 1, noted 3, wiped, noted 4].map .ok := by
    with_unfolding_all rfl
  obtain ⟨items, hi, -, -, hflush⟩ := updates_run_in_order forgetful {} none {}
    [.update write (.ofInt 0), .flush] written rfl hopen hempty updates
  obtain rfl : [noted 1, noted 3, wiped, noted 4] = items :=
    List.map_injective_iff.mpr (fun _ _ => Except.ok.inj) (hitems.symm.trans hi)
  have hok : (flush.outcome (updateAll updates written).2).1.isOk = true := by decide +kernel
  rcases ho : flush.outcome (updateAll updates written).2 with ⟨_ | results, y'⟩
  · rw [ho] at hok
    cases hok
  · obtain ⟨hempty', ⟨batches, hb, -, hvalues⟩, -, harguments⟩ := hflush results y' ho
    exact ⟨hopen, hempty, results, y', rfl, hempty', ⟨batches, hb, hvalues⟩, harguments⟩

end Executor

end MappedSql
