import MappedSql.Driver.Faults
import MappedSql.Driver.Scripted
import MappedSql.Proofs.CacheContent
import MappedSql.Proofs.Requests
import MappedSql.Proofs.Systems

/-!
# Handles

Which handles a driver has prepared and which it was asked to close, noted in a log beside its
state. At every moment the handles that were prepared are those that were closed and those that
the strategy holds, each as often as it was prepared. So where a driver prepares no handle twice,
none is closed twice, and none is left open that is not held.
-/

namespace MappedSql

variable {σ α : Type}

-- ---------------------------------------------------------------------------
-- Logs
-- ---------------------------------------------------------------------------

inductive HandleEvent
  | prepared (sql : String) (h : Handle)
  | closed (h : Handle)
  deriving DecidableEq

namespace HandleEvent

def prepared? : HandleEvent → Option Handle
  | prepared _ h => some h
  | closed _ => none

def closed? : HandleEvent → Option Handle
  | prepared _ _ => none
  | closed h => some h

end HandleEvent

abbrev HandleLog := List HandleEvent

def HandleLog.prepared (log : HandleLog) : List Handle :=
  log.filterMap (·.prepared?)

def HandleLog.closed (log : HandleLog) : List Handle :=
  log.filterMap (·.closed?)

/-- Nothing is prepared by a call that fails. -/
def HandleLog.ofPrepare (sql : String) : Except Error Handle → HandleLog
  | .ok h => [.prepared sql h]
  | .error _ => []

namespace HandleLog

variable (log : HandleLog) (sql : String) (h : Handle)

@[simp] theorem prepared_prepare :
    prepared (log ++ [HandleEvent.prepared sql h]) = log.prepared ++ [h] := by
  simp [prepared, HandleEvent.prepared?]

@[simp] theorem closed_prepare :
    closed (log ++ [HandleEvent.prepared sql h]) = log.closed := by
  simp [closed, HandleEvent.closed?]

@[simp] theorem prepared_close : prepared (log ++ [HandleEvent.closed h]) = log.prepared := by
  simp [prepared, HandleEvent.prepared?]

@[simp] theorem closed_close : closed (log ++ [HandleEvent.closed h]) = log.closed ++ [h] := by
  simp [closed, HandleEvent.closed?]

end HandleLog

structure Logged (σ : Type) where
  log : HandleLog := []
  state : σ

def Action.logging (events : Except Error α → HandleLog) (a : Action σ α) :
    Action (Logged σ) α :=
  .ofOutcome fun s =>
    ((a.outcome s.state).1,
      { log := s.log ++ events (a.outcome s.state).1, state := (a.outcome s.state).2 })

/-- A driver with a log of the handles that it prepares, and of those that it is asked to
close, whether or not it can. -/
def Driver.logged (d : Driver σ) : Driver (Logged σ) where
  prepare sql timeout := (d.prepare sql timeout).logging (HandleLog.ofPrepare sql)
  bind h values := (d.bind h values).logging fun _ => []
  addBatch h := (d.addBatch h).logging fun _ => []
  executeUpdate h := (d.executeUpdate h).logging fun _ => []
  executeBatch h := (d.executeBatch h).logging fun _ => []
  executeQuery h := (d.executeQuery h).logging fun _ => []
  close h := (d.close h).logging fun _ => [.closed h]
  commit := d.commit.logging fun _ => []
  rollback := d.rollback.logging fun _ => []

-- ---------------------------------------------------------------------------
-- Handles in hand
-- ---------------------------------------------------------------------------

/-- What was prepared and is not in hand was closed, and nothing was closed before it was
prepared. Handles in hand come with the texts that they were prepared for. -/
structure Owes (hands : List (String × Handle)) (log : HandleLog) : Prop where
  balance : log.prepared.Perm (log.closed ++ hands.map (·.2))
  order : ∀ before h, before ++ [.closed h] <+: log → h ∈ HandleLog.prepared before
  texts : ∀ hand ∈ hands, .prepared hand.1 hand.2 ∈ log

namespace Owes

variable {hands hands' : List (String × Handle)} {hand : String × Handle} {log : HandleLog}

theorem nil : Owes [] [] :=
  ⟨.nil, fun before h hp => by simp at hp, nofun⟩

theorem perm (h : Owes hands log) (hp : hands.Perm hands') : Owes hands' log where
  balance := h.balance.trans (.append_left _ (hp.map _))
  order := h.order
  texts other hm := h.texts other (hp.mem_iff.mpr hm)

theorem prepare (h : Owes hands log) (hand : String × Handle) :
    Owes (hand :: hands) (log ++ [.prepared hand.1 hand.2]) where
  balance := by
    rw [HandleLog.prepared_prepare, HandleLog.closed_prepare, List.map_cons]
    exact (List.perm_append_singleton _ _).trans
      ((h.balance.cons _).trans List.perm_middle.symm)
  order before handle hp := by
    rcases List.prefix_concat_iff.mp hp with he | hp
    · simp at he
    · exact h.order before handle hp
  texts := by
    refine List.forall_mem_cons.mpr ⟨by simp, fun other hm => ?_⟩
    exact List.mem_append_left _ (h.texts other hm)

theorem close (h : Owes (hand :: hands) log) : Owes hands (log ++ [.closed hand.2]) where
  balance := by
    rw [HandleLog.prepared_close, HandleLog.closed_close, List.append_assoc]
    exact h.balance
  order before handle hp := by
    rcases List.prefix_concat_iff.mp hp with he | hp
    · obtain ⟨rfl, he⟩ := List.append_inj' he rfl
      obtain ⟨rfl⟩ : handle = hand.2 := by simpa using he
      exact h.balance.mem_iff.mpr (by simp)
    · exact h.order before handle hp
  texts other hm := List.mem_append_left _ (h.texts other (List.mem_cons_of_mem _ hm))

end Owes

-- ---------------------------------------------------------------------------
-- Single calls
-- ---------------------------------------------------------------------------

abbrev Channel.Silent : Channel (Logged σ) → Channel (Logged σ) → Prop :=
  Order.Preimage (·.database.log) Eq

def Owing (hands : List (String × Handle)) (c : Channel (Logged σ)) : Prop :=
  Owes hands c.database.log

section
variable {d : Driver σ} {hands : List (String × Handle)} {c c' : Channel (Logged σ)}

theorem Owing.silent (h : Owing hands c) (hs : Channel.Silent c c') : Owing hands c' := by
  have he : c.database.log = c'.database.log := hs
  rwa [Owing, ← he]

theorem logging_silent (a : Action σ α) :
    (Channel.drive (a.logging fun _ => [])).Respects Channel.Silent :=
  fun _ => (List.append_nil _).symm

theorem Driver.logged_silent (d : Driver σ) : d.logged.KeepsOpen Channel.Silent where
  bind _ _ := logging_silent _
  addBatch _ := logging_silent _
  executeUpdate _ := logging_silent _
  executeBatch _ := logging_silent _
  executeQuery _ := logging_silent _
  record _ := fun _ => rfl

theorem logging_ok {events : Except Error α → HandleLog} {a : Action σ α} {s : Logged σ}
    {Q : α → Logged σ → Prop} {E : Error → Logged σ → Prop}
    (hQ : ∀ value state, Q value { log := s.log ++ events (.ok value), state })
    (hE : ∀ e state, E e { log := s.log ++ events (.error e), state }) :
    Triple (a.logging events) s Q E := by
  rw [Triple, Action.logging, Action.outcome_ofOutcome]
  rcases a.outcome s.state with ⟨_ | _, state⟩
  · exact hE _ state
  · exact hQ _ state

theorem Execution.prepare_owing (e : Execution) (h : Owing hands c) :
    Triple (e.prepare d.logged) c (fun handle => Owing ((e.bound.sql, handle) :: hands))
      (fun _ => Owing hands) := by
  unfold prepare Channel.drive
  refine .within ?_
  change Triple ((d.prepare e.bound.sql e.timeout).logging (.ofPrepare e.bound.sql)) _ _ _
  refine logging_ok (fun handle _ => ?_) fun _ _ => ?_
  · exact h.prepare (e.bound.sql, handle)
  · simpa [Owing, HandleLog.ofPrepare] using h

theorem close_owing {hand : String × Handle} (h : Owing (hand :: hands) c) :
    Owing hands ((Channel.drive (d.logged.close hand.2)).outcome c).2 :=
  Owes.close h

theorem Channel.release_owing {hand : String × Handle} (h : Owing (hand :: hands) c)
    {E : Error → Channel (Logged σ) → Prop} :
    Triple (release d.logged hand.2) c (fun _ => Owing hands) E :=
  close_owing h

theorem StatementPool.releaseAll_owing {held : List (String × Handle)}
    (h : Owing (held ++ hands) c) {E : Error → Channel (Logged σ) → Prop} :
    Triple (releaseAll d.logged (held.map (·.2))) c (fun _ => Owing hands) E := by
  induction held generalizing c with
  | nil => exact .pure h
  | cons hand rest ih => exact .bind (Channel.release_owing h) fun _ _ h => ih h

theorem Channel.withHandle_owing {hand : String × Handle} (h : Owing (hand :: hands) c)
    {work : Action (Channel (Logged σ)) α} (hw : work.Respects Silent) :
    Triple (withHandle d.logged hand.2 work) c (fun _ => Owing hands) (fun _ => Owing hands) := by
  -- The handle is closed however the work has ended, and the close is logged even if it fails.
  refine .bind (hw.attempt_triple c) fun r c₁ h₁ => ?_
  refine .bind (P := fun _ => Owing hands) (.attempt ?_) fun closed c₂ h₂ => ?_
  · have hc := close_owing (d := d) (h.silent h₁)
    unfold Triple
    split <;> rename_i ho <;> rwa [ho] at hc
  · exact .bind_ofExcept (fun _ _ => .bind_ofExcept (fun _ _ => .pure h₂) fun _ _ => h₂)
      fun _ _ => h₂

theorem Execution.updateOnce_owing (e : Execution) (h : Owing hands c) :
    Triple (e.updateOnce d.logged) c (fun _ => Owing hands) (fun _ => Owing hands) :=
  .bind_ofExcept (fun values _ => .bind (e.prepare_owing h) fun handle _ h₁ =>
    Channel.withHandle_owing h₁ (d.logged_silent.updateOn e handle values)) fun _ _ => h

theorem Execution.queryOnce_owing (e : Execution) (h : Owing hands c) :
    Triple (e.queryOnce d.logged) c (fun _ => Owing hands) (fun _ => Owing hands) :=
  .bind_ofExcept (fun values _ => .bind (e.prepare_owing h) fun handle _ h₁ =>
    Channel.withHandle_owing h₁ (d.logged_silent.queryOn handle values)) fun _ _ => h

end

-- ---------------------------------------------------------------------------
-- Pools
-- ---------------------------------------------------------------------------

namespace Keyed

variable {κ β : Type} [BEq κ] [LawfulBEq κ] {entries : Keyed κ β} {key : κ} {value : β}

theorem put_of_get?_none (h : get? entries key = none) :
    put entries key value = entries ++ [(key, value)] := by
  have hc : contains entries key = false := by
    simpa [get?, contains, List.find?_eq_none] using h
  simp [put, hc]

theorem not_mem_keys_of_get?_none (h : get? entries key = none) : key ∉ entries.map (·.1) := by
  have hn : ∀ other value, (other, value) ∈ entries → ¬ other = key := by
    simpa [get?, List.find?_eq_none] using h
  intro hm
  obtain ⟨⟨other, value⟩, hentry, rfl⟩ := List.mem_map.mp hm
  exact hn other value hentry rfl

end Keyed

namespace StatementPool

variable {d : Driver σ} {s : StatementPool × Channel (Logged σ)}

def Pooled (s : StatementPool × Channel (Logged σ)) : Prop :=
  (s.1.map (·.1)).Nodup ∧ Owing s.1 s.2

theorem handleFor_pooled (e : Execution) (h : Pooled s) :
    Triple (handleFor e d.logged) s (fun _ => Pooled) (fun _ => Pooled) := by
  obtain ⟨pool, c⟩ := s
  refine .bind_get ?_
  dsimp only
  cases hg : Keyed.get? pool e.bound.sql with
  | some handle => exact .pure h
  | none =>
    refine .bind_onSecond (e.prepare_owing h.2) (fun _ _ h' => ⟨h.1, h'⟩) fun handle c' h' => ?_
    refine .bind_modify (.pure ?_)
    have hnew := Keyed.not_mem_keys_of_get?_none hg
    rw [Keyed.put_of_get?_none hg]
    refine ⟨?_, h'.perm (List.perm_append_singleton _ _).symm⟩
    simpa using h.1.concat hnew

theorem drop_pooled (sql : String) (h : Pooled s)
    {E : Error → StatementPool × Channel (Logged σ) → Prop} :
    Triple (drop d.logged sql) s (fun _ => Pooled) E := by
  obtain ⟨pool, c⟩ := s
  refine .bind_get ?_
  dsimp only
  cases hg : Keyed.get? pool sql with
  | none => exact .pure h
  | some handle =>
    refine .bind_modify (.onSecond ?_)
    have hn : ((Keyed.erase pool sql).map (·.1)).Nodup :=
      h.1.sublist (List.filter_sublist.map _)
    exact (Channel.release_owing (h.2.perm (Keyed.perm_cons_erase h.1 hg))).mono
      (fun _ _ h' => ⟨hn, h'⟩) fun _ _ => id

theorem run_pooled {e : Execution} {work : Handle → Action (Channel (Logged σ)) α}
    (hw : ∀ handle, (work handle).Respects Channel.Silent) (h : Pooled s) :
    Triple (run e d.logged work) s (fun _ => Pooled) (fun _ => Pooled) := by
  refine .bind (handleFor_pooled e h) fun handle ⟨pool, c⟩ h₁ => ?_
  refine .bind_attempt (P := fun _ => Pooled) (E := fun _ => Pooled) ?_ (fun _ _ h₂ => .pure h₂)
    fun _ _ h₂ => .bind (drop_pooled _ h₂) fun _ _ h₃ => .throw h₃
  exact .onSecond (((hw handle).triple c).mono (fun _ _ hs => ⟨h₁.1, h₁.2.silent hs⟩)
    fun _ _ hs => ⟨h₁.1, h₁.2.silent hs⟩)

theorem update_pooled (e : Execution) (h : Pooled s) :
    Triple (update e d.logged) s (fun _ => Pooled) (fun _ => Pooled) :=
  e.bind_values (fun values _ => run_pooled (fun handle =>
    d.logged_silent.updateOn e handle values) h) fun _ _ => h

theorem query_pooled (e : Execution) (h : Pooled s) :
    Triple (query e d.logged) s (fun _ => Pooled) (fun _ => Pooled) :=
  e.bind_values (fun values _ => run_pooled (fun handle =>
    d.logged_silent.queryOn handle values) h) fun _ _ => h

theorem flush_pooled (h : Pooled s) {E : Error → StatementPool × Channel (Logged σ) → Prop} :
    Triple (flush d.logged) s (fun _ => Pooled) E := by
  obtain ⟨pool, c⟩ := s
  have hall : Owing (pool ++ []) c := by simpa using h.2
  exact .bind_get (.bind_modify (.onSecond ((releaseAll_owing hall).mono
    (fun _ _ h' => ⟨List.nodup_nil, h'⟩) fun _ _ => id)))

end StatementPool

-- ---------------------------------------------------------------------------
-- Batches
-- ---------------------------------------------------------------------------

namespace BatchQueue

variable {d : Driver σ} {s : BatchQueue × Channel (Logged σ)}

def hands (queue : BatchQueue) : List (String × Handle) :=
  queue.map fun g => (g.result.sql, g.handle)

def Queued (s : BatchQueue × Channel (Logged σ)) : Prop :=
  Owing s.1.hands s.2

theorem openGroup_owing (e : Execution) (values : List Value)
    {held : List (String × Handle)} {c : Channel (Logged σ)} (h : Owing held c) :
    Triple (openGroup e d.logged values) c
      (fun g => Owing ((g.result.sql, g.handle) :: held)) (fun _ => Owing held) := by
  refine .bind (e.prepare_owing h) fun handle c₁ h₁ => ?_
  have hitem := d.logged_silent.addItem handle values
  refine .bind_attempt (hitem.triple c₁) (fun _ _ h₂ => .pure (h₁.silent h₂)) fun _ _ h₂ => ?_
  exact .bind (Channel.release_owing (h₁.silent h₂)) fun _ _ h => .throw h

theorem update_queued (e : Execution) (h : Queued s) :
    Triple (update e d.logged) s (fun _ => Queued) (fun _ => Queued) := by
  obtain ⟨queue, c⟩ := s
  refine e.bind_values (fun values _ => .bind_get ?_) fun _ _ => h
  dsimp only
  cases hg : queue.getLast?.filter (·.continuedBy e) with
  | some g =>
    obtain ⟨hl, -⟩ := Option.filter_eq_some_iff.mp hg
    obtain ⟨rest, rfl⟩ : ∃ rest, queue = rest ++ [g] := List.getLast?_eq_some_iff.mp hl
    have hitem := d.logged_silent.addItem g.handle values
    refine .bind_onSecond (hitem.triple c) (fun _ _ => Owing.silent h) fun _ c' h' => ?_
    refine .bind_modify (.pure ?_)
    have hsame : hands (rest ++ [g.push e.bound.argument]) = hands (rest ++ [g]) := by
      simp [hands, BatchGroup.push]
    have hw := Owing.silent h h'
    simpa [Queued, hsame] using hw
  | none =>
    refine .bind_onSecond (openGroup_owing e values h) (fun _ _ => id) fun g c' h' => ?_
    refine .bind_modify (.pure ?_)
    refine h'.perm ?_
    simpa [hands] using (List.perm_append_singleton (g.result.sql, g.handle) queue.hands).symm

theorem releaseAll_owing {queue : BatchQueue} {c : Channel (Logged σ)} (h : Owing queue.hands c)
    {E : Error → Channel (Logged σ) → Prop} :
    Triple (StatementPool.releaseAll d.logged (queue.map (·.handle))) c (fun _ => Owing []) E := by
  have hall : Owing (queue.hands ++ []) c := by rwa [List.append_nil]
  have hheld : queue.map (·.handle) = queue.hands.map (·.2) := by simp [hands]
  rw [hheld]
  exact StatementPool.releaseAll_owing hall

theorem runAll_owing (completed : List BatchResult) (queue : BatchQueue)
    {c : Channel (Logged σ)} (h : Owing queue.hands c) :
    Triple (runAll d.logged completed queue) c (fun _ => Owing []) (fun _ => Owing []) := by
  induction queue generalizing completed c with
  | nil => exact .pure h
  | cons g rest ih =>
    refine .bind (d.logged_silent.runGroup g c) fun (outcome, result) c₁ h₁ => ?_
    refine .bind (Channel.release_owing (h.silent h₁)) fun _ c₂ h₂ => ?_
    cases outcome with
    | ok _ => exact ih _ h₂
    | error cause =>
      -- The groups after one that failed do not run, but they are closed.
      exact .bind (releaseAll_owing h₂) fun _ _ h₃ => .throw h₃

theorem flush_queued (h : Queued s) :
    Triple (flush d.logged) s (fun _ => Queued) (fun _ => Queued) := by
  obtain ⟨queue, c⟩ := s
  exact .bind_get (.bind_modify (.onSecond (runAll_owing [] queue h)))

theorem discard_queued (h : Queued s) :
    Triple (discard d.logged) s (fun _ => Queued) (fun _ => Queued) := by
  obtain ⟨queue, c⟩ := s
  exact .bind_get (.bind_modify (.onSecond (releaseAll_owing h)))

theorem query_queued (e : Execution) (h : Queued s) :
    Triple (query e d.logged) s (fun _ => Queued) (fun _ => Queued) :=
  .bind (flush_queued h) fun _ _ h₁ => .onSecond (e.queryOnce_owing h₁)

end BatchQueue

-- ---------------------------------------------------------------------------
-- Strategies
-- ---------------------------------------------------------------------------

namespace Strategy

variable {d : Driver σ} {s s' : Strategy × Channel (Logged σ)}

/-- All handles in hand are held by the strategy, and a pool has one for each text. -/
def Balanced : Strategy × Channel (Logged σ) → Prop
  | (.simple, c) => Owing [] c
  | (.reuse pool, c) => StatementPool.Pooled (pool, c)
  | (.batch queue, c) => BatchQueue.Queued (queue, c)

structure Balances (s s' : Strategy × Channel (Logged σ)) : Prop where
  type : s'.1.type = s.1.type
  balanced : Balanced s → Balanced s'

instance : IsPreorder (Strategy × Channel (Logged σ)) Balances where
  refl _ := ⟨rfl, id⟩
  trans _ _ _ h h' := ⟨h'.type.trans h.type, h'.balanced ∘ h.balanced⟩

theorem dispatch_balances {simple : Action (Channel (Logged σ)) α}
    {reuse : Action (StatementPool × Channel (Logged σ)) α}
    {batch : Action (BatchQueue × Channel (Logged σ)) α}
    (hs : ∀ c, Owing [] c → Triple simple c (fun _ => Owing []) (fun _ => Owing []))
    (hr : ∀ s, StatementPool.Pooled s →
      Triple reuse s (fun _ => StatementPool.Pooled) (fun _ => StatementPool.Pooled))
    (hb : ∀ s, BatchQueue.Queued s →
      Triple batch s (fun _ => BatchQueue.Queued) (fun _ => BatchQueue.Queued)) :
    (dispatch simple reuse batch).Respects Balances := by
  rintro ⟨s, c⟩
  cases s with
  | simple => exact ⟨rfl, fun h => (hs c h).state⟩
  | reuse pool => exact ⟨rfl, fun h => (hr (pool, c) h).state⟩
  | batch queue => exact ⟨rfl, fun h => (hb (queue, c) h).state⟩

theorem drive_balances (a : Action σ α) :
    (Channel.drive (a.logging fun _ => [])).onSecond.Respects Balances := by
  rintro ⟨s, c⟩
  have hs := logging_silent a c
  refine ⟨rfl, fun h => ?_⟩
  cases s with
  | simple => exact Owing.silent h hs
  | reuse pool => exact ⟨h.1, Owing.silent h.2 hs⟩
  | batch queue => exact Owing.silent h hs

theorem keeps_balances (d : Driver σ) : Keeps d.logged Balances where
  update e := dispatch_balances (fun _ => e.updateOnce_owing)
    (fun _ => StatementPool.update_pooled e) fun _ => BatchQueue.update_queued e
  query e := dispatch_balances (fun _ => e.queryOnce_owing)
    (fun _ => StatementPool.query_pooled e) fun _ => BatchQueue.query_queued e
  flush := dispatch_balances (fun _ h => by exact .pure h)
    (fun _ h => .bind (StatementPool.flush_pooled h (E := fun _ => StatementPool.Pooled))
      fun _ _ h' => .pure h')
    fun _ => BatchQueue.flush_queued
  discard := dispatch_balances (fun _ h => by exact .pure h)
    (fun _ h => StatementPool.flush_pooled h)
    fun _ => BatchQueue.discard_queued
  commit := drive_balances d.commit
  rollback := drive_balances d.rollback

theorem Balanced.owes (h : Balanced s) : ∃ hands, s.1.held = hands.map (·.2) ∧
    Owes hands s.2.database.log := by
  obtain ⟨s, c⟩ := s
  cases s with
  | simple => exact ⟨[], rfl, h⟩
  | reuse pool => exact ⟨pool, rfl, h.2⟩
  | batch queue => exact ⟨queue.hands, by simp [held, BatchQueue.hands], h⟩

/-- What a strategy of a type holds: nothing, one handle for each text that it was prepared
for, or one handle for each group that waits. -/
def HoldsFor (log : HandleLog) : ExecutorType → Strategy → Prop
  | .simple, s => s.held = []
  | .reuse, s => ∃ pool, s = .reuse pool ∧ (pool.map (·.1)).Nodup ∧
    ∀ hand ∈ pool, .prepared hand.1 hand.2 ∈ log
  | .batch, s => ∃ queue, s = .batch queue ∧ s.held = queue.map (·.handle) ∧
    ∀ g ∈ queue, .prepared g.result.sql g.handle ∈ log

theorem Balanced.holdsFor (h : Balanced s) : s.1.HoldsFor s.2.database.log s.1.type := by
  obtain ⟨s, c⟩ := s
  cases s with
  | simple => exact rfl
  | reuse pool => exact ⟨pool, rfl, h.1, h.2.texts⟩
  | batch queue =>
    exact ⟨queue, rfl, rfl, fun g hg => Owes.texts h _ (List.mem_map_of_mem hg)⟩

end Strategy

-- ---------------------------------------------------------------------------
-- Runs
-- ---------------------------------------------------------------------------

namespace Request

open Strategy

variable {d : Driver σ} {type : ExecutorType} {y y' : Executor (Logged σ) × World (Logged σ)}

structure Accounted (d : Driver σ) (type : ExecutorType)
    (y : Executor (Logged σ) × World (Logged σ)) : Prop where
  driver : y.1.worker.transaction.driver = d.logged
  type : y.1.worker.strategy.type = type
  balanced : Balanced (y.1.worker.strategy, y.2.toChannel)
  closed : y.1.isClosed = true → y.1.worker.strategy.held = []

theorem opened_accounted (d : Driver σ) (c : Configuration) (timeout : Option Timeout)
    (type : ExecutorType) (state : σ) (caches : Caches) :
    Accounted d type (opened d.logged c timeout type { state } caches) := by
  have hw := opened_worker d.logged c timeout type { state } caches
  refine ⟨by rw [hw]; rfl, ?_, ?_, fun h => ?_⟩
  · rw [hw]
    cases type <;> rfl
  · rw [hw]
    cases type with
    | simple => exact Owes.nil
    | reuse => exact ⟨List.nodup_nil, Owes.nil⟩
    | batch => exact Owes.nil
  · have hc : (opened d.logged c timeout type { state } caches).1.worker.isClosed = true := h
    rw [hw] at hc
    exact absurd hc Bool.false_ne_true

theorem Moves.accounted {r : Request} (h : Moves Balances r y y') (ha : Accounted d type y) :
    Accounted d type y' where
  driver := h.driver.trans ha.driver
  type := h.strategy.type.trans ha.type
  balanced := h.strategy.balanced ha.balanced
  closed hc := by
    rcases h.closes hc with hc | hh
    · have hw : Executor.work y' = Executor.work y := h.closed hc
      have hs : y'.1.worker = y.1.worker := congrArg Prod.fst hw
      rw [hs]
      exact ha.closed hc
    · exact hh

theorem Moves.held {r : Request} (h : Moves Balances r y y') (ha : Accounted d type y)
    (hr : r.Releases) : y'.1.worker.strategy.held = [] := by
  -- A closed executor lets nothing go, but it has held nothing since it was closed.
  cases hc : y.1.isClosed with
  | false => exact h.releases hr hc
  | true =>
    have hw : Executor.work y' = Executor.work y := h.closed hc
    have hs : y'.1.worker = y.1.worker := congrArg Prod.fst hw
    rw [hs]
    exact ha.closed hc

def Settles (d : Driver σ) (type : ExecutorType) (done : List (Request × Except Error Reply))
    (y : Executor (Logged σ) × World (Logged σ)) : Prop :=
  Accounted d type y ∧ ∀ last, done.getLast? = some last → last.1.Releases →
    y.1.worker.strategy.held = []

theorem Moves.settles {r : Request} (h : Moves Balances r y y') (ha : Accounted d type y)
    (done : List (Request × Except Error Reply)) (result : Except Error Reply) :
    Settles d type (done ++ [(r, result)]) y' := by
  refine ⟨h.accounted ha, fun last hl hr => h.held ha ?_⟩
  rw [List.getLast?_concat] at hl
  cases hl
  exact hr

theorem inTurn_settles (h : Accounted d type y) (requests : List Request) :
    Settles d type (Action.inTurn perform requests y).1 (Action.inTurn perform requests y).2 := by
  refine Action.inTurn_induction (I := Settles d type) ?_ fun before r _ hs => ?_
  · exact ⟨h, by simp⟩
  · have hstep := perform_moves (keeps_balances d) hs.1.driver r
    exact hstep.mono (fun _ _ hm => hm.settles hs.1 _ _) fun _ _ hm => hm.settles hs.1 _ _

/-- After any requests, whatever calls of the driver and key generators fail: where the driver
has prepared no handle twice, none was closed twice or before it was prepared, and those that are
not closed are those that the strategy holds. After a flush and the end of a transaction there
are none. -/
theorem handles_close_once (d : Driver σ) (c : Configuration) (timeout : Option Timeout)
    (type : ExecutorType) (state : σ) (caches : Caches) (requests : List Request)
    (hfresh : (HandleLog.prepared (run (opened d.logged c timeout type { state } caches)
      requests).2.database.log).Nodup) :
    let y := run (opened d.logged c timeout type { state } caches) requests
    let log := y.2.database.log
    log.closed.Nodup ∧
      (∀ before h after, log = before ++ .closed h :: after → h ∈ HandleLog.prepared before) ∧
      (∀ h, h ∈ y.1.worker.strategy.held ↔ h ∈ log.prepared ∧ h ∉ log.closed) ∧
      y.1.worker.strategy.held.Nodup ∧ y.1.worker.strategy.HoldsFor log type ∧
      ∀ r, requests.getLast? = some r → r.Releases → y.1.worker.strategy.held = [] := by
  intro y log
  have hs := inTurn_settles (opened_accounted d c timeout type state caches) requests
  have ha : Accounted d type y := hs.1
  obtain ⟨hands, hheld, ho⟩ := ha.balanced.owes
  have hbalance : log.prepared.Perm (log.closed ++ y.1.worker.strategy.held) :=
    hheld ▸ ho.balance
  -- No handle was prepared twice, so those that are closed and those that are held are distinct.
  obtain ⟨hclosed, hnodup, hdisjoint⟩ := List.nodup_append.mp (hbalance.nodup_iff.mp hfresh)
  refine ⟨hclosed, fun before h after he => ho.order before h ⟨after, ?_⟩, fun h => ?_, hnodup,
    ha.type ▸ ha.balanced.holdsFor, fun r hr => ?_⟩
  · rw [List.append_assoc]
    exact he.symm
  · rw [hbalance.mem_iff, List.mem_append]
    constructor
    · exact fun hm => ⟨.inr hm, fun hc => hdisjoint h hc h hm rfl⟩
    · rintro ⟨hc | hm, hn⟩
      exacts [absurd hc hn, hm]
  · rw [← Action.inTurn_map_fst (f := perform) requests
      (opened d.logged c timeout type { state } caches), List.getLast?_map] at hr
    obtain ⟨last, hl, rfl⟩ := Option.map_eq_some_iff.mp hr
    exact hs.2 last hl

def unreliable : Driver (Counted Recording) :=
  Faults.around [(.close, [1])] (Script.driver { failBatch := some (2, 0) })

def twoBatches : List Request :=
  [.update Counter.count .null, .update Counter.count .null, .query Counter.look .null .unbounded,
    .update Counter.count .null, .flush]

theorem unreliable_handles_close :
    let y := run (opened unreliable.logged {} none .batch { state := default } {}) twoBatches
    (HandleLog.prepared y.2.database.log).Nodup ∧
      HandleLog.closed y.2.database.log = [⟨1⟩, ⟨2⟩, ⟨3⟩] ∧
      (HandleLog.closed y.2.database.log).Nodup ∧ y.1.worker.strategy.held = [] := by
  have hfresh : (HandleLog.prepared (run (opened unreliable.logged {} none .batch
      { state := default } {}) twoBatches).2.database.log).Nodup := by
    decide +kernel
  have hclosed : HandleLog.closed (run (opened unreliable.logged {} none .batch
      { state := default } {}) twoBatches).2.database.log = [⟨1⟩, ⟨2⟩, ⟨3⟩] := by
    decide +kernel
  have h := handles_close_once unreliable {} none .batch default {} twoBatches hfresh
  exact ⟨hfresh, hclosed, h.1, h.2.2.2.2.2 .flush rfl trivial⟩

end Request

end MappedSql
