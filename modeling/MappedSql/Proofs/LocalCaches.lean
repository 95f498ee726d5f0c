import MappedSql.Proofs.Consultation
import MappedSql.Proofs.Transparency

/-!
# Local caches

A session without namespace caches, on its own with a database. Its local cache is empty
whenever updates wait, and what it holds is what the database answers now: each call that may
change the database has emptied the local cache first, and keeps it empty when it fails half
way. So a select that is answered from the local cache shows what a query would show.
-/

namespace MappedSql

variable {σ δ α : Type}

-- ---------------------------------------------------------------------------
-- Surveys
-- ---------------------------------------------------------------------------

/-- What is known of a database by asking for it through strategies, and what is kept of it. -/
structure Survey (δ σ : Type) where
  driver : Driver σ
  configuration : Configuration
  database : σ → δ
  Ready : Strategy × Channel σ → Prop
  Tells : δ → Execution → ResultSet → Prop
  Fits : δ → CacheKey × ResultSet → Prop

namespace Survey

/-- Strategies tell what is in the database, and leave it alone where no update waits. -/
structure Sound (o : Survey δ σ) : Prop where
  ready : ∀ s, s.1.held = [] → o.Ready s
  update : ∀ e s, o.Ready s → Triple (Strategy.update e o.driver) s (fun _ => o.Ready)
    fun _ => o.Ready
  query : ∀ e s, o.Ready s → Triple (Strategy.query e o.driver) s
    (fun rows s' => (o.Ready s' ∧ Strategy.Settles o.database s s') ∧
      o.Tells (o.database s'.2.database) e rows)
    (fun _ s' => o.Ready s' ∧ Strategy.Settles o.database s s')
  flush : (Strategy.flush o.driver).Respects fun s s' =>
    s'.1.held = [] ∧ Strategy.Settles o.database s s'

/-- What is told of a bound statement may be kept under a key. -/
def Keeps (o : Survey δ σ) (bounds : RowBounds) (bound : BoundStatement) (key : CacheKey) : Prop :=
  ∀ x e rows, e.bound = bound → e.handlers = o.configuration.handlers → o.Tells x e rows →
    o.Fits x (key, rows.paginate bounds)

def Admits (o : Survey δ σ) (call : Call) : Prop :=
  ∀ q, call.Asks o.configuration q → ∀ x e rows, e.bound.sql = q.sql →
    e.bound.values e.handlers = q.values → o.Tells x e rows →
      o.Fits x (q.key, rows.paginate q.bounds)

def plain (d : Driver σ) (c : Configuration) : Survey Unit σ where
  driver := d
  configuration := c
  database _ := ()
  Ready _ := True
  Tells _ _ _ := True
  Fits _ _ := True

theorem plain_sound (d : Driver σ) (c : Configuration) : (plain d c).Sound where
  ready _ _ := trivial
  update _ _ _ := .always (fun _ _ => trivial) fun _ _ => trivial
  query e s _ := by
    have hqueue : Triple (Strategy.query e d) s (fun _ s' => s'.1.queue = [])
        fun _ s' => s'.1.queue = [] := by
      obtain ⟨strategy, c⟩ := s
      cases strategy with
      | simple => exact Strategy.dispatch_simple (.always (fun _ _ => rfl) fun _ _ => rfl)
      | reuse pool => exact Strategy.dispatch_reuse (.always (fun _ _ => rfl) fun _ _ => rfl)
      | batch queue =>
        refine Strategy.dispatch_batch (.bind ((BatchQueue.flush_empties d).triple (queue, c)) ?_)
        rintro _ ⟨_, c₁⟩ rfl
        exact .onSecond (.always (fun _ _ => rfl) fun _ _ => rfl)
    exact hqueue.mono (fun _ _ h => ⟨⟨trivial, h, fun _ => rfl⟩, trivial⟩)
      fun _ _ h => ⟨trivial, h, fun _ => rfl⟩
  flush s := ⟨Strategy.flush_held d s, Strategy.queue_of_held (Strategy.flush_held d s),
    fun _ => rfl⟩

theorem plain_admits (d : Driver σ) (c : Configuration) (call : Call) : (plain d c).Admits call :=
  fun _ _ _ _ _ _ _ _ => trivial

end Survey

section
variable {c : Configuration} {id : String} {argument : Argument} {bounds : RowBounds}
  {s : Statement} {bound : BoundStatement} {key : CacheKey}

theorem Configuration.question_eq (hs : c.statement id = .ok s) (hb : s.bound argument = .ok bound)
    (hk : Worker.cacheKey c s bounds bound = .ok key) : c.question id argument bounds =
      .ok { key, sql := bound.sql, values := bound.values c.handlers, bounds } :=
  bind_ok.mpr ⟨s, hs, bind_ok.mpr ⟨bound, hb, bind_ok.mpr ⟨key, hk, rfl⟩⟩⟩

theorem Configuration.direct_of_shows {answer : String → List Value → ResultSet} {q : Question}
    {rows : ResultSet} (hq : c.question id argument bounds = .ok q) (h : q.Shows answer rows) :
    c.direct answer id argument bounds = .ok rows := by
  obtain ⟨s, hs, hq⟩ := bind_ok.mp hq
  obtain ⟨bound, hb, hq⟩ := bind_ok.mp hq
  obtain ⟨key, -, hq⟩ := bind_ok.mp hq
  cases hq
  obtain ⟨values, hv, rfl⟩ := h
  exact bind_ok.mpr ⟨s, hs, bind_ok.mpr ⟨bound, hb, bind_ok.mpr ⟨values, hv, rfl⟩⟩⟩

end

/-- Selects with equal keys send the same to the driver and keep the same rows. -/
def Configuration.TellsApart (c : Configuration) (calls : List Call) : Prop :=
  ∀ call ∈ calls, ∀ q, call.Asks c q → ∀ call' ∈ calls, ∀ q', call'.Asks c q' →
    q.key = q'.key → q = q'

/-- An entry fits a database when it is what all selects with its key show. -/
def View.survey (v : View δ σ) (d : Driver σ) (answer : δ → String → List Value → ResultSet)
    (c : Configuration) (calls : List Call) : Survey δ σ where
  driver := d
  configuration := c
  database := v.database
  Ready := Strategy.Stocked v
  Tells x e rows := e.Answered (answer x) rows
  Fits x entry := ∀ call ∈ calls, ∀ q, call.Asks c q → q.key = entry.1 →
    q.Shows (answer x) entry.2

section
variable {d : Driver σ} {v : View δ σ} {answer : δ → String → List Value → ResultSet}
  {c : Configuration} {calls : List Call}

theorem Driver.Consults.survey_sound (hd : d.Consults v answer) :
    (v.survey d answer c calls).Sound where
  ready _ := Strategy.stocked_of_held
  update e _ h := Strategy.update_stocked hd e h
  query e _ h := Strategy.query_settles hd e h
  flush := Strategy.flush_settles hd

theorem Configuration.TellsApart.admits (h : c.TellsApart calls) {call : Call}
    (hm : call ∈ calls) : (v.survey d answer c calls).Admits call := by
  rintro q hq x e _ hsql hvalues ⟨values, hv, rfl⟩ call' hm' q' hq' hkey
  obtain rfl := h call hm q hq call' hm' q' hq' hkey.symm
  exact ⟨values, hvalues ▸ hv, by rw [hsql]⟩

end

-- ---------------------------------------------------------------------------
-- Workers
-- ---------------------------------------------------------------------------

namespace Worker

variable {o : Survey δ σ} {x : Worker σ × Channel σ}

/-- Where updates wait nothing is kept, and else what is kept fits the database. -/
structure Current (o : Survey δ σ) (x : Worker σ × Channel σ) : Prop where
  configuration : x.1.configuration = o.configuration
  driver : x.1.transaction.driver = o.driver
  ready : o.Ready (x.1.strategy, x.2)
  pending : x.1.strategy.queue ≠ [] → x.1.localCache = []
  fits : ∀ entry ∈ x.1.localCache, o.Fits (o.database x.2.database) entry

namespace Current

theorem of_empty (hc : x.1.configuration = o.configuration)
    (hd : x.1.transaction.driver = o.driver) (hr : o.Ready (x.1.strategy, x.2))
    (hl : x.1.localCache = []) : Current o x :=
  ⟨hc, hd, hr, fun _ => hl, hl ▸ nofun⟩

theorem forget (h : Current o x) : Current o ({ x.1 with localCache := [] }, x.2) :=
  .of_empty h.configuration h.driver h.ready rfl

theorem forgottenFor (h : Current o x) (s : Statement) :
    Current o (x.1.forgottenFor s, x.2) := by
  cases hs : s.flushesCache with
  | true => exact .of_empty h.configuration h.driver h.ready (by simp [Worker.forgottenFor, hs])
  | false => simpa [Worker.forgottenFor, hs] using h

theorem queue_eq_nil (h : Current o x) {entry : CacheKey × ResultSet}
    (hm : entry ∈ x.1.localCache) : x.1.strategy.queue = [] := by
  by_contra hq
  rw [h.pending hq] at hm
  exact List.not_mem_nil hm

theorem settles {s : Strategy} {c : Channel σ} (h : Current o x) (hr : o.Ready (s, c))
    (hs : Strategy.Settles o.database (x.1.strategy, x.2) (s, c)) :
    Current o ({ x.1 with strategy := s }, c) := by
  refine ⟨h.configuration, h.driver, hr, fun hq => absurd hs.1 hq, fun entry hm => ?_⟩
  rw [show o.database c.database = o.database x.2.database from hs.2 (h.queue_eq_nil hm)]
  exact h.fits entry hm

end Current

variable (ho : o.Sound) (h : Current o x)
include ho h

theorem update_current (s : Statement) (argument : Argument) :
    Triple (update s argument) x (fun _ => Current o) (fun _ => Current o) := by
  refine bind_ensureOpen (fun hopen => .bind_modify ?_) fun _ => h
  have hempty := h.forget
  refine .bind_ofExcept (fun bound _ => ?_) fun _ _ => hempty
  refine bind_current (bind_connection h.driver hopen ?_)
  exact onStrategy_ok (ho.update _ _ hempty.ready)
    (fun _ s c hr => .of_empty h.configuration h.driver hr rfl)
    fun _ s c hr => .of_empty h.configuration h.driver hr rfl

theorem fetch_current (hopen : x.1.isClosed = false) (s : Statement) (bounds : RowBounds)
    (bound : BoundStatement) :
    Triple (fetch s bounds bound) x
      (fun rows x' => (Current o x' ∧
          Strategy.Settles o.database (x.1.strategy, x.2) (x'.1.strategy, x'.2)) ∧
        ∃ e found, e.bound = bound ∧ e.handlers = o.configuration.handlers ∧
          o.Tells (o.database x'.2.database) e found ∧ rows = found.paginate bounds)
      (fun _ => Current o) := by
  refine bind_current (bind_connection h.driver hopen ?_)
  refine .bind (onStrategy_ok (ho.query _ _ h.ready)
    (Q := fun rows x' => (Current o x' ∧
        Strategy.Settles o.database (x.1.strategy, x.2) (x'.1.strategy, x'.2)) ∧
      o.Tells (o.database x'.2.database) (x.1.execution s bound) rows)
    (fun _ s c hs => ⟨⟨h.settles hs.1.1 hs.1.2, hs.1.2⟩, hs.2⟩)
    fun _ s c hs => h.settles hs.1 hs.2) ?_
  rintro rows x' ⟨hx', ht⟩
  exact .pure ⟨hx', _, rows, rfl, congrArg Configuration.handlers h.configuration, ht, rfl⟩

theorem queryBound_current (s : Statement) {bounds : RowBounds} {key : CacheKey}
    {bound : BoundStatement} (hkey : o.Keeps bounds bound key) :
    Triple (queryBound s bounds key bound) x
      (fun rows x' => Current o x' ∧ o.Fits (o.database x'.2.database) (key, rows))
      (fun _ => Current o) := by
  refine bind_ensureOpen (fun hopen => bind_forgetFor (bind_current ?_)) fun _ => h
  have hforgotten := h.forgottenFor s
  dsimp only
  cases hg : Keyed.get? (x.1.forgottenFor s).localCache key with
  | some hit => exact .pure ⟨hforgotten, hforgotten.fits _ (Keyed.mem_of_get? hg)⟩
  | none =>
    refine .bind (fetch_current ho hforgotten hopen s bounds bound) ?_
    rintro _ ⟨w, c⟩ ⟨⟨hcurrent, hs⟩, e, found, hbound, hhandlers, ht, rfl⟩
    have hfits := hkey _ e found hbound hhandlers ht
    refine .bind_modify (bind_current ?_)
    dsimp only
    split
    · exact .bind_modify (.pure ⟨hcurrent.forget, hfits⟩)
    · refine .pure ⟨⟨hcurrent.configuration, hcurrent.driver, hcurrent.ready,
        fun hq => absurd hs.1 hq, fun entry hm => ?_⟩, hfits⟩
      rcases Keyed.mem_put hm with hm | rfl
      · exact hcurrent.fits entry hm
      · exact hfits

theorem handOut_current (s : Statement) (argument : Argument) (bounds : RowBounds)
    (enough : Nat → Row → Bool) :
    Triple (handOut s argument bounds enough) x (fun _ => Current o) (fun _ => Current o) := by
  refine bind_ensureOpen (fun hopen => bind_forgetFor ?_) fun _ => h
  have hforgotten := h.forgottenFor s
  refine .bind_ofExcept (fun bound _ => ?_) fun _ _ => hforgotten
  exact .bind (fetch_current ho hforgotten hopen s bounds bound) fun rows x' hx' => .pure hx'.1.1

theorem flush_current :
    Triple flush x
      (fun _ x' => Current o x' ∧ ∃ s c, x' = ({ x.1 with strategy := s }, c) ∧ s.held = [])
      (fun _ => Current o) := by
  refine bind_ensureOpen (fun hopen => bind_current (bind_connection h.driver hopen ?_)) fun _ => h
  have hsettles (s : Strategy) (c : Channel σ) (hs : s.held = [] ∧
      Strategy.Settles o.database (x.1.strategy, x.2) (s, c)) :
      Current o ({ x.1 with strategy := s }, c) :=
    h.settles (ho.ready _ hs.1) hs.2
  exact onStrategy_ok (ho.flush.triple _)
    (fun _ s c hs => ⟨hsettles s c hs, s, c, rfl, hs.1⟩) fun _ s c hs => hsettles s c hs

theorem commit_current (required : Bool) :
    Triple (commit required) x (fun _ => Current o) (fun _ => Current o) := by
  refine bind_ensureOpen (fun _ => .bind_modify ?_) fun _ => h
  refine .bind (flush_current ho h.forget) ?_
  rintro _ _ ⟨hcurrent, s, c, rfl, hheld⟩
  cases required with
  | false => exact .pure hcurrent
  | true =>
    have hend (database : σ) : Current o
        ({ x.1 with localCache := [], strategy := s }, { c with database }) :=
      .of_empty h.configuration h.driver (ho.ready _ hheld) rfl
    exact bind_current (.onSecond (.within (.always (fun _ => hend) fun _ => hend)))

theorem rollback_current (required : Bool) :
    Triple (rollback required) x (fun _ => Current o) (fun _ => Current o) := by
  refine bind_current ?_
  cases hopen : x.1.isClosed with
  | true => exact .pure h
  | false =>
    refine .bind_modify (bind_current ?_)
    refine .bind (P := fun _ x' => ∃ s c,
      x' = ({ x.1 with localCache := [], strategy := s }, c) ∧ s.held = [])
      (.attempt (bind_connection h.driver hopen (onStrategy_ok
        ((Strategy.discard_held o.driver).triple _) (fun _ s c hheld => ⟨s, c, rfl, hheld⟩)
        fun _ s c hheld => ⟨s, c, rfl, hheld⟩))) ?_
    rintro discarded _ ⟨s, c, rfl, hheld⟩
    have hend (database : σ) : Current o
        ({ x.1 with localCache := [], strategy := s }, { c with database }) :=
      .of_empty h.configuration h.driver (ho.ready _ hheld) rfl
    refine .bind (P := fun _ => Current o) (.attempt ?_) fun rolledBack x₂ h₂ => ?_
    · cases required with
      | false => exact .pure (hend c.database)
      | true => exact .onSecond (.within (.always (fun _ => hend) fun _ => hend))
    · exact .bind_ofExcept (fun _ _ => .ofExcept (fun _ _ => h₂) fun _ _ => h₂) fun _ _ => h₂

omit ho in
theorem clearLocalCache_current :
    Triple clearLocalCache x (fun _ => Current o) (fun _ => Current o) := by
  refine bind_current ?_
  cases x.1.isClosed with
  | true => exact .pure h
  | false => exact .modify h.forget

theorem close_current (force : Bool) :
    Triple (close force) x (fun _ => Current o) (fun _ => Current o) := by
  refine bind_current ?_
  cases x.1.isClosed with
  | true => exact .pure h
  | false =>
    refine .bind (.attempt (Q := fun _ => Current o) (rollback_current ho h force))
      fun _ x₁ h₁ => .modify ?_
    exact .of_empty h₁.configuration h₁.driver h₁.ready rfl

end Worker

-- ---------------------------------------------------------------------------
-- Executors
-- ---------------------------------------------------------------------------

namespace Executor

variable {o : Survey δ σ} {y : Executor σ × World σ} {E : Error → Executor σ × World σ → Prop}

structure Current (o : Survey δ σ) (y : Executor σ × World σ) : Prop where
  overlays : y.1.overlays = none
  worker : Worker.Current o (work y)

theorem bind_key {s : Statement} {bounds : RowBounds} {bound : BoundStatement}
    {f : CacheKey → Execute σ α} {Q : α → Executor σ × World σ → Prop}
    (hQ : ∀ key, Worker.cacheKey (work y).1.configuration s bounds bound = .ok key →
      Triple (f key) y Q E)
    (hE : ∀ e, ((work y).1.isClosed = false →
      Worker.cacheKey (work y).1.configuration s bounds bound = .error e) → E e y) :
    Triple (key s bounds bound >>= f) y Q E := by
  refine .bind (P := fun key y' => y' = y ∧
    Worker.cacheKey (work y).1.configuration s bounds bound = .ok key)
    (onWorker_ok (P := fun key x => x = work y ∧
        Worker.cacheKey (work y).1.configuration s bounds bound = .ok key)
      (F := fun e x => x = work y ∧ ((work y).1.isClosed = false →
        Worker.cacheKey (work y).1.configuration s bounds bound = .error e)) ?_
      (by rintro _ _ ⟨rfl, hk⟩; exact ⟨rfl, hk⟩) (by rintro e _ ⟨rfl, he⟩; exact hE e he)) ?_
  · refine Worker.bind_ensureOpen (fun _ => Worker.bind_current ?_)
      fun hc => ⟨rfl, fun ho => absurd (ho.symm.trans hc) Bool.false_ne_true⟩
    exact .ofExcept (fun _ hk => ⟨rfl, hk⟩) fun _ he => ⟨rfl, fun _ => he⟩
  · rintro key _ ⟨rfl, hk⟩
    exact hQ key hk

theorem changeOverlays_none (h : y.1.overlays = none)
    (f : Overlays CacheKey ResultSet → Overlays CacheKey ResultSet) :
    Triple (changeOverlays f) y (fun _ y' => y' = y) E := by
  obtain ⟨⟨w, _⟩, world⟩ := y
  subst h
  exact .modify rfl

theorem flushCacheFor_none (h : y.1.overlays = none) (s : Statement) :
    Triple (flushCacheFor s) y (fun _ y' => y' = y) E := by
  unfold flushCacheFor
  cases s.cache with
  | none => exact .pure rfl
  | some r =>
    cases s.flushesCache with
    | true => exact changeOverlays_none h _
    | false => exact .pure rfl

theorem publish_none (h : y.1.overlays = none) :
    Triple publish y (fun _ y' => y' = y) E := by
  refine .modify ?_
  dsimp only
  rw [h]

theorem onWorker_current {a : Work σ α} {P : α → Worker σ × Channel σ → Prop}
    (h : Current o y) (ha : Triple a (work y) P fun _ => Worker.Current o) :
    Triple (onWorker a) y (fun value y' => y'.1.overlays = none ∧ P value (work y'))
      (fun _ => Current o) :=
  onWorker_ok ha (fun _ _ hp => ⟨h.overlays, hp⟩) fun _ _ hx => ⟨h.overlays, hx⟩

theorem onWorker_keeps {a : Work σ α} (h : Current o y)
    (ha : Triple a (work y) (fun _ => Worker.Current o) fun _ => Worker.Current o) :
    Triple (onWorker a) y (fun _ => Current o) (fun _ => Current o) :=
  (onWorker_current h ha).mono (fun _ _ hy => ⟨hy.1, hy.2⟩) fun _ _ => id

variable (ho : o.Sound) (h : Current o y)
include ho h

theorem update_current (s : Statement) (argument : Argument) :
    Triple (update s argument) y (fun _ => Current o) (fun _ => Current o) := by
  refine .bind (flushCacheFor_none h.overlays s) ?_
  rintro _ _ rfl
  exact onWorker_keeps h (Worker.update_current ho h.worker s argument)

theorem query_current (s : Statement) (argument : Argument) (bounds : RowBounds)
    (hkey : ∀ bound key, s.bound argument = .ok bound →
      Worker.cacheKey o.configuration s bounds bound = .ok key → o.Keeps bounds bound key) :
    Triple (query s argument bounds) y
      (fun rows y' => Current o y' ∧ ∃ bound key, s.bound argument = .ok bound ∧
        Worker.cacheKey o.configuration s bounds bound = .ok key ∧
        o.Fits (o.database y'.2.database) (key, rows))
      (fun _ => Current o) := by
  refine .bind_ofExcept (fun bound hb => bind_key (fun key hk => .bind_get ?_) fun _ _ => h)
    fun _ _ => h
  rw [h.overlays]
  rw [h.worker.configuration] at hk
  exact (onWorker_current h (Worker.queryBound_current ho h.worker s (hkey bound key hb hk))).mono
    (fun _ _ hy => ⟨⟨hy.1, hy.2.1⟩, bound, key, hb, hk, hy.2.2⟩) fun _ _ => id

theorem handOut_current (s : Statement) (argument : Argument) (bounds : RowBounds)
    (enough : Nat → Row → Bool) :
    Triple (handOut s argument bounds enough) y (fun _ => Current o) (fun _ => Current o) := by
  refine .bind (flushCacheFor_none h.overlays s) ?_
  rintro _ _ rfl
  exact onWorker_keeps h (Worker.handOut_current ho h.worker s argument bounds enough)

theorem flush_current : Triple flush y (fun _ => Current o) (fun _ => Current o) :=
  onWorker_keeps h ((Worker.flush_current ho h.worker).mono (fun _ _ hx => hx.1) fun _ _ => id)

theorem commit_current (required : Bool) :
    Triple (commit required) y (fun _ => Current o) (fun _ => Current o) := by
  refine .bind (onWorker_keeps h (Worker.commit_current ho h.worker required)) fun _ y' h' => ?_
  exact (publish_none h'.overlays).mono (fun _ _ he => he ▸ h') fun _ _ => id

theorem rollback_current (required : Bool) :
    Triple (rollback required) y (fun _ => Current o) (fun _ => Current o) := by
  refine .bind (.attempt (Q := fun _ => Current o)
    (onWorker_keeps h (Worker.rollback_current ho h.worker required))) fun outcome y₁ h₁ => ?_
  cases required with
  | false => exact .ofExcept (fun _ _ => h₁) fun _ _ => h₁
  | true =>
    refine .bind (changeOverlays_none h₁.overlays _) ?_
    rintro _ _ rfl
    exact .ofExcept (fun _ _ => h₁) fun _ _ => h₁

omit ho in
theorem clearLocalCache_current :
    Triple clearLocalCache y (fun _ => Current o) (fun _ => Current o) :=
  onWorker_keeps h (Worker.clearLocalCache_current h.worker)

theorem close_current (force : Bool) :
    Triple (close force) y (fun _ => Current o) (fun _ => Current o) := by
  have hends {y' : Executor σ × World σ} (h' : y' = y) :
      Triple (onWorker (Worker.close force)) y' (fun _ => Current o) fun _ => Current o :=
    h' ▸ onWorker_keeps h (Worker.close_current ho h.worker force)
  cases force with
  | true => exact .bind (changeOverlays_none h.overlays _) fun _ _ => hends
  | false => exact .bind (publish_none h.overlays) fun _ _ => hends

end Executor

-- ---------------------------------------------------------------------------
-- Sessions
-- ---------------------------------------------------------------------------

namespace Session

variable {o : Survey δ σ} {z : Session σ × World σ}

abbrev Current (o : Survey δ σ) (z : Session σ × World σ) : Prop :=
  Executor.Current o (unit z)

theorem opened_current (ho : o.Sound) (hc : o.configuration.cachesEnabled = false)
    (timeout : Option Timeout) (type : ExecutorType) (w : World σ) :
    Current o (opened o.driver o.configuration timeout type w) := by
  have hworker := Executor.start_worker o.configuration { driver := o.driver, timeout } type
  refine ⟨(Executor.start_overlays ..).trans (by rw [hc]; rfl), ?_⟩
  have hstart : Worker.Current o
      (Worker.start o.configuration { driver := o.driver, timeout } type, w.toChannel) :=
    .of_empty rfl rfl (ho.ready _ (by cases type <;> rfl)) rfl
  exact (congrArg (fun worker => Worker.Current o (worker, w.toChannel)) hworker).mpr hstart

theorem onExecutor_keeps {a : Execute σ α} {z₁ : Session σ × World σ} (hz : unit z₁ = unit z)
    (ha : Triple a (unit z) (fun _ => Executor.Current o) fun _ => Executor.Current o) :
    Triple (onExecutor a) z₁ (fun _ => Current o) (fun _ => Current o) :=
  onExecutor_ok (hz ▸ ha) (fun _ _ => id) fun _ _ => id

variable (ho : o.Sound) (h : Current o z)
include ho h

theorem selectList_current {id : String} {argument : Argument} {bounds : RowBounds}
    (ha : ∀ q, o.configuration.question id argument bounds = .ok q → ∀ x e rows,
      e.bound.sql = q.sql → e.bound.values e.handlers = q.values → o.Tells x e rows →
        o.Fits x (q.key, rows.paginate q.bounds)) :
    Triple (selectList id argument bounds) z
      (fun rows z' => Current o z' ∧ ∃ q, o.configuration.question id argument bounds = .ok q ∧
        o.Fits (o.database z'.2.database) (q.key, rows))
      (fun _ => Current o) := by
  refine bind_statement (fun s hs => ?_) fun _ _ => h
  rw [show z.1.configuration = o.configuration from h.worker.configuration] at hs
  refine onExecutor_ok (Executor.query_current ho h s argument bounds ?_) ?_ fun _ _ hy => hy
  · rintro bound key hb hk x e rows rfl hhandlers ht
    exact ha _ (Configuration.question_eq hs hb hk) x e rows rfl (by rw [hhandlers]) ht
  · rintro rows y ⟨hy, bound, key, hb, hk, hfits⟩
    exact ⟨hy, _, Configuration.question_eq hs hb hk, hfits⟩

end Session

theorem Call.perform_current {o : Survey δ σ} (ho : o.Sound) {z : Session σ × World σ}
    (h : Session.Current o z) {call : Call} (ha : o.Admits call) :
    Triple call.perform z (fun _ => Session.Current o) (fun _ => Session.Current o) := by
  have hclose : Triple Session.close z (fun _ => Session.Current o) fun _ => Session.Current o :=
    Session.bind_isRequired (.bind (Session.onExecutor_keeps rfl (Executor.close_current ho h _))
      fun _ _ h' => .modify h')
  cases call with
  | selectList id argument bounds =>
    exact .bind (Session.selectList_current ho h ha) fun _ _ h' => .pure h'.1
  | selectOne id argument =>
    refine .bind (.bind (Session.selectList_current ho h ha) fun rows z' h' => ?_)
      fun _ _ h' => .pure h'
    split
    · exact .pure h'.1
    · exact .pure h'.1
    · exact .throw h'.1
  | handOut id argument bounds enough =>
    refine Triple.returning (P := Session.Current o) (Session.bind_statement (fun s _ => ?_)
      fun _ _ => h) (fun _ h' => h') _
    exact Session.onExecutor_keeps rfl (Executor.handOut_current ho h s argument bounds enough)
  | update id argument =>
    refine Triple.returning (P := Session.Current o) (Session.bind_statement
      (fun s _ => .bind_modify ?_) fun _ _ => h) (fun _ h' => h') _
    exact Session.onExecutor_keeps rfl (Executor.update_current ho h s argument)
  | flush =>
    exact (Session.onExecutor_keeps rfl (Executor.flush_current ho h)).returning (fun _ => id) _
  | commit force =>
    exact .bind (Session.bind_isRequired (.bind (Session.onExecutor_keeps rfl
      (Executor.commit_current ho h _)) fun _ _ h' => .modify h')) fun _ _ h' => .pure h'
  | rollback force =>
    exact .bind (Session.bind_isRequired (.bind (Session.onExecutor_keeps rfl
      (Executor.rollback_current ho h _)) fun _ _ h' => .modify h')) fun _ _ h' => .pure h'
  | clearCache =>
    exact (Session.onExecutor_keeps rfl (Executor.clearLocalCache_current h)).returning
      (fun _ => id) _
  | close => exact hclose.returning (fun _ => id) _
  | drop =>
    refine Triple.returning (P := Session.Current o) (.bind_get ?_) (fun _ => id) _
    cases z.1.isClosed with
    | true => exact .pure h
    | false => exact hclose

theorem Call.inTurn_current {o : Survey δ σ} (ho : o.Sound)
    (hc : o.configuration.cachesEnabled = false) (timeout : Option Timeout) (type : ExecutorType)
    (w : World σ) {calls : List Call} (ha : ∀ call ∈ calls, o.Admits call) :
    Session.Current o (Action.inTurn Call.perform calls
      (Session.opened o.driver o.configuration timeout type w)).2 :=
  Action.inTurn_induction (I := fun _ => Session.Current o)
    (Session.opened_current ho hc timeout type w) fun _ call hb h =>
      perform_current ho h (ha call (hb.subset (List.mem_append_right _ List.mem_cons_self)))

-- ---------------------------------------------------------------------------
-- Selects that are answered from a local cache
-- ---------------------------------------------------------------------------

section
variable {s : Statement} {argument : Argument} {bounds : RowBounds} {key : CacheKey}
  {bound : BoundStatement} {rows : ResultSet}

theorem Worker.queryBound_hit {x : Worker σ × Channel σ}
    {Q : ResultSet → Worker σ × Channel σ → Prop} {E : Error → Worker σ × Channel σ → Prop}
    (ho : x.1.isClosed = false) (hs : s.flushesCache = false)
    (hrows : Keyed.get? x.1.localCache key = some rows) (hQ : Q rows x) :
    Triple (queryBound s bounds key bound) x Q E := by
  refine bind_ensureOpen (fun _ => bind_forgetFor (bind_current ?_))
    fun hc => absurd (ho.symm.trans hc) Bool.false_ne_true
  rw [show x.1.forgottenFor s = x.1 by simp [forgottenFor, hs]]
  dsimp only
  rw [hrows]
  exact .pure hQ

theorem Executor.query_hit {y : Executor σ × World σ}
    {Q : ResultSet → Executor σ × World σ → Prop} {E : Error → Executor σ × World σ → Prop}
    (hn : y.1.overlays = none) (ho : (work y).1.isClosed = false) (hs : s.flushesCache = false)
    (hb : s.bound argument = .ok bound)
    (hk : Worker.cacheKey (work y).1.configuration s bounds bound = .ok key)
    (hrows : Keyed.get? (work y).1.localCache key = some rows) (hQ : Q rows y) :
    Triple (query s argument bounds) y Q E := by
  refine .bind_ofExcept (fun bound' hb' => ?_) fun e he => nomatch hb.symm.trans he
  cases hb.symm.trans hb'
  refine bind_key (fun key' hk' => .bind_get ?_) fun e he => nomatch hk.symm.trans (he ho)
  cases hk.symm.trans hk'
  rw [hn]
  exact onWorker_ok (P := fun found x => found = rows ∧ x = work y) (F := fun _ _ => False)
    (Worker.queryBound_hit ho hs hrows ⟨rfl, rfl⟩)
    (by rintro _ _ ⟨rfl, rfl⟩; exact hQ) fun _ _ => False.elim

end

namespace Session

/-- The local cache of an open session has the rows of a select that does not empty it. -/
structure Remembers (s : Session σ) (id : String) (argument : Argument) (bounds : RowBounds)
    (st : Statement) (bound : BoundStatement) (rows : ResultSet) : Prop where
  isOpen : s.isClosed = false
  found : s.configuration.statement id = .ok st
  keeps : st.flushesCache = false
  binds : st.bound argument = .ok bound
  cached : ∃ key, Worker.cacheKey s.configuration st bounds bound = .ok key ∧
    Keyed.get? s.executor.worker.localCache key = some rows

theorem Remembers.selectList {z : Session σ × World σ} {id : String} {argument : Argument}
    {bounds : RowBounds} {s : Statement} {bound : BoundStatement} {rows : ResultSet}
    (h : z.1.Remembers id argument bounds s bound rows) (hn : z.1.executor.overlays = none) :
    (selectList id argument bounds).outcome z = (.ok rows, z) := by
  obtain ⟨key, hk, hrows⟩ := h.cached
  refine Triple.outcome_eq (bind_statement (fun s' hs => ?_) fun e he =>
    nomatch h.found.symm.trans he)
  cases h.found.symm.trans hs
  exact onExecutor_ok (P := fun found y => found = rows ∧ y = unit z) (F := fun _ _ => False)
    (Executor.query_hit (y := unit z) hn h.isOpen h.keeps h.binds hk hrows ⟨rfl, rfl⟩)
    (by rintro _ _ ⟨rfl, rfl⟩; exact ⟨rfl, rfl⟩) fun _ _ => False.elim

end Session

/-- A session without namespace caches on its own with its database, after any calls, any of which
may have failed. Nothing is kept in the local cache while updates wait for a batch. And when the
driver answers from its database, a select shows what the database then answers to the query
itself; where the local cache has the rows of a select, the driver is not asked, and would give
these rows if it were. -/
theorem local_cache_shows_database {σ : Type} (d : Driver σ) (c : Configuration)
    (hc : c.cachesEnabled = false) (timeout : Option Timeout) (type : ExecutorType) (w : World σ)
    (calls : List Call) :
    let z := (Action.inTurn Call.perform calls (Session.opened d c timeout type w)).2
    (z.1.executor.worker.strategy.queue ≠ [] → z.1.executor.worker.localCache = []) ∧
    ∀ (δ : Type) (v : View δ σ) (answer : δ → String → List Value → ResultSet),
      d.Consults v answer → ∀ id argument bounds,
        c.TellsApart (calls ++ [.selectList id argument bounds]) →
        let direct (s : σ) := c.direct (answer (v.database s)) id argument bounds
        (∀ rows z', (Session.selectList id argument bounds).outcome z = (.ok rows, z') →
          direct z'.2.database = .ok rows) ∧
        ∀ s bound rows, z.1.Remembers id argument bounds s bound rows →
          (Session.selectList id argument bounds).outcome z = (.ok rows, z) ∧
          direct z.2.database = .ok rows ∧
          ∀ found x, (Worker.fetch s bounds bound).outcome (Session.work z) = (.ok found, x) →
            found = rows := by
  intro z
  have hplain : Session.Current (Survey.plain d c) z :=
    Call.inTurn_current (Survey.plain_sound d c) hc timeout type w
      fun call _ => Survey.plain_admits d c call
  refine ⟨hplain.worker.pending, fun δ v answer hd id argument bounds hkeys => ?_⟩
  intro direct
  let o := v.survey d answer c (calls ++ [.selectList id argument bounds])
  have ho : o.Sound := hd.survey_sound
  have hselect : .selectList id argument bounds ∈ calls ++ [.selectList id argument bounds] :=
    List.mem_append_right _ List.mem_cons_self
  have hz : Session.Current o z :=
    Call.inTurn_current ho hc timeout type w fun call hm =>
      hkeys.admits (List.mem_append_left _ hm)
  have hshows (rows : ResultSet) (z' : Session σ × World σ)
      (hrows : (Session.selectList id argument bounds).outcome z = (.ok rows, z')) :
      direct z'.2.database = .ok rows := by
    obtain ⟨-, q, hq, hfits⟩ :=
      (Session.selectList_current ho hz (hkeys.admits hselect)).of_ok hrows
    exact Configuration.direct_of_shows hq (hfits _ hselect q hq rfl)
  refine ⟨hshows, fun s bound rows hr => ?_⟩
  have hserved := hr.selectList hz.overlays
  refine ⟨hserved, hshows _ _ hserved, fun found x hx => ?_⟩
  obtain ⟨key, hk, hcached⟩ := hr.cached
  obtain ⟨⟨-, hsettles⟩, e, told, rfl, hhandlers, ⟨values, hv, rfl⟩, rfl⟩ :=
    (Worker.fetch_current ho hz.worker hr.isOpen s bounds bound).of_ok hx
  have hsame : o.database x.2.database = v.database z.2.database :=
    hsettles.2 (hz.worker.queue_eq_nil (Keyed.mem_of_get? hcached))
  have hfound := hr.found
  rw [show z.1.configuration = c from hz.worker.configuration] at hfound hk
  have hdirect : direct z.2.database = .ok _ := Configuration.direct_of_shows
    (Configuration.question_eq hfound hr.binds hk) ⟨values, hhandlers ▸ hv, rfl⟩
  rw [hsame]
  exact Except.ok.inj (hdirect.symm.trans (hshows _ _ hserved))

-- ---------------------------------------------------------------------------
-- Notes
-- ---------------------------------------------------------------------------

namespace Notes

def unshared : Configuration :=
  { configuration with cachesEnabled := false }

/-- The first item of a batch is not taken, and the first query fails after the flush. -/
def unsteady : Driver (Counted (Workplace (Books Nat))) :=
  Faults.around [(.addBatch, [1]), (.executeQuery, [1])]
    (Books.engine change fun n _ _ => shown n).driver

def desk : World (Counted (Workplace (Books Nat))) where
  database := { inner := { desk := { database := .settled 0 } } }

def askedTwice : List Call :=
  [.update "write" (.ofInt 1), .update "write" (.ofInt 2), .selectList "read" .null .unbounded,
    .selectList "read" .null .unbounded]

theorem unsteady_consults : unsteady.Consults Workplace.view.counted fun b _ _ => shown b.current :=
  (Engine.driver_consults fun _ _ _ => rfl).around _

theorem reads_tell_apart :
    unshared.TellsApart (askedTwice ++ [.selectList "read" .null .unbounded]) := by
  have hread : ∀ call ∈ askedTwice ++ [.selectList "read" .null .unbounded], ∀ q,
      call.Asks unshared q → unshared.question "read" .null .unbounded = .ok q := by
    simp [askedTwice, Call.Asks]
  intro call hm q hq call' hm' q' hq' _
  cases (hread call hm q hq).symm.trans (hread call' hm' q' hq')
  rfl

end Notes

open Notes in
/-- One more update waits then, and the local cache is empty. -/
theorem notes_are_shown_from_local_cache :
    let z (calls : List Call) := (Action.inTurn Call.perform calls
      (Session.opened unsteady unshared none .batch desk)).2
    let later := z (askedTwice ++ [.update "write" (.ofInt 3)])
    unshared.cachesEnabled = false ∧
      (Session.selectList "read" .null .unbounded).outcome (z askedTwice) =
        (.ok (shown 1), z askedTwice) ∧
      later.1.executor.worker.strategy.queue ≠ [] ∧ later.1.executor.worker.localCache = [] := by
  intro z later
  have hcached : ∃ rows, (z askedTwice).1.Remembers "read" .null .unbounded read
      { sql := "select n from note", parameters := [], argument := .null } rows := by
    have hz : Session.Current (Survey.plain unsteady unshared) (z askedTwice) :=
      Call.inTurn_current (Survey.plain_sound _ _) rfl _ _ _
        fun call _ => Survey.plain_admits _ _ call
    have hc : (z askedTwice).1.configuration = unshared := hz.worker.configuration
    have hsome : (Keyed.get? (z askedTwice).1.executor.worker.localCache
        (CacheKey.ofComponents [.text "read", .ofNat RowBounds.unbounded.offset,
          .ofNat RowBounds.unbounded.limit, .text "select n from note"])).isSome = true := by
      decide +kernel
    obtain ⟨rows, hrows⟩ := Option.isSome_iff_exists.mp hsome
    exact ⟨rows, by decide +kernel, by rw [hc]; rfl, rfl, rfl, _, by rw [hc]; rfl, hrows⟩
  obtain ⟨rows, hrows⟩ := hcached
  obtain ⟨-, hserves⟩ := (local_cache_shows_database unsteady unshared rfl none .batch desk
    askedTwice).2 _ _ _ unsteady_consults "read" .null .unbounded reads_tell_apart
  obtain ⟨hselect, hdirect, -⟩ := hserves _ _ _ hrows
  have hdatabase : (z askedTwice).2.database.inner.desk.database.current = 1 := by decide +kernel
  have hnow {n : Nat} (hn : n = 1) :
      unshared.direct (fun _ _ => shown n) "read" .null .unbounded = .ok (shown 1) := by
    subst hn
    rfl
  have hshown : rows = shown 1 := Except.ok.inj (hdirect.symm.trans (hnow hdatabase))
  have hwaits : later.1.executor.worker.strategy.queue ≠ [] := by
    refine List.ne_nil_of_length_pos ?_
    decide +kernel
  exact ⟨rfl, hshown ▸ hselect, hwaits, (local_cache_shows_database unsteady unshared rfl none
    .batch desk (askedTwice ++ [.update "write" (.ofInt 3)])).1 hwaits⟩

end MappedSql
