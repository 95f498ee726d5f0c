import MappedSql.Proofs.Outcomes
import MappedSql.Session

/-!
# Rules for calls

The calls of sessions, executors and workers are made of few kinds of steps: reading the parts
of a state, working on one of its parts, and doing what the strategy says. A rule for each of
them, over any driver.
-/

namespace MappedSql

variable {σ α : Type}

-- ---------------------------------------------------------------------------
-- Executions and strategies
-- ---------------------------------------------------------------------------

theorem Execution.bind_values {β : Type} {e : Execution} {s : β × Channel σ}
    {f : List Value → Action (β × Channel σ) α} {Q : α → β × Channel σ → Prop}
    {E : Error → β × Channel σ → Prop}
    (hQ : ∀ values, e.bound.values e.handlers = .ok values → Triple (f values) s Q E)
    (hE : ∀ cause, e.bound.values e.handlers = .error cause → E cause s) :
    Triple (e.values.onSecond >>= f) s Q E := by
  obtain ⟨held, c⟩ := s
  exact .bind_onSecond (P := fun values c' => c' = c ∧ e.bound.values e.handlers = .ok values)
    (E := fun cause c' => c' = c ∧ e.bound.values e.handlers = .error cause)
    (.ofExcept (fun _ h => ⟨rfl, h⟩) fun _ h => ⟨rfl, h⟩)
    (by rintro cause _ ⟨rfl, h⟩; exact hE cause h)
    (by rintro values _ ⟨rfl, h⟩; exact hQ values h)

section
variable {R : Channel σ → Channel σ → Prop} [IsPreorder (Channel σ) R]
  (hrecord : ∀ event, (Channel.record event : Action (Channel σ) Nat).Respects R)
include hrecord

theorem Channel.generateKeys_respects (generator : Option KeyGenerator) (event : KeyEvent) :
    (generateKeys generator event : Action (Channel σ) Unit).Respects R := by
  cases generator with
  | none => exact .pure _
  | some generate => exact .bind (hrecord event) fun _ => .ofExcept _

theorem BatchGroup.requestKeys_respects (g : BatchGroup) (requests : List KeyRequest) :
    (g.requestKeys requests : Action (Channel σ) Unit).Respects R := by
  induction requests with
  | nil => exact .pure _
  | cons request rest ih => exact .bind (Channel.generateKeys_respects hrecord _ _) fun _ => ih

end

namespace Strategy

def type : Strategy → ExecutorType
  | .simple => .simple
  | .reuse _ => .reuse
  | .batch _ => .batch

def queue : Strategy → BatchQueue
  | .simple | .reuse _ => []
  | .batch queue => queue

theorem queue_of_held {s : Strategy} (h : s.held = []) : s.queue = [] := by
  cases s with
  | simple => rfl
  | reuse pool => rfl
  | batch queue => exact List.map_eq_nil_iff.mp h

variable {simple : Action (Channel σ) α} {reuse : Action (StatementPool × Channel σ) α}
  {batch : Action (BatchQueue × Channel σ) α} {c : Channel σ}
  {Q : α → Strategy × Channel σ → Prop} {E : Error → Strategy × Channel σ → Prop}

theorem dispatch_simple (h : Triple simple c (fun value c' => Q value (.simple, c'))
    fun e c' => E e (.simple, c')) : Triple (dispatch simple reuse batch) (.simple, c) Q E := by
  unfold Triple dispatch at *
  rw [Action.outcome_ofOutcome]
  dsimp only
  rcases ho : simple.outcome c with ⟨_ | _, _⟩ <;> rw [ho] at h <;> exact h

theorem dispatch_reuse {pool : StatementPool}
    (h : Triple reuse (pool, c) (fun value s' => Q value (.reuse s'.1, s'.2))
      fun e s' => E e (.reuse s'.1, s'.2)) :
    Triple (dispatch simple reuse batch) (.reuse pool, c) Q E := by
  unfold Triple dispatch at *
  rw [Action.outcome_ofOutcome]
  dsimp only
  rcases ho : reuse.outcome (pool, c) with ⟨_ | _, _⟩ <;> rw [ho] at h <;> exact h

theorem dispatch_batch {queue : BatchQueue}
    (h : Triple batch (queue, c) (fun value s' => Q value (.batch s'.1, s'.2))
      fun e s' => E e (.batch s'.1, s'.2)) :
    Triple (dispatch simple reuse batch) (.batch queue, c) Q E := by
  unfold Triple dispatch at *
  rw [Action.outcome_ofOutcome]
  dsimp only
  rcases ho : batch.outcome (queue, c) with ⟨_ | _, _⟩ <;> rw [ho] at h <;> exact h

end Strategy

-- ---------------------------------------------------------------------------
-- Workers
-- ---------------------------------------------------------------------------

namespace Transaction

theorem connection_ok {t : Transaction σ} {s : σ} {Q : Driver σ → σ → Prop}
    {E : Error → σ → Prop} (ho : t.isClosed = false) (h : Q t.driver s) :
    Triple t.connection s Q E := by
  simpa [connection, ho] using Triple.pure h

theorem commit_rule {t : Transaction σ} {s : σ} {Q : Unit → σ → Prop} {E : Error → σ → Prop}
    (ho : t.isClosed = false) (h : Triple t.driver.commit s Q E) : Triple t.commit s Q E := by
  refine .bind (connection_ok (Q := fun d s' => d = t.driver ∧ s' = s) ho ⟨rfl, rfl⟩) ?_
  rintro _ _ ⟨rfl, rfl⟩
  exact h

theorem rollback_rule {t : Transaction σ} {s : σ} {Q : Unit → σ → Prop} {E : Error → σ → Prop}
    (ho : t.isClosed = false) (h : Triple t.driver.rollback s Q E) : Triple t.rollback s Q E := by
  refine .bind (connection_ok (Q := fun d s' => d = t.driver ∧ s' = s) ho ⟨rfl, rfl⟩) ?_
  rintro _ _ ⟨rfl, rfl⟩
  exact h

end Transaction

namespace Worker

variable {x : Worker σ × Channel σ} {Q : α → Worker σ × Channel σ → Prop}
  {E : Error → Worker σ × Channel σ → Prop}

theorem bind_ensureOpen {f : Unit → Work σ α} (ho : x.1.isClosed = false → Triple (f ()) x Q E)
    (hc : x.1.isClosed = true → E .executorClosed x) : Triple (ensureOpen >>= f) x Q E := by
  cases h : x.1.isClosed with
  | false =>
    refine .bind (P := fun _ x' => x' = x) ?_ fun _ _ he => he ▸ ho h
    refine .bind_get ?_
    rw [h]
    exact .pure rfl
  | true =>
    refine .bind (P := fun _ _ => False) ?_ fun _ _ => False.elim
    refine .bind_get ?_
    rw [h]
    exact .throw (hc h)

theorem bind_current {f : Worker σ → Work σ α} (h : Triple (f x.1) x Q E) :
    Triple (current >>= f) x Q E :=
  .bind (P := fun w x' => w = x.1 ∧ x' = x) (.bind_get (.pure ⟨rfl, rfl⟩)) fun _ _ hs => by
    obtain ⟨rfl, rfl⟩ := hs
    exact h

def forgottenFor (w : Worker σ) (s : Statement) : Worker σ :=
  { w with localCache := if s.flushesCache then [] else w.localCache }

theorem bind_forgetFor {s : Statement} {f : Unit → Work σ α}
    (h : Triple (f ()) (x.1.forgottenFor s, x.2) Q E) : Triple (forgetFor s >>= f) x Q E := by
  unfold forgetFor
  unfold forgottenFor at h
  cases hs : s.flushesCache with
  | true => exact .bind_modify (by simpa [hs] using h)
  | false => simpa [hs] using h

theorem onStrategy_ok {a : Action (Strategy × Channel σ) α}
    {P : α → Strategy × Channel σ → Prop} {F : Error → Strategy × Channel σ → Prop}
    (h : Triple a (x.1.strategy, x.2) P F)
    (hQ : ∀ value s c, P value (s, c) → Q value ({ x.1 with strategy := s }, c))
    (hE : ∀ e s c, F e (s, c) → E e ({ x.1 with strategy := s }, c)) :
    Triple (onStrategy a) x Q E :=
  .within (h.mono (fun _ _ => hQ _ _ _) fun _ _ => hE _ _ _)

theorem onDatabase_ok {a : Action σ α} {P : α → σ → Prop} {F : Error → σ → Prop}
    (h : Triple a x.2.database P F)
    (hQ : ∀ value database, P value database → Q value (x.1, { x.2 with database }))
    (hE : ∀ e database, F e database → E e (x.1, { x.2 with database })) :
    Triple (onDatabase a) x Q E :=
  .onSecond (.within (h.mono (fun _ _ => hQ _ _) fun _ _ => hE _ _))

theorem bind_connection {d : Driver σ} {f : Driver σ → Work σ α}
    (hd : x.1.transaction.driver = d) (ho : x.1.isClosed = false) (h : Triple (f d) x Q E) :
    Triple (onDatabase x.1.transaction.connection >>= f) x Q E := by
  refine .bind (P := fun d' x' => d' = d ∧ x' = x) (.onSecond (.within ?_)) ?_
  · exact Transaction.connection_ok ho ⟨hd, rfl⟩
  · rintro _ _ ⟨rfl, rfl⟩
    exact h

theorem update_rule {d : Driver σ} {s : Statement} {argument : Argument}
    {Q : UpdateCount → Worker σ × Channel σ → Prop} (hd : x.1.transaction.driver = d)
    (ho : x.1.isClosed = false)
    (hQ : ∀ bound, s.bound argument = .ok bound →
      Triple (onStrategy (Strategy.update (x.1.execution s bound) d))
        ({ x.1 with localCache := [] }, x.2) Q E)
    (hE : ∀ e, s.bound argument = .error e → E e ({ x.1 with localCache := [] }, x.2)) :
    Triple (update s argument) x Q E := by
  refine bind_ensureOpen (fun _ => .bind_modify ?_) fun hc =>
    absurd (ho.symm.trans hc) Bool.false_ne_true
  exact .bind_ofExcept (fun bound hb => bind_current (bind_connection hd ho (hQ bound hb))) hE

end Worker

-- ---------------------------------------------------------------------------
-- Executors
-- ---------------------------------------------------------------------------

namespace Executor

def work (y : Executor σ × World σ) : Worker σ × Channel σ :=
  (y.1.worker, y.2.toChannel)

def withWork (y : Executor σ × World σ) (x : Worker σ × Channel σ) : Executor σ × World σ :=
  ({ y.1 with worker := x.1 }, { y.2 with toChannel := x.2 })

theorem start_worker (c : Configuration) (t : Transaction σ) (type : ExecutorType) :
    (start c t type).worker = .start c t type := by
  unfold start
  cases c.cachesEnabled <;> rfl

theorem start_overlays (c : Configuration) (t : Transaction σ) (type : ExecutorType) :
    (start c t type).overlays = if c.cachesEnabled then some [] else none := by
  unfold start
  cases c.cachesEnabled <;> rfl

theorem onWorker_ok {y : Executor σ × World σ} {Q : α → Executor σ × World σ → Prop}
    {E : Error → Executor σ × World σ → Prop} {a : Work σ α}
    {P : α → Worker σ × Channel σ → Prop} {F : Error → Worker σ × Channel σ → Prop}
    (h : Triple a (work y) P F) (hQ : ∀ value x, P value x → Q value (withWork y x))
    (hE : ∀ e x, F e x → E e (withWork y x)) : Triple (onWorker a) y Q E :=
  .within (h.mono (fun _ _ => hQ _ _) fun _ _ => hE _ _)

end Executor

-- ---------------------------------------------------------------------------
-- Sessions
-- ---------------------------------------------------------------------------

namespace Session

def unit (z : Session σ × World σ) : Executor σ × World σ :=
  (z.1.executor, z.2)

def work (z : Session σ × World σ) : Worker σ × Channel σ :=
  Executor.work (unit z)

variable {z : Session σ × World σ} {Q : α → Session σ × World σ → Prop}
  {E : Error → Session σ × World σ → Prop}

theorem onExecutor_ok {a : Execute σ α} {P : α → Executor σ × World σ → Prop}
    {F : Error → Executor σ × World σ → Prop} (h : Triple a (unit z) P F)
    (hQ : ∀ value y, P value y → Q value ({ z.1 with executor := y.1 }, y.2))
    (hE : ∀ e y, F e y → E e ({ z.1 with executor := y.1 }, y.2)) :
    Triple (onExecutor a) z Q E :=
  .within (h.mono (fun _ _ => hQ _ _) fun _ _ => hE _ _)

theorem bind_statement {id : String} {f : Statement → SessionCall σ α}
    (hQ : ∀ s, z.1.configuration.statement id = .ok s → Triple (f s) z Q E)
    (hE : ∀ e, z.1.configuration.statement id = .error e → E e z) :
    Triple (statement id >>= f) z Q E := by
  refine .bind (P := fun s z' => z' = z ∧ z.1.configuration.statement id = .ok s) ?_ ?_
  · exact .bind_get (.ofExcept (fun s hs => ⟨rfl, hs⟩) hE)
  · rintro s _ ⟨rfl, hs⟩
    exact hQ s hs

theorem bind_isRequired {force : Bool} {f : Bool → SessionCall σ α}
    (h : Triple (f (force || z.1.isDirty)) z Q E) : Triple (isRequired force >>= f) z Q E :=
  .bind (P := fun required z' => required = (force || z.1.isDirty) ∧ z' = z)
    (.bind_get (.pure ⟨rfl, rfl⟩)) fun _ _ hs => by
      obtain ⟨rfl, rfl⟩ := hs
      exact h

end Session

end MappedSql
