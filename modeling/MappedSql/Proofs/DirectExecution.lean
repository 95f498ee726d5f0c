import MappedSql.Proofs.Desks
import MappedSql.Proofs.Lockstep

/-!
# Direct execution

A machine executes SQL with values, and needs no statement to be prepared. It may fail. A
strategy that works on a driver with a desk, and does not let updates wait, executes its
statements as on a machine: whether each handle is closed after one execution or is kept in a
pool for the next ones, and whatever was bound to it before, is not to be seen. What is said here
covers failures, unlike what is said of engines.
-/

namespace MappedSql

variable {σ τ δ α : Type}

/-- A database that executes SQL with values. An execution that fails may have changed it. -/
structure Machine (δ : Type) where
  update : String → List Value → Action δ Nat
  query : String → List Value → Action δ ResultSet
  commit : Action δ Unit
  rollback : Action δ Unit

/-- A driver with a desk executes its statements as a machine does. -/
structure Driver.Executes (d : Driver σ) (m : Machine δ) (Rep : Desk δ → σ → Prop) : Prop
    extends d.Hosts Rep where
  executeUpdate : ∀ {D s h st}, Rep D s → D.statements h = some st →
    Lockstep (fun s' x => Rep (D.withDatabase x) s') (d.executeUpdate h)
      (m.update st.sql st.values) s D.database
  executeQuery : ∀ {D s h st}, Rep D s → D.statements h = some st →
    Lockstep (fun s' x => Rep (D.withDatabase x) s') (d.executeQuery h)
      (m.query st.sql st.values) s D.database
  commit : ∀ {D s}, Rep D s →
    Lockstep (fun s' x => Rep (D.withDatabase x) s') d.commit m.commit s D.database
  rollback : ∀ {D s}, Rep D s →
    Lockstep (fun s' x => Rep (D.withDatabase x) s') d.rollback m.rollback s D.database

/-- The key generator behaves the same for every handle. -/
def KeyGenerator.IgnoresHandles (generate : KeyGenerator) : Prop :=
  ∀ n h h' request, generate n h request = generate n h' request

def Statement.IgnoresHandles (s : Statement) : Prop :=
  ∀ generate, s.keyGenerator = some generate → KeyGenerator.IgnoresHandles generate

def KeyEvent.withoutHandle (event : KeyEvent) : KeyEvent :=
  { event with handle := default }

namespace Execution

def updateDirectly (e : Execution) (m : Machine δ) (values : List Value) :
    Action (Channel δ) UpdateCount := do
  let rows ← Channel.drive (m.update e.bound.sql values)
  Channel.generateKeys e.statement.keyGenerator
    { statement := e.statement.id, handle := default, request := .update e.bound.argument }
  return .affected rows

def queryDirectly (e : Execution) (m : Machine δ) (values : List Value) :
    Action (Channel δ) ResultSet :=
  Channel.drive (m.query e.bound.sql values)

end Execution

-- ---------------------------------------------------------------------------
-- Channels
-- ---------------------------------------------------------------------------

variable {d : Driver σ} {m : Machine δ} {Rep : Desk δ → σ → Prop}
  {S : Handle → Option ScriptedStatement} {c : Channel σ} {x : Channel δ} {e : Execution}
  {h : Handle} {st : ScriptedStatement}

namespace Channel

/-- A channel of a driver with statements on its desk, and one of a machine that has the same
database. The same keys were asked for, under handles of the driver. -/
structure Mirrors (Rep : Desk δ → σ → Prop) (S : Handle → Option ScriptedStatement)
    (c : Channel σ) (x : Channel δ) : Prop where
  desk : Rep { database := x.database, statements := S } c.database
  journal : x.journal = c.journal.map KeyEvent.withoutHandle

theorem Mirrors.drive_ahead {a : Action σ α} {P : α → σ → Prop} (hx : Mirrors Rep S c x)
    (ha : Triple a c.database P fun _ _ => False) :
    Triple (drive a) c
      (fun value c' => P value c'.database ∧ x.journal = c'.journal.map KeyEvent.withoutHandle)
      fun _ _ => False :=
  .within (ha.mono (fun _ _ hp => ⟨hp, hx.journal⟩) fun _ _ => id)

theorem Mirrors.prepare (hd : d.Hosts Rep) (hx : Mirrors Rep S c x) :
    Triple (e.prepare d) c (fun h c' => S h = none ∧
      Mirrors Rep (Function.update S h (some { sql := e.bound.sql })) c' x) fun _ _ => False := by
  refine (hx.drive_ahead (hd.prepare e.bound.sql e.timeout hx.desk)).mono ?_ fun _ _ => id
  rintro h c' ⟨⟨hnew, hr⟩, hj⟩
  exact ⟨hnew, hr, hj⟩

theorem Mirrors.bindValues (hd : d.Hosts Rep) (hx : Mirrors Rep S c x) (hs : S h = some st)
    (values : List Value) :
    Triple (drive (d.bind h values)) c (fun _ c' =>
      Mirrors Rep (Function.update S h (some { st with values })) c' x) fun _ _ => False := by
  refine (hx.drive_ahead (hd.bind values hx.desk hs)).mono ?_ fun _ _ => id
  rintro _ c' ⟨hr, hj⟩
  exact ⟨hr, hj⟩

theorem Mirrors.close (hd : d.Hosts Rep) (hx : Mirrors Rep S c x) (h : Handle) :
    Triple (drive (d.close h)) c (fun _ c' =>
      Mirrors Rep (Function.update S h none) c' x) fun _ _ => False := by
  refine (hx.drive_ahead (hd.close h hx.desk)).mono ?_ fun _ _ => id
  rintro _ c' ⟨hr, hj⟩
  exact ⟨hr, hj⟩

theorem Mirrors.release (hd : d.Hosts Rep) (hx : Mirrors Rep S c x) (h : Handle)
    {E : Error → Channel σ → Prop} :
    Triple (release d h) c (fun _ c' => Mirrors Rep (Function.update S h none) c' x) E :=
  .bind_attempt (hx.close hd h) (fun _ _ hx => .pure hx) fun _ _ => False.elim

theorem Mirrors.drive {a : Action σ α} {b : Action δ α} (hx : Mirrors Rep S c x)
    (ha : Lockstep (fun s' y => Rep { database := y, statements := S } s') a b c.database
      x.database) : Lockstep (Mirrors Rep S) (drive a) (drive b) c x :=
  ha.within fun _ _ hr => ⟨hr, hx.journal⟩

theorem Mirrors.generateKeys (hx : Mirrors Rep S c x) {generator : Option KeyGenerator}
    (hg : ∀ generate, generator = some generate → KeyGenerator.IgnoresHandles generate)
    (event : KeyEvent) :
    Lockstep (Mirrors Rep S) (generateKeys generator event)
      (generateKeys generator event.withoutHandle) c x := by
  cases generator with
  | none => exact .pure _ hx
  | some generate =>
    have hrecord : Lockstep (Mirrors Rep S) (record event) (record event.withoutHandle) c x := by
      have hj : x.journal ++ [event.withoutHandle] =
          (c.journal ++ [event]).map KeyEvent.withoutHandle := by
        rw [hx.journal, List.map_append, List.map_singleton]
      refine Lockstep.outcomes.mpr ⟨?_, hx.desk, hj⟩
      change Except.ok (List.countP _ (x.journal ++ [event.withoutHandle])) =
        Except.ok (List.countP _ (c.journal ++ [event]))
      rw [hj, List.countP_map]
      rfl
    refine hrecord.bind ?_
    intro n c₁ x₁ hx₁
    rw [hg generate rfl n event.handle event.withoutHandle.handle event.request]
    exact .ofExcept _ hx₁

theorem Mirrors.withHandle (hd : d.Hosts Rep) {work : Action (Channel σ) α}
    {b : Action (Channel δ) α} (hw : Lockstep (Mirrors Rep S) work b c x) (h : Handle) :
    Lockstep (Mirrors Rep (Function.update S h none)) (withHandle d h work) b c x := by
  refine hw.attempt_then ?_
  intro r c₁ x₁ hx₁
  refine .bind_attempt (hx₁.close hd h) ?_ fun _ _ => False.elim
  intro _ c₂ hx₂
  refine .bind_ofExcept ?_ ?_
  · intro value hr
    exact .pure ⟨hr, hx₂⟩
  · intro cause hr
    exact ⟨hr, hx₂⟩

end Channel

/-- Work on a handle with the SQL of an execution does what a machine does, whatever was bound to
the handle before. -/
def Execution.Follows (e : Execution) (Rep : Desk δ → σ → Prop)
    (work : List Value → Handle → Action (Channel σ) α) (b : List Value → Action (Channel δ) α) :
    Prop :=
  ∀ values {S c x h st}, Channel.Mirrors Rep S c x → S h = some st → st.sql = e.bound.sql →
    Lockstep (Channel.Mirrors Rep (Function.update S h (some { st with values })))
      (work values h) (b values) c x

namespace Driver

open Channel

theorem Executes.updateOn (hd : d.Executes m Rep) (he : e.statement.IgnoresHandles) :
    e.Follows Rep (fun values h => e.updateOn d h values) (e.updateDirectly m) := by
  intro values S c x h st hx hs hsql
  refine Lockstep.bind_ahead (hx.bindValues hd.toHosts hs values) ?_
  intro _ c₁ hx₁
  rw [Execution.updateDirectly, ← hsql]
  refine (hx₁.drive (hd.executeUpdate hx₁.desk (Function.update_self ..))).bind ?_
  intro rows c₂ x₂ hx₂
  exact (hx₂.generateKeys he _).bind fun _ _ _ hx₃ => .pure _ hx₃

theorem Executes.queryOn (hd : d.Executes m Rep) :
    e.Follows Rep (fun values h => Execution.queryOn d h values) (e.queryDirectly m) := by
  intro values S c x h st hx hs hsql
  refine Lockstep.bind_ahead (hx.bindValues hd.toHosts hs values) ?_
  intro _ c₁ hx₁
  rw [Execution.queryDirectly, ← hsql]
  exact hx₁.drive (hd.executeQuery hx₁.desk (Function.update_self ..))

theorem Hosts.once (hd : d.Hosts Rep) {work : List Value → Handle → Action (Channel σ) α}
    {b : List Value → Action (Channel δ) α} (hx : Mirrors Rep S c x) (hw : e.Follows Rep work b) :
    Lockstep (fun c' x' => ∃ S', Mirrors Rep S' c' x')
      (do
        let values ← e.values
        let h ← e.prepare d
        withHandle d h (work values h))
      (e.values >>= b) c x := by
  refine Twin.bind_ofExcept ?_ fun _ _ => ⟨S, hx⟩
  intro values _
  refine Lockstep.bind_ahead (hx.prepare hd) ?_
  rintro h c₁ ⟨-, hx₁⟩
  have hwork := hw values hx₁ (Function.update_self ..) rfl
  exact (Mirrors.withHandle hd hwork h).mono fun _ _ hx => ⟨_, hx⟩

end Driver

-- ---------------------------------------------------------------------------
-- Pools
-- ---------------------------------------------------------------------------

/-- A handle that is closed leaves the pool with all that refers to it: what lies on the desk
under a handle has one SQL text. -/
theorem Desk.Covers.erase {D : Desk δ} {pool : StatementPool} {sql : String}
    (hc : D.Covers pool) (hg : Keyed.get? pool sql = some h) :
    (D.erase h).Covers (Keyed.erase pool sql) := by
  obtain ⟨st, hs, hsql⟩ := hc _ (Keyed.mem_of_get? hg)
  intro entry hm
  obtain ⟨hp, hne⟩ := List.mem_filter.mp hm
  obtain ⟨old, ho, hold⟩ := hc entry hp
  have hh : entry.2 ≠ h := by
    rintro rfl
    obtain rfl : old = st := Option.some.inj (ho.symm.trans hs)
    simp [← hold, hsql] at hne
  exact ⟨old, (Desk.statements_erase_of_ne D h hh).trans ho, hold⟩

namespace StatementPool

open Channel

def Mirrors (Rep : Desk δ → σ → Prop) (s : StatementPool × Channel σ) (x : Channel δ) : Prop :=
  ∃ S, Channel.Mirrors Rep S s.2 x ∧
    Desk.Covers { database := x.database, statements := S } s.1

variable {s : StatementPool × Channel σ}

theorem handleFor_ahead (hd : d.Hosts Rep) (hx : Mirrors Rep s x) :
    Triple (handleFor e d) s (fun h s' => ∃ S st, Channel.Mirrors Rep S s'.2 x ∧
      Desk.Covers { database := x.database, statements := S } s'.1 ∧ S h = some st ∧
      st.sql = e.bound.sql) fun _ _ => False := by
  obtain ⟨pool, c⟩ := s
  obtain ⟨S, hx, hc⟩ := hx
  refine .bind_get ?_
  dsimp only
  cases hg : Keyed.get? pool e.bound.sql with
  | some h =>
    obtain ⟨st, hs, hsql⟩ := hc _ (Keyed.mem_of_get? hg)
    exact .pure ⟨S, st, hx, hc, hs, hsql⟩
  | none =>
    refine .bind_onSecond (hx.prepare hd) (fun _ _ => id) ?_
    rintro h c₁ ⟨hh, hx₁⟩
    refine .bind_modify (.pure ⟨_, _, hx₁, ?_, Function.update_self .., rfl⟩)
    intro entry hm
    rcases Keyed.mem_put hm with hm | rfl
    · exact hc.put_new hh _ entry hm
    · exact ⟨{ sql := e.bound.sql }, Function.update_self .., rfl⟩

theorem drop_ahead (hd : d.Hosts Rep) (hx : Mirrors Rep s x) (sql : String)
    {E : Error → StatementPool × Channel σ → Prop} :
    Triple (drop d sql) s (fun _ s' => Mirrors Rep s' x) E := by
  obtain ⟨pool, c⟩ := s
  obtain ⟨S, hx, hc⟩ := hx
  refine .bind_get ?_
  dsimp only
  cases hg : Keyed.get? pool sql with
  | none => exact .pure ⟨S, hx, hc⟩
  | some h =>
    refine .bind_modify (.onSecond ((hx.release hd h).mono ?_ fun _ _ => id))
    intro _ c₁ hx₁
    exact ⟨_, hx₁, hc.erase hg⟩

theorem run_follows (hd : d.Hosts Rep) {work : List Value → Handle → Action (Channel σ) α}
    {b : List Value → Action (Channel δ) α} (hw : e.Follows Rep work b) (values : List Value)
    (hx : Mirrors Rep s x) : Lockstep (Mirrors Rep) (run e d (work values)) (b values) s x := by
  refine Lockstep.bind_ahead (handleFor_ahead hd hx) ?_
  rintro h ⟨pool, c⟩ ⟨S, st, hx, hc, hs, hsql⟩
  have hwork : Lockstep (fun s' x' => s'.1 = pool ∧
      Channel.Mirrors Rep (Function.update S h (some { st with values })) s'.2 x')
      (work values h).onSecond (b values) (pool, c) x := by
    obtain ⟨he, hr⟩ := Lockstep.outcomes.mp (hw values hx hs hsql)
    exact Lockstep.outcomes.mpr ⟨he, rfl, hr⟩
  refine hwork.attempt_then ?_
  rintro r ⟨pool, c₁⟩ x₁ ⟨rfl, hx₁⟩
  have h₁ : Mirrors Rep (pool, c₁) x₁ := ⟨_, hx₁, hc.put_values hs values⟩
  cases r with
  | ok value => exact .pure ⟨rfl, h₁⟩
  | error cause => exact .bind (drop_ahead hd h₁ e.bound.sql) fun _ _ h₂ => .throw ⟨rfl, h₂⟩

theorem executes (hd : d.Hosts Rep) {work : List Value → Handle → Action (Channel σ) α}
    {b : List Value → Action (Channel δ) α} (hx : Mirrors Rep s x) (hw : e.Follows Rep work b) :
    Lockstep (Mirrors Rep)
      (e.values.onSecond >>= fun values => run e d (work values)) (e.values >>= b) s x := by
  have hvalues : Lockstep (Mirrors Rep) e.values.onSecond e.values s x := by
    unfold Execution.values
    cases e.bound.values e.handlers with
    | ok values => exact Lockstep.outcomes.mpr ⟨rfl, hx⟩
    | error cause => exact Lockstep.outcomes.mpr ⟨rfl, hx⟩
  refine hvalues.bind ?_
  intro values s₁ x₁ hx₁
  exact run_follows hd hw values hx₁

theorem releaseAll_ahead (hd : d.Hosts Rep) (handles : List Handle)
    (hx : Channel.Mirrors Rep S c x) {E : Error → Channel σ → Prop} :
    Triple (releaseAll d handles) c (fun _ c' => ∃ S', Channel.Mirrors Rep S' c' x) E := by
  induction handles generalizing S c with
  | nil => exact .pure ⟨S, hx⟩
  | cons h rest ih => exact .bind (hx.release hd h) fun _ _ hx₁ => ih hx₁

theorem flush_ahead (hd : d.Hosts Rep) (hx : Mirrors Rep s x)
    {E : Error → StatementPool × Channel σ → Prop} :
    Triple (flush d) s (fun _ s' => Mirrors Rep s' x) E := by
  obtain ⟨S, hx, -⟩ := hx
  refine .bind_get (.bind_modify (.onSecond ((releaseAll_ahead hd _ hx).mono ?_ fun _ _ => id)))
  rintro _ c₁ ⟨S₁, hx₁⟩
  exact ⟨S₁, hx₁, nofun⟩

end StatementPool

-- ---------------------------------------------------------------------------
-- Strategies
-- ---------------------------------------------------------------------------

namespace Strategy

def pool : Strategy → StatementPool
  | .reuse pool => pool
  | .simple | .batch _ => []

/-- A strategy that lets no update wait, and the channel of a machine. -/
def Mirrors (Rep : Desk δ → σ → Prop) (s : Strategy × Channel σ) (x : Channel δ) : Prop :=
  s.1.type ≠ .batch ∧ StatementPool.Mirrors Rep (s.1.pool, s.2) x

variable {s : Strategy × Channel σ}

theorem dispatch_follows {simple : Action (Channel σ) α}
    {reuse : Action (StatementPool × Channel σ) α} {batch : Action (BatchQueue × Channel σ) α}
    {b : Action (Channel δ) α} (hx : Mirrors Rep s x)
    (hs : ∀ {S c}, Channel.Mirrors Rep S c x →
      Lockstep (fun c' x' => ∃ S', Channel.Mirrors Rep S' c' x') simple b c x)
    (hr : ∀ {s}, StatementPool.Mirrors Rep s x → Lockstep (StatementPool.Mirrors Rep) reuse b s x) :
    Lockstep (Mirrors Rep) (dispatch simple reuse batch) b s x := by
  obtain ⟨strategy, c⟩ := s
  obtain ⟨ht, hx⟩ := hx
  cases strategy with
  | simple =>
    obtain ⟨S, hx, -⟩ := hx
    obtain ⟨he, S', hx'⟩ := Lockstep.outcomes.mp (hs hx)
    exact Lockstep.outcomes.mpr ⟨he, ht, S', hx', nofun⟩
  | reuse pool =>
    obtain ⟨he, hx'⟩ := Lockstep.outcomes.mp (hr hx)
    exact Lockstep.outcomes.mpr ⟨he, ht, hx'⟩
  | batch queue => exact absurd rfl ht

theorem update_follows (hd : d.Executes m Rep) (he : e.statement.IgnoresHandles)
    (hx : Mirrors Rep s x) :
    Lockstep (Mirrors Rep) (update e d) (e.values >>= e.updateDirectly m) s x :=
  dispatch_follows hx (fun hx => hd.toHosts.once hx (hd.updateOn he))
    fun hx => StatementPool.executes hd.toHosts hx (hd.updateOn he)

theorem query_follows (hd : d.Executes m Rep) (hx : Mirrors Rep s x) :
    Lockstep (Mirrors Rep) (query e d) (e.values >>= e.queryDirectly m) s x :=
  dispatch_follows hx (fun hx => hd.toHosts.once hx hd.queryOn)
    fun hx => StatementPool.executes hd.toHosts hx hd.queryOn

theorem flush_follows (hd : d.Hosts Rep) (hx : Mirrors Rep s x) :
    Lockstep (Mirrors Rep) (flush d) (pure []) s x := by
  refine dispatch_follows hx (fun hx => .pure [] ⟨_, hx⟩) fun hx => ?_
  exact Lockstep.bind_ahead (StatementPool.flush_ahead hd hx) fun _ _ hx => .pure [] hx

theorem discard_follows (hd : d.Hosts Rep) (hx : Mirrors Rep s x) :
    Lockstep (Mirrors Rep) (discard d) (pure ()) s x := by
  refine dispatch_follows hx (fun hx => .pure () ⟨_, hx⟩) fun hx => ?_
  exact Lockstep.ahead ((StatementPool.flush_ahead hd hx).mono (fun _ _ hx => ⟨rfl, hx⟩)
    fun _ _ => id)

theorem Mirrors.drive (hx : Mirrors Rep s x) {a : Action σ Unit} {b : Action δ Unit}
    (ha : ∀ {D s}, Rep D s → Lockstep (fun s' y => Rep (D.withDatabase y) s') a b s D.database) :
    Lockstep (Mirrors Rep) (Channel.drive a).onSecond (Channel.drive b) s x := by
  obtain ⟨ht, S, hx, hc⟩ := hx
  obtain ⟨he, hx'⟩ := Lockstep.outcomes.mp (hx.drive (ha hx.desk))
  exact Lockstep.outcomes.mpr ⟨he, ht, S, hx', hc⟩

def Alike (Rep : Desk δ → σ → Prop) (Rep' : Desk δ → τ → Prop) (s : Strategy × Channel σ)
    (t : Strategy × Channel τ) : Prop :=
  ∃ x, Mirrors Rep s x ∧ Mirrors Rep' t x

/-- Strategies that let no update wait are in step on drivers that execute their statements as one
machine does. -/
theorem inStep {d' : Driver τ} {Rep' : Desk δ → τ → Prop} (hd : d.Executes m Rep)
    (hd' : d'.Executes m Rep') :
    InStep d d' Statement.IgnoresHandles (Alike Rep Rep') where
  update _ he := fun ⟨_, hs, ht⟩ => (update_follows hd he hs).span (update_follows hd' he ht)
  query _ := fun ⟨_, hs, ht⟩ => (query_follows hd hs).span (query_follows hd' ht)
  flush := fun ⟨_, hs, ht⟩ => (flush_follows hd.toHosts hs).span (flush_follows hd'.toHosts ht)
  discard := fun ⟨_, hs, ht⟩ =>
    (discard_follows hd.toHosts hs).span (discard_follows hd'.toHosts ht)
  commit := fun ⟨_, hs, ht⟩ => (hs.drive hd.commit).span (ht.drive hd'.commit)
  rollback := fun ⟨_, hs, ht⟩ => (hs.drive hd.rollback).span (ht.drive hd'.rollback)

end Strategy

end MappedSql
