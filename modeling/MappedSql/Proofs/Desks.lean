import Mathlib.Logic.Function.Basic
import MappedSql.Driver.Scripted
import MappedSql.Proofs.Requests

/-!
# Desks

A driver as a database and a desk: the statements that are open on it, with the values that are
bound and the items that are collected for a batch. What the three strategies make of a driver
that works like this is said by the database alone, once the updates that wait are counted as
executed. Which driver it is, and how it keeps its desk, is left to a relation between desks and
states.

A key generator that fails may stop a strategy half way. So what is said of a failure holds
where all key generators have succeeded.
-/

namespace MappedSql

variable {σ δ α : Type}

/-- What statements do to a database and what they find there. -/
structure Engine (δ : Type) where
  update : δ → String → List Value → δ
  batch : δ → String → List (List Value) → δ
  answer : δ → String → List Value → ResultSet
  /-- The database after a query. -/
  asked : δ → String → List Value → δ
  commit : δ → δ
  rollback : δ → δ

structure Desk (δ : Type) where
  database : δ
  statements : Handle → Option ScriptedStatement := fun _ => none

namespace Desk

def put (D : Desk δ) (h : Handle) (s : ScriptedStatement) : Desk δ :=
  { D with statements := Function.update D.statements h (some s) }

def erase (D : Desk δ) (h : Handle) : Desk δ :=
  { D with statements := Function.update D.statements h none }

def withDatabase (D : Desk δ) (x : δ) : Desk δ :=
  { D with database := x }

variable (D : Desk δ) (h : Handle) (s : ScriptedStatement) (x : δ)

@[simp] theorem statements_withDatabase : (D.withDatabase x).statements = D.statements := rfl

@[simp] theorem put_put (s' : ScriptedStatement) : (D.put h s).put h s' = D.put h s' := by
  simp [put]

@[simp] theorem erase_put : (D.put h s).erase h = D.erase h := by
  simp [put, erase]

@[simp] theorem statements_put : (D.put h s).statements h = some s := by
  simp [put]

theorem statements_put_of_ne {other : Handle} (ho : other ≠ h) :
    (D.put h s).statements other = D.statements other := by
  simp [put, ho]

theorem statements_erase_of_ne {other : Handle} (ho : other ≠ h) :
    (D.erase h).statements other = D.statements other := by
  simp [erase, ho]

end Desk

-- ---------------------------------------------------------------------------
-- Drivers with desks
-- ---------------------------------------------------------------------------

section
variable (d : Driver σ) (m : Engine δ) (Rep : Desk δ → σ → Prop)

/-- The driver prepares statements under new handles, and keeps what is bound to them. -/
structure Driver.Hosts : Prop where
  prepare : ∀ {D s} sql timeout, Rep D s → Triple (d.prepare sql timeout) s
    (fun h s' => D.statements h = none ∧ Rep (D.put h { sql }) s') fun _ _ => False
  bind : ∀ {D s h st} values, Rep D s → D.statements h = some st → Triple (d.bind h values) s
    (fun _ s' => Rep (D.put h { st with values }) s') fun _ _ => False
  close : ∀ {D s} h, Rep D s → Triple (d.close h) s
    (fun _ s' => Rep (D.erase h) s') fun _ _ => False

structure Driver.Answers : Prop where
  executeQuery : ∀ {D s h st}, Rep D s → D.statements h = some st → Triple (d.executeQuery h) s
    (fun rows s' => rows = m.answer D.database st.sql st.values ∧
      Rep (D.withDatabase (m.asked D.database st.sql st.values)) s') fun _ _ => False
  commit : ∀ {D s}, Rep D s → Triple d.commit s
    (fun _ s' => Rep (D.withDatabase (m.commit D.database)) s') fun _ _ => False
  rollback : ∀ {D s}, Rep D s → Triple d.rollback s
    (fun _ s' => Rep (D.withDatabase (m.rollback D.database)) s') fun _ _ => False

structure Driver.Updates : Prop where
  executeUpdate : ∀ {D s h st}, Rep D s → D.statements h = some st →
    Triple (d.executeUpdate h) s
      (fun _ s' => Rep (D.withDatabase (m.update D.database st.sql st.values)) s')
      fun _ _ => False

/-- The driver collects items and executes them as a batch, unless it fails. An item that it
fails to take is not on the desk. -/
structure Driver.Collects (fails : Prop) : Prop where
  addBatch : ∀ {D s h st}, Rep D s → D.statements h = some st → Triple (d.addBatch h) s
    (fun _ s' => ∃ values, Rep (D.put h { st with values, batch := st.batch ++ [st.values] }) s')
    fun _ s' => fails ∧ Rep D s'
  executeBatch : ∀ {D s h st}, Rep D s → D.statements h = some st → Triple (d.executeBatch h) s
    (fun counts s' => counts.length = st.batch.length ∧
      Rep ((D.put h { st with batch := [] }).withDatabase
        (m.batch D.database st.sql st.batch)) s')
    fun _ _ => fails

structure Driver.Serves (type : ExecutorType) : Prop extends d.Hosts Rep, d.Answers m Rep where
  updates : type ≠ .batch → d.Updates m Rep
  collects : type = .batch → d.Collects m Rep False

end

-- ---------------------------------------------------------------------------
-- Drivers of engines
-- ---------------------------------------------------------------------------

structure Workplace (δ : Type) where
  desk : Desk δ
  given : Nat := 0

namespace Workplace

@[irreducible]
def onStatement (h : Handle) (f : Desk δ → ScriptedStatement → α × Desk δ) :
    Action (Workplace δ) α := do
  let s ← get
  match s.desk.statements h with
  | some st =>
    modify fun s => { s with desk := (f s.desk st).2 }
    return (f s.desk st).1
  | none => throw (.execution (.reported ("Unknown statement handle " ++ h.text)))

structure Lays (D : Desk δ) (s : Workplace δ) : Prop where
  desk : s.desk = D
  given : ∀ h st, D.statements h = some st → h.number < s.given

variable {D : Desk δ} {s : Workplace δ} {h : Handle} {st : ScriptedStatement}

theorem Lays.put (hr : Lays D s) (hh : h.number < s.given) (st : ScriptedStatement) :
    Lays (D.put h st) { s with desk := D.put h st } where
  desk := rfl
  given other old ho := by
    by_cases he : other = h
    · exact he ▸ hh
    · exact hr.given other old ((Desk.statements_put_of_ne D h st he).symm.trans ho)

theorem Lays.withDatabase (hr : Lays D s) (x : δ) :
    Lays (D.withDatabase x) { s with desk := D.withDatabase x } :=
  ⟨rfl, hr.given⟩

theorem onStatement_ok {f : Desk δ → ScriptedStatement → α × Desk δ} (hr : Lays D s)
    (hs : D.statements h = some st) {Q : α → Workplace δ → Prop} {E : Error → Workplace δ → Prop}
    (hQ : Q (f D st).1 { s with desk := (f D st).2 }) : Triple (onStatement h f) s Q E := by
  obtain ⟨rfl, -⟩ := hr
  unfold onStatement
  refine .bind_get ?_
  rw [hs]
  exact .bind_modify (.pure hQ)

end Workplace

def Engine.driver (m : Engine δ) : Driver (Workplace δ) where
  prepare sql _ := modifyGet fun s =>
    (⟨s.given⟩, { desk := s.desk.put ⟨s.given⟩ { sql }, given := s.given + 1 })
  bind h values := Workplace.onStatement h fun D st => ((), D.put h { st with values })
  addBatch h := Workplace.onStatement h fun D st =>
    ((), D.put h { st with values := [], batch := st.batch ++ [st.values] })
  executeUpdate h := Workplace.onStatement h fun D st =>
    (1, D.withDatabase (m.update D.database st.sql st.values))
  executeBatch h := Workplace.onStatement h fun D st => (List.replicate st.batch.length 1,
    (D.put h { st with batch := [] }).withDatabase (m.batch D.database st.sql st.batch))
  executeQuery h := Workplace.onStatement h fun D st => (m.answer D.database st.sql st.values,
    D.withDatabase (m.asked D.database st.sql st.values))
  close h := modify fun s => { s with desk := s.desk.erase h }
  commit := modify fun s => { s with desk := s.desk.withDatabase (m.commit s.desk.database) }
  rollback := modify fun s => { s with desk := s.desk.withDatabase (m.rollback s.desk.database) }

namespace Engine

variable (m : Engine δ)

theorem driver_hosts : m.driver.Hosts Workplace.Lays where
  prepare {D s} sql timeout hr := by
    have hnew : D.statements ⟨s.given⟩ = none := by
      rw [Option.eq_none_iff_forall_not_mem]
      intro st hs
      exact absurd (hr.given _ st hs) (Nat.lt_irrefl _)
    have hr' : Workplace.Lays D { s with given := s.given + 1 } :=
      ⟨hr.desk, fun h st hs => Nat.lt_succ_of_lt (hr.given h st hs)⟩
    obtain ⟨rfl, -⟩ := id hr
    exact .modifyGet ⟨hnew, hr'.put (Nat.lt_succ_self _) _⟩
  bind values hr hs := Workplace.onStatement_ok hr hs (hr.put (hr.given _ _ hs) _)
  close {D s} h hr := by
    obtain ⟨rfl, hg⟩ := hr
    refine .modify ⟨rfl, fun other st hs => ?_⟩
    by_cases he : other = h
    · simp [he, Desk.erase] at hs
    · exact hg other st ((Desk.statements_erase_of_ne _ h he).symm.trans hs)

theorem driver_answers : m.driver.Answers m Workplace.Lays where
  executeQuery hr hs := Workplace.onStatement_ok hr hs ⟨rfl, hr.withDatabase _⟩
  commit {D s} hr := by
    obtain ⟨rfl, hg⟩ := hr
    exact .modify ⟨rfl, hg⟩
  rollback {D s} hr := by
    obtain ⟨rfl, hg⟩ := hr
    exact .modify ⟨rfl, hg⟩

theorem driver_collects : m.driver.Collects m Workplace.Lays False where
  addBatch hr hs := Workplace.onStatement_ok hr hs ⟨[], hr.put (hr.given _ _ hs) _⟩
  executeBatch hr hs := Workplace.onStatement_ok hr hs
    ⟨List.length_replicate, (hr.put (hr.given _ _ hs) _).withDatabase _⟩

theorem driver_serves (type : ExecutorType) : m.driver.Serves m Workplace.Lays type where
  toHosts := m.driver_hosts
  toAnswers := m.driver_answers
  updates _ := ⟨fun hr hs => Workplace.onStatement_ok hr hs (hr.withDatabase _)⟩
  collects _ := m.driver_collects

end Engine

-- ---------------------------------------------------------------------------
-- Key generators
-- ---------------------------------------------------------------------------

/-- No key generator has failed that was called for an event of a journal. `G` tells the key
generators of the statements with an id. -/
def KeysGenerated (G : String → KeyGenerator → Prop) (journal : List KeyEvent) : Prop :=
  ∀ before event, before ++ [event] <+: journal → ∀ generate, G event.statement generate →
    generate ((before ++ [event]).countP (·.statement == event.statement)) event.handle
      event.request = .ok ()

def Configuration.Generator (c : Configuration) (id : String) (generate : KeyGenerator) : Prop :=
  ∃ name s, c.statement name = .ok s ∧ s.id = id ∧ s.keyGenerator = some generate

theorem KeysGenerated.of_prefix {G : String → KeyGenerator → Prop}
    {journal journal' : List KeyEvent}
    (h : KeysGenerated G journal') (hp : journal <+: journal') : KeysGenerated G journal :=
  fun before event he => h before event (he.trans hp)

namespace Channel

variable {G : String → KeyGenerator → Prop} {c c' : Channel σ} {event : KeyEvent}

def Lost (G : String → KeyGenerator → Prop) (c : Channel σ) : Prop :=
  ¬ KeysGenerated G c.journal

theorem Lost.notes (h : Lost G c) (hn : Notes c c') : Lost G c' :=
  fun hk => h (hk.of_prefix hn)

theorem generateKeys_ok {generator : Option KeyGenerator}
    (hG : ∀ generate, generator = some generate → G event.statement generate) :
    Triple (generateKeys generator event) c (fun _ c' => c'.database = c.database)
      (fun _ => Lost G) := by
  cases generator with
  | none => exact .pure rfl
  | some generate =>
    refine .bind (.bind_modify (.bind_get (.pure
      (Q := fun n c' => c' = { c with journal := c.journal ++ [event] } ∧
        n = (c.journal ++ [event]).countP (·.statement == event.statement)) ⟨rfl, rfl⟩))) ?_
    rintro n _ ⟨rfl, rfl⟩
    refine .ofExcept (fun _ _ => rfl) fun e he hk => ?_
    have hok := hk c.journal event (List.prefix_refl _) generate (hG generate rfl)
    rw [hok] at he
    cases he

theorem drive_ok {a : Action σ α} {P : α → σ → Prop} {F : Error → σ → Prop}
    (h : Triple a c.database P F) :
    Triple (drive a) c (fun value c' => P value c'.database) (fun e c' => F e c'.database) :=
  .within h

theorem drive_total {a : Action σ α} {P : α → σ → Prop} {E : Error → Channel σ → Prop}
    (h : Triple a c.database P fun _ _ => False) :
    Triple (drive a) c (fun value c' => P value c'.database) E :=
  (drive_ok h).mono (fun _ _ => id) fun _ _ => False.elim

end Channel

-- ---------------------------------------------------------------------------
-- Single executions
-- ---------------------------------------------------------------------------

section
variable {d : Driver σ} {m : Engine δ} {Rep : Desk δ → σ → Prop} {D : Desk δ} {x : δ}
  {G : String → KeyGenerator → Prop} {c : Channel σ} {e : Execution} {h : Handle}
  {values : List Value} {st : ScriptedStatement}

def Channel.Shows (Rep : Desk δ → σ → Prop) (x : δ) (c : Channel σ) : Prop :=
  ∃ D, Rep D c.database ∧ D.database = x

def Execution.Generates (G : String → KeyGenerator → Prop) (e : Execution) : Prop :=
  ∀ generate, e.statement.keyGenerator = some generate → G e.statement.id generate

namespace Driver

theorem Hosts.prepare_ok (hd : d.Hosts Rep) (hr : Rep D c.database)
    {E : Error → Channel σ → Prop} :
    Triple (e.prepare d) c (fun h c' => D.statements h = none ∧
      Rep (D.put h { sql := e.bound.sql }) c'.database) E :=
  Channel.drive_total (hd.prepare _ _ hr)

theorem Hosts.release_ok (hd : d.Hosts Rep) (hr : Rep D c.database) (h : Handle)
    {E : Error → Channel σ → Prop} :
    Triple (Channel.release d h) c (fun _ c' => Rep (D.erase h) c'.database) E :=
  .bind (.attempt (Q := fun _ c' => Rep (D.erase h) c'.database)
    (Channel.drive_total (hd.close h hr))) fun _ _ h => .pure h

/-- Work on a handle that is closed afterwards. What is known of a failure is known after more
notes in the journal. -/
theorem Hosts.withHandle_ok (hd : d.Hosts Rep) {work : Action (Channel σ) α} {P : α → δ → Prop}
    {F : Channel σ → Prop} (hF : ∀ {c c'}, F c → Channel.Notes c c' → F c')
    (hw : Triple work c (fun value c' => ∃ x, P value x ∧ c'.Shows Rep x) (fun _ => F)) :
    Triple (Channel.withHandle d h work) c (fun value c' => ∃ x, P value x ∧ c'.Shows Rep x)
      (fun _ => F) := by
  refine .bind_attempt hw ?_ fun cause c₁ h₁ => ?_
  · rintro value c₁ ⟨x, hp, D, hr, hx⟩
    exact .bind_attempt (Channel.drive_total (hd.close h hr) (E := fun _ _ => False))
      (fun _ _ hr₂ => .pure ⟨x, hp, _, hr₂, hx⟩) fun _ _ => False.elim
  · have hnotes := (d.keeps_notes.close h).attempt_triple c₁ (E := fun _ => F)
    exact .bind hnotes fun _ _ hn => .throw (hF h₁ hn)

theorem Updates.updateOn_ok (hd : d.Hosts Rep) (hu : d.Updates m Rep) (he : e.Generates G)
    (hr : Rep D c.database) (hs : D.statements h = some st) (values : List Value) :
    Triple (e.updateOn d h values) c (fun _ c' => Rep ((D.put h { st with values }).withDatabase
      (m.update D.database st.sql values)) c'.database) (fun _ => Channel.Lost G) := by
  refine .bind (Channel.drive_total (hd.bind values hr hs)) fun _ c₁ h₁ => ?_
  refine .bind (Channel.drive_total (hu.executeUpdate h₁ (Desk.statements_put ..)))
    fun rows c₂ h₂ => ?_
  refine .bind (Channel.generateKeys_ok he) fun _ c₃ (h₃ : c₃.database = c₂.database) => .pure ?_
  rw [h₃]
  exact h₂

theorem Answers.queryOn_ok (hd : d.Hosts Rep) (ha : d.Answers m Rep) (hr : Rep D c.database)
    (hs : D.statements h = some st) (values : List Value) {E : Error → Channel σ → Prop} :
    Triple (Execution.queryOn d h values) c
      (fun rows c' => rows = m.answer D.database st.sql values ∧
        Rep ((D.put h { st with values }).withDatabase (m.asked D.database st.sql values))
          c'.database) E :=
  .bind (Channel.drive_total (hd.bind values hr hs)) fun _ _ h₁ =>
    Channel.drive_total (ha.executeQuery h₁ (Desk.statements_put ..))

end Driver

namespace Execution

/-- What an update does to the database; a failure that is not one of its values is one of a
key generator. -/
theorem updateOnce_shows (hd : d.Hosts Rep) (hu : d.Updates m Rep) (he : e.Generates G)
    (hx : c.Shows Rep x) :
    Triple (e.updateOnce d) c
      (fun _ c' => ∃ values, e.bound.values e.handlers = .ok values ∧
        c'.Shows Rep (m.update x e.bound.sql values))
      (fun cause c' => e.bound.values e.handlers = .error cause ∧ c'.Shows Rep x ∨
        Channel.Lost G c') := by
  refine .bind_ofExcept (fun values hv => ?_) fun cause hv => .inl ⟨hv, hx⟩
  obtain ⟨D, hr, rfl⟩ := hx
  refine .bind (hd.prepare_ok hr) fun h c₁ ⟨_, hr₁⟩ => ?_
  have hwork := (hu.updateOn_ok (e := e) hd he hr₁ (Desk.statements_put ..) values).mono
    (Q := fun _ c' => ∃ y, y = m.update D.database e.bound.sql values ∧ c'.Shows Rep y)
    (fun _ _ hr₂ => ⟨_, rfl, _, hr₂, rfl⟩) fun _ _ => id
  refine (hd.withHandle_ok Channel.Lost.notes hwork).mono ?_ fun _ _ => .inr
  rintro _ c₃ ⟨_, rfl, h₃⟩
  exact ⟨values, hv, h₃⟩

theorem queryOnce_shows (hd : d.Hosts Rep) (ha : d.Answers m Rep) (hx : c.Shows Rep x) :
    Triple (e.queryOnce d) c
      (fun rows c' => ∃ values, e.bound.values e.handlers = .ok values ∧
        rows = m.answer x e.bound.sql values ∧ c'.Shows Rep (m.asked x e.bound.sql values))
      (fun cause c' => e.bound.values e.handlers = .error cause ∧ c'.Shows Rep x) := by
  refine .bind_ofExcept (fun values hv => ?_) fun cause hv => ⟨hv, hx⟩
  obtain ⟨D, hr, rfl⟩ := hx
  refine .bind (hd.prepare_ok hr) fun h c₁ ⟨_, hr₁⟩ => ?_
  have hwork := (ha.queryOn_ok hd hr₁ (Desk.statements_put ..) values
      (E := fun _ _ => False)).mono
    (Q := fun rows c' => ∃ y, (rows = m.answer D.database e.bound.sql values ∧
      y = m.asked D.database e.bound.sql values) ∧ c'.Shows Rep y)
    (fun _ _ ⟨hrows, hr₂⟩ => ⟨_, ⟨hrows, rfl⟩, _, hr₂, rfl⟩) fun _ _ => id
  refine (hd.withHandle_ok (fun h _ => h) hwork).mono ?_ fun _ _ => False.elim
  rintro rows c₃ ⟨_, ⟨hrows, rfl⟩, h₃⟩
  exact ⟨values, hv, hrows, h₃⟩

end Execution

-- ---------------------------------------------------------------------------
-- Pools
-- ---------------------------------------------------------------------------

def Desk.Covers (D : Desk δ) (pool : StatementPool) : Prop :=
  ∀ entry ∈ pool, ∃ st, D.statements entry.2 = some st ∧ st.sql = entry.1

theorem Desk.Covers.put_new {pool : StatementPool} (hc : D.Covers pool)
    (hh : D.statements h = none) (st : ScriptedStatement) : (D.put h st).Covers pool := by
  intro entry hm
  obtain ⟨old, ho, hsql⟩ := hc entry hm
  have hne : entry.2 ≠ h := by
    rintro rfl
    exact Option.some_ne_none old (ho.symm.trans hh)
  exact ⟨old, (statements_put_of_ne D h st hne).trans ho, hsql⟩

theorem Desk.Covers.put_values {pool : StatementPool} (hc : D.Covers pool)
    (hs : D.statements h = some st) (values : List Value) :
    (D.put h { st with values }).Covers pool := by
  intro entry hm
  obtain ⟨old, ho, hsql⟩ := hc entry hm
  by_cases he : entry.2 = h
  · subst he
    cases hs.symm.trans ho
    exact ⟨_, statements_put .., hsql⟩
  · exact ⟨old, (statements_put_of_ne D h _ he).trans ho, hsql⟩

theorem Channel.release_shows (hd : d.Hosts Rep) (hx : c.Shows Rep x) (h : Handle)
    {E : Error → Channel σ → Prop} : Triple (release d h) c (fun _ => Shows Rep x) E := by
  obtain ⟨D, hr, hx⟩ := hx
  exact (hd.release_ok hr h).mono (fun _ _ hr => ⟨_, hr, hx⟩) fun _ _ => id

namespace StatementPool

variable {s : StatementPool × Channel σ}

theorem releaseAll_shows (hd : d.Hosts Rep) (hx : c.Shows Rep x) (handles : List Handle)
    {E : Error → Channel σ → Prop} :
    Triple (releaseAll d handles) c (fun _ => Channel.Shows Rep x) E := by
  induction handles generalizing c with
  | nil => exact .pure hx
  | cons h rest ih => exact .bind (Channel.release_shows hd hx h) fun _ _ hx => ih hx

def Shows (Rep : Desk δ → σ → Prop) (x : δ) (s : StatementPool × Channel σ) : Prop :=
  ∃ D, Rep D s.2.database ∧ D.database = x ∧ D.Covers s.1

theorem handleFor_shows (hd : d.Hosts Rep) (hx : Shows Rep x s)
    {E : Error → StatementPool × Channel σ → Prop} :
    Triple (handleFor e d) s (fun h s' => ∃ D st, Rep D s'.2.database ∧ D.database = x ∧
      D.Covers s'.1 ∧ D.statements h = some st ∧ st.sql = e.bound.sql) E := by
  obtain ⟨pool, c⟩ := s
  obtain ⟨D, hr, hx, hc⟩ := hx
  refine .bind_get ?_
  dsimp only
  cases hg : Keyed.get? pool e.bound.sql with
  | some h =>
    obtain ⟨st, hs, hsql⟩ := hc _ (Keyed.mem_of_get? hg)
    exact .pure ⟨D, st, hr, hx, hc, hs, hsql⟩
  | none =>
    refine .bind_onSecond (hd.prepare_ok hr (E := fun _ _ => False)) (fun _ _ => False.elim) ?_
    rintro h c₁ ⟨hh, hr₁⟩
    refine .bind_modify (.pure ⟨_, _, hr₁, hx, fun entry hm => ?_, Desk.statements_put .., rfl⟩)
    rcases Keyed.mem_put hm with hm | rfl
    · exact hc.put_new hh _ entry hm
    · exact ⟨_, Desk.statements_put .., rfl⟩

theorem run_shows (hd : d.Hosts Rep) (work : Handle → Action (Channel σ) α)
    (values : List Value) {P : α → δ → Prop} {F : Channel σ → Prop}
    (hF : ∀ {c c'}, F c → Channel.Notes c c' → F c')
    (hw : ∀ {D : Desk δ} {h st c}, Rep D c.database → D.database = x →
      D.statements h = some st → st.sql = e.bound.sql →
      Triple (work h) c (fun value c' => ∃ y, P value y ∧
        Rep ((D.put h { st with values }).withDatabase y) c'.database) (fun _ => F))
    (hx : Shows Rep x s) :
    Triple (run e d work) s (fun value s' => ∃ y, P value y ∧ Shows Rep y s')
      (fun _ s' => F s'.2) := by
  refine .bind (handleFor_shows hd hx) ?_
  rintro h ⟨pool, c⟩ ⟨D, st, hr, hxD, hc, hs, hsql⟩
  refine .bind_attempt (P := fun value s' => ∃ y, P value y ∧ Shows Rep y s')
    (E := fun _ s' => F s'.2) (.onSecond ((hw hr hxD hs hsql).mono ?_ fun _ _ => id))
    (fun _ _ h₁ => .pure h₁) fun cause s₁ h₁ => ?_
  · rintro value c₁ ⟨y, hp, hr₁⟩
    exact ⟨y, hp, _, hr₁, rfl, hc.put_values hs values⟩
  · have hdrop := (d.keeps_notes.drop e.bound.sql).triple s₁
    exact .bind (hdrop.mono (fun _ _ h => h) fun _ _ hn => hF h₁ hn) fun _ _ hn =>
      .throw (hF h₁ hn)

theorem update_shows (hd : d.Hosts Rep) (hu : d.Updates m Rep) (he : e.Generates G)
    (hx : Shows Rep x s) :
    Triple (update e d) s
      (fun _ s' => ∃ values, e.bound.values e.handlers = .ok values ∧
        Shows Rep (m.update x e.bound.sql values) s')
      (fun cause s' => e.bound.values e.handlers = .error cause ∧ Shows Rep x s' ∨
        Channel.Lost G s'.2) := by
  refine e.bind_values (fun values hv => ?_) fun cause hv => .inl ⟨hv, hx⟩
  have hrun := run_shows (e := e) (P := fun _ y => y = m.update x e.bound.sql values) hd
    (fun h => e.updateOn d h values) values (Channel.Lost.notes (G := G)) ?_ hx
  · refine hrun.mono ?_ fun _ _ => .inr
    rintro _ s₁ ⟨_, rfl, h₁⟩
    exact ⟨values, hv, h₁⟩
  · intro D h st c hr hxD hs hsql
    refine (hu.updateOn_ok hd he hr hs values).mono (fun _ c₁ hr₁ => ?_) fun _ _ => id
    exact ⟨_, by rw [hxD, hsql], hr₁⟩

theorem query_shows (hd : d.Hosts Rep) (ha : d.Answers m Rep) (hx : Shows Rep x s) :
    Triple (query e d) s
      (fun rows s' => ∃ values, e.bound.values e.handlers = .ok values ∧
        rows = m.answer x e.bound.sql values ∧ Shows Rep (m.asked x e.bound.sql values) s')
      (fun cause s' => e.bound.values e.handlers = .error cause ∧ Shows Rep x s') := by
  refine e.bind_values (fun values hv => ?_) fun cause hv => ⟨hv, hx⟩
  have hrun := run_shows (e := e) (P := fun rows y => rows = m.answer x e.bound.sql values ∧
    y = m.asked x e.bound.sql values) (F := fun _ => False) hd
    (fun h => Execution.queryOn d h values) values (fun h _ => h) ?_ hx
  · refine hrun.mono ?_ fun _ _ => False.elim
    rintro rows s₁ ⟨_, ⟨hrows, rfl⟩, h₁⟩
    exact ⟨values, hv, hrows, h₁⟩
  · intro D h st c hr hxD hs hsql
    refine (ha.queryOn_ok hd hr hs values).mono ?_ fun _ _ => id
    rintro rows c₁ ⟨hrows, hr₁⟩
    exact ⟨_, by rw [hrows, hxD, hsql]; exact ⟨rfl, rfl⟩, by rw [← hxD, ← hsql]; exact hr₁⟩

theorem flush_shows (hd : d.Hosts Rep) (hx : Shows Rep x s)
    {E : Error → StatementPool × Channel σ → Prop} :
    Triple (flush d) s (fun _ s' => s'.1 = [] ∧ s'.2.Shows Rep x) E := by
  obtain ⟨D, hr, hx, -⟩ := hx
  exact .bind_get (.bind_modify (.onSecond ((releaseAll_shows hd ⟨D, hr, hx⟩ _).mono
    (fun _ _ h => ⟨rfl, h⟩) fun _ _ => id)))

end StatementPool

end

end MappedSql
