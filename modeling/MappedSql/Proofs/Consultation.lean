import MappedSql.Driver.Faults
import MappedSql.Proofs.Desks

/-!
# Drivers that are consulted

A driver with a database behind it. A query shows what the database answers to its text and its
values; only updates, batches, commits and rollbacks may change the database. Each call may
fail at any time. What a strategy asks of such a driver is answered from the database, and
changes it only where updates wait.
-/

namespace MappedSql

variable {σ δ α : Type}

-- ---------------------------------------------------------------------------
-- Drivers
-- ---------------------------------------------------------------------------

/-- What is seen of the state of a driver: its database, the texts of the handles that are
prepared, and the values that are bound to them. -/
structure View (δ σ : Type) where
  database : σ → δ
  prepared : σ → Handle → Option String
  bound : σ → Handle → Option (List Value)

namespace View

variable (v : View δ σ)

def Keeps (s s' : σ) : Prop :=
  ∀ h sql, v.prepared s h = some sql → v.prepared s' h = some sql

def Rests (s s' : σ) : Prop :=
  v.database s' = v.database s ∧ v.Keeps s s'

instance : IsPreorder σ v.Keeps where
  refl _ _ _ := id
  trans _ _ _ h h' handle sql := h' handle sql ∘ h handle sql

instance : IsPreorder σ v.Rests where
  refl s := ⟨rfl, refl_of v.Keeps s⟩
  trans _ _ _ h h' := ⟨h'.1.trans h.1, trans_of v.Keeps h.2 h'.2⟩

end View

/-- A driver that answers queries from its database, whatever calls fail. A statement keeps its
text while it is open, and shows what is asked with the values that it was last bound to. What a
commit or a rollback does is left open. -/
structure Driver.Consults (d : Driver σ) (v : View δ σ)
    (answer : δ → String → List Value → ResultSet) : Prop where
  prepare : ∀ sql timeout s, Triple (d.prepare sql timeout) s
    (fun h s' => v.Rests s s' ∧ v.prepared s' h = some sql) (fun _ => v.Rests s)
  bind : ∀ h values s, Triple (d.bind h values) s
    (fun _ s' => v.Rests s s' ∧ v.bound s' h = some values) (fun _ => v.Rests s)
  addBatch : ∀ h, (d.addBatch h).Respects v.Rests
  executeUpdate : ∀ h, (d.executeUpdate h).Respects v.Keeps
  executeBatch : ∀ h, (d.executeBatch h).Respects v.Keeps
  executeQuery : ∀ h s, Triple (d.executeQuery h) s
    (fun rows s' => v.Rests s s' ∧ ∀ sql values, v.prepared s h = some sql →
      v.bound s h = some values → rows = answer (v.database s) sql values) (fun _ => v.Rests s)
  close : ∀ h, (d.close h).Respects fun s s' => v.database s' = v.database s ∧
    ∀ h' sql, h' ≠ h → v.prepared s h' = some sql → v.prepared s' h' = some sql

-- ---------------------------------------------------------------------------
-- Work on handles
-- ---------------------------------------------------------------------------

namespace Driver.Consults

variable {d : Driver σ} {v : View δ σ} {answer : δ → String → List Value → ResultSet}
  (hd : d.Consults v answer)
include hd

theorem bind_respects (h : Handle) (values : List Value) : (d.bind h values).Respects v.Rests :=
  .of_triple fun s => (hd.bind h values s).mono (fun _ _ h => h.1) fun _ _ => id

theorem executeQuery_respects (h : Handle) : (d.executeQuery h).Respects v.Rests :=
  .of_triple fun s => (hd.executeQuery h s).mono (fun _ _ h => h.1) fun _ _ => id

theorem keepsOpen : d.KeepsOpen (Order.Preimage Channel.database v.Keeps) where
  bind h values := ((hd.bind_respects h values).mono fun _ _ h => h.2).within fun _ _ h => h
  addBatch h := ((hd.addBatch h).mono fun _ _ h => h.2).within fun _ _ h => h
  executeUpdate h := (hd.executeUpdate h).within fun _ _ h => h
  executeBatch h := (hd.executeBatch h).within fun _ _ h => h
  executeQuery h := ((hd.executeQuery_respects h).mono fun _ _ h => h.2).within fun _ _ h => h
  record _ c := refl_of v.Keeps c.database

theorem queryOn {c : Channel σ} {h : Handle} {sql : String}
    (hp : v.prepared c.database h = some sql) (values : List Value) :
    Triple (Execution.queryOn d h values) c
      (fun rows c' => v.Rests c.database c'.database ∧
        rows = answer (v.database c'.database) sql values)
      (fun _ c' => v.Rests c.database c'.database) := by
  refine .bind (P := fun _ c' => v.Rests c.database c'.database ∧
    v.bound c'.database h = some values) (.within (hd.bind h values c.database)) ?_
  rintro _ c₁ ⟨h₁, hb⟩
  refine .within ((hd.executeQuery h c₁.database).mono ?_ fun _ _ h₂ => trans_of v.Rests h₁ h₂)
  rintro rows s ⟨h₂, hrows⟩
  refine ⟨trans_of v.Rests h₁ h₂, ?_⟩
  rw [hrows sql values (h₁.2 h sql hp) hb, ← h₂.1]

theorem release (h : Handle) : (Channel.release d h).Respects fun c c' =>
    v.database c'.database = v.database c.database ∧ ∀ h' sql, h' ≠ h →
      v.prepared c.database h' = some sql → v.prepared c'.database h' = some sql :=
  fun c => hd.close h c.database

theorem releaseAll (handles : List Handle) : (StatementPool.releaseAll d handles).Respects
    (Order.Preimage Channel.database fun s s' => v.database s' = v.database s) := by
  induction handles with
  | nil => exact fun _ => rfl
  | cons h rest ih =>
    refine .of_triple fun c => .bind (((hd.release h).triple c).mono (fun _ _ h => h.1)
      fun _ _ h => h.1) fun _ c₁ h₁ => ?_
    exact (ih.triple c₁).mono (fun _ _ h₂ => Eq.trans h₂ h₁) fun _ _ h₂ => Eq.trans h₂ h₁

end Driver.Consults

/-- The rows are what is answered to the text and the values of an execution. -/
def Execution.Answered (e : Execution) (answer : String → List Value → ResultSet)
    (rows : ResultSet) : Prop :=
  ∃ values, e.bound.values e.handlers = .ok values ∧ rows = answer e.bound.sql values

namespace Driver.Consults

variable {d : Driver σ} {v : View δ σ} {answer : δ → String → List Value → ResultSet}
  (hd : d.Consults v answer)
include hd

theorem prepareOn (e : Execution) (c : Channel σ) :
    Triple (e.prepare d) c
      (fun h c' => v.Rests c.database c'.database ∧ v.prepared c'.database h = some e.bound.sql)
      (fun _ c' => v.Rests c.database c'.database) := by
  unfold Execution.prepare
  exact .within (hd.prepare e.bound.sql e.timeout c.database)

theorem withHandle {work : Action (Channel σ) α} {c : Channel σ} {P Q : α → Channel σ → Prop}
    {E F : Channel σ → Prop} (h : Handle) (hwork : Triple work c P fun _ => E)
    (hQ : ∀ value c₁ c₂, v.database c₂.database = v.database c₁.database → P value c₁ →
      Q value c₂ ∧ F c₂)
    (hF : ∀ c₁ c₂, v.database c₂.database = v.database c₁.database → E c₁ → F c₂) :
    Triple (Channel.withHandle d h work) c Q fun _ => F := by
  have hclose : (Channel.drive (d.close h)).Respects fun c₁ c₂ =>
      v.database c₂.database = v.database c₁.database :=
    (hd.close h).within fun _ _ h => h.1
  refine .bind_attempt hwork (fun value c₁ h₁ => ?_) fun cause c₁ h₁ => ?_
  · refine .bind (hclose.attempt_triple c₁) fun closed c₂ h₂ => ?_
    obtain ⟨hvalue, hfail⟩ := hQ value c₁ c₂ h₂ h₁
    exact .bind_ofExcept (fun _ hok => Except.ok.inj hok ▸ .bind_ofExcept (fun _ _ => .pure hvalue)
      fun _ _ => hfail) fun _ _ => hfail
  · refine .bind (hclose.attempt_triple c₁) fun closed c₂ h₂ => ?_
    exact .bind_ofExcept (fun _ hok => nomatch hok) fun _ _ => hF c₁ c₂ h₂ h₁

theorem queryOnce (e : Execution) (c : Channel σ) :
    Triple (e.queryOnce d) c
      (fun rows c' => v.database c'.database = v.database c.database ∧
        e.Answered (answer (v.database c'.database)) rows)
      (fun _ c' => v.database c'.database = v.database c.database) := by
  refine .bind_ofExcept (fun values hv => ?_) fun _ _ => rfl
  refine .bind ((hd.prepareOn e c).mono (fun _ _ h => h) fun _ _ h => h.1) ?_
  rintro h c₁ ⟨h₁, hp⟩
  refine hd.withHandle h (hd.queryOn hp values) ?_ fun c₂ c₃ h₃ h₂ => h₃.trans (h₂.1.trans h₁.1)
  rintro rows c₂ c₃ h₃ ⟨h₂, hrows⟩
  have hsame := h₃.trans (h₂.1.trans h₁.1)
  exact ⟨⟨hsame, values, hv, by rw [hrows, h₃]⟩, hsame⟩

end Driver.Consults

-- ---------------------------------------------------------------------------
-- Pools
-- ---------------------------------------------------------------------------

namespace StatementPool

def Stocked (v : View δ σ) (s : StatementPool × Channel σ) : Prop :=
  ∀ entry ∈ s.1, v.prepared s.2.database entry.2 = some entry.1

variable {d : Driver σ} {v : View δ σ} {answer : δ → String → List Value → ResultSet}
  {s : StatementPool × Channel σ} (hd : d.Consults v answer)

theorem Stocked.keeps {c : Channel σ} (h : Stocked v s)
    (hk : v.Keeps s.2.database c.database) : Stocked v (s.1, c) :=
  fun entry hm => hk _ _ (h entry hm)

include hd

theorem handleFor_stocked (e : Execution) (h : Stocked v s) :
    Triple (handleFor e d) s
      (fun handle s' => (Stocked v s' ∧ v.database s'.2.database = v.database s.2.database) ∧
        v.prepared s'.2.database handle = some e.bound.sql)
      (fun _ s' => Stocked v s' ∧ v.database s'.2.database = v.database s.2.database) := by
  obtain ⟨pool, c⟩ := s
  refine .bind_get ?_
  dsimp only
  cases hg : Keyed.get? pool e.bound.sql with
  | some handle => exact .pure ⟨⟨h, rfl⟩, h _ (Keyed.mem_of_get? hg)⟩
  | none =>
    refine .bind_onSecond (hd.prepareOn e c) (fun _ c₁ h₁ => ⟨h.keeps h₁.2, h₁.1⟩) ?_
    rintro handle c₁ ⟨h₁, hp⟩
    refine .bind_modify (.pure ⟨⟨fun entry hm => ?_, h₁.1⟩, hp⟩)
    rcases Keyed.mem_put hm with hm | rfl
    · exact h₁.2 _ _ (h entry hm)
    · exact hp

theorem drop_stocked (sql : String) (h : Stocked v s)
    {E : Error → StatementPool × Channel σ → Prop} :
    Triple (drop d sql) s
      (fun _ s' => Stocked v s' ∧ v.database s'.2.database = v.database s.2.database) E := by
  obtain ⟨pool, c⟩ := s
  refine .bind_get ?_
  dsimp only
  cases hg : Keyed.get? pool sql with
  | none => exact .pure ⟨h, rfl⟩
  | some handle =>
    have hheld : v.prepared c.database handle = some sql := h _ (Keyed.mem_of_get? hg)
    obtain ⟨hsame, hothers⟩ := hd.release handle c
    refine .bind_modify ⟨fun entry hm => ?_, hsame⟩
    obtain ⟨hm, hne⟩ := List.mem_filter.mp hm
    refine hothers _ _ (fun he => ?_) (h entry hm)
    have htext := (h entry hm).symm.trans (he ▸ hheld)
    simp [Option.some.inj htext] at hne

theorem run_stocked {e : Execution} {work : Handle → Action (Channel σ) α} {A : δ → Prop}
    {Q : α → Channel σ → Prop} (h : Stocked v s) (hA : A (v.database s.2.database))
    (hwork : ∀ handle c, v.prepared c.database handle = some e.bound.sql →
      A (v.database c.database) → Triple (work handle) c
        (fun value c' => (v.Keeps c.database c'.database ∧ A (v.database c'.database)) ∧ Q value c')
        (fun _ c' => v.Keeps c.database c'.database ∧ A (v.database c'.database))) :
    Triple (run e d work) s
      (fun value s' => (Stocked v s' ∧ A (v.database s'.2.database)) ∧ Q value s'.2)
      (fun _ s' => Stocked v s' ∧ A (v.database s'.2.database)) := by
  refine .bind ((handleFor_stocked hd e h).mono (fun _ _ h => h) fun _ s' h₁ =>
    ⟨h₁.1, h₁.2 ▸ hA⟩) ?_
  rintro handle ⟨pool, c⟩ ⟨⟨h₁, hsame⟩, hp⟩
  have hA₁ : A (v.database c.database) := hsame ▸ hA
  refine .bind (P := fun outcome s' => (Stocked v s' ∧ A (v.database s'.2.database)) ∧
    ∀ value, outcome = .ok value → Q value s'.2) ?_ ?_
  · refine .attempt (.onSecond ((hwork handle c hp hA₁).mono ?_ ?_))
    · rintro value c' ⟨⟨hk, hA'⟩, hq⟩
      exact ⟨⟨h₁.keeps hk, hA'⟩, fun _ hok => Except.ok.inj hok ▸ hq⟩
    · rintro cause c' ⟨hk, hA'⟩
      exact ⟨⟨h₁.keeps hk, hA'⟩, nofun⟩
  · rintro outcome s₁ ⟨⟨h₂, hA₂⟩, hq⟩
    cases outcome with
    | ok value => exact .pure ⟨⟨h₂, hA₂⟩, hq value rfl⟩
    | error cause =>
      refine .bind (drop_stocked hd e.bound.sql h₂) fun _ s₂ h₃ => .throw ?_
      exact ⟨h₃.1, h₃.2 ▸ hA₂⟩

end StatementPool

-- ---------------------------------------------------------------------------
-- Strategies
-- ---------------------------------------------------------------------------

namespace Strategy

/-- No update waits any longer, and where none did, the database is as it was. -/
def Settles (database : σ → δ) (s s' : Strategy × Channel σ) : Prop :=
  s'.1.queue = [] ∧ (s.1.queue = [] → database s'.2.database = database s.2.database)

def Stocked (v : View δ σ) (s : Strategy × Channel σ) : Prop :=
  match s.1 with
  | .reuse pool => StatementPool.Stocked v (pool, s.2)
  | .simple | .batch _ => True

variable {d : Driver σ} {v : View δ σ} {answer : δ → String → List Value → ResultSet}
  {s : Strategy × Channel σ}

theorem stocked_of_held (h : s.1.held = []) : Stocked v s := by
  obtain ⟨strategy, c⟩ := s
  cases strategy with
  | simple => trivial
  | reuse pool =>
    obtain rfl : pool = [] := List.map_eq_nil_iff.mp h
    exact nofun
  | batch queue => trivial

variable (hd : d.Consults v answer)
include hd

theorem update_stocked (e : Execution) (h : Stocked v s) :
    Triple (update e d) s (fun _ => Stocked v) (fun _ => Stocked v) := by
  obtain ⟨strategy, c⟩ := s
  cases strategy with
  | simple => exact dispatch_simple (.always (fun _ _ => trivial) fun _ _ => trivial)
  | reuse pool =>
    refine dispatch_reuse (Execution.bind_values (fun values _ => ?_) fun _ _ => h)
    refine (StatementPool.run_stocked hd (A := fun _ => True) (Q := fun _ _ => True) h trivial
      fun handle c' _ _ => ?_).mono (fun _ _ h => h.1.1) fun _ _ h => h.1
    exact ((hd.keepsOpen.updateOn e handle values).triple c').mono
      (fun _ _ hk => ⟨⟨hk, trivial⟩, trivial⟩) fun _ _ hk => ⟨hk, trivial⟩
  | batch queue => exact dispatch_batch (.always (fun _ _ => trivial) fun _ _ => trivial)

theorem flush_settles :
    (flush d).Respects fun s s' => s'.1.held = [] ∧ Settles v.database s s' := by
  refine fun s => ⟨flush_held d s, queue_of_held (flush_held d s), ?_⟩
  obtain ⟨strategy, c⟩ := s
  cases strategy with
  | simple => exact fun _ => rfl
  | reuse pool =>
    have hpool := (hd.releaseAll (pool.map (·.2))).triple c
    have hflush : Triple (flush d) (.reuse pool, c)
        (fun _ s' => v.database s'.2.database = v.database c.database)
        (fun _ s' => v.database s'.2.database = v.database c.database) :=
      dispatch_reuse (.bind (.bind_get (.bind_modify (.onSecond hpool))) fun _ _ h => .pure h)
    exact fun _ => hflush.state
  | batch queue =>
    rintro rfl
    rfl

/-- A query is answered from the database as it is after it, once all updates have been sent. -/
theorem query_settles (e : Execution) (h : Stocked v s) :
    Triple (query e d) s
      (fun rows s' => (Stocked v s' ∧ Settles v.database s s') ∧
        e.Answered (answer (v.database s'.2.database)) rows)
      (fun _ s' => Stocked v s' ∧ Settles v.database s s') := by
  obtain ⟨strategy, c⟩ := s
  cases strategy with
  | simple =>
    exact dispatch_simple ((hd.queryOnce e c).mono
      (fun _ _ h => ⟨⟨trivial, rfl, fun _ => h.1⟩, h.2⟩) fun _ _ h => ⟨trivial, rfl, fun _ => h⟩)
  | reuse pool =>
    refine dispatch_reuse (Execution.bind_values (fun values hv => ?_) fun _ _ =>
      ⟨h, rfl, fun _ => rfl⟩)
    refine (StatementPool.run_stocked hd
      (A := fun x => x = v.database c.database)
      (Q := fun rows c' => e.Answered (answer (v.database c'.database)) rows) h rfl
      fun handle c' hp hA => ?_).mono (fun _ _ h => ⟨⟨h.1.1, rfl, fun _ => h.1.2⟩, h.2⟩)
      fun _ _ h => ⟨h.1, rfl, fun _ => h.2⟩
    exact (hd.queryOn hp values).mono
      (fun _ _ h => ⟨⟨h.1.2, h.1.1.trans hA⟩, values, hv, h.2⟩) fun _ _ h => ⟨h.2, h.1.trans hA⟩
  | batch queue =>
    have hflush : (BatchQueue.flush d).Respects fun s s' => s'.1 = [] ∧
        (s.1 = [] → v.database s'.2.database = v.database s.2.database) := by
      refine fun s => ⟨rfl, fun hq => ?_⟩
      obtain ⟨_, _⟩ := s
      subst hq
      rfl
    refine dispatch_batch (.bind ((hflush.triple (queue, c)).mono (fun _ _ h => h)
      fun _ _ h => ⟨trivial, h⟩) ?_)
    rintro _ ⟨_, c₁⟩ ⟨rfl, h₁⟩
    refine .onSecond ((hd.queryOnce e c₁).mono ?_ ?_)
    · exact fun _ _ h => ⟨⟨trivial, rfl, fun hq => h.1.trans (h₁ hq)⟩, h.2⟩
    · exact fun _ _ h => ⟨trivial, rfl, fun hq => h.trans (h₁ hq)⟩

end Strategy

-- ---------------------------------------------------------------------------
-- Drivers of engines, and faults
-- ---------------------------------------------------------------------------

/-- The handles that are still to be given out are on no desk. -/
def Workplace.view : View δ (Workplace δ) where
  database s := s.desk.database
  prepared s h := if h.number < s.given then (s.desk.statements h).map (·.sql) else none
  bound s h := (s.desk.statements h).map (·.values)

namespace Workplace

variable {s : Workplace δ} {D : Desk δ} {h : Handle} {st : ScriptedStatement}

theorem view_prepared {sql : String} : view.prepared s h = some sql ↔
    h.number < s.given ∧ (s.desk.statements h).map (·.sql) = some sql :=
  Option.ite_none_right_eq_some

theorem view_keeps (hD : ∀ h sql, (s.desk.statements h).map (·.sql) = some sql →
    (D.statements h).map (·.sql) = some sql) : view.Keeps s { s with desk := D } :=
  fun h sql hp => view_prepared.mpr ((view_prepared.mp hp).imp_right (hD h sql))

theorem view_put {st' : ScriptedStatement} (hs : s.desk.statements h = some st)
    (hsql : st'.sql = st.sql) : view.Keeps s { s with desk := s.desk.put h st' } := by
  refine view_keeps fun other sql hp => ?_
  by_cases he : other = h
  · subst he
    rw [hs] at hp
    rw [Desk.statements_put, ← hp]
    exact congrArg some hsql
  · rwa [Desk.statements_put_of_ne _ _ _ he]

theorem onStatement_rule {f : Desk δ → ScriptedStatement → α × Desk δ}
    {Q : α → Workplace δ → Prop} {E : Error → Workplace δ → Prop}
    (hQ : ∀ st, s.desk.statements h = some st →
      Q (f s.desk st).1 { s with desk := (f s.desk st).2 })
    (hE : ∀ e, E e s) : Triple (onStatement h f) s Q E := by
  unfold onStatement
  refine .bind_get ?_
  cases hs : s.desk.statements h with
  | some st => exact .bind_modify (.pure (hQ st hs))
  | none => exact .throw (hE _)

end Workplace

theorem Engine.driver_consults {m : Engine δ} (hasked : ∀ x sql values, m.asked x sql values = x) :
    m.driver.Consults Workplace.view m.answer where
  prepare sql timeout s := by
    refine .modifyGet ⟨⟨rfl, fun h sql' hp => ?_⟩, ?_⟩
    · obtain ⟨hg, hp⟩ := Workplace.view_prepared.mp hp
      have hne : h ≠ ⟨s.given⟩ := by
        rintro rfl
        exact Nat.lt_irrefl _ hg
      refine Workplace.view_prepared.mpr ⟨Nat.lt_succ_of_lt hg, ?_⟩
      rwa [Desk.statements_put_of_ne _ _ _ hne]
    · exact Workplace.view_prepared.mpr ⟨Nat.lt_succ_self _, by rw [Desk.statements_put]; rfl⟩
  bind h values s := Workplace.onStatement_rule
    (fun st hs => ⟨⟨rfl, Workplace.view_put hs rfl⟩, by simp [Workplace.view]⟩)
    fun _ => refl_of _ s
  addBatch h := .of_triple fun s => Workplace.onStatement_rule
    (fun st hs => ⟨rfl, Workplace.view_put hs rfl⟩) fun _ => refl_of _ s
  executeUpdate h := .of_triple fun s => Workplace.onStatement_rule
    (fun st hs => Workplace.view_keeps fun _ _ => id) fun _ => refl_of _ s
  executeBatch h := .of_triple fun s => Workplace.onStatement_rule
    (fun st hs => Workplace.view_put hs rfl) fun _ => refl_of _ s
  executeQuery h s := by
    refine Workplace.onStatement_rule (fun st hs => ?_) fun _ => refl_of _ s
    refine ⟨⟨hasked _ _ _, Workplace.view_keeps fun _ _ => id⟩, fun sql values hp hb => ?_⟩
    obtain ⟨-, hp⟩ := Workplace.view_prepared.mp hp
    rw [hs] at hp
    rw [show Workplace.view.bound s h = (s.desk.statements h).map (·.values) from rfl, hs] at hb
    cases hp
    cases hb
    rfl
  close h s := by
    refine ⟨rfl, fun other sql hne hp => ?_⟩
    obtain ⟨hg, hp⟩ := Workplace.view_prepared.mp hp
    refine Workplace.view_prepared.mpr ⟨hg, ?_⟩
    rwa [← Desk.statements_erase_of_ne _ h hne] at hp

namespace Faults

variable {faults : Faults} {operation : Operation} {a : Action σ α}

/-- A call that fails by a fault has not reached the driver. -/
theorem guard_rule {c : Counted σ} {Q : α → σ → Prop} {E : Error → σ → Prop}
    (h : Triple a c.inner Q E) (hE : ∀ e, E e c.inner) :
    Triple (faults.guard operation a) c (fun value c' => Q value c'.inner)
      fun e c' => E e c'.inner := by
  refine .bind_get (.bind_modify ?_)
  split
  · exact .bind (P := fun _ _ => False) (.throw (hE _)) fun _ _ => False.elim
  · exact .within h

theorem guard_respects {R : σ → σ → Prop} [IsPreorder σ R] (h : a.Respects R) :
    (faults.guard operation a).Respects (Order.Preimage Counted.inner R) :=
  .of_triple fun c => guard_rule (h.triple c.inner) fun _ => refl_of R c.inner

end Faults

def View.counted (v : View δ σ) : View δ (Counted σ) where
  database c := v.database c.inner
  prepared c := v.prepared c.inner
  bound c := v.bound c.inner

theorem Driver.Consults.around {d : Driver σ} {v : View δ σ}
    {answer : δ → String → List Value → ResultSet} (hd : d.Consults v answer) (faults : Faults) :
    (faults.around d).Consults v.counted answer where
  prepare sql timeout c :=
    Faults.guard_rule (hd.prepare sql timeout c.inner) fun _ => refl_of v.Rests c.inner
  bind h values c :=
    Faults.guard_rule (hd.bind h values c.inner) fun _ => refl_of v.Rests c.inner
  addBatch h := Faults.guard_respects (hd.addBatch h)
  executeUpdate h := Faults.guard_respects (hd.executeUpdate h)
  executeBatch h := Faults.guard_respects (hd.executeBatch h)
  executeQuery h c := Faults.guard_rule (hd.executeQuery h c.inner) fun _ => refl_of v.Rests c.inner
  close h := .of_triple fun c => Faults.guard_rule ((hd.close h).triple c.inner)
    fun _ => ⟨rfl, fun _ _ _ => id⟩

end MappedSql
