import MappedSql.Proofs.Serving

/-!
# Recordings on a desk

A scripted driver is a driver with a desk: its open statements are on it, and a part of what it
records is the database. Which part that is depends on what is to be said. Handles are numbers
that are given out once.
-/

namespace MappedSql

variable {δ : Type}

structure Records where
  updates : List (String × List Value)
  queries : List (String × List Value)
  batches : List (String × List (List Value))

namespace Recording

def records (r : Recording) : Records where
  updates := r.updates
  queries := r.queries
  batches := r.batches

/-- No statement has a handle that is still to be given out. -/
def Numbered (r : Recording) : Prop :=
  ∀ h st, Keyed.get? r.statements h = some st → h.number ≤ r.prepared.length

/-- A recording as a desk, with a view on its records as the database. -/
structure Lays (view : Records → δ) (D : Desk δ) (r : Recording) : Prop where
  database : D.database = view r.records
  statements : ∀ h, D.statements h = Keyed.get? r.statements h
  numbered : r.Numbered

variable {view : Records → δ} {D : Desk δ} {r : Recording} {h : Handle} {st : ScriptedStatement}

theorem Numbered.put (hn : r.Numbered) (hh : h.number ≤ r.prepared.length)
    (st : ScriptedStatement) : Numbered { r with statements := Keyed.put r.statements h st } := by
  intro other old ho
  by_cases he : other = h
  · exact he ▸ hh
  · exact hn other old ((Keyed.get?_put_of_ne _ _ he).symm.trans ho)

theorem Numbered.erase (hn : r.Numbered) (h : Handle) (closed : Nat) :
    Numbered { r with statements := Keyed.erase r.statements h, closed } := by
  intro other old ho
  have hne : other ≠ h := by
    rintro rfl
    exact Option.some_ne_none old (ho.symm.trans (Keyed.get?_erase_self ..))
  exact hn other old ((Keyed.get?_erase_of_ne _ hne).symm.trans ho)

theorem Numbered.bind_statement {α : Type} {f : ScriptedStatement → Action Recording α}
    (hn : r.Numbered) (hf : h.number ≤ r.prepared.length → ∀ st, Triple (f st) r (fun _ => Numbered)
      fun _ => Numbered) :
    Triple (statement h >>= f) r (fun _ => Numbered) fun _ => Numbered := by
  refine .bind (P := fun _ r' => r' = r ∧ h.number ≤ r.prepared.length) ?_ ?_
  · refine .bind_get ?_
    cases hs : Keyed.get? r.statements h with
    | none => exact .throw hn
    | some st => exact .pure ⟨rfl, hn h st hs⟩
  · rintro st _ ⟨rfl, hh⟩
    exact hf hh st

theorem Lays.put (hr : Lays view D r) (hh : h.number ≤ r.prepared.length)
    (st : ScriptedStatement) :
    Lays view (D.put h st) { r with statements := Keyed.put r.statements h st } where
  database := hr.database
  statements other := by
    by_cases he : other = h
    · rw [he, Desk.statements_put, Keyed.get?_put_self]
    · rw [Desk.statements_put_of_ne D h st he, Keyed.get?_put_of_ne _ _ he, hr.statements]
  numbered := hr.numbered.put hh st

theorem Lays.given (hr : Lays view D r) (hs : D.statements h = some st) :
    h.number ≤ r.prepared.length :=
  hr.numbered h st ((hr.statements h).symm.trans hs)

theorem Lays.bind_statement {α : Type} (hr : Lays view D r) (hs : D.statements h = some st)
    {f : ScriptedStatement → Action Recording α} {Q : α → Recording → Prop}
    {E : Error → Recording → Prop} (hf : Triple (f st) r Q E) :
    Triple (statement h >>= f) r Q E := by
  refine .bind (P := fun found r' => found = st ∧ r' = r) ?_ ?_
  · refine .bind_get ?_
    rw [(hr.statements h).symm.trans hs]
    exact .pure ⟨rfl, rfl⟩
  · rintro _ _ ⟨rfl, rfl⟩
    exact hf

theorem Lays.withDatabase {r' : Recording} {x : δ} (hr : Lays view D r)
    (hx : x = view r'.records) (hs : r'.statements = r.statements)
    (hp : r'.prepared = r.prepared) : Lays view (D.withDatabase x) r' where
  database := hx
  statements h := by
    rw [Desk.statements_withDatabase, hs, hr.statements]
  numbered := by
    unfold Numbered
    rw [hs, hp]
    exact hr.numbered

theorem bind_failAt {α : Type} {planned : Option Nat} {operation : String} {call : Nat}
    {f : Unit → Action Recording α} {Q : α → Recording → Prop} {E : Error → Recording → Prop}
    (hf : Triple (f ()) r Q E) (hE : ∀ n, planned = some n → ∀ e, E e r) :
    Triple (failAt planned operation call >>= f) r Q E := by
  unfold failAt
  by_cases hp : planned = some call
  · rw [if_pos hp]
    exact .bind (P := fun _ _ => False) (.throw (hE call hp _)) fun _ _ => False.elim
  · rw [if_neg hp]
    exact hf

end Recording

namespace Script

open Recording

variable (script : Script) (view : Records → δ) {m : Engine δ}

theorem hosts : script.driver.Hosts (Lays view) where
  prepare {D r} sql timeout hr := by
    have hnew : D.statements ⟨r.prepared.length + 1⟩ = none := by
      rw [hr.statements, Option.eq_none_iff_forall_not_mem]
      intro st hs
      exact absurd (hr.numbered _ st hs) (Nat.not_succ_le_self _)
    have hr' : Lays view D { r with prepared := r.prepared ++ [(sql, timeout)] } :=
      ⟨hr.database, hr.statements, fun h st hs => (hr.numbered h st hs).trans (by simp)⟩
    exact .bind_get (.bind_modify (.bind_modify (.pure ⟨hnew, hr'.put (by simp) _⟩)))
  bind values hr hs := hr.bind_statement hs (.modify (hr.put (hr.given hs) _))
  close {D r} h hr := by
    refine .modify ?_
    cases hc : Keyed.contains r.statements h with
    | true =>
      refine ⟨hr.database, fun other => ?_, hr.numbered.erase h _⟩
      by_cases he : other = h
      · rw [he]
        simp [Desk.erase, Keyed.get?_erase_self]
      · rw [Desk.statements_erase_of_ne D h he, hr.statements]
        exact (Keyed.get?_erase_of_ne _ he).symm
    | false =>
      refine ⟨hr.database, fun other => ?_, hr.numbered⟩
      by_cases he : other = h
      · rw [he]
        simp [Desk.erase, Keyed.get?_eq_none_of_not_contains (Bool.not_eq_true _ ▸ hc)]
      · rw [Desk.statements_erase_of_ne D h he, hr.statements]
        rfl

variable {script view}

/-- A batch is recorded as a whole. It fails only where the script says so. -/
theorem collects {fails : Prop} (hadd : ∀ n, script.failAddBatch = some n → fails)
    (hbatch : ∀ n, script.failBatch = some n → fails)
    (hm : ∀ r sql batch, m.batch (view r) sql batch =
      view { r with batches := r.batches ++ [(sql, batch)] }) :
    script.driver.Collects m (Lays view) fails where
  addBatch {D r h st} hr hs := by
    refine .bind_modify (.bind_get (bind_failAt ?_ fun n hn _ => ⟨hadd n hn, ?_⟩))
    · have hr' : Lays view D { r with addBatchCalls := r.addBatchCalls + 1 } :=
        ⟨hr.database, hr.statements, hr.numbered⟩
      exact hr'.bind_statement hs (.modify ⟨[], hr'.put (hr'.given hs) _⟩)
    · exact ⟨hr.database, hr.statements, hr.numbered⟩
  executeBatch {D r h st} hr hs := by
    have hr' : Lays view D { r with batchCalls := r.batchCalls + 1 } :=
      ⟨hr.database, hr.statements, hr.numbered⟩
    have hput := hr'.put (hr'.given hs) { st with batch := [] }
    refine .bind_modify (.bind_get (hr'.bind_statement hs (.bind_modify ?_)))
    have hrun {E : Error → Recording → Prop} : Triple (do
        modify fun r => { r with batches := r.batches ++ [(st.sql, st.batch)] }
        return List.replicate st.batch.length 1) { r with
          batchCalls := r.batchCalls + 1,
          statements := Keyed.put r.statements h { st with batch := [] } }
        (fun counts r' => counts.length = st.batch.length ∧
          Lays view ((D.put h { st with batch := [] }).withDatabase
            (m.batch D.database st.sql st.batch)) r') E := by
      refine .bind_modify (.pure ⟨List.length_replicate, hput.withDatabase ?_ rfl rfl⟩)
      rw [hr.database, hm]
      rfl
    cases hf : script.failBatch with
    | none => exact hrun
    | some planned =>
      obtain ⟨failing, succeeded⟩ := planned
      have hfails := hbatch _ hf
      dsimp only
      split
      · exact .bind (P := fun _ _ => False) (.throw hfails) fun _ _ => False.elim
      · exact hrun

theorem updates (hfail : script.failUpdate = none)
    (hm : ∀ r sql values, m.update (view r) sql values =
      view { r with updates := r.updates ++ [(sql, values)] }) :
    script.driver.Updates m (Lays view) where
  executeUpdate {D r h st} hr hs := by
    have hr' : Lays view D { r with updateCalls := r.updateCalls + 1 } :=
      ⟨hr.database, hr.statements, hr.numbered⟩
    refine .bind_modify (.bind_get (bind_failAt ?_ fun n hn _ => ?_))
    · refine hr'.bind_statement hs (.bind_modify (.pure (hr'.withDatabase ?_ rfl rfl)))
      rw [hr.database, hm]
      rfl
    · rw [hfail] at hn
      cases hn

theorem answers (hfail : script.failQuery = none)
    (hanswer : ∀ x sql values, m.answer x sql values = (Keyed.get? script.results sql).getD {})
    (hm : ∀ r sql values, m.asked (view r) sql values =
      view { r with queries := r.queries ++ [(sql, values)] })
    (hcommit : ∀ x, m.commit x = x) (hrollback : ∀ x, m.rollback x = x) :
    script.driver.Answers m (Lays view) where
  executeQuery {D r h st} hr hs := by
    have hr' : Lays view D { r with queryCalls := r.queryCalls + 1 } :=
      ⟨hr.database, hr.statements, hr.numbered⟩
    refine .bind_modify (.bind_get (bind_failAt ?_ fun n hn _ => ?_))
    · refine hr'.bind_statement hs (.bind_modify (.pure ⟨(hanswer ..).symm,
        hr'.withDatabase ?_ rfl rfl⟩))
      rw [hr.database, hm]
      rfl
    · rw [hfail] at hn
      cases hn
  commit {D r} hr := .modify (hr.withDatabase ((hcommit _).trans hr.database) rfl rfl)
  rollback {D r} hr := .modify (hr.withDatabase ((hrollback _).trans hr.database) rfl rfl)

def Numbers (c c' : Channel Recording) : Prop :=
  c.database.Numbered → c'.database.Numbered

instance : IsPreorder (Channel Recording) Numbers where
  refl _ := id
  trans _ _ _ h h' := h' ∘ h

theorem keeps_numbers (script : Script) : script.driver.Keeps Numbers := by
  have hdrive {α : Type} {a : Action Recording α} (ha : ∀ r, r.Numbered →
      Triple a r (fun _ => Numbered) fun _ => Numbered) : (Channel.drive a).Respects Numbers :=
    fun c hn => (ha c.database hn).state
  have hopen : script.driver.KeepsOpen Numbers := {
    bind := fun h values => hdrive fun r hn => Numbered.bind_statement hn fun hh st =>
      .modify (hn.put hh _)
    addBatch := fun h => hdrive fun r hn => .bind_modify (.bind_get (bind_failAt
      (Numbered.bind_statement hn fun hh st => .modify (Numbered.put hn hh _)) fun _ _ _ => hn))
    executeUpdate := fun h => hdrive fun r hn => .bind_modify (.bind_get (bind_failAt
      (Numbered.bind_statement hn fun hh st => .bind_modify (.pure hn)) fun _ _ _ => hn))
    executeBatch := fun h => hdrive fun r hn => .bind_modify (.bind_get (Numbered.bind_statement hn
      fun hh st => .bind_modify (by
        have hn' := Numbered.put (r := { r with batchCalls := r.batchCalls + 1 }) hn hh
          { st with batch := [] }
        dsimp only
        split
        · split
          · exact .bind (P := fun _ _ => False) (.throw hn') fun _ _ => False.elim
          · exact .bind_modify (.pure hn')
        · exact .bind_modify (.pure hn'))))
    executeQuery := fun h => hdrive fun r hn => .bind_modify (.bind_get (bind_failAt
      (Numbered.bind_statement hn fun hh st => .bind_modify (.pure hn)) fun _ _ _ => hn))
    record := fun event c hn => hn }
  refine ⟨hopen, fun sql timeout => hdrive fun r hn => ?_, fun h => hdrive fun r hn => ?_,
    fun c hn => hn, fun c hn => hn⟩
  · have hn' : Numbered { r with prepared := r.prepared ++ [(sql, timeout)] } :=
      fun h st hs => (hn h st hs).trans (by simp)
    exact .bind_get (.bind_modify (.bind_modify (.pure (hn'.put (by simp) _))))
  · refine .modify ?_
    split
    · exact hn.erase h _
    · exact hn

end Script

-- ---------------------------------------------------------------------------
-- Notes
-- ---------------------------------------------------------------------------

/-! Statements on a table of notes, which share a cache. -/

namespace Notes

def cache : CacheRef where
  id := "note"
  index := 0

def caches : Caches where
  caches := [.leastRecent 2 [] (.store "note" [])]

/-- The key of a note is asked for after it was written. -/
def write : Statement where
  id := "write"
  template := .compiled
    { sql := "insert into note values (?)", parameters := [{ property := none, type := .int }] }
  command := .insert
  cache := some cache
  keyGenerator := some fun _ _ _ => .ok ()

def wipe : Statement where
  id := "wipe"
  template := .compiled { sql := "delete from note", parameters := [] }
  command := .delete
  cache := some cache

def read : Statement where
  id := "read"
  template := .compiled { sql := "select n from note", parameters := [] }
  command := .select
  cache := some cache

def configuration : Configuration where
  caches := [("note", cache)]
  statements := [("write", write), ("wipe", wipe), ("read", read)]

theorem statement_cases {name : String} {s : Statement} (h : configuration.statement name = .ok s) :
    s = write ∨ s = wipe ∨ s = read := by
  unfold Configuration.statement at h
  cases hk : Keyed.get? configuration.statements name with
  | none =>
    rw [hk] at h
    cases h
  | some found =>
    rw [hk] at h
    cases h
    have hm := Keyed.mem_of_get? hk
    simp only [configuration, List.mem_cons, Prod.mk.injEq, List.not_mem_nil, or_false] at hm
    exact hm.imp And.right (Or.imp And.right And.right)

theorem keysGenerated (journal : List KeyEvent) :
    KeysGenerated configuration.Generator journal := by
  rintro before event - generate ⟨name, s, hs, -, hg⟩
  rcases statement_cases hs with rfl | rfl | rfl <;> cases hg
  rfl

end Notes

end MappedSql
