import MappedSql.Proofs.DirectExecution
import MappedSql.Proofs.Recordings

/-!
# Sessions that reuse statements

The same calls of a session on two scripted drivers that fail at the same places, whose executors
prepare every statement anew or keep statements open and use them again. Every call ends alike,
and the drivers record the same updates, queries, commits and rollbacks. What differs is only
what the drivers were asked to prepare and to close.
-/

namespace MappedSql

theorem Triple.respecting {σ α : Type} {a : Action σ α} {s : σ} {Q : α → σ → Prop}
    {E : Error → σ → Prop} {R : σ → σ → Prop} (h : Triple a s Q E) (hr : a.Respects R) :
    Triple a s (fun value s' => Q value s' ∧ R s s') fun e s' => E e s' ∧ R s s' := by
  have hs := hr s
  unfold Triple at h ⊢
  split at h <;> rename_i ho <;> rw [ho] at hs
  · exact ⟨h, hs⟩
  · exact ⟨h, hs⟩

-- ---------------------------------------------------------------------------
-- Scripted drivers as machines
-- ---------------------------------------------------------------------------

namespace Recording

/-- What a recording tells apart from the handles: all but the statements that are open and what
was prepared and closed. -/
def told (r : Recording) : Recording :=
  { r with statements := [], prepared := [], closed := 0 }

structure Tells (D : Desk Recording) (r : Recording) : Prop where
  told : D.database = r.told
  lays : Lays (fun _ => ()) { database := (), statements := D.statements } r

variable {D : Desk Recording} {r y : Recording} {h : Handle} {st : ScriptedStatement}

theorem Tells.modify {f : Recording → Recording} (ht : Tells (D.withDatabase y) r)
    (hf : (f r).told = f r.told) (hs : (f r).statements = r.statements)
    (hp : (f r).prepared = r.prepared) :
    Lockstep (fun r y => Tells (D.withDatabase y) r) (modify f) (modify f) r y :=
  .modify ⟨(congrArg f ht.told).trans hf.symm, ht.lays.withDatabase rfl hs hp⟩

theorem Tells.bind_statement {α : Type} {f : ScriptedStatement → Action Recording α}
    {b : Action Recording α} {R : Recording → Recording → Prop} (ht : Tells D r)
    (hs : D.statements h = some st) (hf : Lockstep R (f st) b r y) :
    Lockstep R (statement h >>= f) b r y := by
  refine Lockstep.bind_ahead (P := fun found r' => found = st ∧ r' = r) ?_ ?_
  · refine .bind_get ?_
    rw [(ht.lays.statements h).symm.trans hs]
    exact .pure ⟨rfl, rfl⟩
  · rintro _ _ ⟨rfl, rfl⟩
    exact hf

theorem failAt_lockstep {R : Recording → Recording → Prop} (planned : Option Nat)
    (operation : String) (call : Nat) (h : R r y) :
    Lockstep R (failAt planned operation call) (failAt planned operation call) r y := by
  unfold failAt
  split
  · exact .throw _ h
  · exact .pure () h

end Recording

namespace Script

open Recording

def machine (script : Script) : Machine Recording where
  update sql values := do
    modify fun r => { r with updateCalls := r.updateCalls + 1 }
    failAt script.failUpdate "execute_update" (← get).updateCalls
    modify fun r => { r with updates := r.updates ++ [(sql, values)] }
    return 1
  query sql values := do
    modify fun r => { r with queryCalls := r.queryCalls + 1 }
    failAt script.failQuery "execute_query" (← get).queryCalls
    modify fun r => { r with queries := r.queries ++ [(sql, values)] }
    return (Keyed.get? script.results sql).getD {}
  commit := modify fun r => { r with commits := r.commits + 1 }
  rollback := modify fun r => { r with rollbacks := r.rollbacks + 1 }

theorem hosts_tells (script : Script) : script.driver.Hosts Tells where
  prepare {D r} sql timeout ht := by
    have hkeeps : (prepare sql timeout).Respects fun r r' => r'.told = r.told := fun _ => rfl
    have hlays := (script.hosts fun _ => ()).prepare sql timeout ht.lays
    refine (hlays.respecting hkeeps).mono ?_ fun _ _ h => h.1
    rintro h r' ⟨⟨hnew, hl⟩, hr⟩
    exact ⟨hnew, ht.told.trans hr.symm, hl⟩
  bind {D r h st} values ht hs := by
    have hkeeps : (bind h values).Respects fun r r' => r'.told = r.told := by
      intro r
      simp only [Recording.bind, statement, Action.outcome_bind, Action.outcome_get]
      cases Keyed.get? r.statements h <;> rfl
    have hlays := (script.hosts fun _ => ()).bind values ht.lays hs
    refine (hlays.respecting hkeeps).mono ?_ fun _ _ h => h.1
    rintro _ r' ⟨hl, hr⟩
    exact ⟨ht.told.trans hr.symm, hl⟩
  close {D r} h ht := by
    have hkeeps : (close h).Respects fun r r' => r'.told = r.told := by
      intro r
      simp only [close, Action.outcome_modify]
      split <;> rfl
    have hlays := (script.hosts fun _ => ()).close h ht.lays
    refine (hlays.respecting hkeeps).mono ?_ fun _ _ h => h.1
    rintro _ r' ⟨hl, hr⟩
    exact ⟨ht.told.trans hr.symm, hl⟩

theorem executes (script : Script) : script.driver.Executes script.machine Tells where
  toHosts := script.hosts_tells
  executeUpdate {D r h st} ht hs := by
    have ht₁ : Tells (D.withDatabase D.database) r := ht
    refine Lockstep.bind (ht₁.modify rfl rfl rfl) ?_
    intro _ r₁ y₁ ht₂
    refine Twin.bind_get ?_
    obtain rfl : y₁ = r₁.told := ht₂.told
    refine Lockstep.bind (failAt_lockstep _ _ _ ht₂) ?_
    intro _ r₂ y₂ ht₃
    refine ht₃.bind_statement hs ?_
    exact Lockstep.bind (ht₃.modify rfl rfl rfl) fun _ _ _ ht => .pure 1 ht
  executeQuery {D r h st} ht hs := by
    have ht₁ : Tells (D.withDatabase D.database) r := ht
    refine Lockstep.bind (ht₁.modify rfl rfl rfl) ?_
    intro _ r₁ y₁ ht₂
    refine Twin.bind_get ?_
    obtain rfl : y₁ = r₁.told := ht₂.told
    refine Lockstep.bind (failAt_lockstep _ _ _ ht₂) ?_
    intro _ r₂ y₂ ht₃
    refine ht₃.bind_statement hs ?_
    exact Lockstep.bind (ht₃.modify rfl rfl rfl) fun _ _ _ ht => .pure _ ht
  commit {D r} ht := by
    have ht₁ : Tells (D.withDatabase D.database) r := ht
    exact ht₁.modify rfl rfl rfl
  rollback {D r} ht := by
    have ht₁ : Tells (D.withDatabase D.database) r := ht
    exact ht₁.modify rfl rfl rfl

-- ---------------------------------------------------------------------------
-- Runs with either strategy
-- ---------------------------------------------------------------------------

def runs (script : Script) (c : Configuration) (timeout : Option Timeout) (caches : Caches)
    (type : ExecutorType) (calls : List Call) :
    List (Call × Except Error Reply) × Session Recording × World Recording :=
  Action.inTurn Call.perform calls
    (Session.opened script.driver c timeout type { database := {}, caches })

theorem start_mirrors (caches : Caches) (type : ExecutorType) (ht : type ≠ .batch) :
    Strategy.Mirrors Tells
      (.ofType type, ({ database := {}, caches } : World Recording).toChannel)
      { database := {} } := by
  have htells : Tells { database := {}, statements := fun _ => none } {} :=
    ⟨rfl, rfl, fun _ => rfl, nofun⟩
  cases type with
  | simple => exact ⟨ht, _, ⟨htells, rfl⟩, nofun⟩
  | reuse => exact ⟨ht, _, ⟨htells, rfl⟩, nofun⟩
  | batch => exact absurd rfl ht

theorem told_eq {s t : Strategy × Channel Recording} (h : Strategy.Alike Tells Tells s t) :
    t.2.database.told = s.2.database.told := by
  obtain ⟨x, ⟨-, S, hs, -⟩, -, T, ht, -⟩ := h
  exact ht.desk.told.symm.trans hs.desk.told

/-- A session that keeps its statements open ends every call as a session does that prepares them
anew, and both leave the shared caches alike. What the drivers have recorded is the same but for
what they prepared and closed: the same updates and queries with the same values, and as many
commits and rollbacks, wherever the drivers or the key generators fail. -/
theorem reusing_ends_as_preparing (script : Script) (c : Configuration)
    (timeout : Option Timeout) (caches : Caches) (calls : List Call)
    (hkeys : ∀ id s, c.statement id = .ok s → s.IgnoresHandles) :
    let simple := script.runs c timeout caches .simple calls
    let reuse := script.runs c timeout caches .reuse calls
    reuse.1 = simple.1 ∧ reuse.2.2.database.told = simple.2.2.database.told ∧
      reuse.2.2.caches = simple.2.2.caches := by
  have hk := Strategy.inStep script.executes script.executes
  have hstart : Session.InStep script.driver script.driver (Strategy.Alike Tells Tells) c
      (Session.opened script.driver c timeout .simple { database := {}, caches })
      (Session.opened script.driver c timeout .reuse { database := {}, caches }) :=
    Session.opened_inStep timeout rfl
      ⟨_, start_mirrors caches .simple nofun, start_mirrors caches .reuse nofun⟩
  obtain ⟨hends, hstep⟩ := Action.inTurn_lockstep
    (fun call _ _ h => Call.perform_agree hk hkeys call h) calls hstart
  exact ⟨hends, told_eq hstep.executors.workers.strategies, hstep.executors.caches⟩

end Script

namespace Notes

def unreliable : Script where
  results := [("select n from note", .ofValues ["n"] [[.int 1], [.int 2]])]
  failUpdate := some 2
  failQuery := some 1

/-- One text is executed again after it was executed, and again after it failed. -/
def attempts : List Call :=
  [.update "write" (.ofInt 1), .update "write" (.ofInt 2), .update "write" (.ofInt 3),
    .update "write" (.ofInt 4), .selectList "read" .null .unbounded,
    .selectList "read" .null .unbounded, .commit false, .update "wipe" .null, .rollback false,
    .close, .update "write" (.ofInt 5)]

end Notes

namespace Script

open Notes in
theorem notes_end_alike :
    let simple := unreliable.runs configuration none caches .simple attempts
    let reuse := unreliable.runs configuration none caches .reuse attempts
    reuse.1 = simple.1 ∧ reuse.2.2.database.told = simple.2.2.database.told ∧
      simple.2.2.database.updates.length = 4 ∧ simple.2.2.database.queries.length = 1 ∧
      simple.2.2.database.prepared.length = 7 ∧ reuse.2.2.database.prepared.length = 5 := by
  have h := reusing_ends_as_preparing unreliable configuration none caches attempts (by
    intro name s hs generate hg n h h' argument
    rcases statement_cases hs with rfl | rfl | rfl <;> cases hg
    rfl)
  exact ⟨h.1, h.2.1, by decide +kernel, by decide +kernel, by decide +kernel, by decide +kernel⟩

end Script

end MappedSql
