import MappedSql.Proofs.ClosedExecutors

/-!
# Closed sessions

Once a session is closed, its calls do nothing at the database, and they find and keep nothing.
Only its overlays still note that caches are to be cleared, for statements that flush them. An
update makes the session dirty again, so the next close gives that up. Rows that are handed out
do not, and then the next close clears those caches for everybody.
-/

namespace MappedSql

variable {σ α : Type}

-- ---------------------------------------------------------------------------
-- Overlays under their ids
-- ---------------------------------------------------------------------------

namespace Executor

def Named (e : Executor σ) : Prop :=
  e.Targets fun _ => True

def StaysNamed (y y' : Executor σ × World σ) : Prop :=
  y.1.Named → y'.1.Named

instance : IsPreorder (Executor σ × World σ) StaysNamed where
  refl _ := id
  trans _ _ _ h h' := h' ∘ h

theorem onWorker_named (a : Work σ α) : (onWorker a).Respects StaysNamed :=
  fun _ => id

theorem changeOverlays_named {f : Overlays CacheKey ResultSet → Overlays CacheKey ResultSet}
    (hf : ∀ os, os.Targets (fun _ => True) → (f os).Targets fun _ => True) :
    (changeOverlays f : Execute σ Unit).Respects StaysNamed := by
  rintro ⟨e, w⟩ ht os hos
  obtain ⟨os₀, hos₀, rfl⟩ := Option.map_eq_some_iff.mp hos
  exact hf os₀ (ht os₀ hos₀)

theorem retract_named : (retract : Execute σ Unit).Respects StaysNamed :=
  changeOverlays_named fun _ => Overlays.targets_rollback

theorem publish_named : (publish : Execute σ Unit).Respects StaysNamed := by
  rintro ⟨e, w⟩ ht os hos
  rw [outcome_publish] at hos
  unfold published at hos
  cases ho : e.overlays with
  | none =>
    simp only [ho] at hos
    cases hos
  | some os₀ =>
    simp only [ho] at hos
    cases hos
    exact Overlays.targets_rollback (ht os₀ ho)

theorem flushCacheFor_named (s : Statement) :
    (flushCacheFor s : Execute σ Unit).Respects StaysNamed := by
  unfold flushCacheFor
  cases s.cache with
  | none => exact .pure ()
  | some r =>
    cases s.flushesCache with
    | false => exact .pure ()
    | true =>
      refine changeOverlays_named fun os ht => ?_
      have hgoes : Overlays.Goes (fun _ => True) (fun _ => True) os (os.clear r) :=
        Overlays.goes_clear (fun _ => True) trivial
      exact hgoes.targets ht

theorem lookup_named (r : CacheRef) (key : CacheKey) :
    (lookup r key : Execute σ (Option ResultSet)).Respects StaysNamed := by
  rintro ⟨e, w⟩ ht os hos
  cases ho : e.overlays with
  | none =>
    unfold lookup at hos
    simp [Action.outcome_modifyGet, ho] at hos
  | some os₀ =>
    rw [outcome_lookup ho] at hos
    cases hos
    have hgoes : Overlays.Goes (fun _ => True) (fun _ => True) os₀ (os₀.get w.caches r key).2.1 :=
      Overlays.goes_get (fun _ => True) trivial w.caches key
    exact hgoes.targets (ht os₀ ho)

theorem queryBound_named (s : Statement) (bounds : RowBounds) (key : CacheKey)
    (bound : BoundStatement) :
    (queryBound s bounds key bound : Execute σ ResultSet).Respects StaysNamed := by
  have hworker : (onWorker (Worker.queryBound s bounds key bound) : Execute σ _).Respects
    StaysNamed := onWorker_named _
  refine .bind (.bind .get fun _ => .pure _) fun cache => ?_
  cases cache with
  | none => exact hworker
  | some r =>
    refine .bind (flushCacheFor_named s) fun _ => ?_
    split
    · refine .bind (.ofExcept _) fun _ => .bind (lookup_named r key) fun found => ?_
      cases found with
      | some hit => exact .pure hit
      | none =>
        refine .bind hworker fun rows => .bind (changeOverlays_named fun os ht => ?_) fun _ =>
          .pure rows
        have hgoes : Overlays.Goes (fun _ => True) (fun _ => True) os (os.put r key rows) :=
          Overlays.goes_put trivial trivial
        exact hgoes.targets ht
    · exact hworker

theorem query_named (s : Statement) (argument : Argument) (bounds : RowBounds) :
    (query s argument bounds : Execute σ ResultSet).Respects StaysNamed :=
  .bind (.ofExcept _) fun bound => .bind (onWorker_named _) fun key =>
    queryBound_named s bounds key bound

theorem rollback_named (required : Bool) :
    (rollback required : Execute σ Unit).Respects StaysNamed := by
  refine .bind (onWorker_named _).attempt fun outcome => ?_
  cases required with
  | true => exact .bind retract_named fun _ => .ofExcept outcome
  | false => exact .ofExcept outcome

theorem close_named (force : Bool) : (close force : Execute σ Unit).Respects StaysNamed := by
  cases force with
  | true => exact .bind retract_named fun _ => onWorker_named _
  | false => exact .bind publish_named fun _ => onWorker_named _

end Executor

namespace Session

def StaysNamed (z z' : Session σ × World σ) : Prop :=
  Executor.StaysNamed (unit z) (unit z')

instance : IsPreorder (Session σ × World σ) StaysNamed where
  refl z := refl_of Executor.StaysNamed (unit z)
  trans _ _ _ h h' := trans_of Executor.StaysNamed h h'

theorem onExecutor_named {a : Execute σ α} (h : a.Respects Executor.StaysNamed) :
    (onExecutor a).Respects StaysNamed :=
  h.within fun _ _ => id

theorem statement_named (id : String) :
    (statement id : SessionCall σ Statement).Respects StaysNamed :=
  .bind .get fun _ => .ofExcept _

theorem setDirty_named (isDirty : Bool) :
    (setDirty isDirty : SessionCall σ Unit).Respects StaysNamed :=
  fun _ => id

theorem isRequired_named (force : Bool) :
    (isRequired force : SessionCall σ Bool).Respects StaysNamed :=
  .bind .get fun _ => .pure _

theorem selectList_named (id : String) (argument : Argument) (bounds : RowBounds) :
    (selectList id argument bounds : SessionCall σ ResultSet).Respects StaysNamed :=
  .bind (statement_named id) fun s => onExecutor_named (Executor.query_named s argument bounds)

theorem close_named : (close : SessionCall σ Unit).Respects StaysNamed :=
  .bind (isRequired_named false) fun required =>
    .bind (onExecutor_named (Executor.close_named required)) fun _ => setDirty_named false

end Session

namespace Call

open Session

theorem perform_named (c : Call) : (c.perform : SessionCall σ Reply).Respects StaysNamed := by
  cases c with
  | selectList id argument bounds =>
    exact .bind (selectList_named id argument bounds) fun _ => .pure _
  | selectOne id argument =>
    refine .bind (.bind (selectList_named id argument .unbounded) fun rows => ?_) fun _ => .pure _
    split
    · exact .pure _
    · exact .pure _
    · exact .throw _
  | handOut id argument bounds enough =>
    refine .bind (.bind (statement_named id) fun s => onExecutor_named ?_) fun _ => .pure _
    exact .bind (Executor.flushCacheFor_named s) fun _ => Executor.onWorker_named _
  | update id argument =>
    refine .bind (.bind (statement_named id) fun s => .bind (setDirty_named true) fun _ =>
      onExecutor_named ?_) fun _ => .pure _
    exact .bind (Executor.flushCacheFor_named s) fun _ => Executor.onWorker_named _
  | flush => exact .bind (onExecutor_named (Executor.onWorker_named _)) fun _ => .pure _
  | commit force =>
    refine .bind (.bind (isRequired_named force) fun required =>
      .bind (onExecutor_named ?_) fun _ => setDirty_named false) fun _ => .pure _
    exact .bind (Executor.onWorker_named _) fun _ => Executor.publish_named
  | rollback force =>
    exact .bind (.bind (isRequired_named force) fun required =>
      .bind (onExecutor_named (Executor.rollback_named required)) fun _ => setDirty_named false)
      fun _ => .pure _
  | clearCache => exact .bind (onExecutor_named (Executor.onWorker_named _)) fun _ => .pure _
  | close => exact .bind close_named fun _ => .pure _
  | drop =>
    refine .bind (.bind .get fun z => ?_) fun _ => .pure _
    cases z.1.isClosed with
    | true => exact .pure ()
    | false => exact close_named

end Call

-- ---------------------------------------------------------------------------
-- Calls of closed sessions
-- ---------------------------------------------------------------------------

namespace Session

def after (y : Executor σ × World σ) (isDirty : Bool) : Session σ × World σ :=
  ({ executor := y.1, isDirty }, y.2)

variable {z : Session σ × World σ}

theorem onExecutor_outcome {a : Execute σ α} {r : Except Error α} {y : Executor σ × World σ}
    {Q : α → Session σ × World σ → Prop} {E : Error → Session σ × World σ → Prop}
    (h : a.outcome (unit z) = (r, y)) (hQ : ∀ value, r = .ok value → Q value (after y z.1.isDirty))
    (hE : ∀ e, r = .error e → E e (after y z.1.isDirty)) : Triple (onExecutor a) z Q E := by
  refine onExecutor_ok (P := fun value y' => r = .ok value ∧ y' = y)
    (F := fun e y' => r = .error e ∧ y' = y) ?_ ?_ ?_
  · unfold Triple
    rw [h]
    cases r with
    | ok value => exact ⟨rfl, rfl⟩
    | error e => exact ⟨rfl, rfl⟩
  · rintro value _ ⟨hr, rfl⟩
    exact hQ value hr
  · rintro e _ ⟨hr, rfl⟩
    exact hE e hr

end Session

namespace Call

open Session

def leave (c : Call) (z : Session σ × World σ) : Session σ × World σ :=
  (c.perform.outcome z).2

/-- What a call leaves of a closed session. Only a close that finds it not dirty gets to the
caches. -/
inductive Leaves (z : Session σ × World σ) : Call → Session σ × World σ → Prop
  | nothing (c : Call) : Leaves z c z
  | updates {id : String} {s : Statement} (argument : Argument)
    (hs : z.1.configuration.statement id = .ok s) :
    Leaves z (.update id argument) (after (Executor.overlaid (Executor.flushedFor s) (unit z)) true)
  | handsOut {id : String} {s : Statement} (argument : Argument) (bounds : RowBounds)
    (enough : Nat → Row → Bool) (hs : z.1.configuration.statement id = .ok s) :
    Leaves z (.handOut id argument bounds enough)
      (after (Executor.overlaid (Executor.flushedFor s) (unit z)) z.1.isDirty)
  | givesUp (c : Call) : Leaves z c (after (Executor.overlaid (·.rollback) (unit z)) false)
  | publishes (hd : z.1.isDirty = false) :
    Leaves z .close (after (Executor.published (unit z)) false)

theorem leave_closed {z : Session σ × World σ} (hc : z.1.isClosed = true) (c : Call) :
    Leaves z c (c.leave z) := by
  have hy : (unit z).1.isClosed = true := hc
  have hlist (id : String) (argument : Argument) (bounds : RowBounds) :
      Triple (Session.selectList id argument bounds) z (fun _ _ => False) fun _ z' => z' = z := by
    refine bind_statement (fun s _ => ?_) fun _ _ => rfl
    refine onExecutor_outcome (Executor.outcome_query hy s argument bounds) ?_ fun _ _ => rfl
    intro rows hr
    obtain ⟨bound, -, herror⟩ := bind_ok.mp hr
    cases herror
  have hclose : Triple Session.close z (fun _ => Leaves z .close) fun _ => Leaves z .close := by
    refine bind_isRequired ?_
    cases hd : z.1.isDirty with
    | true =>
      refine .bind (onExecutor_outcome (Executor.outcome_close hy true)
        (Q := fun _ z' => z' = after (Executor.overlaid (·.rollback) (unit z)) z.1.isDirty)
        (fun _ _ => rfl) nofun) ?_
      rintro _ _ rfl
      exact .modify (.givesUp .close)
    | false =>
      refine .bind (onExecutor_outcome (Executor.outcome_close hy false)
        (Q := fun _ z' => z' = after (Executor.published (unit z)) z.1.isDirty)
        (fun _ _ => rfl) nofun) ?_
      rintro _ _ rfl
      exact .modify (.publishes hd)
  refine Triple.state ?_
  cases c with
  | selectList id argument bounds =>
    exact .bind ((hlist id argument bounds).mono (fun _ _ h => h) fun _ _ h => h ▸ .nothing _)
      fun _ _ => False.elim
  | selectOne id argument =>
    refine .bind (.bind ((hlist id argument .unbounded).mono (fun _ _ h => h) ?_)
      fun _ _ => False.elim) fun _ _ => False.elim
    rintro _ _ rfl
    exact .nothing _
  | handOut id argument bounds enough =>
    refine .bind (bind_statement (Q := fun _ _ => False) (fun s hs => ?_) fun _ _ => .nothing _)
      fun _ _ => False.elim
    exact onExecutor_outcome (Executor.outcome_handOut hy s argument bounds enough) nofun
      fun _ _ => .handsOut argument bounds enough hs
  | update id argument =>
    refine .bind (bind_statement (Q := fun _ _ => False) (fun s hs => .bind_modify ?_)
      fun _ _ => .nothing _) fun _ _ => False.elim
    exact onExecutor_outcome (z := ({ z.1 with isDirty := true }, z.2))
      (Executor.outcome_update hy s argument) nofun fun _ _ => .updates argument hs
  | flush =>
    exact .bind (onExecutor_outcome (Q := fun _ _ => False) (Executor.outcome_flush hy) nofun
      fun _ _ => .nothing _) fun _ _ => False.elim
  | commit force =>
    refine .bind (bind_isRequired (Q := fun _ _ => False) (.bind (P := fun _ _ => False) ?_
      fun _ _ => False.elim)) fun _ _ => False.elim
    exact onExecutor_outcome (Executor.outcome_commit hy _) nofun fun _ _ => .nothing _
  | rollback force =>
    refine Triple.returning (P := Leaves z (.rollback force)) (bind_isRequired ?_) (fun _ h => h) _
    refine .bind (onExecutor_outcome (Executor.outcome_rollback hy _)
      (Q := fun _ z' => z' = after (if force || z.1.isDirty then
        Executor.overlaid (·.rollback) (unit z) else unit z) z.1.isDirty) (fun _ _ => rfl) nofun) ?_
    rintro _ _ rfl
    refine .modify ?_
    cases hr : force || z.1.isDirty with
    | true => exact .givesUp _
    | false =>
      obtain ⟨-, hd⟩ := Bool.or_eq_false_iff.mp hr
      have hsame : after (unit z) false = z := by rw [← hd]; rfl
      exact hsame.symm ▸ .nothing _
  | clearCache =>
    refine Triple.returning (P := Leaves z .clearCache) ?_ (fun _ h => h) _
    exact onExecutor_outcome (Executor.outcome_clearLocalCache hy) (fun _ _ => .nothing _)
      fun _ _ => .nothing _
  | close => exact hclose.returning (fun _ h => h) _
  | drop =>
    refine Triple.returning (P := Leaves z .drop) (.bind_get ?_) (fun _ h => h) _
    rw [hc]
    exact .pure (.nothing _)

def HandsOutFlushing (c : Configuration) (id : String) : Call → Prop
  | .handOut name _ _ _ => ∃ s, c.statement name = .ok s ∧ s.flushesCache = true ∧
      ∃ r, s.cache = some r ∧ r.id = id
  | _ => False

def Flushed (c : Configuration) (steps : List (World σ × Call)) (id : String) : Prop :=
  ∃ step ∈ steps, step.2.HandsOutFlushing c id

end Call

-- ---------------------------------------------------------------------------
-- Spent sessions
-- ---------------------------------------------------------------------------

namespace Executor

theorem flushedFor_hollow {os : Overlays CacheKey ResultSet} (h : os.Hollow) (s : Statement) :
    (flushedFor s os).Hollow := by
  unfold flushedFor
  split
  · split
    · exact h.clear _
    · exact h
  · exact h

theorem mem_stale_flushedFor {s : Statement} {os : Overlays CacheKey ResultSet} {q : CacheRef}
    (ht : os.Targets fun _ => True) (h : q ∈ (flushedFor s os).stale) :
    q ∈ os.stale ∨ s.flushesCache = true ∧ ∃ r, s.cache = some r ∧ q.id = r.id := by
  unfold flushedFor at h
  cases hs : s.cache with
  | none =>
    rw [hs] at h
    exact .inl h
  | some r =>
    rw [hs] at h
    dsimp only at h
    split at h
    · rename_i hf
      refine (Overlays.mem_stale_clear h).imp_right fun hq => ⟨hf, r, rfl, ?_⟩
      rw [hq]
      exact (Overlays.targets_overlay ht trivial).1
    · exact .inl h

end Executor

namespace Session

/-- A closed session. Its overlays hold nothing, and unless it is dirty, they clear only caches
with some ids. -/
structure Spent (c : Configuration) (I : String → Prop) (s : Session σ) : Prop where
  configuration : s.configuration = c
  isClosed : s.isClosed = true
  named : s.executor.Named
  hollow : ∀ os, s.executor.overlays = some os → os.Hollow
  stale : s.isDirty = false → ∀ os, s.executor.overlays = some os → ∀ r ∈ os.stale, I r.id

variable {c : Configuration} {I : String → Prop} {z z' : Session σ × World σ} {call : Call}

theorem configuration_leave (call : Call) (z : Session σ × World σ) :
    (call.leave z).1.configuration = z.1.configuration :=
  (Call.perform_moves (Strategy.keeps_anything _) rfl call).state.configuration

theorem work_leave (hc : z.1.isClosed = true) (call : Call) : work (call.leave z) = work z :=
  (Call.perform_moves (Strategy.keeps_anything _) rfl call).state.closed hc

theorem Spent.leave (h : z.1.Spent c I) (hI : ∀ id, call.HandsOutFlushing c id → I id) :
    (call.leave z).1.Spent c I := by
  have hconfiguration := (configuration_leave call z).trans h.configuration
  have hclosed : (call.leave z).1.isClosed = true :=
    (congrArg (·.1.isClosed) (work_leave h.isClosed call)).trans h.isClosed
  have hnamed : (call.leave z).1.executor.Named := Call.perform_named call z h.named
  have hl := Call.leave_closed h.isClosed call
  refine ⟨hconfiguration, hclosed, hnamed, ?_, ?_⟩
  · intro os hos
    generalize call.leave z = z' at hl hos
    cases hl with
    | nothing => exact h.hollow os hos
    | updates argument hs =>
      obtain ⟨os₀, hos₀, rfl⟩ := Option.map_eq_some_iff.mp hos
      exact Executor.flushedFor_hollow (h.hollow os₀ hos₀) _
    | handsOut argument bounds enough hs =>
      obtain ⟨os₀, hos₀, rfl⟩ := Option.map_eq_some_iff.mp hos
      exact Executor.flushedFor_hollow (h.hollow os₀ hos₀) _
    | givesUp => exact (Executor.blank_retracted os hos).1
    | publishes => exact (Executor.blank_published os hos).1
  · intro hd os hos r hr
    generalize call.leave z = z' at hl hos hd
    cases hl with
    | nothing => exact h.stale hd os hos r hr
    | updates argument hs => cases hd
    | @handsOut id s argument bounds enough hs =>
      obtain ⟨os₀, hos₀, rfl⟩ := Option.map_eq_some_iff.mp hos
      rw [h.configuration] at hs
      rcases Executor.mem_stale_flushedFor (h.named os₀ hos₀) hr with hr | ⟨hf, q, hq, hid⟩
      · exact h.stale hd os₀ hos₀ r hr
      · exact hI r.id ⟨s, hs, hf, q, hq, hid.symm⟩
    | givesUp =>
      rw [(Executor.blank_retracted os hos).2] at hr
      cases hr
    | publishes =>
      rw [(Executor.blank_published os hos).2] at hr
      cases hr

/-- What a spent session does to the caches: it clears those that it has noted, when it is closed
once more and is not dirty. -/
theorem Spent.caches (h : z.1.Spent c I) (call : Call) :
    ∃ stale : List CacheRef, (call.leave z).2.caches = stale.foldl CachePool.clear z.2.caches ∧
      (stale ≠ [] → call = .close ∧ z.1.isDirty = false) ∧ ∀ r ∈ stale, I r.id := by
  have hl := Call.leave_closed h.isClosed call
  generalize call.leave z = z' at hl
  cases hl with
  | publishes hd =>
    cases ho : z.1.executor.overlays with
    | none =>
      have hcaches : (after (Executor.published (unit z)) false).2.caches = z.2.caches := by
        simp [after, Executor.published, unit, ho]
      exact ⟨[], hcaches, fun hne => absurd rfl hne, nofun⟩
    | some os =>
      have hcaches : (after (Executor.published (unit z)) false).2.caches =
          (os.commit z.2.caches).2 := by
        simp [after, Executor.published, unit, ho]
      exact ⟨os.stale, hcaches.trans ((h.hollow os ho).commit _), fun _ => ⟨rfl, hd⟩,
        h.stale hd os ho⟩
  | nothing | updates argument hs | handsOut argument bounds enough hs | givesUp =>
    exact ⟨[], rfl, fun hne => absurd rfl hne, nofun⟩

theorem start_named (c : Configuration) (t : Transaction σ) (type : ExecutorType) :
    (Executor.start c t type).Named := by
  intro os hos
  rw [Executor.start_overlays] at hos
  split at hos
  · cases hos
    exact nofun
  · cases hos

theorem leave_close_spent (hconfiguration : z.1.configuration = c) (hnamed : z.1.executor.Named) :
    (Call.leave .close z).1.Spent c I := by
  have hclose : Triple Session.close z (fun _ z' => z'.1.isClosed = true ∧ z'.1.executor.Blank)
      fun _ z' => z'.1.isClosed = true ∧ z'.1.executor.Blank := by
    refine bind_isRequired ?_
    exact .bind (onExecutor_ok (Executor.close_closes _ (E := fun _ _ => False)) (fun _ _ h => h)
      fun _ _ => False.elim) fun _ _ h => .modify h
  obtain ⟨hclosed, hblank⟩ : (Call.leave .close z).1.isClosed = true ∧
      (Call.leave .close z).1.executor.Blank := (hclose.returning (fun _ h => h) _).state
  refine ⟨(configuration_leave .close z).trans hconfiguration, hclosed,
    Call.perform_named .close z hnamed, fun os hos => (hblank os hos).1, fun _ os hos r hr => ?_⟩
  rw [(hblank os hos).2] at hr
  cases hr

/-- Once a session was closed, nothing it does reaches the database, and it does nothing to a
shared cache but clear it, when it is closed again and is not dirty. It clears only caches of
statements that flush them and whose rows it was asked to hand out since. -/
theorem closed_sessions_only_clear_caches (c : Configuration) (t : Transaction σ)
    (type : ExecutorType) (before later : List (World σ × Call)) (w₀ w : World σ) (call : Call) :
    let s := amid Call.leave (start c t type) (before ++ (w₀, .close) :: later)
    let w' := (call.leave (s, w)).2
    s.isClosed = true ∧ w'.toChannel = w.toChannel ∧
      ∃ stale : List CacheRef, w'.caches = stale.foldl CachePool.clear w.caches ∧
        (stale ≠ [] → call = .close ∧ s.isDirty = false) ∧
        ∀ r ∈ stale, Call.Flushed c later r.id := by
  intro s w'
  have hopen : (amid Call.leave (start c t type) before).configuration = c ∧
      (amid Call.leave (start c t type) before).executor.Named := by
    refine amid_induction (P := fun s : Session σ => s.configuration = c ∧ s.executor.Named)
      ⟨congrArg Worker.configuration (Executor.start_worker c t type), start_named c t type⟩ ?_
    rintro w call - s ⟨hs, hn⟩
    exact ⟨(configuration_leave call (s, w)).trans hs, Call.perform_named call (s, w) hn⟩
  have hspent : s.Spent c (Call.Flushed c later) := by
    have hrun : s = amid Call.leave (Call.leave .close
        (amid Call.leave (start c t type) before, w₀)).1 later := amid_append ..
    rw [hrun]
    refine amid_induction (P := Spent c (Call.Flushed c later))
      (leave_close_spent hopen.1 hopen.2) ?_
    intro w call hm s hs
    exact Spent.leave (z := (s, w)) hs fun id hid => ⟨(w, call), hm, hid⟩
  have hwork := work_leave (z := (s, w)) hspent.isClosed call
  exact ⟨hspent.isClosed, congrArg Prod.snd hwork, Spent.caches (z := (s, w)) hspent call⟩

end Session

-- ---------------------------------------------------------------------------
-- Notes
-- ---------------------------------------------------------------------------

namespace Notes

def readAnew : Statement :=
  { read with id := "readAnew", flushesCache := true }

def renewing : Configuration :=
  { configuration with statements := configuration.statements ++ [("readAnew", readAnew)] }

end Notes

namespace Session

theorem closed_notes_clear_cache :
    let sizes (z : Session Recording × World Recording) := z.2.caches.caches.map Cache.size
    let z := opened ({} : Script).driver Notes.renewing none .simple
      { database := {}, caches := Notes.caches }
    let z := (Action.inTurn Call.perform
      [.selectList "read" .null .unbounded, .commit false, .close] z).2
    let z' := (Action.inTurn Call.perform
      [.handOut "readAnew" .null .unbounded fun _ _ => false, .close] z).2
    z.1.isClosed = true ∧ sizes z = [1] ∧ sizes z' = [0] := by
  decide +kernel

end Session

end MappedSql
