import MappedSql.Proofs.DeskBatches

/-!
# Strategies on a desk

What a strategy makes of a driver with a desk. Whichever it is, the database that it shows, with
the updates that wait counted as executed, is changed by each operation as if the operation had
been done at once. A query finds nothing that waits.
-/

namespace MappedSql

variable {σ δ α : Type} {d : Driver σ} {m : Engine δ} {Rep : Desk δ → σ → Prop} {x : δ}
  {G : String → KeyGenerator → Prop} {e : Execution} {type : ExecutorType}

theorem BatchQueue.flush_updates {queue : BatchQueue} {c : Channel σ} {items : List Item}
    {fails : Prop} (hm : m.Folds) (hd : d.Hosts Rep) (hc : d.Collects m Rep fails)
    (hx : Holds Rep G x items (queue, c)) :
    Triple (flush d) (queue, c)
      (fun _ s' => s'.1 = [] ∧ s'.2.Shows Rep (m.updateAll x items))
      (fun _ s' => fails ∨ Channel.Lost G s'.2) := by
  obtain ⟨D, -, -, hw⟩ := id hx
  refine (flush_executes hd hc hx).mono ?_ fun _ _ hf => hf.2
  rintro _ s' ⟨hq, -, hx'⟩
  rw [hm.execute_collected hw.groups, List.flatten_splitBy] at hx'
  exact ⟨hq, hx'⟩

namespace Strategy

/-- The database that a strategy of a type works on, once the updates that wait in its queue
are executed. -/
inductive Shows (m : Engine δ) (Rep : Desk δ → σ → Prop) (G : String → KeyGenerator → Prop)
    (x : δ) : ExecutorType → Strategy × Channel σ → Prop
  | simple {c : Channel σ} (h : c.Shows Rep x) : Shows m Rep G x .simple (.simple, c)
  | reuse {pool : StatementPool} {c : Channel σ} (h : StatementPool.Shows Rep x (pool, c)) :
    Shows m Rep G x .reuse (.reuse pool, c)
  | batch {queue : BatchQueue} {c : Channel σ} {y : δ} {items : List Item}
    (h : BatchQueue.Holds Rep G y items (queue, c)) (hx : m.updateAll y items = x) :
    Shows m Rep G x .batch (.batch queue, c)

variable {s : Strategy × Channel σ}

theorem Shows.of_shows {c : Channel σ} (h : c.Shows Rep x) :
    Shows m Rep G x .batch (.batch [], c) := by
  obtain ⟨D, hr, hx⟩ := h
  exact .batch ⟨D, hr, hx, .nil⟩ rfl

theorem Shows.start {c : Channel σ} (h : c.Shows Rep x) :
    Shows m Rep G x type (.ofType type, c) := by
  obtain ⟨D, hr, hx⟩ := h
  cases type with
  | simple => exact .simple ⟨D, hr, hx⟩
  | reuse => exact .reuse ⟨D, hr, hx, nofun⟩
  | batch => exact .of_shows ⟨D, hr, hx⟩

theorem Shows.database (h : Shows m Rep G x type s) (hq : s.1.queue = []) :
    s.2.Shows Rep x := by
  cases h with
  | simple h => exact h
  | reuse h =>
    obtain ⟨D, hr, hx, -⟩ := h
    exact ⟨D, hr, hx⟩
  | batch h hx =>
    obtain ⟨D, hr, hD, hw⟩ := h
    obtain rfl : _ = [] := hq
    rw [hw.items_eq_nil] at hx
    exact ⟨D, hr, hD.trans hx⟩

theorem Shows.simple_queue (h : Shows m Rep G x .simple s) : s.1.queue = [] := by
  cases h
  rfl

theorem update_shows (hd : d.Serves m Rep type) (he : e.Generates G)
    (hx : Shows m Rep G x type s) :
    Triple (update e d) s
      (fun _ s' => ∃ values, e.bound.values e.handlers = .ok values ∧
        Shows m Rep G (m.update x e.bound.sql values) type s')
      (fun cause s' => e.bound.values e.handlers = .error cause ∧ Shows m Rep G x type s' ∨
        Channel.Lost G s'.2) := by
  cases hx with
  | simple h =>
    refine dispatch_simple ((Execution.updateOnce_shows hd.toHosts (hd.updates nofun) he h).mono
      ?_ ?_)
    · rintro _ c ⟨values, hv, hx⟩
      exact ⟨values, hv, .simple hx⟩
    · exact fun _ _ h => h.imp_left fun ⟨hv, hx⟩ => ⟨hv, .simple hx⟩
  | reuse h =>
    refine dispatch_reuse ((StatementPool.update_shows hd.toHosts (hd.updates nofun) he h).mono
      ?_ ?_)
    · rintro _ c ⟨values, hv, hx⟩
      exact ⟨values, hv, .reuse hx⟩
    · exact fun _ _ h => h.imp_left fun ⟨hv, hx⟩ => ⟨hv, .reuse hx⟩
  | @batch queue c y items h hx =>
    refine dispatch_batch ((BatchQueue.update_holds hd.toHosts (hd.collects rfl) he h).mono ?_ ?_)
    · rintro _ s' ⟨-, values, hv, h'⟩
      refine ⟨values, hv, .batch h' ?_⟩
      rw [Engine.updateAll_append, hx]
      rfl
    · rintro cause s' ⟨-, h', hv⟩
      exact .inl ⟨hv.resolve_right id, .batch h' hx⟩

theorem flush_shows (hm : m.Folds) (hd : d.Serves m Rep type) (hx : Shows m Rep G x type s) :
    Triple (flush d) s (fun _ s' => Shows m Rep G x type s' ∧ s'.1.queue = [])
      (fun _ s' => Channel.Lost G s'.2) := by
  cases hx with
  | simple h => exact dispatch_simple (.pure ⟨.simple h, rfl⟩)
  | reuse h =>
    refine dispatch_reuse (.bind (StatementPool.flush_shows hd.toHosts h) fun _ s' h' => .pure ?_)
    obtain ⟨hp, D, hr, hx⟩ := h'
    exact ⟨.reuse ⟨D, hr, hx, by rw [hp]; exact nofun⟩, rfl⟩
  | batch h hx =>
    refine dispatch_batch ((BatchQueue.flush_updates hm hd.toHosts (hd.collects rfl) h).mono ?_
      fun _ _ hf => hf.resolve_left id)
    rintro _ ⟨_, c'⟩ ⟨rfl, hx'⟩
    exact ⟨.of_shows (hx ▸ hx'), rfl⟩

theorem query_shows (hm : m.Folds) (hd : d.Serves m Rep type) (hx : Shows m Rep G x type s) :
    Triple (query e d) s
      (fun rows s' => ∃ values, e.bound.values e.handlers = .ok values ∧
        rows = m.answer x e.bound.sql values ∧
        Shows m Rep G (m.asked x e.bound.sql values) type s' ∧ s'.1.queue = [])
      (fun cause s' => e.bound.values e.handlers = .error cause ∧ Shows m Rep G x type s' ∧
        s'.1.queue = [] ∨ Channel.Lost G s'.2) := by
  cases hx with
  | simple h =>
    refine dispatch_simple ((Execution.queryOnce_shows hd.toHosts hd.toAnswers h).mono ?_ ?_)
    · rintro rows c ⟨values, hv, hrows, hx⟩
      exact ⟨values, hv, hrows, .simple hx, rfl⟩
    · exact fun _ _ ⟨hv, hx⟩ => .inl ⟨hv, .simple hx, rfl⟩
  | reuse h =>
    refine dispatch_reuse ((StatementPool.query_shows hd.toHosts hd.toAnswers h).mono ?_ ?_)
    · rintro rows c ⟨values, hv, hrows, hx⟩
      exact ⟨values, hv, hrows, .reuse hx, rfl⟩
    · exact fun _ _ ⟨hv, hx⟩ => .inl ⟨hv, .reuse hx, rfl⟩
  | batch h hx =>
    -- The flush before a query brings the database to where the updates that waited are counted.
    refine dispatch_batch (.bind ((BatchQueue.flush_updates hm hd.toHosts (hd.collects rfl) h).mono
      (fun _ _ h => h) fun _ _ hf => .inr (hf.resolve_left id)) ?_)
    rintro _ ⟨_, c'⟩ ⟨rfl, hx'⟩
    refine .onSecond ((Execution.queryOnce_shows hd.toHosts hd.toAnswers (hx ▸ hx')).mono ?_ ?_)
    · rintro rows c'' ⟨values, hv, hrows, hx⟩
      exact ⟨values, hv, hrows, .of_shows hx, rfl⟩
    · exact fun _ _ ⟨hv, hx⟩ => .inl ⟨hv, .of_shows hx, rfl⟩

theorem discard_shows (hd : d.Serves m Rep type) (hx : Shows m Rep G x type s)
    {E : Error → Strategy × Channel σ → Prop} :
    Triple (discard d) s
      (fun _ s' => ∃ y items, m.updateAll y items = x ∧ (s.1.queue = [] → items = []) ∧
        Shows m Rep G y type s' ∧ s'.1.queue = []) E := by
  cases hx with
  | simple h => exact dispatch_simple (.pure ⟨x, [], rfl, fun _ => rfl, .simple h, rfl⟩)
  | reuse h =>
    refine dispatch_reuse ((StatementPool.flush_shows hd.toHosts h).mono ?_ fun _ _ => id)
    rintro _ ⟨_, c⟩ ⟨rfl, D, hr, hx⟩
    exact ⟨x, [], rfl, fun _ => rfl, .reuse ⟨D, hr, hx, nofun⟩, rfl⟩
  | @batch queue c y items h hx =>
    obtain ⟨D, -, -, hw⟩ := id h
    refine dispatch_batch ((BatchQueue.discard_shows hd.toHosts h).mono ?_ fun _ _ => id)
    rintro _ ⟨_, c'⟩ ⟨rfl, hx'⟩
    refine ⟨y, items, hx, fun hq => ?_, .of_shows hx', rfl⟩
    obtain rfl : queue = [] := hq
    exact hw.items_eq_nil

section
variable {P : δ → δ} {a : Action σ Unit} {c : Channel σ} {held : Strategy}

theorem database_shows
    (ha : ∀ {D : Desk δ} {s}, Rep D s →
      Triple a s (fun _ s' => Rep (D.withDatabase (P D.database)) s') fun _ _ => False)
    (hx : Shows m Rep G x type (held, c)) (hq : held.queue = []) {E : Error → σ → Prop} :
    Triple a c.database
      (fun _ database => Shows m Rep G (P x) type (held, { c with database })) E := by
  cases hx with
  | simple h =>
    obtain ⟨D, hr, rfl⟩ := h
    exact (ha hr).mono (fun _ _ hr => .simple ⟨_, hr, rfl⟩) fun _ _ => False.elim
  | reuse h =>
    obtain ⟨D, hr, rfl, hc⟩ := h
    exact (ha hr).mono (fun _ _ hr => .reuse ⟨_, hr, rfl, hc⟩) fun _ _ => False.elim
  | batch h hx =>
    obtain ⟨D, hr, hD, hw⟩ := h
    obtain rfl : _ = [] := hq
    rw [hw.items_eq_nil, ← hD] at hx
    refine (ha hr).mono (fun _ _ hr => .of_shows ⟨_, hr, ?_⟩) fun _ _ => False.elim
    rw [← hx]
    rfl

end

end Strategy

end MappedSql
