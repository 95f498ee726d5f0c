import MappedSql.Proofs.WorkersOnDesks

/-!
# Watched drivers

A driver with a note of what its state was before each query that reached it. Where the driver
has a desk, so has the watched one, and what is noted shows the databases that were queried.
-/

namespace MappedSql

variable {σ δ α : Type}

/-- A state, with what it was before each of the queries. -/
structure Watched (σ : Type) where
  state : σ
  seen : List σ := []

namespace Watched

def withState (state : σ) (w : Watched σ) : Watched σ :=
  { w with state }

def look : Action (Watched σ) Unit :=
  modify fun w => { w with seen := w.seen ++ [w.state] }

end Watched

def Action.watched (a : Action σ α) : Action (Watched σ) α :=
  a.within Watched.state Watched.withState

def Driver.watched (d : Driver σ) : Driver (Watched σ) where
  prepare sql timeout := (d.prepare sql timeout).watched
  bind h values := (d.bind h values).watched
  addBatch h := (d.addBatch h).watched
  executeUpdate h := (d.executeUpdate h).watched
  executeBatch h := (d.executeBatch h).watched
  executeQuery h := do
    Watched.look
    (d.executeQuery h).watched
  close h := (d.close h).watched
  commit := d.commit.watched
  rollback := d.rollback.watched

-- ---------------------------------------------------------------------------
-- What is noted stays
-- ---------------------------------------------------------------------------

abbrev Channel.Sees : Channel (Watched σ) → Channel (Watched σ) → Prop :=
  Order.Preimage (fun c => c.database.seen) (· <+: ·)

theorem Driver.keeps_sees (d : Driver σ) : d.watched.Keeps Channel.Sees := by
  have hdrive {β : Type} (a : Action σ β) : (Channel.drive a.watched).Respects Channel.Sees :=
    fun c => List.prefix_refl c.database.seen
  have hquery (h : Handle) : (Channel.drive (d.watched.executeQuery h)).Respects Channel.Sees := by
    refine .of_triple fun c => Channel.drive_ok
      (P := fun _ w => c.database.seen <+: Watched.seen w)
      (F := fun _ w => c.database.seen <+: Watched.seen w) ?_
    refine .bind (P := fun _ w => c.database.seen <+: w.seen)
      (.modify (List.prefix_append ..)) fun _ w hw => ?_
    have hsame := Action.Respects.triple (a := (d.executeQuery h).watched)
      (R := fun w w' => w'.seen = w.seen) (fun _ => rfl) w
    exact hsame.mono (fun _ _ he => he ▸ hw) fun _ _ he => he ▸ hw
  exact ⟨⟨fun _ _ => hdrive _, fun _ => hdrive _, fun _ => hdrive _, fun _ => hdrive _, hquery,
    fun _ c => List.prefix_refl c.database.seen⟩, fun _ _ => hdrive _, fun _ => hdrive _,
    hdrive _, hdrive _⟩

-- ---------------------------------------------------------------------------
-- Desks of watched drivers
-- ---------------------------------------------------------------------------

structure Seen (δ : Type) where
  current : δ
  seen : List δ := []

namespace Engine

def watched (m : Engine δ) : Engine (Seen δ) where
  update x sql values := { x with current := m.update x.current sql values }
  batch x sql batch := { x with current := m.batch x.current sql batch }
  answer x sql values := m.answer x.current sql values
  asked x sql values :=
    { current := m.asked x.current sql values, seen := x.seen ++ [x.current] }
  commit x := { x with current := m.commit x.current }
  rollback x := { x with current := m.rollback x.current }

theorem Folds.watched {m : Engine δ} (hm : m.Folds) : m.watched.Folds := by
  intro x sql batch
  have hfold : batch.foldl (fun x values => m.watched.update x sql values) x =
      { x with current := batch.foldl (fun x values => m.update x sql values) x.current } := by
    induction batch generalizing x with
    | nil => rfl
    | cons values rest ih => exact ih _
  rw [hfold, ← hm]
  rfl

theorem seen_updateAll (m : Engine δ) (x : Seen δ) (items : List Item) :
    (m.watched.updateAll x items).seen = x.seen := by
  unfold updateAll
  induction items generalizing x with
  | nil => rfl
  | cons i rest ih => exact ih _

end Engine

namespace Desk

def unwatched (D : Desk (Seen δ)) : Desk δ where
  database := D.database.current
  statements := D.statements

/-- What was noted shows the databases that were seen. -/
structure Watches (Rep : Desk δ → σ → Prop) (D : Desk (Seen δ)) (w : Watched σ) : Prop where
  current : Rep D.unwatched w.state
  seen : List.Forall₂ (fun x s => ∃ D, Rep D s ∧ D.database = x) D.database.seen w.seen

end Desk

section
variable {d : Driver σ} {m : Engine δ} {Rep : Desk δ → σ → Prop} {D : Desk (Seen δ)}
  {w : Watched σ}

theorem Driver.Hosts.watched (hd : d.Hosts Rep) : d.watched.Hosts (Desk.Watches Rep) where
  prepare sql timeout hr := .within ((hd.prepare sql timeout hr.current).mono
    (fun _ _ ⟨hn, hr'⟩ => ⟨hn, hr', hr.seen⟩) fun _ _ => False.elim)
  bind values hr hs := .within ((hd.bind values hr.current hs).mono
    (fun _ _ hr' => ⟨hr', hr.seen⟩) fun _ _ => False.elim)
  close h hr := .within ((hd.close h hr.current).mono
    (fun _ _ hr' => ⟨hr', hr.seen⟩) fun _ _ => False.elim)

theorem Driver.Updates.watched (hu : d.Updates m Rep) :
    d.watched.Updates m.watched (Desk.Watches Rep) where
  executeUpdate hr hs := .within ((hu.executeUpdate hr.current hs).mono
    (fun _ _ hr' => ⟨hr', hr.seen⟩) fun _ _ => False.elim)

theorem Driver.Collects.watched {fails : Prop} (hc : d.Collects m Rep fails) :
    d.watched.Collects m.watched (Desk.Watches Rep) fails where
  addBatch hr hs := .within ((hc.addBatch hr.current hs).mono
    (fun _ _ ⟨values, hr'⟩ => ⟨values, hr', hr.seen⟩) fun _ _ ⟨hf, hr'⟩ => ⟨hf, hr', hr.seen⟩)
  executeBatch hr hs := .within ((hc.executeBatch hr.current hs).mono
    (fun _ _ ⟨hl, hr'⟩ => ⟨hl, hr', hr.seen⟩) fun _ _ => id)

theorem Driver.Answers.watched (ha : d.Answers m Rep) :
    d.watched.Answers m.watched (Desk.Watches Rep) where
  executeQuery {D w h st} hr hs := by
    refine .bind_modify (.within ((ha.executeQuery hr.current hs).mono ?_ fun _ _ => False.elim))
    rintro rows s ⟨hrows, hr'⟩
    exact ⟨hrows, hr', List.rel_append hr.seen (.cons ⟨_, hr.current, rfl⟩ .nil)⟩
  commit hr := .within ((ha.commit hr.current).mono
    (fun _ _ hr' => ⟨hr', hr.seen⟩) fun _ _ => False.elim)
  rollback hr := .within ((ha.rollback hr.current).mono
    (fun _ _ hr' => ⟨hr', hr.seen⟩) fun _ _ => False.elim)

theorem Driver.Serves.watched {type : ExecutorType} (hd : d.Serves m Rep type) :
    d.watched.Serves m.watched (Desk.Watches Rep) type :=
  { hd.toHosts.watched, hd.toAnswers.watched with
    updates := fun ht => (hd.updates ht).watched
    collects := fun ht => (hd.collects ht).watched }

theorem Strategy.Shows.seen {G : String → KeyGenerator → Prop} {x : Seen δ} {type : ExecutorType}
    {s : Strategy × Channel (Watched σ)}
    (h : Shows m.watched (Desk.Watches Rep) G x type s) :
    List.Forall₂ (fun x s => ∃ D, Rep D s ∧ D.database = x) x.seen s.2.database.seen := by
  cases h with
  | simple h =>
    obtain ⟨D, hr, rfl⟩ := h
    exact hr.seen
  | reuse h =>
    obtain ⟨D, hr, rfl, -⟩ := h
    exact hr.seen
  | @batch _ _ y items h hx =>
    obtain ⟨D, hr, rfl, -⟩ := h
    rw [← hx, Engine.seen_updateAll]
    exact hr.seen

end

end MappedSql
