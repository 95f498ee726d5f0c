import Mathlib.Data.List.SplitBy
import MappedSql.Proofs.Desks

/-!
# Batches on a desk

The updates that wait for their batch, as items. The groups of a queue are the maximal runs of
items of one statement and one SQL text, in the order in which the updates came, and on the desk
of the driver lie the values of their items. A flush executes the runs one after another.
-/

namespace List

variable {β γ : Type} {R : β → γ → Prop}

theorem forall₂_concat_left {bs : List β} {b : β} {cs : List γ} (h : Forall₂ R (bs ++ [b]) cs) :
    ∃ cs' c, cs = cs' ++ [c] ∧ Forall₂ R bs cs' ∧ R b c := by
  induction bs generalizing cs with
  | nil =>
    obtain ⟨c, cs', hc, hcs, rfl⟩ := forall₂_cons_left_iff.mp h
    exact ⟨[], c, by simpa using forall₂_nil_left_iff.mp hcs, .nil, hc⟩
  | cons first rest ih =>
    obtain ⟨c, cs', hc, hcs, rfl⟩ := forall₂_cons_left_iff.mp h
    obtain ⟨before, last, rfl, hrest, hlast⟩ := ih hcs
    exact ⟨c :: before, last, rfl, .cons hc hrest, hlast⟩

theorem splitBy_concat_of_joins {r : β → β → Bool} {l : List β} {runs : List (List β)}
    {run : List β} {b : β} (h : l.splitBy r = runs ++ [run])
    (hb : ∀ a ∈ run.getLast?, r a b = true) : (l ++ [b]).splitBy r = runs ++ [run ++ [b]] := by
  -- The runs of a list are the only way to cut it into chains that do not join each other.
  obtain ⟨rfl, hn, hc, hc'⟩ := splitBy_eq_iff.mp h
  have hrun : run ≠ [] := by
    rintro rfl
    exact hn (by simp)
  refine splitBy_eq_iff.mpr ⟨by simp, ?_, ?_, ?_⟩
  · rw [mem_append, not_or] at hn ⊢
    exact ⟨hn.1, by simp⟩
  · rintro m hm
    rcases mem_append.mp hm with hm | hm
    · exact hc m (mem_append_left _ hm)
    · obtain rfl := mem_singleton.mp hm
      exact (hc run (by simp)).append (isChain_singleton b) (by simpa using hb)
  · rw [isChain_append] at hc' ⊢
    refine ⟨hc'.1, isChain_singleton _, fun m hm m' hm' => ?_⟩
    obtain ⟨hmn, hrn, hne⟩ := hc'.2.2 m hm run (by simp)
    obtain rfl : run ++ [b] = m' := by simpa using hm'
    exact ⟨hmn, by simp, by rwa [head_append_of_ne_nil hrun]⟩

end List

namespace MappedSql

variable {σ δ : Type}

-- ---------------------------------------------------------------------------
-- Items and groups
-- ---------------------------------------------------------------------------

structure Item where
  statement : String
  sql : String
  argument : Argument
  values : List Value

namespace Item

/-- Two updates in turn are for one batch. -/
def joins (i next : Item) : Bool :=
  i.sql == next.sql && i.statement == next.statement

/-- The batch that a driver executes for some items. -/
def batchOf (items : List Item) : String × List (List Value) :=
  (items.head?.elim "" (·.sql), items.map (·.values))

end Item

def Execution.item (e : Execution) (values : List Value) : Item where
  statement := e.statement.id
  sql := e.bound.sql
  argument := e.bound.argument
  values := values

theorem Template.bound_argument {t : Template} {argument : Argument} {bound : BoundStatement}
    (h : t.bound argument = .ok bound) : bound.argument = argument := by
  cases t with
  | compiled sql =>
    cases pure_ok.mp h
    rfl
  | dynamic root handlers databaseId =>
    obtain ⟨_, _, h⟩ := bind_ok.mp h
    obtain ⟨_, _, h⟩ := bind_ok.mp h
    cases pure_ok.mp h
    rfl

theorem Statement.bound_argument {s : Statement} {argument : Argument} {bound : BoundStatement}
    (h : s.bound argument = .ok bound) : bound.argument = argument := by
  obtain ⟨_, hb, h⟩ := bind_ok.mp h
  obtain ⟨_, -, h⟩ := bind_ok.mp h
  cases pure_ok.mp h
  exact Template.bound_argument hb

def Item.ofUpdate (handlers : HandlerRegistry) (s : Statement) (argument : Argument) :
    Except Error Item := do
  let bound ← s.bound argument
  let values ← bound.values handlers
  return { statement := s.id, sql := bound.sql, argument, values }

theorem Item.ofUpdate_execution {e : Execution} {argument : Argument} {values : List Value}
    (hb : e.statement.bound argument = .ok e.bound)
    (hv : e.bound.values e.handlers = .ok values) :
    ofUpdate e.handlers e.statement argument = .ok (e.item values) := by
  refine bind_ok.mpr ⟨e.bound, hb, bind_ok.mpr ⟨values, hv, pure_ok.mpr ?_⟩⟩
  rw [Execution.item, Statement.bound_argument hb]

theorem Item.ofUpdate_error {e : Execution} {argument : Argument} {cause : Error}
    (hb : e.statement.bound argument = .ok e.bound)
    (hv : e.bound.values e.handlers = .error cause) :
    ofUpdate e.handlers e.statement argument = .error cause := by
  rw [ofUpdate, hb]
  dsimp only [bind, Except.bind]
  rw [hv]

/-- The result of a batch has the arguments of its items in order, with a count for each. -/
structure BatchResult.Reports (result : BatchResult) (items : List Item) : Prop where
  statement : ∀ i ∈ items, i.statement = result.statement
  sql : ∀ i ∈ items, i.sql = result.sql
  arguments : result.arguments = items.map (·.argument)
  counts : result.counts.length = items.length

def Desk.Bears (D : Desk δ) (h : Handle) (sql : String) (batch : List (List Value)) : Prop :=
  ∃ values, D.statements h = some { sql, values, batch }

namespace Desk.Bears

variable {D : Desk δ} {h other : Handle} {sql : String} {batch : List (List Value)}
  {st : ScriptedStatement}

theorem put_of_ne (hb : D.Bears other sql batch) (ho : other ≠ h) :
    (D.put h st).Bears other sql batch := by
  obtain ⟨values, hs⟩ := hb
  exact ⟨values, (statements_put_of_ne D h st ho).trans hs⟩

theorem erase_of_ne (hb : D.Bears other sql batch) (ho : other ≠ h) :
    (D.erase h).Bears other sql batch := by
  obtain ⟨values, hs⟩ := hb
  exact ⟨values, (statements_erase_of_ne D h ho).trans hs⟩

theorem put_values (hb : D.Bears other sql batch) (hs : D.statements h = some st)
    (values : List Value) : (D.put h { st with values }).Bears other sql batch := by
  by_cases ho : other = h
  · subst ho
    obtain ⟨old, ho⟩ := hb
    cases hs.symm.trans ho
    exact ⟨values, statements_put ..⟩
  · exact hb.put_of_ne ho

theorem put_item (hb : D.Bears h sql batch) (hs : D.statements h = some st)
    (bound values : List Value) :
    (D.put h { st with values := bound, batch := st.batch ++ [values] }).Bears h sql
      (batch ++ [values]) := by
  obtain ⟨old, ho⟩ := hb
  cases hs.symm.trans ho
  exact ⟨bound, statements_put ..⟩

end Desk.Bears

structure BatchGroup.Awaits (g : BatchGroup) (items : List Item) : Prop where
  nonempty : items ≠ []
  statement : ∀ i ∈ items, i.statement = g.result.statement
  sql : ∀ i ∈ items, i.sql = g.result.sql
  arguments : g.result.arguments = items.map (·.argument)
  counts : g.result.counts = []

structure Desk.Collected (D : Desk δ) (g : BatchGroup) (items : List Item) : Prop
    extends g.Awaits items where
  bears : D.Bears g.handle g.result.sql (items.map (·.values))

namespace Desk.Collected

variable {D D' : Desk δ} {g : BatchGroup} {items : List Item} {queue : BatchQueue}
  {runs : List (List Item)}

theorem batchOf_eq (h : D.Collected g items) :
    Item.batchOf items = (g.result.sql, items.map (·.values)) := by
  cases items with
  | nil => exact absurd rfl h.nonempty
  | cons i rest => simp [Item.batchOf, h.sql i List.mem_cons_self]

theorem all_of_bears (h : List.Forall₂ D.Collected queue runs)
    (hD : ∀ g ∈ queue, ∀ sql batch, D.Bears g.handle sql batch → D'.Bears g.handle sql batch) :
    List.Forall₂ D'.Collected queue runs := by
  induction h with
  | nil => exact .nil
  | cons hg _ ih =>
    obtain ⟨hg', hrest⟩ := List.forall_mem_cons.mp hD
    exact .cons { hg with bears := hg' _ _ hg.bears } (ih hrest)

theorem is_some (h : List.Forall₂ D.Collected queue runs) :
    ∀ g ∈ queue, ∃ st, D.statements g.handle = some st := by
  induction h with
  | nil => exact nofun
  | cons hg _ ih =>
    obtain ⟨values, hs⟩ := hg.bears
    exact List.forall_mem_cons.mpr ⟨⟨_, hs⟩, ih⟩

end Desk.Collected

-- ---------------------------------------------------------------------------
-- Updates that wait
-- ---------------------------------------------------------------------------

section
variable {d : Driver σ} {m : Engine δ} {Rep : Desk δ → σ → Prop} {D D' : Desk δ} {x : δ}
  {G : String → KeyGenerator → Prop} {c : Channel σ} {e : Execution} {fails : Prop}

/-- The updates that wait in a queue: its groups are the runs of the items. -/
structure BatchQueue.Waits (G : String → KeyGenerator → Prop) (D : Desk δ) (queue : BatchQueue)
    (items : List Item) : Prop where
  groups : List.Forall₂ D.Collected queue (items.splitBy Item.joins)
  handles : (queue.map (·.handle)).Nodup
  generators : ∀ g ∈ queue, ∀ generate, g.keyGenerator = some generate →
    G g.result.statement generate

namespace BatchQueue

variable {queue : BatchQueue} {items : List Item} {values : List Value}

theorem Waits.nil : Waits G D [] [] :=
  ⟨by simp, List.nodup_nil, nofun⟩

theorem Waits.items_eq_nil (h : Waits G D [] items) : items = [] := by
  have hruns := List.forall₂_nil_left_iff.mp h.groups
  simpa using hruns

theorem Waits.of_bears (h : Waits G D queue items)
    (hD : ∀ g ∈ queue, ∀ sql batch, D.Bears g.handle sql batch → D'.Bears g.handle sql batch) :
    Waits G D' queue items :=
  { h with groups := Desk.Collected.all_of_bears h.groups hD }

theorem Waits.handle_ne (h : Waits G D queue items) {new : Handle}
    (hn : D.statements new = none) : ∀ g ∈ queue, g.handle ≠ new := by
  rintro g hg rfl
  obtain ⟨st, hs⟩ := Desk.Collected.is_some h.groups g hg
  exact Option.some_ne_none st (hs.symm.trans hn)

theorem Waits.push {rest : BatchQueue} {g : BatchGroup} (h : Waits G D (rest ++ [g]) items)
    (values : List Value) (hc : g.continuedBy e = true)
    (hD : ∀ other, other ≠ g.handle → ∀ sql batch, D.Bears other sql batch →
      D'.Bears other sql batch)
    (hs : ∀ run, D.Bears g.handle g.result.sql run →
      D'.Bears g.handle g.result.sql (run ++ [values])) :
    Waits G D' (rest ++ [g.push e.bound.argument]) (items ++ [e.item values]) := by
  obtain ⟨runs, run, hsplit, hrest, hrun⟩ := List.forall₂_concat_left h.groups
  obtain ⟨hsql, hid⟩ : g.result.sql = e.bound.sql ∧ g.result.statement = e.statement.id := by
    simpa [BatchGroup.continuedBy] using hc
  have hjoins : ∀ i ∈ run.getLast?, i.joins (e.item values) = true := by
    intro i hi
    have hm := List.mem_of_mem_getLast? hi
    simp [Item.joins, Execution.item, hrun.sql i hm, hrun.statement i hm, hsql, hid]
  refine ⟨?_, by simpa [BatchGroup.push] using h.handles, ?_⟩
  · rw [List.splitBy_concat_of_joins hsplit hjoins]
    refine List.rel_append (Desk.Collected.all_of_bears hrest fun other ho => hD _ ?_)
      (.cons ?_ .nil)
    · have hn := h.handles
      rw [List.map_append, List.nodup_append] at hn
      exact hn.2.2 _ (List.mem_map_of_mem ho) _ (by simp)
    · refine ⟨⟨by simp, ?_, ?_, ?_, hrun.counts⟩, ?_⟩
      · simpa [BatchGroup.push, Execution.item, hid, or_imp, forall_and] using hrun.statement
      · simpa [BatchGroup.push, Execution.item, hsql, or_imp, forall_and] using hrun.sql
      · simp [BatchGroup.push, Execution.item, hrun.arguments]
      · simpa [BatchGroup.push, Execution.item] using hs _ hrun.bears
  · intro other ho
    rcases List.mem_append.mp ho with ho | ho
    · exact h.generators other (List.mem_append_left _ ho)
    · obtain rfl := List.mem_singleton.mp ho
      exact h.generators g (by simp)

theorem Waits.last (h : Waits G D queue items) {i : Item} (hi : items.getLast? = some i) :
    ∃ g, queue.getLast? = some g ∧ i.sql = g.result.sql ∧ i.statement = g.result.statement := by
  rcases List.eq_nil_or_concat' queue with rfl | ⟨rest, g, rfl⟩
  · rw [h.items_eq_nil] at hi
    cases hi
  · obtain ⟨runs, run, hsplit, -, hrun⟩ := List.forall₂_concat_left h.groups
    have hitems : items = runs.flatten ++ run := by
      have hflat := List.flatten_splitBy Item.joins items
      rw [hsplit] at hflat
      simpa using hflat.symm
    rw [hitems, List.getLast?_append_of_ne_nil _ hrun.nonempty] at hi
    have hm := List.mem_of_mem_getLast? hi
    exact ⟨g, List.getLast?_concat, hrun.sql i hm, hrun.statement i hm⟩

theorem Waits.open (h : Waits G D queue items) (he : e.Generates G) {new : Handle}
    (hn : D.statements new = none)
    (hD : ∀ other, other ≠ new → ∀ sql batch, D.Bears other sql batch →
      D'.Bears other sql batch)
    (hs : D'.Bears new e.bound.sql [values])
    (hc : queue.getLast?.filter (·.continuedBy e) = none) :
    Waits G D' (queue ++ [BatchGroup.opened e new]) (items ++ [e.item values]) := by
  have hne := h.handle_ne hn
  have hjoins : ∀ i ∈ items.getLast?, i.joins (e.item values) = false := by
    intro i hi
    obtain ⟨g, hg, hsql, hid⟩ := h.last hi
    have hno : g.continuedBy e = false := by simpa [hg, Option.filter] using hc
    simpa [Item.joins, Execution.item, hsql, hid, BatchGroup.continuedBy] using hno
  refine ⟨?_, ?_, ?_⟩
  · rw [List.splitBy_append_cons [] hjoins]
    refine List.rel_append (Desk.Collected.all_of_bears h.groups fun g hg => hD _ (hne g hg))
      (.cons ⟨⟨by simp, ?_, ?_, ?_, rfl⟩, ?_⟩ .nil)
    · simp [BatchGroup.opened, Execution.item]
    · simp [BatchGroup.opened, Execution.item]
    · simp [BatchGroup.opened, Execution.item]
    · simpa [BatchGroup.opened, Execution.item] using hs
  · rw [List.map_append]
    refine h.handles.append (List.nodup_singleton _) ?_
    simpa [BatchGroup.opened] using hne
  · intro g hg
    rcases List.mem_append.mp hg with hg | hg
    · exact h.generators g hg
    · obtain rfl := List.mem_singleton.mp hg
      exact he

/-- A queue with the updates that wait in it, on a driver that shows a database in which they
are not executed yet. -/
def Holds (Rep : Desk δ → σ → Prop) (G : String → KeyGenerator → Prop) (x : δ)
    (items : List Item) (s : BatchQueue × Channel σ) : Prop :=
  ∃ D, Rep D s.2.database ∧ D.database = x ∧ Waits G D s.1 items

theorem addItem_collects (hd : d.Hosts Rep) (hc : d.Collects m Rep fails) {h : Handle}
    {st : ScriptedStatement} (hr : Rep D c.database) (hs : D.statements h = some st) :
    Triple (addItem d h values) c
      (fun _ c' => ∃ bound, Rep (D.put h { st with
        values := bound, batch := st.batch ++ [values] }) c'.database)
      (fun _ c' => fails ∧ Rep (D.put h { st with values }) c'.database) := by
  refine .bind (Channel.drive_total (hd.bind values hr hs)) fun _ c₁ h₁ => ?_
  refine (Channel.drive_ok (hc.addBatch h₁ (Desk.statements_put ..))).mono ?_ fun _ _ => id
  rintro _ c₂ ⟨bound, hr₂⟩
  exact ⟨bound, by simpa using hr₂⟩

theorem openGroup_collects (hd : d.Hosts Rep) (hc : d.Collects m Rep fails)
    (hr : Rep D c.database) :
    Triple (openGroup e d values) c
      (fun g c' => ∃ h bound, g = BatchGroup.opened e h ∧ D.statements h = none ∧
        Rep (D.put h { sql := e.bound.sql, values := bound, batch := [values] }) c'.database)
      (fun _ c' => fails ∧ ∃ h, D.statements h = none ∧ Rep (D.erase h) c'.database) := by
  refine .bind (hd.prepare_ok hr) fun h c₁ ⟨hh, hr₁⟩ => ?_
  refine .bind_attempt (addItem_collects hd hc hr₁ (Desk.statements_put ..)) ?_ ?_
  · rintro _ c₂ ⟨bound, hr₂⟩
    exact .pure ⟨h, bound, rfl, hh, by simpa using hr₂⟩
  · rintro cause c₂ ⟨hf, hr₂⟩
    exact .bind (hd.release_ok hr₂ h) fun _ c₃ hr₃ => .throw ⟨hf, h, hh, by simpa using hr₃⟩

/-- An update that succeeds waits behind the others. One that fails leaves the queue as it was,
with the items that are collected for it. -/
theorem update_holds (hd : d.Hosts Rep) (hc : d.Collects m Rep fails) (he : e.Generates G)
    (hx : Holds Rep G x items (queue, c)) :
    Triple (update e d) (queue, c)
      (fun count s' => count = .pending ∧ ∃ values, e.bound.values e.handlers = .ok values ∧
        Holds Rep G x (items ++ [e.item values]) s')
      (fun cause s' => s'.1 = queue ∧ Holds Rep G x items s' ∧
        (e.bound.values e.handlers = .error cause ∨ fails)) := by
  refine e.bind_values (fun values hv => .bind_get ?_) fun cause hv => ⟨rfl, hx, .inl hv⟩
  obtain ⟨D, hr, hxD, hw⟩ := hx
  dsimp only
  cases hg : queue.getLast?.filter (·.continuedBy e) with
  | some g =>
    obtain ⟨hl, hcont⟩ := Option.filter_eq_some_iff.mp hg
    obtain ⟨rest, rfl⟩ : ∃ rest, queue = rest ++ [g] := List.getLast?_eq_some_iff.mp hl
    obtain ⟨st, hs⟩ := Desk.Collected.is_some hw.groups g (by simp)
    refine .bind_onSecond (addItem_collects hd hc hr hs) ?_ ?_
    · rintro cause c₁ ⟨hf, hr₁⟩
      exact ⟨rfl, ⟨_, hr₁, hxD, hw.of_bears fun _ _ _ _ hb => hb.put_values hs values⟩, .inr hf⟩
    · rintro _ c₁ ⟨bound, hr₁⟩
      refine .bind_modify (.pure ⟨rfl, values, hv, _, hr₁, hxD, ?_⟩)
      have hpush := hw.push values hcont (fun _ ho _ _ hb => hb.put_of_ne ho)
        fun _ hb => hb.put_item hs bound values
      simpa using hpush
  | none =>
    refine .bind_onSecond (openGroup_collects hd hc hr) ?_ ?_
    · rintro cause c₁ ⟨hf, h, hn, hr₁⟩
      have hne := hw.handle_ne hn
      exact ⟨rfl, ⟨_, hr₁, hxD, hw.of_bears fun g hg _ _ hb => hb.erase_of_ne (hne g hg)⟩, .inr hf⟩
    · rintro _ c₁ ⟨h, bound, rfl, hn, hr₁⟩
      refine .bind_modify (.pure ⟨rfl, values, hv, _, hr₁, hxD, ?_⟩)
      exact hw.open he hn (fun _ ho _ _ hb => hb.put_of_ne ho) ⟨bound, Desk.statements_put ..⟩ hg

end BatchQueue

-- ---------------------------------------------------------------------------
-- Batches that run
-- ---------------------------------------------------------------------------

namespace Engine

def execute (m : Engine δ) (x : δ) (runs : List (List Item)) : δ :=
  runs.foldl (fun x run => m.batch x (Item.batchOf run).1 (Item.batchOf run).2) x

def updateAll (m : Engine δ) (x : δ) (items : List Item) : δ :=
  items.foldl (fun x i => m.update x i.sql i.values) x

def Folds (m : Engine δ) : Prop :=
  ∀ x sql batch, m.batch x sql batch = batch.foldl (fun x values => m.update x sql values) x

theorem updateAll_append (m : Engine δ) (x : δ) (items items' : List Item) :
    m.updateAll x (items ++ items') = m.updateAll (m.updateAll x items) items' := by
  simp [updateAll]

theorem Folds.execute_collected (hm : m.Folds) {queue : BatchQueue} {runs : List (List Item)}
    (h : List.Forall₂ D.Collected queue runs) (x : δ) :
    m.execute x runs = m.updateAll x runs.flatten := by
  induction h generalizing x with
  | nil => rfl
  | @cons g run _ rest hg _ ih =>
    have hrun : m.batch x (Item.batchOf run).1 (Item.batchOf run).2 = m.updateAll x run := by
      rw [hg.batchOf_eq, hm, List.foldl_map, updateAll]
      exact List.foldl_ext _ _ _ fun y i hi => by rw [hg.sql i hi]
    rw [List.flatten_cons, updateAll_append, ← ih, ← hrun]
    rfl

end Engine

namespace BatchGroup

variable {g : BatchGroup} {run : List Item}

theorem requestKeys_ok (hG : ∀ generate, g.keyGenerator = some generate →
    G g.result.statement generate) (requests : List KeyRequest) :
    Triple (g.requestKeys requests) c (fun _ c' => c'.database = c.database)
      (fun _ => Channel.Lost G) := by
  induction requests generalizing c with
  | nil => exact .pure rfl
  | cons request rest ih =>
    refine .bind (Channel.generateKeys_ok hG) fun _ c₁ (h₁ : c₁.database = c.database) => ?_
    exact (ih (c := c₁)).mono (fun _ _ h => h.trans h₁) fun _ _ => id

theorem run_collects (hc : d.Collects m Rep fails)
    (hG : ∀ generate, g.keyGenerator = some generate → G g.result.statement generate)
    (hr : Rep D c.database) (hg : D.Collected g run) {E : Error → Channel σ → Prop} :
    Triple (g.run d) c (fun ended c' => match ended.1 with
      | .ok () => ended.2.Reports run ∧ ∃ st, Rep ((D.put g.handle st).withDatabase
          (m.batch D.database g.result.sql (run.map (·.values)))) c'.database
      | .error _ => fails ∨ Channel.Lost G c') E := by
  obtain ⟨values, hs⟩ := hg.bears
  refine .bind_attempt (Channel.drive_ok (hc.executeBatch hr hs)) ?_ fun _ _ hf => .pure (.inl hf)
  rintro counts c₁ ⟨hlen, hr₁⟩
  have hlen : counts.length = run.length := by simpa using hlen
  refine .bind_attempt (requestKeys_ok hG _) ?_ fun _ _ hl => .pure (.inr hl)
  rintro _ c₂ hr₂
  exact .pure ⟨⟨hg.statement, hg.sql, hg.arguments, hlen⟩, _, hr₂ ▸ hr₁⟩

end BatchGroup

namespace BatchQueue

variable {queue : BatchQueue} {items : List Item} {runs : List (List Item)}

theorem runAll_executes (hd : d.Hosts Rep) (hc : d.Collects m Rep fails)
    (hr : Rep D c.database) (hf : List.Forall₂ D.Collected queue runs)
    (hn : (queue.map (·.handle)).Nodup)
    (hG : ∀ g ∈ queue, ∀ generate, g.keyGenerator = some generate →
      G g.result.statement generate) (completed : List BatchResult) :
    Triple (runAll d completed queue) c
      (fun results c' => ∃ done, results = completed ++ done ∧
        List.Forall₂ BatchResult.Reports done runs ∧ c'.Shows Rep (m.execute D.database runs))
      (fun _ c' => fails ∨ Channel.Lost G c') := by
  induction queue generalizing D c completed runs with
  | nil =>
    cases hf
    exact .pure ⟨[], by simp, .nil, D, hr, rfl⟩
  | cons g rest ih =>
    obtain ⟨run, runs, hg, hrest, rfl⟩ := List.forall₂_cons_left_iff.mp hf
    obtain ⟨hg', hn⟩ := List.nodup_cons.mp hn
    obtain ⟨hGg, hG⟩ := List.forall_mem_cons.mp hG
    refine .bind (BatchGroup.run_collects hc hGg hr hg) ?_
    rintro ⟨outcome, result⟩ c₁ h₁
    cases outcome with
    | ok _ =>
      obtain ⟨hreports, st, hr₁⟩ := h₁
      refine .bind (hd.release_ok hr₁ g.handle) fun _ c₂ hr₂ => ?_
      -- The other groups have other handles, so their batches still lie on the desk.
      have hcollected := Desk.Collected.all_of_bears hrest fun other ho sql batch hb =>
        have hne : other.handle ≠ g.handle := fun he => hg' (List.mem_map.mpr ⟨other, ho, he⟩)
        Desk.Bears.erase_of_ne (D := (D.put g.handle st).withDatabase
          (m.batch D.database g.result.sql (run.map (·.values)))) (hb.put_of_ne hne) hne
      refine (ih hr₂ hcollected hn hG (completed ++ [result])).mono ?_ fun _ _ => id
      rintro results c₃ ⟨done, rfl, hdone, hx⟩
      refine ⟨result :: done, by simp, .cons hreports hdone, ?_⟩
      rw [Engine.execute, List.foldl_cons, hg.batchOf_eq]
      exact hx
    | error cause =>
      -- The other statements are only closed, and that cannot undo what has failed.
      have hfailed (c' : Channel σ) (h : Channel.Notes c₁ c') : fails ∨ Channel.Lost G c' :=
        h₁.imp_right (·.notes h)
      have hclose := (d.keeps_notes.release g.handle).triple c₁
      refine .bind (hclose.mono (fun _ _ h => h) fun _ => hfailed) fun _ c₂ h₂ => ?_
      refine .bind (((d.keeps_notes.releaseAll _).after h₂).mono (fun _ => hfailed)
        fun _ => hfailed) fun _ _ h₃ => .throw h₃

/-- A flush that succeeds runs one batch for each run of items, and nothing waits any longer. -/
theorem flush_executes (hd : d.Hosts Rep) (hc : d.Collects m Rep fails)
    (hx : Holds Rep G x items (queue, c)) :
    Triple (flush d) (queue, c)
      (fun results s' => s'.1 = [] ∧
        List.Forall₂ BatchResult.Reports results (items.splitBy Item.joins) ∧
        s'.2.Shows Rep (m.execute x (items.splitBy Item.joins)))
      (fun _ s' => s'.1 = [] ∧ (fails ∨ Channel.Lost G s'.2)) := by
  obtain ⟨D, hr, rfl, hw⟩ := hx
  refine .bind_get (.bind_modify (.onSecond ?_))
  refine (runAll_executes hd hc hr hw.groups hw.handles hw.generators []).mono ?_
    fun _ _ h => ⟨rfl, h⟩
  rintro results c' ⟨done, rfl, hdone, hx⟩
  exact ⟨rfl, by simpa using hdone, hx⟩

theorem discard_shows (hd : d.Hosts Rep) (hx : Holds Rep G x items (queue, c))
    {E : Error → BatchQueue × Channel σ → Prop} :
    Triple (discard d) (queue, c) (fun _ s' => s'.1 = [] ∧ s'.2.Shows Rep x) E := by
  obtain ⟨D, hr, hxD, hw⟩ := hx
  exact .bind_get (.bind_modify (.onSecond ((StatementPool.releaseAll_shows hd ⟨D, hr, hxD⟩
    _).mono (fun _ _ h => ⟨rfl, h⟩) fun _ _ => id)))

end BatchQueue

end

end MappedSql
