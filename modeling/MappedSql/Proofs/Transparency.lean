import MappedSql.Proofs.Books
import MappedSql.Proofs.Recordings

/-!
# Transparent caches

Sessions on one database, each of which is closed before the next is opened, and which share a
cache. Whatever they are asked to do, a select shows what a query of the database would show at
that moment, with all updates of its own session: from whichever cache the result is taken, it
is the same.
-/

namespace MappedSql

variable {σ δ α : Type}

-- ---------------------------------------------------------------------------
-- Sessions
-- ---------------------------------------------------------------------------

/-- What a query of the database itself shows. -/
def Configuration.direct (c : Configuration) (answer : String → List Value → ResultSet)
    (id : String) (argument : Argument) (bounds : RowBounds) : Except Error ResultSet := do
  let bound ← (← c.statement id).bound argument
  return (answer bound.sql (← bound.values c.handlers)).paginate bounds

/-- No cache would have to keep the result of a procedure that writes parameters. -/
def Configuration.Allows (c : Configuration) (id : String) (argument : Argument) : Prop :=
  ∀ s bound, c.statement id = .ok s → s.bound argument = .ok bound → ¬ c.Refuses s bound

namespace Call

def ends : Call → Bool
  | .close | .drop => true
  | _ => false

end Call

/-- What a database has become after a call, by how it ended. -/
def Engine.next (m : Engine δ) (c : Configuration) (x : δ) : Call × Except Error Reply → δ
  | (.update id argument, .ok _) =>
    match c.item id argument with
    | .ok i => m.update x i.sql i.values
    | .error _ => x
  | (.commit _, .ok _) => m.commit x
  | (.rollback _, .ok _) | (.close, .ok _) | (.drop, .ok _) => m.rollback x
  | _ => x

def Office.Keys (o : Office δ σ) (id : String) (argument : Argument) (bounds : RowBounds) : Prop :=
  ∀ s bound key, o.configuration.statement id = .ok s → s.bound argument = .ok bound →
    Worker.cacheKey o.configuration s bounds bound = .ok key → o.Answers key bound bounds

/-- The calls of which it is known what they do to the books: the results of selects have their
keys for themselves, and updates hide the cache. -/
def Office.Admits (o : Office δ σ) : Call → Prop
  | .selectList id argument bounds => o.Keys id argument bounds
  | .selectOne id argument => o.Keys id argument .unbounded
  | .update id _ => ∀ s, o.configuration.statement id = .ok s →
    s.cache.isSome = true ∧ s.flushesCache = true
  | _ => True

namespace Session

variable {o : Office δ σ} {b : Books δ} {x : δ} {z : Session σ × World σ}

/-- An open session that fits the books. Unless it is dirty, everything is durable. -/
structure Faithful (o : Office δ σ) (b : Books δ) (z : Session σ × World σ) : Prop where
  executor : Executor.Faithful o b (unit z)
  clean : z.1.isDirty = false → Worker.Idle (work z) ∧ b.current = b.durable

inductive Stands (o : Office δ σ) : Books δ → Bool → Session σ × World σ → Prop
  | faithful {b : Books δ} {z : Session σ × World σ} (h : Faithful o b z) : Stands o b false z
  | shut {x : δ} {z : Session σ × World σ} (h : Executor.Shut o x (unit z)) :
    Stands o (.settled x) true z

theorem Stands.of_open (h : Stands o b false z) : Faithful o b z := by
  cases h with
  | faithful h => exact h

theorem Stands.of_closed (h : Stands o b true z) :
    ∃ x, b = .settled x ∧ Executor.Shut o x (unit z) := by
  cases h with
  | shut h => exact ⟨_, rfl, h⟩

namespace Faithful

theorem configuration (h : Faithful o b z) : z.1.configuration = o.configuration := by
  obtain ⟨l, hw, -⟩ := h.executor.works
  exact hw.configuration

theorem of_stays {y : Executor σ × World σ} (h : Faithful o b z)
    (hs : Executor.Stays o b (unit z) y) : Faithful o b ({ z.1 with executor := y.1 }, y.2) :=
  ⟨hs.1, fun hd => ⟨hs.2 (h.clean hd).1, (h.clean hd).2⟩⟩

theorem gives_iff_direct {id : String} {s : Statement} (hs : o.configuration.statement id = .ok s)
    {argument : Argument} {bounds : RowBounds} {rows : ResultSet} :
    Executor.Gives o s argument bounds x rows ↔
      o.configuration.direct (o.answer x) id argument bounds = .ok rows ∧
        o.configuration.Allows id argument := by
  constructor
  · rintro ⟨bound, hb, hn, values, hv, rfl⟩
    refine ⟨bind_ok.mpr ⟨s, hs, bind_ok.mpr ⟨bound, hb, bind_ok.mpr ⟨values, hv, rfl⟩⟩⟩, ?_⟩
    intro s' bound' hs' hb'
    cases hs.symm.trans hs'
    cases hb.symm.trans hb'
    exact hn
  · rintro ⟨hd, hn⟩
    obtain ⟨s', hs', hd⟩ := bind_ok.mp hd
    cases hs.symm.trans hs'
    obtain ⟨bound, hb, hd⟩ := bind_ok.mp hd
    obtain ⟨values, hv, hd⟩ := bind_ok.mp hd
    exact ⟨bound, hb, hn s bound hs hb, values, hv, (pure_ok.mp hd).symm⟩

theorem selectList (ho : o.Opens) (h : Faithful o b z) {id : String} {argument : Argument}
    {bounds : RowBounds} (hk : o.Keys id argument bounds) :
    Triple (Session.selectList id argument bounds) z
      (fun rows z' => (o.configuration.direct (o.answer b.current) id argument bounds = .ok rows ∧
        o.configuration.Allows id argument) ∧ Faithful o b z')
      (fun _ z' => (∀ rows, ¬ (o.configuration.direct (o.answer b.current) id argument bounds =
        .ok rows ∧ o.configuration.Allows id argument)) ∧ Faithful o b z' ∨
          o.Lost z'.2.toChannel) := by
  refine bind_statement (fun s hs => ?_) fun e he => .inl ⟨?_, h⟩
  · rw [h.configuration] at hs
    refine onExecutor_ok (Executor.query_faithful ho hs (hk s · · hs) h.executor) ?_ ?_
    · rintro rows y ⟨hg, hy⟩
      exact ⟨(gives_iff_direct hs).mp hg, h.of_stays hy⟩
    · rintro e y (⟨hn, hy⟩ | hl)
      · exact .inl ⟨fun rows hg => hn rows ((gives_iff_direct hs).mpr hg), h.of_stays hy⟩
      · exact .inr hl
  · rintro rows ⟨hd, -⟩
    obtain ⟨s, hs, -⟩ := bind_ok.mp hd
    rw [h.configuration, hs] at he
    cases he

theorem update (ho : o.Opens) (h : Faithful o b z) {id : String} {argument : Argument}
    (hu : o.Admits (.update id argument)) :
    Triple (Session.update id argument) z
      (fun _ z' => ∃ i, o.configuration.item id argument = .ok i ∧
        Faithful o (o.engine.update b i.sql i.values) z')
      (fun _ z' => Faithful o b z' ∨ o.Lost z'.2.toChannel) := by
  refine bind_statement (fun s hs => .bind_modify ?_) fun _ _ => .inl h
  rw [h.configuration] at hs
  obtain ⟨hc, hf⟩ := hu s hs
  refine onExecutor_ok (Executor.update_faithful ho hs hc hf h.executor argument) ?_ ?_
  · rintro _ y ⟨i, hi, hy⟩
    exact ⟨i, bind_ok.mpr ⟨s, hs, hi⟩, hy, nofun⟩
  · rintro _ y (hy | hl)
    · exact .inl ⟨hy, nofun⟩
    · exact .inr hl

/-- A clean session has nothing to commit or to roll back, so it may leave that out. -/
theorem of_not_required (h : Faithful o b z) {force : Bool}
    (hr : (force || z.1.isDirty) = false) : Worker.Idle (work z) ∧ b.current = b.durable :=
  h.clean (Bool.or_eq_false_iff.mp hr).2

theorem handOut (ho : o.Opens) (h : Faithful o b z) (id : String) (argument : Argument)
    (bounds : RowBounds) (enough : Nat → Row → Bool) :
    Triple (Session.handOut id argument bounds enough) z (fun _ => Faithful o b)
      (fun _ z' => Faithful o b z' ∨ o.Lost z'.2.toChannel) := by
  refine bind_statement (fun s hs => ?_) fun _ _ => .inl h
  rw [h.configuration] at hs
  exact onExecutor_ok (Executor.handOut_faithful ho hs h.executor argument bounds enough)
    (fun _ _ hy => h.of_stays hy) fun _ _ hy => hy.imp_left h.of_stays

theorem flush (ho : o.Opens) (h : Faithful o b z) :
    Triple (onExecutor Executor.flush) z (fun _ => Faithful o b)
      (fun _ z' => o.Lost z'.2.toChannel) :=
  onExecutor_ok (Executor.flush_faithful ho h.executor)
    (fun _ _ hy => h.of_stays ⟨hy.1, fun _ => hy.2⟩) fun _ _ => id

theorem commit (ho : o.Opens) (h : Faithful o b z) (force : Bool) :
    Triple (Session.commit force) z (fun _ => Faithful o (.settled b.current))
      (fun _ z' => o.Lost z'.2.toChannel) := by
  refine bind_isRequired (.bind (P := fun _ z' => Executor.Faithful o (.settled b.current)
    (unit z') ∧ Worker.Idle (work z')) ?_ ?_)
  · exact onExecutor_ok (Executor.commit_faithful ho h.executor fun hr => (h.of_not_required hr).2)
      (fun _ _ => id) fun _ _ => id
  · exact fun _ _ hz => .modify ⟨hz.1, fun _ => ⟨hz.2, rfl⟩⟩

theorem rollback (ho : o.Opens) (h : Faithful o b z) (force : Bool)
    {E : Error → Session σ × World σ → Prop} :
    Triple (Session.rollback force) z (fun _ => Faithful o (.settled b.durable)) E := by
  refine bind_isRequired (.bind (P := fun _ z' => Executor.Faithful o (.settled b.durable)
    (unit z') ∧ Worker.Idle (work z')) ?_ ?_)
  · exact onExecutor_ok (Executor.rollback_faithful ho h.executor h.of_not_required
      (E := fun _ _ => False)) (fun _ _ => id) fun _ _ => False.elim
  · exact fun _ _ hz => .modify ⟨hz.1, fun _ => ⟨hz.2, rfl⟩⟩

theorem clearCache (h : Faithful o b z) {E : Error → Session σ × World σ → Prop} :
    Triple (onExecutor Executor.clearLocalCache) z (fun _ => Faithful o b) E :=
  onExecutor_ok (Executor.clearLocalCache_faithful h.executor (E := fun _ _ => False))
    (fun _ _ hy => h.of_stays hy) fun _ _ => False.elim

theorem close (ho : o.Opens) (h : Faithful o b z) {E : Error → Session σ × World σ → Prop} :
    Triple Session.close z (fun _ z' => Executor.Shut o b.durable (unit z')) E := by
  refine bind_isRequired (.bind (P := fun _ z' => Executor.Shut o b.durable (unit z')) ?_ ?_)
  · exact onExecutor_ok (Executor.close_shut ho h.executor h.of_not_required
      (E := fun _ _ => False)) (fun _ _ => id) fun _ _ => False.elim
  · exact fun _ _ hz => .modify hz

end Faithful

end Session

namespace Call

open Session

variable {o : Office δ σ} {b : Books δ} {x : δ} {z : Session σ × World σ}

theorem perform_faithful (ho : o.Opens) (h : Faithful o b z) (call : Call)
    (ha : o.Admits call) :
    Triple call.perform z
      (fun reply => Stands o (o.engine.next o.configuration b (call, .ok reply)) call.ends)
      (fun e z' => Stands o (o.engine.next o.configuration b (call, .error e)) call.ends z' ∨
        o.Lost z'.2.toChannel) := by
  have hlist (id : String) (argument : Argument) (bounds : RowBounds)
      (hk : o.Keys id argument bounds) :
      Triple (Session.selectList id argument bounds) z (fun _ => Stands o b false)
        (fun _ z' => Stands o b false z' ∨ o.Lost z'.2.toChannel) :=
    (h.selectList ho hk).mono (fun _ _ hz => .faithful hz.2) fun _ _ hz =>
      hz.imp_left fun hz => .faithful hz.2
  cases call with
  | selectList id argument bounds => exact .bind (hlist _ _ _ ha) fun _ _ hz => .pure hz
  | selectOne id argument =>
    refine .bind (.bind (hlist _ _ _ ha) fun rows z' hz => ?_) fun _ _ hz => .pure hz
    split
    exacts [.pure hz, .pure hz, .throw (.inl hz)]
  | handOut id argument bounds enough =>
    exact .bind ((h.handOut ho id argument bounds enough).mono (fun _ _ hz => hz) fun _ _ hz =>
      hz.imp_left .faithful) fun _ _ hz => .pure (.faithful hz)
  | update id argument =>
    refine .bind ((h.update ho ha).mono (fun _ _ hz => hz) fun _ _ hz =>
      hz.imp_left .faithful) ?_
    rintro _ z' ⟨i, hi, hz⟩
    refine .pure (.faithful ?_)
    rw [Engine.next, hi]
    exact hz
  | flush =>
    exact .bind ((h.flush ho).mono (fun _ _ hz => hz) fun _ _ => .inr) fun _ _ hz =>
      .pure (.faithful hz)
  | commit force =>
    exact .bind ((h.commit ho force).mono (fun _ _ hz => hz) fun _ _ => .inr) fun _ _ hz =>
      .pure (.faithful hz)
  | rollback force => exact .bind (h.rollback ho force) fun _ _ hz => .pure (.faithful hz)
  | clearCache => exact .bind h.clearCache fun _ _ hz => .pure (.faithful hz)
  | close => exact .bind (h.close ho) fun _ _ hz => .pure (.shut hz)
  | drop =>
    refine .bind (P := fun _ z' => Executor.Shut o b.durable (unit z')) (.bind_get ?_)
      fun _ _ hz => .pure (.shut hz)
    obtain ⟨l, hw, -⟩ := h.executor.works
    rw [show z.1.isClosed = false from hw.isOpen]
    exact h.close ho

theorem perform_shut (ho : o.Opens) (h : Executor.Shut o x (unit z)) (call : Call) :
    Triple call.perform z
      (fun reply z' => o.engine.next o.configuration (.settled x) (call, .ok reply) = .settled x ∧
        Executor.Shut o x (unit z'))
      (fun _ z' => Executor.Shut o x (unit z')) := by
  have hc : z.1.configuration = o.configuration := h.configuration
  have hrefused {β : Type} {a : Execute σ β}
      (ha : Triple a (unit z) (fun _ _ => False) fun _ => Executor.Shut o x) :
      Triple (onExecutor a) z (fun _ _ => False) (fun _ z' => Executor.Shut o x (unit z')) :=
    onExecutor_ok ha (fun _ _ => id) fun _ _ => id
  have hlist (id : String) (argument : Argument) (bounds : RowBounds) :
      Triple (Session.selectList id argument bounds) z (fun _ _ => False)
        (fun _ z' => Executor.Shut o x (unit z')) :=
    bind_statement (fun _ _ => hrefused (h.query argument bounds)) fun _ _ => h
  have hclose : Triple Session.close z (fun _ z' => Executor.Shut o x (unit z'))
      (fun _ z' => Executor.Shut o x (unit z')) :=
    bind_isRequired (.bind (P := fun _ z' => Executor.Shut o x (unit z'))
      (onExecutor_ok (h.close _ (E := fun _ _ => False)) (fun _ _ => id) fun _ _ => False.elim)
      fun _ _ hz => .modify hz)
  cases call with
  | selectList id argument bounds => exact .bind (hlist _ _ _) fun _ _ => False.elim
  | selectOne id argument =>
    exact .bind (P := fun _ _ => False) (.bind (hlist _ _ _) fun _ _ => False.elim)
      fun _ _ => False.elim
  | handOut id argument bounds enough =>
    refine .bind (P := fun _ _ => False) (bind_statement (fun s hs => hrefused ?_) fun _ _ => h)
      fun _ _ => False.elim
    exact h.handOut ho (hc ▸ hs) argument bounds enough
  | update name argument =>
    refine .bind (P := fun _ _ => False) (bind_statement (fun s hs => .bind_modify ?_)
      fun _ _ => h) fun _ _ => False.elim
    exact onExecutor_ok (h.update ho (hc ▸ hs) argument) (fun _ _ => id)
      fun _ _ => id
  | flush => exact .bind (hrefused h.refused) fun _ _ => False.elim
  | commit force =>
    exact .bind (P := fun _ _ => False) (bind_isRequired (.bind (hrefused (.bind h.refused
      fun _ _ => False.elim)) fun _ _ => False.elim)) fun _ _ => False.elim
  | rollback force =>
    refine .bind (P := fun _ z' => Executor.Shut o x (unit z')) (bind_isRequired
      (.bind (P := fun _ z' => Executor.Shut o x (unit z')) ?_ fun _ _ hz => .modify hz))
      fun _ _ hz => .pure ⟨rfl, hz⟩
    exact onExecutor_ok (h.rollback _) (fun _ _ => id) fun _ _ => id
  | clearCache =>
    refine .bind (P := fun _ z' => Executor.Shut o x (unit z')) ?_ fun _ _ hz => .pure ⟨rfl, hz⟩
    exact onExecutor_ok (h.leaves (E := fun _ _ => False)) (fun _ _ => id) fun _ _ => False.elim
  | close => exact .bind hclose fun _ _ hz => .pure ⟨rfl, hz⟩
  | drop =>
    refine .bind (P := fun _ z' => Executor.Shut o x (unit z')) (.bind_get ?_)
      fun _ _ hz => .pure ⟨rfl, hz⟩
    rw [show z.1.isClosed = true from h.isClosed]
    exact .pure h

theorem next_error (m : Engine δ) (c : Configuration) (x : δ) (call : Call) (e : Error) :
    m.next c x (call, .error e) = x := by
  cases call <;> rfl

theorem perform_stands (ho : o.Opens) {isClosed : Bool} (h : Stands o b isClosed z) {call : Call}
    (ha : o.Admits call) :
    Triple call.perform z
      (fun reply => Stands o (o.engine.next o.configuration b (call, .ok reply))
        (isClosed || call.ends))
      (fun e z' => Stands o (o.engine.next o.configuration b (call, .error e))
        (isClosed || call.ends) z' ∨ o.Lost z'.2.toChannel) := by
  cases h with
  | faithful h => exact perform_faithful ho h call ha
  | shut h =>
    refine (perform_shut ho h call).mono ?_ fun e z' hz => .inl ?_
    · rintro reply z' ⟨hn, hz⟩
      rw [hn]
      exact .shut hz
    · rw [next_error]
      exact .shut hz

theorem inTurn_stands (ho : o.Opens) {isClosed : Bool} (h : Stands o b isClosed z)
    {calls : List Call} (ha : ∀ call ∈ calls, o.Admits call) :
    Stands o ((Action.inTurn perform calls z).1.foldl (o.engine.next o.configuration) b)
        (isClosed || calls.any ends) (Action.inTurn perform calls z).2 ∨
      o.Lost (Action.inTurn perform calls z).2.2.toChannel := by
  rw [show calls.any ends = ((Action.inTurn perform calls z).1.map (·.1)).any ends by
    rw [Action.inTurn_map_fst]]
  refine Action.inTurn_induction (I := fun done z' =>
    Stands o (done.foldl (o.engine.next o.configuration) b)
      (isClosed || (done.map (·.1)).any ends) z' ∨ o.Lost z'.2.toChannel)
    (.inl (by simpa using h)) ?_
  intro before call hp hi
  rcases hi with hi | hl
  · have hcall : call ∈ calls := hp.subset (List.mem_append_right _ List.mem_cons_self)
    refine (perform_stands ho hi (ha call hcall)).mono (fun reply z' hz => .inl ?_)
      fun e z' hz => hz.imp_left fun hz => ?_
    all_goals simpa [Bool.or_assoc] using hz
  · have hnotes := (perform_notes call).triple (Action.inTurn perform before z).2
    exact hnotes.mono (fun _ _ hn => .inr (hl.notes hn)) fun _ _ hn => .inr (hl.notes hn)

end Call

-- ---------------------------------------------------------------------------
-- Visits
-- ---------------------------------------------------------------------------

structure Visit where
  timeout : Option Timeout := none
  type : ExecutorType
  calls : List Call

namespace Visit

def run (d : Driver σ) (c : Configuration) (v : Visit) (w : World σ) :
    List (Call × Except Error Reply) × Session σ × World σ :=
  Action.inTurn Call.perform v.calls (Session.opened d c v.timeout v.type w)

def runAll (d : Driver σ) (c : Configuration) :
    List Visit → World σ → List (Call × Except Error Reply) × World σ
  | [], w => ([], w)
  | v :: rest, w =>
    let (done, _, w) := v.run d c w
    let (later, w) := runAll d c rest w
    (done ++ later, w)

def IsClosed (v : Visit) : Prop :=
  v.calls.any Call.ends = true

instance (v : Visit) : Decidable v.IsClosed :=
  inferInstanceAs (Decidable (_ = true))

end Visit

-- ---------------------------------------------------------------------------
-- Keys
-- ---------------------------------------------------------------------------

/-- What a select sends to the driver and which rows it keeps, with its key. -/
structure Question where
  key : CacheKey
  sql : String
  values : Except Error (List Value)
  bounds : RowBounds

def Question.Shows (q : Question) (answer : String → List Value → ResultSet) (rows : ResultSet) :
    Prop :=
  ∃ values, q.values = .ok values ∧ rows = (answer q.sql values).paginate q.bounds

def Configuration.question (c : Configuration) (id : String) (argument : Argument)
    (bounds : RowBounds) : Except Error Question := do
  let s ← c.statement id
  let bound ← s.bound argument
  let key ← Worker.cacheKey c s bounds bound
  return { key, sql := bound.sql, values := bound.values c.handlers, bounds }

/-- The selects whose results may be kept. -/
def Call.Asks (c : Configuration) (q : Question) : Call → Prop
  | .selectList id argument bounds => c.question id argument bounds = .ok q
  | .selectOne id argument => c.question id argument .unbounded = .ok q
  | _ => False

/-- Calls whose statements share a cache, if they have one. Each of their updates hides it, and
selects with equal keys send the same to the driver and keep the same rows. -/
structure Configuration.Shares (c : Configuration) (r : CacheRef) (calls : List Call) : Prop where
  uses : c.Uses (· = r)
  updates : ∀ id argument, .update id argument ∈ calls → ∀ s, c.statement id = .ok s →
    s.cache = some r ∧ s.flushesCache = true
  keys : ∀ call ∈ calls, ∀ q, call.Asks c q → ∀ call' ∈ calls, ∀ q', call'.Asks c q' →
    q.key = q'.key → q = q'

section
variable (d : Driver σ) (Rep : Desk (Books δ) → σ → Prop) (change : δ → String → List Value → δ)
  (answer : δ → String → List Value → ResultSet) (c : Configuration) (r : CacheRef)
  (calls : List Call)

/-- An entry of a cache fits a database when it is what all selects with its key show. -/
def Visit.office (type : ExecutorType) : Office δ σ where
  driver := d
  Rep := Rep
  type := type
  change := change
  answer := answer
  configuration := c
  cache := r
  Fits x entry := ∀ call ∈ calls, ∀ q, call.Asks c q → q.key = entry.1 →
    q.Shows (answer x) entry.2

variable {d Rep change answer c r calls}

theorem Visit.office_opens {type : ExecutorType}
    (hd : d.Serves (Books.engine change answer) Rep type) (hc : c.Uses (· = r)) :
    (office d Rep change answer c r calls type).Opens :=
  ⟨hd, hc⟩

theorem Configuration.Shares.admits (h : c.Shares r calls) (type : ExecutorType) {call : Call}
    (hcall : call ∈ calls) : (Visit.office d Rep change answer c r calls type).Admits call := by
  have hkeys {id : String} {argument : Argument} {bounds : RowBounds}
      (hasks : ∀ q, c.question id argument bounds = .ok q → call.Asks c q) :
      (Visit.office d Rep change answer c r calls type).Keys id argument bounds := by
    intro s bound key hs hb hk x rows
    have hq := hasks _ (bind_ok.mpr ⟨s, hs, bind_ok.mpr ⟨bound, hb, bind_ok.mpr ⟨key, hk, rfl⟩⟩⟩)
    constructor
    · exact fun hf => hf call hcall _ hq rfl
    · rintro hshows call' hcall' q' hq' hkey
      obtain rfl := h.keys call hcall _ hq call' hcall' q' hq' hkey.symm
      exact hshows
  cases call with
  | selectList id argument bounds => exact hkeys fun _ hq => hq
  | selectOne id argument => exact hkeys fun _ hq => hq
  | update id argument =>
    intro s hs
    obtain ⟨hcache, hf⟩ := h.updates id argument hcall s hs
    exact ⟨by rw [hcache]; rfl, hf⟩
  | _ => trivial

-- ---------------------------------------------------------------------------
-- One session after another
-- ---------------------------------------------------------------------------

/-- A world between two sessions: everything is durable, and the shared cache fits it. -/
structure Office.Rests (o : Office δ σ) (x : δ) (w : World σ) : Prop where
  shows : w.toChannel.Shows o.Rep (.settled x)
  shared : o.configuration.cachesEnabled = true → ∀ entry, w.caches.Has o.cache.index entry →
    o.Fits x entry

theorem Executor.Shut.rests {o : Office δ σ} {x : δ} {y : Executor σ × World σ}
    (h : Shut o x y) : o.Rests x y.2 where
  shows := h.shows
  shared hc := by
    obtain ⟨os, hos⟩ := Option.isSome_iff_exists.mp (h.overlays.trans hc)
    exact (h.recalls os hos).shared

theorem Session.opened_stands {o : Office δ σ} {x : δ} {w : World σ} (h : o.Rests x w)
    (timeout : Option Timeout) :
    Stands o (.settled x) false (opened o.driver o.configuration timeout o.type w) := by
  have hoverlays := Executor.start_overlays o.configuration { driver := o.driver, timeout } o.type
  refine .faithful ⟨⟨⟨[], opened_works h.shows _ _, nofun⟩, ?_, ?_⟩, fun _ => ⟨?_, rfl⟩⟩
  · refine (congrArg Option.isSome hoverlays).trans ?_
    cases o.configuration.cachesEnabled <;> rfl
  · rintro os hos
    have hos := hoverlays.symm.trans hos
    cases hc : o.configuration.cachesEnabled with
    | true =>
      rw [hc] at hos
      cases hos
      exact .start (h.shared hc)
    | false =>
      rw [hc] at hos
      cases hos
  · have hworker := Executor.start_worker o.configuration { driver := o.driver, timeout } o.type
    refine (congrArg (fun w => w.strategy.queue) hworker).trans ?_
    cases o.type <;> rfl

namespace Visit

variable {w : World σ} {x : δ} (hd : ∀ type, d.Serves (Books.engine change answer) Rep type)
  (hshares : c.Shares r calls)
include hd hshares

theorem run_stands {type : ExecutorType} (h : (office d Rep change answer c r calls type).Rests x w)
    {v : Visit} (hcalls : v.calls ⊆ calls) :
    Session.Stands (office d Rep change answer c r calls v.type)
        ((v.run d c w).1.foldl ((Books.engine change answer).next c) (.settled x))
        (v.calls.any Call.ends) (v.run d c w).2 ∨
      Channel.Lost c.Generator (v.run d c w).2.2.toChannel := by
  have hrests : (office d Rep change answer c r calls v.type).Rests x w := ⟨h.shows, h.shared⟩
  exact Call.inTurn_stands (office_opens (hd v.type) hshares.uses)
    (Session.opened_stands hrests v.timeout) fun call hm => hshares.admits v.type (hcalls hm)

omit hd hshares in
theorem run_notes (v : Visit) : w.journal <+: (v.run d c w).2.2.journal :=
  Action.Respects.inTurn (R := Order.Preimage (fun z : Session σ × World σ => z.2.journal)
    (· <+: ·)) Call.perform_notes v.calls (Session.opened d c v.timeout v.type w)

omit hd hshares in
theorem runAll_notes (visits : List Visit) : w.journal <+: (runAll d c visits w).2.journal := by
  induction visits generalizing w with
  | nil => exact List.prefix_refl _
  | cons v rest ih => exact v.run_notes.trans ih

theorem runAll_rests {type : ExecutorType} {visits : List Visit}
    (h : (office d Rep change answer c r calls type).Rests x w)
    (hcalls : ∀ v ∈ visits, v.calls ⊆ calls) (hclosed : ∀ v ∈ visits, v.IsClosed) :
    (∃ x', (runAll d c visits w).1.foldl ((Books.engine change answer).next c) (.settled x) =
        .settled x' ∧
        (office d Rep change answer c r calls type).Rests x' (runAll d c visits w).2) ∨
      Channel.Lost c.Generator (runAll d c visits w).2.toChannel := by
  -- On the visits: the next one starts on what the first has left durable.
  induction visits generalizing w x with
  | nil => exact .inl ⟨x, rfl, h⟩
  | cons v rest ih =>
    obtain ⟨hv, hrest⟩ := List.forall_mem_cons.mp hcalls
    obtain ⟨hvclosed, hrestclosed⟩ := List.forall_mem_cons.mp hclosed
    rcases run_stands hd hshares h hv with hs | hl
    · rw [show v.calls.any Call.ends = true from hvclosed] at hs
      obtain ⟨x', hx', hshut⟩ := hs.of_closed
      rw [runAll, List.foldl_append, hx']
      exact ih ⟨hshut.rests.shows, hshut.rests.shared⟩ hrest hrestclosed
    · exact .inr (hl.notes (runAll_notes rest))

end Visit

end

/-- Sessions are used one after another on one database, and each is closed before the next is
opened. What a select of the last one shows is what the database answers to the query itself,
with all updates of the session: no cache, and no batch that waits, makes a difference. -/
theorem Visit.selects_show_database {d : Driver σ} {Rep : Desk (Books δ) → σ → Prop}
    (change : δ → String → List Value → δ) (answer : δ → String → List Value → ResultSet)
    (hd : ∀ type, d.Serves (Books.engine change answer) Rep type) (c : Configuration) (r : CacheRef)
    (visits : List Visit) (last : Visit) (id : String) (argument : Argument) (bounds : RowBounds)
    (hshares : c.Shares r
      (visits.flatMap (·.calls) ++ last.calls ++ [.selectList id argument bounds]))
    (hclosed : ∀ v ∈ visits, v.IsClosed) (hopen : ¬ last.IsClosed) (w : World σ) (x : δ)
    (hw : w.toChannel.Shows Rep (.settled x)) (hempty : ∀ entry, ¬ w.caches.Has r.index entry) :
    let before := runAll d c visits w
    let now := last.run d c before.2
    let select := (Call.selectList id argument bounds).perform.outcome now.2
    let b := (before.1 ++ now.1).foldl ((Books.engine change answer).next c) (.settled x)
    KeysGenerated c.Generator select.2.2.journal → ∀ rows,
      select.1 = .ok (.rows rows) ↔
        c.direct (answer b.current) id argument bounds = .ok rows ∧ c.Allows id argument := by
  intro before now select b hkeys rows
  let calls := visits.flatMap (·.calls) ++ last.calls ++ [.selectList id argument bounds]
  have hvisits : ∀ v ∈ visits, v.calls ⊆ calls := fun v hv call hm =>
    List.mem_append_left _ (List.mem_append_left _ (List.mem_flatMap.mpr ⟨v, hv, hm⟩))
  have hlast : last.calls ⊆ calls := fun call hm =>
    List.mem_append_left _ (List.mem_append_right _ hm)
  have hselect : .selectList id argument bounds ∈ calls :=
    List.mem_append_right _ List.mem_cons_self
  -- A journal only grows, so no key generator has failed before.
  have hnow : ¬ Channel.Lost c.Generator now.2.2.toChannel := fun hl =>
    hl.notes (Call.perform_notes _ now.2) hkeys
  have hbefore : ¬ Channel.Lost c.Generator before.2.toChannel := fun hl =>
    hnow (hl.notes last.run_notes)
  have hstart : (office d Rep change answer c r calls last.type).Rests x w :=
    ⟨hw, fun _ entry hs => absurd hs (hempty entry)⟩
  obtain ⟨x', hx', hrests⟩ :=
    (runAll_rests hd hshares hstart hvisits hclosed).resolve_right hbefore
  have hstands := (run_stands hd hshares hrests hlast).resolve_right hnow
  have hb : now.1.foldl ((Books.engine change answer).next c) (.settled x') = b := by
    rw [← hx', ← List.foldl_append]
  rw [hb, show last.calls.any Call.ends = false from Bool.eq_false_iff.mpr hopen] at hstands
  have hperform : Triple (Call.selectList id argument bounds).perform now.2
      (fun reply _ => ∃ rows, reply = .rows rows ∧
        c.direct (answer b.current) id argument bounds = .ok rows ∧ c.Allows id argument)
      (fun _ z' => (∀ rows, ¬ (c.direct (answer b.current) id argument bounds = .ok rows ∧
        c.Allows id argument)) ∨ Channel.Lost c.Generator z'.2.toChannel) := by
    have hlist := hstands.of_open.selectList (office_opens (hd last.type) hshares.uses)
      (hshares.admits last.type hselect)
    exact .bind (hlist.mono (fun _ _ hz => hz.1) fun _ _ hz => hz.imp_left And.left)
      fun rows _ hz => .pure ⟨rows, rfl, hz⟩
  unfold Triple at hperform
  rcases hs : select with ⟨e | reply, z'⟩
  · rw [show (Call.selectList id argument bounds).perform.outcome now.2 = _ from hs] at hperform
    rw [hs] at hkeys
    exact ⟨nofun, fun hg => absurd hg (hperform.resolve_right (fun hl => hl hkeys) rows)⟩
  · rw [show (Call.selectList id argument bounds).perform.outcome now.2 = _ from hs] at hperform
    obtain ⟨found, rfl, hg⟩ := hperform
    constructor
    · rintro hrows
      cases hrows
      exact hg
    · rintro ⟨hd', -⟩
      cases hg.1.symm.trans hd'
      rfl

-- ---------------------------------------------------------------------------
-- Notes
-- ---------------------------------------------------------------------------

namespace Notes

def change (n : Nat) (sql : String) (_ : List Value) : Nat :=
  if sql = "delete from note" then 0 else n + 1

def shown (n : Nat) : ResultSet :=
  .ofValues ["n"] [[.int n.toInt64]]

def world : World (Workplace (Books Nat)) where
  database := { desk := { database := .settled 0 } }
  caches := caches

def visits : List Visit :=
  [{ type := .batch, calls := [.update "write" (.ofInt 1), .selectList "read" .null .unbounded,
      .commit false, .close] },
    { type := .reuse, calls := [.update "write" (.ofInt 2), .selectList "read" .null .unbounded,
      .close] }]

def last : Visit where
  type := .batch
  calls := [.selectList "read" .null .unbounded, .update "write" (.ofInt 3)]

theorem world_empty (entry : CacheKey × ResultSet) : ¬ world.caches.Has cache.index entry := by
  rintro ⟨c, hc, he⟩
  cases hc
  cases he

theorem visits_share : configuration.Shares cache
    (visits.flatMap (·.calls) ++ last.calls ++ [.selectList "read" .null .unbounded]) where
  uses id s hs r hr := by
    rcases statement_cases hs with rfl | rfl | rfl <;> cases hr <;> rfl
  updates id argument hm s hs := by
    have hid : id = "write" := by
      simp [visits, last] at hm
      tauto
    subst hid
    cases hs
    exact ⟨rfl, rfl⟩
  keys := by
    have hread : ∀ call ∈ visits.flatMap (·.calls) ++ last.calls ++
        [.selectList "read" .null .unbounded], ∀ q, call.Asks configuration q →
          configuration.question "read" .null .unbounded = .ok q := by
      simp [visits, last, Call.Asks]
    intro call hm q hq call' hm' q' hq' _
    cases (hread call hm q hq).symm.trans (hread call' hm' q' hq')
    rfl

end Notes

namespace Visit

open Notes in
theorem notes_show_database :
    let driver := (Books.engine change fun n _ _ => shown n).driver
    let before := runAll driver configuration visits world
    let now := last.run driver configuration before.2
    let select := (Call.selectList "read" .null .unbounded).perform.outcome now.2
    select.1 = .ok (.rows (shown 2)) ∧ select.2.2.database.given = 6 := by
  have hdirect {n : Nat} (hn : n = 2) :
      configuration.direct (fun _ _ => shown n) "read" .null .unbounded = .ok (shown 2) := by
    subst hn
    rfl
  have hallows : configuration.Allows "read" .null := by
    rintro s bound hs - ⟨-, -, -, hkind, -⟩
    rcases statement_cases hs with rfl | rfl | rfl <;> cases hkind
  have h := (selects_show_database change (fun n _ _ => shown n) (Engine.driver_serves _)
    configuration cache visits last "read" .null .unbounded visits_share (by decide) (by decide)
    world 0 ⟨_, ⟨rfl, nofun⟩, rfl⟩ world_empty (keysGenerated _) (shown 2)).mpr
  exact ⟨h ⟨hdirect (by decide +kernel), hallows⟩,
    by decide +kernel⟩

end Visit

end MappedSql
