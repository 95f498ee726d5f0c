import MappedSql.Proofs.Serving

/-!
# Workers on a desk

What the calls of an open worker do when its driver has a desk and never fails: what they
answer, what they leave in the local cache, and the database that is shown afterwards, with the
updates that wait counted as executed. All of it is determined by the configuration, the local
cache and the database before, whatever the type of the worker.
-/

namespace MappedSql

variable {σ δ : Type} {d : Driver σ} {m : Engine δ} {Rep : Desk δ → σ → Prop}
  {G : String → KeyGenerator → Prop} {type : ExecutorType}

def Statement.Generates (G : String → KeyGenerator → Prop) (s : Statement) : Prop :=
  ∀ generate, s.keyGenerator = some generate → G s.id generate

namespace Worker

/-- An open worker on a driver that serves it, with what it is configured for and remembers. -/
structure Works (d : Driver σ) (m : Engine δ) (Rep : Desk δ → σ → Prop)
    (G : String → KeyGenerator → Prop) (type : ExecutorType) (c : Configuration) (x : δ)
    (l : Keyed CacheKey ResultSet) (w : Worker σ × Channel σ) : Prop where
  configuration : w.1.configuration = c
  driver : w.1.transaction.driver = d
  isOpen : w.1.isClosed = false
  localCache : w.1.localCache = l
  shows : Strategy.Shows m Rep G x type (w.1.strategy, w.2)

def Idle (w : Worker σ × Channel σ) : Prop :=
  w.1.strategy.queue = []

def left (s : Statement) (l : Keyed CacheKey ResultSet) : Keyed CacheKey ResultSet :=
  if s.flushesCache then [] else l

variable {c : Configuration} {x : δ} {l : Keyed CacheKey ResultSet} {w : Worker σ × Channel σ}
  {s : Statement} {bound : BoundStatement} {bounds : RowBounds} {argument : Argument}

theorem start_works {channel : Channel σ} (h : channel.Shows Rep x) (timeout : Option Timeout) :
    Works d m Rep G type c x [] (.start c { driver := d, timeout } type, channel) :=
  ⟨rfl, rfl, rfl, rfl, .start h⟩

namespace Works

variable {α : Type} {Q : α → Worker σ × Channel σ → Prop}
  {E : Error → Worker σ × Channel σ → Prop}

theorem withLocalCache (h : Works d m Rep G type c x l w) (l' : Keyed CacheKey ResultSet) :
    Works d m Rep G type c x l' ({ w.1 with localCache := l' }, w.2) :=
  ⟨h.configuration, h.driver, h.isOpen, rfl, h.shows⟩

theorem forgottenFor (h : Works d m Rep G type c x l w) (s : Statement) :
    Works d m Rep G type c x (left s l) (w.1.forgottenFor s, w.2) :=
  ⟨h.configuration, h.driver, h.isOpen, by rw [← h.localCache]; rfl, h.shows⟩

theorem bind_ensureOpen {f : Unit → Work σ α} (h : Works d m Rep G type c x l w)
    (hf : Triple (f ()) w Q E) : Triple (ensureOpen >>= f) w Q E :=
  Worker.bind_ensureOpen (fun _ => hf) fun hc => absurd (h.isOpen.symm.trans hc) Bool.false_ne_true

theorem withStrategy {y : δ} {s' : Strategy × Channel σ} (h : Works d m Rep G type c x l w)
    (hs : Strategy.Shows m Rep G y type s') :
    Works d m Rep G type c y l ({ w.1 with strategy := s'.1 }, s'.2) :=
  ⟨h.configuration, h.driver, h.isOpen, h.localCache, hs⟩

theorem onDatabase {P : δ → δ} {a : Action σ Unit} (h : Works d m Rep G type c x l w) (hi : Idle w)
    (ha : ∀ {D : Desk δ} {s}, Rep D s →
      Triple a s (fun _ s' => Rep (D.withDatabase (P D.database)) s') fun _ _ => False)
    {E : Error → Worker σ × Channel σ → Prop} :
    Triple (onDatabase a) w (fun _ w' => Works d m Rep G type c (P x) l w' ∧ Idle w') E :=
  onDatabase_ok (Strategy.database_shows ha h.shows hi (E := fun _ _ => False))
    (fun _ _ hx => ⟨⟨h.configuration, h.driver, h.isOpen, h.localCache, hx⟩, hi⟩)
    fun _ _ => False.elim

end Works

theorem update_works (hd : d.Serves m Rep type) (hs : s.Generates G)
    (h : Works d m Rep G type c x l w) :
    Triple (update s argument) w
      (fun _ w' => ∃ i, Item.ofUpdate c.handlers s argument = .ok i ∧
        Works d m Rep G type c (m.update x i.sql i.values) [] w')
      (fun e w' => Item.ofUpdate c.handlers s argument = .error e ∧
        Works d m Rep G type c x [] w' ∨ Channel.Lost G w'.2) := by
  have hempty := h.withLocalCache []
  obtain rfl := h.configuration
  refine update_rule h.driver h.isOpen (fun bound hb => ?_) fun e he =>
    .inl ⟨by rw [Item.ofUpdate, he]; rfl, hempty⟩
  have hupdate := Strategy.update_shows (e := w.1.execution s bound) hd hs hempty.shows
  refine onStrategy_ok hupdate ?_ ?_
  · rintro _ s' c' ⟨values, hv, hx⟩
    exact ⟨_, Item.ofUpdate_execution (e := w.1.execution s bound) hb hv, hempty.withStrategy hx⟩
  · rintro e s' c' (⟨hv, hx⟩ | hl)
    · exact .inl ⟨Item.ofUpdate_error (e := w.1.execution s bound) hb hv, hempty.withStrategy hx⟩
    · exact .inr hl

theorem fetch_works (hm : m.Folds) (hd : d.Serves m Rep type) (h : Works d m Rep G type c x l w)
    (s : Statement) (bounds : RowBounds) (bound : BoundStatement) :
    Triple (fetch s bounds bound) w
      (fun rows w' => ∃ values, bound.values c.handlers = .ok values ∧
        rows = (m.answer x bound.sql values).paginate bounds ∧
        Works d m Rep G type c (m.asked x bound.sql values) l w' ∧ Idle w')
      (fun e w' => bound.values c.handlers = .error e ∧ Works d m Rep G type c x l w' ∧ Idle w' ∨
        Channel.Lost G w'.2) := by
  obtain rfl := h.configuration
  refine bind_current (bind_connection h.driver h.isOpen (.bind (P := fun rows w' =>
    ∃ values, bound.values w.1.configuration.handlers = .ok values ∧
      rows = m.answer x bound.sql values ∧
      Works d m Rep G type w.1.configuration (m.asked x bound.sql values) l w' ∧ Idle w') ?_ ?_))
  · refine onStrategy_ok (Strategy.query_shows (e := w.1.execution s bound) hm hd h.shows) ?_ ?_
    · rintro rows s' c' ⟨values, hv, hrows, hx, hi⟩
      exact ⟨values, hv, hrows, h.withStrategy hx, hi⟩
    · rintro e s' c' (⟨hv, hx, hi⟩ | hl)
      · exact .inl ⟨hv, h.withStrategy hx, hi⟩
      · exact .inr hl
  · rintro rows w' ⟨values, hv, rfl, hw, hi⟩
    exact .pure ⟨values, hv, rfl, hw, hi⟩

theorem queryBound_found {key : CacheKey} {hit : ResultSet} (h : Works d m Rep G type c x l w)
    (hf : Keyed.get? (left s l) key = some hit) {E : Error → Worker σ × Channel σ → Prop} :
    Triple (queryBound s bounds key bound) w
      (fun rows w' => rows = hit ∧ Works d m Rep G type c x (left s l) w' ∧ (Idle w → Idle w'))
      E := by
  have hforgot := h.forgottenFor s
  refine h.bind_ensureOpen (bind_forgetFor (bind_current ?_))
  rw [hforgot.localCache, hf]
  exact .pure ⟨rfl, hforgot, id⟩

def kept (c : Configuration) (l : Keyed CacheKey ResultSet) (key : CacheKey) (rows : ResultSet) :
    Keyed CacheKey ResultSet :=
  if c.localCacheScope = .statement then [] else Keyed.put l key rows

theorem queryBound_fetched {key : CacheKey} (hm : m.Folds) (hd : d.Serves m Rep type)
    (h : Works d m Rep G type c x l w) (hf : Keyed.get? (left s l) key = none) :
    Triple (queryBound s bounds key bound) w
      (fun rows w' => ∃ values, bound.values c.handlers = .ok values ∧
        rows = (m.answer x bound.sql values).paginate bounds ∧
        Works d m Rep G type c (m.asked x bound.sql values) (kept c (left s l) key rows) w' ∧
        Idle w')
      (fun e w' => bound.values c.handlers = .error e ∧ Works d m Rep G type c x (left s l) w' ∧
        Idle w' ∨ Channel.Lost G w'.2) := by
  have hforgot := h.forgottenFor s
  refine h.bind_ensureOpen (bind_forgetFor (bind_current ?_))
  rw [hforgot.localCache, hf]
  refine .bind (fetch_works hm hd hforgot s bounds bound) ?_
  rintro rows w₁ ⟨values, hv, hrows, hw, hi⟩
  have hput := hw.withLocalCache (Keyed.put w₁.1.localCache key rows)
  refine .bind_modify (bind_current ?_)
  dsimp only
  -- With the scope of a statement, the local cache is emptied again after each query.
  by_cases hscope : w₁.1.configuration.localCacheScope = .statement
  · have hkept : kept c (left s l) key rows = [] := by rw [kept, ← hw.configuration, if_pos hscope]
    rw [if_pos hscope]
    exact .bind_modify (.pure ⟨values, hv, hrows, hkept ▸ hput.withLocalCache [], hi⟩)
  · have hkept : kept c (left s l) key rows = Keyed.put w₁.1.localCache key rows := by
      rw [kept, ← hw.configuration, if_neg hscope, hw.localCache]
    rw [if_neg hscope]
    exact .pure ⟨values, hv, hrows, hkept ▸ hput, hi⟩

theorem handOut_works {enough : Nat → Row → Bool} (hm : m.Folds) (hd : d.Serves m Rep type)
    (h : Works d m Rep G type c x l w) :
    Triple (handOut s argument bounds enough) w
      (fun handed w' => ∃ i, Item.ofUpdate c.handlers s argument = .ok i ∧
        handed = ResultSet.handOut enough 0 ((m.answer x i.sql i.values).paginate bounds).rows ∧
        Works d m Rep G type c (m.asked x i.sql i.values) (left s l) w' ∧ Idle w')
      (fun e w' => Item.ofUpdate c.handlers s argument = .error e ∧
        Works d m Rep G type c x (left s l) w' ∧ (Idle w → Idle w') ∨ Channel.Lost G w'.2) := by
  have hforgot := h.forgottenFor s
  refine h.bind_ensureOpen (bind_forgetFor (.bind_ofExcept (fun bound hb => ?_) fun e he =>
    .inl ⟨by rw [Item.ofUpdate, he]; rfl, hforgot, id⟩))
  obtain rfl := h.configuration
  refine .bind ((fetch_works hm hd hforgot s bounds bound).mono (fun _ _ => id) ?_) ?_
  · rintro e w' (⟨hv, hw, hi⟩ | hl)
    · exact .inl ⟨Item.ofUpdate_error (e := w.1.execution s bound) hb hv, hw, fun _ => hi⟩
    · exact .inr hl
  · rintro rows w' ⟨values, hv, rfl, hw, hi⟩
    exact .pure ⟨_, Item.ofUpdate_execution (e := w.1.execution s bound) hb hv, rfl, hw, hi⟩

theorem flush_works (hm : m.Folds) (hd : d.Serves m Rep type) (h : Works d m Rep G type c x l w) :
    Triple flush w (fun _ w' => Works d m Rep G type c x l w' ∧ Idle w')
      (fun _ w' => Channel.Lost G w'.2) := by
  refine h.bind_ensureOpen (bind_current (bind_connection h.driver h.isOpen ?_))
  exact onStrategy_ok (Strategy.flush_shows hm hd h.shows)
    (fun _ _ _ ⟨hx, hi⟩ => ⟨h.withStrategy hx, hi⟩) fun _ _ _ => id

theorem commit_works (hm : m.Folds) (hd : d.Serves m Rep type) (required : Bool)
    (h : Works d m Rep G type c x l w) :
    Triple (commit required) w
      (fun _ w' => Works d m Rep G type c (if required then m.commit x else x) [] w' ∧ Idle w')
      (fun _ w' => Channel.Lost G w'.2) := by
  refine h.bind_ensureOpen (.bind_modify (.bind (flush_works hm hd (h.withLocalCache [])) ?_))
  rintro _ w₁ ⟨hw, hi⟩
  cases required with
  | false => exact .pure ⟨hw, hi⟩
  | true =>
    refine bind_current ?_
    obtain ⟨rfl, ho⟩ := And.intro hw.driver hw.isOpen
    exact hw.onDatabase hi fun hr => Transaction.commit_rule ho (hd.commit hr)

/-- What is rolled back is the database without the updates that waited. -/
theorem rollback_works (hd : d.Serves m Rep type) (required : Bool)
    (h : Works d m Rep G type c x l w) {E : Error → Worker σ × Channel σ → Prop} :
    Triple (rollback required) w
      (fun _ w' => ∃ y items, m.updateAll y items = x ∧ (Idle w → items = []) ∧
        Works d m Rep G type c (if required then m.rollback y else y) [] w' ∧ Idle w') E := by
  refine bind_current ?_
  rw [h.isOpen]
  refine .bind_modify (bind_current ?_)
  have hempty := h.withLocalCache []
  -- What waited is given up before the driver rolls back, so `y` is the database it rolls back.
  refine .bind_attempt (P := fun _ w' => ∃ y items, m.updateAll y items = x ∧
    (Idle w → items = []) ∧ Works d m Rep G type c y [] w' ∧ Idle w') (E := fun _ _ => False)
    ?_ ?_ fun _ _ => False.elim
  · refine bind_connection h.driver h.isOpen (onStrategy_ok (Strategy.discard_shows hd h.shows
      (E := fun _ _ => False)) ?_ fun _ _ _ => False.elim)
    rintro _ s' c' ⟨y, items, hx, hi, hy, hidle⟩
    exact ⟨y, items, hx, hi, hempty.withStrategy hy, hidle⟩
  rintro _ w₁ ⟨y, items, hx, hi, hw, hidle⟩
  refine .bind_attempt (P := fun _ w' =>
    Works d m Rep G type c (if required then m.rollback y else y) [] w' ∧ Idle w')
    (E := fun _ _ => False) ?_ (fun _ _ hw₂ => .pure ⟨y, items, hx, hi, hw₂⟩) fun _ _ => False.elim
  cases required with
  | false => exact .pure ⟨hw, hidle⟩
  | true =>
    obtain ⟨rfl, ho⟩ := And.intro h.driver h.isOpen
    exact hw.onDatabase hidle fun hr => Transaction.rollback_rule ho (hd.rollback hr)

theorem clearLocalCache_works (h : Works d m Rep G type c x l w)
    {E : Error → Worker σ × Channel σ → Prop} :
    Triple clearLocalCache w
      (fun _ w' => Works d m Rep G type c x [] w' ∧ (Idle w → Idle w')) E := by
  refine bind_current ?_
  rw [h.isOpen]
  exact .modify ⟨h.withLocalCache [], id⟩

theorem close_works (hd : d.Serves m Rep type) (force : Bool) (h : Works d m Rep G type c x l w)
    {E : Error → Worker σ × Channel σ → Prop} :
    Triple (close force) w
      (fun _ w' => ∃ y items, m.updateAll y items = x ∧ (Idle w → items = []) ∧
        w'.1.configuration = c ∧ w'.1.isClosed = true ∧
        w'.2.Shows Rep (if force then m.rollback y else y)) E := by
  refine bind_current ?_
  rw [h.isOpen]
  refine .bind (.attempt (Q := fun _ w' => ∃ y items, m.updateAll y items = x ∧
    (Idle w → items = []) ∧ Works d m Rep G type c (if force then m.rollback y else y) [] w' ∧
    Idle w') (rollback_works hd force h)) ?_
  rintro _ w₁ ⟨y, items, hx, hi, hw, hidle⟩
  exact .modify ⟨y, items, hx, hi, hw.configuration, rfl, hw.shows.database hidle⟩

end Worker

theorem Session.opened_works {w : World σ} {x : δ} (h : w.toChannel.Shows Rep x) (c : Configuration)
    (timeout : Option Timeout) :
    Worker.Works d m Rep G type c x [] (work (opened d c timeout type w)) := by
  unfold work unit Executor.work opened start
  rw [Executor.start_worker]
  exact Worker.start_works h timeout

end MappedSql
