import MappedSql.Proofs.CacheKeys
import MappedSql.Proofs.OverlayContent
import MappedSql.Proofs.Twins

/-!
# Books

A database in transactions: what it is now, and what of it is durable. An executor that may find
results in three places, in its local cache, in its overlays and in the cache behind them, finds
what the database answers when each place fits the books. What is kept for itself fits the
database as it is now. What is shared fits what is durable, and is out of sight from the first
update on.
-/

namespace MappedSql

variable {σ δ α : Type}

structure Books (δ : Type) where
  current : δ
  durable : δ

namespace Books

def settled (x : δ) : Books δ where
  current := x
  durable := x

def withCurrent (b : Books δ) (x : δ) : Books δ :=
  { b with current := x }

/-- Updates change what a database is now, and nothing else does. A commit makes that durable,
and a rollback goes back to what is durable. -/
def engine (change : δ → String → List Value → δ) (answer : δ → String → List Value → ResultSet) :
    Engine (Books δ) where
  update b sql values := b.withCurrent (change b.current sql values)
  batch b sql batch := b.withCurrent (batch.foldl (fun x values => change x sql values) b.current)
  answer b := answer b.current
  asked b _ _ := b
  commit b := settled b.current
  rollback b := settled b.durable

variable {change : δ → String → List Value → δ} {answer : δ → String → List Value → ResultSet}

theorem engine_folds : (engine change answer).Folds := by
  intro b sql batch
  induction batch generalizing b with
  | nil => rfl
  | cons values rest ih =>
    rw [List.foldl_cons, ← ih]
    rfl

theorem durable_updateAll (b : Books δ) (items : List Item) :
    ((engine change answer).updateAll b items).durable = b.durable := by
  unfold Engine.updateAll
  induction items generalizing b with
  | nil => rfl
  | cons i rest ih => exact ih _

theorem eq_settled {b : Books δ} (h : b.current = b.durable) : b = settled b.durable := by
  obtain ⟨current, durable⟩ := b
  cases h
  rfl

end Books

-- ---------------------------------------------------------------------------
-- Overlays
-- ---------------------------------------------------------------------------

namespace Overlays

variable {κ : Type} [BEq κ] [LawfulBEq κ] {r : CacheRef} {Fits : δ → κ × α → Prop} {b : Books δ}
  {os : Overlays κ α} {p : CachePool κ α}

/-- Overlays for one cache, and the cache behind them, that fit the books of a database. -/
structure Remembers (r : CacheRef) (Fits : δ → κ × α → Prop) (b : Books δ) (os : Overlays κ α)
    (p : CachePool κ α) : Prop where
  targets : os.Targets (· = r)
  written : ∀ entry, os.Writes entry → Fits b.current entry
  shared : ∀ entry, p.Has r.index entry → Fits b.durable entry
  hidden : os.Clears r.index ∨ b.current = b.durable

namespace Remembers

omit [BEq κ] [LawfulBEq κ] in
theorem start {x : δ} (h : ∀ entry, p.Has r.index entry → Fits x entry) :
    Remembers r Fits (.settled x) [] p where
  targets := by simp [Targets]
  written := by
    rintro entry ⟨o, hm, -⟩
    cases hm
  shared := h
  hidden := .inr rfl

omit [BEq κ] [LawfulBEq κ] in
theorem clear (h : Remembers r Fits b os p) (x : δ) :
    Remembers r Fits (b.withCurrent x) (os.clear r) p where
  targets := (goes_clear (U := (· = r)) (fun _ => False) rfl).targets h.targets
  written _ hw := absurd hw (not_writes_clear h.targets)
  shared := h.shared
  hidden := .inl (clears_clear h.targets)

theorem get_fits (h : Remembers r Fits b os p) {key : κ} {value : α}
    (hf : (os.get p r key).1 = some value) : Fits b.current (key, value) := by
  -- The shared cache is asked only while it is in sight, and then everything is durable.
  rcases get_found hf with hw | ⟨hs, hc⟩
  · exact h.written _ hw
  · rcases h.hidden with hh | hx
    · exact absurd (hc.symm.trans (hh.overlay h.targets)) Bool.false_ne_true
    · rw [(targets_overlay h.targets rfl).2] at hs
      exact hx ▸ h.shared _ hs

omit [LawfulBEq κ] in
theorem get (h : Remembers r Fits b os p) (key : κ) :
    Remembers r Fits b (os.get p r key).2.1 (os.get p r key).2.2 := by
  have hgoes : Goes (· = r) (fun _ => False) os (os.get p r key).2.1 :=
    goes_get (U := (· = r)) _ rfl p key
  exact ⟨hgoes.targets h.targets,
    fun entry hw => h.written entry ((hgoes.writes entry hw).resolve_right id),
    fun entry hs => h.shared entry (get_has hs), h.hidden.imp_left (hgoes.clears _)⟩

theorem put (h : Remembers r Fits b os p) {key : κ} {value : α} (hf : Fits b.current (key, value)) :
    Remembers r Fits b (os.put r key value) p := by
  have hgoes : Goes (· = r) (· = (key, value)) os (os.put r key value) :=
    goes_put (U := (· = r)) (P := (· = (key, value))) rfl rfl
  refine ⟨hgoes.targets h.targets, fun entry hw => ?_, h.shared, h.hidden.imp_left (hgoes.clears _)⟩
  rcases hgoes.writes entry hw with hw | rfl
  exacts [h.written entry hw, hf]

theorem commit (h : Remembers r Fits b os p) :
    Remembers r Fits (.settled b.current) (os.commit p).1 (os.commit p).2 where
  targets := targets_rollback h.targets
  written _ hw := absurd hw not_writes_rollback
  shared entry hs := by
    rcases has_commit hs with ⟨hs, hc⟩ | hw
    · exact (h.hidden.resolve_left hc) ▸ h.shared entry hs
    · exact h.written entry hw
  hidden := .inr rfl

omit [BEq κ] [LawfulBEq κ] in
theorem rollback (h : Remembers r Fits b os p) :
    Remembers r Fits (.settled b.durable) os.rollback p where
  targets := targets_rollback h.targets
  written _ hw := absurd hw not_writes_rollback
  shared := h.shared
  hidden := .inr rfl

end Remembers

end Overlays

-- ---------------------------------------------------------------------------
-- Offices
-- ---------------------------------------------------------------------------

/-- The results of a procedure that writes parameters are not kept, so it is not called where
they would be. -/
def Configuration.Refuses (c : Configuration) (s : Statement) (bound : BoundStatement) : Prop :=
  c.cachesEnabled = true ∧ s.cache.isSome = true ∧ s.usesCache = true ∧ s.kind = .callable ∧
    ∃ p ∈ bound.parameters, p.mode ≠ .input

/-- A driver that keeps books on a database, and what is configured for the executors on it. All
their statements share one cache. It is said which entries a cache may hold for a database. -/
structure Office (δ σ : Type) extends Station (Books δ) σ where
  change : δ → String → List Value → δ
  answer : δ → String → List Value → ResultSet
  configuration : Configuration
  cache : CacheRef
  Fits : δ → CacheKey × ResultSet → Prop

namespace Office

variable (o : Office δ σ)

abbrev engine : Engine (Books δ) :=
  Books.engine o.change o.answer

abbrev Works (b : Books δ) (l : Keyed CacheKey ResultSet) (w : Worker σ × Channel σ) : Prop :=
  Worker.Works o.driver o.engine o.Rep o.configuration.Generator o.type o.configuration b l w

abbrev Lost (c : Channel σ) : Prop :=
  Channel.Lost o.configuration.Generator c

structure Opens : Prop where
  serves : o.Serves o.engine
  uses : o.configuration.Uses (· = o.cache)

def Answers (key : CacheKey) (bound : BoundStatement) (bounds : RowBounds) : Prop :=
  ∀ x rows, o.Fits x (key, rows) ↔ ∃ values, bound.values o.configuration.handlers = .ok values ∧
    rows = (o.answer x bound.sql values).paginate bounds

end Office

-- ---------------------------------------------------------------------------
-- Executors
-- ---------------------------------------------------------------------------

theorem Worker.cacheKey_of_values {c : Configuration} (s : Statement) (bounds : RowBounds)
    {bound : BoundStatement} {values : List Value} (h : bound.values c.handlers = .ok values) :
    ∃ key, cacheKey c s bounds bound = .ok key := by
  have hread (p : Parameter) (hp : p ∈ bound.parameters.filter (·.mode != .output)) :
      ∃ a, bound.valueOf c.handlers p = .ok a := by
    obtain ⟨hm, hmode⟩ := List.mem_filter.mp hp
    obtain ⟨v, hv⟩ := exists_ok_of_mapM_ok h p hm
    obtain ⟨a, ha, -⟩ := BoundStatement.bind_ok_of_read (by simpa using hmode) hv
    exact ⟨a, ha⟩
  obtain ⟨as, has⟩ := exists_mapM_ok hread
  have hcomponents : parameterComponents c.handlers bound = .ok (as.map .ofArgument) :=
    bind_ok.mpr ⟨as, has, rfl⟩
  exact ⟨_, bind_ok.mpr ⟨_, hcomponents, rfl⟩⟩

namespace Executor

variable {o : Office δ σ} {b : Books δ} {y y' : Executor σ × World σ} {s : Statement}

def Recalls (o : Office δ σ) (b : Books δ) (y : Executor σ × World σ) : Prop :=
  ∀ os, y.1.overlays = some os → os.Remembers o.cache o.Fits b y.2.caches

structure Faithful (o : Office δ σ) (b : Books δ) (y : Executor σ × World σ) : Prop where
  works : ∃ l, o.Works b l (work y) ∧ ∀ entry ∈ l, o.Fits b.current entry
  overlays : y.1.overlays.isSome = o.configuration.cachesEnabled
  recalls : Recalls o b y

/-- The executor is still faithful, and where nothing waited for a batch, nothing does. -/
def Stays (o : Office δ σ) (b : Books δ) (y y' : Executor σ × World σ) : Prop :=
  Faithful o b y' ∧ (Worker.Idle (work y) → Worker.Idle (work y'))

theorem flushCacheFor_recalls (ho : o.Opens) {name : String}
    (hs : o.configuration.statement name = .ok s) (h : Recalls o b y)
    {E : Error → Executor σ × World σ → Prop} :
    Triple (flushCacheFor s) y (fun _ y' => work y' = work y ∧
      y'.1.overlays.isSome = y.1.overlays.isSome ∧ Recalls o b y' ∧
      (s.cache.isSome = true → s.flushesCache = true → ∀ x, Recalls o (b.withCurrent x) y')) E := by
  unfold flushCacheFor
  cases hc : s.cache with
  | none => exact .pure ⟨rfl, rfl, h, fun hn => by cases hn⟩
  | some r =>
    obtain rfl : r = o.cache := ho.uses name s hs r hc
    cases hf : s.flushesCache with
    | false => exact .pure ⟨rfl, rfl, h, fun _ hn => by cases hn⟩
    | true =>
      have hclear (x : δ) : Recalls o (b.withCurrent x)
          ({ y.1 with overlays := y.1.overlays.map (·.clear o.cache) }, y.2) := by
        rintro _ hmap
        obtain ⟨os, hos, rfl⟩ := Option.map_eq_some_iff.mp hmap
        exact (h os hos).clear x
      exact .modify ⟨rfl, Option.isSome_map, hclear b.current, fun _ _ => hclear⟩

theorem lookup_recalls (h : Recalls o b y) (key : CacheKey)
    {E : Error → Executor σ × World σ → Prop} :
    Triple (lookup o.cache key) y (fun found y' =>
      (∀ rows, found = some rows → o.Fits b.current (key, rows)) ∧ work y' = work y ∧
      y'.1.overlays.isSome = y.1.overlays.isSome ∧ Recalls o b y') E := by
  obtain ⟨e, w⟩ := y
  refine .modifyGet ?_
  cases ho : e.overlays with
  | none => simpa [ho] using h
  | some os =>
    have hr := h os ho
    have hfits (rows : ResultSet) (hf : (os.get w.caches o.cache key).1 = some rows) :
        o.Fits b.current (key, rows) := hr.get_fits hf
    have hget := hr.get key
    rcases hg : os.get w.caches o.cache key with ⟨found, os', caches⟩
    rw [hg] at hfits hget
    simp only [ho, hg]
    refine ⟨hfits, rfl, rfl, ?_⟩
    rintro _ hos
    cases hos
    exact hget

theorem Faithful.put (h : Faithful o b y) {key : CacheKey} {rows : ResultSet}
    (hf : o.Fits b.current (key, rows)) :
    Faithful o b ({ y.1 with overlays := y.1.overlays.map (·.put o.cache key rows) }, y.2) where
  works := h.works
  overlays := Option.isSome_map.trans h.overlays
  recalls := by
    rintro _ hmap
    obtain ⟨os, hos, rfl⟩ := Option.map_eq_some_iff.mp hmap
    exact (h.recalls os hos).put hf

theorem publish_recalls (h : Recalls o b y) {E : Error → Executor σ × World σ → Prop} :
    Triple publish y (fun _ y' => work y' = work y ∧
      y'.1.overlays.isSome = y.1.overlays.isSome ∧ Recalls o (.settled b.current) y') E := by
  obtain ⟨e, w⟩ := y
  refine .modify ?_
  cases ho : e.overlays with
  | none =>
    refine ⟨by simp only [ho], by simp only [ho], ?_⟩
    rintro os hos
    simp [ho] at hos
  | some os =>
    simp only [ho]
    refine ⟨rfl, rfl, ?_⟩
    rintro _ hos
    cases hos
    exact (h os ho).commit

theorem retract_recalls (h : Recalls o b y) {E : Error → Executor σ × World σ → Prop} :
    Triple retract y (fun _ y' => work y' = work y ∧
      y'.1.overlays.isSome = y.1.overlays.isSome ∧ Recalls o (.settled b.durable) y') E := by
  refine .modify ⟨rfl, Option.isSome_map, ?_⟩
  rintro _ hmap
  obtain ⟨os, hos, rfl⟩ := Option.map_eq_some_iff.mp hmap
  exact (h os hos).rollback

theorem Faithful.withWork {b' : Books δ} {l : Keyed CacheKey ResultSet} {x : Worker σ × Channel σ}
    (h : y.1.overlays.isSome = o.configuration.cachesEnabled) (hr : Recalls o b' y)
    (hw : o.Works b' l x) (hl : ∀ entry ∈ l, o.Fits b'.current entry) :
    Faithful o b' (withWork y x) :=
  ⟨⟨l, hw, hl⟩, h, hr⟩

/-- An update is applied to what the database is now. The cache that its results would make
stale is hidden before. -/
theorem update_faithful (ho : o.Opens) {name : String}
    (hs : o.configuration.statement name = .ok s) (hcache : s.cache.isSome = true)
    (hflush : s.flushesCache = true) (h : Faithful o b y) (argument : Argument) :
    Triple (update s argument) y
      (fun _ y' => ∃ i, Item.ofUpdate o.configuration.handlers s argument = .ok i ∧
        Faithful o (o.engine.update b i.sql i.values) y')
      (fun _ y' => Faithful o b y' ∨ o.Lost y'.2.toChannel) := by
  obtain ⟨l, hw, -⟩ := h.works
  refine .bind (flushCacheFor_recalls ho hs h.recalls) ?_
  rintro _ y₁ ⟨hwork, hsome, hr, hclear⟩
  have hoverlays := hsome.trans h.overlays
  rw [← hwork] at hw
  refine onWorker_ok (Worker.update_works ho.serves (fun generate hg => ⟨name, s, hs, rfl, hg⟩) hw)
    ?_ ?_
  · rintro _ x ⟨i, hi, hx⟩
    exact ⟨i, hi, .withWork hoverlays (hclear hcache hflush _) hx nofun⟩
  · rintro _ x (⟨-, hx⟩ | hl)
    · exact .inl (.withWork hoverlays hr hx nofun)
    · exact .inr hl

section
variable {l : Keyed CacheKey ResultSet} {x : δ}

theorem fits_left (hl : ∀ entry ∈ l, o.Fits x entry) (s : Statement) :
    ∀ entry ∈ Worker.left s l, o.Fits x entry := by
  unfold Worker.left
  split
  exacts [nofun, hl]

theorem fits_kept (hl : ∀ entry ∈ l, o.Fits x entry) {key : CacheKey} {rows : ResultSet}
    (hf : o.Fits x (key, rows)) :
    ∀ entry ∈ Worker.kept o.configuration l key rows, o.Fits x entry := by
  unfold Worker.kept
  split
  · exact nofun
  · intro entry hm
    rcases Keyed.mem_put hm with hm | rfl
    exacts [hl entry hm, hf]

end

/-- On its way from `y`, a query that goes on in `y₁` finds what `P` tells, and fails where it
tells nothing, or where a key generator fails. -/
def Finds (o : Office δ σ) (b : Books δ) (P : ResultSet → Prop) (a : Execute σ ResultSet)
    (y y₁ : Executor σ × World σ) : Prop :=
  Triple a y₁ (fun rows y' => P rows ∧ Stays o b y y')
    (fun _ y' => (∀ rows, ¬ P rows) ∧ Stays o b y y' ∨ o.Lost y'.2.toChannel)

namespace Finds

variable {P Q : ResultSet → Prop} {a : Execute σ ResultSet} {y₁ : Executor σ × World σ}

theorem congr (h : Finds o b P a y y₁) (hp : ∀ rows, P rows ↔ Q rows) : Finds o b Q a y y₁ := by
  obtain rfl : P = Q := funext fun rows => propext (hp rows)
  exact h

theorem after (h : Finds o b P a y₁ y₁) (hs : Stays o b y y₁) : Finds o b P a y y₁ := by
  refine Triple.mono h ?_ ?_
  · rintro rows y' ⟨hp, hy', hi⟩
    exact ⟨hp, hy', hi ∘ hs.2⟩
  · rintro e y' (⟨hn, hy', hi⟩ | hl)
    · exact .inl ⟨hn, hy', hi ∘ hs.2⟩
    · exact .inr hl

end Finds

variable {key : CacheKey} {bound : BoundStatement} {bounds : RowBounds}

theorem workerQuery_faithful (ho : o.Opens) (ha : o.Answers key bound bounds)
    (h : Faithful o b y) :
    Finds o b (fun rows => o.Fits b.current (key, rows))
      (onWorker (Worker.queryBound s bounds key bound)) y y := by
  obtain ⟨l, hw, hl⟩ := h.works
  have hleft := fits_left hl s
  cases hf : Keyed.get? (Worker.left s l) key with
  | some hit =>
    refine onWorker_ok (Worker.queryBound_found hw hf (E := fun _ _ => False)) ?_
      fun _ _ => False.elim
    rintro _ x ⟨rfl, hx, hi⟩
    exact ⟨hleft _ (Keyed.mem_of_get? hf), .withWork h.overlays h.recalls hx hleft, hi⟩
  | none =>
    refine onWorker_ok (Worker.queryBound_fetched Books.engine_folds ho.serves hw hf) ?_ ?_
    · rintro rows x ⟨values, hv, hrows, hx, hi⟩
      have hfits : o.Fits b.current (key, rows) := (ha _ _).mpr ⟨values, hv, hrows⟩
      exact ⟨hfits, .withWork h.overlays h.recalls hx (fits_kept hleft hfits), fun _ => hi⟩
    · rintro e x (⟨hv, hx, hi⟩ | hlost)
      · refine .inl ⟨fun rows hfits => ?_, .withWork h.overlays h.recalls hx hleft, fun _ => hi⟩
        obtain ⟨values, hok, -⟩ := (ha _ _).mp hfits
        cases hv.symm.trans hok
      · exact .inr hlost

theorem checkCacheable_ok {s : Statement} {bound : BoundStatement} :
    checkCacheable s bound = .ok () ↔
      ¬ (s.kind = .callable ∧ ∃ p ∈ bound.parameters, p.mode ≠ .input) := by
  simp [checkCacheable]

theorem queryBound_faithful (ho : o.Opens) {name : String}
    (hs : o.configuration.statement name = .ok s) (ha : o.Answers key bound bounds)
    (h : Faithful o b y) :
    Finds o b (fun rows => o.Fits b.current (key, rows) ∧ ¬ o.configuration.Refuses s bound)
      (queryBound s bounds key bound) y y := by
  have hworker (hn : ¬ o.configuration.Refuses s bound) {y₁ : Executor σ × World σ}
      (h₁ : Stays o b y y₁) :
      Finds o b (fun rows => o.Fits b.current (key, rows) ∧ ¬ o.configuration.Refuses s bound)
        (onWorker (Worker.queryBound s bounds key bound)) y y₁ :=
    ((workerQuery_faithful ho ha h₁.1).after h₁).congr fun _ => (and_iff_left hn).symm
  -- Only a statement with a cache that it uses goes through the overlays. All others ask the
  -- worker, which may have the result in its local cache.
  refine Triple.bind_get ?_
  by_cases hon : y.1.overlays.isSome = true
  · rw [if_pos hon]
    cases hc : s.cache with
    | none => exact hworker (fun hn => by simp [Configuration.Refuses, hc] at hn) ⟨h, id⟩
    | some r =>
      obtain rfl : r = o.cache := ho.uses name s hs r hc
      refine .bind (flushCacheFor_recalls ho hs h.recalls) ?_
      rintro _ y₁ ⟨hwork₁, hsome₁, hr₁, -⟩
      obtain ⟨l, hw, hl⟩ := h.works
      have h₁ : Stays o b y y₁ :=
        ⟨⟨⟨l, hwork₁ ▸ hw, hl⟩, hsome₁.trans h.overlays, hr₁⟩, fun hi => hwork₁ ▸ hi⟩
      cases hu : s.usesCache with
      | false => exact hworker (fun hn => by simp [Configuration.Refuses, hu] at hn) h₁
      | true =>
        refine .bind_ofExcept (fun _ hk => ?_) fun e hk => .inl ⟨fun rows hr => hr.2 ?_, h₁⟩
        · have hn : ¬ o.configuration.Refuses s bound := fun hn => checkCacheable_ok.mp hk hn.2.2.2
          refine .bind (lookup_recalls h₁.1.recalls key) ?_
          rintro found y₂ ⟨hfound, hwork₂, hsome₂, hr₂⟩
          have h₂ : Stays o b y y₂ :=
            ⟨⟨⟨l, hwork₂ ▸ hwork₁ ▸ hw, hl⟩, hsome₂.trans h₁.1.overlays, hr₂⟩,
              fun hi => hwork₂ ▸ hwork₁ ▸ hi⟩
          cases found with
          | some hit => exact .pure ⟨⟨hfound hit rfl, hn⟩, h₂⟩
          | none =>
            refine .bind (hworker hn h₂) ?_
            rintro rows y₃ ⟨⟨hf, -⟩, h₃⟩
            exact .bind_modify (.pure ⟨⟨hf, hn⟩, h₃.1.put hf, h₃.2⟩)
        · have hsome : s.cache.isSome = true := by rw [hc]; rfl
          refine ⟨h.overlays.symm.trans hon, hsome, hu, ?_⟩
          by_contra hno
          cases (checkCacheable_ok.mpr hno).symm.trans hk
  · rw [if_neg hon]
    exact hworker (fun hn => hon (h.overlays.trans hn.1)) ⟨h, id⟩

def Gives (o : Office δ σ) (s : Statement) (argument : Argument) (bounds : RowBounds) (x : δ)
    (rows : ResultSet) : Prop :=
  ∃ bound, s.bound argument = .ok bound ∧ ¬ o.configuration.Refuses s bound ∧
    ∃ values, bound.values o.configuration.handlers = .ok values ∧
      rows = (o.answer x bound.sql values).paginate bounds

theorem gives_iff {argument : Argument} {x : δ} {rows : ResultSet}
    (hb : s.bound argument = .ok bound) (ha : o.Answers key bound bounds) :
    Gives o s argument bounds x rows ↔
      o.Fits x (key, rows) ∧ ¬ o.configuration.Refuses s bound := by
  refine ⟨?_, fun ⟨hf, hn⟩ => ⟨bound, hb, hn, (ha x rows).mp hf⟩⟩
  rintro ⟨bound', hb', hn, hv⟩
  cases hb.symm.trans hb'
  exact ⟨(ha x rows).mpr hv, hn⟩

theorem query_faithful (ho : o.Opens) {name : String}
    (hs : o.configuration.statement name = .ok s) {argument : Argument} {bounds : RowBounds}
    (ha : ∀ bound key, s.bound argument = .ok bound →
      Worker.cacheKey o.configuration s bounds bound = .ok key → o.Answers key bound bounds)
    (h : Faithful o b y) :
    Finds o b (Gives o s argument bounds b.current) (query s argument bounds) y y := by
  refine Triple.bind_ofExcept (fun bound hb => ?_) fun e he => .inl ⟨?_, h, id⟩
  · obtain ⟨l, hw, -⟩ := h.works
    refine .bind (P := fun key y' => Worker.cacheKey o.configuration s bounds bound = .ok key ∧
      y' = y) (onWorker_ok (P := fun key x => Worker.cacheKey o.configuration s bounds bound =
        .ok key ∧ x = work y) (F := fun e x => Worker.cacheKey o.configuration s bounds bound =
        .error e ∧ x = work y) ?_ ?_ ?_) ?_
    · refine hw.bind_ensureOpen (Worker.bind_current ?_)
      rw [hw.configuration]
      exact .ofExcept (fun _ hk => ⟨hk, rfl⟩) fun _ hk => ⟨hk, rfl⟩
    · rintro key _ ⟨hk, rfl⟩
      exact ⟨hk, rfl⟩
    · rintro e _ ⟨hk, rfl⟩
      refine .inl ⟨?_, h, id⟩
      rintro rows ⟨bound', hb', -, values, hv, -⟩
      cases hb.symm.trans hb'
      obtain ⟨key, hk'⟩ := Worker.cacheKey_of_values s bounds hv
      cases hk.symm.trans hk'
    · rintro key _ ⟨hk, rfl⟩
      have hq := ha bound key hb hk
      exact (queryBound_faithful ho hs hq h).congr fun _ => (gives_iff hb hq).symm
  · rintro rows ⟨bound, hb, -⟩
    cases he.symm.trans hb

theorem handOut_faithful (ho : o.Opens) {name : String}
    (hs : o.configuration.statement name = .ok s) (h : Faithful o b y) (argument : Argument)
    (bounds : RowBounds) (enough : Nat → Row → Bool) :
    Triple (handOut s argument bounds enough) y (fun _ y' => Stays o b y y')
      (fun _ y' => Stays o b y y' ∨ o.Lost y'.2.toChannel) := by
  obtain ⟨l, hw, hl⟩ := h.works
  refine .bind (flushCacheFor_recalls ho hs h.recalls) ?_
  rintro _ y₁ ⟨hwork, hsome, hr, -⟩
  have hleft := fits_left hl s
  have hoverlays := hsome.trans h.overlays
  rw [← hwork] at hw
  refine onWorker_ok (Worker.handOut_works Books.engine_folds ho.serves hw) ?_ ?_
  · rintro _ x ⟨i, -, -, hx, hi⟩
    exact ⟨.withWork hoverlays hr hx hleft, fun _ => hi⟩
  · rintro _ x (⟨-, hx, hi⟩ | hlost)
    · exact .inl ⟨.withWork hoverlays hr hx hleft, fun hidle => hi (hwork ▸ hidle)⟩
    · exact .inr hlost

theorem flush_faithful (ho : o.Opens) (h : Faithful o b y) :
    Triple flush y (fun _ y' => Faithful o b y' ∧ Worker.Idle (work y'))
      (fun _ y' => o.Lost y'.2.toChannel) := by
  obtain ⟨l, hw, hl⟩ := h.works
  exact onWorker_ok (Worker.flush_works Books.engine_folds ho.serves hw)
    (fun _ _ ⟨hx, hi⟩ => ⟨.withWork h.overlays h.recalls hx hl, hi⟩) fun _ _ => id

theorem commit_faithful (ho : o.Opens) (h : Faithful o b y) {required : Bool}
    (hb : required = false → b.current = b.durable) :
    Triple (commit required) y
      (fun _ y' => Faithful o (.settled b.current) y' ∧ Worker.Idle (work y'))
      (fun _ y' => o.Lost y'.2.toChannel) := by
  obtain ⟨l, hw, -⟩ := h.works
  have hsettled : (if required then o.engine.commit b else b) = .settled b.current := by
    cases required with
    | true => rfl
    | false =>
      rw [hb rfl]
      exact Books.eq_settled (hb rfl)
  refine .bind (onWorker_ok (Worker.commit_works Books.engine_folds ho.serves required hw)
    (Q := fun _ y' => (o.Works (.settled b.current) [] (work y') ∧ Worker.Idle (work y')) ∧
      y'.1.overlays.isSome = o.configuration.cachesEnabled ∧ Recalls o b y')
    (fun _ _ hx => ⟨hsettled ▸ hx, h.overlays, h.recalls⟩) fun _ _ => id) ?_
  rintro _ y₁ ⟨⟨hw₁, hi⟩, hoverlays, hr⟩
  refine (publish_recalls hr).mono ?_ fun _ _ => id
  rintro _ y₂ ⟨hwork, hsome, hr₂⟩
  exact ⟨⟨⟨[], hwork ▸ hw₁, nofun⟩, hsome.trans hoverlays, hr₂⟩, hwork ▸ hi⟩

theorem rolledBack_eq {required : Bool} {x : Books δ} {items : List Item}
    {w : Worker σ × Channel σ} (hx : o.engine.updateAll x items = b)
    (hi : Worker.Idle w → items = [])
    (hb : required = false → Worker.Idle w ∧ b.current = b.durable) :
    (if required then o.engine.rollback x else x) = .settled b.durable := by
  have hdurable : x.durable = b.durable := by rw [← hx, Books.durable_updateAll]
  cases required with
  | true => exact congrArg Books.settled hdurable
  | false =>
    obtain ⟨hidle, hc⟩ := hb rfl
    rw [hi hidle] at hx
    exact Eq.trans hx (Books.eq_settled hc)

theorem rollback_faithful (ho : o.Opens) (h : Faithful o b y) {required : Bool}
    (hb : required = false → Worker.Idle (work y) ∧ b.current = b.durable)
    {E : Error → Executor σ × World σ → Prop} :
    Triple (rollback required) y
      (fun _ y' => Faithful o (.settled b.durable) y' ∧ Worker.Idle (work y')) E := by
  obtain ⟨l, hw, -⟩ := h.works
  refine .bind_attempt (P := fun _ y' =>
    (o.Works (.settled b.durable) [] (work y') ∧ Worker.Idle (work y')) ∧
    y'.1.overlays.isSome = o.configuration.cachesEnabled ∧ Recalls o b y')
    (onWorker_ok (Worker.rollback_works ho.serves required hw (E := fun _ _ => False)) ?_
      fun _ _ => False.elim) ?_ fun _ _ => False.elim
  · rintro _ x ⟨x₀, items, hx, hi, hw, hidle⟩
    exact ⟨⟨rolledBack_eq hx hi hb ▸ hw, hidle⟩, h.overlays, h.recalls⟩
  rintro _ y₁ ⟨⟨hw₁, hi⟩, hoverlays, hr⟩
  cases required with
  | true =>
    refine .bind (retract_recalls hr) ?_
    rintro _ y₂ ⟨hwork, hsome, hr₂⟩
    exact .pure ⟨⟨⟨[], hwork ▸ hw₁, nofun⟩, hsome.trans hoverlays, hr₂⟩, hwork ▸ hi⟩
  | false =>
    have hsettled := Books.eq_settled (hb rfl).2
    exact .pure ⟨⟨⟨[], hw₁, nofun⟩, hoverlays, hsettled ▸ hr⟩, hi⟩

theorem clearLocalCache_faithful (h : Faithful o b y) {E : Error → Executor σ × World σ → Prop} :
    Triple clearLocalCache y (fun _ y' => Stays o b y y') E := by
  obtain ⟨l, hw, -⟩ := h.works
  exact onWorker_ok (Worker.clearLocalCache_works hw (E := fun _ _ => False))
    (fun _ _ ⟨hx, hi⟩ => ⟨.withWork h.overlays h.recalls hx nofun, hi⟩) fun _ _ => False.elim

structure Shut (o : Office δ σ) (x : δ) (y : Executor σ × World σ) : Prop where
  configuration : y.1.worker.configuration = o.configuration
  isClosed : y.1.isClosed = true
  overlays : y.1.overlays.isSome = o.configuration.cachesEnabled
  shows : y.2.toChannel.Shows o.Rep (.settled x)
  recalls : Recalls o (.settled x) y

theorem close_shut (ho : o.Opens) (h : Faithful o b y) {force : Bool}
    (hb : force = false → Worker.Idle (work y) ∧ b.current = b.durable)
    {E : Error → Executor σ × World σ → Prop} :
    Triple (close force) y (fun _ y' => Shut o b.durable y') E := by
  obtain ⟨l, hw, -⟩ := h.works
  have hworker (y₁ : Executor σ × World σ) (hwork : work y₁ = work y)
      (hsome : y₁.1.overlays.isSome = y.1.overlays.isSome)
      (hr : Recalls o (.settled b.durable) y₁) :
      Triple (onWorker (Worker.close force)) y₁ (fun _ y' => Shut o b.durable y') E := by
    rw [← hwork] at hw hb
    refine onWorker_ok (Worker.close_works ho.serves force hw (E := fun _ _ => False)) ?_
      fun _ _ => False.elim
    rintro _ x ⟨x₀, items, hx, hi, hc, hclosed, hshows⟩
    exact ⟨hc, hclosed, hsome.trans h.overlays, rolledBack_eq hx hi hb ▸ hshows, hr⟩
  -- An executor that is not forced publishes its overlays, but then everything is durable.
  cases force with
  | true =>
    refine .bind (retract_recalls h.recalls) ?_
    rintro _ y₁ ⟨hwork, hsome, hr⟩
    exact hworker y₁ hwork hsome hr
  | false =>
    refine .bind (publish_recalls h.recalls) ?_
    rintro _ y₁ ⟨hwork, hsome, hr⟩
    exact hworker y₁ hwork hsome ((hb rfl).2 ▸ hr)

end Executor

-- ---------------------------------------------------------------------------
-- Closed executors
-- ---------------------------------------------------------------------------

namespace Executor

variable {o : Office δ σ} {x : δ} {y y' : Executor σ × World σ} {s : Statement}

namespace Shut

theorem of_work (h : Shut o x y) (hw : work y' = work y)
    (hs : y'.1.overlays.isSome = y.1.overlays.isSome) (hr : Recalls o (.settled x) y') :
    Shut o x y' := by
  have hworker : y'.1.worker = y.1.worker := congrArg Prod.fst hw
  have hchannel : y'.2.toChannel = y.2.toChannel := congrArg Prod.snd hw
  refine ⟨hworker ▸ h.configuration, ?_, hs.trans h.overlays, hchannel ▸ h.shows, hr⟩
  exact (congrArg Worker.isClosed hworker).trans h.isClosed

theorem refused {f : Unit → Work σ α} (h : Shut o x y) :
    Triple (onWorker (Worker.ensureOpen >>= f)) y (fun _ _ => False) fun _ => Shut o x := by
  refine onWorker_ok (P := fun _ _ => False) (F := fun _ w => w = work y) ?_ (fun _ _ => id) ?_
  · exact Worker.bind_ensureOpen
      (fun ho => absurd (ho.symm.trans h.isClosed) Bool.false_ne_true) fun _ => rfl
  · rintro _ _ rfl
    exact h

theorem leaves {a : Work σ Unit} (h : Shut o x y) {E : Error → Executor σ × World σ → Prop} :
    Triple (onWorker (do unless (← Worker.current).isClosed do a)) y (fun _ => Shut o x) E := by
  refine onWorker_ok (P := fun _ w => w = work y) (F := fun _ _ => False)
    (Worker.bind_current ?_) ?_ fun _ _ => False.elim
  · rw [show (work y).1.isClosed = true from h.isClosed]
    exact .pure rfl
  · rintro _ _ rfl
    exact h

theorem query (h : Shut o x y) (argument : Argument) (bounds : RowBounds) :
    Triple (Executor.query s argument bounds) y (fun _ _ => False) fun _ => Shut o x :=
  .bind_ofExcept (fun _ _ => .bind h.refused fun _ _ => False.elim) fun _ _ => h

theorem flushCacheFor (ho : o.Opens) {name : String}
    (hs : o.configuration.statement name = .ok s) (h : Shut o x y)
    {E : Error → Executor σ × World σ → Prop} :
    Triple (Executor.flushCacheFor s) y (fun _ => Shut o x) E :=
  (flushCacheFor_recalls ho hs h.recalls (E := fun _ _ => False)).mono
    (fun _ _ ⟨hw, hs, hr, _⟩ => h.of_work hw hs hr) fun _ _ => False.elim

theorem update (ho : o.Opens) {name : String} (hs : o.configuration.statement name = .ok s)
    (h : Shut o x y) (argument : Argument) :
    Triple (Executor.update s argument) y (fun _ _ => False) fun _ => Shut o x :=
  .bind (h.flushCacheFor ho hs) fun _ _ h₁ => h₁.refused

theorem handOut (ho : o.Opens) {name : String} (hs : o.configuration.statement name = .ok s)
    (h : Shut o x y) (argument : Argument) (bounds : RowBounds) (enough : Nat → Row → Bool) :
    Triple (Executor.handOut s argument bounds enough) y (fun _ _ => False) fun _ => Shut o x :=
  .bind (h.flushCacheFor ho hs) fun _ _ h₁ => h₁.refused

theorem publish (h : Shut o x y) {E : Error → Executor σ × World σ → Prop} :
    Triple Executor.publish y (fun _ => Shut o x) E :=
  (publish_recalls h.recalls (E := fun _ _ => False)).mono
    (fun _ _ ⟨hw, hs, hr⟩ => h.of_work hw hs hr) fun _ _ => False.elim

theorem retract (h : Shut o x y) {E : Error → Executor σ × World σ → Prop} :
    Triple Executor.retract y (fun _ => Shut o x) E :=
  (retract_recalls h.recalls (E := fun _ _ => False)).mono
    (fun _ _ ⟨hw, hs, hr⟩ => h.of_work hw hs hr) fun _ _ => False.elim

theorem rollback (h : Shut o x y) (required : Bool) :
    Triple (Executor.rollback required) y (fun _ => Shut o x) fun _ => Shut o x := by
  refine .bind (.attempt (Q := fun _ => Shut o x) h.leaves) fun r y₁ h₁ => ?_
  cases required with
  | true => exact .bind h₁.retract fun _ _ h₂ => .ofExcept (fun _ _ => h₂) fun _ _ => h₂
  | false => exact .ofExcept (fun _ _ => h₁) fun _ _ => h₁

theorem close (h : Shut o x y) (force : Bool) {E : Error → Executor σ × World σ → Prop} :
    Triple (Executor.close force) y (fun _ => Shut o x) E := by
  cases force with
  | true => exact .bind h.retract fun _ _ h₁ => h₁.leaves
  | false => exact .bind h.publish fun _ _ h₁ => h₁.leaves

end Shut

end Executor

end MappedSql
