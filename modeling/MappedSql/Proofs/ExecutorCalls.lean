import MappedSql.Proofs.OverlayContent
import MappedSql.Proofs.WorkerCalls

/-!
# What executors do

What each call of an executor makes of the results that it holds, in its local cache and in its
overlays, and of the shared caches. A result that comes to be held was held before or has just
been fetched, so what an executor finds in a shared cache it does not keep. Only a commit and a
close that is not forced put anything into a shared cache, and that is what the overlays held.
-/

namespace MappedSql

open Ledger

variable {σ α : Type} {j : Nat} {U : CacheRef → Prop} {d : Driver σ}

instance [Booked σ] : Booked (World σ) := ⟨fun w => ledger w.toChannel⟩

namespace Executor

def Writes (e : Executor σ) (entry : CacheKey × ResultSet) : Prop :=
  ∃ os, e.overlays = some os ∧ os.Writes entry

def Holds (e : Executor σ) (entry : CacheKey × ResultSet) : Prop :=
  entry ∈ e.worker.localCache ∨ e.Writes entry

def Clears (e : Executor σ) (i : Nat) : Prop :=
  ∃ os, e.overlays = some os ∧ os.Clears i

def Targets (U : CacheRef → Prop) (e : Executor σ) : Prop :=
  ∀ os, e.overlays = some os → os.Targets U

variable {y y' y'' : Executor (Ledgered σ) × World (Ledgered σ)}

/-- What a call makes of overlays and caches as long as it publishes nothing and gives nothing
up. -/
structure Keeps (j : Nat) (U : CacheRef → Prop)
    (y y' : Executor (Ledgered σ) × World (Ledgered σ)) : Prop where
  writes : Worker.Tidy j (work y) → ∀ entry, y'.1.Writes entry →
    y.1.Holds entry ∨ Fetched j (ledger y) entry.2 (ledger y')
  closed : y.1.isClosed = true → ∀ entry, y'.1.Writes entry → y.1.Writes entry
  shared : ∀ i entry, y'.2.caches.Has i entry → y.2.caches.Has i entry
  caching : y'.1.overlays.isSome = y.1.overlays.isSome
  clears : ∀ i, y.1.Clears i → y'.1.Clears i
  targets : y.1.Targets U → y'.1.Targets U

structure Calls (j : Nat) (U : CacheRef → Prop)
    (y y' : Executor (Ledgered σ) × World (Ledgered σ)) : Prop extends Keeps j U y y' where
  worker : Worker.Calls j (work y) (work y')

structure Asks (j : Nat) (U : CacheRef → Prop)
    (y y' : Executor (Ledgered σ) × World (Ledgered σ)) : Prop extends Calls j U y y' where
  rests : Worker.Rests j (work y) → Worker.Rests j (work y')

instance : IsPreorder (Executor (Ledgered σ) × World (Ledgered σ)) (Calls j U) where
  refl _ :=
    ⟨⟨fun _ _ => .inl ∘ .inr, fun _ _ => id, fun _ _ => id, rfl, fun _ => id, id⟩, refl_of _ _⟩
  trans y y' y'' h h' :=
    { writes := fun ht entry hw => by
        rcases h'.writes (h.worker.tidy ht) entry hw with (hl | hw) | hf
        · exact (h.worker.kept ht entry hl).imp .inl (·.trans h'.worker.works)
        · exact (h.writes ht entry hw).imp_right (·.trans h'.worker.works)
        · exact .inr (.of_works h.worker.works hf)
      closed := fun hc entry hw =>
        h.closed hc entry (h'.closed (h.worker.isClosed_eq.trans hc) entry hw)
      shared := fun i entry hs => h.shared i entry (h'.shared i entry hs)
      caching := h'.caching.trans h.caching
      clears := fun i hc => h'.clears i (h.clears i hc)
      targets := h'.targets ∘ h.targets
      worker := trans_of _ h.worker h'.worker }

instance : IsPreorder (Executor (Ledgered σ) × World (Ledgered σ)) (Asks j U) where
  refl _ := ⟨refl_of _ _, id⟩
  trans _ _ _ h h' := ⟨trans_of (Calls j U) h.toCalls h'.toCalls, h'.rests ∘ h.rests⟩

-- ---------------------------------------------------------------------------
-- Rules for the parts of calls
-- ---------------------------------------------------------------------------

section
variable {Q : α → Executor (Ledgered σ) × World (Ledgered σ) → Prop}
  {E : Error → Executor (Ledgered σ) × World (Ledgered σ) → Prop}

theorem calls_withWork {x : Worker (Ledgered σ) × Channel (Ledgered σ)}
    (h : Worker.Calls j (work y) x) : Calls j U y (withWork y x) where
  writes _ _ hw := .inl (.inr hw)
  closed _ _ := id
  shared _ _ := id
  caching := rfl
  clears _ := id
  targets := id
  worker := h

theorem asks_withWork {x : Worker (Ledgered σ) × Channel (Ledgered σ)}
    (h : Worker.Asks j (work y) x) : Asks j U y (withWork y x) :=
  ⟨calls_withWork h.toCalls, h.rests⟩

def withOverlays (y : Executor (Ledgered σ) × World (Ledgered σ))
    (f : Overlays CacheKey ResultSet → Overlays CacheKey ResultSet) :
    Executor (Ledgered σ) × World (Ledgered σ) :=
  ({ y.1 with overlays := y.1.overlays.map f }, y.2)

theorem Asks.withOverlays {P : CacheKey × ResultSet → Prop} (h : Asks j U y y')
    {f : Overlays CacheKey ResultSet → Overlays CacheKey ResultSet}
    (hf : ∀ os, Overlays.Goes U P os (f os)) (hc : ∀ entry, P entry → y.1.isClosed = false)
    (hP : Worker.Tidy j (work y) → ∀ entry, P entry →
      y.1.Holds entry ∨ Fetched j (ledger y) entry.2 (ledger y')) :
    Asks j U y (withOverlays y' f) where
  writes := by
    rintro ht entry ⟨_, ho, hw⟩
    obtain ⟨os, hos, rfl⟩ := Option.map_eq_some_iff.mp ho
    rcases (hf os).writes entry hw with hw | hp
    · exact h.writes ht entry ⟨os, hos, hw⟩
    · exact hP ht entry hp
  closed := by
    rintro hclosed entry ⟨_, ho, hw⟩
    obtain ⟨os, hos, rfl⟩ := Option.map_eq_some_iff.mp ho
    rcases (hf os).writes entry hw with hw | hp
    · exact h.closed hclosed entry ⟨os, hos, hw⟩
    · exact absurd ((hc entry hp).symm.trans hclosed) Bool.false_ne_true
  shared := h.shared
  caching := Option.isSome_map.trans h.caching
  clears i hi := by
    obtain ⟨os, hos, ho⟩ := h.clears i hi
    exact ⟨f os, congrArg (Option.map f) hos, (hf os).clears i ho⟩
  targets ht := by
    rintro _ ho
    obtain ⟨os, hos, rfl⟩ := Option.map_eq_some_iff.mp ho
    exact (hf os).targets (h.targets ht os hos)
  worker := h.worker
  rests := h.rests

/-- A statement that flushes its cache leaves nothing that the overlays wrote, where they are
all for that cache, and the cache cleared. -/
def Flushed (s : Statement) (e e' : Executor (Ledgered σ)) : Prop :=
  ∀ r, s.cache = some r → s.flushesCache = true → e.overlays.isSome = true → e.Targets (· = r) →
    (∀ entry, ¬ e'.Writes entry) ∧ e'.Clears r.index

theorem bind_flushCacheFor {s : Statement} (hU : ∀ r, s.cache = some r → U r)
    {f : Unit → Execute (Ledgered σ) α}
    (h : ∀ y', Asks j U y y' → Flushed s y.1 y'.1 → Triple (f ()) y' Q E) :
    Triple (flushCacheFor s >>= f) y Q E := by
  unfold flushCacheFor
  cases hs : s.cache with
  | none =>
    exact h y (refl_of _ y) fun r hr => absurd (hs.symm.trans hr) (Option.some_ne_none r).symm
  | some r =>
    cases hf : s.flushesCache with
    | false => exact h y (refl_of _ y) fun _ _ ht => absurd (hf.symm.trans ht) Bool.false_ne_true
    | true =>
      refine .bind_modify (h _ ((refl_of (Asks j U) y).withOverlays (P := fun _ => False)
        (fun os => Overlays.goes_clear _ (hU r hs)) (fun _ => False.elim) fun _ _ => False.elim) ?_)
      intro q hq _ hsome ht
      cases hs.symm.trans hq
      obtain ⟨os, hos⟩ := Option.isSome_iff_exists.mp hsome
      refine ⟨?_, os.clear r, congrArg (Option.map (·.clear r)) hos,
        Overlays.clears_clear (ht os hos)⟩
      rintro entry ⟨_, ho, hw⟩
      obtain ⟨os', hos', rfl⟩ := Option.map_eq_some_iff.mp ho
      exact Overlays.not_writes_clear (ht os' hos') hw

/-- A result that an executor held, or has fetched, or has found in a shared cache. -/
def Answer (j : Nat) (U : CacheRef → Prop) (y : Executor (Ledgered σ) × World (Ledgered σ))
    (entry : CacheKey × ResultSet) (l' : Ledger) : Prop :=
  y.1.Holds entry ∨ Fetched j (ledger y) entry.2 l' ∨
    ∃ r : CacheRef, (y.1.Targets U → U r) ∧ y.2.caches.Has r.index entry

theorem Answer.of_asks {entry : CacheKey × ResultSet} {l' : Ledger} (h : Asks j U y y')
    (ht : Worker.Tidy j (work y)) (hl : Works j (ledger y') l') (ha : Answer j U y' entry l') :
    Answer j U y entry l' := by
  have hfetched (hf : Fetched j (ledger y) entry.2 (ledger y')) : Answer j U y entry l' :=
    .inr (.inl (hf.trans hl))
  rcases ha with (hk | hw) | hf | ⟨r, hr, hs⟩
  · exact (h.worker.kept ht entry hk).elim (fun hk => .inl (.inl hk)) hfetched
  · exact (h.writes ht entry hw).elim .inl hfetched
  · exact .inr (.inl (.of_works h.worker.works hf))
  · exact .inr (.inr ⟨r, fun hu => hr (h.targets hu), h.shared _ _ hs⟩)

theorem bind_lookup {r : CacheRef} {key : CacheKey} (hr : U r)
    {f : Option ResultSet → Execute (Ledgered σ) α}
    (h : ∀ found y', Asks j U y y' →
      (∀ rows, found = some rows → Answer j U y (key, rows) (ledger y')) →
        Triple (f found) y' Q E) :
    Triple (lookup r key >>= f) y Q E := by
  obtain ⟨e, w⟩ := y
  refine .bind (P := fun found y' => Asks j U (e, w) y' ∧
    ∀ rows, found = some rows → Answer j U (e, w) (key, rows) (ledger y')) (.modifyGet ?_)
    fun found y' hy => h found y' hy.1 hy.2
  cases ho : e.overlays with
  | none => simpa only [ho] using ⟨refl_of (Asks j U) (e, w), fun _ => nofun⟩
  | some os =>
    have hgoes : Overlays.Goes U (fun _ => False) os (os.get w.caches r key).2.1 :=
      Overlays.goes_get _ hr w.caches key
    have hfound (rows : ResultSet) (h : (os.get w.caches r key).1 = some rows) :
        Answer j U (e, w) (key, rows) (ledger w) :=
      (Overlays.get_found h).elim (fun hw => .inl (.inr ⟨os, ho, hw⟩)) fun hs =>
        .inr (.inr ⟨_, fun hu => (Overlays.targets_overlay (hu os ho) hr).2, hs.1⟩)
    have hshared (i : Nat) (entry : CacheKey × ResultSet)
        (h : (os.get w.caches r key).2.2.Has i entry) : w.caches.Has i entry := Overlays.get_has h
    rcases hg : os.get w.caches r key with ⟨found, os', caches⟩
    rw [hg] at hgoes hfound hshared
    simp only [ho, hg]
    have hsome := (congrArg Option.isSome ho).symm
    refine ⟨⟨⟨⟨?_, ?_, hshared, hsome, ?_, ?_⟩, refl_of _ _⟩, id⟩, hfound⟩
    · rintro _ entry ⟨_, hos, hw⟩
      cases Option.some.inj hos
      exact (hgoes.writes entry hw).elim (fun hw => .inl (.inr ⟨os, ho, hw⟩)) False.elim
    · rintro _ entry ⟨_, hos, hw⟩
      cases Option.some.inj hos
      exact (hgoes.writes entry hw).elim (fun hw => ⟨os, ho, hw⟩) False.elim
    · rintro i ⟨_, hos, hc⟩
      cases ho.symm.trans hos
      exact ⟨os', rfl, hgoes.clears i hc⟩
    · rintro hu _ hos
      cases Option.some.inj hos
      exact hgoes.targets (hu os ho)

end

-- ---------------------------------------------------------------------------
-- Calls
-- ---------------------------------------------------------------------------

theorem queryBound_ok (hd : y.1.worker.transaction.driver = d.ledgered j)
    (ho : y.1.isClosed = false) {s : Statement} (hU : ∀ r, s.cache = some r → U r)
    (bounds : RowBounds) (key : CacheKey) (bound : BoundStatement) :
    Triple (queryBound s bounds key bound) y
      (fun rows y' => Asks j U y y' ∧
        (Worker.Tidy j (work y) → Answer j U y (key, rows) (ledger y')))
      (fun _ y' => Asks j U y y') := by
  have hworker (y₁ : Executor (Ledgered σ) × World (Ledgered σ)) (h₁ : Asks j U y y₁) :
      Triple (onWorker (Worker.queryBound s bounds key bound)) y₁
        (fun rows y' => Asks j U y y' ∧
          (Worker.Tidy j (work y) → Answer j U y (key, rows) (ledger y')) ∧
          (Worker.Tidy j (work y) →
            y.1.Holds (key, rows) ∨ Fetched j (ledger y) rows (ledger y')))
        (fun _ y' => Asks j U y y') := by
    refine onWorker_ok (Worker.queryBound_ok (h₁.worker.transaction ▸ hd) s bounds key bound)
      (fun rows x hx => ?_) fun _ x hx => trans_of _ h₁ (asks_withWork hx)
    have hk (ht : Worker.Tidy j (work y)) :
        y.1.Holds (key, rows) ∨ Fetched j (ledger y) rows (ledger x) := by
      rcases hx.2 (h₁.worker.tidy ht) with hl | hf
      · exact (h₁.worker.kept ht _ hl).imp .inl (·.trans hx.1.works)
      · exact .inr (.of_works h₁.worker.works hf)
    exact ⟨trans_of _ h₁ (asks_withWork hx.1), fun ht => (hk ht).imp_right .inl, hk⟩
  have hplain (y₁ : Executor (Ledgered σ) × World (Ledgered σ)) (h₁ : Asks j U y y₁) :
      Triple (onWorker (Worker.queryBound s bounds key bound)) y₁
        (fun rows y' => Asks j U y y' ∧
          (Worker.Tidy j (work y) → Answer j U y (key, rows) (ledger y')))
        (fun _ y' => Asks j U y y') :=
    (hworker y₁ h₁).mono (fun _ _ h => ⟨h.1, h.2.1⟩) fun _ _ => id
  refine .bind_get ?_
  cases hc : (if y.1.overlays.isSome = true then s.cache else none) with
  | none => exact hplain y (refl_of _ y)
  | some r =>
    have hs : s.cache = some r := by
      split at hc
      exacts [hc, absurd hc.symm (Option.some_ne_none r)]
    refine bind_flushCacheFor (j := j) hU fun y₁ h₁ _ => ?_
    split
    · refine .bind_ofExcept (fun _ _ => ?_) fun _ _ => h₁
      refine bind_lookup (j := j) (hU r hs) fun found y₂ h₂ hfound => ?_
      have h := trans_of (Asks j U) h₁ h₂
      cases found with
      | some hit =>
        exact .pure ⟨h, fun ht => (hfound hit rfl).of_asks h₁ ht h₂.worker.works⟩
      | none =>
        refine .bind (hworker y₂ h) ?_
        rintro rows y₃ ⟨h₃, ha, hk⟩
        refine .bind_modify (.pure ⟨?_, ha⟩)
        exact h₃.withOverlays (P := fun entry => entry = (key, rows))
          (fun os => Overlays.goes_put rfl (hU r hs)) (fun _ _ => ho) fun ht _ he => he ▸ hk ht
    · exact hplain y₁ h₁

theorem query_ok (hd : y.1.worker.transaction.driver = d.ledgered j) {s : Statement}
    (hU : ∀ r, s.cache = some r → U r) (argument : Argument) (bounds : RowBounds) :
    Triple (query s argument bounds) y
      (fun rows y' => Asks j U y y' ∧ (Worker.Tidy j (work y) →
        ∃ key, Answer j U y (key, rows) (ledger y')))
      (fun _ y' => Asks j U y y') := by
  have hsame : Asks j U y y := refl_of _ y
  refine .bind_ofExcept (fun bound _ => ?_) fun _ _ => hsame
  refine .bind (P := fun _ y' => y' = y ∧ y.1.isClosed = false) (onWorker_ok
    (P := fun _ x => x = work y ∧ y.1.isClosed = false) (F := fun _ x => x = work y) ?_ ?_ ?_) ?_
  · refine Worker.bind_ensureOpen (fun ho => Worker.bind_current ?_) fun _ => rfl
    exact .ofExcept (fun _ _ => ⟨rfl, ho⟩) fun _ _ => rfl
  · rintro _ _ ⟨rfl, ho⟩
    exact ⟨rfl, ho⟩
  · rintro _ _ rfl
    exact hsame
  · rintro key _ ⟨rfl, ho⟩
    exact (queryBound_ok hd ho hU bounds key bound).mono
      (fun _ _ h => ⟨h.1, fun ht => ⟨key, h.2 ht⟩⟩) fun _ _ => id

theorem handOut_ok (hd : y.1.worker.transaction.driver = d.ledgered j) {s : Statement}
    (hU : ∀ r, s.cache = some r → U r) (argument : Argument) (bounds : RowBounds)
    (enough : Nat → Row → Bool) :
    Triple (handOut s argument bounds enough) y
      (fun handed y' => Asks j U y y' ∧ (Worker.Tidy j (work y) → ∃ rows,
        handed = ResultSet.handOut enough 0 rows.rows ∧ Fetched j (ledger y) rows (ledger y')))
      (fun _ y' => Asks j U y y') := by
  refine bind_flushCacheFor (j := j) hU fun y₁ h₁ _ => ?_
  refine onWorker_ok (Worker.handOut_ok (h₁.worker.transaction ▸ hd) s argument bounds enough)
    (fun handed x hx => ⟨trans_of _ h₁ (asks_withWork hx.1), fun ht => ?_⟩)
    fun _ _ hx => trans_of _ h₁ (asks_withWork hx)
  obtain ⟨rows, hrows, hf⟩ := hx.2 (h₁.worker.tidy ht)
  exact ⟨rows, hrows, .of_works h₁.worker.works hf⟩

theorem flush_asks (hd : y.1.worker.transaction.driver = d.ledgered j) :
    Triple flush y (fun _ => Asks j U y) (fun _ => Asks j U y) :=
  onWorker_ok (Worker.flush_ok hd) (fun _ _ hx => asks_withWork hx.1) fun _ _ => asks_withWork

theorem clearLocalCache_asks :
    (clearLocalCache : Execute (Ledgered σ) Unit).Respects (Asks j U) :=
  .of_triple fun y => onWorker_ok (Worker.clearLocalCache_asks.triple (work y))
    (fun _ _ => asks_withWork) fun _ _ => asks_withWork

structure Updates (j : Nat) (U : CacheRef → Prop) (s : Statement)
    (y y' : Executor (Ledgered σ) × World (Ledgered σ)) : Prop extends Calls j U y y' where
  forgets : y.1.isClosed = false → y'.1.worker.localCache = []
  flushed : Flushed s y.1 y'.1

theorem update_ok (hd : y.1.worker.transaction.driver = d.ledgered j) {s : Statement}
    (hU : ∀ r, s.cache = some r → U r) (argument : Argument) :
    Triple (update s argument) y (fun _ => Updates j U s y) (fun _ => Updates j U s y) := by
  refine bind_flushCacheFor (j := j) hU fun y₁ h₁ hf => ?_
  have hcall (x : Worker (Ledgered σ) × Channel (Ledgered σ))
      (hx : Worker.Calls j (work y₁) x ∧ ((work y₁).1.isClosed = false → x.1.localCache = [])) :
      Updates j U s y (withWork y₁ x) :=
    { trans_of (Calls j U) h₁.toCalls (calls_withWork hx.1) with
      forgets := fun ho => hx.2 (h₁.worker.isClosed_eq.trans ho)
      flushed := hf }
  exact onWorker_ok (Worker.update_ok (h₁.worker.transaction ▸ hd) s argument)
    (fun _ x hx => hcall x hx) fun _ x hx => hcall x hx

-- ---------------------------------------------------------------------------
-- The ends of transactions
-- ---------------------------------------------------------------------------

/-- The overlays are published: what caches hold afterwards was there and is not cleared, or
was written by an overlay. -/
structure Publishes (y y' : Executor (Ledgered σ) × World (Ledgered σ)) : Prop where
  shared : ∀ i entry, y'.2.caches.Has i entry →
    y.2.caches.Has i entry ∧ ¬ y.1.Clears i ∨ y.1.Writes entry
  writes : ∀ entry, ¬ y'.1.Writes entry
  caching : y'.1.overlays.isSome = y.1.overlays.isSome
  targets : ∀ U, y.1.Targets U → y'.1.Targets U

structure Retracts (required : Bool) (y y' : Executor (Ledgered σ) × World (Ledgered σ)) :
    Prop where
  shared : y'.2.caches = y.2.caches
  writes : ∀ entry, y'.1.Writes entry → y.1.Writes entry ∧ required = false
  clears : required = false → ∀ i, y.1.Clears i → y'.1.Clears i
  caching : y'.1.overlays.isSome = y.1.overlays.isSome
  targets : ∀ U, y.1.Targets U → y'.1.Targets U

theorem publish_ok {E : Error → Executor (Ledgered σ) × World (Ledgered σ) → Prop} :
    Triple publish y (fun _ y' => Publishes y y' ∧ work y' = work y) E := by
  obtain ⟨e, w⟩ := y
  refine .modify ?_
  cases ho : e.overlays with
  | none =>
    simp only [ho]
    refine ⟨⟨fun i entry hs => .inl ⟨hs, ?_⟩, ?_, rfl, fun _ => id⟩, trivial⟩
    · rintro ⟨os, hos, -⟩
      cases ho.symm.trans hos
    · rintro entry ⟨os, hos, -⟩
      cases ho.symm.trans hos
  | some os =>
    simp only [ho]
    refine ⟨⟨fun i entry hs => ?_, ?_, (congrArg Option.isSome ho).symm, ?_⟩, rfl⟩
    · refine (Overlays.has_commit hs).imp (fun h => ⟨h.1, ?_⟩) fun hw => ⟨os, ho, hw⟩
      rintro ⟨os', hos, hc⟩
      cases ho.symm.trans hos
      exact h.2 hc
    · rintro entry ⟨os', hos, hw⟩
      cases Option.some.inj hos
      exact Overlays.not_writes_rollback hw
    · rintro U hu os' hos
      cases Option.some.inj hos
      exact Overlays.targets_rollback (hu os ho)

theorem retract_ok {E : Error → Executor (Ledgered σ) × World (Ledgered σ) → Prop} :
    Triple retract y (fun _ y' => Retracts true y y' ∧ work y' = work y) E := by
  refine .modify ⟨⟨rfl, ?_, fun h => absurd h.symm Bool.false_ne_true, Option.isSome_map, ?_⟩, rfl⟩
  · rintro entry ⟨_, ho, hw⟩
    obtain ⟨os, -, rfl⟩ := Option.map_eq_some_iff.mp ho
    exact absurd hw Overlays.not_writes_rollback
  · rintro U hu _ ho
    obtain ⟨os, hos, rfl⟩ := Option.map_eq_some_iff.mp ho
    exact Overlays.targets_rollback (hu os hos)

structure Commits (j : Nat) (required : Bool)
    (y y' : Executor (Ledgered σ) × World (Ledgered σ)) : Prop extends Publishes y y' where
  worker : Worker.Asks j (work y) (work y')
  wasOpen : y.1.isClosed = false
  forgets : y'.1.worker.localCache = []
  sends : y'.1.worker.strategy.queue = []
  commits : required = true → ((ledger y').accounts j).executed = []

theorem commit_ok (hd : y.1.worker.transaction.driver = d.ledgered j) (required : Bool) :
    Triple (commit required) y (fun _ => Commits j required y) (fun _ => Asks j U y) := by
  refine .bind (onWorker_ok (Worker.commit_ok hd required)
    (Q := fun _ y' => ∃ x, y' = withWork y x ∧
      y.1.isClosed = false ∧ Worker.Asks j (work y) x ∧ x.1.localCache = [] ∧
        x.1.strategy.queue = [] ∧ (required = true → ((ledger x).accounts j).executed = []))
    (fun _ x hx => ⟨x, rfl, hx⟩) fun _ _ => asks_withWork) ?_
  rintro _ _ ⟨x, rfl, ho, hw, hl, hq, he⟩
  refine publish_ok.mono (fun _ y' ⟨hp, hx⟩ => ?_) fun _ _ => False.elim
  change work y' = x at hx
  subst hx
  exact ⟨⟨hp.shared, hp.writes, hp.caching, hp.targets⟩, hw, ho, hl, hq, he⟩

structure RolledBack (j : Nat) (required : Bool)
    (y y' : Executor (Ledgered σ) × World (Ledgered σ)) : Prop extends Retracts required y y' where
  worker : Worker.RolledBack j required (work y) (work y')

theorem rollback_ok (hd : y.1.worker.transaction.driver = d.ledgered j) (required : Bool) :
    Triple (rollback required) y
      (fun _ y' => RolledBack j required y y' ∧ (y.1.isClosed = false → required = true →
        ((ledger y').accounts j).executed = []))
      (fun _ y' => RolledBack j required y y') := by
  refine .bind (.attempt (Q := fun r y' => ∃ x, y' = withWork y x ∧
    Worker.RolledBack j required (work y) x ∧ (r.isOk = true → y.1.isClosed = false →
      required = true → ((ledger x).accounts j).executed = [])) (onWorker_ok
    (Worker.rollback_ok hd required) (fun _ x hx => ⟨x, rfl, hx.1, fun _ => hx.2⟩)
    fun _ x hx => ⟨x, rfl, hx, fun h => absurd h Bool.false_ne_true⟩)) ?_
  rintro r _ ⟨x, rfl, hw, he⟩
  have hend (y' : Executor (Ledgered σ) × World (Ledgered σ)) (hr : Retracts required y y')
      (hx : work y' = x) : Triple (Action.ofExcept r : Execute (Ledgered σ) Unit) y'
        (fun _ y' => RolledBack j required y y' ∧ (y.1.isClosed = false → required = true →
          ((ledger y').accounts j).executed = []))
        (fun _ y' => RolledBack j required y y') := by
    subst hx
    refine .ofExcept (fun _ hok => ⟨⟨hr, hw⟩, he ?_⟩) fun _ _ => ⟨hr, hw⟩
    rw [hok]
    rfl
  cases required with
  | true =>
    refine .bind (retract_ok (y := withWork y x)) fun _ y' ⟨hr, hx⟩ => hend y' ?_ hx
    exact ⟨hr.shared, hr.writes, hr.clears, hr.caching, hr.targets⟩
  | false =>
    exact hend _ ⟨rfl, fun _ hw => ⟨hw, rfl⟩, fun _ _ => id, rfl, fun _ => id⟩ rfl

structure Closes (j : Nat) (force : Bool)
    (y y' : Executor (Ledgered σ) × World (Ledgered σ)) : Prop where
  worker : Worker.Leaves j force (work y) (work y')
  closed : y'.1.isClosed = true
  forgets : y.1.isClosed = false → y'.1.worker.localCache = []
  retracts : force = true → Retracts true y y'
  publishes : force = false → Publishes y y'

theorem close_ok (hd : y.1.worker.transaction.driver = d.ledgered j) (force : Bool)
    {E : Error → Executor (Ledgered σ) × World (Ledgered σ) → Prop} :
    Triple (close force) y (fun _ => Closes j force y) E := by
  have hworker (y₁ : Executor (Ledgered σ) × World (Ledgered σ)) (hx : work y₁ = work y)
      (hr : force = true → Retracts true y y₁) (hp : force = false → Publishes y y₁) :
      Triple (onWorker (Worker.close force)) y₁ (fun _ => Closes j force y) E := by
    have hd₁ : (work y₁).1.transaction.driver = d.ledgered j := hx ▸ hd
    refine onWorker_ok (Worker.close_ok hd₁ force) (fun _ x h => ?_) fun _ _ => False.elim
    rw [hx] at h
    obtain ⟨hl, hc, hf⟩ := h
    refine ⟨hl, hc, hf, fun h => ?_, fun h => ?_⟩
    · obtain ⟨h₁, h₂, h₃, h₄, h₅⟩ := hr h
      exact ⟨h₁, h₂, h₃, h₄, h₅⟩
    · obtain ⟨h₁, h₂, h₃, h₄⟩ := hp h
      exact ⟨h₁, h₂, h₃, h₄⟩
  cases force with
  | true => exact .bind retract_ok fun _ y₁ ⟨hr, hx⟩ => hworker y₁ hx (fun _ => hr) nofun
  | false => exact .bind publish_ok fun _ y₁ ⟨hp, hx⟩ => hworker y₁ hx nofun fun _ => hp

end Executor

end MappedSql
