import MappedSql.Proofs.CacheContent
import MappedSql.Proofs.Executions

/-!
# What workers do

What each call of a worker makes of the ledger and of the local cache. All that comes into the
local cache is fetched by the worker itself, while no update waits. A worker that rests, with
nothing queued and nothing executed that is not committed, still rests after any call but an
update. A closed worker does nothing.
-/

namespace MappedSql

open Ledger

/-- The rows are those of a query that saw all updates that its session had executed, between
two ledgers of work that loses nothing. -/
def Fetched (j : Nat) (l : Ledger) (rows : ResultSet) (l' : Ledger) : Prop :=
  ∃ l₀ found, Works j l l₀ ∧ (l₀.accounts j).Settled ∧ Works j (l₀.read j found) l' ∧
    ∃ bounds, rows = found.paginate bounds

section
variable {j : Nat} {l l' l'' : Ledger} {rows : ResultSet}

theorem Fetched.trans (h : Fetched j l rows l') (h' : Works j l' l'') : Fetched j l rows l'' := by
  obtain ⟨l₀, found, h₀, hs, h₁, hb⟩ := h
  exact ⟨l₀, found, h₀, hs, trans_of _ h₁ h', hb⟩

theorem Fetched.of_works (h : Works j l l') (h' : Fetched j l' rows l'') :
    Fetched j l rows l'' := by
  obtain ⟨l₀, found, h₀, hs, h₁, hb⟩ := h'
  exact ⟨l₀, found, trans_of _ h h₀, hs, h₁, hb⟩

end

namespace Transaction

variable {σ : Type} {j : Nat} {d : Driver σ} {t : Transaction (Ledgered σ)}

theorem commit_ok (hd : t.driver = d.ledgered j) (ho : t.isClosed = false) (s : Ledgered σ) :
    Triple t.commit s (fun _ s' => ledger s' = (ledger s).commit j)
      (fun _ s' => ledger s' = ledger s) := by
  refine .bind (connection_ok (Q := fun d' s' => d' = d.ledgered j ∧ s' = s) ho ⟨hd, rfl⟩) ?_
  rintro _ _ ⟨rfl, rfl⟩
  exact noted_ok _ _ _

theorem rollback_ok (hd : t.driver = d.ledgered j) (ho : t.isClosed = false) (s : Ledgered σ) :
    Triple t.rollback s (fun _ s' => ledger s' = (ledger s).rollback j)
      (fun _ s' => ledger s' = ledger s) := by
  refine .bind (connection_ok (Q := fun d' s' => d' = d.ledgered j ∧ s' = s) ho ⟨hd, rfl⟩) ?_
  rintro _ _ ⟨rfl, rfl⟩
  exact noted_ok _ _ _

end Transaction

namespace Worker

variable {σ α : Type} {j : Nat} {d : Driver σ}
  {x x' x'' : Worker (Ledgered σ) × Channel (Ledgered σ)}
  {Q : α → Worker (Ledgered σ) × Channel (Ledgered σ) → Prop}
  {E : Error → Worker (Ledgered σ) × Channel (Ledgered σ) → Prop}

-- ---------------------------------------------------------------------------
-- Kinds of calls
-- ---------------------------------------------------------------------------

def Tidy (j : Nat) (x : Worker (Ledgered σ) × Channel (Ledgered σ)) : Prop :=
  ((ledger x).accounts j).Tidy x.1.strategy.queue

def Rests (j : Nat) (x : Worker (Ledgered σ) × Channel (Ledgered σ)) : Prop :=
  Strategy.Rests j (x.1.strategy, x.2)

structure Calls (j : Nat) (x x' : Worker (Ledgered σ) × Channel (Ledgered σ)) : Prop where
  configuration : x'.1.configuration = x.1.configuration
  transaction : x'.1.transaction = x.1.transaction
  works : Works j (ledger x) (ledger x')
  tidy : Tidy j x → Tidy j x'
  kept : Tidy j x → ∀ entry ∈ x'.1.localCache,
    entry ∈ x.1.localCache ∨ Fetched j (ledger x) entry.2 (ledger x')
  closed : x.1.isClosed = true → x' = x

structure Asks (j : Nat) (x x' : Worker (Ledgered σ) × Channel (Ledgered σ)) : Prop
    extends Calls j x x' where
  rests : Rests j x → Rests j x'

instance : IsPreorder (Worker (Ledgered σ) × Channel (Ledgered σ)) (Calls j) where
  refl _ := ⟨rfl, rfl, refl_of _ _, id, fun _ _ => .inl, fun _ => rfl⟩
  trans x x' x'' h h' :=
    { configuration := h'.configuration.trans h.configuration
      transaction := h'.transaction.trans h.transaction
      works := trans_of _ h.works h'.works
      tidy := h'.tidy ∘ h.tidy
      kept := fun ht entry he => by
        rcases h'.kept (h.tidy ht) entry he with he | hf
        · exact (h.kept ht entry he).imp_right (·.trans h'.works)
        · exact .inr (.of_works h.works hf)
      closed := fun hc => by
        have he := h.closed hc
        subst he
        exact h'.closed hc }

instance : IsPreorder (Worker (Ledgered σ) × Channel (Ledgered σ)) (Asks j) where
  refl _ := ⟨refl_of _ _, id⟩
  trans _ _ _ h h' := ⟨trans_of (Calls j) h.toCalls h'.toCalls, h'.rests ∘ h.rests⟩

-- ---------------------------------------------------------------------------
-- Parts of calls
-- ---------------------------------------------------------------------------

theorem Asks.keep (h : Asks j x x') (ho : x.1.isClosed = false) {kept : Keyed CacheKey ResultSet}
    (hk : Tidy j x → ∀ entry ∈ kept,
      entry ∈ x'.1.localCache ∨ Fetched j (ledger x) entry.2 (ledger x')) :
    Asks j x ({ x'.1 with localCache := kept }, x'.2) where
  configuration := h.configuration
  transaction := h.transaction
  works := h.works
  tidy := h.tidy
  kept ht entry he := (hk ht entry he).elim (h.kept ht entry) .inr
  closed hc := absurd (ho.symm.trans hc) Bool.false_ne_true
  rests := h.rests

theorem Asks.forget (h : Asks j x x') (ho : x.1.isClosed = false) :
    Asks j x ({ x'.1 with localCache := [] }, x'.2) :=
  h.keep ho (by simp)

theorem Asks.database (h : Asks j x x') (ho : x.1.isClosed = false) {database : Ledgered σ}
    (hr : Runs j (ledger x') (ledger database))
    (he : ((ledger x').accounts j).executed = [] → ((ledger database).accounts j).executed = []) :
    Asks j x (x'.1, { x'.2 with database }) where
  configuration := h.configuration
  transaction := h.transaction
  works := trans_of _ h.works hr.toWorks
  tidy ht := (h.tidy ht).drops hr.drops
  kept ht entry hm := (h.kept ht entry hm).imp_right (·.trans hr.toWorks)
  closed hc := absurd (ho.symm.trans hc) Bool.false_ne_true
  rests hrest := ⟨(h.rests hrest).1, he (h.rests hrest).2⟩

theorem Calls.isClosed_eq (h : Calls j x x') : x'.1.isClosed = x.1.isClosed :=
  congrArg Transaction.isClosed h.transaction

theorem asks_of_goes (ho : x.1.isClosed = false) {s : Strategy} {c : Channel (Ledgered σ)}
    (h : Strategy.Goes j (x.1.strategy, x.2) (s, c)) :
    Asks j x ({ x.1 with strategy := s }, c) where
  configuration := rfl
  transaction := rfl
  works := h.runs.toWorks
  tidy := h.tidy
  kept _ _ := .inl
  closed hc := absurd (ho.symm.trans hc) Bool.false_ne_true
  rests := h.rests

-- ---------------------------------------------------------------------------
-- Calls
-- ---------------------------------------------------------------------------

theorem update_ok (hd : x.1.transaction.driver = d.ledgered j) (s : Statement)
    (argument : Argument) :
    Triple (update s argument) x
      (fun _ x' => Calls j x x' ∧ (x.1.isClosed = false → x'.1.localCache = []))
      (fun _ x' => Calls j x x' ∧ (x.1.isClosed = false → x'.1.localCache = [])) := by
  refine bind_ensureOpen (fun ho => ?_) fun hc =>
    ⟨refl_of _ _, fun ho => absurd (ho.symm.trans hc) Bool.false_ne_true⟩
  have hforget : Calls j x ({ x.1 with localCache := [] }, x.2) :=
    ((refl_of (Asks j) x).forget ho).toCalls
  refine .bind_modify (.bind_ofExcept (fun bound _ => ?_) fun _ _ => ⟨hforget, fun _ => rfl⟩)
  refine bind_current (bind_connection hd ho ?_)
  have hcall (s : Strategy) (c : Channel (Ledgered σ)) (h : Works j (ledger x) (ledger c) ∧
      (Tidy j x → ((ledger c).accounts j).Tidy s.queue)) :
      Calls j x ({ x.1 with localCache := [], strategy := s }, c) :=
    { configuration := rfl
      transaction := rfl
      works := h.1
      tidy := h.2
      kept := fun _ _ he => absurd he List.not_mem_nil
      closed := fun hc => absurd (ho.symm.trans hc) Bool.false_ne_true }
  exact onStrategy_ok ((Strategy.update_works _ d).triple _)
    (fun _ s c h => ⟨hcall s c h, fun _ => rfl⟩) fun _ s c h => ⟨hcall s c h, fun _ => rfl⟩

theorem fetch_ok (hd : x.1.transaction.driver = d.ledgered j) (ho : x.1.isClosed = false)
    (s : Statement) (bounds : RowBounds) (bound : BoundStatement) :
    Triple (fetch s bounds bound) x
      (fun rows x' => Asks j x x' ∧ x'.1.localCache = x.1.localCache ∧
        (Tidy j x → Fetched j (ledger x) rows (ledger x')))
      (fun _ x' => Asks j x x' ∧ x'.1.localCache = x.1.localCache) := by
  refine bind_current (bind_connection hd ho ?_)
  refine .bind (P := fun rows x' => Asks j x x' ∧ x'.1.localCache = x.1.localCache ∧
    (Tidy j x → Fetched j (ledger x) (rows.paginate bounds) (ledger x'))) ?_ fun _ _ h => .pure h
  refine onStrategy_ok (Strategy.query_ok _ d _) (fun rows s c h => ?_) fun _ s c h => ?_
  · refine ⟨asks_of_goes ho h.1, rfl, fun ht => ?_⟩
    obtain ⟨l, hr, hs, h'⟩ := h.2 ht
    exact ⟨l, rows, hr.toWorks, hs, h'.toWorks, bounds, rfl⟩
  · exact ⟨asks_of_goes ho h, rfl⟩

theorem bind_forgetFor_asks {s : Statement} {f : Unit → Work (Ledgered σ) α}
    (ho : x.1.isClosed = false)
    (h : ∀ x', Asks j x x' → x'.1.localCache ⊆ x.1.localCache → Triple (f ()) x' Q E) :
    Triple (forgetFor s >>= f) x Q E := by
  unfold forgetFor
  cases s.flushesCache with
  | true => exact .bind_modify (h _ ((refl_of (Asks j) x).forget ho) (List.nil_subset _))
  | false => exact h x (refl_of _ x) (List.Subset.refl _)

theorem queryBound_ok (hd : x.1.transaction.driver = d.ledgered j) (s : Statement)
    (bounds : RowBounds) (key : CacheKey) (bound : BoundStatement) :
    Triple (queryBound s bounds key bound) x
      (fun rows x' => Asks j x x' ∧ (Tidy j x →
        (key, rows) ∈ x.1.localCache ∨ Fetched j (ledger x) rows (ledger x')))
      (fun _ x' => Asks j x x') := by
  refine bind_ensureOpen (fun ho => ?_) fun _ => refl_of _ _
  refine bind_forgetFor_asks (j := j) ho fun x₁ h₁ hl₁ => bind_current ?_
  have ho₁ : x₁.1.isClosed = false := h₁.isClosed_eq.trans ho
  cases hk : Keyed.get? x₁.1.localCache key with
  | some hit => exact .pure ⟨h₁, fun _ => .inl (hl₁ (Keyed.mem_of_get? hk))⟩
  | none =>
    refine .bind ((fetch_ok (h₁.transaction ▸ hd) ho₁ s bounds bound).mono (fun _ _ h => h)
      fun _ _ h => trans_of _ h₁ h.1) ?_
    rintro rows ⟨w₂, c₂⟩ ⟨h₂, hl₂, hf₂⟩
    have hf (ht : Tidy j x) : Fetched j (ledger x) rows (ledger c₂) :=
      .of_works h₁.works (hf₂ (h₁.tidy ht))
    have h₃ : Asks j x ({ w₂ with localCache := Keyed.put w₂.localCache key rows }, c₂) := by
      refine (trans_of (Asks j) h₁ h₂).keep ho fun ht entry he => ?_
      rcases Keyed.mem_put he with he | rfl
      exacts [.inl he, .inr (hf ht)]
    refine .bind_modify (bind_current ?_)
    dsimp only
    split
    · exact .bind_modify (.pure ⟨h₃.forget ho, fun ht => .inr (hf ht)⟩)
    · exact .pure ⟨h₃, fun ht => .inr (hf ht)⟩

theorem handOut_ok (hd : x.1.transaction.driver = d.ledgered j) (s : Statement)
    (argument : Argument) (bounds : RowBounds) (enough : Nat → Row → Bool) :
    Triple (handOut s argument bounds enough) x
      (fun handed x' => Asks j x x' ∧ (Tidy j x → ∃ rows,
        handed = ResultSet.handOut enough 0 rows.rows ∧ Fetched j (ledger x) rows (ledger x')))
      (fun _ x' => Asks j x x') := by
  refine bind_ensureOpen (fun ho => ?_) fun _ => refl_of _ _
  refine bind_forgetFor_asks (j := j) ho fun x₁ h₁ _ =>
    .bind_ofExcept (fun bound _ => ?_) fun _ _ => h₁
  have ho₁ : x₁.1.isClosed = false := h₁.isClosed_eq.trans ho
  refine .bind ((fetch_ok (h₁.transaction ▸ hd) ho₁ s bounds bound).mono (fun _ _ h => h)
    fun _ _ h => trans_of _ h₁ h.1) ?_
  rintro rows x₂ ⟨h₂, -, hf⟩
  exact .pure ⟨trans_of _ h₁ h₂, fun ht => ⟨rows, rfl, .of_works h₁.works (hf (h₁.tidy ht))⟩⟩

theorem flush_ok (hd : x.1.transaction.driver = d.ledgered j) :
    Triple flush x
      (fun _ x' => Asks j x x' ∧ x'.1.localCache = x.1.localCache ∧ x'.1.strategy.queue = [])
      (fun _ x' => Asks j x x') := by
  refine bind_ensureOpen (fun ho => bind_current (bind_connection hd ho ?_)) fun _ => refl_of _ _
  exact onStrategy_ok ((Strategy.flush_ok d).triple _)
    (fun _ s c h => ⟨asks_of_goes ho h.1, rfl, h.2⟩) fun _ s c h => asks_of_goes ho h.1

theorem clearLocalCache_asks :
    (clearLocalCache : Work (Ledgered σ) Unit).Respects (Asks j) := by
  refine .of_triple fun x => bind_current ?_
  cases ho : x.1.isClosed with
  | true => exact .pure (refl_of _ _)
  | false => exact .modify ((refl_of (Asks j) x).forget ho)

/-- A commit that succeeds leaves nothing in the local cache and nothing queued, and where it
is required, nothing that is not committed. -/
theorem commit_ok (hd : x.1.transaction.driver = d.ledgered j) (required : Bool) :
    Triple (commit required) x
      (fun _ x' => x.1.isClosed = false ∧ Asks j x x' ∧ x'.1.localCache = [] ∧
        x'.1.strategy.queue = [] ∧ (required = true → ((ledger x').accounts j).executed = []))
      (fun _ x' => Asks j x x') := by
  refine bind_ensureOpen (fun ho => .bind_modify ?_) fun _ => refl_of _ _
  have h₁ : Asks j x ({ x.1 with localCache := [] }, x.2) := (refl_of (Asks j) x).forget ho
  refine .bind ((flush_ok (x := ({ x.1 with localCache := [] }, x.2)) hd).mono (fun _ _ h => h)
    fun _ _ h => trans_of _ h₁ h) ?_
  rintro _ x₂ ⟨h₂, hl, hq⟩
  have h := trans_of (Asks j) h₁ h₂
  have ho₂ : x₂.1.isClosed = false := h.isClosed_eq.trans ho
  cases required with
  | false => exact .pure ⟨ho, h, hl, hq, fun hr => absurd hr Bool.false_ne_true⟩
  | true =>
    refine bind_current (onDatabase_ok (Transaction.commit_ok (j := j) (d := d)
      (h.transaction ▸ hd) ho₂ _) (fun _ database h' => ?_) fun _ database h' => ?_)
    · have he : ((ledger database).accounts j).executed = [] := by simp [h']
      exact ⟨ho, h.database ho (h' ▸ Ledger.commit_runs) fun _ => he, hl, hq, fun _ => he⟩
    · exact h.database ho (h' ▸ refl_of (Runs j) _) fun he => h' ▸ he

-- ---------------------------------------------------------------------------
-- Rollback and close
-- ---------------------------------------------------------------------------

/-- What a rollback or a close does. Only where it is required does it give updates up. -/
structure Leaves (j : Nat) (required : Bool) (x x' : Worker (Ledgered σ) × Channel (Ledgered σ)) :
    Prop where
  configuration : x'.1.configuration = x.1.configuration
  driver : x'.1.transaction.driver = x.1.transaction.driver
  acts : Acts j (ledger x) (ledger x')
  works : required = false → Works j (ledger x) (ledger x')
  tidy : Tidy j x → Tidy j x'
  rests : Rests j x → Rests j x'
  kept : x'.1.localCache ⊆ x.1.localCache
  closed : x.1.isClosed = true → x' = x

theorem Leaves.refl (j : Nat) (required : Bool)
    (x : Worker (Ledgered σ) × Channel (Ledgered σ)) : Leaves j required x x :=
  ⟨rfl, rfl, refl_of _ _, fun _ => refl_of _ _, id, id, List.Subset.refl _, fun _ => rfl⟩

structure RolledBack (j : Nat) (required : Bool)
    (x x' : Worker (Ledgered σ) × Channel (Ledgered σ)) : Prop extends Leaves j required x x' where
  transaction : x'.1.transaction = x.1.transaction
  forgets : x.1.isClosed = false → x'.1.localCache = [] ∧ x'.1.strategy.queue = []

theorem RolledBack.refl (ho : x.1.isClosed = true) (required : Bool) :
    RolledBack j required x x :=
  ⟨.refl .., rfl, fun h => absurd (h.symm.trans ho) Bool.false_ne_true⟩

theorem discard_ok (hd : x.1.transaction.driver = d.ledgered j) (ho : x.1.isClosed = false)
    (hl : x.1.localCache = []) {E : Error → Worker (Ledgered σ) × Channel (Ledgered σ) → Prop} :
    Triple (do
        let d ← onDatabase x.1.transaction.connection
        onStrategy (Strategy.discard d)).attempt x
      (fun _ x' => RolledBack j false x x') E := by
  have hrolled (s : Strategy) (c : Channel (Ledgered σ))
      (h : Strategy.Goes j (x.1.strategy, x.2) (s, c) ∧ Reads j (ledger x) (ledger c) ∧
        s.queue = []) : RolledBack j false x ({ x.1 with strategy := s }, c) := by
    obtain ⟨hg, hr, hq⟩ := h
    exact
      { configuration := rfl
        driver := rfl
        acts := hr.toActs
        works := fun _ => hr.toWorks
        tidy := hg.tidy
        kept := List.Subset.refl _
        closed := fun hc => absurd (ho.symm.trans hc) Bool.false_ne_true
        transaction := rfl
        rests := hg.rests
        forgets := fun _ => ⟨hl, hq⟩ }
  refine .attempt (bind_connection hd ho ?_)
  exact onStrategy_ok ((Strategy.discard_ok d).triple _) (fun _ s c h => hrolled s c h)
    fun _ s c h => hrolled s c h

theorem rollbackDatabase_ok (hd : x.1.transaction.driver = d.ledgered j)
    (ho : x.1.isClosed = false) (required : Bool)
    {E : Error → Worker (Ledgered σ) × Channel (Ledgered σ) → Prop} :
    Triple (if required then onDatabase x.1.transaction.rollback else pure ()).attempt x
      (fun r x' => x'.1 = x.1 ∧ Acts j (ledger x) (ledger x') ∧
        ((ledger x).accounts j).Drops ((ledger x').accounts j) ∧
        (required = false → ledger x' = ledger x) ∧
        (((ledger x).accounts j).executed = [] → ((ledger x').accounts j).executed = []) ∧
        (r.isOk = true → required = true → ((ledger x').accounts j).executed = [])) E := by
  have hsame (l' : Ledger) (he : l' = ledger x) : Acts j (ledger x) l' ∧
      ((ledger x).accounts j).Drops (l'.accounts j) := by
    subst he
    exact ⟨refl_of _ _, fun _ => .inl rfl⟩
  cases required with
  | false =>
    exact .attempt (.pure ⟨rfl, (hsame _ rfl).1, (hsame _ rfl).2, fun _ => rfl, id,
      fun _ h => absurd h Bool.false_ne_true⟩)
  | true =>
    refine .attempt (onDatabase_ok (Transaction.rollback_ok hd ho _) (fun _ database h => ?_)
      fun _ database h => ?_)
    · have he : ((ledger database).accounts j).executed = [] := by simp [h]
      refine ⟨rfl, h ▸ rollback_acts, h ▸ rollback_drops,
        fun hr => absurd hr.symm Bool.false_ne_true,
        fun _ => he, fun _ _ => he⟩
    · refine ⟨rfl, (hsame _ h).1, (hsame _ h).2, fun _ => h, fun he => h ▸ he, fun hr => ?_⟩
      exact absurd hr Bool.false_ne_true

theorem rollback_ok (hd : x.1.transaction.driver = d.ledgered j) (required : Bool) :
    Triple (rollback required) x
      (fun _ x' => RolledBack j required x x' ∧ (x.1.isClosed = false → required = true →
        ((ledger x').accounts j).executed = []))
      (fun _ x' => RolledBack j required x x') := by
  refine bind_current ?_
  cases ho : x.1.isClosed with
  | true => exact .pure ⟨.refl ho _, fun h => absurd h.symm Bool.false_ne_true⟩
  | false =>
    refine .bind_modify (bind_current ?_)
    refine .bind (discard_ok (x := ({ x.1 with localCache := [] }, x.2)) hd ho rfl)
      fun discarded x₁ h₁ => ?_
    have ht : x₁.1.transaction = x.1.transaction := h₁.transaction
    have ho₁ : x₁.1.isClosed = false := (congrArg Transaction.isClosed ht).trans ho
    rw [← ht]
    refine .bind (rollbackDatabase_ok (ht ▸ hd) ho₁ required) ?_
    rintro rolledBack ⟨w₂, c₂⟩ ⟨rfl, ha, hdrops, hsame, hrests, he⟩
    have h : RolledBack j required x (x₁.1, c₂) :=
      { configuration := h₁.configuration
        driver := h₁.driver
        acts := trans_of _ h₁.acts ha
        works := fun hr => by
          have hs := hsame hr
          exact hs ▸ h₁.works rfl
        tidy := fun htidy => (h₁.tidy htidy).drops hdrops
        kept := List.Subset.trans h₁.kept (List.nil_subset _)
        closed := fun hc => absurd (ho.symm.trans hc) Bool.false_ne_true
        transaction := ht
        rests := fun hr => ⟨(h₁.rests hr).1, hrests (h₁.rests hr).2⟩
        forgets := fun _ => h₁.forgets ho }
    refine .bind_ofExcept (fun _ _ => .ofExcept (fun _ hr => ⟨h, fun _ => he ?_⟩) fun _ _ => h)
      fun _ _ => h
    rw [hr]
    rfl

theorem close_ok (hd : x.1.transaction.driver = d.ledgered j) (force : Bool)
    {E : Error → Worker (Ledgered σ) × Channel (Ledgered σ) → Prop} :
    Triple (close force) x
      (fun _ x' => Leaves j force x x' ∧ x'.1.isClosed = true ∧
        (x.1.isClosed = false → x'.1.localCache = [])) E := by
  refine bind_current ?_
  cases ho : x.1.isClosed with
  | true => exact .pure ⟨.refl .., ho, fun h => absurd h.symm Bool.false_ne_true⟩
  | false =>
    refine .bind (.attempt (Q := fun _ => RolledBack j force x)
      ((rollback_ok hd force).mono (fun _ _ h => h.1) fun _ _ h => h)) ?_
    rintro _ ⟨w₁, c₁⟩ h
    refine .modify ⟨?_, rfl, fun _ => rfl⟩
    exact
      { configuration := h.configuration
        driver := h.driver
        acts := h.acts
        works := h.works
        tidy := h.tidy
        rests := h.rests
        kept := List.nil_subset _
        closed := fun hc => absurd (ho.symm.trans hc) Bool.false_ne_true }

end Worker

end MappedSql
