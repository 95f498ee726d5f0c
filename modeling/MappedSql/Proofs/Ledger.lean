import Mathlib.Logic.Function.Basic
import MappedSql.Driver
import MappedSql.Proofs.Outcomes

/-!
# Ledgers

A ledger is kept beside a database. It numbers the updates that sessions hand over to it, and
tells which of them wait for their batch, which have been executed and which are committed, and
what each query could see. Any driver can be made to keep one. How the driver answers, and when
it fails, is left to it.

Of a batch that fails as many updates count as executed as the driver has counted. Where the
driver does not tell, all of them count.
-/

namespace MappedSql

-- ---------------------------------------------------------------------------
-- What a ledger records
-- ---------------------------------------------------------------------------

/-- The updates of one session that are not committed: those that wait on handles for their
batch, and those that have been executed. -/
structure Account where
  waiting : Handle → List Nat := fun _ => []
  executed : List Nat := []

def Account.Settled (a : Account) : Prop := ∀ h, a.waiting h = []

/-- A query, with the ledger as its reader found it. -/
structure Read where
  reader : Nat
  rows : ResultSet
  account : Account
  committed : List Nat
  next : Nat

namespace Read

def Sees (read : Read) (n : Nat) : Prop :=
  n ∈ read.committed ∨ n ∈ read.account.executed

def Gives (read : Read) (rows : ResultSet) : Prop :=
  ∃ bounds, rows = read.rows.paginate bounds

end Read

structure Ledger where
  next : Nat := 0
  accounts : Nat → Account := fun _ => {}
  committed : List Nat := []
  reads : List Read := []

/-- The updates that an execution has run. -/
def ranOf {α : Type} (items : List Nat) : Except Error α → List Nat
  | .error (.batchUpdate _ counts) => items.take counts.length
  | _ => items

namespace Ledger

variable (j : Nat)

def setAccount (a : Account) (l : Ledger) : Ledger :=
  { l with accounts := Function.update l.accounts j a }

def withdraw (h : Handle) (l : Ledger) : Ledger :=
  l.setAccount j
    { l.accounts j with waiting := Function.update (l.accounts j).waiting h [] }

def submit (h : Handle) (l : Ledger) : Ledger :=
  { l.setAccount j
      { l.accounts j with
        waiting := Function.update (l.accounts j).waiting h ((l.accounts j).waiting h ++ [l.next]) }
    with next := l.next + 1 }

def run (items : List Nat) (l : Ledger) : Ledger :=
  l.setAccount j { l.accounts j with executed := (l.accounts j).executed ++ items }

def runOne {α : Type} (r : Except Error α) (l : Ledger) : Ledger :=
  { l.run j (ranOf [l.next] r) with next := l.next + 1 }

def runBatch {α : Type} (h : Handle) (r : Except Error α) (l : Ledger) : Ledger :=
  (l.run j (ranOf ((l.accounts j).waiting h) r)).withdraw j h

def commit (l : Ledger) : Ledger :=
  { l.setAccount j { l.accounts j with executed := [] } with
    committed := l.committed ++ (l.accounts j).executed }

def rollback (l : Ledger) : Ledger :=
  l.setAccount j { l.accounts j with executed := [] }

def readOf (rows : ResultSet) (l : Ledger) : Read where
  reader := j
  rows := rows
  account := l.accounts j
  committed := l.committed
  next := l.next

def read (rows : ResultSet) (l : Ledger) : Ledger :=
  { l with reads := l.reads ++ [l.readOf j rows] }

end Ledger

structure Ledgered (σ : Type) where
  ledger : Ledger := {}
  state : σ

section
variable {σ α : Type}

def Action.noted (note : Except Error α → Ledger → Ledger) (a : Action σ α) :
    Action (Ledgered σ) α :=
  .ofOutcome fun s =>
    ((a.outcome s.state).1,
      { ledger := note (a.outcome s.state).1 s.ledger, state := (a.outcome s.state).2 })

def noteOk (note : α → Ledger → Ledger) : Except Error α → Ledger → Ledger
  | .ok value => note value
  | .error _ => id

def Driver.ledgered (j : Nat) (d : Driver σ) : Driver (Ledgered σ) where
  prepare sql timeout := (d.prepare sql timeout).noted (noteOk fun h => Ledger.withdraw j h)
  bind h values := (d.bind h values).noted fun _ => id
  addBatch h := (d.addBatch h).noted (noteOk fun _ => Ledger.submit j h)
  executeUpdate h := (d.executeUpdate h).noted (Ledger.runOne j)
  executeBatch h := (d.executeBatch h).noted (Ledger.runBatch j h)
  executeQuery h := (d.executeQuery h).noted (noteOk fun rows => Ledger.read j rows)
  close h := (d.close h).noted fun _ => Ledger.withdraw j h
  commit := d.commit.noted (noteOk fun _ => Ledger.commit j)
  rollback := d.rollback.noted (noteOk fun _ => Ledger.rollback j)

end

-- ---------------------------------------------------------------------------
-- What becomes of a ledger
-- ---------------------------------------------------------------------------

def Account.Holds (a : Account) (n : Nat) : Prop :=
  n ∈ a.executed ∨ ∃ h, n ∈ a.waiting h

/-- Nothing has come to wait. -/
def Account.Drops (a a' : Account) : Prop :=
  ∀ h, a'.waiting h = a.waiting h ∨ a'.waiting h = []

namespace Ledger

structure Bounded (l : Ledger) : Prop where
  accounts : ∀ i n, (l.accounts i).Holds n → n < l.next
  committed : ∀ n ∈ l.committed, n < l.next
  reads : ∀ read ∈ l.reads, read.next ≤ l.next

variable {j n : Nat} {l l' l'' : Ledger}

/-- What a session may do to a ledger in any case. No update comes back that was given up. -/
structure Acts (j : Nat) (l l' : Ledger) : Prop where
  next : l.next ≤ l'.next
  others : ∀ i, i ≠ j → l'.accounts i = l.accounts i
  committed : l.committed ⊆ l'.committed
  reads : l.reads ⊆ l'.reads
  held : ∀ n < l.next, (l'.accounts j).Holds n → (l.accounts j).Holds n
  made : ∀ n < l.next, n ∈ l'.committed → n ∈ l.committed ∨ (l.accounts j).Holds n
  bounded : l.Bounded → l'.Bounded

/-- What a session does without a rollback: it loses no update that was executed. -/
structure Works (j : Nat) (l l' : Ledger) : Prop extends Acts j l l' where
  kept : ∀ n ∈ (l.accounts j).executed, n ∈ (l'.accounts j).executed ∨ n ∈ l'.committed

structure Runs (j : Nat) (l l' : Ledger) : Prop extends Works j l l' where
  drops : (l.accounts j).Drops (l'.accounts j)

structure Reads (j : Nat) (l l' : Ledger) : Prop extends Runs j l l' where
  sameNext : l'.next = l.next
  sameCommitted : l'.committed = l.committed
  sameExecuted : (l'.accounts j).executed = (l.accounts j).executed

instance : IsPreorder Ledger (Acts j) where
  refl l := ⟨Nat.le_refl _, fun _ _ => rfl, List.Subset.refl _, List.Subset.refl _,
    fun _ _ => id, fun _ _ => .inl, id⟩
  trans l l' l'' h h' :=
    { next := Nat.le_trans h.next h'.next
      others := fun i hi => (h'.others i hi).trans (h.others i hi)
      committed := List.Subset.trans h.committed h'.committed
      reads := List.Subset.trans h.reads h'.reads
      held := fun n hn hh => h.held n hn (h'.held n (Nat.lt_of_lt_of_le hn h.next) hh)
      made := fun n hn hc => by
        rcases h'.made n (Nat.lt_of_lt_of_le hn h.next) hc with hc | hh
        · exact h.made n hn hc
        · exact .inr (h.held n hn hh)
      bounded := h'.bounded ∘ h.bounded }

instance : IsPreorder Ledger (Works j) where
  refl l := ⟨refl_of (Acts j) l, fun _ => .inl⟩
  trans _ _ _ h h' :=
    { trans_of (Acts j) h.toActs h'.toActs with
      kept := fun n hn => (h.kept n hn).elim (h'.kept n) fun hc => .inr (h'.committed hc) }

instance : IsPreorder Ledger (Runs j) where
  refl l := ⟨refl_of (Works j) l, fun _ => .inl rfl⟩
  trans _ _ _ h h' :=
    { trans_of (Works j) h.toWorks h'.toWorks with
      drops := fun handle => by
        rcases h'.drops handle with hd | hd
        · rw [hd]
          exact h.drops handle
        · exact .inr hd }

instance : IsPreorder Ledger (Reads j) where
  refl l := ⟨refl_of (Runs j) l, rfl, rfl, rfl⟩
  trans _ _ _ h h' :=
    { trans_of (Runs j) h.toRuns h'.toRuns with
      sameNext := h'.sameNext.trans h.sameNext
      sameCommitted := h'.sameCommitted.trans h.sameCommitted
      sameExecuted := h'.sameExecuted.trans h.sameExecuted }

@[simp] theorem accounts_setAccount_self (a : Account) : (l.setAccount j a).accounts j = a :=
  Function.update_self ..

theorem accounts_setAccount_of_ne {i : Nat} (hi : i ≠ j) (a : Account) :
    (l.setAccount j a).accounts i = l.accounts i :=
  Function.update_of_ne hi ..

theorem Acts.of_account (done : List Nat) (hn : l.next ≤ l'.next)
    (ho : ∀ i, i ≠ j → l'.accounts i = l.accounts i) (hr : l'.reads = l.reads)
    (hc : l'.committed = l.committed ++ done)
    (ha : ∀ n, (l'.accounts j).Holds n →
      (l.accounts j).Holds n ∨ l.next ≤ n ∧ n < l'.next)
    (hd : ∀ n ∈ done, (l.accounts j).Holds n) : Acts j l l' where
  next := hn
  others := ho
  committed := hc ▸ List.subset_append_left ..
  reads := hr ▸ List.Subset.refl _
  held n hlt hh := (ha n hh).resolve_right fun h => Nat.not_le_of_lt hlt h.1
  made n _ hm := (List.mem_append.mp (hc ▸ hm)).imp_right (hd n)
  bounded hb := by
    refine ⟨fun i n hh => ?_, fun n hm => ?_, fun read hm => ?_⟩
    · by_cases hi : i = j
      · subst hi
        rcases ha n hh with hh | hh
        · exact Nat.lt_of_lt_of_le (hb.accounts i n hh) hn
        · exact hh.2
      · rw [ho i hi] at hh
        exact Nat.lt_of_lt_of_le (hb.accounts i n hh) hn
    · rw [hc] at hm
      rcases List.mem_append.mp hm with hm | hm
      · exact Nat.lt_of_lt_of_le (hb.committed n hm) hn
      · exact Nat.lt_of_lt_of_le (hb.accounts j n (hd n hm)) hn
    · exact Nat.le_trans (hb.reads read (hr ▸ hm)) hn

theorem mem_update {waiting : Handle → List Nat} {h h' : Handle} {items : List Nat}
    (hm : n ∈ Function.update waiting h items h') : n ∈ items ∨ n ∈ waiting h' := by
  rw [Function.update_apply] at hm
  split at hm
  exacts [.inl hm, .inr hm]

-- The account of a session after each of its steps.
@[simp] theorem account_withdraw (h : Handle) : (l.withdraw j h).accounts j =
    { l.accounts j with waiting := Function.update (l.accounts j).waiting h [] } :=
  accounts_setAccount_self _

@[simp] theorem account_submit (h : Handle) : (l.submit j h).accounts j =
    { l.accounts j with
      waiting :=
        Function.update (l.accounts j).waiting h ((l.accounts j).waiting h ++ [l.next]) } :=
  accounts_setAccount_self _

@[simp] theorem account_run (items : List Nat) : (l.run j items).accounts j =
    { l.accounts j with executed := (l.accounts j).executed ++ items } :=
  accounts_setAccount_self _

@[simp] theorem account_commit : (l.commit j).accounts j = { l.accounts j with executed := [] } :=
  accounts_setAccount_self _

@[simp] theorem account_rollback :
    (l.rollback j).accounts j = { l.accounts j with executed := [] } :=
  accounts_setAccount_self _

theorem withdraw_reads (h : Handle) : Reads j l (l.withdraw j h) := by
  have hd : (l.accounts j).Drops ((l.withdraw j h).accounts j) := by
    intro h'
    simp only [account_withdraw, Function.update_apply]
    split
    exacts [.inr rfl, .inl rfl]
  have ha : Acts j l (l.withdraw j h) := by
    refine Acts.of_account [] (Nat.le_refl _) (fun i hi => accounts_setAccount_of_ne hi _)
      rfl (List.append_nil _).symm (fun n hh => .inl ?_) (by simp)
    rcases hh with hh | ⟨h', hh⟩
    · exact .inl (by simpa using hh)
    · rw [account_withdraw] at hh
      exact .inr ⟨h', (mem_update hh).resolve_left (by simp)⟩
  exact ⟨⟨⟨ha, fun n hn => .inl (by simpa using hn)⟩, hd⟩, rfl, rfl, by simp⟩

theorem read_reads (rows : ResultSet) : Reads j l (l.read j rows) := by
  refine ⟨⟨⟨⟨Nat.le_refl _, fun _ _ => rfl, List.Subset.refl _, List.subset_append_left ..,
    fun _ _ => id, fun _ _ => .inl, fun hb => ⟨hb.accounts, hb.committed, fun read hm => ?_⟩⟩,
    fun _ => .inl⟩, fun _ => .inl rfl⟩, rfl, rfl, rfl⟩
  rcases List.mem_append.mp hm with hm | hm
  · exact hb.reads read hm
  · rw [List.mem_singleton.mp hm]
    exact Nat.le_refl _

theorem ranOf_subset {α : Type} (items : List Nat) (r : Except Error α) :
    ranOf items r ⊆ items := by
  unfold ranOf
  split
  · exact List.take_subset ..
  · exact List.Subset.refl _

theorem run_runs {items : List Nat} {next : Nat} (hn : l.next ≤ next)
    (hi : ∀ n ∈ items, (∃ h, n ∈ (l.accounts j).waiting h) ∨ l.next ≤ n ∧ n < next) :
    Runs j l { l.run j items with next } := by
  have ha : Acts j l { l.run j items with next } := by
    refine Acts.of_account [] hn (fun i hi => accounts_setAccount_of_ne hi _) rfl
      (List.append_nil _).symm (fun n hh => ?_) (by simp)
    change ((l.run j items).accounts j).Holds n at hh
    rw [account_run] at hh
    rcases hh with hh | hh
    · rcases List.mem_append.mp hh with hh | hh
      · exact .inl (.inl hh)
      · exact (hi n hh).imp_left .inr
    · exact .inl (.inr hh)
  refine ⟨⟨ha, fun n hn => .inl ?_⟩, fun h => .inl ?_⟩
  · change n ∈ ((l.run j items).accounts j).executed
    simp [hn]
  · change ((l.run j items).accounts j).waiting h = _
    simp

theorem runOne_runs {α : Type} (r : Except Error α) : Runs j l (l.runOne j r) :=
  run_runs (Nat.le_succ _) fun n hn => .inr <| by
    rw [List.mem_singleton.mp (ranOf_subset _ r hn)]
    exact ⟨Nat.le_refl _, Nat.lt_succ_self _⟩

theorem runBatch_runs {α : Type} (h : Handle) (r : Except Error α) :
    Runs j l (l.runBatch j h r) := by
  have hr : Runs j l (l.run j (ranOf ((l.accounts j).waiting h) r)) :=
    run_runs (Nat.le_refl _) fun n hn => .inl ⟨h, ranOf_subset _ r hn⟩
  exact trans_of (Runs j) hr (withdraw_reads h).toRuns

theorem submit_works (h : Handle) : Works j l (l.submit j h) := by
  have ha : Acts j l (l.submit j h) := by
    refine Acts.of_account [] (Nat.le_succ _) (fun i hi => accounts_setAccount_of_ne hi _)
      rfl (List.append_nil _).symm (fun n hh => ?_) (by simp)
    rw [account_submit] at hh
    rcases hh with hh | ⟨h', hh⟩
    · exact .inl (.inl hh)
    · rcases mem_update hh with hh | hh
      · rcases List.mem_append.mp hh with hh | hh
        · exact .inl (.inr ⟨h, hh⟩)
        · rw [List.mem_singleton.mp hh]
          exact .inr ⟨Nat.le_refl _, Nat.lt_succ_self _⟩
      · exact .inl (.inr ⟨h', hh⟩)
  exact ⟨ha, fun n hn => .inl (by simpa using hn)⟩

theorem waiting_submit_of_ne {h h' : Handle} (hne : h' ≠ h) :
    ((l.submit j h).accounts j).waiting h' = (l.accounts j).waiting h' := by
  simp [Function.update_of_ne hne]

theorem commit_runs : Runs j l (l.commit j) := by
  have ha : Acts j l (l.commit j) := by
    refine Acts.of_account _ (Nat.le_refl _) (fun i hi => accounts_setAccount_of_ne hi _) rfl rfl
      (fun n hh => .inl ?_) fun n hn => .inl hn
    rw [account_commit] at hh
    exact .inr (hh.resolve_left (by simp))
  exact ⟨⟨ha, fun n hn => .inr (List.mem_append_right _ hn)⟩, fun h => .inl (by simp)⟩

theorem rollback_acts : Acts j l (l.rollback j) := by
  refine Acts.of_account [] (Nat.le_refl _) (fun i hi => accounts_setAccount_of_ne hi _)
    rfl (List.append_nil _).symm (fun n hh => .inl ?_) (by simp)
  rw [account_rollback] at hh
  exact .inr (hh.resolve_left (by simp))

theorem rollback_drops : (l.accounts j).Drops ((l.rollback j).accounts j) := fun h => .inl (by simp)

end Ledger

-- ---------------------------------------------------------------------------
-- States with a ledger
-- ---------------------------------------------------------------------------

class Booked (τ : Type) where
  ledger : τ → Ledger

export Booked (ledger)

instance {σ : Type} : Booked (Ledgered σ) := ⟨Ledgered.ledger⟩

instance {τ α : Type} [Booked τ] : Booked (α × τ) := ⟨fun t => ledger t.2⟩

def Over {τ : Type} [Booked τ] (R : Ledger → Ledger → Prop) (t t' : τ) : Prop :=
  R (ledger t) (ledger t')

instance {τ : Type} [Booked τ] {R : Ledger → Ledger → Prop} [IsPreorder Ledger R] :
    IsPreorder τ (Over R) where
  refl t := refl_of R (ledger t)
  trans _ _ _ h h' := trans_of R h h'

section
variable {σ τ α : Type} [Booked τ] {R : Ledger → Ledger → Prop} {j : Nat} {d : Driver σ}

theorem noted_respects {note : Except Error α → Ledger → Ledger} (a : Action σ α)
    (h : ∀ r l, R l (note r l)) : (a.noted note).Respects (Over R) :=
  fun _ => h _ _

theorem noteOk_respects [IsPreorder Ledger R] {note : α → Ledger → Ledger} (a : Action σ α)
    (h : ∀ value l, R l (note value l)) : (a.noted (noteOk note)).Respects (Over R) :=
  noted_respects a fun r l => by
    cases r with
    | ok value => exact h value l
    | error => exact refl_of R l

theorem noted_ok (note : Except Error α → Ledger → Ledger) (a : Action σ α) (s : Ledgered σ) :
    Triple (a.noted note) s (fun value s' => ledger s' = note (.ok value) (ledger s))
      (fun e s' => ledger s' = note (.error e) (ledger s)) := by
  unfold Triple Action.noted
  rw [Action.outcome_ofOutcome]
  rcases a.outcome s.state with ⟨r, s'⟩
  cases r <;> rfl

theorem onSecond_respects {a : Action τ α} (h : a.Respects (Over R)) {β : Type} :
    (a.onSecond : Action (β × τ) α).Respects (Over R) :=
  h.within fun _ _ => id

namespace Driver

open Ledger

theorem prepare_reads (d : Driver σ) (sql : String) (timeout : Option Timeout) :
    ((d.ledgered j).prepare sql timeout).Respects (Over (Reads j)) :=
  noteOk_respects _ fun h _ => withdraw_reads h

theorem bind_reads (d : Driver σ) (h : Handle) (values : List Value) :
    ((d.ledgered j).bind h values).Respects (Over (Reads j)) :=
  noted_respects _ fun _ l => refl_of (Reads j) l

theorem close_reads (d : Driver σ) (h : Handle) :
    ((d.ledgered j).close h).Respects (Over (Reads j)) :=
  noted_respects _ fun _ _ => withdraw_reads h

theorem executeUpdate_runs (d : Driver σ) (h : Handle) :
    ((d.ledgered j).executeUpdate h).Respects (Over (Runs j)) :=
  noted_respects _ fun r _ => runOne_runs r

theorem executeBatch_runs (d : Driver σ) (h : Handle) :
    ((d.ledgered j).executeBatch h).Respects (Over (Runs j)) :=
  noted_respects _ fun r _ => runBatch_runs h r

end Driver

end

end MappedSql
