import MappedSql.Proofs.Systems

/-!
# Only committed results are published

Whatever sessions do, and whatever fails: once a result enters a cache, all updates that its
session had executed and not yet committed when it read the result are committed. What a session
holds for the caches may rest on updates that are still to be committed; if they are rolled back
instead, the session gives it up.
-/

namespace MappedSql

open Ledger

variable {σ : Type} {i j : Nat} {entry : CacheKey × ResultSet} {l l' : Ledger}

/-- The session has read the result, and none of the updates that it read it on top of has been
given up. -/
def Accounted (j : Nat) (entry : CacheKey × ResultSet) (l : Ledger) : Prop :=
  ∃ read ∈ l.reads, read.reader = j ∧ read.Gives entry.2 ∧
    ∀ n ∈ read.account.executed, n ∈ (l.accounts j).executed ∨ n ∈ l.committed

theorem Accounted.works (h : Accounted j entry l) (hw : Works j l l') :
    Accounted j entry l' := by
  obtain ⟨read, hm, hj, hg, he⟩ := h
  refine ⟨read, hw.reads hm, hj, hg, fun n hn => ?_⟩
  rcases he n hn with he | hc
  · exact hw.kept n he
  · exact .inr (hw.committed hc)

theorem Accounted.acts (h : Accounted i entry l) (hi : i ≠ j) (ha : Acts j l l') :
    Accounted i entry l' := by
  obtain ⟨read, hm, hj, hg, he⟩ := h
  refine ⟨read, ha.reads hm, hj, hg, fun n hn => ?_⟩
  rw [ha.others i hi]
  exact (he n hn).imp_right fun hc => ha.committed hc

theorem Accounted.of_fetched (h : Fetched j l entry.2 l') : Accounted j entry l' := by
  obtain ⟨l₀, found, -, -, hw, hg⟩ := h
  have hread : Accounted j entry (l₀.read j found) :=
    ⟨l₀.readOf j found, List.mem_append_right _ List.mem_cons_self, rfl, hg, fun _ => .inl⟩
  exact hread.works hw

namespace System

theorem run_accounted (caches : Caches) (state : σ) (events : List (Event σ)) :
    ((start caches state).run events).Sound ∧ ((start caches state).run events).Held Accounted := by
  refine run_induction (I := fun _ s => s.Sound ∧ s.Held Accounted)
    ⟨start_sound caches state, fun _ _ hj => by simp [start] at hj⟩ ?_
  rintro before e - ⟨hs, hh⟩
  have h := step_cases (U := fun _ => True) hs (fun _ _ _ _ _ _ _ _ => trivial) e
  refine ⟨h.sound hs, h.held hs (fun _ _ _ h hw => h.works hw) ?_ ?_ hh⟩
  · exact fun _ _ _ _ hi h ha => h.acts hi ha
  · exact fun _ _ _ hf => .of_fetched hf

/-- A result that is in a cache after an event has been there before, or the event is a call of
a session that has read the result itself, and all that the session had executed by then is
committed now. The driver may number its results, so that the rows tell which read they are
of. -/
theorem only_committed_results_are_shared (caches : Caches) (state : σ) (events : List (Event σ))
    (e : Event σ) {i : Nat} {entry : CacheKey × ResultSet}
    (h : ((start caches state).run (events ++ [e])).world.caches.Has i entry) :
    ((start caches state).run events).world.caches.Has i entry ∨
      ∃ j c, e = .call j c ∧ c.Publishes ∧
        ∃ read ∈ (ledger ((start caches state).run (events ++ [e]))).reads,
          read.reader = j ∧ read.Gives entry.2 ∧ ∀ n ∈ read.account.executed,
            n ∈ (ledger ((start caches state).run (events ++ [e]))).committed := by
  obtain ⟨hs, hh⟩ := run_accounted caches state events
  rw [run_concat] at h ⊢
  have hstep := step_cases (U := fun _ => True) hs (fun _ _ _ _ _ _ _ _ => trivial) e
  generalize (start caches state).run events = s at *
  generalize s.step e = s' at *
  cases hstep with
  | opens c d timeout type => exact .inl h
  | unopened c hj => exact .inl h
  | @call j c session session' world r hj hr heffect =>
    have hm := heffect.moves (hs.sessions j session hj)
    rcases hm.shared i entry h with h | ⟨hheld, hc, hw, he⟩
    · exact .inl h
    · obtain ⟨read, hread, hreader, hg, hn⟩ := (hh j session hj entry hheld).works hw
      refine .inr ⟨j, c, rfl, hc, read, hread, hreader, hg, fun n hm => ?_⟩
      rcases hn n hm with hn | hn
      · rw [he] at hn
        exact absurd hn List.not_mem_nil
      · exact hn

def countsAndLooks : List (Event Counter) :=
  [Counter.opens 0, Counter.counts 0, Counter.looks 0]

theorem committed_count_is_shared :
    ∃ entry : CacheKey × ResultSet, entry.2 = Counter.rowsOf 1 ∧
      ((start Counter.caches {}).run (countsAndLooks ++ [Counter.commits 0])).world.caches.Has 0
        entry ∧
      (((start Counter.caches {}).run countsAndLooks).world.caches.Has 0 entry ∨
        ∃ j c, Counter.commits 0 = .call j c ∧ c.Publishes ∧
          ∃ read ∈ (ledger ((start Counter.caches {}).run
              (countsAndLooks ++ [Counter.commits 0]))).reads,
            read.reader = j ∧ read.Gives entry.2 ∧ ∀ n ∈ read.account.executed,
              n ∈ (ledger ((start Counter.caches {}).run
                (countsAndLooks ++ [Counter.commits 0]))).committed) := by
  have hrows : ((start Counter.caches {}).run
      (countsAndLooks ++ [Counter.commits 0])).world.caches.caches.map (·.entries.map (·.2)) =
        [[Counter.rowsOf 1]] := by
    with_unfolding_all rfl
  obtain ⟨c, hc, he⟩ := List.map_eq_singleton_iff.mp hrows
  obtain ⟨entry, hm, hr⟩ := List.map_eq_singleton_iff.mp he
  have hh : ((start Counter.caches {}).run
      (countsAndLooks ++ [Counter.commits 0])).world.caches.Has 0 entry :=
    ⟨c, by simp only [hc, List.getElem?_cons_zero], by simp only [hm, List.mem_singleton]⟩
  exact ⟨entry, hr, hh, only_committed_results_are_shared _ _ _ _ hh⟩

end System

end MappedSql
