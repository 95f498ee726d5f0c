import MappedSql.Executor.Batch

/-!
# Batches that fail

The turns that the groups of a queue have when it is flushed. Each runs the batch of its
group, generates the keys and closes the handle. The flush is the turns of all groups, or of
those up to the first that fails, after which the other handles are only closed. Its answer
is read off the turns, and so are the calls that the driver sees.
-/

namespace MappedSql

variable {σ α : Type}

-- ---------------------------------------------------------------------------
-- Closing
-- ---------------------------------------------------------------------------

namespace Channel

/-- A channel after the driver was asked to close a handle, whether or not it could. -/
def closing (d : Driver σ) (c : Channel σ) (h : Handle) : Channel σ :=
  { c with database := ((d.close h).outcome c.database).2 }

@[simp] theorem outcome_drive (a : Action σ α) (c : Channel σ) :
    (drive a).outcome c =
      ((a.outcome c.database).1, { c with database := (a.outcome c.database).2 }) :=
  rfl

@[simp] theorem outcome_release (d : Driver σ) (h : Handle) (c : Channel σ) :
    (release d h).outcome c = (.ok (), c.closing d h) :=
  rfl

end Channel

@[simp] theorem StatementPool.outcome_releaseAll (d : Driver σ) (handles : List Handle)
    (c : Channel σ) :
    (releaseAll d handles).outcome c = (.ok (), handles.foldl (Channel.closing d) c) := by
  induction handles generalizing c with
  | nil => rfl
  | cons h rest ih => simp [releaseAll, Action.outcome_bind, ih]

-- ---------------------------------------------------------------------------
-- Turns
-- ---------------------------------------------------------------------------

/-- The counts that come with a cause of failure, or else those that are known without it. -/
def Error.countsOr (known : List Nat) : Error → List Nat
  | .batchUpdate _ counts => counts
  | _ => known

namespace BatchGroup

def reported (g : BatchGroup) (counts : List Nat) : BatchResult :=
  { g.result with counts }

/-- The turn of a group. It gives the counts of the driver, or why it failed and the counts that
the driver had given by then. -/
inductive Turn (d : Driver σ) (g : BatchGroup) (c : Channel σ) :
    Except (Error × List Nat) (List Nat) → Channel σ → Prop
  | done {counts : List Nat} {database : σ} {c' : Channel σ}
      (batch : (d.executeBatch g.handle).outcome c.database = (.ok counts, database))
      (keys : (g.generateKeys g.result.arguments).outcome { c with database } = (.ok (), c')) :
      Turn d g c (.ok counts) (c'.closing d g.handle)
  | batchFails {cause : Error} {database : σ}
      (batch : (d.executeBatch g.handle).outcome c.database = (.error cause, database)) :
      Turn d g c (.error (cause, [])) (Channel.closing d { c with database } g.handle)
  | keysFail {counts : List Nat} {cause : Error} {database : σ} {c' : Channel σ}
      (batch : (d.executeBatch g.handle).outcome c.database = (.ok counts, database))
      (keys : (g.generateKeys g.result.arguments).outcome { c with database } =
        (.error cause, c')) :
      Turn d g c (.error (cause, counts)) (c'.closing d g.handle)

variable {d : Driver σ} {g : BatchGroup} {c c' : Channel σ}

theorem exists_turn (d : Driver σ) (g : BatchGroup) (c : Channel σ) :
    ∃ answer c', Turn d g c answer c' := by
  rcases hb : (d.executeBatch g.handle).outcome c.database with ⟨counts | cause, database⟩
  · exact ⟨_, _, .batchFails hb⟩
  · rcases hk : (g.generateKeys g.result.arguments).outcome { c with database } with ⟨_ | _, c'⟩
    · exact ⟨_, _, .keysFail hb hk⟩
    · exact ⟨_, _, .done hb hk⟩

theorem Turn.runAll_done {counts : List Nat} (h : Turn d g c (.ok counts) c')
    (completed : List BatchResult) (rest : BatchQueue) :
    (BatchQueue.runAll d completed (g :: rest)).outcome c =
      (BatchQueue.runAll d (completed ++ [g.reported counts]) rest).outcome c' := by
  cases h with
  | done batch keys => simp [BatchQueue.runAll, run, Action.outcome_bind, batch, keys, reported]

theorem Turn.runAll_fails {cause : Error} {counts : List Nat}
    (h : Turn d g c (.error (cause, counts)) c') (completed : List BatchResult)
    (rest : BatchQueue) :
    (BatchQueue.runAll d completed (g :: rest)).outcome c =
      (.error (.batchFailed completed.length completed (g.reported (cause.countsOr counts)) cause),
        (rest.map (·.handle)).foldl (Channel.closing d) c') := by
  cases h with
  | batchFails batch =>
    cases cause <;>
      simp [BatchQueue.runAll, run, Action.outcome_bind, batch, reported, Error.countsOr]
  | keysFail batch keys =>
    cases cause <;>
      simp [BatchQueue.runAll, run, Action.outcome_bind, batch, keys, reported, Error.countsOr]

/-- Groups that each have their turn, one after the other, with the counts of the driver. -/
inductive Turns (d : Driver σ) : List (BatchGroup × List Nat) → Channel σ → Channel σ → Prop
  | nil (c : Channel σ) : Turns d [] c c
  | cons {g : BatchGroup} {counts : List Nat} {done : List (BatchGroup × List Nat)}
      {c c₁ c₂ : Channel σ} (first : Turn d g c (.ok counts) c₁) (rest : Turns d done c₁ c₂) :
      Turns d ((g, counts) :: done) c c₂

def results (done : List (BatchGroup × List Nat)) : List BatchResult :=
  done.map fun (g, counts) => g.reported counts

theorem Turns.runAll {done : List (BatchGroup × List Nat)} (h : Turns d done c c')
    (completed : List BatchResult) (rest : BatchQueue) :
    (BatchQueue.runAll d completed (done.map (·.1) ++ rest)).outcome c =
      (BatchQueue.runAll d (completed ++ results done) rest).outcome c' := by
  induction h generalizing completed with
  | nil => simp [results]
  | cons first _ ih =>
    rw [List.map_cons, List.cons_append, first.runAll_done, ih]
    simp [results]

/-- In every queue all groups have their turn, or some do and then comes one that fails. -/
theorem exists_turns (d : Driver σ) (queue : BatchQueue) (c : Channel σ) :
    (∃ done c', queue = done.map (·.1) ∧ Turns d done c c') ∨
      ∃ done g rest cause counts c₁ c₂, queue = done.map (·.1) ++ g :: rest ∧ Turns d done c c₁ ∧
        Turn d g c₁ (.error (cause, counts)) c₂ := by
  induction queue generalizing c with
  | nil => exact .inl ⟨[], c, rfl, .nil c⟩
  | cons g rest ih =>
    obtain ⟨answer, c', hturn⟩ := exists_turn d g c
    cases answer with
    | error failure => exact .inr ⟨[], g, rest, _, _, c, c', rfl, .nil c, hturn⟩
    | ok counts =>
      rcases ih c' with ⟨done, c₂, rfl, hdone⟩ | ⟨done, last, rest, _, _, c₁, c₂, rfl, hdone, hlast⟩
      · exact .inl ⟨(g, counts) :: done, c₂, rfl, .cons hturn hdone⟩
      · exact .inr ⟨(g, counts) :: done, last, rest, _, _, c₁, c₂, rfl, .cons hturn hdone, hlast⟩

end BatchGroup

namespace BatchQueue

open BatchGroup

variable {d : Driver σ} {c c₁ c₂ : Channel σ} {done : List (BatchGroup × List Nat)}

theorem outcome_flush (d : Driver σ) (queue : BatchQueue) (c : Channel σ) :
    (flush d).outcome (queue, c) =
      (((runAll d [] queue).outcome c).1, [], ((runAll d [] queue).outcome c).2) :=
  rfl

theorem flush_done (h : Turns d done c c₁) :
    (flush d).outcome (done.map (·.1), c) = (.ok (results done), [], c₁) := by
  have hr := h.runAll [] []
  rw [List.append_nil] at hr
  rw [outcome_flush, hr]
  rfl

theorem flush_fails {g : BatchGroup} {rest : BatchQueue} {cause : Error} {counts : List Nat}
    (h : Turns d done c c₁) (hlast : Turn d g c₁ (.error (cause, counts)) c₂) :
    (flush d).outcome (done.map (·.1) ++ g :: rest, c) =
      (.error (.batchFailed done.length (results done) (g.reported (cause.countsOr counts)) cause),
        [], (rest.map (·.handle)).foldl (Channel.closing d) c₂) := by
  rw [outcome_flush, h.runAll, hlast.runAll_fails]
  simp [results]

end BatchQueue

-- ---------------------------------------------------------------------------
-- The calls that a driver sees
-- ---------------------------------------------------------------------------

inductive DriverCall
  | prepare (sql : String) (timeout : Option Timeout)
  | bind (h : Handle) (values : List Value)
  | addBatch (h : Handle)
  | executeUpdate (h : Handle)
  | executeBatch (h : Handle)
  | executeQuery (h : Handle)
  | close (h : Handle)
  | commit
  | rollback

namespace DriverCall

def executed? : DriverCall → Option Handle
  | .executeBatch h => some h
  | _ => none

def closed? : DriverCall → Option Handle
  | .close h => some h
  | _ => none

end DriverCall

structure Traced (σ : Type) where
  calls : List DriverCall := []
  state : σ

def Action.noting (call : DriverCall) (a : Action σ α) : Action (Traced σ) α :=
  .ofOutcome fun s =>
    ((a.outcome s.state).1, { calls := s.calls ++ [call], state := (a.outcome s.state).2 })

/-- A driver that also notes each of its calls. -/
def Driver.traced (d : Driver σ) : Driver (Traced σ) where
  prepare sql timeout := (d.prepare sql timeout).noting (.prepare sql timeout)
  bind h values := (d.bind h values).noting (.bind h values)
  addBatch h := (d.addBatch h).noting (.addBatch h)
  executeUpdate h := (d.executeUpdate h).noting (.executeUpdate h)
  executeBatch h := (d.executeBatch h).noting (.executeBatch h)
  executeQuery h := (d.executeQuery h).noting (.executeQuery h)
  close h := (d.close h).noting (.close h)
  commit := d.commit.noting .commit
  rollback := d.rollback.noting .rollback

def Channel.traced (c : Channel σ) (calls : List DriverCall) : Channel (Traced σ) where
  database := { calls, state := c.database }
  journal := c.journal

namespace BatchGroup

variable {d : Driver σ} {g : BatchGroup} {c c' : Channel σ}

def turnCalls (g : BatchGroup) : List DriverCall :=
  [.executeBatch g.handle, .close g.handle]

theorem closing_traced (d : Driver σ) (c : Channel σ) (calls : List DriverCall) (h : Handle) :
    Channel.closing d.traced (c.traced calls) h =
      (c.closing d h).traced (calls ++ [.close h]) :=
  rfl

theorem foldl_closing_traced (d : Driver σ) (handles : List Handle) (c : Channel σ)
    (calls : List DriverCall) :
    handles.foldl (Channel.closing d.traced) (c.traced calls) =
      (handles.foldl (Channel.closing d) c).traced (calls ++ handles.map .close) := by
  induction handles generalizing c calls with
  | nil => simp
  | cons h rest ih => simp [closing_traced, ih]

theorem generateKey_traced (generator : Option KeyGenerator) (event : KeyEvent) (c : Channel σ)
    (calls : List DriverCall) :
    (Channel.generateKeys generator event).outcome (c.traced calls) =
      (((Channel.generateKeys generator event).outcome c).1,
        ((Channel.generateKeys generator event).outcome c).2.traced calls) := by
  cases generator with
  | none => rfl
  | some generate =>
    simp [Channel.generateKeys, Channel.record, Action.outcome_bind, Channel.traced]

theorem requestKeys_traced (g : BatchGroup) (requests : List KeyRequest) (c : Channel σ)
    (calls : List DriverCall) :
    (g.requestKeys requests).outcome (c.traced calls) =
      (((g.requestKeys requests).outcome c).1,
        ((g.requestKeys requests).outcome c).2.traced calls) := by
  induction requests generalizing c with
  | nil => rfl
  | cons request rest ih =>
    simp only [requestKeys, Action.outcome_bind, generateKey_traced]
    rcases (Channel.generateKeys g.keyGenerator
      { statement := g.result.statement, handle := g.handle, request }).outcome c with ⟨_ | _, c'⟩
    · rfl
    · exact ih c'

theorem generateKeys_traced (g : BatchGroup) (arguments : List Argument) (c : Channel σ)
    (calls : List DriverCall) :
    (g.generateKeys arguments).outcome (c.traced calls) =
      (((g.generateKeys arguments).outcome c).1,
        ((g.generateKeys arguments).outcome c).2.traced calls) :=
  g.requestKeys_traced _ c calls

theorem Turn.traced {answer : Except (Error × List Nat) (List Nat)} (h : Turn d g c answer c')
    (calls : List DriverCall) :
    Turn d.traced g (c.traced calls) answer (c'.traced (calls ++ g.turnCalls)) := by
  have hnote : ∀ {outcome database}, (d.executeBatch g.handle).outcome c.database =
      (outcome, database) → (d.traced.executeBatch g.handle).outcome (c.traced calls).database =
        (outcome, { calls := calls ++ [.executeBatch g.handle], state := database }) := by
    intro outcome database hb
    simp only [Driver.traced, Action.noting, Channel.traced, Action.outcome_ofOutcome, hb]
  have hcalls : calls ++ g.turnCalls = calls ++ [.executeBatch g.handle] ++ [.close g.handle] := by
    simp [turnCalls]
  rw [hcalls]
  have hkeys := fun database : σ => g.generateKeys_traced g.result.arguments { c with database }
    (calls ++ [.executeBatch g.handle])
  cases h with
  | done batch keys => exact .done (hnote batch) ((hkeys _).trans (by rw [keys]))
  | batchFails batch => exact .batchFails (hnote batch)
  | keysFail batch keys => exact .keysFail (hnote batch) ((hkeys _).trans (by rw [keys]))

theorem Turns.traced {done : List (BatchGroup × List Nat)} (h : Turns d done c c')
    (calls : List DriverCall) :
    Turns d.traced done (c.traced calls)
      (c'.traced (calls ++ done.flatMap fun (g, _) => g.turnCalls)) := by
  induction h generalizing calls with
  | nil => simpa using Turns.nil _
  | cons first _ ih =>
    rw [List.flatMap_cons, ← List.append_assoc]
    exact .cons (first.traced calls) (ih _)

/-- The calls of a flush: each group that has its turn takes two, and each of those that are left
is closed. -/
def flushCalls (ran left : BatchQueue) : List DriverCall :=
  ran.flatMap turnCalls ++ left.map fun g => .close g.handle

theorem executed_flushCalls (ran left : BatchQueue) :
    (flushCalls ran left).filterMap DriverCall.executed? = ran.map (·.handle) := by
  have hran : (ran.flatMap turnCalls).filterMap DriverCall.executed? = ran.map (·.handle) := by
    induction ran with
    | nil => rfl
    | cons g ran ih =>
      rw [List.flatMap_cons, List.filterMap_append, ih]
      rfl
  have hleft : (left.map fun g => DriverCall.close g.handle).filterMap DriverCall.executed? =
      [] := by
    simp [List.filterMap_map, DriverCall.executed?]
  rw [flushCalls, List.filterMap_append, hran, hleft, List.append_nil]

theorem closed_flushCalls (ran left : BatchQueue) :
    (flushCalls ran left).filterMap DriverCall.closed? = (ran ++ left).map (·.handle) := by
  have hran : (ran.flatMap turnCalls).filterMap DriverCall.closed? = ran.map (·.handle) := by
    induction ran with
    | nil => rfl
    | cons g ran ih =>
      rw [List.flatMap_cons, List.filterMap_append, ih]
      rfl
  have hleft : (left.map fun g => DriverCall.close g.handle).filterMap DriverCall.closed? =
      left.map (·.handle) := by
    simp [List.filterMap_map, DriverCall.closed?, Function.comp_def]
  rw [flushCalls, List.filterMap_append, hran, hleft, List.map_append]

end BatchGroup

namespace BatchQueue

open BatchGroup

variable {d : Driver σ} {c c₁ c₂ : Channel σ} {done : List (BatchGroup × List Nat)}

/-- How the flush of a queue ends in which some groups had their turn and the others did not. No
group waits after it. Of all batches only those of the former were executed, and the handles of
all groups were closed, one after the other. -/
structure Flushed (d : Driver σ) (ran left : BatchQueue) (c : Channel σ)
    (answer : Except Error (List BatchResult)) (c' : Channel σ) : Prop where
  outcome : (flush d).outcome (ran ++ left, c) = (answer, [], c')
  calls (before : List DriverCall) :
    (flush d.traced).outcome (ran ++ left, c.traced before) =
      (answer, [], c'.traced (before ++ flushCalls ran left))
  executed : (flushCalls ran left).filterMap DriverCall.executed? = ran.map (·.handle)
  closed : (flushCalls ran left).filterMap DriverCall.closed? = (ran ++ left).map (·.handle)

theorem flushed_done (h : Turns d done c c₁) :
    Flushed d (done.map (·.1)) [] c (.ok (results done)) c₁ where
  outcome := by simpa using flush_done h
  calls before := by simpa [flushCalls, List.flatMap_map] using flush_done (h.traced before)
  executed := executed_flushCalls ..
  closed := closed_flushCalls ..

theorem flushed_fails {g : BatchGroup} {rest : BatchQueue} {cause : Error} {counts : List Nat}
    (h : Turns d done c c₁) (hlast : Turn d g c₁ (.error (cause, counts)) c₂) :
    Flushed d (done.map (·.1) ++ [g]) rest c
      (.error (.batchFailed done.length (results done) (g.reported (cause.countsOr counts)) cause))
      ((rest.map (·.handle)).foldl (Channel.closing d) c₂) where
  outcome := by
    rw [List.append_assoc, List.singleton_append]
    exact flush_fails h hlast
  calls before := by
    rw [List.append_assoc, List.singleton_append, flush_fails (h.traced before) (hlast.traced _),
      foldl_closing_traced]
    simp [flushCalls, List.flatMap_map, Function.comp_def]
  executed := executed_flushCalls ..
  closed := closed_flushCalls ..

/-- Where all groups have their turn, a flush gives their results. Where one fails, it tells its
position, the results of those before it, what is known of its own, and the cause. -/
theorem flushes_report_what_ran (d : Driver σ) (queue : BatchQueue) (c : Channel σ) :
    (∃ done c', queue = done.map (·.1) ∧ Turns d done c c' ∧
      Flushed d queue [] c (.ok (results done)) c') ∨
    ∃ done g rest cause counts c₁ c₂ c', queue = done.map (·.1) ++ g :: rest ∧
      Turns d done c c₁ ∧ Turn d g c₁ (.error (cause, counts)) c₂ ∧
      Flushed d (done.map (·.1) ++ [g]) rest c
        (.error (.batchFailed done.length (results done)
          (g.reported (cause.countsOr counts)) cause)) c' := by
  rcases exists_turns d queue c with
    ⟨done, c', rfl, h⟩ | ⟨done, g, rest, cause, counts, c₁, c₂, rfl, h, hlast⟩
  · exact .inl ⟨done, c', rfl, h, flushed_done h⟩
  · exact .inr ⟨done, g, rest, cause, counts, c₁, c₂, _, rfl, h, hlast, flushed_fails h hlast⟩

end BatchQueue

end MappedSql
