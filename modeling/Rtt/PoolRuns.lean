import Mathlib.Data.Int.CardIntervalMod
import Rtt.ConnectionPool
import Rtt.Machine

namespace Rtt.PoolRuns

open Rtt.MachineWord
open Rtt.ClobExecutor
open Rtt.ConnectionPool
open Rtt.Machine

variable {Task : Type} [DecidableEq Task]

def events (pool : Pool Task) (actions : List (Action Task)) : List (Event Task) :=
  (outputs step pool actions).flatten

theorem step_elim {motive : Pool Task × List (Event Task) → Prop} (pool : Pool Task)
    (action : Action Task) (idle : motive (pool, []))
    (send : ∀ task, pool.phase task = .idle → motive (pool.startSend task))
    (reportFailure : ∀ task index, pool.phase task = .idle →
      motive (pool.markUnhealthy task index .direct))
    (reconnect : ∀ task index, pool.phase task = .idle →
      motive (pool.moveTo task (.connecting index .direct), []))
    (healthCheck : ∀ task, pool.phase task = .idle → motive (pool.checkFrom task 0 []))
    (readHealth : ∀ task index, pool.phase task = .acquired index →
      motive (pool.readHealth task index))
    (handOver : ∀ task index, pool.phase task = .ready index → motive (pool.handOver task index))
    (collect : ∀ task index sender answer, pool.phase task = .sent index sender →
      motive (pool.collect task index sender answer))
    (markFailed : ∀ task index sender error, pool.phase task = .failed index sender error →
      motive (pool.markFailed task index sender error))
    (connect : ∀ task index purpose dial, pool.phase task = .connecting index purpose →
      motive (pool.connect task index purpose dial))
    (install : ∀ task index sender purpose, pool.phase task = .connected index sender purpose →
      motive (pool.install task index sender purpose))
    (check : ∀ task index statuses answer, pool.phase task = .checking index statuses →
      motive (pool.check task index statuses answer)) :
    motive (step pool action) := by
  cases action <;> simp only [step] <;> split
  all_goals first
    | exact idle
    | rename_i hphase
      first
        | exact send _ hphase
        | exact reportFailure _ _ hphase
        | exact reconnect _ _ hphase
        | exact healthCheck _ hphase
        | exact readHealth _ _ hphase
        | exact handOver _ _ hphase
        | exact collect _ _ _ _ hphase
        | exact markFailed _ _ _ _ hphase
        | exact connect _ _ _ _ hphase
        | exact install _ _ _ _ hphase
        | exact check _ _ _ _ hphase

section Lookups

variable {pool : Pool Task} {task : Task} {index : Nat}

@[simp] theorem phase_moveTo_self (phase : Phase) : (pool.moveTo task phase).phase task = phase :=
  Function.update_self ..

theorem phase_moveTo (phase : Phase) (other : Task) :
    (pool.moveTo task phase).phase other = if other = task then phase else pool.phase other :=
  Function.update_apply ..

@[simp] theorem senderAt_moveTo (phase : Phase) :
    (pool.moveTo task phase).senderAt = pool.senderAt := rfl

omit [DecidableEq Task] in
@[simp] theorem length_setHealthy (healthy : Bool) :
    (pool.setHealthy index healthy).connections.length = pool.connections.length :=
  List.length_modify ..

omit [DecidableEq Task] in
@[simp] theorem senderAt_setHealthy (healthy : Bool) :
    (pool.setHealthy index healthy).senderAt = pool.senderAt := by
  funext other
  simp only [Pool.senderAt, Pool.setHealthy, List.getElem?_modify]
  cases pool.connections[other]? with
  | none => rfl
  | some conn =>
      simp only [Option.map_some, Option.map_eq_map, Option.some.injEq]
      split <;> rfl

end Lookups

section RoundRobin

def acquiredIndices (log : List (Event Task)) : List Nat :=
  log.filterMap fun
    | .acquired _ index => some index
    | _ => none

/-- The index of the acquire that has so many before it, in a pool of the given size. -/
def turnOf (poolSize count : Nat) : Nat := count % wordSize % poolSize

/-- The connections were acquired in turn so far, and the counter knows whose turn is next. -/
structure Turns (poolSize : Nat) (pool : Pool Task) (indices : List Nat) : Prop where
  size : pool.connections.length = poolSize
  next : pool.nextIndex = indices.length % wordSize
  turns : indices = (List.range indices.length).map (turnOf poolSize)

variable {poolSize : Nat} {pool : Pool Task} {indices : List Nat}

omit [DecidableEq Task] in
theorem Turns.congr (h : Turns poolSize pool indices) {result : Pool Task}
    (hsize : result.connections.length = pool.connections.length)
    (hnext : result.nextIndex = pool.nextIndex) : Turns poolSize result indices :=
  ⟨hsize.trans h.size, hnext.trans h.next, h.turns⟩

/-- A step that acquires nothing leaves the counter and the size alone. -/
def LeavesTurn (pool : Pool Task) (result : Pool Task × List (Event Task)) : Prop :=
  result.1.connections.length = pool.connections.length ∧
    result.1.nextIndex = pool.nextIndex ∧ acquiredIndices result.2 = []

theorem leavesTurn_checkFrom (task : Task) (index : Nat) (statuses : List ConnectionHealth) :
    LeavesTurn pool (pool.checkFrom task index statuses) := by
  rw [Pool.checkFrom]
  split <;> exact ⟨rfl, rfl, rfl⟩

theorem leavesTurn_afterReconnect (task : Task) (index : Nat)
    (result : Except ConnectionError Unit) (purpose : Purpose) :
    LeavesTurn pool (pool.afterReconnect task index result purpose) := by
  cases purpose with
  | send => cases result <;> exact ⟨rfl, rfl, rfl⟩
  | report error => exact ⟨rfl, rfl, rfl⟩
  | check statuses => exact leavesTurn_checkFrom task _ statuses
  | direct => exact ⟨rfl, rfl, rfl⟩

theorem leavesTurn_check (task : Task) (index : Nat) (statuses : List ConnectionHealth)
    (answer : Except String Unit) : LeavesTurn pool (pool.check task index statuses answer) := by
  rw [Pool.check]
  split
  · exact ⟨rfl, rfl, rfl⟩
  · split
    · obtain ⟨hsize, hnext, hnone⟩ := @leavesTurn_checkFrom _ _ (pool.setHealthy index true) task
        (index + 1) (statuses ++ [{ index, healthy := true, lastError := none }])
      exact ⟨hsize.trans (length_setHealthy true), hnext, hnone⟩
    · exact ⟨length_setHealthy false, rfl, rfl⟩

theorem Turns.startSend (h : Turns poolSize pool indices) (task : Task) :
    Turns poolSize (pool.startSend task).1
      (indices ++ acquiredIndices (pool.startSend task).2) := by
  rw [Pool.startSend, Pool.acquire]
  split
  · rename_i hempty
    split at hempty
    · exact (List.append_nil indices).symm ▸ h
    · exact nomatch hempty
  · rename_i next index hsome
    split at hsome
    · exact nomatch hsome
    · obtain ⟨rfl, rfl⟩ := Prod.mk.inj (Except.ok.inj hsome)
      refine ⟨h.size, ?_, ?_⟩
      · show wrappingAdd pool.nextIndex 1 = (indices ++ [_]).length % wordSize
        rw [h.next, wrappingAdd, Nat.mod_add_mod, List.length_append, List.length_singleton]
      · show indices ++ [pool.nextIndex % pool.connections.length] = _
        rw [List.length_append, show (acquiredIndices [_]).length = 1 from rfl,
          List.range_succ, List.map_append, ← h.turns, h.size, h.next]
        rfl

theorem Turns.step (h : Turns poolSize pool indices) (action : Action Task) :
    Turns poolSize (step pool action).1 (indices ++ acquiredIndices (step pool action).2) := by
  have hleaves : ∀ result, LeavesTurn pool result →
      Turns poolSize result.1 (indices ++ acquiredIndices result.2) := by
    rintro result ⟨hsize, hnext, hnone⟩
    rw [hnone, List.append_nil]
    exact h.congr hsize hnext
  refine step_elim
    (motive := fun result => Turns poolSize result.1 (indices ++ acquiredIndices result.2))
    pool action (hleaves _ ⟨rfl, rfl, rfl⟩) (fun task _ => h.startSend task) ?_ ?_ ?_ ?_ ?_ ?_ ?_
    ?_ ?_ ?_
  · intro task index _
    refine hleaves _ ?_
    rw [Pool.markUnhealthy]
    split
    · exact ⟨rfl, rfl, rfl⟩
    · exact ⟨length_setHealthy false, rfl, rfl⟩
  · exact fun _ _ _ => hleaves _ ⟨rfl, rfl, rfl⟩
  · exact fun task _ => hleaves _ (leavesTurn_checkFrom task 0 [])
  · intro task index _
    refine hleaves _ ?_
    rw [Pool.readHealth]
    split
    · exact ⟨rfl, rfl, rfl⟩
    · split <;> exact ⟨rfl, rfl, rfl⟩
  · intro task index _
    refine hleaves _ ?_
    rw [Pool.handOver]
    split <;> exact ⟨rfl, rfl, rfl⟩
  · intro task index sender answer _
    refine hleaves _ ?_
    cases answer <;> exact ⟨rfl, rfl, rfl⟩
  · intro task index sender error _
    refine hleaves _ ?_
    rw [Pool.markFailed]
    split
    · exact ⟨rfl, rfl, rfl⟩
    · exact ⟨length_setHealthy false, rfl, rfl⟩
  · intro task index purpose dial _
    refine hleaves _ ?_
    rw [Pool.connect]
    split
    · exact leavesTurn_afterReconnect task index _ purpose
    · exact ⟨rfl, rfl, rfl⟩
  · intro task index sender purpose _
    refine hleaves _ ?_
    rw [Pool.install]
    split
    · obtain ⟨hsize, hnext, hnone⟩ := @leavesTurn_afterReconnect _ _
        { pool with connections := pool.connections.set index { sender, healthy := true } } task
        index (.ok ()) purpose
      exact ⟨hsize.trans List.length_set, hnext, hnone⟩
    · exact leavesTurn_afterReconnect task index _ purpose
  · exact fun task index statuses answer _ =>
      hleaves _ (leavesTurn_check task index statuses answer)

theorem turns_run (af : AddressFamily) (poolSize : Nat) (actions : List (Action Task)) :
    Turns poolSize (exec step (.warm af poolSize) actions)
      (acquiredIndices (events (.warm af poolSize) actions)) := by
  refine run_induction step (P := fun _ _ => True)
    (motive := fun _ pool out => Turns poolSize pool (acquiredIndices out.flatten)) ?_ ?_ actions
    (along_true _ actions)
  · exact ⟨by simp [Pool.warm], rfl, rfl⟩
  · intro _ pool out action h _
    rw [List.flatten_append, List.flatten_singleton, acquiredIndices, List.filterMap_append]
    exact h.step action

theorem count_turnOf_le (count : Nat) {first second : Nat}
    (hfirst : first < poolSize) (hsecond : second < poolSize)
    (hnowrap : count ≤ wordSize ∨ poolSize ∣ wordSize) :
    ((List.range count).map (turnOf poolSize)).count first ≤
      ((List.range count).map (turnOf poolSize)).count second + 1 := by
  have hpos : 0 < poolSize := Nat.zero_lt_of_lt hfirst
  have hturn : ∀ k < count, turnOf poolSize k = k % poolSize := by
    intro k hk
    rcases hnowrap with hcount | hdvd
    · rw [turnOf, Nat.mod_eq_of_lt (hk.trans_le hcount)]
    · exact Nat.mod_mod_of_dvd k hdvd
  have hcounts : ∀ index < poolSize, ((List.range count).map (turnOf poolSize)).count index =
      count / poolSize + if index < count % poolSize then 1 else 0 := by
    intro index hindex
    calc ((List.range count).map (turnOf poolSize)).count index
        = (List.range count).countP fun k => k ≡ index [MOD poolSize] := by
          rw [List.count_eq_countP, List.countP_map]
          refine List.countP_congr fun k hk => ?_
          simp only [Function.comp_apply, beq_iff_eq, decide_eq_true_eq, Nat.ModEq,
            hturn k (List.mem_range.mp hk), Nat.mod_eq_of_lt hindex]
      _ = Nat.count (· ≡ index [MOD poolSize]) count := rfl
      _ = _ := by rw [Nat.count_modEq_card count hpos index, Nat.mod_eq_of_lt hindex]
  rw [hcounts first hfirst, hcounts second hsecond]
  split <;> split <;> omega

/-- The connections are handed out in turn whatever the tasks do, and evenly up to the
point where the counter wraps around, or for good if the size divides its range. -/
theorem acquires_take_turns (af : AddressFamily) (poolSize : Nat) (actions : List (Action Task)) :
    let indices := acquiredIndices (events (.warm af poolSize) actions)
    indices = (List.range indices.length).map (turnOf poolSize) ∧
      ((indices.length ≤ wordSize ∨ poolSize ∣ wordSize) →
        ∀ first < poolSize, ∀ second < poolSize,
          indices.count first ≤ indices.count second + 1) := by
  intro indices
  have hturns : indices = _ := (turns_run af poolSize actions).turns
  refine ⟨hturns, ?_⟩
  intro hnowrap first hfirst second hsecond
  rw [hturns]
  exact count_turnOf_le indices.length hfirst hsecond hnowrap

end RoundRobin

end Rtt.PoolRuns
