import Rtt.PoolRuns

namespace Rtt.PoolResults

open Rtt.ClobExecutor
open Rtt.ConnectionPool
open Rtt.PoolRuns
open Rtt.Machine

variable {Task : Type} [DecidableEq Task]

/-- The index that a task has acquired last. -/
def track (held : Task → Option Nat) : Event Task → (Task → Option Nat) × Unit
  | .acquired task index => (Function.update held task (some index), ())
  | .passed _ | .handedOver _ _ | .marked _ | .cleared _ | .returned _ _ => (held, ())

/-- The first connections are listed in order, the healthy ones without an error. -/
def Listed (count : Nat) (statuses : List ConnectionHealth) : Prop :=
  statuses.map ConnectionHealth.index = List.range count ∧
    ∀ status ∈ statuses, status.healthy = true ↔ status.lastError = none

/-- The error names the connection that the task has acquired. -/
def Names (held : Task → Option Nat) (task : Task) (error : ConnectionError) : Prop :=
  connectionIndex error ≠ none ∧ connectionIndex error = held task

/-- What a call may return in a pool of the given size. -/
def Reports (poolSize : Nat) (held : Task → Option Nat) : Event Task → Prop
  | .returned task (.send (.ok (_, index))) => index < poolSize ∧ held task = some index
  | .returned task (.send (.error error)) =>
      (poolSize = 0 ∧ error = .poolEmpty) ∨ Names held task error
  | .returned _ (.healthCheck statuses) => Listed poolSize statuses
  | .returned _ (.reconnect _) => True
  | .acquired _ _ | .passed _ | .handedOver _ _ | .marked _ | .cleared _ => True

/-- The connection is the one that was acquired for the task. -/
def Holds (poolSize : Nat) (held : Task → Option Nat) (task : Task) (index : Nat) : Prop :=
  index < poolSize ∧ held task = some index

/-- What a connection is being made for is what the task began. -/
def PurposeFits (poolSize : Nat) (held : Task → Option Nat) (task : Task) (index : Nat) :
    Purpose → Prop
  | .send => Holds poolSize held task index
  | .report error => Names held task error
  | .check statuses => index < poolSize ∧ Listed (index + 1) statuses
  | .direct => True

/-- The phase of a task speaks of the connection acquired for it. -/
def PhaseFits (poolSize : Nat) (held : Task → Option Nat) (task : Task) : Phase → Prop
  | .idle => True
  | .acquired index | .ready index | .sent index _ => Holds poolSize held task index
  | .failed _ _ error => Names held task error
  | .connecting index purpose | .connected index _ purpose =>
      PurposeFits poolSize held task index purpose
  | .checking index statuses => index < poolSize ∧ Listed index statuses

/-- Every task is in a phase that fits what it was given. -/
structure Tracked (poolSize : Nat) (pool : Pool Task) (held : Task → Option Nat) : Prop where
  size : pool.connections.length = poolSize
  phases : ∀ task, PhaseFits poolSize held task (pool.phase task)

/-- A step keeps all tasks tracked and reports what it should. -/
def Keeps (poolSize : Nat) (held : Task → Option Nat) (result : Pool Task × List (Event Task)) :
    Prop :=
  Tracked poolSize result.1 (exec track held result.2) ∧
    Along track (Reports poolSize) held result.2

variable {poolSize : Nat} {pool : Pool Task} {held : Task → Option Nat} {task : Task}

theorem listed_nil : Listed 0 [] := ⟨rfl, by simp⟩

theorem Listed.concat {index : Nat} {statuses : List ConnectionHealth}
    (h : Listed index statuses) (status : ConnectionHealth) (hindex : status.index = index)
    (herror : status.healthy = true ↔ status.lastError = none) :
    Listed (index + 1) (statuses ++ [status]) := by
  constructor
  · rw [List.map_append, h.1, List.map_singleton, hindex, List.range_succ]
  · exact List.forall_mem_append.mpr ⟨h.2, List.forall_mem_singleton.mpr herror⟩

theorem Tracked.moveTo (h : Tracked poolSize pool held) (task : Task) (phase : Phase)
    (hfits : PhaseFits poolSize held task phase) :
    Tracked poolSize (pool.moveTo task phase) held where
  size := h.size
  phases := by
    intro other
    rw [phase_moveTo]
    split
    · rename_i heq
      exact heq ▸ hfits
    · exact h.phases other

omit [DecidableEq Task] in
theorem Tracked.setHealthy (h : Tracked poolSize pool held) (index : Nat) (healthy : Bool) :
    Tracked poolSize (pool.setHealthy index healthy) held :=
  ⟨(length_setHealthy healthy).trans h.size, h.phases⟩

theorem Tracked.moved (h : Tracked poolSize pool held) (task : Task) {phase : Phase}
    (hfits : PhaseFits poolSize held task phase) :
    Keeps poolSize held (pool.moveTo task phase, []) :=
  ⟨h.moveTo task phase hfits, trivial⟩

theorem Tracked.returns (h : Tracked poolSize pool held) (task : Task) {result : Returned}
    (hreports : Reports poolSize held (.returned task result)) :
    Keeps poolSize held (pool.moveTo task .idle, [.returned task result]) :=
  ⟨h.moveTo task .idle trivial, hreports, trivial⟩

theorem Tracked.checkFrom (h : Tracked poolSize pool held) (task : Task) {index : Nat}
    {statuses : List ConnectionHealth} (hindex : index ≤ poolSize)
    (hlisted : Listed index statuses) :
    Keeps poolSize held (pool.checkFrom task index statuses) := by
  rw [Pool.checkFrom, h.size]
  split
  · rename_i hless
    exact h.moved task ⟨hless, hlisted⟩
  · rename_i hge
    obtain rfl : index = poolSize := le_antisymm hindex (not_lt.mp hge)
    exact h.returns task hlisted

theorem Tracked.afterReconnect (h : Tracked poolSize pool held) (task : Task) {index : Nat}
    {result : Except ConnectionError Unit} {purpose : Purpose}
    (hpurpose : PurposeFits poolSize held task index purpose)
    (herror : ∀ error, result = .error error → connectionIndex error = some index) :
    Keeps poolSize held (pool.afterReconnect task index result purpose) := by
  cases purpose with
  | send =>
      cases result with
      | ok done => exact ⟨h.moveTo task (.ready index) hpurpose, trivial, trivial⟩
      | error error =>
          have hnamed := herror error rfl
          refine h.returns task (.inr ⟨?_, hnamed.trans hpurpose.2.symm⟩)
          rw [hnamed]
          exact Option.some_ne_none index
  | report error => exact h.returns task (.inr hpurpose)
  | check statuses => exact h.checkFrom task hpurpose.1 hpurpose.2
  | direct => exact h.returns task trivial

theorem Tracked.startSend (h : Tracked poolSize pool held) (task : Task) :
    Keeps poolSize held (pool.startSend task) := by
  rw [Pool.startSend, Pool.acquire]
  by_cases hempty : pool.connections.isEmpty = true
  · rw [if_pos hempty]
    refine ⟨h, .inl ⟨?_, rfl⟩, trivial⟩
    rw [← h.size, List.isEmpty_iff.mp hempty]
    rfl
  · rw [if_neg hempty]
    have hpos : 0 < poolSize := by
      rw [← h.size]
      exact List.length_pos_iff.mpr fun hnil => hempty (List.isEmpty_iff.mpr hnil)
    refine ⟨⟨h.size, ?_⟩, trivial, trivial⟩
    intro other
    change PhaseFits poolSize (Function.update held task _) other
      (Function.update pool.phase task _ other)
    rcases eq_or_ne other task with rfl | hne
    · rw [Function.update_self]
      exact ⟨h.size ▸ Nat.mod_lt _ (h.size ▸ hpos), Function.update_self ..⟩
    · have hother := h.phases other
      have hheld : Function.update held task (some (pool.nextIndex % pool.connections.length))
          other = held other := Function.update_of_ne hne ..
      rw [Function.update_of_ne hne]
      revert hother
      cases pool.phase other with
      | connecting index purpose | connected index sender purpose =>
          cases purpose <;> simp only [PhaseFits, PurposeFits, Holds, Names, hheld] <;> exact id
      | _ =>
          simp only [PhaseFits, Holds, Names, hheld]
          exact id

theorem Tracked.step (h : Tracked poolSize pool held) (action : Action Task) :
    Keeps poolSize held (step pool action) := by
  have hsome : ∀ index sender, pool.senderAt index = some sender → index < poolSize := by
    intro index sender hsender
    rw [← h.size]
    by_contra hge
    rw [Pool.senderAt, List.getElem?_eq_none (not_lt.mp hge)] at hsender
    exact absurd hsender (by simp)
  refine step_elim (motive := Keeps poolSize held) pool action ⟨h, trivial⟩
    (fun task _ => h.startSend task) ?_ (fun task _ _ => h.moved task trivial)
    (fun task _ => h.checkFrom task (Nat.zero_le _) listed_nil) ?_ ?_ ?_ ?_ ?_ ?_ ?_
  · intro task index _
    rw [Pool.markUnhealthy]
    split
    · exact h.returns task trivial
    · exact ⟨(h.setHealthy index false).moveTo task _ trivial, trivial, trivial⟩
  · intro task index hphase
    have hheld := h.phases task
    rw [hphase] at hheld
    rw [Pool.readHealth]
    split
    · exact ⟨h, trivial⟩
    · split
      · exact ⟨h.moveTo task (.ready index) hheld, trivial, trivial⟩
      · exact h.moved task hheld
  · intro task index hphase
    have hheld := h.phases task
    rw [hphase] at hheld
    rw [Pool.handOver]
    split
    · exact ⟨h, trivial⟩
    · exact ⟨h.moveTo task (.sent index _) hheld, trivial, trivial⟩
  · intro task index sender answer hphase
    have hheld := h.phases task
    rw [hphase] at hheld
    cases answer with
    | ok resp => exact h.returns task hheld
    | error error => exact h.moved task ⟨Option.some_ne_none index, hheld.2.symm⟩
  · intro task index sender error hphase
    have hnames := h.phases task
    rw [hphase] at hnames
    rw [Pool.markFailed]
    split
    · exact h.returns task (.inr hnames)
    · exact ⟨(h.setHealthy index false).moveTo task (.connecting index (.report error)) hnames,
        trivial, trivial, trivial⟩
  · intro task index purpose dial hphase
    have hpurpose := h.phases task
    rw [hphase] at hpurpose
    rw [Pool.connect]
    split
    · refine h.afterReconnect task hpurpose ?_
      rintro _ ⟨⟩
      rfl
    · exact ⟨⟨h.size, (h.moveTo task (.connected index pool.opened purpose) hpurpose).phases⟩,
        trivial⟩
  · intro task index sender purpose hphase
    have hpurpose := h.phases task
    rw [hphase] at hpurpose
    rw [Pool.install]
    split
    · have hset : Tracked poolSize { pool with
          connections := pool.connections.set index { sender, healthy := true } } held :=
        ⟨List.length_set.trans h.size, h.phases⟩
      exact hset.afterReconnect task hpurpose (by simp)
    · refine h.afterReconnect task hpurpose ?_
      rintro _ ⟨⟩
      rfl
  · intro task index statuses answer hphase
    obtain ⟨hindex, hlisted⟩ : index < poolSize ∧ Listed index statuses := by
      have hfits := h.phases task
      rw [hphase] at hfits
      exact hfits
    rw [Pool.check]
    split
    · exact ⟨h, trivial⟩
    · split
      · obtain ⟨hnext, hlog⟩ := (h.setHealthy index true).checkFrom task hindex
          (hlisted.concat { index, healthy := true, lastError := none } rfl (by simp))
        exact ⟨hnext, trivial, hlog⟩
      · rename_i error
        refine ⟨(h.setHealthy index false).moveTo task _ ⟨hindex, ?_⟩, trivial, trivial⟩
        exact hlisted.concat _ rfl (by simp)

theorem tracked_run (af : AddressFamily) (poolSize : Nat) (actions : List (Action Task)) :
    let log := events (.warm af poolSize) actions
    Tracked poolSize (exec step (.warm af poolSize) actions) (exec track (fun _ => none) log) ∧
      Along track (Reports poolSize) (fun _ => none) log := by
  refine run_induction step (P := fun _ _ => True)
    (motive := fun _ pool out => Keeps poolSize (fun _ => none) (pool, out.flatten)) ?_ ?_ actions
    (along_true _ actions)
  · exact ⟨⟨by simp [Pool.warm], fun _ => trivial⟩, trivial⟩
  · rintro _ pool out action ⟨h, hlog⟩ _
    obtain ⟨hnext, hnew⟩ := h.step action
    rw [List.flatten_append, List.flatten_singleton]
    refine ⟨?_, along_append.mpr ⟨hlog, hnew⟩⟩
    rw [exec_append]
    exact hnext

/-- In any run of a pool every request ends on the connection acquired for it, with an
error that names it unless the pool is empty, and every health check has looked at each
connection once, in their order. -/
theorem pool_reports (af : AddressFamily) (poolSize : Nat) (actions : List (Action Task)) :
    Along track (Reports poolSize) (fun _ => none) (events (.warm af poolSize) actions) :=
  (tracked_run af poolSize actions).2

section Maintenance

/-- The counters of the maintenance thread. -/
structure MaintenanceThread where
  healthCheckCount : Nat
  reconnectCount : Nat
  deriving DecidableEq, Repr

def MaintenanceThread.new : MaintenanceThread := { healthCheckCount := 0, reconnectCount := 0 }

/-- What the loop counts when `health_check` has returned. -/
def MaintenanceThread.count (self : MaintenanceThread) (poolSize healthy : Nat) :
    MaintenanceThread :=
  { healthCheckCount := self.healthCheckCount + 1
    reconnectCount := if healthy < poolSize then self.reconnectCount + 1 else self.reconnectCount }

/-- The health checks that the task has made. -/
def checksOf (task : Task) (log : List (Event Task)) : List (List ConnectionHealth) :=
  log.filterMap fun
    | .returned other (.healthCheck statuses) => if other = task then some statuses else none
    | _ => none

/-- The maintenance thread after the health checks of a run. -/
def maintained (poolSize : Nat) (task : Task) (log : List (Event Task)) : MaintenanceThread :=
  (checksOf task log).foldl (fun thread statuses => thread.count poolSize (healthyCount statuses))
    .new

theorem healthyCount_lt_iff {statuses : List ConnectionHealth}
    (hlisted : Listed poolSize statuses) :
    healthyCount statuses < poolSize ↔ ∃ status ∈ statuses, status.healthy = false := by
  have hlength : statuses.length = poolSize := by
    rw [← List.length_map (f := ConnectionHealth.index), hlisted.1, List.length_range]
  have hle : healthyCount statuses ≤ statuses.length := List.length_filter_le ..
  rw [← hlength, hle.lt_iff_ne, healthyCount, Ne, List.length_filter_eq_length_iff]
  simp

theorem foldl_count {checks : List (List ConnectionHealth)}
    (hlisted : ∀ statuses ∈ checks, Listed poolSize statuses) (start : MaintenanceThread) :
    checks.foldl (fun thread statuses => thread.count poolSize (healthyCount statuses)) start =
      { healthCheckCount := start.healthCheckCount + checks.length
        reconnectCount := start.reconnectCount +
          checks.countP fun statuses => statuses.any fun status => !status.healthy } := by
  induction checks generalizing start with
  | nil => rfl
  | cons statuses checks ih =>
      obtain ⟨hfirst, hrest⟩ := List.forall_mem_cons.mp hlisted
      have hdead : healthyCount statuses < poolSize ↔
          (statuses.any fun status => !status.healthy) = true := by
        rw [healthyCount_lt_iff hfirst]
        simp
      rw [List.foldl_cons, ih hrest, List.countP_cons, List.length_cons, MaintenanceThread.count]
      simp only [hdead]
      split <;> simp [Nat.add_assoc, Nat.add_comm 1]

theorem listed_checksOf {log : List (Event Task)}
    (h : Along track (Reports poolSize) held log) (task : Task) :
    ∀ statuses ∈ checksOf task log, Listed poolSize statuses := by
  intro statuses hmem
  obtain ⟨event, hevent, hchecked⟩ := List.mem_filterMap.mp hmem
  obtain ⟨before, after, rfl⟩ := List.append_of_mem hevent
  have hreports := (along_append.mp h).2.1
  split at hchecked
  · split at hchecked
    · obtain rfl := Option.some.inj hchecked
      exact hreports
    · exact nomatch hchecked
  · exact nomatch hchecked

theorem maintenance_counts (af : AddressFamily) (poolSize : Nat) (actions : List (Action Task))
    (task : Task) :
    let log := events (.warm af poolSize) actions
    maintained poolSize task log =
      { healthCheckCount := (checksOf task log).length
        reconnectCount := (checksOf task log).countP fun statuses =>
          statuses.any fun status => !status.healthy } := by
  intro log
  rw [maintained, foldl_count (listed_checksOf (tracked_run af poolSize actions).2 task),
    MaintenanceThread.new, Nat.zero_add, Nat.zero_add]

end Maintenance

end Rtt.PoolResults
