import Rtt.ExecutorRuns
import Rtt.LatencyReport
import Rtt.MachineWord

namespace Rtt.Benchmark

open Rtt.Quote
open Rtt.ClobExecutor
open Rtt.Executor
open Rtt.ExecutorRuns
open Rtt.Machine
open Rtt.MachineWord
open Rtt.Metrics

/-- How the benchmark spaces its triggers. -/
inductive BenchmarkMode where
  | singleShot
  | randomCadence
  | burstRace
  deriving DecidableEq, Repr

structure BenchmarkConfig where
  mode : BenchmarkMode
  sampleCount : Nat
  burstSize : Nat
  deriving DecidableEq, Repr

/-- The records of the executor thread and the report computed from them. -/
structure BenchmarkResult where
  records : List TimestampRecord
  report : StatsReport

/-- The trigger of one sample. Its stamp is set when it is injected. -/
def makeTrigger (id : Nat) : TriggerMessage :=
  { triggerId := id, tokenId := "benchmark", side := .buy, price := "0.50", size := "1"
    orderType := .fok, timestampNs := 0 }

/-- The ids of the bursts that are left, of which the first begins with the id `sent`.  A
difference below zero panics. -/
def burstIds (sampleCount burstSize : Nat) : Nat → Nat → Option (List (List Nat))
  | 0, _ => some []
  | bursts + 1, sent =>
      if sampleCount < sent then none
      else
        let burst := min burstSize (sampleCount - sent)
        (burstIds sampleCount burstSize bursts (sent + burst)).map (List.range' sent burst :: ·)

/-- The ids in the groups between which the benchmark pauses.  A burst size of zero panics. -/
def triggerIds (config : BenchmarkConfig) : Option (List (List Nat)) :=
  match config.mode with
  | .singleShot | .randomCadence => some ((List.range config.sampleCount).map fun id => [id])
  | .burstRace =>
      if config.burstSize = 0 then none
      else
        let numBursts :=
          (wrappingAdd config.sampleCount config.burstSize + (wordSize - 1)) % wordSize /
            config.burstSize
        burstIds config.sampleCount config.burstSize numBursts 0

/-- Where `run_benchmark` stands: injecting, waiting for records, joining the thread, or done. -/
inductive Phase where
  | injecting
  | waiting
  | stopping (timedOut : Bool)
  | failed (error : String)
  | done (result : BenchmarkResult) (timedOut : Bool)

/-- A benchmark under way: the executor thread, the triggers not yet injected and the phase. -/
structure Run where
  thread : ExecutionThread
  left : List TriggerMessage
  /-- How many records the benchmark waits for. -/
  expected : Nat
  phase : Phase

inductive Action where
  | inject (nowNs : Nat)
  /-- The executor thread goes on. -/
  | work (action : Executor.Action)
  | await (timedOut : Bool)
  | join

namespace Run

def start (config : BenchmarkConfig) : Option Run :=
  (triggerIds config).map fun groups =>
    { thread := .start
      left := groups.flatten.map makeTrigger
      expected := groups.flatten.length
      phase := .injecting }

variable (self : Run)

/-- The next trigger is injected; a refusal fails the benchmark. -/
def inject (nowNs : Nat) : Run :=
  match self.phase, self.left with
  | .injecting, [] => { self with phase := .waiting }
  | .injecting, msg :: rest =>
      match self.thread.inject msg nowNs with
      | (thread, [.refused error]) => { self with thread, phase := .failed error }
      | (thread, _) => { self with thread, left := rest }
  | _, _ => self

/-- The executor thread makes one of its own steps. -/
def work (action : Executor.Action) : Run :=
  match action with
  | .check | .poll | .readClock _ | .finish _ _ =>
      { self with thread := (Executor.step self.thread action).1 }
  | .inject _ _ | .dropSenders | .stop => self

/-- The benchmark looks at the number of records, or gives up waiting. -/
def await (timedOut : Bool) : Run :=
  match self.phase with
  | .waiting =>
      if self.expected ≤ self.thread.records.length then
        { self with thread.running := false, phase := .stopping false }
      else if timedOut then { self with thread.running := false, phase := .stopping true }
      else self
  | _ => self

/-- The thread has ended: its records become the result. -/
def join : Run :=
  match self.phase with
  | .stopping timedOut =>
      if self.thread.worker = .ended then
        let records := self.thread.records
        let agg := records.foldl StatsAggregator.add StatsAggregator.new
        { self with phase := .done { records, report := agg.compute } timedOut }
      else self
  | _ => self

end Run

def step (run : Run) : Action → Run × Unit
  | .inject nowNs => (run.inject nowNs, ())
  | .work action => (run.work action, ())
  | .await timedOut => (run.await timedOut, ())
  | .join => (run.join, ())

section Bursts

theorem burstIds_eq {sampleCount burstSize bursts sent : Nat} (hsent : sent ≤ sampleCount)
    (henough : sampleCount ≤ sent + bursts * burstSize) :
    ∃ groups, burstIds sampleCount burstSize bursts sent = some groups ∧
      groups.flatten = List.range' sent (sampleCount - sent) ∧
      groups.length = bursts ∧ ∀ group ∈ groups, group.length ≤ burstSize := by
  induction bursts generalizing sent with
  | zero =>
      obtain rfl : sampleCount = sent := by omega
      exact ⟨[], rfl, by simp, rfl, by simp⟩
  | succ bursts ih =>
      obtain ⟨burst, hburst⟩ : ∃ burst, min burstSize (sampleCount - sent) = burst := ⟨_, rfl⟩
      have hreach : sampleCount ≤ sent + burst + bursts * burstSize := by
        rw [Nat.succ_mul] at henough
        omega
      obtain ⟨groups, hgroups, hflatten, hlength, hbounded⟩ :=
        @ih (sent + burst) (by omega) hreach
      refine ⟨List.range' sent burst :: groups, ?_, ?_, ?_, ?_⟩
      · simp only [burstIds, if_neg (not_lt.mpr hsent), hburst, hgroups, Option.map_some]
      · rw [List.flatten_cons, hflatten, List.range'_append_1]
        congr 1
        omega
      · rw [List.length_cons, hlength]
      · refine List.forall_mem_cons.mpr ⟨?_, hbounded⟩
        rw [List.length_range']
        omega

theorem triggerIds_flatten (config : BenchmarkConfig)
    (hsize : config.mode = .burstRace → 0 < config.burstSize)
    (hword : config.sampleCount + config.burstSize < wordSize) :
    ∃ groups, triggerIds config = some groups ∧ groups.flatten = List.range config.sampleCount ∧
      (config.mode = .burstRace → ∀ group ∈ groups, group.length ≤ config.burstSize) := by
  have hsingle : ∃ groups, some ((List.range config.sampleCount).map fun id => [id]) =
      some groups ∧ groups.flatten = List.range config.sampleCount :=
    ⟨_, rfl, by rw [← List.flatMap_def, List.flatMap_singleton']⟩
  unfold triggerIds
  cases hmode : config.mode with
  | singleShot | randomCadence =>
      obtain ⟨groups, hgroups, hflatten⟩ := hsingle
      exact ⟨groups, hgroups, hflatten, by simp⟩
  | burstRace =>
      have hpos := hsize hmode
      have hbursts : (wrappingAdd config.sampleCount config.burstSize + (wordSize - 1)) %
          wordSize = config.sampleCount + config.burstSize - 1 := by
        rw [wrappingAdd_eq hword]
        have hone : 1 ≤ wordSize := by decide
        have hshift : config.sampleCount + config.burstSize + (wordSize - 1) =
            config.sampleCount + config.burstSize - 1 + wordSize := by omega
        rw [hshift, Nat.add_mod_right, Nat.mod_eq_of_lt (by omega)]
      have henough : config.sampleCount ≤
          0 + (config.sampleCount + config.burstSize - 1) / config.burstSize *
            config.burstSize := by
        have hdiv := Nat.lt_div_mul_add (a := config.sampleCount + config.burstSize - 1) hpos
        omega
      obtain ⟨groups, hgroups, hflatten, -, hbounded⟩ := burstIds_eq (Nat.zero_le _) henough
      refine ⟨groups, ?_, ?_, fun _ => hbounded⟩
      · simp only [if_neg hpos.ne', hbursts]
        exact hgroups
      · rw [hflatten, List.range_eq_range', Nat.sub_zero]

end Bursts

section Runs

variable {ids : List Nat} {run : Run} {log : List Event}

/-- What a phase promises. -/
def PhaseFits (ids : List Nat) (run : Run) : Prop :=
  match run.phase with
  | .injecting => True
  | .waiting => run.left = []
  | .stopping timedOut =>
      run.left = [] ∧ (timedOut = false → ids.length ≤ run.thread.records.length)
  | .failed _ => False
  | .done result timedOut =>
      result.report = (StatsAggregator.mk result.records).compute ∧
        result.records.length ≤ ids.length ∧
        (timedOut = false → result.records.length = ids.length)

/-- The triggers were accepted in the order of their ids up to those that are left. -/
structure Follows (ids : List Nat) (run : Run) (log : List Event) : Prop where
  accounts : Accounts run.thread log
  connected : run.thread.connected = true
  injected : (acceptedOf log).map TriggerMessage.triggerId ++
    run.left.map TriggerMessage.triggerId = ids
  expected : run.expected = ids.length
  phase : PhaseFits ids run

theorem Follows.accepted_le (h : Follows ids run log) :
    (acceptedOf log).length + run.left.length = ids.length := by
  have hlength := congrArg List.length h.injected
  rwa [List.length_append, List.length_map, List.length_map] at hlength

theorem Follows.records_le (h : Follows ids run log) :
    run.thread.records.length + run.thread.queue.messages.length ≤ (acceptedOf log).length := by
  rw [h.accounts.conserves, h.accounts.records, List.length_append, List.length_append,
    List.length_map, List.length_map]
  omega

theorem inject_of_room {thread : ExecutionThread} (hconnected : thread.connected = true)
    (hroom : thread.queue.messages.length < queueCapacity) (msg : TriggerMessage) (nowNs : Nat) :
    ∃ queue, thread.inject msg nowNs =
      ({ thread with queue }, [.accepted (restamp msg nowNs)]) := by
  obtain ⟨queue, hqueue⟩ : ∃ queue, thread.queue.trySend (restamp msg nowNs) = some queue := by
    rw [TriggerQueue.trySend, dif_pos hroom]
    exact ⟨_, rfl⟩
  refine ⟨queue, ?_⟩
  rw [ExecutionThread.inject, if_pos hconnected, Executor.inject, hqueue]

theorem Follows.inject (h : Follows ids run log) (hfew : ids.length ≤ queueCapacity)
    (nowNs : Nat) : ∃ log, Follows ids (run.inject nowNs) log := by
  rw [Run.inject]
  split
  · rename_i hphase hleft
    exact ⟨log, h.accounts, h.connected, h.injected, h.expected, hleft⟩
  · rename_i msg rest hphase hleft
    have hroom : run.thread.queue.messages.length < queueCapacity := by
      have haccepted := h.accepted_le
      have hrecords := h.records_le
      rw [hleft, List.length_cons] at haccepted
      omega
    obtain ⟨queue, hqueue⟩ := inject_of_room h.connected hroom msg nowNs
    have hnext := h.accounts.step (.inject msg nowNs)
    rw [Executor.step, hqueue] at hnext
    rw [hqueue]
    refine ⟨log ++ [.accepted (restamp msg nowNs)], hnext, h.connected, ?_, h.expected, ?_⟩
    · rw [acceptedOf_concat, List.map_append, List.append_assoc, ← h.injected, hleft]
      rfl
    · simp only [PhaseFits, hphase]
  · exact ⟨log, h⟩

theorem own_step {action : Executor.Action} (hinject : ∀ msg nowNs, action ≠ .inject msg nowNs)
    (hdrop : action ≠ .dropSenders) (thread : ExecutionThread) :
    (Executor.step thread action).1.connected = thread.connected ∧
      acceptedOf (Executor.step thread action).2 = [] ∧
      thread.records.length ≤ (Executor.step thread action).1.records.length := by
  refine step_elim (motive := fun result => result.1.connected = thread.connected ∧
    acceptedOf result.2 = [] ∧ thread.records.length ≤ result.1.records.length) thread action
    ⟨rfl, rfl, Nat.le_refl _⟩ ?_ (fun _ _ => ⟨rfl, rfl, Nat.le_refl _⟩)
    (fun hdropped => absurd hdropped hdrop) (fun _ => ⟨rfl, rfl, Nat.le_refl _⟩)
    (fun _ => ⟨rfl, rfl, Nat.le_refl _⟩) (fun _ _ _ _ => ⟨rfl, rfl, Nat.le_refl _⟩)
    (fun _ _ => ⟨rfl, rfl, Nat.le_refl _⟩) (fun _ _ _ _ _ _ => ⟨rfl, rfl, Nat.le_refl _⟩) ?_
  · exact fun msg nowNs _ _ hinjected _ => absurd hinjected (hinject msg nowNs)
  · intro _ _ _ _ _ _ _
    refine ⟨rfl, rfl, ?_⟩
    rw [List.length_append]
    exact Nat.le_add_right _ _

theorem Follows.own (h : Follows ids run log) {action : Executor.Action}
    (hinject : ∀ msg nowNs, action ≠ .inject msg nowNs) (hdrop : action ≠ .dropSenders) :
    ∃ log, Follows ids { run with thread := (Executor.step run.thread action).1 } log := by
  obtain ⟨hconnected, haccepted, hrecords⟩ := own_step hinject hdrop run.thread
  refine ⟨log ++ (Executor.step run.thread action).2, h.accounts.step action,
    hconnected.trans h.connected, ?_, h.expected, ?_⟩
  · rw [acceptedOf, List.filterMap_append, ← acceptedOf, ← acceptedOf, haccepted, List.append_nil]
    exact h.injected
  · have hphase := h.phase
    unfold PhaseFits at hphase ⊢
    dsimp only
    split at hphase
    · trivial
    · exact hphase
    · exact ⟨hphase.1, fun hall => (hphase.2 hall).trans hrecords⟩
    · exact hphase.elim
    · exact hphase

theorem Follows.work (h : Follows ids run log) (action : Executor.Action) :
    ∃ log, Follows ids (run.work action) log := by
  cases action with
  | check | poll | readClock _ | finish _ _ => exact h.own (by simp) (by simp)
  | inject _ _ | dropSenders | stop => exact ⟨log, h⟩

theorem Follows.await (h : Follows ids run log) (timedOut : Bool) :
    ∃ log, Follows ids (run.await timedOut) log := by
  rw [Run.await]
  split
  · rename_i hphase
    have hleft : run.left = [] := by
      have hfits := h.phase
      rwa [PhaseFits, hphase] at hfits
    have hstop : ∀ msg nowNs, Executor.Action.stop ≠ .inject msg nowNs := by simp
    obtain ⟨log, hstopped⟩ := h.own hstop (by simp)
    split
    · rename_i hall
      exact ⟨log, hstopped.accounts, hstopped.connected, hstopped.injected, hstopped.expected,
        hleft, fun _ => h.expected ▸ hall⟩
    · split
      · exact ⟨log, hstopped.accounts, hstopped.connected, hstopped.injected, hstopped.expected,
          hleft, fun hall => absurd hall (by simp)⟩
      · exact ⟨_, h⟩
  · exact ⟨log, h⟩

theorem foldl_add (records : List TimestampRecord) (agg : StatsAggregator) :
    records.foldl StatsAggregator.add agg = { records := agg.records ++ records } := by
  induction records generalizing agg with
  | nil => rw [List.append_nil]; rfl
  | cons record rest ih =>
      rw [List.foldl_cons, ih, StatsAggregator.add, List.append_assoc]
      rfl

theorem Follows.join (h : Follows ids run log) : ∃ log, Follows ids run.join log := by
  rw [Run.join]
  split
  · rename_i timedOut hphase
    split
    · have hfits := h.phase
      rw [PhaseFits, hphase] at hfits
      have hrecords : run.thread.records.length ≤ ids.length := by
        have hall := h.records_le
        have haccepted := h.accepted_le
        omega
      refine ⟨log, h.accounts, h.connected, h.injected, h.expected, ?_, hrecords, ?_⟩
      · change StatsAggregator.compute (run.thread.records.foldl _ _) = _
        rw [foldl_add]
        rfl
      · exact fun hall => hrecords.antisymm (hfits.2 hall)
    · exact ⟨log, h⟩
  · exact ⟨log, h⟩

theorem follows_run (h : Follows ids run log) (hfew : ids.length ≤ queueCapacity)
    (actions : List Action) : ∃ log, Follows ids (exec step run actions) log := by
  refine exec_kept (I := fun run => ∃ log, Follows ids run log) ?_ ⟨log, h⟩ actions
  rintro run action ⟨log, h⟩
  cases action with
  | inject nowNs => exact h.inject hfew nowNs
  | work action => exact h.work action
  | await timedOut => exact h.await timedOut
  | join => exact h.join

/-- A benchmark of at most as many samples as the queue has room for never fails on a full
queue, whatever the pace of its executor thread, and the report at its end counts every
sample once unless the benchmark has timed out. -/
theorem every_sample_counted (config : BenchmarkConfig)
    (hsize : config.mode = .burstRace → 0 < config.burstSize)
    (hword : config.sampleCount + config.burstSize < wordSize)
    (hfew : config.sampleCount ≤ queueCapacity) (actions : List Action) :
    ∃ start, Run.start config = some start ∧
      (∀ error, (exec step start actions).phase ≠ .failed error) ∧
      ∀ result timedOut, (exec step start actions).phase = .done result timedOut →
        result.report.sampleCount + result.report.reconnectCount = result.records.length ∧
          result.records.length ≤ config.sampleCount ∧
          (timedOut = false → result.records.length = config.sampleCount) := by
  obtain ⟨groups, hgroups, hflatten, -⟩ := triggerIds_flatten config hsize hword
  obtain ⟨start, hstart⟩ : ∃ start, Run.start config = some start := by
    rw [Run.start, hgroups]
    exact ⟨_, rfl⟩
  have hbegun : Follows (List.range config.sampleCount) start [] := by
    rw [Run.start, hgroups, Option.map_some] at hstart
    obtain rfl := Option.some.inj hstart
    refine ⟨accounts_run [], rfl, ?_, by rw [hflatten], trivial⟩
    simp [hflatten, acceptedOf, Function.comp_def, makeTrigger]
  obtain ⟨log, hend⟩ := follows_run hbegun (by rwa [List.length_range]) actions
  have hphase := hend.phase
  refine ⟨start, hstart, ?_, ?_⟩
  · intro error hfailed
    rw [PhaseFits, hfailed] at hphase
    exact hphase
  · intro result timedOut hdone
    rw [PhaseFits, hdone, List.length_range] at hphase
    obtain ⟨hreport, hle, hall⟩ := hphase
    refine ⟨?_, hle, hall⟩
    rw [hreport]
    exact counts_compute { records := result.records }

def race : BenchmarkConfig := { mode := .burstRace, sampleCount := 3, burstSize := 2 }

/-- The thread takes a trigger and records it. -/
def workOnce (sendStart : Except ConnectionError SendHandle) (nowNs : Nat) : List Action :=
  [.work .check, .work .poll] ++
    (List.range readings).map (fun reading => .work (.readClock (nowNs + reading))) ++
    [.work (.finish sendStart fun _ => .ok { cfRay := none, body := [] })]

def raceRun : List Action :=
  [.inject 100, .inject 110] ++ workOnce (.ok { connectionIndex := 0 }) 200 ++
    [.inject 300, .inject 310] ++ workOnce (.ok { connectionIndex := 1 }) 400 ++
    workOnce (.error .poolEmpty) 500 ++ [.await false, .work .check, .join]

/-- Two samples and a reconnect. -/
theorem every_sample_counted_race :
    ∃ start result, Run.start race = some start ∧
      (exec step start raceRun).phase = .done result false ∧ result.report.reconnectCount = 1 ∧
      result.report.sampleCount + result.report.reconnectCount = 3 := by
  obtain ⟨start, hstart, -, hdone⟩ := every_sample_counted race (by decide) (by decide)
    (by decide) raceRun
  obtain ⟨result, hresult, hreconnects⟩ : ∃ result,
      (exec step start raceRun).phase = .done result false ∧
        result.report.reconnectCount = 1 := by
    obtain rfl := Option.some.inj hstart
    exact ⟨_, rfl, by decide +kernel⟩
  obtain ⟨hcounts, -, hall⟩ := hdone result false hresult
  exact ⟨start, result, hstart, hresult, hreconnects, hcounts.trans (hall rfl)⟩

end Runs

end Rtt.Benchmark
