import Rtt.ExecutorRuns
import Rtt.LatencyReport

namespace Rtt.ExecutorTimes

open Rtt.Quote
open Rtt.ClobExecutor
open Rtt.Executor
open Rtt.ExecutorRuns
open Rtt.Machine
open Rtt.Metrics

def reading? : Action → Option Nat
  | .inject _ nowNs | .readClock nowNs => some nowNs
  | .dropSenders | .stop | .check | .poll | .finish _ _ => none

/-- The stamps of the triggers that were recorded, are processed or wait, in this order. -/
def stamps (thread : ExecutionThread) : List Nat :=
  thread.records.map TimestampRecord.tTriggerRx ++
    (thread.worker.current.toList ++ thread.queue.messages).map TriggerMessage.timestampNs

/-- What holds when the clock was last read at `latest`. -/
structure Timed (latest : Nat) (thread : ExecutionThread) : Prop where
  stamps : (stamps thread).Pairwise (· ≤ ·)
  stamped : ∀ stamp ∈ ExecutorTimes.stamps thread, stamp ≤ latest
  ordered : ∀ record ∈ thread.records, record.Ordered ∧ record.tHeadersDone ≤ latest
  serial : thread.records.Pairwise fun earlier later =>
    earlier.tHeadersDone ≤ later.tDispatchQ
  begun : ∀ msg times, thread.worker = .processing msg times →
    times.length ≤ readings ∧ (msg.timestampNs :: times).Pairwise (· ≤ ·) ∧
      ∀ time ∈ times, time ≤ latest ∧ ∀ record ∈ thread.records, record.tHeadersDone ≤ time

variable {latest : Nat} {thread : ExecutionThread}

theorem Timed.later (h : Timed latest thread) {later : Nat} (hle : latest ≤ later) :
    Timed later thread where
  stamps := h.stamps
  stamped stamp hstamp := (h.stamped stamp hstamp).trans hle
  ordered record hrecord := ⟨(h.ordered record hrecord).1, (h.ordered record hrecord).2.trans hle⟩
  serial := h.serial
  begun msg times hworker := by
    obtain ⟨hlength, hascending, htimes⟩ := h.begun msg times hworker
    exact ⟨hlength, hascending, fun time htime =>
      ⟨(htimes time htime).1.trans hle, (htimes time htime).2⟩⟩

theorem Timed.quiet (h : Timed latest thread) {next : ExecutionThread}
    (hrecords : next.records = thread.records)
    (hwaiting : next.worker.current.toList ++ next.queue.messages =
      thread.worker.current.toList ++ thread.queue.messages)
    (hbegun : ∀ msg times, next.worker = .processing msg times →
      times.length ≤ readings ∧ (msg.timestampNs :: times).Pairwise (· ≤ ·) ∧
        ∀ time ∈ times, time ≤ latest ∧ ∀ record ∈ thread.records, record.tHeadersDone ≤ time) :
    Timed latest next := by
  have hstamps : ExecutorTimes.stamps next = ExecutorTimes.stamps thread := by
    rw [ExecutorTimes.stamps, ExecutorTimes.stamps, hrecords, hwaiting]
  constructor
  · rw [hstamps]
    exact h.stamps
  · rw [hstamps]
    exact h.stamped
  · rw [hrecords]
    exact h.ordered
  · rw [hrecords]
    exact h.serial
  · rw [hrecords]
    exact hbegun

theorem checkpoints_processOne (sendStart : Except ConnectionError SendHandle)
    (collect : SendHandle → Except ConnectionError Response) (nowNs : Nat → Nat)
    (msg : TriggerMessage) :
    (processOne sendStart collect nowNs msg).checkpoints =
        msg.timestampNs :: (List.range readings).map nowNs ∧
      (processOne sendStart collect nowNs msg).tSignStart =
        (processOne sendStart collect nowNs msg).tSignEnd := by
  unfold processOne
  split
  · split
    · split <;> exact ⟨rfl, rfl⟩
    · exact ⟨rfl, rfl⟩
  · exact ⟨rfl, rfl⟩

theorem processOne_ordered (sendStart : Except ConnectionError SendHandle)
    (collect : SendHandle → Except ConnectionError Response) {msg : TriggerMessage}
    {times : List Nat} (hlength : times.length = readings)
    (hascending : (msg.timestampNs :: times).Pairwise (· ≤ ·)) :
    let record := processOne sendStart collect (fun reading => times.getD reading 0) msg
    record.Ordered ∧ record.tHeadersDone ∈ times ∧ record.tDispatchQ ∈ times := by
  intro record
  obtain ⟨hcheckpoints, hsign⟩ := checkpoints_processOne sendStart collect
    (fun reading => times.getD reading 0) msg
  have htimes : (List.range readings).map (fun reading => times.getD reading 0) = times := by
    refine List.ext_getElem (by simp [hlength]) ?_
    intro reading _ hreading
    simp [hreading]
  rw [htimes] at hcheckpoints
  refine ⟨⟨?_, hsign.le⟩, ?_, ?_⟩
  · rw [hcheckpoints]
    exact hascending
  all_goals
    have htail := congrArg List.tail hcheckpoints
    rw [List.tail_cons] at htail
    rw [← htail]
    simp [TimestampRecord.checkpoints, record]

theorem Timed.step (h : Timed latest thread) (action : Action)
    (hclock : ∀ nowNs, reading? action = some nowNs → latest ≤ nowNs) :
    Timed ((reading? action).getD latest) (step thread action).1 := by
  have hle : latest ≤ (reading? action).getD latest := by
    cases hreading : reading? action with
    | none => exact Nat.le_refl latest
    | some nowNs => exact hclock nowNs hreading
  refine step_elim (motive := fun result => Timed ((reading? action).getD latest) result.1) thread
    action (h.later hle) ?_ (fun _ _ => h.later hle) ?_ ?_ ?_ ?_ ?_ ?_ ?_
  · intro msg nowNs queue _ haction hqueue
    subst haction
    have hnow := h.later (hclock nowNs rfl)
    have hstamps : ExecutorTimes.stamps { thread with queue } =
        ExecutorTimes.stamps thread ++ [nowNs] := by
      simp only [ExecutorTimes.stamps, hqueue, List.map_append, List.map_singleton,
        List.append_assoc]
      rfl
    refine { hnow with stamps := ?_, stamped := ?_ }
    · rw [hstamps, List.pairwise_append]
      exact ⟨h.stamps, List.pairwise_singleton _ _, fun stamp hstamp _ hlast =>
        (hnow.stamped stamp hstamp).trans_eq (List.mem_singleton.mp hlast).symm⟩
    · rw [hstamps]
      exact List.forall_mem_append.mpr
        ⟨hnow.stamped, List.forall_mem_singleton.mpr (Nat.le_refl nowNs)⟩
  · exact fun _ => { h.later hle with }
  · exact fun _ => { h.later hle with }
  · intro hworker
    refine (h.later hle).quiet rfl ?_ ?_
    · rw [hworker]
      cases thread.running <;> rfl
    · intro msg times hprocessing
      change (if thread.running then Worker.polling else .ended) = _ at hprocessing
      split at hprocessing <;> exact absurd hprocessing (by simp)
  · intro queue msg hworker hmessages
    refine (h.later hle).quiet rfl ?_ ?_
    · rw [hworker, hmessages]
      rfl
    · rintro _ _ ⟨⟩
      exact ⟨Nat.zero_le _, List.pairwise_singleton _ _, by simp⟩
  · intro hworker _
    refine (h.later hle).quiet rfl ?_ ?_
    · rw [hworker]
      cases thread.connected <;> rfl
    · intro msg times hprocessing
      change (if thread.connected then Worker.checking else .ended) = _ at hprocessing
      split at hprocessing <;> exact absurd hprocessing (by simp)
  · intro nowNs msg times hworker haction hmore
    subst haction
    have hnow := hclock nowNs rfl
    obtain ⟨-, hascending, htimes⟩ := h.begun msg times hworker
    have hmsg : msg.timestampNs ≤ latest := by
      refine h.stamped _ (List.mem_append_right _ ?_)
      rw [hworker]
      exact List.mem_cons_self
    refine (h.later hnow).quiet rfl (by rw [hworker]; rfl) ?_
    rintro _ _ ⟨⟩
    refine ⟨?_, ?_, ?_⟩
    · rw [List.length_append, List.length_singleton]
      exact hmore
    · rw [← List.cons_append, List.pairwise_append]
      refine ⟨hascending, List.pairwise_singleton _ _, ?_⟩
      intro time htime last hlast
      rw [List.mem_singleton.mp hlast]
      rcases List.mem_cons.mp htime with rfl | htime
      · exact hmsg.trans hnow
      · exact (htimes time htime).1.trans hnow
    · refine List.forall_mem_append.mpr ⟨?_, List.forall_mem_singleton.mpr ?_⟩
      · exact fun time htime => ⟨(htimes time htime).1.trans hnow, (htimes time htime).2⟩
      · exact ⟨Nat.le_refl nowNs, fun record hrecord => (h.ordered record hrecord).2.trans hnow⟩
  · intro sendStart collect msg times hworker hall record
    obtain ⟨hlength, hascending, htimes⟩ := h.begun msg times hworker
    obtain ⟨hordered, hdone, hfirst⟩ := processOne_ordered sendStart collect
      (hlength.antisymm hall) hascending
    have hstamps : ExecutorTimes.stamps
        { thread with worker := .checking, records := thread.records ++ [record] } =
          ExecutorTimes.stamps thread := by
      simp only [ExecutorTimes.stamps, hworker, List.map_append, List.map_singleton,
        List.append_assoc]
      rw [tTriggerRx_processOne]
      rfl
    refine ⟨?_, ?_, ?_, ?_, fun _ _ hprocessing => absurd hprocessing (by simp)⟩
    · rw [hstamps]
      exact h.stamps
    · rw [hstamps]
      exact (h.later hle).stamped
    · exact List.forall_mem_append.mpr ⟨(h.later hle).ordered,
        List.forall_mem_singleton.mpr ⟨hordered, (htimes _ hdone).1.trans hle⟩⟩
    · rw [List.pairwise_append]
      refine ⟨h.serial, List.pairwise_singleton _ _, ?_⟩
      intro earlier hearlier later hlater
      rw [List.mem_singleton.mp hlater]
      exact (htimes _ hfirst).2 earlier hearlier

theorem timed_run {actions : List Action} (h : Timed latest thread)
    (hclock : (latest :: actions.filterMap reading?).Pairwise (· ≤ ·)) :
    ∃ later, Timed later (exec step thread actions) := by
  induction actions generalizing latest thread with
  | nil => exact ⟨latest, h⟩
  | cons action rest ih =>
      obtain ⟨hlatest, hrest⟩ := List.pairwise_cons.mp hclock
      cases hreading : reading? action with
      | none =>
          rw [List.filterMap_cons_none hreading] at hclock
          have hnext := h.step action fun nowNs hsome =>
            absurd (hreading.symm.trans hsome) (by simp)
          rw [hreading] at hnext
          exact ih hnext hclock
      | some nowNs =>
          rw [List.filterMap_cons_some hreading] at hlatest hrest
          have hnext := h.step action fun time hsome => by
            rw [← Option.some.inj (hreading.symm.trans hsome)]
            exact hlatest nowNs List.mem_cons_self
          rw [hreading] at hnext
          exact ih hnext hrest

/-- Over a clock that does not run backwards the thread records ascending times, one trigger
after the other, and in the report on its records each latency is shown with entries at
least those of its parts. -/
theorem records_and_report_in_order (actions : List Action)
    (hclock : (actions.filterMap reading?).Pairwise (· ≤ ·)) :
    let thread := exec step .start actions
    let report := (StatsAggregator.mk thread.records).compute
    (∀ record ∈ thread.records, record.Ordered) ∧
      (thread.records.Pairwise fun earlier later =>
        earlier.tTriggerRx ≤ later.tTriggerRx ∧ earlier.tHeadersDone ≤ later.tDispatchQ) ∧
      ∀ pair ∈ parts, List.Forall₂ (· ≤ ·) (pair.1.shown report).entries
        (pair.2.shown report).entries := by
  intro thread report
  have hstart : Timed 0 .start := by
    refine ⟨.nil, ?_, ?_, .nil, ?_⟩
    · simp [stamps, ExecutionThread.start, TriggerQueue.new, Worker.current]
    · simp [ExecutionThread.start]
    · simp [ExecutionThread.start]
  obtain ⟨later, htimed⟩ : ∃ later, Timed later thread :=
    timed_run hstart (List.pairwise_cons.mpr ⟨fun _ _ => Nat.zero_le _, hclock⟩)
  have hordered : ∀ record ∈ thread.records, record.Ordered := fun record hrecord =>
    (htimed.ordered record hrecord).1
  refine ⟨hordered, ?_, parts_le { records := thread.records } hordered⟩
  have hstamps := (List.pairwise_append.mp htimed.stamps).1
  rw [List.pairwise_map] at hstamps
  exact hstamps.and htimed.serial

def probe : TriggerMessage :=
  { triggerId := 0, tokenId := "bench", side := .buy, price := "0.50", size := "10"
    orderType := .fok, timestampNs := 0 }

/-- One trigger from the queue to its record. -/
def sendOnce (nowNs : Nat) : List Action :=
  [.inject probe nowNs, .check, .poll] ++
    (List.range readings).map (fun reading => .readClock (nowNs + 10 * (reading + 1))) ++
    [.finish (.ok { connectionIndex := 0 }) fun _ => .ok { cfRay := some "abc123-EWR", body := [] }]

/-- Two triggers, one after the other. -/
theorem records_and_report_in_order_twice :
    let thread := exec step .start (sendOnce 100 ++ sendOnce 200)
    thread.records.length = 2 ∧ thread.records.Pairwise fun earlier later =>
      earlier.tTriggerRx ≤ later.tTriggerRx ∧ earlier.tHeadersDone ≤ later.tDispatchQ := by
  intro thread
  exact ⟨by decide, (records_and_report_in_order _ (by decide)).2.1⟩

end Rtt.ExecutorTimes
