import Rtt.ExecutorThread

namespace Rtt.ExecutorRuns

open Rtt.Quote
open Rtt.ClobExecutor
open Rtt.Executor
open Rtt.Machine

def accepted? : Event → Option TriggerMessage
  | .accepted msg => some msg
  | .refused _ | .recorded _ _ => none

def recorded? : Event → Option (TriggerMessage × TimestampRecord)
  | .recorded msg record => some (msg, record)
  | .accepted _ | .refused _ => none

def acceptedOf (log : List Event) : List TriggerMessage := log.filterMap accepted?

def recordedOf (log : List Event) : List (TriggerMessage × TimestampRecord) :=
  log.filterMap recorded?

def events (actions : List Action) : List Event := (outputs step .start actions).flatten

theorem acceptedOf_concat (log : List Event) (event : Event) :
    acceptedOf (log ++ [event]) = acceptedOf log ++ (accepted? event).toList := by
  rw [acceptedOf, List.filterMap_append]
  cases event <;> rfl

theorem recordedOf_concat (log : List Event) (event : Event) :
    recordedOf (log ++ [event]) = recordedOf log ++ (recorded? event).toList := by
  rw [recordedOf, List.filterMap_append]
  cases event <;> rfl

variable {thread : ExecutionThread} {log : List Event}

section Step

theorem trySend_eq_some {queue next : TriggerQueue} {msg : TriggerMessage}
    (h : queue.trySend msg = some next) : next.messages = queue.messages ++ [msg] := by
  rw [TriggerQueue.trySend] at h
  split at h
  · rw [← Option.some.inj h]
  · exact absurd h (by simp)

theorem trySend_eq_none {queue : TriggerQueue} {msg : TriggerMessage}
    (h : queue.trySend msg = none) : queue.messages.length = queueCapacity := by
  rw [TriggerQueue.trySend] at h
  split at h
  · exact absurd h (by simp)
  · have hfits := queue.fits
    omega

theorem step_elim {motive : ExecutionThread × List Event → Prop} (thread : ExecutionThread)
    (action : Action) (hidle : motive (thread, []))
    (haccept : ∀ msg nowNs queue, thread.connected = true → action = .inject msg nowNs →
      queue.messages = thread.queue.messages ++ [restamp msg nowNs] →
      motive ({ thread with queue }, [.accepted (restamp msg nowNs)]))
    (hrefuse : ∀ error, thread.queue.messages.length = queueCapacity →
      motive (thread, [.refused error]))
    (hdrop : action = .dropSenders → motive ({ thread with connected := false }, []))
    (hstop : action = .stop → motive ({ thread with running := false }, []))
    (hcheck : thread.worker = .checking →
      motive ({ thread with worker := if thread.running then .polling else .ended }, []))
    (htake : ∀ queue msg, thread.worker = .polling →
      thread.queue.messages = msg :: queue.messages →
      motive ({ thread with queue, worker := .processing msg [] }, []))
    (hempty : thread.worker = .polling → thread.queue.messages = [] →
      motive ({ thread with worker := if thread.connected then .checking else .ended }, []))
    (hread : ∀ nowNs msg times, thread.worker = .processing msg times →
      action = .readClock nowNs → times.length < readings →
      motive ({ thread with worker := .processing msg (times ++ [nowNs]) }, []))
    (hfinish : ∀ sendStart collect msg times, thread.worker = .processing msg times →
      readings ≤ times.length →
      let record := processOne sendStart collect (fun reading => times.getD reading 0) msg
      motive ({ thread with worker := .checking, records := thread.records ++ [record] },
        [.recorded msg record])) :
    motive (step thread action) := by
  cases action with
  | inject msg nowNs =>
      simp only [step, ExecutionThread.inject, Executor.inject]
      split
      · rename_i hconnected
        cases hsend : thread.queue.trySend (restamp msg nowNs) with
        | some queue => exact haccept msg nowNs queue hconnected rfl (trySend_eq_some hsend)
        | none => exact hrefuse _ (trySend_eq_none hsend)
      · exact hidle
  | dropSenders => exact hdrop rfl
  | stop => exact hstop rfl
  | check =>
      simp only [step, ExecutionThread.check]
      split
      · rename_i hworker
        exact hcheck hworker
      all_goals exact hidle
  | poll =>
      simp only [step, ExecutionThread.poll, TriggerQueue.tryRecv]
      split
      · rename_i hworker
        split
        · rename_i queue msg hrecv
          split at hrecv
          · exact absurd hrecv (by simp)
          · rename_i head rest hmessages
            obtain ⟨rfl, hhead⟩ := Prod.mk.inj hrecv
            obtain rfl := Option.some.inj hhead
            exact htake _ _ hworker hmessages
        · rename_i hrecv
          split at hrecv
          · rename_i hmessages
            exact hempty hworker hmessages
          · exact absurd hrecv (by simp)
      all_goals exact hidle
  | readClock nowNs =>
      simp only [step, ExecutionThread.readClock]
      split
      · rename_i msg times hworker
        split
        · rename_i hmore
          exact hread nowNs msg times hworker rfl hmore
        · exact hidle
      all_goals exact hidle
  | finish sendStart collect =>
      simp only [step, ExecutionThread.finish]
      split
      · rename_i msg times hworker
        split
        · exact hidle
        · rename_i hall
          exact hfinish sendStart collect msg times hworker (not_lt.mp hall)
      all_goals exact hidle

end Step

section Accounts

/-- Each accepted trigger was recorded, is being processed or is in the queue, in its
order; a thread that ended without being stopped has drained its queue. -/
structure Accounts (thread : ExecutionThread) (log : List Event) : Prop where
  conserves : acceptedOf log = (recordedOf log).map Prod.fst ++
    thread.worker.current.toList ++ thread.queue.messages
  records : thread.records = (recordedOf log).map Prod.snd
  stamped : ∀ pair ∈ recordedOf log, pair.2.tTriggerRx = pair.1.timestampNs
  drained : thread.worker = .ended → thread.running = true →
    thread.connected = false ∧ thread.queue.messages = []

theorem tTriggerRx_processOne (sendStart : Except ConnectionError SendHandle)
    (collect : SendHandle → Except ConnectionError Response) (nowNs : Nat → Nat)
    (msg : TriggerMessage) :
    (processOne sendStart collect nowNs msg).tTriggerRx = msg.timestampNs := by
  unfold processOne
  split
  · split
    · split <;> rfl
    · rfl
  · rfl

theorem Accounts.quiet (h : Accounts thread log) {next : ExecutionThread}
    (hwaiting : next.worker.current.toList ++ next.queue.messages =
      thread.worker.current.toList ++ thread.queue.messages)
    (hrecords : next.records = thread.records)
    (hdrained : next.worker = .ended → next.running = true →
      next.connected = false ∧ next.queue.messages = []) : Accounts next (log ++ []) := by
  rw [List.append_nil]
  refine ⟨?_, hrecords.trans h.records, h.stamped, hdrained⟩
  rw [h.conserves, List.append_assoc, List.append_assoc, hwaiting]

theorem Accounts.step (h : Accounts thread log) (action : Action) :
    Accounts (step thread action).1 (log ++ (step thread action).2) := by
  refine step_elim (motive := fun result => Accounts result.1 (log ++ result.2)) thread action
    (h.quiet rfl rfl h.drained) ?_ ?_ ?_ ?_ ?_ ?_ ?_ ?_ ?_
  · intro msg nowNs queue hconnected _ hqueue
    have hrecorded : recordedOf (log ++ [.accepted (restamp msg nowNs)]) = recordedOf log := by
      rw [recordedOf_concat, recorded?, Option.toList_none, List.append_nil]
    refine ⟨?_, h.records.trans (by rw [hrecorded]), by rw [hrecorded]; exact h.stamped, ?_⟩
    · rw [acceptedOf_concat, accepted?, Option.toList_some, hrecorded, hqueue, h.conserves,
        List.append_assoc]
    · intro hended hrunning
      exact absurd ((h.drained hended hrunning).1.symm.trans hconnected) Bool.false_ne_true
  · intro error _
    have haccepted : acceptedOf (log ++ [.refused error]) = acceptedOf log := by
      rw [acceptedOf_concat, accepted?, Option.toList_none, List.append_nil]
    have hrecorded : recordedOf (log ++ [.refused error]) = recordedOf log := by
      rw [recordedOf_concat, recorded?, Option.toList_none, List.append_nil]
    constructor
    · rw [haccepted, hrecorded]
      exact h.conserves
    · rw [hrecorded]
      exact h.records
    · rw [hrecorded]
      exact h.stamped
    · exact h.drained
  · exact fun _ => h.quiet rfl rfl fun hended hrunning => ⟨rfl, (h.drained hended hrunning).2⟩
  · exact fun _ => h.quiet rfl rfl fun _ hrunning => absurd hrunning Bool.false_ne_true
  · intro hworker
    refine h.quiet ?_ rfl ?_
    · rw [hworker]
      cases thread.running <;> rfl
    · intro hended hrunning
      change thread.running = true at hrunning
      rw [hrunning] at hended
      exact absurd hended (by simp)
  · intro queue msg hworker hmessages
    refine h.quiet ?_ rfl fun hended => absurd hended (by simp)
    rw [hworker, hmessages]
    rfl
  · intro hworker hmessages
    refine h.quiet ?_ rfl ?_
    · rw [hworker]
      cases thread.connected <;> rfl
    · intro hended _
      refine ⟨?_, hmessages⟩
      change thread.connected = false
      by_contra hconnected
      rw [if_pos (Bool.not_eq_false _ ▸ hconnected)] at hended
      exact absurd hended (by simp)
  · intro nowNs msg times hworker _ _
    refine h.quiet ?_ rfl fun hended => absurd hended (by simp)
    rw [hworker]
    rfl
  · intro sendStart collect msg times hworker _ record
    have haccepted : acceptedOf (log ++ [.recorded msg record]) = acceptedOf log := by
      rw [acceptedOf_concat, accepted?, Option.toList_none, List.append_nil]
    have hrecorded : recordedOf (log ++ [.recorded msg record]) =
        recordedOf log ++ [(msg, record)] := by
      rw [recordedOf_concat, recorded?, Option.toList_some]
    constructor
    · rw [haccepted, hrecorded, h.conserves, hworker, List.map_append]
      simp [Worker.current]
    · rw [hrecorded, List.map_append, ← h.records]
      rfl
    · rw [hrecorded]
      refine List.forall_mem_append.mpr ⟨h.stamped, List.forall_mem_singleton.mpr ?_⟩
      exact tTriggerRx_processOne _ _ _ _
    · exact fun hended => absurd hended (by simp)

theorem accounts_run (actions : List Action) :
    Accounts (exec step .start actions) (events actions) := by
  induction actions using List.reverseRecOn with
  | nil =>
      refine ⟨rfl, rfl, ?_, fun hended => absurd hended (by simp [exec, ExecutionThread.start])⟩
      exact fun _ hmem => absurd hmem (by simp [events, outputs, recordedOf])
  | append_singleton actions action ih =>
      rw [events, outputs_concat, exec_concat, List.flatten_append, List.flatten_singleton]
      exact ih.step action

end Accounts

section Stopping

/-- The records that a stopped thread may still make. -/
def due : Worker → Nat
  | .checking | .ended => 0
  | .polling | .processing _ _ => 1

theorem stopped_step {bound : Nat} (thread : ExecutionThread) (action : Action)
    (h : thread.running = false ∧ thread.records.length + due thread.worker ≤ bound) :
    (step thread action).1.running = false ∧
      (step thread action).1.records.length + due (step thread action).1.worker ≤ bound := by
  obtain ⟨hstopped, hbound⟩ := h
  refine step_elim (motive := fun result => result.1.running = false ∧
    result.1.records.length + due result.1.worker ≤ bound) thread action ⟨hstopped, hbound⟩
    (fun _ _ _ _ _ _ => ⟨hstopped, hbound⟩) (fun _ _ => ⟨hstopped, hbound⟩)
    (fun _ => ⟨hstopped, hbound⟩) (fun _ => ⟨rfl, hbound⟩) ?_ ?_ ?_ ?_ ?_
  · intro _
    rw [hstopped]
    exact ⟨rfl, (Nat.le_add_right _ _).trans hbound⟩
  · intro queue msg hworker _
    rw [hworker] at hbound
    exact ⟨hstopped, hbound⟩
  · intro _ _
    refine ⟨hstopped, ?_⟩
    change thread.records.length + due (if thread.connected then .checking else .ended) ≤ bound
    split <;> exact (Nat.le_add_right _ _).trans hbound
  · intro nowNs msg times hworker _ _
    rw [hworker] at hbound
    exact ⟨hstopped, hbound⟩
  · intro sendStart collect msg times hworker _ record
    rw [hworker] at hbound
    refine ⟨hstopped, ?_⟩
    rw [List.length_append, List.length_singleton]
    exact hbound

theorem stopped_run {bound : Nat} (h : thread.running = false)
    (hbound : thread.records.length + due thread.worker ≤ bound) (actions : List Action) :
    (exec step thread actions).records.length ≤ bound := by
  have hrun := exec_kept (I := fun thread : ExecutionThread => thread.running = false ∧
    thread.records.length + due thread.worker ≤ bound) stopped_step ⟨h, hbound⟩ actions
  exact (Nat.le_add_right _ _).trans hrun.2

end Stopping

theorem length_current_le (worker : Worker) : worker.current.toList.length ≤ 1 := by
  cases worker <;> simp [Worker.current]

/-- Under any interleaving each accepted trigger is recorded once, in its order, with its own
stamp, unless it is the one being processed or one of those in the queue; a trigger is
refused only by a full queue, and a stopped thread makes at most one more record. -/
theorem every_trigger_recorded_once (actions : List Action) :
    let thread := exec step .start actions
    let recorded := recordedOf (events actions)
    acceptedOf (events actions) = recorded.map Prod.fst ++ thread.worker.current.toList ++
        thread.queue.messages ∧
      thread.records = recorded.map Prod.snd ∧
      (∀ pair ∈ recorded, pair.2.tTriggerRx = pair.1.timestampNs) ∧
      (acceptedOf (events actions)).length ≤ thread.records.length + 1025 ∧
      (thread.worker = .ended → thread.running = true →
        recorded.map Prod.fst = acceptedOf (events actions)) ∧
      ∀ before action after, actions = before ++ action :: after →
        (action = .stop →
          thread.records.length ≤ (exec step .start before).records.length + 1) ∧
        ∀ error, Event.refused error ∈ (step (exec step .start before) action).2 →
          (exec step .start before).queue.messages.length = queueCapacity := by
  intro thread recorded
  have h : Accounts thread (events actions) := accounts_run actions
  refine ⟨h.conserves, h.records, h.stamped, ?_, ?_, ?_⟩
  · have hfits : thread.queue.messages.length ≤ 1024 := thread.queue.fits
    have hcurrent := length_current_le thread.worker
    rw [h.conserves, h.records, List.length_append, List.length_append, List.length_map,
      List.length_map]
    omega
  · intro hended hrunning
    rw [h.conserves, hended, (h.drained hended hrunning).2]
    simp [Worker.current, recorded]
  · rintro before action after rfl
    constructor
    · rintro rfl
      change (exec step .start (before ++ .stop :: after)).records.length ≤ _
      rw [exec_append]
      have hstopped : (step (exec step .start before) .stop).1.running = false := rfl
      refine stopped_run hstopped ?_ after
      refine Nat.add_le_add_left ?_ _
      change due (exec step .start before).worker ≤ 1
      cases (exec step .start before).worker <;> simp [due]
    · intro error
      exact step_elim (motive := fun result => Event.refused error ∈ result.2 →
        (exec step .start before).queue.messages.length = queueCapacity) _ action
        (by simp) (by simp) (fun _ hfull _ => hfull) (by simp) (by simp) (by simp) (by simp)
        (by simp) (by simp) (by simp)

end Rtt.ExecutorRuns
