import Rtt.WsClient

namespace Rtt.ReconnectBackoff

open Rtt.Machine
open Rtt.MarketMessages
open Rtt.WsClient

/-- A turn, and whether its connection received a message, one of those that it
broadcast or another. -/
structure HeardTurn where
  turn : Turn
  received : Bool
  received_of_delivered : turn.connection.delivered ≠ [] → received = true

def sleptDelay : RunEvent → Option Nat
  | .slept delayMs => some delayMs
  | .attempted _ | .broadcast _ => none

def sleptDelays (events : List RunEvent) : List Nat := events.filterMap sleptDelay

def baseDelay : Nat := 1000

def maxBaseDelay : Nat := 60000

def maxJitter : Nat := 500

/-- The loop, and the base delay due after a connection that receives nothing. -/
structure BackoffRun where
  run : WsRun
  dueMs : Nat

def BackoffRun.start : BackoffRun := { run := .start, dueMs := baseDelay }

/-- The base delay due after a connection. -/
def dueAfter (self : BackoffRun) (heard : HeardTurn) : Nat :=
  if heard.received then baseDelay else self.dueMs

/-- A turn of the loop, beside the delay that is due by the schedule. -/
def backoffStep (self : BackoffRun) (heard : HeardTurn) : BackoffRun × List RunEvent :=
  let (run, events) := runTurn self.run heard.turn
  let dueMs :=
    if sleptDelays events = [] then self.dueMs else min (dueAfter self heard * 2) maxBaseDelay
  ({ run, dueMs }, events)

/-- A delay is the base delay due and some jitter. -/
def OnSchedule (self : BackoffRun) (heard : HeardTurn) : Prop :=
  ∀ delayMs ∈ sleptDelays (runTurn self.run heard.turn).2,
    dueAfter self heard ≤ delayMs ∧ delayMs ≤ dueAfter self heard + maxJitter

instance (self : BackoffRun) (heard : HeardTurn) : Decidable (OnSchedule self heard) := by
  unfold OnSchedule
  infer_instance

/-- The turn ends with a delay. -/
def Sleeps (run : WsRun) (turn : Turn) : Prop :=
  run.stopped = false ∧ turn.shutdownBefore = false ∧ turn.stops = false ∧
    run.firstConnect = false

instance (run : WsRun) (turn : Turn) : Decidable (Sleeps run turn) :=
  inferInstanceAs (Decidable (_ ∧ _ ∧ _ ∧ _))

/-- Before a delay the connection closes cleanly exactly when it has received a
message, unless no delay has been slept since the last reset. -/
def ResetsWhenHeard (self : BackoffRun) (heard : HeardTurn) : Prop :=
  Sleeps self.run heard.turn →
    heard.turn.connection.closedCleanly = heard.received ∨
      self.run.backoff.currentMs = baseDelay

instance (self : BackoffRun) (heard : HeardTurn) : Decidable (ResetsWhenHeard self heard) :=
  inferInstanceAs (Decidable (_ → _ ∨ _))

section Turns

variable {run : WsRun} {turn : Turn}

/-- The backoff when the turn comes to its delay. -/
def backoffAtEnd (run : WsRun) (turn : Turn) : BackoffState :=
  if turn.connection.closedCleanly then run.backoff.reset else run.backoff

theorem sleptDelays_opened (run : WsRun) (turn : Turn) : sleptDelays (opened run turn) = [] := by
  simp [sleptDelays, opened, sleptDelay]

theorem runTurn_of_sleeps (h : Sleeps run turn) :
    (runTurn run turn).1.backoff = ((backoffAtEnd run turn).nextDelay turn.subsecNanos).1 ∧
      (runTurn run turn).1.stopped = false ∧ (runTurn run turn).1.firstConnect = false ∧
      sleptDelays (runTurn run turn).2 =
        [((backoffAtEnd run turn).nextDelay turn.subsecNanos).2] := by
  obtain ⟨hrunning, hopen, hstops, hlater⟩ := h
  rw [runTurn, if_neg (by simp [hrunning]), if_neg (by simp [hopen])]
  simp only [hstops, hlater, Bool.false_eq_true, if_false]
  refine ⟨rfl, hrunning, trivial, ?_⟩
  rw [sleptDelays, List.filterMap_append, ← sleptDelays, sleptDelays_opened]
  rfl

theorem runTurn_of_not_sleeps (h : ¬ Sleeps run turn) :
    sleptDelays (runTurn run turn).2 = [] ∧
      ((runTurn run turn).1.backoff = run.backoff ∨
        (runTurn run turn).1.backoff = run.backoff.reset) ∧
      ((runTurn run turn).1.stopped = false → run.stopped = false ∧ run.firstConnect = true) ∧
      ((runTurn run turn).1.firstConnect = true → run.firstConnect = true) := by
  unfold runTurn
  rcases hrunning : run.stopped with _ | _
  · rcases hopen : turn.shutdownBefore with _ | _
    · rcases hstops : turn.stops with _ | _
      · rcases hfirst : run.firstConnect with _ | _
        · exact absurd ⟨hrunning, hopen, hstops, hfirst⟩ h
        · rcases hclean : turn.connection.closedCleanly with _ | _ <;>
            simp [sleptDelays_opened]
      · rcases hclean : turn.connection.closedCleanly with _ | _ <;>
          simp [sleptDelays_opened]
    · simp [sleptDelays]
  · simp [sleptDelays, hrunning]

end Turns

section Rungs

/-- The base delays that doubling from one second up to the cap can reach. -/
def rungs : List Nat := [1000, 2000, 4000, 8000, 16000, 32000, 60000]

theorem rungs_double : ∀ ms ∈ rungs, min (ms * 2) maxBaseDelay ∈ rungs := by decide

theorem rungs_bounds : ∀ ms ∈ rungs, baseDelay ≤ ms ∧ ms ≤ maxBaseDelay := by decide

theorem rungs_apart :
    ∀ ms ∈ rungs, ∀ other ∈ rungs, ms ≤ other + maxJitter → other ≤ ms + maxJitter →
      ms = other := by
  decide

/-- The backoff of the loop is on one of the base delays. -/
structure OnRung (backoff : BackoffState) : Prop where
  base_eq : backoff.baseMs = baseDelay
  cap_eq : backoff.capMs = maxBaseDelay
  jitter_eq : backoff.jitterMs = maxJitter
  current_mem : backoff.currentMs ∈ rungs

variable {backoff : BackoffState}

theorem OnRung.reset (h : OnRung backoff) : OnRung backoff.reset := by
  refine ⟨h.base_eq, h.cap_eq, h.jitter_eq, ?_⟩
  simp only [BackoffState.reset, h.base_eq]
  exact List.mem_cons_self

theorem OnRung.nextDelay (h : OnRung backoff) (subsecNanos : Nat) :
    OnRung (backoff.nextDelay subsecNanos).1 := by
  refine ⟨h.base_eq, h.cap_eq, h.jitter_eq, ?_⟩
  have hcurrent : (backoff.nextDelay subsecNanos).1.currentMs =
      min (backoff.currentMs * 2) maxBaseDelay := by
    rw [← h.cap_eq]
    rfl
  rw [hcurrent]
  exact rungs_double _ h.current_mem

theorem OnRung.delay (h : OnRung backoff) (subsecNanos : Nat) :
    backoff.currentMs ≤ (backoff.nextDelay subsecNanos).2 ∧
      (backoff.nextDelay subsecNanos).2 ≤ backoff.currentMs + maxJitter := by
  have hjitter : randJitter subsecNanos backoff.jitterMs ≤ maxJitter := by
    rw [h.jitter_eq]
    exact Nat.le_of_lt_succ (Nat.mod_lt _ (Nat.succ_pos _))
  simp only [BackoffState.nextDelay]
  split
  · omega
  · omega

theorem OnRung.backoffAtEnd {run : WsRun} (h : OnRung run.backoff) (turn : Turn) :
    OnRung (backoffAtEnd run turn) := by
  unfold ReconnectBackoff.backoffAtEnd
  split
  · exact h.reset
  · exact h

theorem OnRung.runTurn {run : WsRun} (h : OnRung run.backoff) (turn : Turn) :
    OnRung (runTurn run turn).1.backoff := by
  by_cases hsleeps : Sleeps run turn
  · rw [(runTurn_of_sleeps hsleeps).1]
    exact (h.backoffAtEnd turn).nextDelay _
  · rcases (runTurn_of_not_sleeps hsleeps).2.1 with hkept | hreset
    · exact hkept ▸ h
    · exact hreset ▸ h.reset

theorem delays_bounded {run : WsRun} (h : OnRung run.backoff) (turn : Turn) :
    ∀ delayMs ∈ sleptDelays (runTurn run turn).2,
      baseDelay ≤ delayMs ∧ delayMs ≤ maxBaseDelay + maxJitter := by
  intro delayMs hmem
  by_cases hsleeps : Sleeps run turn
  · rw [(runTurn_of_sleeps hsleeps).2.2.2] at hmem
    obtain rfl := List.mem_singleton.mp hmem
    have hend := h.backoffAtEnd turn
    have hrung := rungs_bounds _ hend.current_mem
    have hdelay := hend.delay turn.subsecNanos
    omega
  · rw [(runTurn_of_not_sleeps hsleeps).1] at hmem
    exact absurd hmem List.not_mem_nil

theorem onRung_start : OnRung WsRun.start.backoff := ⟨rfl, rfl, rfl, by decide⟩

end Rungs

section Schedule

/-- While the loop goes on, its backoff is the base delay due. -/
structure Scheduled (state : BackoffRun) : Prop where
  onRung : OnRung state.run.backoff
  first : state.run.stopped = false → state.run.firstConnect = true →
    state.run.backoff.currentMs = baseDelay
  due : state.run.stopped = false → state.dueMs = state.run.backoff.currentMs

variable {self : BackoffRun} {heard : HeardTurn}

theorem currentMs_backoffAtEnd (h : OnRung self.run.backoff) :
    (backoffAtEnd self.run heard.turn).currentMs =
      if heard.turn.connection.closedCleanly then baseDelay else self.run.backoff.currentMs := by
  unfold backoffAtEnd
  split
  · exact h.base_eq
  · rfl

theorem dueAfter_eq_iff (h : Scheduled self) (hsleeps : Sleeps self.run heard.turn) :
    dueAfter self heard = (backoffAtEnd self.run heard.turn).currentMs ↔
      ResetsWhenHeard self heard := by
  have hresets : ResetsWhenHeard self heard ↔
      (heard.turn.connection.closedCleanly = heard.received ∨
        self.run.backoff.currentMs = baseDelay) := by
    simp [ResetsWhenHeard, hsleeps]
  rw [hresets, currentMs_backoffAtEnd h.onRung, dueAfter, h.due hsleeps.1]
  rcases heard.received with _ | _ <;>
    rcases heard.turn.connection.closedCleanly with _ | _ <;> simp [eq_comm]

theorem onSchedule_iff (h : Scheduled self) :
    OnSchedule self heard ↔ ResetsWhenHeard self heard := by
  by_cases hsleeps : Sleeps self.run heard.turn
  · have hend := h.onRung.backoffAtEnd heard.turn
    have hdelay := hend.delay heard.turn.subsecNanos
    have hdue : dueAfter self heard ∈ rungs := by
      unfold dueAfter
      split
      · decide
      · rw [h.due hsleeps.1]
        exact h.onRung.current_mem
    rw [← dueAfter_eq_iff h hsleeps, OnSchedule, (runTurn_of_sleeps hsleeps).2.2.2]
    simp only [List.mem_singleton, forall_eq]
    constructor
    · rintro ⟨hlow, hhigh⟩
      apply rungs_apart _ hdue _ hend.current_mem
      · exact hlow.trans hdelay.2
      · exact hdelay.1.trans hhigh
    · intro heq
      rw [heq]
      exact hdelay
  · refine iff_of_true ?_ fun hsleeps' => absurd hsleeps' hsleeps
    rw [OnSchedule, (runTurn_of_not_sleeps hsleeps).1]
    exact List.forall_mem_nil _

theorem scheduled_backoffStep (h : Scheduled self) (hresets : ResetsWhenHeard self heard) :
    Scheduled (backoffStep self heard).1 := by
  by_cases hsleeps : Sleeps self.run heard.turn
  · obtain ⟨hbackoff, -, hlater, hdelays⟩ := runTurn_of_sleeps hsleeps
    have hend := h.onRung.backoffAtEnd heard.turn
    refine ⟨h.onRung.runTurn heard.turn, ?_, ?_⟩
    · intro _ hfirst
      exact absurd (hlater.symm.trans hfirst) (by simp)
    · intro _
      simp only [backoffStep, hdelays, hbackoff, BackoffState.nextDelay, hend.cap_eq]
      rw [if_neg (by simp), (dueAfter_eq_iff h hsleeps).mpr hresets]
  · obtain ⟨hdelays, hbackoff, hstopped, hfirst⟩ := runTurn_of_not_sleeps hsleeps
    have hkept : (runTurn self.run heard.turn).1.stopped = false →
        (runTurn self.run heard.turn).1.backoff.currentMs = self.run.backoff.currentMs := by
      intro hrunning
      obtain ⟨hrunning', hfirst'⟩ := hstopped hrunning
      rcases hbackoff with heq | heq
      · rw [heq]
      · rw [heq, h.first hrunning' hfirst']
        exact h.onRung.base_eq
    refine ⟨h.onRung.runTurn heard.turn, ?_, ?_⟩
    · intro hrunning hfirst'
      exact (hkept hrunning).trans (h.first (hstopped hrunning).1 (hfirst hfirst'))
    · intro hrunning
      simp only [backoffStep, hdelays, if_true]
      exact (h.due (hstopped hrunning).1).trans (hkept hrunning).symm

theorem scheduled_start : Scheduled .start := ⟨onRung_start, fun _ _ => rfl, fun _ => rfl⟩

end Schedule

/-- Every delay is between one second and a minute and a half second.  The delays
follow the schedule exactly when, before each of them, the connection closed
cleanly just if it had received a message. -/
theorem reconnect_delays_iff (turns : List HeardTurn) :
    (∀ delayMs ∈ sleptDelays (traceFrom .start (turns.map HeardTurn.turn)),
        1000 ≤ delayMs ∧ delayMs ≤ 60500) ∧
      (Along backoffStep OnSchedule .start turns ↔
        Along backoffStep ResetsWhenHeard .start turns) := by
  constructor
  · intro delayMs hmem
    obtain ⟨event, hevent, hdelay⟩ := List.mem_filterMap.mp hmem
    obtain ⟨events, hevents, hmemEvents⟩ := List.mem_flatten.mp hevent
    have hbounded := outputs_forall (P := fun _ _ => True) (I := fun run => OnRung run.backoff)
      (Q := fun events => ∀ delayMs ∈ sleptDelays events,
        baseDelay ≤ delayMs ∧ delayMs ≤ maxBaseDelay + maxJitter)
      (fun run turn h _ => h.runTurn turn) (fun run turn h _ => delays_bounded h turn)
      onRung_start (along_true _ _) events hevents
    exact hbounded delayMs (List.mem_filterMap.mpr ⟨event, hmemEvents, hdelay⟩)
  · apply along_congr_of_kept (J := Scheduled) (fun self heard h => onSchedule_iff h)
    · intro self heard h hschedule
      exact scheduled_backoffStep h ((onSchedule_iff h).mp hschedule)
    · exact scheduled_start

/-- A connection without messages that ends with an error. -/
def failedTurn : HeardTurn where
  turn :=
    { connection := { delivered := [], closedCleanly := false, delivered_feed := by simp }
      shutdownBefore := false
      shutdownAtClose := false
      shutdownAfter := false
      nowMs := 0
      subsecNanos := 0 }
  received := false
  received_of_delivered := by simp

def heardTurn : HeardTurn := { failedTurn with received := true, received_of_delivered := by simp }

/-- A connection that received a message and then ended with an error is followed
by two seconds. -/
theorem heard_connection_does_not_reset :
    sleptDelays (traceFrom .start ([failedTurn, failedTurn, heardTurn].map HeardTurn.turn)) =
        [1000, 2000] ∧
      ¬ Along backoffStep OnSchedule .start [failedTurn, failedTurn, heardTurn] := by
  decide +kernel

end Rtt.ReconnectBackoff
