import Rtt.Machine
import Rtt.MachineWord
import Rtt.MarketMessages

namespace Rtt.WsClient

open Rtt.Machine
open Rtt.MachineWord
open Rtt.MarketMessages

/-- The delay that is due, in milliseconds, and how it grows. -/
structure BackoffState where
  currentMs : Nat
  baseMs : Nat
  capMs : Nat
  jitterMs : Nat
  deriving DecidableEq, Repr

/-- `subsecNanos` is the clock reading that stands in for a random number. -/
def randJitter (subsecNanos maxMs : Nat) : Nat := subsecNanos % (maxMs + 1)

namespace BackoffState

def new : BackoffState :=
  { currentMs := 1000, baseMs := 1000, capMs := 60000, jitterMs := 500 }

/-- The delay to sleep now, and the state with the doubled delay for next time. -/
def nextDelay (self : BackoffState) (subsecNanos : Nat) : BackoffState × Nat :=
  let jitter := if 0 < self.jitterMs then randJitter subsecNanos self.jitterMs else 0
  ({ self with currentMs := min (self.currentMs * 2) self.capMs }, self.currentMs + jitter)

def reset (self : BackoffState) : BackoffState := { self with currentMs := self.baseMs }

end BackoffState

def isReconnected : WsMessage → Bool
  | .reconnected _ => true
  | .book _ | .priceChange _ | .lastTradePrice _ | .tickSizeChange _ | .bestBidAsk _ => false

/-- What `connect_and_run` did: the messages it broadcast before it ended, cleanly
or with an error.  A reconnect event never comes off the wire. -/
structure Connection where
  delivered : List WsMessage
  closedCleanly : Bool
  delivered_feed : ∀ message ∈ delivered, isReconnected message = false

/-- What one turn of the loop meets: the connection, the readings of the shutdown
flag and the clock. -/
structure Turn where
  connection : Connection
  shutdownBefore : Bool
  shutdownAtClose : Bool
  shutdownAfter : Bool
  nowMs : Nat
  subsecNanos : Nat

/-- The loop ends after this connection. -/
def Turn.stops (self : Turn) : Bool :=
  (self.connection.closedCleanly && self.shutdownAtClose) || self.shutdownAfter

/-- What the loop of the client keeps. -/
structure WsRun where
  backoff : BackoffState
  firstConnect : Bool
  reconnectCount : Nat
  stopped : Bool

def WsRun.start : WsRun :=
  { backoff := .new, firstConnect := true, reconnectCount := 0, stopped := false }

/-- What the loop does, as seen from outside; an attempt shows the counter. -/
inductive RunEvent where
  | attempted (reconnectCount : Nat)
  | broadcast (message : WsMessage)
  | slept (delayMs : Nat)
  deriving DecidableEq, Repr

/-- A connection is attempted and delivers its messages. -/
def opened (run : WsRun) (turn : Turn) : List RunEvent :=
  .attempted run.reconnectCount :: turn.connection.delivered.map .broadcast

/-- One turn of the loop: a connection, and after it the announcement and the pause. -/
def runTurn (run : WsRun) (turn : Turn) : WsRun × List RunEvent :=
  if run.stopped then (run, [])
  else if turn.shutdownBefore then ({ run with stopped := true }, [])
  else
    let backoff := if turn.connection.closedCleanly then run.backoff.reset else run.backoff
    if turn.stops then ({ run with backoff, stopped := true }, opened run turn)
    else if run.firstConnect then ({ run with backoff, firstConnect := false }, opened run turn)
    else
      let count := wrappingAdd run.reconnectCount 1
      let (backoff, delayMs) := backoff.nextDelay turn.subsecNanos
      ({ run with backoff, reconnectCount := count },
        opened run turn ++
          [.broadcast (.reconnected { sequence := count, timestampMs := turn.nowMs }),
            .slept delayMs])

def traceFrom (run : WsRun) (turns : List Turn) : List RunEvent :=
  (outputs runTurn run turns).flatten

/-- The turns that attempt a connection. -/
def attempts : List Turn → List Turn
  | [] => []
  | turn :: turns =>
      if turn.shutdownBefore then []
      else if turn.stops then [turn]
      else turn :: attempts turns

section Trace

variable {run : WsRun} {turn : Turn} (turns : List Turn)

theorem traceFrom_cons :
    traceFrom run (turn :: turns) = (runTurn run turn).2 ++ traceFrom (runTurn run turn).1 turns :=
  rfl

theorem traceFrom_of_stopped (h : run.stopped = true) : traceFrom run turns = [] := by
  induction turns with
  | nil => rfl
  | cons turn turns ih =>
      rw [traceFrom_cons, runTurn, if_pos h]
      exact ih

theorem traceFrom_of_shutdownBefore (h : turn.shutdownBefore = true) :
    traceFrom run (turn :: turns) = [] := by
  rw [traceFrom_cons, runTurn]
  rcases hstopped : run.stopped with _ | _
  · rw [if_neg Bool.false_ne_true, if_pos h]
    exact traceFrom_of_stopped turns rfl
  · rw [if_pos rfl]
    exact traceFrom_of_stopped turns hstopped

variable (hrunning : run.stopped = false) (hopen : turn.shutdownBefore = false)
include hrunning hopen

theorem traceFrom_of_stops (h : turn.stops = true) :
    traceFrom run (turn :: turns) = opened run turn := by
  rw [traceFrom_cons, runTurn, if_neg (by simp [hrunning]), if_neg (by simp [hopen])]
  simp only [h, if_true]
  rw [traceFrom_of_stopped turns rfl, List.append_nil]

theorem traceFrom_of_first (h : turn.stops = false) (hfirst : run.firstConnect = true) :
    ∃ next : WsRun, next.stopped = false ∧ next.firstConnect = false ∧
      next.reconnectCount = run.reconnectCount ∧
        traceFrom run (turn :: turns) = opened run turn ++ traceFrom next turns := by
  refine ⟨(runTurn run turn).1, ?_⟩
  rw [traceFrom_cons, runTurn, if_neg (by simp [hrunning]), if_neg (by simp [hopen])]
  simp only [h, hfirst, if_true, Bool.false_eq_true, if_false]
  exact ⟨hrunning, trivial, trivial, trivial⟩

theorem traceFrom_of_later (h : turn.stops = false) (hlater : run.firstConnect = false) :
    ∃ (next : WsRun) (event : ReconnectEvent) (delayMs : Nat),
      next.stopped = false ∧ next.firstConnect = false ∧
        traceFrom run (turn :: turns) =
          opened run turn ++ [.broadcast (.reconnected event), .slept delayMs] ++
            traceFrom next turns := by
  let backoff := if turn.connection.closedCleanly then run.backoff.reset else run.backoff
  refine ⟨(runTurn run turn).1,
    { sequence := wrappingAdd run.reconnectCount 1, timestampMs := turn.nowMs },
    (backoff.nextDelay turn.subsecNanos).2, ?_⟩
  rw [traceFrom_cons, runTurn, if_neg (by simp [hrunning]), if_neg (by simp [hopen])]
  simp only [h, hlater, Bool.false_eq_true, if_false]
  exact ⟨hrunning, trivial, rfl⟩

end Trace

end Rtt.WsClient
