import Rtt.BinaryFloat
import Rtt.BreakerThreads

/-!
The state that outlives the executor's process: the counters of the circuit breaker are
saved to a file while the breaker is in use and restored at the next start.
-/

namespace Rtt.State

open Rtt.BinaryFloat
open Rtt.BreakerThreads
open Rtt.Safety

/-- The state as it is saved. `last_shutdown` is kept as a text. -/
structure ExecutorState where
  ordersFired : Nat := 0
  usdCommittedCents : Nat := 0
  lastShutdown : String := ""
  tripped : Bool := false
  deriving DecidableEq, Repr

namespace ExecutorState

/-- A file that is missing or corrupt is `none`. -/
def load (file : Option ExecutorState) : ExecutorState := file.getD {}

def fromStats (ordersFired usdCommittedCents : Nat) (tripped : Bool) (now : String) :
    ExecutorState :=
  { ordersFired, usdCommittedCents, lastShutdown := now, tripped }

end ExecutorState

/-- The dollars that `CircuitBreaker::stats` returns. -/
def statsUsd (usdCents : Nat) : ℚ := nearest (nearest usdCents / 100)

/-- The cents that are saved for the counter, on their way through the dollars. -/
def savedCents (usdCents : Nat) : Nat := toWord (nearest (statsUsd usdCents * 100))

/-- The two caps of the breaker as the configuration sets them. -/
structure SafetyLimits where
  maxOrders : Nat
  maxUsdCents : Nat

/-- A process that runs: its breaker with the threads on it, and a save under way. -/
structure Process (Thread : Type) where
  shared : Shared Thread
  /-- The order count that `stats` has loaded for a save under way. -/
  loadedOrders : Option Nat

/-- The file, and the process if one runs. -/
structure Service (Thread : Type) where
  file : Option ExecutorState
  process : Option (Process Thread)

/-- A process starts or ends, a thread takes a step on the breaker, or the health monitor saves. -/
inductive Action (Thread : Type) where
  | start
  | breaker (action : BreakerThreads.Action Thread)
  | loadOrders
  /-- The cents are loaded and the state is saved, if it can be written. -/
  | save (now : String) (written : Bool)
  /-- The process ends, in the middle of a write if the file is torn. -/
  | exit (torn : Bool)

/-- What a step lets an observer see. -/
inductive Event (Thread : Type) where
  | started
  | admitted (call : Returned Thread)
  | loaded
  | saved
  | torn

section

variable {Thread : Type} [DecidableEq Thread] (centsOf : String → String → Nat)
  (limits : SafetyLimits)

def start (file : Option ExecutorState) : Process Thread :=
  let prevState := ExecutorState.load file
  { shared :=
      { breaker := CircuitBreaker.withInitialCounts limits.maxOrders limits.maxUsdCents
          prevState.ordersFired prevState.usdCommittedCents
        phase := fun _ => .idle }
    loadedOrders := none }

/-- The call that an action of the breaker returns, if it is admitted. -/
def admittedCall : Option (Returned Thread) → List (Event Thread)
  | some call => if call.admits then [.admitted call] else []
  | none => []

/-- One step of the service. A step that needs a process does nothing without one. -/
def step (service : Service Thread) (action : Action Thread) :
    Service Thread × List (Event Thread) :=
  match service.process, action with
  | none, .start =>
      ({ service with process := some (start limits service.file) }, [.started])
  | some process, .breaker action =>
      let (shared, returned) := BreakerThreads.step centsOf process.shared action
      ({ service with process := some { process with shared } }, admittedCall returned)
  | some process, .loadOrders =>
      let orders := process.shared.breaker.ordersFired
      ({ service with process := some { process with loadedOrders := some orders } }, [.loaded])
  | some process, .save now written =>
      match process.loadedOrders with
      | none => (service, [])
      | some orders =>
          let cents := savedCents process.shared.breaker.usdCommittedCents
          let state := ExecutorState.fromStats orders cents process.shared.breaker.tripped now
          let process := some { process with loadedOrders := none }
          if written then ({ file := some state, process }, [.saved])
          else ({ service with process }, [])
  | some _, .exit torn =>
      if torn then ({ file := none, process := none }, [.torn])
      else ({ service with process := none }, [])
  | _, _ => (service, [])

end

theorem savedCents_close {usdCents : Nat} (h : usdCents ≤ 2 ^ 51) :
    usdCents ≤ savedCents usdCents + 1 ∧ savedCents usdCents ≤ usdCents := by
  have hcast : (usdCents : ℚ) ≤ 2 ^ 51 := by exact_mod_cast h
  have hzero : (0 : ℚ) ≤ usdCents := Nat.cast_nonneg _
  have hdollars : 0 ≤ statsUsd usdCents := by
    rw [statsUsd, nearest_natCast (by omega)]
    exact nearest_nonneg (by positivity)
  have hhigh : nearest (statsUsd usdCents * 100) ≤ usdCents * (1 + 1 / 2 ^ 53) ^ 2 := by
    calc nearest (statsUsd usdCents * 100)
        ≤ statsUsd usdCents * 100 * (1 + 1 / 2 ^ 53) := nearest_le (by positivity)
      _ ≤ usdCents / 100 * (1 + 1 / 2 ^ 53) * 100 * (1 + 1 / 2 ^ 53) := by
          rw [statsUsd, nearest_natCast (by omega)]
          gcongr
          exact nearest_le (by positivity)
      _ = usdCents * (1 + 1 / 2 ^ 53) ^ 2 := by ring
  have hlow : usdCents * (1 - 1 / 2 ^ 53) ^ 2 ≤ nearest (statsUsd usdCents * 100) := by
    calc (usdCents : ℚ) * (1 - 1 / 2 ^ 53) ^ 2
        = usdCents / 100 * (1 - 1 / 2 ^ 53) * 100 * (1 - 1 / 2 ^ 53) := by ring
      _ ≤ statsUsd usdCents * 100 * (1 - 1 / 2 ^ 53) := by
          rw [statsUsd, nearest_natCast (by omega)]
          gcongr
          exact le_nearest (by positivity)
      _ ≤ nearest (statsUsd usdCents * 100) := le_nearest (by positivity)
  have hfloor : usdCents ≤ ⌊nearest (statsUsd usdCents * 100)⌋₊ + 1 ∧
      ⌊nearest (statsUsd usdCents * 100)⌋₊ ≤ usdCents := by
    constructor
    · have hnext := Nat.lt_floor_add_one (nearest (statsUsd usdCents * 100))
      have hless : (usdCents : ℚ) < ⌊nearest (statsUsd usdCents * 100)⌋₊ + 1 + 1 := by
        nlinarith
      exact Nat.lt_succ_iff.mp (by exact_mod_cast hless)
    · refine Nat.lt_succ_iff.mp ((Nat.floor_lt (nearest_nonneg (by positivity))).mpr ?_)
      push_cast
      nlinarith
  rw [savedCents, toWord]
  omega

example : savedCents 58 = 57 := by decide +kernel

end Rtt.State
