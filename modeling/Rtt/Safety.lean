import Rtt.MachineWord

namespace Rtt.Safety

open Rtt.MachineWord

inductive TripReason where
  | alreadyTripped
  | maxOrders (orders maxOrders : Nat)
  | maxUsd (usdCents maxUsdCents : Nat)
  deriving DecidableEq, Repr

/-- The refusal that trips the breaker. -/
def TripReason.isOverLimit : TripReason → Bool
  | .alreadyTripped => false
  | .maxOrders _ _ | .maxUsd _ _ => true

/-- The text of a refusal, with the rendering of cents as dollars. -/
def TripReason.text (dollars : Nat → String) : TripReason → String
  | .alreadyTripped => "already tripped"
  | .maxOrders orders limit =>
      "max orders exceeded: " ++ toString orders ++ "/" ++ toString limit
  | .maxUsd usdCents limitCents =>
      "max USD exceeded: $" ++ dollars usdCents ++ "/$" ++ dollars limitCents

/-- The counters and limits of the breaker. -/
structure CircuitBreaker where
  ordersFired : Nat
  usdCommittedCents : Nat
  maxOrders : Nat
  maxUsdCents : Nat
  tripped : Bool
  deriving DecidableEq, Repr

namespace CircuitBreaker

/-- A breaker that goes on from saved counters. -/
def withInitialCounts (maxOrders maxUsdCents initialOrders initialUsdCents : Nat) :
    CircuitBreaker :=
  { ordersFired := initialOrders
    usdCommittedCents := initialUsdCents
    maxOrders
    maxUsdCents
    tripped := false }

/-- Check the limits and record an order.  `centsOf` is the floating-point
product of price and size in cents, cast to a machine word. -/
def checkAndRecord (self : CircuitBreaker) (centsOf : String → String → Nat)
    (price size : String) : CircuitBreaker × Except TripReason Unit :=
  if self.tripped then (self, .error .alreadyTripped)
  else
    let usdCents := centsOf price size
    let orders := wrappingAdd self.ordersFired 1
    let self := { self with ordersFired := orders }
    if orders > self.maxOrders then
      ({ self with tripped := true }, .error (.maxOrders orders self.maxOrders))
    else
      let usd := wrappingAdd self.usdCommittedCents usdCents
      let self := { self with usdCommittedCents := usd }
      if usd > self.maxUsdCents then
        ({ self with tripped := true }, .error (.maxUsd usd self.maxUsdCents))
      else (self, .ok ())

def isTripped (self : CircuitBreaker) : Bool := self.tripped

def trip (self : CircuitBreaker) : CircuitBreaker := { self with tripped := true }

end CircuitBreaker

/-- The limiter, with the window under way. -/
structure RateLimiter where
  maxPerSecond : Nat
  windowStartNs : Nat
  countInWindow : Nat
  deriving DecidableEq, Repr

namespace RateLimiter

def new (maxPerSecond : Nat) : RateLimiter :=
  { maxPerSecond, windowStartNs := 0, countInWindow := 0 }

/-- `try_acquire`: a call a second after the start of the window starts the next one. -/
def tryAcquire (self : RateLimiter) (nowNs : Nat) : RateLimiter × Bool :=
  let elapsedNs := nowNs - self.windowStartNs
  if elapsedNs ≥ 1000000000 then
    ({ self with windowStartNs := nowNs, countInWindow := 1 }, true)
  else
    let count := wrappingAdd self.countInWindow 1
    -- the increment stays even when the call is refused
    let self := { self with countInWindow := count }
    if count > self.maxPerSecond then (self, false) else (self, true)

end RateLimiter

structure OrderGuard where
  inFlight : Bool
  deriving DecidableEq, Repr

namespace OrderGuard

def new : OrderGuard := { inFlight := false }

def tryAcquire (self : OrderGuard) : OrderGuard × Bool :=
  if self.inFlight then (self, false) else ({ inFlight := true }, true)

def release (_self : OrderGuard) : OrderGuard := { inFlight := false }

theorem release_eq_of_free {guard : OrderGuard} (hfree : guard.inFlight = false)
    (self : OrderGuard) : self.release = guard := by
  obtain ⟨inFlight⟩ := guard
  exact congrArg OrderGuard.mk hfree.symm

end OrderGuard

variable {self : CircuitBreaker} {centsOf : String → String → Nat} {price size : String}

/-- Neither counter wraps at this order. -/
def NoWrap (self : CircuitBreaker) (usdCents : Nat) : Prop :=
  self.ordersFired + 1 < wordSize ∧ self.usdCommittedCents + usdCents < wordSize

instance (self : CircuitBreaker) (usdCents : Nat) : Decidable (NoWrap self usdCents) :=
  inferInstanceAs (Decidable (_ ∧ _))

theorem checkAndRecord_ok (hnowrap : NoWrap self (centsOf price size))
    (hok : (self.checkAndRecord centsOf price size).2 = .ok ()) :
    self.tripped = false ∧ self.ordersFired + 1 ≤ self.maxOrders ∧
      self.usdCommittedCents + centsOf price size ≤ self.maxUsdCents ∧
      (self.checkAndRecord centsOf price size).1 =
        { self with
          ordersFired := self.ordersFired + 1
          usdCommittedCents := self.usdCommittedCents + centsOf price size } := by
  simp only [CircuitBreaker.checkAndRecord, wrappingAdd_eq hnowrap.1,
    wrappingAdd_eq hnowrap.2] at hok ⊢
  cases htripped : self.tripped with
  | true => simp [htripped] at hok
  | false =>
      simp only [htripped, Bool.false_eq_true, if_false] at hok ⊢
      split at hok
      · exact absurd hok (by simp)
      · split at hok
        · exact absurd hok (by simp)
        · rename_i horders husd
          rw [if_neg horders, if_neg husd]
          exact ⟨trivial, not_lt.mp horders, not_lt.mp husd, rfl⟩

@[simp] theorem maxOrders_checkAndRecord :
    (self.checkAndRecord centsOf price size).1.maxOrders = self.maxOrders := by
  simp only [CircuitBreaker.checkAndRecord]
  split_ifs <;> rfl

@[simp] theorem maxUsdCents_checkAndRecord :
    (self.checkAndRecord centsOf price size).1.maxUsdCents = self.maxUsdCents := by
  simp only [CircuitBreaker.checkAndRecord]
  split_ifs <;> rfl

end Rtt.Safety
