import Rtt.Machine
import Rtt.Safety

namespace Rtt.UsdCap

open Rtt.Machine
open Rtt.MachineWord
open Rtt.Safety

section Calls

variable (centsOf : String → String → Nat) (self : CircuitBreaker) (order : String × String)

/-- One call with the price and the size of an order. -/
def step : CircuitBreaker × Except TripReason Unit :=
  self.checkAndRecord centsOf order.1 order.2

def orderCents : Nat := centsOf order.1 order.2

/-- A call adds its cents: the breaker is not tripped and the order count stays
within its limit. -/
def Counts : Prop := self.tripped = false ∧ wrappingAdd self.ordersFired 1 ≤ self.maxOrders

instance : Decidable (Counts self) := inferInstanceAs (Decidable (_ ∧ _))

theorem step_of_counts (h : Counts self) :
    step centsOf self order =
      if wrappingAdd self.usdCommittedCents (orderCents centsOf order) ≤ self.maxUsdCents then
        ({ self with
            ordersFired := wrappingAdd self.ordersFired 1
            usdCommittedCents :=
              wrappingAdd self.usdCommittedCents (orderCents centsOf order) }, .ok ())
      else
        ({ self with
            ordersFired := wrappingAdd self.ordersFired 1
            usdCommittedCents := wrappingAdd self.usdCommittedCents (orderCents centsOf order)
            tripped := true },
          .error (.maxUsd (wrappingAdd self.usdCommittedCents (orderCents centsOf order))
            self.maxUsdCents)) := by
  obtain ⟨hopen, horders⟩ := h
  simp only [step, CircuitBreaker.checkAndRecord, hopen, Bool.false_eq_true, if_false,
    gt_iff_lt, not_lt.mpr horders, orderCents]
  by_cases husd : wrappingAdd self.usdCommittedCents (centsOf order.1 order.2) ≤ self.maxUsdCents
  · rw [if_pos husd, if_neg (not_lt.mpr husd)]
  · rw [if_neg husd, if_pos (not_le.mp husd)]

theorem step_of_not_counts (h : ¬ Counts self) :
    (∃ reason, (step centsOf self order).2 = .error reason) ∧
      (step centsOf self order).1.usdCommittedCents = self.usdCommittedCents := by
  simp only [step, CircuitBreaker.checkAndRecord]
  cases hopen : self.tripped with
  | true => exact ⟨⟨_, rfl⟩, rfl⟩
  | false =>
      have horders : wrappingAdd self.ordersFired 1 > self.maxOrders :=
        not_le.mp fun hle => h ⟨hopen, hle⟩
      simp only [Bool.false_eq_true, if_false, if_pos horders]
      exact ⟨⟨_, rfl⟩, trivial⟩

theorem usdCommittedCents_step :
    (step centsOf self order).1.usdCommittedCents =
      if Counts self then wrappingAdd self.usdCommittedCents (orderCents centsOf order)
      else self.usdCommittedCents := by
  by_cases h : Counts self
  · rw [step_of_counts centsOf self order h, if_pos h]
    split_ifs <;> rfl
  · rw [(step_of_not_counts centsOf self order h).2, if_neg h]

theorem step_ok_iff :
    (step centsOf self order).2 = .ok () ↔ Counts self ∧
      wrappingAdd self.usdCommittedCents (orderCents centsOf order) ≤ self.maxUsdCents := by
  by_cases h : Counts self
  · rw [step_of_counts centsOf self order h]
    split_ifs with husd
    · simp [h, husd]
    · simp [h, husd]
  · obtain ⟨reason, herror⟩ := (step_of_not_counts centsOf self order h).1
    simp [h, herror]

@[simp] theorem maxUsdCents_step :
    (step centsOf self order).1.maxUsdCents = self.maxUsdCents :=
  maxUsdCents_checkAndRecord

/-- The cents that a call adds. -/
def added : Nat := if Counts self then orderCents centsOf order else 0

end Calls

section Runs

variable (centsOf : String → String → Nat)

def centsAdded : CircuitBreaker → List (String × String) → Nat
  | _, [] => 0
  | self, order :: rest =>
      added centsOf self order + centsAdded (step centsOf self order).1 rest

/-- At every call of the run: it succeeds only within the limit, counting in
mathematical numbers, and the stored cents do not fall. -/
def UsdCapKept (start : CircuitBreaker) (orders : List (String × String)) : Prop :=
  ∀ pre order, pre ++ [order] <+: orders →
    ((step centsOf (exec (step centsOf) start pre) order).2 = .ok () →
      start.usdCommittedCents + centsAdded centsOf start (pre ++ [order]) ≤ start.maxUsdCents) ∧
    (exec (step centsOf) start pre).usdCommittedCents ≤
      (step centsOf (exec (step centsOf) start pre) order).1.usdCommittedCents

/-- The cents counter does not pass the machine word. -/
def CentsFit (self : CircuitBreaker) (order : String × String) : Prop :=
  Counts self → self.usdCommittedCents + orderCents centsOf order < wordSize

instance (self : CircuitBreaker) (order : String × String) :
    Decidable (CentsFit centsOf self order) :=
  inferInstanceAs (Decidable (_ → _))

theorem centsAdded_concat (start : CircuitBreaker) (pre : List (String × String))
    (order : String × String) :
    centsAdded centsOf start (pre ++ [order]) =
      centsAdded centsOf start pre + added centsOf (exec (step centsOf) start pre) order := by
  induction pre generalizing start with
  | nil => simp [centsAdded, exec]
  | cons first pre ih =>
      rw [List.cons_append, centsAdded, ih, centsAdded, exec, Nat.add_assoc]

theorem usdCommittedCents_step_of_fit {self : CircuitBreaker} {order : String × String}
    (hfit : CentsFit centsOf self order) :
    (step centsOf self order).1.usdCommittedCents =
      self.usdCommittedCents + added centsOf self order := by
  rw [usdCommittedCents_step, added]
  split_ifs with hcounts
  · exact wrappingAdd_eq (hfit hcounts)
  · rfl

theorem usdCommittedCents_exec {start : CircuitBreaker} {orders : List (String × String)}
    (h : Along (step centsOf) (CentsFit centsOf) start orders) :
    (exec (step centsOf) start orders).usdCommittedCents =
      start.usdCommittedCents + centsAdded centsOf start orders := by
  induction orders using List.reverseRecOn with
  | nil => rfl
  | append_singleton orders order ih =>
      obtain ⟨hrest, hfit⟩ := along_concat.mp h
      rw [exec_concat, usdCommittedCents_step_of_fit centsOf hfit, ih hrest, centsAdded_concat,
        Nat.add_assoc]

theorem maxUsdCents_exec (start : CircuitBreaker) (orders : List (String × String)) :
    (exec (step centsOf) start orders).maxUsdCents = start.maxUsdCents :=
  exec_field (maxUsdCents_step centsOf) start orders

theorem usdCommittedCents_exec_lt {start : CircuitBreaker}
    (hstart : start.usdCommittedCents < wordSize) (orders : List (String × String)) :
    (exec (step centsOf) start orders).usdCommittedCents < wordSize := by
  refine exec_kept (I := fun self : CircuitBreaker => self.usdCommittedCents < wordSize) ?_ hstart
    orders
  intro self order hself
  rw [usdCommittedCents_step]
  split_ifs
  · exact Nat.mod_lt _ (by decide)
  · exact hself

theorem centsFit_of_le {self : CircuitBreaker} {order : String × String}
    (hself : self.usdCommittedCents < wordSize) (horder : orderCents centsOf order < wordSize)
    (hle : self.usdCommittedCents ≤ (step centsOf self order).1.usdCommittedCents) :
    CentsFit centsOf self order := by
  intro hcounts
  rw [usdCommittedCents_step, if_pos hcounts] at hle
  by_contra hover
  have hwrap : wrappingAdd self.usdCommittedCents (orderCents centsOf order) =
      self.usdCommittedCents + orderCents centsOf order - wordSize := by
    rw [wrappingAdd, Nat.mod_eq_sub_mod (not_lt.mp hover), Nat.mod_eq_of_lt (by omega)]
  omega

/-- The cap holds over a run exactly as long as the cents counter does not wrap. -/
theorem usd_cap_kept_iff (hcents : ∀ price size, centsOf price size < wordSize)
    {start : CircuitBreaker} (hstart : start.usdCommittedCents < wordSize)
    (orders : List (String × String)) :
    UsdCapKept centsOf start orders ↔ Along (step centsOf) (CentsFit centsOf) start orders := by
  constructor
  · intro h
    refine along_iff_forall_prefix.mpr fun pre order hpre => ?_
    exact centsFit_of_le centsOf (usdCommittedCents_exec_lt centsOf hstart pre)
      (hcents order.1 order.2) (h pre order hpre).2
  · intro h pre order hpre
    obtain ⟨hrun, hfit⟩ := along_concat.mp (along_append.mp (hpre.choose_spec ▸ h)).1
    have hsum := usdCommittedCents_exec centsOf hrun
    have hnext := usdCommittedCents_step_of_fit centsOf hfit
    constructor
    · intro hok
      obtain ⟨hcounts, hle⟩ := (step_ok_iff centsOf _ order).mp hok
      rw [usdCommittedCents_step, if_pos hcounts] at hnext
      rw [hnext, hsum, maxUsdCents_exec] at hle
      rw [centsAdded_concat, ← Nat.add_assoc]
      exact hle
    · rw [hnext]
      exact Nat.le_add_right _ _

theorem usd_cap_kept_iff_twoDollars :
    UsdCapKept (fun _ _ => 100) (.withInitialCounts 5 1000 0 0) [("0.5", "2"), ("0.5", "2")] := by
  have hcents : (100 : Nat) < wordSize := by decide
  have hstart : (CircuitBreaker.withInitialCounts 5 1000 0 0).usdCommittedCents < wordSize := by
    decide
  exact (usd_cap_kept_iff (fun _ _ => 100) (fun _ _ => hcents) hstart _).mpr (by decide)

/-- The cast gives the largest word for an infinite product. -/
def infiniteCents (price _size : String) : Nat := if price = "inf" then wordMax else 100

/-- After one dollar an infinite order passes a cap of ten. -/
theorem infinite_order_passes :
    ¬ UsdCapKept infiniteCents (.withInitialCounts 5 1000 0 0) [("1", "1"), ("inf", "1")] := by
  intro h
  have hsecond := (h [("1", "1")] ("inf", "1") List.prefix_rfl).1 (by decide)
  exact absurd hsecond (by decide)

end Runs

end Rtt.UsdCap
