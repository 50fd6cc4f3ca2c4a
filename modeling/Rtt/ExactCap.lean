import Mathlib
import Rtt.UsdCap

namespace Rtt.ExactCap

open Rtt.Machine
open Rtt.MachineWord
open Rtt.Safety
open Rtt.UsdCap

/-- The cast of an exact amount of cents to a machine word: fractions are cut
off, negative amounts give zero and large ones the largest word. -/
def centsWord (cents : ℚ) : Nat := min ⌊cents⌋₊ wordMax

section Orders

variable (valueOf : String → ℚ)

/-- The exact product of price and size. -/
def usdOf (order : String × String) : ℚ := valueOf order.1 * valueOf order.2

/-- The cents that are counted for an order whose product is computed exactly. -/
def exactCents (price size : String) : Nat := centsWord (valueOf price * valueOf size * 100)

def breaker (maxOrders : Nat) (maxUsd : ℚ) : CircuitBreaker :=
  .withInitialCounts maxOrders (centsWord (maxUsd * 100)) 0 0

abbrev exactStep : CircuitBreaker → String × String → CircuitBreaker × Except TripReason Unit :=
  step (exactCents valueOf)

/-- The exact dollars of one call, if it succeeds. -/
def admittedUsd (self : CircuitBreaker) (order : String × String) : ℚ :=
  match (exactStep valueOf self order).2 with
  | .ok () => usdOf valueOf order
  | .error _ => 0

/-- The dollars of the calls that returned `Ok`. -/
def usdAdmitted : CircuitBreaker → List (String × String) → ℚ
  | _, [] => 0
  | self, order :: rest =>
      admittedUsd valueOf self order + usdAdmitted (exactStep valueOf self order).1 rest

/-- At every time of the run the orders that were let through are worth no more
than the limit. -/
def ExactCapKept (maxOrders : Nat) (maxUsd : ℚ) (orders : List (String × String)) : Prop :=
  ∀ pre, pre <+: orders → usdAdmitted valueOf (breaker maxOrders maxUsd) pre ≤ maxUsd

/-- The order is worth a whole number of cents that fits the word, or nothing. -/
def IsWholeCents (order : String × String) : Prop :=
  usdOf valueOf order ≤ 0 ∨ ∃ cents < wordSize, usdOf valueOf order * 100 = (cents : Nat)

theorem centsWord_le {cents : ℚ} (h : 0 ≤ cents) : (centsWord cents : ℚ) ≤ cents := by
  have hle : (centsWord cents : ℚ) ≤ ⌊cents⌋₊ := by
    exact_mod_cast min_le_left ⌊cents⌋₊ wordMax
  exact hle.trans (Nat.floor_le h)

theorem le_exactCents_iff (order : String × String) :
    usdOf valueOf order * 100 ≤ exactCents valueOf order.1 order.2 ↔
      IsWholeCents valueOf order := by
  have hcents : exactCents valueOf order.1 order.2 = centsWord (usdOf valueOf order * 100) := rfl
  rw [hcents]
  constructor
  · intro hle
    rcases le_or_gt (usdOf valueOf order) 0 with hnonpos | hpos
    · exact Or.inl hnonpos
    · refine Or.inr ⟨centsWord (usdOf valueOf order * 100), ?_, ?_⟩
      · exact (min_le_right _ _).trans_lt (by decide)
      · exact le_antisymm hle (centsWord_le (by linarith))
  · rintro (hnonpos | ⟨cents, hfits, hexact⟩)
    · have hzero : (0 : ℚ) ≤ centsWord (usdOf valueOf order * 100) := Nat.cast_nonneg _
      linarith
    · have hmin : min cents wordMax = cents := by
        rw [min_eq_left]
        simp only [wordMax]
        omega
      rw [hexact, centsWord, Nat.floor_natCast, hmin]

theorem usdAdmitted_concat (start : CircuitBreaker) (pre : List (String × String))
    (order : String × String) :
    usdAdmitted valueOf start (pre ++ [order]) = usdAdmitted valueOf start pre +
      admittedUsd valueOf (exec (exactStep valueOf) start pre) order := by
  induction pre generalizing start with
  | nil => simp [usdAdmitted, exec]
  | cons first pre ih =>
      rw [List.cons_append, usdAdmitted, ih, usdAdmitted, exec, add_assoc]

theorem admittedUsd_le {self : CircuitBreaker} {order : String × String}
    (hwhole : Counts self → IsWholeCents valueOf order) :
    admittedUsd valueOf self order * 100 ≤ added (exactCents valueOf) self order := by
  by_cases hcounts : Counts self
  · have hcovered := (le_exactCents_iff valueOf order).mpr (hwhole hcounts)
    rw [added, if_pos hcounts, admittedUsd]
    split
    · exact hcovered
    · rw [zero_mul]
      exact Nat.cast_nonneg _
  · obtain ⟨reason, herror⟩ := (step_of_not_counts (exactCents valueOf) self order hcounts).1
    have hzero : admittedUsd valueOf self order = 0 := by
      rw [admittedUsd, exactStep, herror]
    rw [hzero, zero_mul]
    exact Nat.cast_nonneg _

/-- A call that counts is worth a whole number of cents, which fits the counter. -/
def CountsExactly (self : CircuitBreaker) (order : String × String) : Prop :=
  Counts self → IsWholeCents valueOf order ∧
    self.usdCommittedCents + exactCents valueOf order.1 order.2 < wordSize

theorem centsFit_of_countsExactly {self : CircuitBreaker} {order : String × String}
    (h : CountsExactly valueOf self order) : CentsFit (exactCents valueOf) self order :=
  fun hcounts => (h hcounts).2

theorem usdAdmitted_le {start : CircuitBreaker} {orders : List (String × String)}
    (h : Along (exactStep valueOf) (CountsExactly valueOf) start orders) :
    usdAdmitted valueOf start orders * 100 ≤ centsAdded (exactCents valueOf) start orders := by
  induction orders generalizing start with
  | nil => simp [usdAdmitted, centsAdded]
  | cons order rest ih =>
      have hfirst := admittedUsd_le valueOf fun hcounts => (h.1 hcounts).1
      have hrest := ih h.2
      rw [usdAdmitted, centsAdded, add_mul]
      push_cast
      exact add_le_add hfirst hrest

theorem admittedUsd_of_not_ok {self : CircuitBreaker} {order : String × String}
    (h : (exactStep valueOf self order).2 ≠ .ok ()) : admittedUsd valueOf self order = 0 := by
  rw [admittedUsd]
  split
  · rename_i hok
    exact absurd hok h
  · rfl

theorem maxUsdCents_breaker_le (maxOrders : Nat) {maxUsd : ℚ} (hlimit : 0 ≤ maxUsd) :
    ((breaker maxOrders maxUsd).maxUsdCents : ℚ) ≤ maxUsd * 100 :=
  centsWord_le (by linarith)

theorem exactCapKept_of_countsExactly {maxOrders : Nat} {maxUsd : ℚ}
    {orders : List (String × String)} (hlimit : 0 ≤ maxUsd)
    (h : Along (exactStep valueOf) (CountsExactly valueOf) (breaker maxOrders maxUsd) orders) :
    ExactCapKept valueOf maxOrders maxUsd orders := by
  intro pre hpre
  induction pre using List.reverseRecOn with
  | nil => exact hlimit
  | append_singleton pre order ih =>
      by_cases hok : (exactStep valueOf (exec (exactStep valueOf) (breaker maxOrders maxUsd) pre)
          order).2 = .ok ()
      · have hrun := (along_append.mp (hpre.choose_spec ▸ h)).1
        -- the counter that the last call compared with the limit is the sum of all cents
        have hfit : Along (step (exactCents valueOf)) (CentsFit (exactCents valueOf))
            (breaker maxOrders maxUsd) (pre ++ [order]) := by
          refine along_iff_forall_prefix.mpr fun before next hbefore => ?_
          have hexact := along_iff_forall_prefix.mp hrun before next hbefore
          exact centsFit_of_countsExactly valueOf hexact
        obtain ⟨hcounts, hle⟩ := (step_ok_iff (exactCents valueOf) _ order).mp hok
        have hsum := usdCommittedCents_exec (exactCents valueOf) hfit
        rw [exec_concat, usdCommittedCents_step, if_pos hcounts] at hsum
        rw [hsum, maxUsdCents_exec] at hle
        have hcounted : centsAdded (exactCents valueOf) (breaker maxOrders maxUsd)
            (pre ++ [order]) ≤ (breaker maxOrders maxUsd).maxUsdCents :=
          (Nat.le_add_left _ _).trans hle
        have hadmitted := usdAdmitted_le valueOf hrun
        have hlimitCents := maxUsdCents_breaker_le maxOrders hlimit
        have hcast : (centsAdded (exactCents valueOf) (breaker maxOrders maxUsd)
            (pre ++ [order]) : ℚ) ≤ (breaker maxOrders maxUsd).maxUsdCents := by
          exact_mod_cast hcounted
        linarith
      · rw [usdAdmitted_concat, admittedUsd_of_not_ok valueOf hok, add_zero]
        exact ih ((List.prefix_append pre [order]).trans hpre)

theorem centsWord_natCast {cents : Nat} (hfits : cents ≤ wordMax) : centsWord cents = cents := by
  rw [centsWord, Nat.floor_natCast, min_eq_left hfits]

theorem isWholeCents_of_capsKept {order : String × String}
    (h : ∀ maxUsd, 0 ≤ maxUsd → ExactCapKept valueOf 1 maxUsd [order]) :
    IsWholeCents valueOf order := by
  rw [← le_exactCents_iff]
  have hword : exactCents valueOf order.1 order.2 ≤ wordMax := min_le_right _ _
  have hlimit : (0 : ℚ) ≤ exactCents valueOf order.1 order.2 / 100 := by positivity
  have hcap := h (exactCents valueOf order.1 order.2 / 100) hlimit [order] List.prefix_rfl
  have hcents : (breaker 1 (exactCents valueOf order.1 order.2 / 100)).maxUsdCents =
      exactCents valueOf order.1 order.2 := by
    rw [breaker, CircuitBreaker.withInitialCounts, div_mul_cancel₀ _ (by norm_num),
      centsWord_natCast hword]
  have hok : (exactStep valueOf (breaker 1 (exactCents valueOf order.1 order.2 / 100)) order).2 =
      .ok () := by
    have horders : wrappingAdd 0 1 ≤ 1 := by decide
    refine (step_ok_iff (exactCents valueOf) _ order).mpr ⟨⟨rfl, horders⟩, ?_⟩
    rw [hcents]
    change (0 + exactCents valueOf order.1 order.2) % wordSize ≤ _
    rw [Nat.zero_add]
    exact Nat.mod_le _ _
  rw [usdAdmitted, usdAdmitted, add_zero, admittedUsd, hok] at hcap
  have hexact : usdOf valueOf order ≤ exactCents valueOf order.1 order.2 / 100 := hcap
  linarith

theorem along_of_isWholeCents {order : String × String} {maxUsd : ℚ}
    (h : IsWholeCents valueOf order) :
    Along (exactStep valueOf) (CountsExactly valueOf) (breaker 1 maxUsd) [order] := by
  refine ⟨fun _ => ⟨h, ?_⟩, trivial⟩
  change 0 + exactCents valueOf order.1 order.2 < wordSize
  rw [Nat.zero_add]
  exact (min_le_right _ _).trans_lt (by decide)

/-- The exact cap holds over every run whose counted orders are worth whole cents
that fit the counter.  An order worth anything else breaks it on its own, under
some limit. -/
theorem exact_cap_of_whole_cents :
    (∀ maxOrders maxUsd orders, 0 ≤ maxUsd →
      Along (exactStep valueOf) (CountsExactly valueOf) (breaker maxOrders maxUsd) orders →
        ExactCapKept valueOf maxOrders maxUsd orders) ∧
      ∀ order, (∀ maxUsd, 0 ≤ maxUsd → ExactCapKept valueOf 1 maxUsd [order]) ↔
        IsWholeCents valueOf order := by
  refine ⟨fun _ _ _ hlimit h => exactCapKept_of_countsExactly valueOf hlimit h, ?_⟩
  intro order
  constructor
  · exact isWholeCents_of_capsKept valueOf
  · intro h maxUsd hlimit
    exact exactCapKept_of_countsExactly valueOf hlimit (along_of_isWholeCents valueOf h)

end Orders

/-- Every price and every size is one. -/
def oneDollar : String → ℚ := fun _ => 1

theorem exactCents_oneDollar : exactCents oneDollar = fun _ _ => 100 := by
  funext price size
  rw [exactCents, oneDollar, oneDollar, show (1 * 1 * 100 : ℚ) = (100 : Nat) by norm_num,
    centsWord_natCast (by decide)]

theorem breaker_threeDollars : breaker 10 3 = .withInitialCounts 10 300 0 0 := by
  rw [breaker, show (3 * 100 : ℚ) = (300 : Nat) by norm_num, centsWord_natCast (by decide)]

theorem admittedUsd_oneDollar (self : CircuitBreaker) (order : String × String) :
    admittedUsd oneDollar self order =
      match (step (fun _ _ => 100) self order).2 with
      | .ok () => 1
      | .error _ => 0 := by
  have husd : usdOf oneDollar order = 1 := mul_one 1
  rw [admittedUsd, exactStep, exactCents_oneDollar, husd]

def fiveOrders : List (String × String) := List.replicate 5 ("1", "1")

theorem countsExactly_fiveOrders :
    Along (exactStep oneDollar) (CountsExactly oneDollar) (breaker 10 3) fiveOrders := by
  have hwhole : IsWholeCents oneDollar ("1", "1") := by
    refine Or.inr ⟨100, by decide, ?_⟩
    norm_num [usdOf, oneDollar]
  simp only [exactStep, exactCents_oneDollar, breaker_threeDollars]
  refine ⟨?_, ?_, ?_, ?_, ?_, trivial⟩
  all_goals
    refine fun _ => ⟨hwhole, ?_⟩
    rw [exactCents_oneDollar]
    decide

/-- Three of five orders reach the cap, and the others are refused. -/
theorem exact_cap_of_whole_cents_fiveOrders :
    usdAdmitted oneDollar (breaker 10 3) fiveOrders = 3 ∧
      ExactCapKept oneDollar 10 3 fiveOrders := by
  refine ⟨?_, (exact_cap_of_whole_cents oneDollar).1 10 3 fiveOrders (by norm_num)
    countsExactly_fiveOrders⟩
  simp only [fiveOrders, List.replicate, usdAdmitted, admittedUsd_oneDollar, exactStep,
    exactCents_oneDollar, breaker_threeDollars]
  change (1 + (1 + (1 + (0 + (0 + 0)))) : ℚ) = 3
  norm_num

def halfCentValue (text : String) : ℚ := if text = "0.015" then 15 / 1000 else 1

/-- An order of one cent and a half passes a cap of one cent. -/
theorem half_cent_passes : ¬ ExactCapKept halfCentValue 5 (1 / 100) [("0.015", "1")] := by
  intro h
  have hsize : ("1" : String) ≠ "0.015" := by decide
  have husd : usdOf halfCentValue ("0.015", "1") = 15 / 1000 := by
    norm_num [usdOf, halfCentValue, hsize]
  have hfloor : ⌊(15 / 1000 * 100 : ℚ)⌋₊ = 1 := by
    rw [Nat.floor_eq_iff (by norm_num)]
    norm_num
  have hcents : orderCents (exactCents halfCentValue) ("0.015", "1") = 1 := by
    change centsWord (usdOf halfCentValue ("0.015", "1") * 100) = 1
    rw [husd, centsWord, hfloor]
    decide
  have hlimit : (breaker 5 (1 / 100)).maxUsdCents = 1 := by
    change centsWord (1 / 100 * 100) = 1
    rw [show (1 / 100 * 100 : ℚ) = (1 : Nat) by norm_num, centsWord_natCast (by decide)]
  have hok : (exactStep halfCentValue (breaker 5 (1 / 100)) ("0.015", "1")).2 = .ok () := by
    have horders : wrappingAdd 0 1 ≤ 5 := by decide
    have hstart : (breaker 5 (1 / 100)).usdCommittedCents = 0 := rfl
    refine (step_ok_iff (exactCents halfCentValue) _ _).mpr ⟨⟨rfl, horders⟩, ?_⟩
    rw [hlimit, hstart, hcents]
    decide
  have hcap := h [("0.015", "1")] List.prefix_rfl
  rw [usdAdmitted, usdAdmitted, admittedUsd, hok] at hcap
  have hexceeded : usdOf halfCentValue ("0.015", "1") + 0 ≤ 1 / 100 := hcap
  rw [husd] at hexceeded
  norm_num at hexceeded

end Rtt.ExactCap
