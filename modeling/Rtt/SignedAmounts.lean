import Rtt.ClobOrder

namespace Rtt.SignedAmounts

open Rtt.Quote
open Rtt.Decimal
open Rtt.ClobExecutor
open Rtt.ClobOrder

/-- The text is a decimal of at most six places, for so many millionths, and
these fit in 128 bits. -/
def IsAmount (value : String) (units : Nat) : Prop :=
  ∃ d : Numeral, d.render = value ∧ d.places.length ≤ 6 ∧ d.value * 10 ^ 6 = units ∧
    units < 2 ^ 128

theorem parseScaledDecimal_ok_iff_isAmount {value field : String} {units : Nat} :
    parseScaledDecimal value field = .ok units ↔ IsAmount value units := by
  rw [parseScaledDecimal_ok_iff]
  constructor
  · rintro ⟨d, hrender, hplaces, rfl, hfits⟩
    exact ⟨d, hrender, hplaces, (d.scaled_eq_value_mul hplaces).symm, hfits⟩
  · rintro ⟨d, hrender, hplaces, hvalue, hfits⟩
    refine ⟨d, hrender, hplaces, ?_, hfits⟩
    rw [← d.scaled_eq_value_mul hplaces] at hvalue
    exact_mod_cast hvalue

theorem IsAmount.unique {value : String} {p q : Nat} (hp : IsAmount value p)
    (hq : IsAmount value q) : p = q := by
  have hleft : parseScaledDecimal value "" = .ok p := parseScaledDecimal_ok_iff_isAmount.mpr hp
  have hright : parseScaledDecimal value "" = .ok q := parseScaledDecimal_ok_iff_isAmount.mpr hq
  exact Except.ok.inj (hleft.symm.trans hright)

theorem parseScaledDecimal_error_iff {value field : String} :
    (∃ error, parseScaledDecimal value field = .error error) ↔ ∀ units, ¬ IsAmount value units := by
  cases hparse : parseScaledDecimal value field with
  | error error =>
      refine iff_of_true ⟨error, rfl⟩ ?_
      intro units hamount
      rw [parseScaledDecimal_ok_iff_isAmount.mpr hamount] at hparse
      cases hparse
  | ok units =>
      refine iff_of_false ?_ ?_
      · rintro ⟨error, herror⟩
        cases herror
      · intro h
        exact h units (parseScaledDecimal_ok_iff_isAmount.mp hparse)

/-- The maker amount and the taker amount of a side. -/
def sided : ClobSide → Nat → Nat → Nat × Nat
  | .buy, usdcAmount, tokenAmount => (usdcAmount, tokenAmount)
  | .sell, usdcAmount, tokenAmount => (tokenAmount, usdcAmount)

theorem computeAmounts_of_isAmount {price size : String} {p s : Nat} (hp : IsAmount price p)
    (hs : IsAmount size s) (side : ClobSide) :
    computeAmounts price size side =
      if p * s < 2 ^ 128 then .ok (sided side (p * s / 10 ^ 6) s)
      else .error (.overflow "makerAmount" ("price=" ++ price ++ " size=" ++ size)) := by
  have hprice : parseScaledDecimal price "price" = .ok p :=
    parseScaledDecimal_ok_iff_isAmount.mpr hp
  have hsize : parseScaledDecimal size "size" = .ok s :=
    parseScaledDecimal_ok_iff_isAmount.mpr hs
  have hscale : baseUnitScale ≠ 0 := by decide
  simp only [computeAmounts, hprice, hsize, bind, Except.bind, checkedMulU128]
  by_cases hfits : p * s < amountSize
  · rw [if_pos hfits, if_pos (show p * s < 2 ^ 128 from hfits), Option.bind_some, checkedDivU128,
      if_neg hscale]
    cases side with
    | buy => rfl
    | sell => rfl
  · rw [if_neg hfits, if_neg (show ¬ p * s < 2 ^ 128 from hfits)]
    rfl

theorem computeAmounts_ok_iff {price size : String} {side : ClobSide} {amounts : Nat × Nat} :
    computeAmounts price size side = .ok amounts ↔
      ∃ p s, IsAmount price p ∧ IsAmount size s ∧ p * s < 2 ^ 128 ∧
        sided side (p * s / 10 ^ 6) s = amounts := by
  constructor
  · intro hok
    cases hprice : parseScaledDecimal price "price" with
    | error error =>
        simp only [computeAmounts, hprice, bind, Except.bind] at hok
        cases hok
    | ok p =>
        cases hsize : parseScaledDecimal size "size" with
        | error error =>
            simp only [computeAmounts, hprice, hsize, bind, Except.bind] at hok
            cases hok
        | ok s =>
            have hp := parseScaledDecimal_ok_iff_isAmount.mp hprice
            have hs := parseScaledDecimal_ok_iff_isAmount.mp hsize
            rw [computeAmounts_of_isAmount hp hs] at hok
            split_ifs at hok with hfits
            exact ⟨p, s, hp, hs, hfits, Except.ok.inj hok⟩
  · rintro ⟨p, s, hp, hs, hfits, hamounts⟩
    rw [computeAmounts_of_isAmount hp hs, if_pos hfits, hamounts]

theorem computeAmounts_error_iff {price size : String} {side : ClobSide} :
    (∃ error, computeAmounts price size side = .error error) ↔
      (∀ p, ¬ IsAmount price p) ∨ (∀ s, ¬ IsAmount size s) ∨
        ∃ p s, IsAmount price p ∧ IsAmount size s ∧ 2 ^ 128 ≤ p * s := by
  constructor
  · rintro ⟨error, herror⟩
    by_contra hnone
    push Not at hnone
    obtain ⟨⟨p, hp⟩, ⟨s, hs⟩, hfits⟩ := hnone
    rw [computeAmounts_of_isAmount hp hs, if_pos (hfits p s hp hs)] at herror
    cases herror
  · intro h
    cases hresult : computeAmounts price size side with
    | error error => exact ⟨error, rfl⟩
    | ok amounts =>
        obtain ⟨p, s, hp, hs, hfits, -⟩ := computeAmounts_ok_iff.mp hresult
        rcases h with hprice | hsize | ⟨p', s', hp', hs', hlarge⟩
        · exact absurd hp (hprice p)
        · exact absurd hs (hsize s)
        · rw [hp'.unique hp, hs'.unique hs] at hlarge
          omega

/-- The digit loop is exact up to the 128 bits, and the amounts are the size and
the product of price and size rounded down. -/
theorem amounts_exact :
    (∀ value field units, parseScaledDecimal value field = .ok units ↔ IsAmount value units) ∧
      (∀ price size side amounts, computeAmounts price size side = .ok amounts ↔
        ∃ p s, IsAmount price p ∧ IsAmount size s ∧ p * s < 2 ^ 128 ∧
          amounts = match side with
            | .buy => (p * s / 10 ^ 6, s)
            | .sell => (s, p * s / 10 ^ 6)) ∧
      ∀ price size side, (∃ error, computeAmounts price size side = .error error) ↔
        (∃ error, parseScaledDecimal price "price" = .error error) ∨
          (∃ error, parseScaledDecimal size "size" = .error error) ∨
            ∃ p s, IsAmount price p ∧ IsAmount size s ∧ 2 ^ 128 ≤ p * s := by
  refine ⟨fun _ _ _ => parseScaledDecimal_ok_iff_isAmount, ?_, ?_⟩
  · intro price size side amounts
    rw [computeAmounts_ok_iff]
    cases side with
    | buy => simp only [sided, eq_comm]
    | sell => simp only [sided, eq_comm]
  · intro price size side
    rw [parseScaledDecimal_error_iff, parseScaledDecimal_error_iff]
    exact computeAmounts_error_iff

/-- The amounts are no worse for the signer than the price of so many
millionths. -/
def WithinLimit (p : Nat) : ClobSide → Nat × Nat → Prop
  | .buy, (makerAmount, takerAmount) => makerAmount * 1000000 ≤ p * takerAmount
  | .sell, (makerAmount, takerAmount) => takerAmount * 1000000 ≥ p * makerAmount

/-- A buyer never pays more than the limit.  A seller receives less than one base
unit too little, and the limit exactly when the product of price and size is a
whole number of base units. -/
def WithinUnit (p : Nat) : ClobSide → Nat × Nat → Prop
  | .buy, amounts => WithinLimit p .buy amounts
  | .sell, (makerAmount, takerAmount) =>
      (takerAmount + 1) * 1000000 > p * makerAmount ∧
        (WithinLimit p .sell (makerAmount, takerAmount) ↔ 1000000 ∣ p * makerAmount)

theorem withinUnit_sided (p s : Nat) (side : ClobSide) :
    WithinUnit p side (sided side (p * s / 10 ^ 6) s) := by
  cases side with
  | buy => exact Nat.div_mul_le_self (p * s) (10 ^ 6)
  | sell =>
      have hle := Nat.div_mul_le_self (p * s) (10 ^ 6)
      constructor
      · exact (Nat.div_lt_iff_lt_mul (by decide)).mp (Nat.lt_succ_self _)
      · simp only [WithinLimit]
        constructor
        · intro hlimit
          have hexact : p * s / 10 ^ 6 * 10 ^ 6 = p * s := le_antisymm hle hlimit
          exact Dvd.intro_left _ hexact
        · intro hdvd
          exact (Nat.div_mul_cancel hdvd).ge

theorem signed_amounts_near_limit {price size : String} {side : ClobSide} {p : Nat}
    {amounts : Nat × Nat} (hprice : IsAmount price p)
    (hok : computeAmounts price size side = .ok amounts) : WithinUnit p side amounts := by
  obtain ⟨q, s, hq, -, -, rfl⟩ := computeAmounts_ok_iff.mp hok
  rw [hprice.unique hq]
  exact withinUnit_sided q s side

theorem isAmount_third : IsAmount "0.333333" 333333 := by
  have hparse : parseScaledDecimal "0.333333" "price" = .ok 333333 := by decide +kernel
  exact parseScaledDecimal_ok_iff_isAmount.mp hparse

theorem computeAmounts_third : computeAmounts "0.333333" "0.000001" .sell = .ok (1, 0) := by
  decide +kernel

theorem signed_amounts_near_limit_third : WithinUnit 333333 .sell (1, 0) :=
  signed_amounts_near_limit isAmount_third computeAmounts_third

/-- The smallest share sold at a third of a dollar is signed away for nothing. -/
theorem sale_below_limit :
    ¬ ∀ price size side p amounts, IsAmount price p →
      computeAmounts price size side = .ok amounts → WithinLimit p side amounts := by
  intro h
  have hlimit : 0 * 1000000 ≥ 333333 * 1 := h _ _ _ _ _ isAmount_third computeAmounts_third
  exact absurd hlimit (by decide)

section Orders

variable {Address : Type} {zero maker signerAddr : Address}
  {parseTokenId : String → Option Nat} {salt feeRateBps : Nat} {trigger : TriggerMessage}
  {signatureType : SignatureType} {order : Order Address}

theorem amounts_of_buildOrder
    (hok : buildOrder zero parseTokenId salt trigger maker signerAddr feeRateBps signatureType =
      .ok order) :
    computeAmounts trigger.price trigger.size (ClobSide.ofSide trigger.side) =
      .ok (order.makerAmount, order.takerAmount) := by
  simp only [buildOrder] at hok
  split at hok
  · cases hok
  · rename_i makerAmount takerAmount hamounts
    split at hok
    · cases hok
    · rw [hamounts, ← Except.ok.inj hok]

theorem order_near_limit {p : Nat} (hprice : IsAmount trigger.price p)
    (hok : buildOrder zero parseTokenId salt trigger maker signerAddr feeRateBps signatureType =
      .ok order) :
    WithinUnit p (ClobSide.ofSide trigger.side) (order.makerAmount, order.takerAmount) := by
  obtain ⟨q, s, hq, -, -, hamounts⟩ := computeAmounts_ok_iff.mp (amounts_of_buildOrder hok)
  rw [hprice.unique hq, ← hamounts]
  exact withinUnit_sided q s _

end Orders

end Rtt.SignedAmounts
