import Rtt.ScaledFormat

namespace Rtt.MidpointRange

open Rtt.MachineWord
open Rtt.HotState
open Rtt.ScaledText

theorem lt_of_parseScaled {value : String} {units : Nat} (h : parseScaled value = some units) :
    units < wordSize := by
  obtain ⟨_, -, -, hfits⟩ := parseScaled_eq_some_iff.mp h
  exact hfits

/-- The midpoint is computed from the sum of the two prices, lies between them and
prints as a text that reads back as it. -/
structure MidpointSafe (bid ask : HotBookLevel) : Prop where
  sum : wrappingAdd bid.price.units ask.price.units = bid.price.units + ask.price.units
  between : ∃ midpoint, midpointForLevels (some bid) (some ask) = some midpoint ∧
    min bid.price.units ask.price.units ≤ midpoint.units ∧
    midpoint.units ≤ max bid.price.units ask.price.units ∧
    parseScaled midpoint.exact = some midpoint.units

theorem units_midpointForLevels (bid ask : HotBookLevel) :
    ∃ midpoint, midpointForLevels (some bid) (some ask) = some midpoint ∧
      midpoint.units = wrappingAdd bid.price.units ask.price.units / 2 ∧
      parseScaled midpoint.exact = some midpoint.units := by
  refine ⟨_, rfl, rfl, parseScaled_formatScaled ?_⟩
  have hwrapped : wrappingAdd bid.price.units ask.price.units < wordSize :=
    Nat.mod_lt _ (by decide)
  exact (Nat.div_le_self _ 2).trans_lt hwrapped

section

variable (bid ask : HotBookLevel)
  (hbid : parseScaled bid.price.exact = some bid.price.units)
  (hask : parseScaled ask.price.exact = some ask.price.units)

include hbid hask

theorem midpoint_lt_min {midpoint : HotStateValue}
    (h : midpointForLevels (some bid) (some ask) = some midpoint)
    (hwraps : wordSize ≤ bid.price.units + ask.price.units) :
    midpoint.units < min bid.price.units ask.price.units := by
  obtain ⟨same, hsame, hunits, -⟩ := units_midpointForLevels bid ask
  obtain rfl := Option.some.inj (hsame.symm.trans h)
  rw [hunits]
  exact (Nat.div_le_self _ 2).trans_lt
    (wrappingAdd_lt_min (lt_of_parseScaled hbid) (lt_of_parseScaled hask) hwraps)

/-- The midpoint is safe just in case the sum of the prices fits the word, and where it
does not the midpoint is not between the prices either. -/
theorem midpoint_safe_iff :
    (MidpointSafe bid ask ↔ bid.price.units + ask.price.units < wordSize) ∧
      ∀ midpoint, midpointForLevels (some bid) (some ask) = some midpoint →
        wordSize ≤ bid.price.units + ask.price.units →
          midpoint.units < min bid.price.units ask.price.units := by
  refine ⟨⟨fun h => wrappingAdd_eq_iff.mp h.sum, ?_⟩, ?_⟩
  · intro hfits
    obtain ⟨midpoint, hmidpoint, hunits, htext⟩ := units_midpointForLevels bid ask
    rw [wrappingAdd_eq hfits] at hunits
    exact ⟨wrappingAdd_eq hfits, midpoint, hmidpoint, by omega, by omega, htext⟩
  · intro midpoint h hwraps
    exact midpoint_lt_min bid ask hbid hask h hwraps

end

section Sample

def levelOf (text : String) (units : Nat) : HotBookLevel :=
  { price := { exact := text, units }, size := { exact := "10", units := 10000000 }
    priceTicks := none, sizeLots := none }

theorem midpoint_safe_fortySix :
    MidpointSafe (levelOf "0.45" 450000) (levelOf "0.47" 470000) := by
  have hbid : parseScaled "0.45" = some 450000 := by decide +kernel
  have hask : parseScaled "0.47" = some 470000 := by decide +kernel
  exact (midpoint_safe_iff (levelOf "0.45" 450000) (levelOf "0.47" 470000) hbid hask).1.mpr
    (by decide)

/-- Two equal prices at the end of the range, with a midpoint of half of them. -/
theorem greatest_price_wraps :
    ¬ ∀ bid ask : HotBookLevel, parseScaled bid.price.exact = some bid.price.units →
      parseScaled ask.price.exact = some ask.price.units → MidpointSafe bid ask := by
  intro h
  have hparse : parseScaled "18446744073709.551615" = some 18446744073709551615 := by
    decide +kernel
  have hsafe := h (levelOf "18446744073709.551615" 18446744073709551615)
    (levelOf "18446744073709.551615" 18446744073709551615) hparse hparse
  exact absurd hsafe.sum (by decide)

end Sample

end Rtt.MidpointRange
