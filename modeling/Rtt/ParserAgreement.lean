import Rtt.FillExposure
import Rtt.ScaledText
import Rtt.SignedAmounts
import Rtt.StrategyRuntime

namespace Rtt.ParserAgreement

open Rtt.Decimal
open Rtt.MachineWord
open Rtt.HotState
open Rtt.ScaledText
open Rtt.ClobOrder

theorem takeWhile_text (d : Numeral) : d.text.takeWhile (· ≠ '.') = d.whole := by
  have hwhole : ∀ c ∈ d.whole, (decide (c ≠ '.')) = true := by
    intro c hc
    simp only [decide_eq_true_eq]
    rintro rfl
    exact point_notMem_digits d.whole_digits hc
  rw [Numeral.text]
  split
  · exact List.takeWhile_eq_self_iff.mpr hwhole
  · rw [List.takeWhile_append_of_pos hwhole]
    simp

variable {value field : String} {units : Nat}

theorem parseUnits_of_ok (hparse : parseScaledDecimal value field = .ok units)
    (hfits : units < wordSize) : OrderManager.parseUnits value = units := by
  obtain ⟨d, rfl, hplaces, rfl, -⟩ := (parseScaledDecimal_ok_iff value field).mp hparse
  exact FillExposure.parseUnits_render hplaces hfits

theorem parseScaled_of_ok (hparse : parseScaledDecimal value field = .ok units)
    (hfits : units < wordSize) {c : Char} (hc : c ∈ value.toList.takeWhile (· ≠ '.')) :
    parseScaled value = some units := by
  obtain ⟨d, rfl, hplaces, rfl, -⟩ := (parseScaledDecimal_ok_iff value field).mp hparse
  rw [Numeral.render, String.toList_ofList, takeWhile_text] at hc
  exact parseScaled_render hplaces (List.ne_nil_of_mem hc) hfits

theorem eq_of_both_ok (hparse : parseScaledDecimal value field = .ok units) {hot : Nat}
    (hhot : parseScaled value = some hot) : hot = units := by
  obtain ⟨d, rfl, hplaces, rfl, -⟩ := (parseScaledDecimal_ok_iff value field).mp hparse
  exact eq_scaled_of_parseScaled_render hplaces hhot

theorem parsers_agree (hparse : parseScaledDecimal value field = .ok units) :
    (units < 2 ^ 64 →
      OrderManager.parseUnits value = units ∧ StrategyRuntime.parseUnits value = units ∧
        ((∃ c ∈ value.toList.takeWhile (· ≠ '.'), c.isDigit) →
          parseScaled value = some units)) ∧
      ∀ hot, parseScaled value = some hot → hot = units := by
  refine ⟨?_, fun hot hhot => eq_of_both_ok hparse hhot⟩
  intro hfits
  refine ⟨parseUnits_of_ok hparse hfits, parseUnits_of_ok hparse hfits, ?_⟩
  rintro ⟨c, hc, -⟩
  exact parseScaled_of_ok hparse hfits hc

theorem parsers_agree_threeEighths :
    (OrderManager.parseUnits "0.375" = 375000 ∧ StrategyRuntime.parseUnits "0.375" = 375000 ∧
      parseScaled "0.375" = some 375000) ∧
      ∀ hot, parseScaled "0.375" = some hot → hot = 375000 := by
  have hparse : parseScaledDecimal "0.375" "price" = .ok 375000 := by decide +kernel
  have hfits : 375000 < 2 ^ 64 := by norm_num
  have hdigit : ∃ c ∈ "0.375".toList.takeWhile (· ≠ '.'), c.isDigit := ⟨'0', by simp, by decide⟩
  obtain ⟨hread, hhot⟩ := parsers_agree hparse
  obtain ⟨hmanager, hruntime, hscaled⟩ := hread hfits
  exact ⟨⟨hmanager, hruntime, hscaled hdigit⟩, hhot⟩

end Rtt.ParserAgreement
