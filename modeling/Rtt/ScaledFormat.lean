import Rtt.ScaledText

namespace Rtt.ScaledText

open Rtt.Decimal
open Rtt.MachineWord
open Rtt.HotState

theorem formatScaled_eq (units : Nat) :
    formatScaled units = (trimmedFixedPoint 6 units).render := by
  have hplaces : (fixedPoint 6 units).places = zeroPadded 6 (units % 10 ^ 6) := rfl
  have hwhole : (fixedPoint 6 units).whole = Nat.toDigits 10 (units / 10 ^ 6) := rfl
  have hscale : hotValueScale = 10 ^ 6 := rfl
  simp only [formatScaled, hscale, trimmedFixedPoint, Numeral.render, Numeral.text,
    Numeral.trimZeros, hplaces, hwhole, rdropWhile_zeroPadded_eq_nil_iff]
  by_cases hzero : units % 10 ^ 6 = 0
  · rw [if_pos hzero, if_pos hzero]
  · have hkept : (zeroPadded 6 (units % 10 ^ 6)).rdropWhile (· = '0') ≠ [] :=
      fun hnil => hzero (rdropWhile_zeroPadded_eq_nil_iff.mp hnil)
    rw [if_neg hzero, if_neg hzero]
    change String.ofList ((Nat.toDigits 10 (units / 10 ^ 6) ++
      '.' :: zeroPadded 6 (units % 10 ^ 6)).rdropWhile (· = '0')) = _
    rw [rdropWhile_append, rdropWhile_point, if_neg (by simp)]

theorem denotes_formatScaled (units : Nat) : Denotes (formatScaled units) (units / 10 ^ 6) :=
  ⟨trimmedFixedPoint 6 units, (formatScaled_eq units).symm,
    value_trimmedFixedPoint (by omega) units⟩

theorem parseScaled_formatScaled {units : Nat} (hfits : units < wordSize) :
    parseScaled (formatScaled units) = some units := by
  have hscaled : (trimmedFixedPoint 6 units).scaled 6 = units :=
    scaled_trimmedFixedPoint (by omega) units
  have hparse := parseScaled_render (places_trimmedFixedPoint_length_le (by omega) units)
    (whole_fixedPoint_ne_nil 6 units) (hscaled.symm ▸ hfits)
  rw [formatScaled_eq]
  exact hparse.trans (congrArg some hscaled)

theorem formatScaled_injective : Function.Injective formatScaled := by
  intro u v h
  have hvalue : (u : ℚ) / 10 ^ 6 = v / 10 ^ 6 :=
    (denotes_formatScaled u).unique (h ▸ denotes_formatScaled v)
  have hcast : (u : ℚ) = v := by
    field_simp at hvalue
    exact hvalue
  exact_mod_cast hcast

theorem denotes_formatScaled_of_parseScaled {d : Numeral} (hplaces : d.places.length ≤ 6)
    {units : Nat} (h : parseScaled d.render = some units) :
    Denotes (formatScaled units) d.value := by
  have hvalue : (units : ℚ) / 10 ^ 6 = d.value := by
    rw [eq_scaled_of_parseScaled_render hplaces h, d.scaled_eq_value_mul hplaces]
    field_simp
  rw [← hvalue]
  exact denotes_formatScaled units

/-- Every word is read back from the text that it prints.  The texts of two words differ
and end in no needless zero or bare point, and what is read from a plain decimal of six
places at most is printed as a text for the same number. -/
theorem format_parse_round_trip :
    (∀ units < 2 ^ 64, parseScaled (formatScaled units) = some units) ∧
      Function.Injective formatScaled ∧
      (∀ units, ∃ d : Numeral, d.render = formatScaled units ∧ d.whole ≠ [] ∧ d.IsTrimmed) ∧
      ∀ d : Numeral, d.places.length ≤ 6 → ∀ units, parseScaled d.render = some units →
        Denotes (formatScaled units) d.value := by
  refine ⟨fun units => parseScaled_formatScaled, formatScaled_injective, ?_, ?_⟩
  · intro units
    exact ⟨trimmedFixedPoint 6 units, (formatScaled_eq units).symm,
      whole_fixedPoint_ne_nil 6 units, Numeral.isTrimmed_trimZeros _ _⟩
  · intro d hplaces units h
    exact denotes_formatScaled_of_parseScaled hplaces h

end Rtt.ScaledText
