import Rtt.Decimal

namespace Rtt.DecimalOrder

open Rtt.Decimal

/-- The digits after the point of a text of the form `0.` and digits. -/
def fractionDigits (s : String) : List Char := s.toList.drop 2

/-- A text `0.` followed by at least one digit. -/
def IsFraction (s : String) : Prop :=
  s.toList = '0' :: '.' :: fractionDigits s ∧ fractionDigits s ≠ [] ∧
    (fractionDigits s).all Char.isDigit

instance (s : String) : Decidable (IsFraction s) :=
  inferInstanceAs (Decidable (_ ∧ _ ≠ _ ∧ _ = true))

theorem IsFraction.digits {s : String} (h : IsFraction s) : ∀ c ∈ fractionDigits s, c.isDigit :=
  List.all_eq_true.mp h.2.2

def placesValue (ds : List Char) : ℚ := Nat.ofDigitChars 10 ds 0 / 10 ^ ds.length

/-- The number that such a text denotes. -/
def fractionValue (s : String) : ℚ := placesValue (fractionDigits s)

def numeral (s : String) (h : IsFraction s) : Numeral where
  whole := ['0']
  fraction := some (fractionDigits s)
  whole_digits := zero_digits
  fraction_digits := h.digits
  digits_ne_nil := by simp

def digit (c : Char) : Nat := c.toNat - '0'.toNat

theorem digit_lt_ten {c : Char} (h : c.isDigit) : digit c < 10 := by
  simp only [Char.isDigit, Bool.and_eq_true, decide_eq_true_eq] at h
  have hhigh : c.toNat ≤ 57 := h.2
  simp only [digit, Char.reduceToNat]
  omega

theorem digit_lt_digit {c d : Char} (hc : c.isDigit) (hlt : c < d) : digit c < digit d := by
  simp only [Char.isDigit, Bool.and_eq_true, decide_eq_true_eq] at hc
  have hlow : 48 ≤ c.toNat := hc.1
  have hnat : c.toNat < d.toNat := hlt
  simp only [digit, Char.reduceToNat]
  omega

@[simp] theorem placesValue_nil : placesValue [] = 0 := by simp [placesValue]

theorem placesValue_cons (c : Char) (ds : List Char) :
    placesValue (c :: ds) = (digit c + placesValue ds) / 10 := by
  simp only [placesValue, Nat.ofDigitChars_cons, Nat.mul_zero, Nat.zero_add,
    List.length_cons, digit]
  rw [Nat.ofDigitChars_eq_ofDigitChars_zero]
  push_cast
  field_simp
  ring

theorem placesValue_nonneg (ds : List Char) : 0 ≤ placesValue ds := by
  rw [placesValue]
  positivity

theorem placesValue_lt_one {ds : List Char} (h : ∀ c ∈ ds, c.isDigit) : placesValue ds < 1 := by
  induction ds with
  | nil => simp
  | cons c ds ih =>
      have hdigit : (digit c : ℚ) ≤ 9 := by
        exact_mod_cast Nat.le_of_lt_succ (digit_lt_ten (h c (by simp)))
      have hrest := ih fun d hd => h d (by simp [hd])
      rw [placesValue_cons]
      linarith

theorem placesValue_le_of_lt {ds es : List Char} (hds : ∀ c ∈ ds, c.isDigit)
    (h : ds < es) : placesValue ds ≤ placesValue es := by
  induction ds generalizing es with
  | nil => simpa using placesValue_nonneg es
  | cons c ds ih =>
      cases es with
      | nil => exact absurd h (List.not_lt_nil _)
      | cons e es =>
          have hrest : ∀ d ∈ ds, d.isDigit := fun d hd => hds d (by simp [hd])
          rw [placesValue_cons, placesValue_cons]
          rcases List.cons_lt_cons_iff.mp h with hce | ⟨rfl, htail⟩
          · have hdigit : (digit c : ℚ) + 1 ≤ digit e := by
              exact_mod_cast digit_lt_digit (hds c (by simp)) hce
            have hone := placesValue_lt_one hrest
            have hpos := placesValue_nonneg es
            linarith
          · have := ih hrest htail
            linarith

theorem fractionDigits_lt {s t : String} (hs : IsFraction s) (ht : IsFraction t) :
    fractionDigits s < fractionDigits t ↔ s < t := by
  rw [String.lt_iff_toList_lt, hs.1, ht.1, List.cons_lt_cons_iff, List.cons_lt_cons_iff]
  simp

/-- No two spellings of one number. -/
def SpelledOnce (prices : List String) : Prop :=
  ∀ p ∈ prices, ∀ q ∈ prices, fractionValue p = fractionValue q → p = q

instance (prices : List String) : Decidable (SpelledOnce prices) :=
  inferInstanceAs (Decidable (∀ p ∈ prices, ∀ q ∈ prices, _ → _))

variable {s t : String}

theorem fractionValue_lt_iff (hs : IsFraction s) (ht : IsFraction t)
    (hspelled : fractionValue s = fractionValue t → s = t) :
    fractionValue s < fractionValue t ↔ s < t := by
  have hmono : ∀ {p q : String}, IsFraction p → IsFraction q → p < q →
      fractionValue p ≤ fractionValue q := fun hp hq hlt =>
    placesValue_le_of_lt hp.digits ((fractionDigits_lt hp hq).mpr hlt)
  constructor
  · intro hlt
    rcases lt_trichotomy s t with h | rfl | h
    · exact h
    · exact absurd hlt (lt_irrefl _)
    · exact absurd (hmono ht hs h) (not_le.mpr hlt)
  · intro hlt
    refine lt_of_le_of_ne (hmono hs ht hlt) ?_
    intro heq
    exact absurd (hspelled heq) hlt.ne

theorem fractionValue_le_iff (hs : IsFraction s) (ht : IsFraction t)
    (hspelled : fractionValue s = fractionValue t → s = t) :
    fractionValue s ≤ fractionValue t ↔ s ≤ t := by
  rw [← not_lt, ← not_lt, fractionValue_lt_iff ht hs fun h => (hspelled h.symm).symm]

theorem fractionValue_millionths {s : String} (hlen : (fractionDigits s).length ≤ 6) :
    fractionValue s * 10 ^ 6 =
      (Nat.ofDigitChars 10
        (fractionDigits s ++ List.replicate (6 - (fractionDigits s).length) '0') 0 : ℕ) := by
  have hpow : (10 : ℚ) ^ 6 =
      10 ^ (fractionDigits s).length * 10 ^ (6 - (fractionDigits s).length) := by
    rw [← pow_add, Nat.add_sub_cancel' hlen]
  rw [fractionValue, placesValue, Nat.ofDigitChars_append, Nat.ofDigitChars_replicate_zero, hpow]
  push_cast
  field_simp

end Rtt.DecimalOrder
