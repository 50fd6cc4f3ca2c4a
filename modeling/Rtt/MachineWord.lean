import Mathlib.Algebra.Order.Group.Nat

namespace Rtt.MachineWord

/-- How many values a 64-bit word has. -/
def wordSize : Nat := 2 ^ 64

def wordMax : Nat := wordSize - 1

/-- `u64::saturating_add`. -/
def saturatingAdd (a b : Nat) : Nat := min (a + b) wordMax

def saturatingMul (a b : Nat) : Nat := min (a * b) wordMax

/-- Addition in a release build. -/
def wrappingAdd (a b : Nat) : Nat := (a + b) % wordSize

/-- `u64::checked_add`. -/
def checkedAdd (a b : Nat) : Option Nat := if a + b < wordSize then some (a + b) else none

def checkedMul (a b : Nat) : Option Nat := if a * b < wordSize then some (a * b) else none

theorem saturatingAdd_eq {a b : Nat} (h : a + b < wordSize) :
    saturatingAdd a b = a + b := by
  simp only [saturatingAdd, wordMax]
  omega

theorem saturatingMul_eq {a b : Nat} (h : a * b < wordSize) :
    saturatingMul a b = a * b := by
  simp only [saturatingMul, wordMax]
  omega

theorem wrappingAdd_eq {a b : Nat} (h : a + b < wordSize) :
    wrappingAdd a b = a + b :=
  Nat.mod_eq_of_lt h

theorem wrappingAdd_eq_iff {a b : Nat} : wrappingAdd a b = a + b ↔ a + b < wordSize :=
  Nat.mod_eq_iff_lt (by decide)

theorem wrappingAdd_lt_min {a b : Nat} (ha : a < wordSize) (hb : b < wordSize)
    (hwraps : wordSize ≤ a + b) : wrappingAdd a b < min a b := by
  rw [wrappingAdd, Nat.mod_eq_sub_mod hwraps, Nat.mod_eq_of_lt (by omega)]
  omega

end Rtt.MachineWord
