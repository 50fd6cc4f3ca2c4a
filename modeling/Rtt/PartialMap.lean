import Mathlib.Logic.Function.Basic

namespace Rtt.PartialMap

/-- A map from keys to values, given by its lookups. -/
abbrev KeyMap (κ α : Type*) := κ → Option α

variable {κ α : Type*}

def empty : KeyMap κ α := fun _ => none

def insert [DecidableEq κ] (m : KeyMap κ α) (k : κ) (x : α) : KeyMap κ α :=
  Function.update m k (some x)

def erase [DecidableEq κ] (m : KeyMap κ α) (k : κ) : KeyMap κ α :=
  Function.update m k none

/-- Only the keys wanted are kept. -/
def retain (m : KeyMap κ α) (keep : κ → Bool) : KeyMap κ α :=
  fun k => if keep k then m k else none

def mapValues (m : KeyMap κ α) (f : α → α) : KeyMap κ α := fun k => (m k).map f

@[simp] theorem empty_apply (k : κ) : (empty : KeyMap κ α) k = none := rfl

@[simp] theorem retain_apply (m : KeyMap κ α) (keep : κ → Bool) (k : κ) :
    retain m keep k = if keep k then m k else none := rfl

@[simp] theorem mapValues_apply (m : KeyMap κ α) (f : α → α) (k : κ) :
    mapValues m f k = (m k).map f := rfl

section

variable [DecidableEq κ] (m : KeyMap κ α) (k : κ) (x : α)

@[simp] theorem insert_self : insert m k x k = some x := Function.update_self ..

theorem insert_apply (j : κ) : insert m k x j = if j = k then some x else m j :=
  Function.update_apply ..

theorem insert_of_ne {j : κ} (h : j ≠ k) : insert m k x j = m j :=
  Function.update_of_ne h ..

@[simp] theorem erase_self : erase m k k = none := Function.update_self ..

theorem erase_of_ne {j : κ} (h : j ≠ k) : erase m k j = m j :=
  Function.update_of_ne h ..

theorem erase_apply (j : κ) : erase m k j = if j = k then none else m j :=
  Function.update_apply ..

end

theorem lookup_foldl_clear {σ ι : Type*} {f : σ → Option α} {clear : σ → ι → σ}
    {P : ι → Prop} [DecidablePred P]
    (hclear : ∀ s i, f (clear s i) = if P i then none else f s) (s : σ) (cleared : List ι) :
    f (cleared.foldl clear s) = if ∃ i ∈ cleared, P i then none else f s := by
  induction cleared generalizing s with
  | nil => simp
  | cons i cleared ih =>
      rw [List.foldl_cons, ih, hclear]
      simp only [List.mem_cons, exists_eq_or_imp]
      split
      · rename_i hlater
        rw [if_pos (Or.inr hlater)]
      · rename_i hlater
        simp only [hlater, or_false]

end Rtt.PartialMap
