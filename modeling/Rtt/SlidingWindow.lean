import Mathlib.Data.List.Basic
import Mathlib.Order.Basic

namespace Rtt.SlidingWindow

/-- The events of the half-open window of this length from `start`. -/
def windowCount (length start : Nat) (times : List Nat) : Nat :=
  times.countP fun time => start ≤ time ∧ time < start + length

/-- No window holds more events than the limit. -/
def WithinRate (length limit : Nat) (times : List Nat) : Prop :=
  ∀ start, windowCount length start times ≤ limit

/-- The events that are younger than the length. -/
def recentCount (length now : Nat) (times : List Nat) : Nat :=
  times.countP fun time => now < time + length

variable {length limit now : Nat} {times : List Nat}

@[simp] theorem windowCount_nil (start : Nat) : windowCount length start [] = 0 := rfl

theorem withinRate_nil : WithinRate length limit [] := fun _ => Nat.zero_le _

theorem windowCount_concat (start : Nat) :
    windowCount length start (times ++ [now]) = windowCount length start times +
      if start ≤ now ∧ now < start + length then 1 else 0 := by
  simp only [windowCount, List.countP_append, List.countP_singleton, decide_eq_true_eq]

theorem recentCount_append (earlier later : List Nat) :
    recentCount length now (earlier ++ later) =
      recentCount length now earlier + recentCount length now later :=
  List.countP_append

theorem recentCount_eq_zero (h : ∀ time ∈ times, time + length ≤ now) :
    recentCount length now times = 0 := by
  refine List.countP_eq_zero.mpr ?_
  intro time htime
  simpa using h time htime

theorem recentCount_eq_length (h : ∀ time ∈ times, now < time + length) :
    recentCount length now times = times.length := by
  refine List.countP_eq_length.mpr ?_
  intro time htime
  simpa using h time htime

theorem windowCount_le_recentCount {start : Nat} (hnow : now < start + length) :
    windowCount length start times ≤ recentCount length now times := by
  apply List.countP_mono_left
  intro time _ hwindow
  simp only [decide_eq_true_eq] at hwindow ⊢
  omega

theorem recentCount_le_windowCount (htimes : ∀ time ∈ times, time ≤ now) :
    recentCount length now times ≤ windowCount length (now + 1 - length) times := by
  apply List.countP_mono_left
  intro time htime hrecent
  have hle := htimes time htime
  simp only [decide_eq_true_eq] at hrecent ⊢
  omega

theorem withinRate_concat_iff (hlength : 0 < length) (htimes : ∀ time ∈ times, time ≤ now) :
    WithinRate length limit (times ++ [now]) ↔
      WithinRate length limit times ∧ recentCount length now times + 1 ≤ limit := by
  constructor
  · intro h
    constructor
    · intro start
      have hstart := h start
      rw [windowCount_concat] at hstart
      omega
    · have hlast := h (now + 1 - length)
      have hrecent := @recentCount_le_windowCount length now times htimes
      rw [windowCount_concat, if_pos (by omega)] at hlast
      omega
  · rintro ⟨hrate, hroom⟩ start
    rw [windowCount_concat]
    split_ifs with hinside
    · have hrecent := @windowCount_le_recentCount length now times start hinside.2
      omega
    · exact hrate start

end Rtt.SlidingWindow
