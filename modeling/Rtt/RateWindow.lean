import Rtt.Machine
import Rtt.Safety
import Rtt.SlidingWindow

namespace Rtt.RateWindow

open Rtt.Machine
open Rtt.MachineWord
open Rtt.Safety
open Rtt.SlidingWindow

def secondNs : Nat := 1000000000

/-- The readings at which calls were let through. -/
def granted : RateLimiter → List Nat → List Nat
  | _, [] => []
  | self, now :: rest =>
      (if (self.tryAcquire now).2 then [now] else []) ++ granted (self.tryAcquire now).1 rest

/-- The call begins a new window of the limiter. -/
def Opens (self : RateLimiter) (now : Nat) : Prop := now - self.windowStartNs ≥ secondNs

instance (self : RateLimiter) (now : Nat) : Decidable (Opens self now) :=
  inferInstanceAs (Decidable (_ ≥ _))

/-- The window of the limiter has room for one call more. -/
def HasRoom (self : RateLimiter) : Prop :=
  wrappingAdd self.countInWindow 1 ≤ self.maxPerSecond

instance (self : RateLimiter) : Decidable (HasRoom self) := inferInstanceAs (Decidable (_ ≤ _))

/-- The limiter with the readings at which it let calls through in the window
before this one and in this one. -/
structure Recorded where
  limiter : RateLimiter
  previous : List Nat
  current : List Nat

namespace Recorded

def start (maxPerSecond : Nat) : Recorded :=
  { limiter := .new maxPerSecond, previous := [], current := [] }

/-- A call, written down in the window that it falls into. -/
def step (self : Recorded) (now : Nat) : Recorded × Bool :=
  let (limiter, allowed) := self.limiter.tryAcquire now
  if Opens self.limiter now then ({ limiter, previous := self.current, current := [now] }, allowed)
  else if HasRoom self.limiter then
    ({ self with limiter, current := self.current ++ [now] }, allowed)
  else ({ self with limiter }, allowed)

/-- A call that begins a window finds fewer calls of the window before younger
than a second than the limit allows, and so does each call that has room, after
those of its own window. -/
def Spaced (self : Recorded) (now : Nat) : Prop :=
  if Opens self.limiter now then
    recentCount secondNs now self.current + 1 ≤ self.limiter.maxPerSecond
  else HasRoom self.limiter →
    recentCount secondNs now self.previous + self.current.length + 1 ≤ self.limiter.maxPerSecond

instance (self : Recorded) (now : Nat) : Decidable (Spaced self now) := by
  unfold Spaced
  infer_instance

end Recorded

section Calls

variable (limiter : RateLimiter) (now : Nat)

theorem opens_iff : Opens limiter now ↔ limiter.windowStartNs + secondNs ≤ now := by
  simp only [Opens, secondNs]
  omega

theorem tryAcquire_of_opens (h : Opens limiter now) :
    limiter.tryAcquire now =
      ({ limiter with windowStartNs := now, countInWindow := 1 }, true) :=
  if_pos h

theorem tryAcquire_of_not_opens (h : ¬ Opens limiter now) :
    limiter.tryAcquire now =
      ({ limiter with countInWindow := wrappingAdd limiter.countInWindow 1 },
        decide (HasRoom limiter)) := by
  have hclosed : ¬ now - limiter.windowStartNs ≥ 1000000000 := h
  simp only [RateLimiter.tryAcquire, if_neg hclosed]
  by_cases hroom : HasRoom limiter
  · rw [if_neg (not_lt.mpr hroom), decide_eq_true hroom]
  · rw [if_pos (not_le.mp hroom), decide_eq_false hroom]

@[simp] theorem maxPerSecond_tryAcquire :
    (limiter.tryAcquire now).1.maxPerSecond = limiter.maxPerSecond := by
  by_cases h : Opens limiter now
  · rw [tryAcquire_of_opens limiter now h]
  · rw [tryAcquire_of_not_opens limiter now h]

theorem limiter_step (self : Recorded) :
    (self.step now).1.limiter = (self.limiter.tryAcquire now).1 := by
  simp only [Recorded.step]
  split_ifs <;> rfl

end Calls

theorem granted_concat (self : RateLimiter) (readings : List Nat) (now : Nat) :
    granted self (readings ++ [now]) = granted self readings ++
      if ((exec RateLimiter.tryAcquire self readings).tryAcquire now).2 then [now] else [] := by
  induction readings generalizing self with
  | nil => exact List.append_nil _
  | cons first rest ih => rw [List.cons_append, granted, ih, granted, exec, List.append_assoc]

theorem limiter_exec (self : Recorded) (readings : List Nat) :
    (exec Recorded.step self readings).limiter =
      exec RateLimiter.tryAcquire self.limiter readings :=
  exec_simulates (fun recorded now => limiter_step now recorded) self readings

theorem maxPerSecond_exec (limiter : RateLimiter) (readings : List Nat) :
    (exec RateLimiter.tryAcquire limiter readings).maxPerSecond = limiter.maxPerSecond :=
  exec_field maxPerSecond_tryAcquire limiter readings

/-- What the record knows of all calls that were let through: those of older
windows are a second older than this window, those of the window before are not
later than its start and those of this one not earlier. -/
structure Accounts (recorded : Recorded) (all : List Nat) : Prop where
  all_eq : ∃ older, all = older ++ recorded.previous ++ recorded.current ∧
    ∀ time ∈ older, time + secondNs ≤ recorded.limiter.windowStartNs
  previous_le : ∀ time ∈ recorded.previous, time ≤ recorded.limiter.windowStartNs
  le_current : ∀ time ∈ recorded.current, recorded.limiter.windowStartNs ≤ time

theorem accounts_start (maxPerSecond : Nat) : Accounts (.start maxPerSecond) [] where
  all_eq := ⟨[], rfl, by simp⟩
  previous_le := by simp [Recorded.start]
  le_current := by simp [Recorded.start]

section Steps

variable {self : Recorded} {all : List Nat} {now : Nat}

theorem step_of_opens (hopens : Opens self.limiter now) :
    (self.step now).1 =
      { limiter := { self.limiter with windowStartNs := now, countInWindow := 1 }
        previous := self.current
        current := [now] } := by
  simp only [Recorded.step, if_pos hopens, tryAcquire_of_opens self.limiter now hopens]

theorem step_of_not_opens (hclosed : ¬ Opens self.limiter now) :
    (self.step now).1 =
      { limiter :=
          { self.limiter with countInWindow := wrappingAdd self.limiter.countInWindow 1 }
        previous := self.previous
        current := self.current ++ if HasRoom self.limiter then [now] else [] } := by
  simp only [Recorded.step, if_neg hclosed, tryAcquire_of_not_opens self.limiter now hclosed]
  split_ifs
  · rfl
  · simp

theorem Accounts.step (h : Accounts self all) (hstart : self.limiter.windowStartNs ≤ now)
    (hall : ∀ time ∈ all, time ≤ now) :
    Accounts (self.step now).1
      (all ++ if (self.limiter.tryAcquire now).2 then [now] else []) := by
  obtain ⟨older, rfl, holder⟩ := h.all_eq
  by_cases hopens : Opens self.limiter now
  · have hnow := (opens_iff self.limiter now).mp hopens
    rw [step_of_opens hopens, tryAcquire_of_opens self.limiter now hopens, if_pos rfl]
    refine ⟨⟨older ++ self.previous, by simp, ?_⟩, ?_, by simp⟩
    · intro time htime
      rcases List.mem_append.mp htime with htime | htime
      · have htimeOlder := holder time htime
        exact le_trans htimeOlder (le_trans (Nat.le_add_right _ _) hnow)
      · have htimePrevious := h.previous_le time htime
        exact le_trans (Nat.add_le_add_right htimePrevious _) hnow
    · intro time htime
      exact hall time (List.mem_append_right _ htime)
  · rw [step_of_not_opens hopens, tryAcquire_of_not_opens self.limiter now hopens]
    simp only [decide_eq_true_eq]
    refine ⟨⟨older, by simp, holder⟩, h.previous_le, ?_⟩
    intro time htime
    rcases List.mem_append.mp htime with htime | htime
    · exact h.le_current time htime
    · split_ifs at htime
      · rw [List.mem_singleton.mp htime]
        exact hstart
      · simp at htime

theorem Accounts.spaced_iff (h : Accounts self all) (hstart : self.limiter.windowStartNs ≤ now) :
    self.Spaced now ↔ ((self.limiter.tryAcquire now).2 = true →
      recentCount secondNs now all + 1 ≤ self.limiter.maxPerSecond) := by
  obtain ⟨older, rfl, holder⟩ := h.all_eq
  have hnoOlder : recentCount secondNs now older = 0 := by
    refine recentCount_eq_zero fun time htime => ?_
    exact (holder time htime).trans hstart
  by_cases hopens : Opens self.limiter now
  · have hnow := (opens_iff self.limiter now).mp hopens
    have hnoPrevious : recentCount secondNs now self.previous = 0 := by
      refine recentCount_eq_zero fun time htime => ?_
      exact (Nat.add_le_add_right (h.previous_le time htime) _).trans hnow
    rw [Recorded.Spaced, if_pos hopens, tryAcquire_of_opens self.limiter now hopens,
      recentCount_append, recentCount_append, hnoOlder, hnoPrevious]
    simp
  · have hcurrent : recentCount secondNs now self.current = self.current.length := by
      refine recentCount_eq_length fun time htime => ?_
      have hfrom := h.le_current time htime
      have hwithin : now - self.limiter.windowStartNs < secondNs := not_le.mp hopens
      omega
    rw [Recorded.Spaced, if_neg hopens, tryAcquire_of_not_opens self.limiter now hopens,
      recentCount_append, recentCount_append, hnoOlder, hcurrent]
    simp

end Steps

theorem mem_readings_of_mem_granted {limiter : RateLimiter} {readings : List Nat} {time : Nat}
    (h : time ∈ granted limiter readings) : time ∈ readings := by
  induction readings generalizing limiter with
  | nil => simp [granted] at h
  | cons now rest ih =>
      rcases List.mem_append.mp h with hfirst | hrest
      · split_ifs at hfirst
        · exact List.mem_singleton.mp hfirst ▸ List.mem_cons_self
        · simp at hfirst
      · exact List.mem_cons_of_mem _ (ih hrest)

theorem windowStartNs_exec_le {limiter : RateLimiter} {readings : List Nat} {now : Nat}
    (hstart : limiter.windowStartNs ≤ now) (hreadings : ∀ time ∈ readings, time ≤ now) :
    (exec RateLimiter.tryAcquire limiter readings).windowStartNs ≤ now := by
  induction readings generalizing limiter with
  | nil => exact hstart
  | cons first rest ih =>
      refine ih ?_ fun time htime => hreadings time (List.mem_cons_of_mem _ htime)
      by_cases hopens : Opens limiter first
      · rw [tryAcquire_of_opens limiter first hopens]
        exact hreadings first List.mem_cons_self
      · rw [tryAcquire_of_not_opens limiter first hopens]
        exact hstart

section Runs

variable (maxPerSecond : Nat)

theorem windowStartNs_recorded_le {readings : List Nat} {now : Nat}
    (hreadings : ∀ time ∈ readings, time ≤ now) :
    (exec Recorded.step (.start maxPerSecond) readings).limiter.windowStartNs ≤ now := by
  rw [limiter_exec]
  exact windowStartNs_exec_le (Nat.zero_le _) hreadings

theorem accounts_exec {readings : List Nat} (hclock : readings.Pairwise (· ≤ ·)) :
    Accounts (exec Recorded.step (.start maxPerSecond) readings)
      (granted (.new maxPerSecond) readings) := by
  induction readings using List.reverseRecOn with
  | nil => exact accounts_start maxPerSecond
  | append_singleton readings now ih =>
      obtain ⟨hrest, -, hnow⟩ := List.pairwise_append.mp hclock
      have hle : ∀ time ∈ readings, time ≤ now := fun time htime => hnow time htime now (by simp)
      have hlimiter := limiter_exec (.start maxPerSecond) readings
      have hwindow := windowStartNs_recorded_le maxPerSecond hle
      have hstep := (ih hrest).step hwindow
        fun time htime => hle time (mem_readings_of_mem_granted htime)
      rw [hlimiter] at hstep
      rw [exec_concat, granted_concat]
      exact hstep

/-- Every window of one second holds the calls the limit allows exactly when the
calls near the change of the limiter's own windows are spaced. -/
theorem rate_limit_kept_iff {readings : List Nat} (hclock : readings.Pairwise (· ≤ ·)) :
    WithinRate secondNs maxPerSecond (granted (.new maxPerSecond) readings) ↔
      Along Recorded.step Recorded.Spaced (.start maxPerSecond) readings := by
  induction readings using List.reverseRecOn with
  | nil => exact iff_of_true withinRate_nil trivial
  | append_singleton readings now ih =>
      obtain ⟨hrest, -, hnow⟩ := List.pairwise_append.mp hclock
      have hle : ∀ time ∈ readings, time ≤ now := fun time htime => hnow time htime now (by simp)
      have hlimiter := limiter_exec (.start maxPerSecond) readings
      have hmax : (exec Recorded.step (.start maxPerSecond) readings).limiter.maxPerSecond =
          maxPerSecond := by
        rw [hlimiter, maxPerSecond_exec]
        rfl
      have hwindow := windowStartNs_recorded_le maxPerSecond hle
      have hspaced := (accounts_exec maxPerSecond hrest).spaced_iff hwindow
      have hgranted : ∀ time ∈ granted (.new maxPerSecond) readings, time ≤ now :=
        fun time htime => hle time (mem_readings_of_mem_granted htime)
      rw [along_concat, hspaced, ← ih hrest, granted_concat, hmax, hlimiter]
      change WithinRate secondNs maxPerSecond (granted (.new maxPerSecond) readings ++
        if ((exec RateLimiter.tryAcquire (.new maxPerSecond) readings).tryAcquire now).2 then [now]
          else []) ↔ _
      split_ifs with hallowed
      · rw [withinRate_concat_iff (by decide) hgranted]
        exact and_congr_right fun _ => ⟨fun hroom _ => hroom, fun hroom => hroom hallowed⟩
      · rw [List.append_nil]
        exact (and_iff_left fun h => absurd h hallowed).symm

end Runs

theorem rate_limit_kept_iff_spaced :
    WithinRate secondNs 2
      (granted (.new 2) [1000000000, 1400000000, 2400000000, 2500000000]) :=
  (rate_limit_kept_iff 2 (by decide)).mpr (by decide)

/-- Two calls a second, three within two tenths: the last of one window of the
limiter and the first two of the next. -/
theorem burst_across_windows :
    ¬ WithinRate secondNs 2
      (granted (.new 2) [1000000000, 1900000000, 2000000000, 2100000000]) := by
  intro h
  exact absurd (h 1900000000) (by decide)

end Rtt.RateWindow
