import Rtt.Machine
import Rtt.MachineWord

namespace Rtt.CommandThrottle

open Rtt.Machine
open Rtt.MachineWord

structure QuoteCommandPolicy where
  maxRetries : Nat
  initialBackoffMs : Nat
  maxBackoffMs : Nat
  throttleWindowMs : Nat
  maxCommandsPerWindow : Nat
  deriving DecidableEq, Repr

inductive QuoteCommandFailure where
  | transient
  | rateLimited
  | permanent
  deriving DecidableEq, Repr

/-- When a failed command is tried again, if at all. -/
inductive QuoteCommandRetry where
  | retryAt (attempt atMs : Nat)
  | giveUp
  deriving DecidableEq, Repr

/-- Whether a command may go now, and if not when. -/
structure ThrottleDecision where
  allowed : Bool
  retryAtMs : Option Nat
  deriving DecidableEq, Repr

/-- The throttle: its window under way and the commands let through in it. -/
structure QuoteCommandThrottle where
  policy : QuoteCommandPolicy
  windowStartedMs : Option Nat
  commandsInWindow : Nat
  deriving DecidableEq, Repr

namespace QuoteCommandThrottle

def new (policy : QuoteCommandPolicy) : QuoteCommandThrottle :=
  { policy, windowStartedMs := none, commandsInWindow := 0 }

/-- `try_acquire`: a command asks for room in the window of the present time. -/
def tryAcquire (self : QuoteCommandThrottle) (nowMs : Nat) :
    QuoteCommandThrottle × ThrottleDecision :=
  let windowStartedMs := self.windowStartedMs.getD nowMs
  -- a window that is over makes place for one that starts now
  let ended := nowMs - windowStartedMs ≥ self.policy.throttleWindowMs
  let windowStartedMs := if ended then nowMs else windowStartedMs
  let commandsInWindow := if ended then 0 else self.commandsInWindow
  if commandsInWindow ≥ self.policy.maxCommandsPerWindow then
    ({ self with windowStartedMs := some windowStartedMs, commandsInWindow },
      { allowed := false
        retryAtMs := some (saturatingAdd windowStartedMs self.policy.throttleWindowMs) })
  else
    ({ self with
        windowStartedMs := some windowStartedMs
        commandsInWindow := commandsInWindow + 1 },
      { allowed := true, retryAtMs := none })

/-- The call starts a window. -/
def Opens (self : QuoteCommandThrottle) (nowMs : Nat) : Prop :=
  ∀ startedMs ∈ self.windowStartedMs, nowMs - startedMs ≥ self.policy.throttleWindowMs

instance (self : QuoteCommandThrottle) (nowMs : Nat) : Decidable (self.Opens nowMs) := by
  unfold Opens
  infer_instance

/-- Before the first window no command is counted. -/
def Counted (self : QuoteCommandThrottle) : Prop :=
  self.windowStartedMs = none → self.commandsInWindow = 0

end QuoteCommandThrottle

/-- A transient failure is retried after a delay that doubles up to a greatest one. -/
def retryDecision (policy : QuoteCommandPolicy) (failure : QuoteCommandFailure)
    (attempt nowMs : Nat) : QuoteCommandRetry :=
  match failure with
  | .permanent => .giveUp
  | .transient | .rateLimited =>
      if attempt ≥ policy.maxRetries then .giveUp
      else
        let multiplier := 2 ^ min attempt 16
        let delayMs := min (saturatingMul policy.initialBackoffMs multiplier) policy.maxBackoffMs
        .retryAt (attempt + 1) (saturatingAdd nowMs delayMs)

section Calls

variable {self : QuoteCommandThrottle} {nowMs : Nat}

theorem tryAcquire_of_opens (hmax : 1 ≤ self.policy.maxCommandsPerWindow)
    (hcounted : self.Counted) (hopens : self.Opens nowMs) :
    self.tryAcquire nowMs =
      ({ self with windowStartedMs := some nowMs, commandsInWindow := 1 },
        { allowed := true, retryAtMs := none }) := by
  have hroom : ¬ 0 ≥ self.policy.maxCommandsPerWindow := by omega
  simp only [QuoteCommandThrottle.tryAcquire]
  cases hstarted : self.windowStartedMs with
  | none =>
      have hzero := hcounted hstarted
      simp only [Option.getD_none, hzero, ite_self, if_neg hroom]
  | some startedMs =>
      have hover := hopens startedMs hstarted
      simp only [Option.getD_some, if_pos hover, if_neg hroom]

theorem tryAcquire_of_started {startedMs : Nat} (hstarted : self.windowStartedMs = some startedMs)
    (hwithin : nowMs - startedMs < self.policy.throttleWindowMs) :
    self.tryAcquire nowMs =
      if self.commandsInWindow ≥ self.policy.maxCommandsPerWindow then
        (self,
          { allowed := false
            retryAtMs := some (saturatingAdd startedMs self.policy.throttleWindowMs) })
      else
        ({ self with commandsInWindow := self.commandsInWindow + 1 },
          { allowed := true, retryAtMs := none }) := by
  have hover : ¬ nowMs - startedMs ≥ self.policy.throttleWindowMs := not_le.mpr hwithin
  simp only [QuoteCommandThrottle.tryAcquire, hstarted, Option.getD_some, if_neg hover]
  obtain ⟨policy, windowStartedMs, commandsInWindow⟩ := self
  simp only at hstarted
  rw [hstarted]

theorem exists_started_of_not_opens (h : ¬ self.Opens nowMs) :
    ∃ startedMs, self.windowStartedMs = some startedMs ∧
      nowMs - startedMs < self.policy.throttleWindowMs := by
  simp only [QuoteCommandThrottle.Opens] at h
  push Not at h
  exact h

@[simp] theorem policy_tryAcquire : (self.tryAcquire nowMs).1.policy = self.policy := by
  simp only [QuoteCommandThrottle.tryAcquire]
  split_ifs <;> rfl

theorem counted_tryAcquire : (self.tryAcquire nowMs).1.Counted := by
  intro hnone
  simp only [QuoteCommandThrottle.tryAcquire] at hnone
  split_ifs at hnone

end Calls

section Runs

variable (policy : QuoteCommandPolicy)

theorem policy_exec (self : QuoteCommandThrottle) (readings : List Nat) :
    (exec QuoteCommandThrottle.tryAcquire self readings).policy = self.policy :=
  exec_field (fun _ _ => policy_tryAcquire) self readings

theorem counted_exec (readings : List Nat) :
    (exec QuoteCommandThrottle.tryAcquire (.new policy) readings).Counted :=
  exec_kept (fun _ _ _ => counted_tryAcquire) (fun _ => rfl) readings

/-- The window that started then is full until the retry time. -/
structure FullUntil (throttle : QuoteCommandThrottle) (retryAtMs : Nat) : Prop where
  full : throttle.policy.maxCommandsPerWindow ≤ throttle.commandsInWindow
  started : ∃ startedMs, throttle.windowStartedMs = some startedMs ∧
    startedMs + throttle.policy.throttleWindowMs = retryAtMs
  fits : retryAtMs < wordSize
  window_pos : 0 < throttle.policy.throttleWindowMs

variable {self : QuoteCommandThrottle} {nowMs retryAtMs : Nat}

theorem FullUntil.tryAcquire (h : FullUntil self retryAtMs) (hbefore : nowMs < retryAtMs) :
    self.tryAcquire nowMs = (self, { allowed := false, retryAtMs := some retryAtMs }) := by
  obtain ⟨startedMs, hstarted, rfl⟩ := h.started
  have hpos := h.window_pos
  have hwithin : nowMs - startedMs < self.policy.throttleWindowMs := by omega
  rw [tryAcquire_of_started hstarted hwithin, if_pos h.full, saturatingAdd_eq h.fits]

theorem FullUntil.exec (h : FullUntil self retryAtMs) {readings : List Nat}
    (hbefore : ∀ reading ∈ readings, reading < retryAtMs) :
    Machine.exec QuoteCommandThrottle.tryAcquire self readings = self := by
  induction readings with
  | nil => rfl
  | cons reading rest ih =>
      rw [Machine.exec, h.tryAcquire (hbefore reading List.mem_cons_self)]
      exact ih fun later hlater => hbefore later (List.mem_cons_of_mem _ hlater)

theorem FullUntil.opens (h : FullUntil self retryAtMs) (hafter : retryAtMs ≤ nowMs) :
    self.Opens nowMs := by
  obtain ⟨startedMs, hstarted, rfl⟩ := h.started
  intro other hother
  rw [hstarted, Option.mem_some_iff] at hother
  omega

theorem fullUntil_of_denied (hmax : 1 ≤ self.policy.maxCommandsPerWindow)
    (hcounted : self.Counted)
    (hfits : ∀ startedMs ∈ self.windowStartedMs,
      startedMs + self.policy.throttleWindowMs < wordSize)
    (hdenied : (self.tryAcquire nowMs).2 = { allowed := false, retryAtMs := some retryAtMs }) :
    FullUntil self retryAtMs ∧ (self.tryAcquire nowMs).1 = self := by
  by_cases hopens : self.Opens nowMs
  · rw [tryAcquire_of_opens hmax hcounted hopens] at hdenied
    simp at hdenied
  · obtain ⟨startedMs, hstarted, hwithin⟩ := exists_started_of_not_opens hopens
    have hstartedFits := hfits startedMs hstarted
    rw [tryAcquire_of_started hstarted hwithin] at hdenied ⊢
    split_ifs at hdenied ⊢ with hfull
    · simp only [ThrottleDecision.mk.injEq, Option.some.injEq, true_and] at hdenied
      rw [saturatingAdd_eq hstartedFits] at hdenied
      refine ⟨⟨hfull, ⟨startedMs, hstarted, hdenied⟩, hdenied ▸ hstartedFits, ?_⟩, rfl⟩
      exact Nat.zero_lt_of_lt hwithin
    · simp at hdenied

theorem retry_time_exact (hmax : 1 ≤ self.policy.maxCommandsPerWindow) (hcounted : self.Counted)
    (hfits : ∀ startedMs ∈ self.windowStartedMs,
      startedMs + self.policy.throttleWindowMs < wordSize)
    (hdenied : (self.tryAcquire nowMs).2 = { allowed := false, retryAtMs := some retryAtMs })
    {between : List Nat} (hbetween : ∀ reading ∈ between, reading < retryAtMs) (laterMs : Nat) :
    ((exec QuoteCommandThrottle.tryAcquire self (nowMs :: between)).tryAcquire laterMs).2 =
      if laterMs < retryAtMs then { allowed := false, retryAtMs := some retryAtMs }
      else { allowed := true, retryAtMs := none } := by
  obtain ⟨hfull, hsame⟩ := fullUntil_of_denied hmax hcounted hfits hdenied
  rw [exec, hsame, hfull.exec hbetween]
  split_ifs with hbefore
  · rw [hfull.tryAcquire hbefore]
  · rw [tryAcquire_of_opens hmax hcounted (hfull.opens (not_lt.mp hbefore))]

theorem granted_within_window {readings : List Nat}
    (hwithin : Along QuoteCommandThrottle.tryAcquire (fun throttle nowMs => ¬ throttle.Opens nowMs)
      self readings)
    (hcount : self.commandsInWindow ≤ self.policy.maxCommandsPerWindow) :
    self.commandsInWindow +
        (outputs QuoteCommandThrottle.tryAcquire self readings).countP ThrottleDecision.allowed ≤
      self.policy.maxCommandsPerWindow := by
  induction readings generalizing self with
  | nil => exact hcount
  | cons nowMs rest ih =>
      obtain ⟨startedMs, hstarted, hnow⟩ := exists_started_of_not_opens hwithin.1
      have hstep := tryAcquire_of_started hstarted hnow
      have hrest := @ih (self.tryAcquire nowMs).1 hwithin.2
      rw [policy_tryAcquire] at hrest
      rw [outputs, List.countP_cons]
      by_cases hfull : self.commandsInWindow ≥ self.policy.maxCommandsPerWindow
      · rw [hstep, if_pos hfull] at hrest ⊢
        simpa using hrest hcount
      · rw [hstep, if_neg hfull] at hrest ⊢
        have hroom := hrest (Nat.succ_le_of_lt (not_le.mp hfull))
        simp only [if_true] at hroom ⊢
        omega

theorem granted_per_window (hmax : 1 ≤ self.policy.maxCommandsPerWindow) (hcounted : self.Counted)
    (hopens : self.Opens nowMs) {readings : List Nat}
    (hwithin : Along QuoteCommandThrottle.tryAcquire (fun throttle nowMs => ¬ throttle.Opens nowMs)
      (self.tryAcquire nowMs).1 readings) :
    (outputs QuoteCommandThrottle.tryAcquire self (nowMs :: readings)).countP
        ThrottleDecision.allowed ≤ self.policy.maxCommandsPerWindow := by
  have hstep := tryAcquire_of_opens hmax hcounted hopens
  have hcount : (self.tryAcquire nowMs).1.commandsInWindow = 1 := by rw [hstep]
  have hallowed : (self.tryAcquire nowMs).2.allowed = true := by rw [hstep]
  have hrest := granted_within_window hwithin (by rw [hcount, policy_tryAcquire]; exact hmax)
  rw [policy_tryAcquire, hcount] at hrest
  rw [outputs, List.countP_cons, if_pos hallowed]
  omega

end Runs

/-- Over any run on a clock that does not run backwards the retry time is the
time of the next granted call, and no window lets through more than the limit. -/
theorem throttle_exact (policy : QuoteCommandPolicy) (hmax : 1 ≤ policy.maxCommandsPerWindow) :
    (∀ pre nowMs between laterMs retryAtMs,
      (pre ++ nowMs :: between ++ [laterMs]).Pairwise (· ≤ ·) →
      (∀ startedMs ∈
        (exec QuoteCommandThrottle.tryAcquire (.new policy) pre).windowStartedMs,
          startedMs + policy.throttleWindowMs < 2 ^ 64) →
      ((exec QuoteCommandThrottle.tryAcquire (.new policy) pre).tryAcquire nowMs).2 =
        { allowed := false, retryAtMs := some retryAtMs } →
      (laterMs < retryAtMs →
        ((exec QuoteCommandThrottle.tryAcquire (.new policy)
          (pre ++ nowMs :: between)).tryAcquire laterMs).2.allowed = false) ∧
      (retryAtMs ≤ laterMs → (∀ reading ∈ between, reading < retryAtMs) →
        ((exec QuoteCommandThrottle.tryAcquire (.new policy)
          (pre ++ nowMs :: between)).tryAcquire laterMs).2.allowed = true)) ∧
    ∀ pre nowMs rest,
      (exec QuoteCommandThrottle.tryAcquire (.new policy) pre).Opens nowMs →
      Along QuoteCommandThrottle.tryAcquire (fun throttle laterMs => ¬ throttle.Opens laterMs)
        (exec QuoteCommandThrottle.tryAcquire (.new policy) (pre ++ [nowMs])) rest →
      (outputs QuoteCommandThrottle.tryAcquire
        (exec QuoteCommandThrottle.tryAcquire (.new policy) pre) (nowMs :: rest)).countP
          ThrottleDecision.allowed ≤ policy.maxCommandsPerWindow := by
  constructor
  · intro pre nowMs between laterMs retryAtMs hclock hfits hdenied
    have hpolicy := policy_exec (.new policy) pre
    have hlimit : 1 ≤ (exec QuoteCommandThrottle.tryAcquire (.new policy)
        pre).policy.maxCommandsPerWindow := by
      rw [hpolicy]
      exact hmax
    have hwindow : ∀ startedMs ∈
        (exec QuoteCommandThrottle.tryAcquire (.new policy) pre).windowStartedMs,
        startedMs + (exec QuoteCommandThrottle.tryAcquire (.new policy)
          pre).policy.throttleWindowMs < wordSize := by
      rw [hpolicy]
      exact hfits
    rw [exec_append]
    constructor
    · intro hbefore
      have hbetween : ∀ reading ∈ between, reading < retryAtMs := by
        intro reading hreading
        have hle := (List.pairwise_append.mp hclock).2.2 reading
          (List.mem_append_right _ (List.mem_cons_of_mem _ hreading)) laterMs (by simp)
        omega
      rw [retry_time_exact hlimit (counted_exec policy pre) hwindow hdenied hbetween,
        if_pos hbefore]
    · intro hafter hbetween
      rw [retry_time_exact hlimit (counted_exec policy pre) hwindow hdenied hbetween,
        if_neg (not_lt.mpr hafter)]
  · intro pre nowMs rest hopens hwithin
    have hpolicy := policy_exec (.new policy) pre
    rw [exec_concat] at hwithin
    have hgranted := granted_per_window (by rw [hpolicy]; exact hmax) (counted_exec policy pre)
      hopens hwithin
    rwa [hpolicy] at hgranted

def twoPerSecond : QuoteCommandPolicy :=
  { maxRetries := 3
    initialBackoffMs := 100
    maxBackoffMs := 500
    throttleWindowMs := 1000
    maxCommandsPerWindow := 2 }

theorem throttle_exact_twoPerSecond :
    ((exec QuoteCommandThrottle.tryAcquire (.new twoPerSecond)
        ([1000, 1001] ++ 1002 :: [1500])).tryAcquire 1999).2.allowed = false ∧
      ((exec QuoteCommandThrottle.tryAcquire (.new twoPerSecond)
        ([1000, 1001] ++ 1002 :: [1500])).tryAcquire 2000).2.allowed = true ∧
      (outputs QuoteCommandThrottle.tryAcquire
        (exec QuoteCommandThrottle.tryAcquire (.new twoPerSecond) [])
          (1000 :: [1001, 1002])).countP ThrottleDecision.allowed ≤ 2 := by
  have hmax : 1 ≤ twoPerSecond.maxCommandsPerWindow := by decide
  obtain ⟨hretry, hwindow⟩ := throttle_exact twoPerSecond hmax
  have hearly := hretry [1000, 1001] 1002 [1500] 1999 2000 (by decide) (by decide) (by decide)
  have hlate := hretry [1000, 1001] 1002 [1500] 2000 2000 (by decide) (by decide) (by decide)
  exact ⟨hearly.1 (by decide), hlate.2 (by decide) (by decide),
    hwindow [] 1000 [1001, 1002] (by decide) (by decide)⟩

theorem retryAt_within {policy : QuoteCommandPolicy} {failure : QuoteCommandFailure}
    {attempt nowMs next atMs : Nat}
    (h : retryDecision policy failure attempt nowMs = .retryAt next atMs) :
    failure ≠ .permanent ∧ next = attempt + 1 ∧ next ≤ policy.maxRetries ∧
      atMs ≤ nowMs + policy.maxBackoffMs := by
  have htransient : failure ≠ .permanent := by
    rintro rfl
    simp [retryDecision] at h
  have hretry : (if attempt ≥ policy.maxRetries then QuoteCommandRetry.giveUp
      else .retryAt (attempt + 1) (saturatingAdd nowMs
        (min (saturatingMul policy.initialBackoffMs (2 ^ min attempt 16))
          policy.maxBackoffMs))) = .retryAt next atMs := by
    rcases failure with _ | _ | _
    · exact h
    · exact h
    · exact absurd rfl htransient
  split_ifs at hretry with hattempts
  obtain ⟨rfl, rfl⟩ := QuoteCommandRetry.retryAt.inj hretry
  refine ⟨htransient, rfl, by omega, ?_⟩
  refine (min_le_left _ _).trans ?_
  exact Nat.add_le_add_left (min_le_right _ _) nowMs

end Rtt.CommandThrottle
