import Rtt.Machine
import Rtt.Registry
import Mathlib.Logic.Function.Basic

/-!
Refreshes of one registry by several callers.  A refresh is split at its steps: the
answers of the provider, the critical section that numbers its snapshot and the
later one that stores it.  Any caller may take the next step.
-/

namespace Rtt.ConcurrentRefresh

open Rtt.Machine
open Rtt.MachineWord
open Rtt.RegistryProvider
open Rtt.Registry

/-- Where a caller stands inside `refresh_once`. -/
inductive Phase where
  | idle
  /-- The page loop has read the answers. -/
  | collecting (script : List Answer)
  /-- The page loop has ended; the snapshot is to be numbered. -/
  | collected (collection : Collection)
  /-- The snapshot was numbered in its turn, or there is none; it is to be stored. -/
  | numbered (turn : Nat)
      (collected : Except (RegistryProviderError × Nat) (RegistrySnapshot × Nat))

/-- The registry with its callers.  The turns are only counted here: how many snapshots
were numbered, and the turn of the one that is stored. -/
structure Shared (Caller : Type) where
  registry : RegistryState
  phase : Caller → Phase
  turns : Nat
  storedTurn : Option Nat

/-- A caller begins a refresh, gets an answer from the provider, numbers its snapshot or stores
it. -/
inductive Action (Caller : Type) where
  | call (caller : Caller)
  | answer (caller : Caller) (answer : Answer)
  | number (caller : Caller) (nowMs : Nat)
  | store (caller : Caller)

section

variable {Caller : Type} [DecidableEq Caller] (registry : MarketRegistry)

def Shared.start : Shared Caller :=
  { registry := .default, phase := fun _ => .idle, turns := 0, storedTurn := none }

/-- The caller goes on to the given phase. -/
def Shared.moveTo (shared : Shared Caller) (caller : Caller) (phase : Phase) : Shared Caller :=
  { shared with phase := Function.update shared.phase caller phase }

def startCall (shared : Shared Caller) (caller : Caller) : Shared Caller :=
  match shared.phase caller with
  | .idle => shared.moveTo caller (.collecting [])
  | .collecting _ | .collected _ | .numbered _ _ => shared

/-- The answers of a caller are collected until they make up a whole refresh. -/
def readAnswer (shared : Shared Caller) (caller : Caller) (answer : Answer) : Shared Caller :=
  match shared.phase caller with
  | .collecting script =>
      let script := script ++ [answer]
      match collect registry.refreshPolicy script with
      | some collection => shared.moveTo caller (.collected collection)
      | none => shared.moveTo caller (.collecting script)
  | .idle | .collected _ | .numbered _ _ => shared

/-- The critical section at the end of `collect_snapshot`.  An error takes no turn. -/
def numberSnapshot (shared : Shared Caller) (caller : Caller) (nowMs : Nat) : Shared Caller :=
  match shared.phase caller with
  | .collected collection =>
      let (state, collected) := registry.endCollection shared.registry collection nowMs
      { shared.moveTo caller (.numbered shared.turns collected) with
        registry := state
        turns := if collected.isOk then shared.turns + 1 else shared.turns }
  | .idle | .collecting _ | .numbered _ _ => shared

/-- The critical section at the end of `refresh_once`.  The call returns. -/
def storeSnapshot (shared : Shared Caller) (caller : Caller) :
    Shared Caller × Option (Except RegistryRefreshError RegistryRefreshOutcome) :=
  match shared.phase caller with
  | .numbered turn collected =>
      let (state, result) := registry.storeRefresh shared.registry collected
      ({ shared.moveTo caller .idle with
          registry := state
          storedTurn := if collected.isOk then some turn else shared.storedTurn }, some result)
  | .idle | .collecting _ | .collected _ => (shared, none)

/-- One step of one caller; the output is what its refresh returns. -/
def sharedStep (shared : Shared Caller) :
    Action Caller → Shared Caller × Option (Except RegistryRefreshError RegistryRefreshOutcome)
  | .call caller => (startCall shared caller, none)
  | .answer caller answer => (readAnswer registry shared caller answer, none)
  | .number caller nowMs => (numberSnapshot registry shared caller nowMs, none)
  | .store caller => storeSnapshot registry shared caller

/-- The sequence number of the last good snapshot. -/
def Shared.storedSequence (shared : Shared Caller) : Option Nat :=
  shared.registry.lastGoodSnapshot.map RegistrySnapshot.sequence

/-- The second sequence number is there whenever the first is, and is no smaller. -/
def NotBelow (first second : Option Nat) : Prop := ∀ a ∈ first, ∃ b ∈ second, a ≤ b

/-- A snapshot is not stored over one that was numbered later. -/
def InTurn (shared : Shared Caller) : Action Caller → Prop
  | .store caller =>
      match shared.phase caller with
      | .numbered turn (.ok _) => ∀ stored ∈ shared.storedTurn, stored ≤ turn
      | .numbered _ (.error _) | .idle | .collecting _ | .collected _ => True
  | .call _ | .answer _ _ | .number _ _ => True

def isNumber : Action Caller → Bool
  | .number _ _ => true
  | .call _ | .answer _ _ | .store _ => false

/-- The turns and the sequence numbers agree, and the counter has numbers left for the
steps to come. -/
structure Counted (shared : Shared Caller) (rest : List (Action Caller)) : Prop where
  fits : shared.turns + rest.countP isNumber < wordSize
  next : shared.registry.nextSequence = shared.turns
  numbered : ∀ caller turn snapshot attempts,
    shared.phase caller = .numbered turn (.ok (snapshot, attempts)) →
      snapshot.sequence = turn + 1
  stored : shared.storedSequence = shared.storedTurn.map (· + 1)

variable {registry} {shared : Shared Caller} {action : Action Caller} {rest : List (Action Caller)}

theorem NotBelow.refl (first : Option Nat) : NotBelow first first :=
  fun a ha => ⟨a, ha, Nat.le_refl a⟩

theorem NotBelow.trans {first second third : Option Nat} (h : NotBelow first second)
    (h' : NotBelow second third) : NotBelow first third := by
  intro a ha
  obtain ⟨b, hb, hab⟩ := h a ha
  obtain ⟨c, hc, hbc⟩ := h' b hb
  exact ⟨c, hc, hab.trans hbc⟩

theorem notBelow_some_iff {first : Option Nat} {b : Nat} :
    NotBelow first (some b) ↔ ∀ a ∈ first, a ≤ b := by
  simp [NotBelow]

@[simp]
theorem Shared.phase_moveTo_self (shared : Shared Caller) (caller : Caller) (phase : Phase) :
    (shared.moveTo caller phase).phase caller = phase :=
  Function.update_self ..

theorem Shared.phase_moveTo_of_ne (shared : Shared Caller) {caller other : Caller}
    (h : other ≠ caller) (phase : Phase) :
    (shared.moveTo caller phase).phase other = shared.phase other :=
  Function.update_of_ne h ..

omit [DecidableEq Caller] in
theorem Counted.later (h : Counted shared (action :: rest)) : Counted shared rest := by
  refine ⟨?_, h.next, h.numbered, h.stored⟩
  have hfits := h.fits
  rw [List.countP_cons] at hfits
  omega

theorem Counted.moveTo (h : Counted shared rest) (caller : Caller) {phase : Phase}
    (hphase : ∀ turn snapshot attempts, phase = .numbered turn (.ok (snapshot, attempts)) →
      snapshot.sequence = turn + 1) :
    Counted (shared.moveTo caller phase) rest := by
  refine ⟨h.fits, h.next, ?_, h.stored⟩
  intro other turn snapshot attempts hother
  rcases eq_or_ne other caller with rfl | hne
  · rw [Shared.phase_moveTo_self] at hother
    exact hphase turn snapshot attempts hother
  · rw [shared.phase_moveTo_of_ne hne] at hother
    exact h.numbered other turn snapshot attempts hother

theorem Counted.startCall (h : Counted shared rest) (caller : Caller) :
    Counted (startCall shared caller) rest := by
  unfold ConcurrentRefresh.startCall
  split
  · exact h.moveTo caller (by simp)
  · exact h
  · exact h
  · exact h

theorem Counted.readAnswer (h : Counted shared rest) (caller : Caller) (answer : Answer) :
    Counted (readAnswer registry shared caller answer) rest := by
  unfold ConcurrentRefresh.readAnswer
  split
  · simp only
    split
    · exact h.moveTo caller (by simp)
    · exact h.moveTo caller (by simp)
  · exact h
  · exact h
  · exact h

theorem Counted.numberSnapshot {caller : Caller} {nowMs : Nat}
    (h : Counted shared (.number caller nowMs :: rest)) :
    Counted (numberSnapshot registry shared caller nowMs) rest := by
  unfold ConcurrentRefresh.numberSnapshot
  split
  · rename_i collection _
    have hfits := h.fits
    rw [List.countP_cons_of_pos rfl] at hfits
    cases hresult : collection.result with
    | error err =>
        simp only [MarketRegistry.endCollection, hresult]
        exact h.later.moveTo caller (by simp)
    | ok collecting =>
        have hnext : wrappingAdd shared.registry.nextSequence 1 = shared.turns + 1 := by
          rw [h.next]
          exact wrappingAdd_eq (by omega)
        simp only [MarketRegistry.endCollection, hresult, hnext]
        have hmoved := @Counted.moveTo _ _ shared rest h.later caller
          (.numbered shared.turns (.ok
            ({ provider := registry.providerName, sequence := shared.turns + 1
               refreshedAtMs := nowMs, markets := collecting.markets
               quarantined := collecting.quarantined }, collection.attempts)))
          (by
            rintro turn snapshot attempts ⟨⟩
            rfl)
        refine ⟨?_, rfl, hmoved.numbered, hmoved.stored⟩
        change shared.turns + 1 + rest.countP isNumber < wordSize
        omega
  · exact h.later
  · exact h.later
  · exact h.later

theorem Counted.storeSnapshot (h : Counted shared rest) (caller : Caller) :
    Counted (storeSnapshot registry shared caller).1 rest := by
  unfold ConcurrentRefresh.storeSnapshot
  split
  · rename_i turn collected hphase
    have hmoved := @Counted.moveTo _ _ shared rest h caller .idle (by simp)
    rcases collected with ⟨err, attempts⟩ | ⟨snapshot, attempts⟩
    · exact hmoved
    · refine ⟨hmoved.fits, hmoved.next, hmoved.numbered, ?_⟩
      exact congrArg some (h.numbered caller turn snapshot attempts hphase)
  · exact h
  · exact h
  · exact h

theorem Counted.step (h : Counted shared (action :: rest)) :
    Counted (sharedStep registry shared action).1 rest := by
  cases action with
  | call caller => exact h.later.startCall caller
  | answer caller answer => exact h.later.readAnswer caller answer
  | number caller nowMs => exact h.numberSnapshot
  | store caller => exact h.later.storeSnapshot caller

section Frame

variable (registry) (shared)

theorem lastGoodSnapshot_startCall (caller : Caller) :
    (startCall shared caller).registry.lastGoodSnapshot = shared.registry.lastGoodSnapshot := by
  unfold startCall
  split <;> rfl

theorem lastGoodSnapshot_readAnswer (caller : Caller) (answer : Answer) :
    (readAnswer registry shared caller answer).registry.lastGoodSnapshot =
      shared.registry.lastGoodSnapshot := by
  unfold readAnswer
  split
  · simp only
    split <;> rfl
  · rfl
  · rfl
  · rfl

theorem lastGoodSnapshot_numberSnapshot (caller : Caller) (nowMs : Nat) :
    (numberSnapshot registry shared caller nowMs).registry.lastGoodSnapshot =
      shared.registry.lastGoodSnapshot := by
  unfold numberSnapshot
  split
  · rename_i collection _
    simp only [MarketRegistry.endCollection]
    cases collection.result <;> rfl
  · rfl
  · rfl
  · rfl

end Frame

omit [DecidableEq Caller] in
theorem notBelow_of_lastGoodSnapshot {next : Shared Caller}
    (h : next.registry.lastGoodSnapshot = shared.registry.lastGoodSnapshot) :
    NotBelow shared.storedSequence next.storedSequence := by
  rw [Shared.storedSequence, Shared.storedSequence, h]
  exact .refl _

theorem notBelow_storeSnapshot_iff (h : Counted shared rest) (caller : Caller) :
    NotBelow shared.storedSequence (storeSnapshot registry shared caller).1.storedSequence ↔
      InTurn shared (.store caller) := by
  simp only [storeSnapshot, InTurn]
  cases hphase : shared.phase caller with
  | idle => exact iff_of_true (.refl _) trivial
  | collecting script => exact iff_of_true (.refl _) trivial
  | collected collection => exact iff_of_true (.refl _) trivial
  | numbered turn collected =>
      rcases collected with ⟨err, attempts⟩ | ⟨snapshot, attempts⟩
      · exact iff_of_true (notBelow_of_lastGoodSnapshot rfl) trivial
      · have hsequence := h.numbered caller turn snapshot attempts hphase
        change NotBelow shared.storedSequence (some snapshot.sequence) ↔ _
        rw [notBelow_some_iff, h.stored, hsequence]
        simp

/-- A step lowers the stored sequence number exactly when it is out of turn. -/
theorem notBelow_step_iff (h : Counted shared (action :: rest)) :
    NotBelow shared.storedSequence (sharedStep registry shared action).1.storedSequence ↔
      InTurn shared action := by
  cases action with
  | call caller =>
      refine iff_of_true (notBelow_of_lastGoodSnapshot ?_) trivial
      exact lastGoodSnapshot_startCall shared caller
  | answer caller answer =>
      refine iff_of_true (notBelow_of_lastGoodSnapshot ?_) trivial
      exact lastGoodSnapshot_readAnswer registry shared caller answer
  | number caller nowMs =>
      refine iff_of_true (notBelow_of_lastGoodSnapshot ?_) trivial
      exact lastGoodSnapshot_numberSnapshot registry shared caller nowMs
  | store caller => exact notBelow_storeSnapshot_iff h.later caller

end

/-- The stored sequence number never decreases over an interleaving exactly when every
snapshot is stored in its turn. -/
theorem stored_sequence_monotone_iff {Caller : Type} [DecidableEq Caller]
    (registry : MarketRegistry) (schedule : List (Action Caller))
    (hfits : schedule.countP isNumber < wordSize) :
    (∀ earlier later, earlier <+: later → later <+: schedule →
      NotBelow (exec (sharedStep registry) .start earlier).storedSequence
        (exec (sharedStep registry) .start later).storedSequence) ↔
      Along (sharedStep registry) InTurn .start schedule := by
  have hstart : Counted (.start : Shared Caller) schedule := by
    refine ⟨?_, rfl, ?_, rfl⟩
    · exact (Nat.zero_add _).symm ▸ hfits
    · intro caller turn snapshot attempts hphase
      exact absurd hphase (by simp [Shared.start])
  have hiff := @forall_prefixes_iff_along _ _ _ (sharedStep registry) InTurn
    (fun first second => NotBelow first.storedSequence second.storedSequence) Counted
    (fun _ => .refl _) (fun _ _ _ => NotBelow.trans) (fun _ _ _ h => h.step)
    (fun _ _ _ h => notBelow_step_iff h) schedule .start hstart
  exact hiff

section Overtaken

inductive Refresher where
  | slow
  | fast
  deriving DecidableEq

/-- Both refreshes collect their page and are numbered. -/
def bothNumbered : List (Action Refresher) :=
  let lastPage : Answer := .ok { markets := [], quarantined := [], nextOffset := none }
  [.call .slow, .call .fast, .answer .slow lastPage, .answer .fast lastPage, .number .slow 1,
    .number .fast 2]

theorem stored_sequence_monotone_iff_bothNumbered :
    (∀ earlier later, earlier <+: later →
      later <+: bothNumbered ++ [.store .slow, .store .fast] →
        NotBelow (exec (sharedStep (fixtureRegistry 2)) .start earlier).storedSequence
          (exec (sharedStep (fixtureRegistry 2)) .start later).storedSequence) ↔
      Along (sharedStep (fixtureRegistry 2)) InTurn .start
        (bothNumbered ++ [.store .slow, .store .fast]) :=
  stored_sequence_monotone_iff (fixtureRegistry 2) _ (by decide)

/-- The refresh that was numbered first stores its snapshot last. -/
theorem slow_refresh_stores_older_snapshot :
    ¬ ∀ earlier later, earlier <+: later →
      later <+: bothNumbered ++ [.store .fast, .store .slow] →
        NotBelow (exec (sharedStep (fixtureRegistry 2)) .start earlier).storedSequence
          (exec (sharedStep (fixtureRegistry 2)) .start later).storedSequence := by
  intro h
  let fast : Action Refresher := .store .fast
  let slow : Action Refresher := .store .slow
  -- The numbers stored before and after the last step.
  have hlower : NotBelow (some 2) (some 1) :=
    h (bothNumbered ++ [fast]) (bothNumbered ++ [fast, slow]) ⟨[slow], rfl⟩ (List.prefix_refl _)
  rw [notBelow_some_iff] at hlower
  exact absurd (hlower 2 rfl) (by decide)

end Overtaken

end Rtt.ConcurrentRefresh
