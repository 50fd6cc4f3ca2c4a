import Rtt.CommandEffects
import Rtt.Machine

/-!
The quoting loop closed over the exchange: plans are recorded while in flight
and the exchange answers in any order.  How far apart are two placements of the
same quote id.
-/

namespace Rtt.AntiThrash

open Rtt.Quote
open Rtt.OrderState
open Rtt.KeyIndex
open Rtt.OrderManager
open Rtt.SetReconciliation
open Rtt.ReconcilePlan
open Rtt.CommandEffects
open Rtt.Machine

/-- What the exchange may answer about one order. -/
inductive ExchangeAnswer where
  | working (clientOrderId : String)
  | canceled
  | rejected (reason : String)

/-- The mark that an answer leaves on the record it is about. -/
def ExchangeAnswer.mark : ExchangeAnswer → WorkingQuote → Nat → WorkingQuote
  | .working clientOrderId, quote, nowMs => quote.markWorking clientOrderId nowMs
  | .canceled, quote, nowMs => quote.markCanceled nowMs
  | .rejected reason, quote, nowMs => quote.markRejected reason nowMs

/-- One turn of the quoting loop: a plan for the wanted quotes, or an answer of the exchange. -/
inductive LoopEvent where
  | plan (desired : DesiredQuotes) (nowMs : Nat)
  | answer (quoteId : QuoteId) (answer : ExchangeAnswer) (nowMs : Nat)

def LoopEvent.nowMs : LoopEvent → Nat
  | .plan _ nowMs => nowMs
  | .answer _ _ nowMs => nowMs

/-- The local records between two turns, and the time of the last one. -/
structure LoopState where
  working : List WorkingQuote
  clockMs : Nat

def start : LoopState := { working := [], clockMs := 0 }

/-- The quotes placed by the commands of one plan, each with the time of the plan. -/
def placements (nowMs : Nat) (commands : List ExecutionCommand) : List (QuoteId × Nat) :=
  commands.filterMap fun
    | .place desiredQuote => some (desiredQuote.quoteId, nowMs)
    | _ => none

section

variable (self : LocalOrderManager)

/-- A plan is recorded as in flight; an answer marks the record of its quote. The output is what
was placed. -/
def loopStep (state : LoopState) : LoopEvent → LoopState × List (QuoteId × Nat)
  | .plan desired nowMs =>
      ({ working := recorded inFlight nowMs self desired state.working, clockMs := nowMs },
        placements nowMs (self.reconcile desired state.working nowMs).commands)
  | .answer quoteId answer nowMs =>
      ({ working := state.working.map fun quote =>
          if quote.quoteId = quoteId then answer.mark quote nowMs else quote
         clockMs := nowMs }, [])

/-- Everything placed in a run, in order. -/
def placeLog (events : List LoopEvent) : List (QuoteId × Nat) :=
  (outputs (loopStep self) start events).flatten

/-- At a plan, every wanted quote whose record is finished was last placed at
least a cooldown ago. -/
def Rested (state : LoopState) : LoopEvent → Prop
  | .plan desired nowMs =>
      ∀ desiredQuote ∈ desired.quotes, ∀ quote ∈ record state.working desiredQuote.quoteId,
        quote.isCancelable = false →
          quote.createdAtMs + self.policy.replaceCooldownMs ≤ nowMs
  | .answer _ _ _ => True

instance (state : LoopState) (event : LoopEvent) : Decidable (Rested self state event) :=
  match event with
  | .plan desired _ => inferInstanceAs (Decidable (∀ desiredQuote ∈ desired.quotes, _))
  | .answer _ _ _ => isTrue trivial

end

/-- Two placements of one quote lie at least the cooldown apart. -/
def PlacesSpaced (cooldownMs : Nat) (log : List (QuoteId × Nat)) : Prop :=
  log.Pairwise fun earlier later =>
    earlier.1 = later.1 → earlier.2 + cooldownMs ≤ later.2

instance (cooldownMs : Nat) (log : List (QuoteId × Nat)) :
    Decidable (PlacesSpaced cooldownMs log) :=
  inferInstanceAs (Decidable (log.Pairwise _))

/-- What the records say about the placements made so far. -/
structure Tracks (state : LoopState) (log : List (QuoteId × Nat)) : Prop where
  distinct : (state.working.map WorkingQuote.quoteId).Nodup
  trusted : Trusted state.working
  placed : ∀ quoteId placedAt, (quoteId, placedAt) ∈ log →
    ∃ quote, record state.working quoteId = some quote ∧ placedAt ≤ quote.createdAtMs
  created : ∀ quoteId quote, record state.working quoteId = some quote →
    (quoteId, quote.createdAtMs) ∈ log ∧
      ∃ last, quote.lastCommandMs = some last ∧ quote.createdAtMs ≤ last ∧ last ≤ state.clockMs

variable {self : LocalOrderManager} {state : LoopState} {log : List (QuoteId × Nat)}
  {desired : DesiredQuotes} {nowMs : Nat}

theorem ExchangeAnswer.mark_keeps (answer : ExchangeAnswer) (quote : WorkingQuote)
    (nowMs : Nat) :
    (answer.mark quote nowMs).quoteId = quote.quoteId ∧
      (answer.mark quote nowMs).createdAtMs = quote.createdAtMs ∧
      (answer.mark quote nowMs).lastCommandMs = quote.lastCommandMs ∧
      (answer.mark quote nowMs).blocksConvergence = false := by
  cases answer <;> exact ⟨rfl, rfl, rfl, rfl⟩

theorem mem_placements {working : List WorkingQuote} (htrusted : Trusted working)
    {quoteId : QuoteId} {placedAt : Nat} :
    (quoteId, placedAt) ∈ placements nowMs (self.reconcile desired working nowMs).commands ↔
      quoteId ∈ (situation self desired working nowMs).issued ∧ placedAt = nowMs := by
  simp only [placements, List.mem_filterMap]
  constructor
  · rintro ⟨command, hmem, heq⟩
    cases command with
    | place desiredQuote =>
        obtain ⟨rfl, rfl⟩ := Prod.mk.inj (Option.some.inj heq)
        exact ⟨((place_mem_iff htrusted).mp hmem).1, rfl⟩
    | cancel | cancelAll => exact absurd heq (by simp)
  · rintro ⟨hissued, rfl⟩
    obtain ⟨desiredQuote, hwanted⟩ := hissued.1
    obtain rfl := (mem_of_lastWith hwanted).2
    exact ⟨_, (place_mem_iff htrusted).mpr ⟨hissued, hwanted⟩, rfl⟩

theorem placesSpaced_placements {working : List WorkingQuote} (htrusted : Trusted working)
    (cooldownMs : Nat) :
    PlacesSpaced cooldownMs
      (placements nowMs (self.reconcile desired working nowMs).commands) := by
  apply List.pairwise_filterMap.mpr
  apply (places_distinct self desired nowMs htrusted).imp
  intro a b hdistinct placed hplaced placed' hplaced' hsame
  cases a with
  | place first =>
      cases b with
      | place second =>
          obtain rfl := Option.some.inj hplaced
          obtain rfl := Option.some.inj hplaced'
          exact absurd hsame (hdistinct first second rfl rfl)
      | cancel | cancelAll => exact absurd hplaced' (by simp)
  | cancel | cancelAll => exact absurd hplaced (by simp)

theorem tracks_start : Tracks start [] where
  distinct := List.nodup_nil
  trusted := by simp [Trusted, start]
  placed := by simp
  created := by simp [record, lastWith, start]

theorem tracks_plan (htracks : Tracks state log) (hclock : state.clockMs ≤ nowMs) :
    Tracks (loopStep self state (.plan desired nowMs)).1
      (log ++ (loopStep self state (.plan desired nowMs)).2) where
  distinct := nodup_recorded htracks.distinct
  trusted := trusted_recorded htracks.trusted
  placed quoteId placedAt hmem := by
    simp only [loopStep, List.mem_append, mem_placements htracks.trusted] at hmem ⊢
    by_cases hissued : quoteId ∈ (situation self desired state.working nowMs).issued
    · obtain ⟨desiredQuote, hwanted⟩ := hissued.1
      refine ⟨_, record_of_issued htracks.trusted hissued hwanted, ?_⟩
      rcases hmem with hold | ⟨-, rfl⟩
      · obtain ⟨quote, hrecord, hle⟩ := htracks.placed quoteId placedAt hold
        obtain ⟨-, last, -, hlast, hnow⟩ := htracks.created quoteId quote hrecord
        show placedAt ≤ nowMs
        omega
      · exact le_refl placedAt
    · have hold := hmem.resolve_right fun hnew => hissued hnew.1
      obtain ⟨quote, hrecord, hle⟩ := htracks.placed quoteId placedAt hold
      by_cases hwithdrawn : quoteId ∈ (situation self desired state.working nowMs).withdrawn
      · refine ⟨inFlight.mark quote nowMs, ?_, hle⟩
        rw [record_of_withdrawn htracks.trusted hissued hwithdrawn, hrecord]
        rfl
      · exact ⟨quote, by rw [record_of_kept htracks.trusted hissued hwithdrawn, hrecord], hle⟩
  created quoteId quote hrecord := by
    simp only [loopStep, List.mem_append, mem_placements htracks.trusted] at hrecord ⊢
    by_cases hissued : quoteId ∈ (situation self desired state.working nowMs).issued
    · obtain ⟨desiredQuote, hwanted⟩ := hissued.1
      rw [record_of_issued htracks.trusted hissued hwanted] at hrecord
      obtain rfl := Option.some.inj hrecord
      exact ⟨Or.inr ⟨hissued, rfl⟩, nowMs, rfl, le_refl nowMs, le_refl nowMs⟩
    · by_cases hwithdrawn : quoteId ∈ (situation self desired state.working nowMs).withdrawn
      · rw [record_of_withdrawn htracks.trusted hissued hwithdrawn] at hrecord
        obtain ⟨old, hold, rfl⟩ := Option.map_eq_some_iff.mp hrecord
        obtain ⟨hmem, last, -, hlast, hnow⟩ := htracks.created quoteId old hold
        refine ⟨Or.inl hmem, nowMs, rfl, ?_, le_refl nowMs⟩
        show old.createdAtMs ≤ nowMs
        omega
      · rw [record_of_kept htracks.trusted hissued hwithdrawn] at hrecord
        obtain ⟨hmem, last, hcommand, hlast, hnow⟩ := htracks.created quoteId quote hrecord
        exact ⟨Or.inl hmem, last, hcommand, hlast, hnow.trans hclock⟩

variable (nowMs) in
theorem answered_keeps (answered : QuoteId) (answer : ExchangeAnswer) (quote : WorkingQuote) :
    (if quote.quoteId = answered then answer.mark quote nowMs else quote).quoteId =
        quote.quoteId ∧
      (if quote.quoteId = answered then answer.mark quote nowMs else quote).createdAtMs =
        quote.createdAtMs ∧
      (if quote.quoteId = answered then answer.mark quote nowMs else quote).lastCommandMs =
        quote.lastCommandMs := by
  split
  · obtain ⟨hid, hcreated, hcommand, -⟩ := answer.mark_keeps quote nowMs
    exact ⟨hid, hcreated, hcommand⟩
  · exact ⟨rfl, rfl, rfl⟩

theorem tracks_answer (htracks : Tracks state log) (hclock : state.clockMs ≤ nowMs)
    (answered : QuoteId) (answer : ExchangeAnswer) :
    Tracks (loopStep self state (.answer answered answer nowMs)).1
      (log ++ (loopStep self state (.answer answered answer nowMs)).2) := by
  have hrecord : ∀ quoteId,
      record (loopStep self state (.answer answered answer nowMs)).1.working quoteId =
        (record state.working quoteId).map fun quote =>
          if quote.quoteId = answered then answer.mark quote nowMs else quote :=
    fun quoteId => lastWith_map (fun quote => (answered_keeps nowMs answered answer quote).1)
      quoteId state.working
  refine ⟨?_, ?_, ?_, ?_⟩
  · simp only [loopStep]
    rw [map_key_map fun quote => (answered_keeps nowMs answered answer quote).1]
    exact htracks.distinct
  · intro quote hmem
    obtain ⟨old, hold, rfl⟩ := List.mem_map.mp hmem
    split
    · exact (answer.mark_keeps old nowMs).2.2.2
    · exact htracks.trusted old hold
  · intro quoteId placedAt hmem
    rw [loopStep, List.append_nil] at hmem
    obtain ⟨quote, hquote, hle⟩ := htracks.placed quoteId placedAt hmem
    refine ⟨_, by rw [hrecord, hquote, Option.map_some], ?_⟩
    rw [(answered_keeps nowMs answered answer quote).2.1]
    exact hle
  · intro quoteId quote hquote
    rw [hrecord] at hquote
    obtain ⟨old, hold, rfl⟩ := Option.map_eq_some_iff.mp hquote
    obtain ⟨hmem, last, hcommand, hlast, hnow⟩ := htracks.created quoteId old hold
    obtain ⟨-, hcreated, hsent⟩ := answered_keeps nowMs answered answer old
    rw [hcreated, hsent, loopStep, List.append_nil]
    exact ⟨hmem, last, hcommand, hlast, hnow.trans hclock⟩

theorem placesSpaced_plan_iff (htracks : Tracks state log) (hclock : state.clockMs ≤ nowMs) :
    PlacesSpaced self.policy.replaceCooldownMs
        (log ++ (loopStep self state (.plan desired nowMs)).2) ↔
      PlacesSpaced self.policy.replaceCooldownMs log ∧
        Rested self state (.plan desired nowMs) := by
  rw [PlacesSpaced, List.pairwise_append]
  apply and_congr_right
  intro _
  constructor
  · rintro ⟨-, hspaced⟩ desiredQuote hdesired quote hrecord hfinished
    have hnotLive : desiredQuote.quoteId ∉ (situation self desired state.working nowMs).live := by
      rintro ⟨quote', hrecord', hcancelable⟩
      rw [Option.some.inj (hrecord.symm.trans hrecord'), hcancelable] at hfinished
      exact Bool.noConfusion hfinished
    have hissued : desiredQuote.quoteId ∈
        (situation self desired state.working nowMs).issued :=
      ⟨wanted_iff.mpr ⟨desiredQuote, hdesired, rfl⟩, Or.inl hnotLive⟩
    exact hspaced _ (htracks.created _ quote hrecord).1 _
      ((mem_placements htracks.trusted).mpr ⟨hissued, rfl⟩) rfl
  · intro hrested
    refine ⟨placesSpaced_placements htracks.trusted _, ?_⟩
    rintro ⟨quoteId, placedAt⟩ hold ⟨_, placedAgainAt⟩ hnew rfl
    obtain ⟨hissued, hnow⟩ := (mem_placements htracks.trusted).mp hnew
    obtain ⟨quote, hrecord, hle⟩ := htracks.placed quoteId placedAt hold
    obtain ⟨-, last, hcommand, hlast, hpast⟩ := htracks.created quoteId quote hrecord
    show placedAt + self.policy.replaceCooldownMs ≤ placedAgainAt
    cases hcancelable : quote.isCancelable with
    | true =>
        obtain ⟨desiredQuote, hwanted⟩ := hissued.1
        have hstale := hissued.2.resolve_left fun hnotLive =>
          hnotLive ⟨quote, hrecord, hcancelable⟩
        have hdue := (stale_iff hrecord hwanted).mp hstale
        have helapsed := (Bool.and_eq_true_iff.mp hdue).2
        simp only [LocalOrderManager.cooldownElapsed, hcommand, ge_iff_le,
          decide_eq_true_eq] at helapsed
        omega
    | false =>
        obtain ⟨desiredQuote, hdesired, rfl⟩ := wanted_iff.mp hissued.1
        have := hrested desiredQuote hdesired quote hrecord hcancelable
        omega

theorem clock_along (events : List LoopEvent) (state : LoopState)
    (hstart : ∀ event ∈ events, state.clockMs ≤ event.nowMs)
    (hsorted : (events.map LoopEvent.nowMs).Pairwise (· ≤ ·)) :
    Along (loopStep self) (fun state event => state.clockMs ≤ event.nowMs) state events := by
  induction events generalizing state with
  | nil => trivial
  | cons event rest ih =>
      obtain ⟨hfirst, hrest⟩ := List.pairwise_cons.mp hsorted
      refine ⟨hstart event List.mem_cons_self, ih _ (fun later hlater => ?_) hrest⟩
      have hclock : (loopStep self state event).1.clockMs = event.nowMs := by
        cases event <;> rfl
      rw [hclock]
      exact hfirst _ (List.mem_map_of_mem hlater)

/-- Exactly when a run of the quoting loop never thrashes. -/
theorem placesSpaced_iff (self : LocalOrderManager) (events : List LoopEvent)
    (hsorted : (events.map LoopEvent.nowMs).Pairwise (· ≤ ·)) :
    PlacesSpaced self.policy.replaceCooldownMs (placeLog self events) ↔
      Along (loopStep self) (Rested self) start events := by
  have hrun := run_induction (loopStep self)
    (motive := fun read state out => state = exec (loopStep self) start read ∧
      Tracks state out.flatten ∧
      (PlacesSpaced self.policy.replaceCooldownMs out.flatten ↔
        Along (loopStep self) (Rested self) start read))
    ⟨rfl, tracks_start, by simp [PlacesSpaced, Along]⟩ ?_ events
    (clock_along events start (fun event _ => Nat.zero_le _) hsorted)
  · exact hrun.2.2
  · rintro read _ out event ⟨rfl, htracks, hiff⟩ hclock
    rw [along_concat, exec_concat, List.flatten_concat]
    refine ⟨rfl, ?_, ?_⟩
    · cases event with
      | plan desired nowMs => exact tracks_plan htracks hclock
      | answer answered answer nowMs => exact tracks_answer htracks hclock answered answer
    · cases event with
      | plan desired nowMs =>
          rw [← hiff]
          exact placesSpaced_plan_iff htracks hclock
      | answer answered answer nowMs =>
          simp only [loopStep, List.append_nil, hiff, Rested, and_true]

def slowReplace : LocalOrderManager :=
  LocalOrderManager.new { replaceCooldownMs := 500 }

def wantAt (price : String) (nowMs : Nat) : LoopEvent :=
  .plan ⟨[Tests.desiredQuote "quote-1" price "10"]⟩ nowMs

theorem placesSpaced_flapping :
    placeLog slowReplace [wantAt "0.44" 1000, .answer ⟨"quote-1"⟩ (.working "client-1") 1100,
        wantAt "0.49" 1200, wantAt "0.44" 1300, wantAt "0.49" 1600] =
      [(⟨"quote-1"⟩, 1000), (⟨"quote-1"⟩, 1600)] ∧
    PlacesSpaced 500
      (placeLog slowReplace [wantAt "0.44" 1000, .answer ⟨"quote-1"⟩ (.working "client-1") 1100,
        wantAt "0.49" 1200, wantAt "0.44" 1300, wantAt "0.49" 1600]) :=
  ⟨by decide, (placesSpaced_iff slowReplace _ (by decide)).mpr (by decide)⟩

/-- A rejected quote is placed again at once, whatever the cooldown. -/
theorem rejected_placed_at_once :
    ([wantAt "0.44" 1000, .answer ⟨"quote-1"⟩ (.rejected "post only") 1010,
        wantAt "0.44" 1020].map LoopEvent.nowMs).Pairwise (· ≤ ·) ∧
      placeLog slowReplace [wantAt "0.44" 1000,
          .answer ⟨"quote-1"⟩ (.rejected "post only") 1010, wantAt "0.44" 1020] =
        [(⟨"quote-1"⟩, 1000), (⟨"quote-1"⟩, 1020)] ∧
      ¬ PlacesSpaced slowReplace.policy.replaceCooldownMs (placeLog slowReplace
          [wantAt "0.44" 1000, .answer ⟨"quote-1"⟩ (.rejected "post only") 1010,
            wantAt "0.44" 1020]) := by
  decide

end Rtt.AntiThrash
