import Rtt.ReconcilePlan

namespace Rtt.CanonicalPlan

open Rtt.Quote
open Rtt.OrderState
open Rtt.KeyIndex
open Rtt.OrderManager
open Rtt.ReconcilePlan

/-- The id a command withdraws by name. -/
def cancelledId : ExecutionCommand → Option QuoteId
  | .cancel quoteId => some quoteId
  | .place _ => none
  | .cancelAll => none

def placedId : ExecutionCommand → Option QuoteId
  | .place desiredQuote => some desiredQuote.quoteId
  | .cancel _ => none
  | .cancelAll => none

def IsPlace (command : ExecutionCommand) : Prop :=
  ∃ desiredQuote, command = .place desiredQuote

/-- Commands in the one order a plan is written in. -/
structure Canonical (commands : List ExecutionCommand) : Prop where
  placesLast : ∃ cancels places, commands = cancels ++ places ∧
    (∀ command ∈ cancels, ¬ IsPlace command) ∧ ∀ command ∈ places, IsPlace command
  cancelsAscend : (commands.filterMap cancelledId).Pairwise (· < ·)
  placesAscend : (commands.filterMap placedId).Pairwise (· < ·)
  oneCancel : ∀ quoteId, (commands.filterMap cancelledId).count quoteId ≤ 1
  onePlace : ∀ quoteId, (commands.filterMap placedId).count quoteId ≤ 1

theorem count_le_one_of_ascending {ids : List QuoteId} (hascend : ids.Pairwise (· < ·))
    (quoteId : QuoteId) : ids.count quoteId ≤ 1 :=
  List.nodup_iff_count_le_one.mp (hascend.imp ne_of_lt) quoteId

theorem Canonical.of_parts {cancels places : List ExecutionCommand}
    (hcancels : ∀ command ∈ cancels, ¬ IsPlace command)
    (hplaces : ∀ command ∈ places, IsPlace command)
    (hcancelsAscend : (cancels.filterMap cancelledId).Pairwise (· < ·))
    (hplacesAscend : (places.filterMap placedId).Pairwise (· < ·)) :
    Canonical (cancels ++ places) := by
  have hnoPlace : cancels.filterMap placedId = [] := by
    apply List.filterMap_eq_nil_iff.mpr
    intro command hmem
    cases command with
    | place desiredQuote => exact absurd ⟨desiredQuote, rfl⟩ (hcancels _ hmem)
    | cancel quoteId => rfl
    | cancelAll => rfl
  have hnoCancel : places.filterMap cancelledId = [] := by
    apply List.filterMap_eq_nil_iff.mpr
    intro command hmem
    obtain ⟨desiredQuote, rfl⟩ := hplaces _ hmem
    rfl
  have hcancelsAscend' : ((cancels ++ places).filterMap cancelledId).Pairwise (· < ·) := by
    rw [List.filterMap_append, hnoCancel, List.append_nil]
    exact hcancelsAscend
  have hplacesAscend' : ((cancels ++ places).filterMap placedId).Pairwise (· < ·) := by
    rw [List.filterMap_append, hnoPlace, List.nil_append]
    exact hplacesAscend
  exact
    { placesLast := ⟨cancels, places, rfl, hcancels, hplaces⟩
      cancelsAscend := hcancelsAscend'
      placesAscend := hplacesAscend'
      oneCancel := count_le_one_of_ascending hcancelsAscend'
      onePlace := count_le_one_of_ascending hplacesAscend' }

section

variable (self : LocalOrderManager) (nowMs : Nat)

theorem plannedCancels_ascend (desired : DesiredQuotes) (working : List WorkingQuote) :
    ((plannedCancels self desired working nowMs).filterMap cancelledId).Pairwise (· < ·) := by
  rw [plannedCancels, List.filterMap_filterMap]
  apply filterMap_toList_ascending
  rintro ⟨quoteId, quote⟩ - id hid
  obtain ⟨command, hcommand, hcancelled⟩ := Option.bind_eq_some_iff.mp hid
  obtain ⟨-, -, rfl⟩ := cancelCommand_eq.mp hcommand
  exact (Option.some.inj hcancelled).symm

theorem plannedPlaces_ascend (desired : DesiredQuotes) (working : List WorkingQuote) :
    ((plannedPlaces self desired working nowMs).filterMap placedId).Pairwise (· < ·) := by
  rw [plannedPlaces, List.filterMap_filterMap]
  apply filterMap_toList_ascending
  rintro ⟨quoteId, desiredQuote⟩ hmem id hid
  obtain ⟨command, hcommand, hplaced⟩ := Option.bind_eq_some_iff.mp hid
  obtain ⟨-, rfl⟩ := placeCommand_eq.mp hcommand
  have hquoteId := (mem_of_lastWith (mem_toList_indexBy.mp hmem)).2
  exact (Option.some.inj hplaced).symm.trans hquoteId

theorem not_isPlace_of_mem_plannedCancels {desired : DesiredQuotes}
    {working : List WorkingQuote} {command : ExecutionCommand}
    (hmem : command ∈ plannedCancels self desired working nowMs) : ¬ IsPlace command := by
  rintro ⟨desiredQuote, rfl⟩
  exact place_notMem_plannedCancels hmem

theorem canonical_commands (desired : DesiredQuotes) (working : List WorkingQuote) :
    Canonical (self.reconcile desired working nowMs).commands := by
  by_cases htrusted : Trusted working
  · rw [(reconcile_of_trusted htrusted).2]
    split
    · have hcancelAll : ∀ command ∈ [ExecutionCommand.cancelAll], ¬ IsPlace command := by
        intro command hmem
        rw [List.mem_singleton.mp hmem]
        rintro ⟨_, heq⟩
        exact ExecutionCommand.noConfusion heq
      exact Canonical.of_parts hcancelAll (List.forall_mem_nil _) List.Pairwise.nil
        List.Pairwise.nil
    · exact Canonical.of_parts
        (fun _ hmem => not_isPlace_of_mem_plannedCancels self nowMs hmem)
        (fun _ hmem => eq_place_of_mem_plannedPlaces hmem)
        (plannedCancels_ascend self nowMs desired working)
        (plannedPlaces_ascend self nowMs desired working)
  · rw [(reconcile_of_not_trusted htrusted).1]
    exact Canonical.of_parts (List.forall_mem_nil _) (List.forall_mem_nil _) List.Pairwise.nil
      List.Pairwise.nil

theorem commands_congr_desired {desired desired' : DesiredQuotes} (working : List WorkingQuote)
    (hwanted : ∀ quoteId, wanted desired quoteId = wanted desired' quoteId)
    (hempty : desired.quotes.isEmpty = desired'.quotes.isEmpty) :
    (self.reconcile desired working nowMs).commands =
      (self.reconcile desired' working nowMs).commands := by
  by_cases htrusted : Trusted working
  · have hlist := toList_indexBy_congr hwanted
    have hcancels : plannedCancels self desired working nowMs =
        plannedCancels self desired' working nowMs := by
      refine congrArg (List.filterMap · _) (funext fun entry => ?_)
      simp only [LocalOrderManager.cancelCommand, getElem?_indexBy]
      rw [show lastWith _ entry.1 desired.quotes = _ from hwanted entry.1]
      rfl
    have hplaces : plannedPlaces self desired working nowMs =
        plannedPlaces self desired' working nowMs := by
      rw [plannedPlaces, plannedPlaces, hlist]
    rw [(reconcile_of_trusted htrusted).2, (reconcile_of_trusted htrusted).2, hempty, hcancels,
      hplaces]
  · rw [(reconcile_of_not_trusted htrusted).1, (reconcile_of_not_trusted htrusted).1]

theorem commands_congr_working (desired : DesiredQuotes) {working working' : List WorkingQuote}
    (hrecord : ∀ quoteId, record working quoteId = record working' quoteId)
    (hmem : ∀ quote, quote ∈ working ↔ quote ∈ working') :
    (self.reconcile desired working nowMs).commands =
      (self.reconcile desired working' nowMs).commands := by
  have hblocked : Trusted working ↔ Trusted working' := by
    simp only [Trusted, hmem]
  by_cases htrusted : Trusted working
  · have hlist := toList_indexBy_congr hrecord
    have hany : working.any WorkingQuote.isCancelable =
        working'.any WorkingQuote.isCancelable := by
      rw [Bool.eq_iff_iff, List.any_eq_true, List.any_eq_true]
      simp only [hmem]
    have hcancels : plannedCancels self desired working nowMs =
        plannedCancels self desired working' nowMs := by
      rw [plannedCancels, plannedCancels, hlist]
    have hplaces : plannedPlaces self desired working nowMs =
        plannedPlaces self desired working' nowMs := by
      refine congrArg (List.filterMap · _) (funext fun entry => ?_)
      simp only [LocalOrderManager.placeCommand, getElem?_indexBy]
      rw [show lastWith _ entry.1 working = _ from hrecord entry.1]
      rfl
    rw [(reconcile_of_trusted htrusted).2, (reconcile_of_trusted (hblocked.mp htrusted)).2, hany,
      hcancels, hplaces]
  · rw [(reconcile_of_not_trusted htrusted).1,
      (reconcile_of_not_trusted (mt hblocked.mpr htrusted)).1]

/-- A plan is a function of the wanted quotes and of the records, not of the
order they are listed in, and is itself written in one order. -/
theorem plan_canonical :
    (∀ desired desired' working, desired.quotes.Perm desired'.quotes →
      (desired.quotes.map DesiredQuote.quoteId).Nodup →
        (self.reconcile desired working nowMs).commands =
          (self.reconcile desired' working nowMs).commands) ∧
      (∀ desired working working', working.Perm working' →
        (working.map WorkingQuote.quoteId).Nodup →
          (self.reconcile desired working nowMs).commands =
            (self.reconcile desired working' nowMs).commands) ∧
      ∀ desired working, Canonical (self.reconcile desired working nowMs).commands := by
  refine ⟨?_, ?_, canonical_commands self nowMs⟩
  · intro desired desired' working hperm hdistinct
    apply commands_congr_desired self nowMs working (lastWith_perm hperm hdistinct)
    rw [Bool.eq_iff_iff, List.isEmpty_iff, List.isEmpty_iff]
    constructor
    · intro hnil
      exact List.nil_perm.mp (hnil ▸ hperm)
    · intro hnil
      exact List.perm_nil.mp (hnil ▸ hperm)
  · intro desired working working' hperm hdistinct
    exact commands_congr_working self nowMs desired (lastWith_perm hperm hdistinct)
      fun _ => hperm.mem_iff

end

theorem plan_canonical_twoQuotes :
    ((LocalOrderManager.new {}).reconcile
      ⟨[Tests.desiredQuote "quote-1" "0.47" "10", Tests.desiredQuote "quote-2" "0.50" "10"]⟩
      [Tests.workingQuote "quote-3" "0.40" "10" 1000] 2000).commands =
    ((LocalOrderManager.new {}).reconcile
      ⟨[Tests.desiredQuote "quote-2" "0.50" "10", Tests.desiredQuote "quote-1" "0.47" "10"]⟩
      [Tests.workingQuote "quote-3" "0.40" "10" 1000] 2000).commands :=
  (plan_canonical (LocalOrderManager.new {}) 2000).1 _ _ _ (by decide) (by decide)

end Rtt.CanonicalPlan
