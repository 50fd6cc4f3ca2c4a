import Rtt.CommandEffects

namespace Rtt.Convergence

open Rtt.Quote
open Rtt.OrderState
open Rtt.KeyIndex
open Rtt.OrderManager
open Rtt.SetReconciliation
open Rtt.ReconcilePlan
open Rtt.CommandEffects

variable {how : CancelMark} {self : LocalOrderManager} {desired : DesiredQuotes}
  {working : List WorkingQuote} {nowMs : Nat}

theorem absDiff_self (a : Nat) : absDiff a a = 0 := by
  simp [absDiff]

theorem isMaterialChange_pendingSubmit (hprice : 1 ≤ self.policy.minPriceChangeUnits)
    (hsize : 1 ≤ self.policy.minSizeChangeUnits) (desiredQuote : DesiredQuote) :
    self.isMaterialChange (WorkingQuote.pendingSubmit desiredQuote nowMs) desiredQuote =
      false := by
  have hprice' : self.policy.minPriceChangeUnits ≠ 0 := by omega
  have hsize' : self.policy.minSizeChangeUnits ≠ 0 := by omega
  simp [LocalOrderManager.isMaterialChange, WorkingQuote.pendingSubmit, absDiff_self, hprice',
    hsize']

theorem notMem_stale_recorded (htrusted : Trusted working)
    (hprice : 1 ≤ self.policy.minPriceChangeUnits)
    (hsize : 1 ≤ self.policy.minSizeChangeUnits) (quoteId : QuoteId) :
    quoteId ∉ (situation self desired (recorded how nowMs self desired working) nowMs).stale := by
  rintro ⟨quote, desiredQuote, hrecord, hwanted, hdue⟩
  by_cases hissued : quoteId ∈ (situation self desired working nowMs).issued
  · rw [record_of_issued htrusted hissued hwanted] at hrecord
    rw [← Option.some.inj hrecord, replaceDue,
      isMaterialChange_pendingSubmit hprice hsize] at hdue
    exact Bool.noConfusion hdue
  · obtain ⟨hstays, hfresh⟩ := Situation.kept_of_not_issued (mem_wanted.mpr ⟨desiredQuote, hwanted⟩)
      hissued
    rw [record_of_kept htrusted hissued hstays] at hrecord
    exact hfresh ⟨quote, desiredQuote, hrecord, hwanted, hdue⟩

theorem live_of_issued (htrusted : Trusted working) {quoteId : QuoteId}
    (hissued : quoteId ∈ (situation self desired working nowMs).issued) :
    quoteId ∈ (situation self desired (recorded how nowMs self desired working) nowMs).live := by
  obtain ⟨desiredQuote, hwanted⟩ := hissued.1
  rw [mem_live, record_of_issued htrusted hissued hwanted]
  exact ⟨_, rfl, rfl⟩

theorem live_confirmed (htrusted : Trusted working) :
    (situation self desired (recorded confirmed nowMs self desired working) nowMs).live =
      (situation self desired working nowMs).live \
        (situation self desired working nowMs).withdrawn ∪
          (situation self desired working nowMs).issued := by
  ext quoteId
  rw [Set.mem_union, Set.mem_sdiff]
  by_cases hissued : quoteId ∈ (situation self desired working nowMs).issued
  · exact iff_of_true (live_of_issued htrusted hissued) (Or.inr hissued)
  · by_cases hwithdrawn : quoteId ∈ (situation self desired working nowMs).withdrawn
    · rw [mem_live, record_of_withdrawn htrusted hissued hwithdrawn]
      apply iff_of_false
      · rintro ⟨quote, hquote, hcancelable⟩
        obtain ⟨old, -, rfl⟩ := Option.map_eq_some_iff.mp hquote
        exact Bool.noConfusion hcancelable
      · rintro (⟨-, hstays⟩ | hnew)
        · exact hstays hwithdrawn
        · exact hissued hnew
    · rw [mem_live, record_of_kept htrusted hissued hwithdrawn]
      simp only [mem_live, hwithdrawn, hissued, not_false_eq_true, and_true, or_false]

theorem live_inFlight (htrusted : Trusted working) :
    (situation self desired (recorded inFlight nowMs self desired working) nowMs).live =
      (situation self desired working nowMs).live ∪
        (situation self desired working nowMs).issued := by
  ext quoteId
  rw [Set.mem_union]
  by_cases hissued : quoteId ∈ (situation self desired working nowMs).issued
  · exact iff_of_true (live_of_issued htrusted hissued) (Or.inr hissued)
  · by_cases hwithdrawn : quoteId ∈ (situation self desired working nowMs).withdrawn
    · rw [mem_live, record_of_withdrawn htrusted hissued hwithdrawn]
      obtain ⟨quote, hquote, -⟩ := hwithdrawn.1
      rw [hquote]
      exact iff_of_true ⟨_, rfl, rfl⟩ (Or.inl hwithdrawn.1)
    · rw [mem_live, record_of_kept htrusted hissued hwithdrawn]
      simp only [mem_live, hissued, or_false]

theorem commands_recorded_eq_nil_iff (hdistinct : (working.map WorkingQuote.quoteId).Nodup)
    (htrusted : Trusted working) (hprice : 1 ≤ self.policy.minPriceChangeUnits)
    (hsize : 1 ≤ self.policy.minSizeChangeUnits) :
    (self.reconcile desired (recorded how nowMs self desired working) nowMs).commands = [] ↔
      (situation self desired (recorded how nowMs self desired working) nowMs).live =
        (situation self desired working nowMs).wanted := by
  rw [commands_eq_nil_iff (trusted_recorded htrusted) (nodup_recorded hdistinct),
    Situation.converged_iff]
  constructor
  · exact fun h => h.1
  · exact fun hlive => ⟨hlive, fun quoteId _ =>
      notMem_stale_recorded htrusted hprice hsize quoteId⟩

/-- One plan, once confirmed, leaves exactly the wanted quotes live. -/
theorem reconcile_converges (hdistinct : (working.map WorkingQuote.quoteId).Nodup)
    (htrusted : Trusted working) (hprice : 1 ≤ self.policy.minPriceChangeUnits)
    (hsize : 1 ≤ self.policy.minSizeChangeUnits) :
    let after := recorded confirmed nowMs self desired working
    (self.reconcile desired after nowMs).commands = [] ∧
      (after.map WorkingQuote.quoteId).Nodup ∧
      (∀ quoteId, (∃ quote ∈ after, quote.quoteId = quoteId ∧ quote.isCancelable = true) ↔
        ∃ desiredQuote ∈ desired.quotes, desiredQuote.quoteId = quoteId) ∧
      ∀ quote ∈ after, quote.isCancelable = true →
        ∃ desiredQuote, wanted desired quote.quoteId = some desiredQuote ∧
          (quote = WorkingQuote.pendingSubmit desiredQuote nowMs ∨
            quote ∈ working ∧ (self.isMaterialChange quote desiredQuote = false ∨
              self.cooldownElapsed quote nowMs = false)) := by
  intro after
  have hdistinct' : (after.map WorkingQuote.quoteId).Nodup := nodup_recorded hdistinct
  have hlive : (situation self desired after nowMs).live =
      (situation self desired working nowMs).wanted := by
    rw [live_confirmed htrusted, Situation.confirmed_live]
  refine ⟨(commands_recorded_eq_nil_iff hdistinct htrusted hprice hsize).mpr hlive, hdistinct',
    ?_, ?_⟩
  · intro quoteId
    rw [← @wanted_iff self desired working nowMs, ← hlive, mem_live]
    simp only [record_eq_some_iff hdistinct', and_assoc]
  · intro quote hmem hcancelable
    have hrecord : record (recorded confirmed nowMs self desired working) quote.quoteId =
        some quote := (record_eq_some_iff hdistinct').mpr ⟨hmem, rfl⟩
    have hwanted : quote.quoteId ∈ (situation self desired working nowMs).wanted := by
      rw [← hlive]
      exact ⟨quote, hrecord, hcancelable⟩
    obtain ⟨desiredQuote, hlast⟩ := hwanted
    refine ⟨desiredQuote, hlast, ?_⟩
    by_cases hissued : quote.quoteId ∈ (situation self desired working nowMs).issued
    · left
      rw [record_of_issued htrusted hissued hlast] at hrecord
      exact (Option.some.inj hrecord).symm
    · right
      obtain ⟨hstays, hfresh⟩ := Situation.kept_of_not_issued (mem_wanted.mpr ⟨desiredQuote, hlast⟩)
        hissued
      rw [record_of_kept htrusted hissued hstays] at hrecord
      rw [stale_iff hrecord hlast, replaceDue, Bool.and_eq_true, not_and_or,
        Bool.not_eq_true, Bool.not_eq_true] at hfresh
      exact ⟨((record_eq_some_iff hdistinct).mp hrecord).1, hfresh⟩

/-- While cancels are in flight the second plan is empty exactly when no
cancelable quote is unwanted. -/
theorem reconcile_idempotent_iff (hdistinct : (working.map WorkingQuote.quoteId).Nodup)
    (htrusted : Trusted working) (hprice : 1 ≤ self.policy.minPriceChangeUnits)
    (hsize : 1 ≤ self.policy.minSizeChangeUnits) :
    (self.reconcile desired (recorded inFlight nowMs self desired working) nowMs).commands =
        [] ↔
      ∀ quote ∈ working, quote.isCancelable = true →
        ∃ desiredQuote ∈ desired.quotes, desiredQuote.quoteId = quote.quoteId := by
  rw [commands_recorded_eq_nil_iff hdistinct htrusted hprice hsize, live_inFlight htrusted,
    Situation.inFlight_live, Set.union_eq_right]
  constructor
  · intro hsubset quote hmem hcancelable
    exact wanted_iff.mp (hsubset
      ⟨quote, (record_eq_some_iff hdistinct).mpr ⟨hmem, rfl⟩, hcancelable⟩)
  · rintro hwanted quoteId ⟨quote, hrecord, hcancelable⟩
    obtain ⟨hmem, rfl⟩ := (record_eq_some_iff hdistinct).mp hrecord
    exact wanted_iff.mpr (hwanted quote hmem hcancelable)

def resting (id price : String) : WorkingQuote := Tests.workingQuote id price "10" 1000

def wantedQuotes : DesiredQuotes :=
  ⟨[Tests.desiredQuote "quote-1" "0.47" "10", Tests.desiredQuote "quote-2" "0.50" "10"]⟩

theorem reconcile_converges_wantedQuotes :
    ((LocalOrderManager.new {}).reconcile wantedQuotes
      (recorded confirmed 2000 (LocalOrderManager.new {}) wantedQuotes
        [resting "quote-1" "0.44", resting "quote-2" "0.50", resting "quote-3" "0.40"])
      2000).commands = [] :=
  (reconcile_converges (by decide) (by decide) (by decide) (by decide)).1

theorem reconcile_idempotent_wantedQuotes :
    ((LocalOrderManager.new {}).reconcile wantedQuotes
      (recorded inFlight 2000 (LocalOrderManager.new {}) wantedQuotes
        [resting "quote-1" "0.44", resting "quote-2" "0.50"])
      2000).commands = [] :=
  (reconcile_idempotent_iff (by decide) (by decide) (by decide) (by decide)).mpr (by decide)

/-- The cancel of a quote that is not wanted is issued again while it is
pending. -/
theorem pending_cancel_repeated :
    ([resting "quote-3" "0.40"].map WorkingQuote.quoteId).Nodup ∧
      Trusted [resting "quote-3" "0.40"] ∧
      1 ≤ ({} : ReconciliationPolicy).minPriceChangeUnits ∧
      1 ≤ ({} : ReconciliationPolicy).minSizeChangeUnits ∧
      ((LocalOrderManager.new {}).reconcile wantedQuotes
        (recorded inFlight 2000 (LocalOrderManager.new {}) wantedQuotes
          [resting "quote-3" "0.40"]) 2000).commands = [.cancel ⟨"quote-3"⟩] ∧
      ((recorded inFlight 2000 (LocalOrderManager.new {}) wantedQuotes
        [resting "quote-3" "0.40"]).map fun quote => (quote.quoteId, quote.state)) =
          [(⟨"quote-3"⟩, .pendingCancel), (⟨"quote-1"⟩, .pendingSubmit),
            (⟨"quote-2"⟩, .pendingSubmit)] := by
  decide

end Rtt.Convergence
