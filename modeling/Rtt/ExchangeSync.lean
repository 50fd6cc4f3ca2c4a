import Rtt.ReconcilePlan

namespace Rtt.ExchangeSync

open Rtt.Quote
open Rtt.OrderState
open Rtt.KeyIndex
open Rtt.OrderManager
open Rtt.QuoteLifecycle
open Rtt.ReconcilePlan

/-- What the snapshot says of a quote: the last of its entries for it. -/
def report (snapshot : ExchangeSyncSnapshot) (quoteId : QuoteId) :
    Option ExchangeObservedQuote :=
  lastWith ExchangeObservedQuote.quoteId quoteId snapshot.quotes

/-- The report left for a record once the earlier records have taken theirs. -/
def reportFor (snapshot : ExchangeSyncSnapshot) (earlier : List WorkingQuote)
    (quoteId : QuoteId) : Option ExchangeObservedQuote :=
  if quoteId ∈ earlier.map WorkingQuote.quoteId then none else report snapshot quoteId

/-- The snapshot has an entry for the quote. -/
def Observes (snapshot : ExchangeSyncSnapshot) (quoteId : QuoteId) : Prop :=
  ∃ observed ∈ snapshot.quotes, observed.quoteId = quoteId

section

variable (policy : ReconciliationPolicy) (snapshot : ExchangeSyncSnapshot) (nowMs : Nat)

/-- The record has been pending for longer than the policy allows. -/
def TimedOut (quote : WorkingQuote) : Prop :=
  (quote.markUnknownIfTimedOut policy.submitTimeoutMs policy.cancelTimeoutMs nowMs).2 = true

/-- What the merge of a snapshot leaves of one record. -/
def syncQuote (observed : Option ExchangeObservedQuote) (quote : WorkingQuote) :
    WorkingQuote :=
  let aged := (quote.markUnknownIfTimedOut policy.submitTimeoutMs policy.cancelTimeoutMs
    nowMs).1
  match observed with
  | some observed => aged.applyExchangeObservation observed
  | none =>
      if snapshot.authoritative then
        (aged.applyAuthoritativeAbsence snapshot.observedAtMs).1
      else aged

/-- What a pass leaves of one record: while a resync is pending nothing is merged. -/
def passQuote (observed : Option ExchangeObservedQuote) (quote : WorkingQuote) :
    WorkingQuote :=
  if snapshot.resyncPending then
    if quote.isCancelable then quote.markReconnectStale snapshot.observedAtMs else quote
  else syncQuote policy snapshot nowMs observed quote

end

variable {policy : ReconciliationPolicy} {self : LocalOrderManager} {desired : DesiredQuotes}
  {working : List WorkingQuote} {snapshot : ExchangeSyncSnapshot} {nowMs : Nat}

theorem report_eq_none_iff {quoteId : QuoteId} :
    report snapshot quoteId = none ↔ ¬ Observes snapshot quoteId := by
  rw [report, lastWith_eq_none_iff]
  simp [Observes]

theorem reportFor_eq_none {earlier : List WorkingQuote} {quoteId : QuoteId}
    (h : ¬ Observes snapshot quoteId) : reportFor snapshot earlier quoteId = none := by
  simp only [reportFor, report_eq_none_iff.mpr h, ite_self]

@[simp] theorem quoteId_syncQuote (observed : Option ExchangeObservedQuote)
    (quote : WorkingQuote) :
    (syncQuote policy snapshot nowMs observed quote).quoteId = quote.quoteId := by
  unfold syncQuote
  cases observed with
  | some observed => simp
  | none => cases snapshot.authoritative <;> simp

@[simp] theorem quoteId_passQuote (observed : Option ExchangeObservedQuote)
    (quote : WorkingQuote) :
    (passQuote policy snapshot nowMs observed quote).quoteId = quote.quoteId := by
  unfold passQuote
  split
  · split <;> simp
  · simp

theorem synchronize_cons (observedById : Std.TreeMap QuoteId ExchangeObservedQuote)
    (quote : WorkingQuote) (rest : List WorkingQuote) :
    ∃ left : Std.TreeMap QuoteId ExchangeObservedQuote,
      (∀ quoteId, left[quoteId]? =
        if quote.quoteId = quoteId then none else observedById[quoteId]?) ∧
      (LocalOrderManager.synchronize policy snapshot nowMs observedById (quote :: rest)).1 =
        syncQuote policy snapshot nowMs observedById[quote.quoteId]? quote ::
          (LocalOrderManager.synchronize policy snapshot nowMs left rest).1 := by
  simp only [LocalOrderManager.synchronize, quoteId_markUnknownIfTimedOut, syncQuote]
  cases hreport : observedById[quote.quoteId]? with
  | some observed =>
      refine ⟨observedById.erase quote.quoteId, fun quoteId => ?_, rfl⟩
      rw [Std.TreeMap.getElem?_erase]
      simp only [compare_eq_iff_eq]
  | none =>
      refine ⟨observedById, fun quoteId => ?_, ?_⟩
      · split
        · rename_i heq
          rw [← heq, hreport]
        · rfl
      · cases snapshot.authoritative <;> rfl

theorem synchronize_getElem? (observedById : Std.TreeMap QuoteId ExchangeObservedQuote)
    (working : List WorkingQuote) (k : Nat) :
    (LocalOrderManager.synchronize policy snapshot nowMs observedById working).1[k]? =
      working[k]?.map fun quote =>
        syncQuote policy snapshot nowMs
          (if quote.quoteId ∈ (working.take k).map WorkingQuote.quoteId then none
            else observedById[quote.quoteId]?) quote := by
  induction working generalizing observedById k with
  | nil => simp [LocalOrderManager.synchronize]
  | cons quote rest ih =>
      obtain ⟨left, hleft, hcons⟩ := synchronize_cons observedById quote rest
      rw [hcons]
      cases k with
      | zero => simp
      | succ k =>
          rw [List.getElem?_cons_succ, List.getElem?_cons_succ, ih left k]
          cases rest[k]? with
          | none => rfl
          | some other =>
              simp only [Option.map_some, hleft, List.take_succ_cons, List.map_cons,
                List.mem_cons]
              by_cases hsame : quote.quoteId = other.quoteId
              · simp [hsame]
              · simp [hsame, Ne.symm hsame]

variable (self desired working snapshot nowMs) in
/-- A pass sends each record, in place, through `passQuote`. -/
theorem working_getElem? (k : Nat) :
    (self.reconcileWithExchange desired working snapshot nowMs).2.working[k]? =
      working[k]?.map fun quote =>
        passQuote self.policy snapshot nowMs
          (reportFor snapshot (working.take k) quote.quoteId) quote := by
  simp only [LocalOrderManager.reconcileWithExchange, passQuote]
  cases snapshot.resyncPending with
  | true => simp
  | false =>
      simp only [Bool.false_eq_true, if_false, synchronize_getElem?, getElem?_indexBy]
      rfl

theorem working_quoteIds :
    (self.reconcileWithExchange desired working snapshot nowMs).2.working.map
        WorkingQuote.quoteId =
      working.map WorkingQuote.quoteId := by
  apply List.ext_getElem?
  intro k
  rw [List.getElem?_map, List.getElem?_map, working_getElem?]
  cases working[k]? <;> simp

@[simp] theorem policy_reconcileWithExchange :
    (self.reconcileWithExchange desired working snapshot nowMs).1.policy = self.policy := by
  simp only [LocalOrderManager.reconcileWithExchange,
    LocalOrderManager.collectNewExposureDeltas]
  cases snapshot.resyncPending <;> rfl

variable (self desired working nowMs) in
theorem plan_of_not_resyncPending (hresync : snapshot.resyncPending = false) :
    let outcome := (self.reconcileWithExchange desired working snapshot nowMs).2
    outcome.commands = (self.reconcile desired outcome.working nowMs).commands ∧
      outcome.blocked = (self.reconcile desired outcome.working nowMs).blocked := by
  simp [LocalOrderManager.reconcileWithExchange, hresync]

variable (self desired working nowMs) in
theorem plan_of_resyncPending (hresync : snapshot.resyncPending = true) :
    (self.reconcileWithExchange desired working snapshot nowMs).2.commands = [] ∧
      (self.reconcileWithExchange desired working snapshot nowMs).2.blocked = true := by
  simp [LocalOrderManager.reconcileWithExchange, hresync]

theorem plan_of_not_trusted
    (hunknown : ¬ Trusted
      (self.reconcileWithExchange desired working snapshot nowMs).2.working) :
    (self.reconcileWithExchange desired working snapshot nowMs).2.commands = [] ∧
      (self.reconcileWithExchange desired working snapshot nowMs).2.blocked = true := by
  cases hresync : snapshot.resyncPending with
  | true => exact plan_of_resyncPending self desired working nowMs hresync
  | false =>
      obtain ⟨hcommands, hblocked⟩ := plan_of_not_resyncPending self desired working nowMs
        hresync
      rw [hcommands, hblocked]
      exact reconcile_of_not_trusted hunknown

theorem not_trusted_of_getElem? {k : Nat} {quote : WorkingQuote}
    (hquote : working[k]? = some quote) (hblocks : quote.blocksConvergence = true) :
    ¬ Trusted working := by
  intro htrusted
  rw [htrusted quote (List.mem_of_getElem? hquote)] at hblocks
  exact Bool.noConfusion hblocks

theorem passQuote_of_not_resyncPending (hresync : snapshot.resyncPending = false)
    (observed : Option ExchangeObservedQuote) (quote : WorkingQuote) :
    passQuote policy snapshot nowMs observed quote =
      syncQuote policy snapshot nowMs observed quote := by
  simp [passQuote, hresync]

theorem passQuote_of_resyncPending (hresync : snapshot.resyncPending = true)
    (observed : Option ExchangeObservedQuote) (quote : WorkingQuote) :
    passQuote policy snapshot nowMs observed quote =
      if quote.isCancelable then quote.markReconnectStale snapshot.observedAtMs else quote := by
  simp [passQuote, hresync]

theorem syncQuote_some (observed : ExchangeObservedQuote) (quote : WorkingQuote) :
    (syncQuote policy snapshot nowMs (some observed) quote).blocksConvergence = false ∧
      (syncQuote policy snapshot nowMs (some observed) quote).isCancelable =
        IsLiveReport observed.state ∧
      IsActive (syncQuote policy snapshot nowMs (some observed) quote) =
        IsLiveReport observed.state :=
  ⟨blocksConvergence_applyExchangeObservation _ _,
    isCancelable_applyExchangeObservation _ _, isActive_applyExchangeObservation _ _⟩

theorem blocksConvergence_syncQuote_none (quote : WorkingQuote) :
    (syncQuote policy snapshot nowMs none quote).blocksConvergence = true ↔
      if snapshot.authoritative then
        (quote.state = .pendingSubmit ∨ quote.state = .working) ∧ ¬ TimedOut policy nowMs quote
      else quote.blocksConvergence = true ∨ TimedOut policy nowMs quote := by
  obtain haged | ⟨reason, hpending, haged⟩ := markUnknownIfTimedOut_cases quote
    policy.submitTimeoutMs policy.cancelTimeoutMs nowMs
  · have hintime : ¬ TimedOut policy nowMs quote := by simp [TimedOut, haged]
    cases hauthoritative : snapshot.authoritative with
    | true =>
        simp only [syncQuote, haged, hauthoritative, if_true, hintime,
          WorkingQuote.applyAuthoritativeAbsence]
        cases hstate : quote.state <;>
          simp [WorkingQuote.blocksConvergence, WorkingQuote.markCanceled,
            WorkingQuote.markUnknownOrStale, hstate]
    | false => simp [syncQuote, haged, hauthoritative, hintime]
  · have hlate : TimedOut policy nowMs quote := by simp [TimedOut, haged]
    cases hauthoritative : snapshot.authoritative with
    | true =>
        simp only [syncQuote, haged, hauthoritative, if_true, hlate]
        simp [WorkingQuote.applyAuthoritativeAbsence, WorkingQuote.markUnknownOrStale,
          WorkingQuote.markCanceled, WorkingQuote.blocksConvergence]
    | false => simp [syncQuote, haged, hauthoritative, hlate]

end Rtt.ExchangeSync
