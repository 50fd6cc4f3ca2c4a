import Rtt.ExchangeSync
import Rtt.Machine

namespace Rtt.RecordEvents

open Rtt.Quote
open Rtt.OrderState
open Rtt.OrderManager
open Rtt.ExchangeSync
open Rtt.Machine

/-- The operations on a local record. -/
inductive RecordEvent where
  | working (clientOrderId : String) (nowMs : Nat)
  | pendingCancel (nowMs : Nat)
  | canceled (nowMs : Nat)
  | rejected (reason : String) (nowMs : Nat)
  | unknownOrStale (reason : String) (nowMs : Nat)
  | timeoutCheck (submitTimeoutMs cancelTimeoutMs nowMs : Nat)
  | reconnectStale (nowMs : Nat)
  | observation (observed : ExchangeObservedQuote)
  | absence (nowMs : Nat)
  deriving DecidableEq, Repr

namespace RecordEvent

def atMs : RecordEvent → Nat
  | .working _ nowMs | .pendingCancel nowMs | .canceled nowMs | .rejected _ nowMs
  | .unknownOrStale _ nowMs | .timeoutCheck _ _ nowMs | .reconnectStale nowMs
  | .absence nowMs => nowMs
  | .observation observed => observed.observedAtMs

def apply (quote : WorkingQuote) : RecordEvent → WorkingQuote
  | .working clientOrderId nowMs => quote.markWorking clientOrderId nowMs
  | .pendingCancel nowMs => quote.markPendingCancel nowMs
  | .canceled nowMs => quote.markCanceled nowMs
  | .rejected reason nowMs => quote.markRejected reason nowMs
  | .unknownOrStale reason nowMs => quote.markUnknownOrStale reason nowMs
  | .timeoutCheck submitTimeoutMs cancelTimeoutMs nowMs =>
      (quote.markUnknownIfTimedOut submitTimeoutMs cancelTimeoutMs nowMs).1
  | .reconnectStale nowMs => quote.markReconnectStale nowMs
  | .observation observed => quote.applyExchangeObservation observed
  | .absence nowMs => (quote.applyAuthoritativeAbsence nowMs).1

end RecordEvent

def step (quote : WorkingQuote) (event : RecordEvent) : WorkingQuote × Unit :=
  (event.apply quote, ())

section Passes

variable (policy : ReconciliationPolicy) (snapshot : ExchangeSyncSnapshot) (nowMs : Nat)

/-- What a reconciliation pass does to a record, operation by operation. -/
def passEvents (observed : Option ExchangeObservedQuote) (quote : WorkingQuote) :
    List RecordEvent :=
  if snapshot.resyncPending then
    if quote.isCancelable then [.reconnectStale snapshot.observedAtMs] else []
  else
    .timeoutCheck policy.submitTimeoutMs policy.cancelTimeoutMs nowMs ::
      match observed with
      | some observed => [.observation observed]
      | none => if snapshot.authoritative then [.absence snapshot.observedAtMs] else []

theorem passQuote_eq_exec (observed : Option ExchangeObservedQuote) (quote : WorkingQuote) :
    passQuote policy snapshot nowMs observed quote =
      exec step quote (passEvents policy snapshot nowMs observed quote) := by
  simp only [passQuote, passEvents, syncQuote]
  split
  · split <;> rfl
  · cases observed with
    | some observed => rfl
    | none => cases snapshot.authoritative <;> rfl

end Passes

/-- The exchange reports a pending cancel without naming the order, of a record
that has its id. -/
def DropsId (quote : WorkingQuote) : RecordEvent → Prop
  | .observation observed =>
      quote.clientOrderId.isSome ∧ observed.state = .pendingCancel ∧
        observed.clientOrderId = none
  | _ => False

instance (quote : WorkingQuote) : ∀ event, Decidable (DropsId quote event)
  | .observation _ => inferInstanceAs (Decidable (_ ∧ _ ∧ _))
  | .working _ _ | .pendingCancel _ | .canceled _ | .rejected _ _ | .unknownOrStale _ _
  | .timeoutCheck _ _ _ | .reconnectStale _ | .absence _ => inferInstanceAs (Decidable False)

section

variable (quote : WorkingQuote)

theorem clientOrderId_applyExchangeObservation (observed : ExchangeObservedQuote) :
    (quote.applyExchangeObservation observed).clientOrderId =
      match observed.state with
      | .rejected _ | .canceled => quote.clientOrderId
      | .pendingCancel => observed.clientOrderId
      | .working =>
          if quote.state = .pendingCancel then quote.clientOrderId
          else observed.clientOrderId.or quote.clientOrderId := by
  obtain ⟨_, _, _, _, _, _, state, _, _, _, _, _⟩ := quote
  obtain ⟨_, clientOrderId, report, _⟩ := observed
  cases report with
  | working => cases state <;> cases clientOrderId <;> rfl
  | pendingCancel | canceled | rejected => cases state <;> rfl

@[simp] theorem clientOrderId_markUnknownIfTimedOut (submitTimeoutMs cancelTimeoutMs nowMs : Nat) :
    (quote.markUnknownIfTimedOut submitTimeoutMs cancelTimeoutMs nowMs).1.clientOrderId =
      quote.clientOrderId :=
  QuoteLifecycle.field_markUnknownIfTimedOut quote (fun _ _ => rfl) _ _ _

@[simp] theorem clientOrderId_applyAuthoritativeAbsence (nowMs : Nat) :
    (quote.applyAuthoritativeAbsence nowMs).1.clientOrderId = quote.clientOrderId :=
  QuoteLifecycle.field_applyAuthoritativeAbsence quote (fun _ => rfl) (fun _ _ => rfl) nowMs

theorem keepsId_iff (event : RecordEvent) :
    (quote.clientOrderId.isSome → (event.apply quote).clientOrderId.isSome) ↔
      ¬ DropsId quote event := by
  cases event with
  | working clientOrderId nowMs =>
      exact iff_of_true (fun _ => rfl) not_false
  | pendingCancel nowMs | canceled nowMs | rejected reason nowMs | unknownOrStale reason nowMs
  | reconnectStale nowMs =>
      exact iff_of_true id not_false
  | timeoutCheck submitTimeoutMs cancelTimeoutMs nowMs =>
      refine iff_of_true ?_ not_false
      intro hsome
      rw [RecordEvent.apply, clientOrderId_markUnknownIfTimedOut]
      exact hsome
  | absence nowMs =>
      refine iff_of_true ?_ not_false
      intro hsome
      rw [RecordEvent.apply, clientOrderId_applyAuthoritativeAbsence]
      exact hsome
  | observation observed =>
      rw [RecordEvent.apply, clientOrderId_applyExchangeObservation, DropsId]
      cases hreport : observed.state with
      | rejected reason => simp
      | canceled => simp
      | pendingCancel =>
          cases observed.clientOrderId <;> simp
      | working =>
          split_ifs
          · simp
          · cases observed.clientOrderId <;> simp

end

/-- A record that has the id of its order keeps one, from any time of the run to
any later time, exactly when no pending cancel is reported without the id. -/
theorem client_order_id_kept_iff (start : WorkingQuote) (events : List RecordEvent) :
    (∀ earlier later, earlier <+: later → later <+: events →
      (exec step start earlier).clientOrderId.isSome →
        (exec step start later).clientOrderId.isSome) ↔
      Along step (fun quote event => ¬ DropsId quote event) start events := by
  refine @forall_prefixes_iff_along _ _ _ step (fun quote event => ¬ DropsId quote event)
    (fun before after => before.clientOrderId.isSome → after.clientOrderId.isSome)
    (fun _ _ => True) ?_ ?_ ?_ ?_ events start trivial
  · exact fun _ => id
  · exact fun _ _ _ hab hbc ha => hbc (hab ha)
  · exact fun _ _ _ _ => trivial
  · exact fun quote event _ _ => keepsId_iff quote event

/-- A record that went to work as `client-1` and whose cancel is reported without
that id. -/
theorem unnamed_cancel_drops_id :
    ¬ ∀ earlier later, earlier <+: later →
      later <+: [.working "client-1" 1010, .observation
        { quoteId := ⟨"quote-1"⟩, clientOrderId := none, state := .pendingCancel
          observedAtMs := 1020 }] →
      (exec step (.pendingSubmit (Tests.desiredQuote "quote-1" "0.44" "10") 1000)
          earlier).clientOrderId.isSome →
        (exec step (.pendingSubmit (Tests.desiredQuote "quote-1" "0.44" "10") 1000)
          later).clientOrderId.isSome := by
  intro h
  have hlost := h [.working "client-1" 1010] _ ⟨_, rfl⟩ List.prefix_rfl (by decide)
  exact absurd hlost (by decide)

end Rtt.RecordEvents
