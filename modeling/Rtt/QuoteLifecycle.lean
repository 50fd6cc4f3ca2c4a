import Rtt.OrderState

namespace Rtt.QuoteLifecycle

open Rtt.Quote
open Rtt.OrderState

/-- The exchange says that the order is on the market. -/
def IsLiveReport : ExchangeObservedQuoteState → Bool
  | .working | .pendingCancel => true
  | .canceled | .rejected _ => false

/-- The local record says that the quote rests on the exchange. -/
def IsActive (quote : WorkingQuote) : Bool :=
  match quote.state with
  | .working | .pendingCancel => true
  | _ => false

variable (quote : WorkingQuote) (observed : ExchangeObservedQuote)

@[simp] theorem blocksConvergence_markUnknownOrStale (reason : String) (nowMs : Nat) :
    (quote.markUnknownOrStale reason nowMs).blocksConvergence = true :=
  rfl

@[simp] theorem quoteId_markUnknownOrStale (reason : String) (nowMs : Nat) :
    (quote.markUnknownOrStale reason nowMs).quoteId = quote.quoteId :=
  rfl

@[simp] theorem quoteId_markReconnectStale (nowMs : Nat) :
    (quote.markReconnectStale nowMs).quoteId = quote.quoteId :=
  rfl

@[simp] theorem blocksConvergence_markReconnectStale (nowMs : Nat) :
    (quote.markReconnectStale nowMs).blocksConvergence = true :=
  rfl

theorem not_isCancelable_of_blocksConvergence {quote : WorkingQuote}
    (h : quote.blocksConvergence = true) : quote.isCancelable = false := by
  cases hstate : quote.state <;>
    simp_all [WorkingQuote.blocksConvergence, WorkingQuote.isCancelable]

theorem markUnknownIfTimedOut_cases (submitTimeoutMs cancelTimeoutMs nowMs : Nat) :
    quote.markUnknownIfTimedOut submitTimeoutMs cancelTimeoutMs nowMs = (quote, false) ∨
      ∃ reason, (quote.state = .pendingSubmit ∨ quote.state = .pendingCancel) ∧
        quote.markUnknownIfTimedOut submitTimeoutMs cancelTimeoutMs nowMs =
          (quote.markUnknownOrStale reason nowMs, true) := by
  simp only [WorkingQuote.markUnknownIfTimedOut]
  cases quote.lastCommandMs with
  | none => exact Or.inl rfl
  | some lastCommandMs =>
      cases quote.state with
      | pendingSubmit =>
          by_cases hlate : nowMs - lastCommandMs ≥ submitTimeoutMs
          · exact Or.inr ⟨_, Or.inl rfl, if_pos hlate⟩
          · exact Or.inl (if_neg hlate)
      | pendingCancel =>
          by_cases hlate : nowMs - lastCommandMs ≥ cancelTimeoutMs
          · exact Or.inr ⟨_, Or.inr rfl, if_pos hlate⟩
          · exact Or.inl (if_neg hlate)
      | working | canceled | rejected | unknownOrStale => exact Or.inl rfl

theorem field_markUnknownIfTimedOut {α : Type} {field : WorkingQuote → α}
    (hstale : ∀ reason nowMs, field (quote.markUnknownOrStale reason nowMs) = field quote)
    (submitTimeoutMs cancelTimeoutMs nowMs : Nat) :
    field (quote.markUnknownIfTimedOut submitTimeoutMs cancelTimeoutMs nowMs).1 = field quote := by
  obtain h | ⟨reason, -, h⟩ :=
    markUnknownIfTimedOut_cases quote submitTimeoutMs cancelTimeoutMs nowMs
  · rw [h]
  · rw [h]
    exact hstale reason nowMs

@[simp] theorem quoteId_markUnknownIfTimedOut (submitTimeoutMs cancelTimeoutMs nowMs : Nat) :
    (quote.markUnknownIfTimedOut submitTimeoutMs cancelTimeoutMs nowMs).1.quoteId =
      quote.quoteId :=
  field_markUnknownIfTimedOut quote (fun _ _ => rfl) _ _ _

/-- The state after a merge.  Only a pending cancel shields itself from a
working report. -/
theorem state_applyExchangeObservation :
    (quote.applyExchangeObservation observed).state =
      match observed.state with
      | .rejected reason => .rejected reason
      | .canceled => .canceled
      | .pendingCancel => .pendingCancel
      | .working => if quote.state = .pendingCancel then .pendingCancel else .working := by
  obtain ⟨_, _, _, _, _, _, state, _, _, _, _, _⟩ := quote
  obtain ⟨_, clientOrderId, report, _⟩ := observed
  cases report with
  | working => cases state <;> cases clientOrderId <;> rfl
  | pendingCancel | canceled | rejected => cases state <;> rfl

@[simp] theorem quoteId_applyExchangeObservation :
    (quote.applyExchangeObservation observed).quoteId = quote.quoteId := by
  obtain ⟨_, _, _, _, _, _, state, _, _, _, _, _⟩ := quote
  obtain ⟨_, clientOrderId, report, _⟩ := observed
  cases report <;> cases state <;> cases clientOrderId <;> rfl

theorem isActive_applyExchangeObservation :
    IsActive (quote.applyExchangeObservation observed) = IsLiveReport observed.state := by
  simp only [IsActive, state_applyExchangeObservation]
  cases observed.state with
  | working => by_cases h : quote.state = .pendingCancel <;> simp [h, IsLiveReport]
  | pendingCancel | canceled | rejected => rfl

theorem isCancelable_applyExchangeObservation :
    (quote.applyExchangeObservation observed).isCancelable = IsLiveReport observed.state := by
  simp only [WorkingQuote.isCancelable, state_applyExchangeObservation]
  cases observed.state with
  | working => by_cases h : quote.state = .pendingCancel <;> simp [h, IsLiveReport]
  | pendingCancel | canceled | rejected => rfl

theorem blocksConvergence_applyExchangeObservation :
    (quote.applyExchangeObservation observed).blocksConvergence = false := by
  simp only [WorkingQuote.blocksConvergence, state_applyExchangeObservation]
  cases observed.state with
  | working => by_cases h : quote.state = .pendingCancel <;> simp [h]
  | pendingCancel | canceled | rejected => rfl

theorem field_applyAuthoritativeAbsence {α : Type} {field : WorkingQuote → α}
    (hcanceled : ∀ nowMs, field (quote.markCanceled nowMs) = field quote)
    (hstale : ∀ reason nowMs, field (quote.markUnknownOrStale reason nowMs) = field quote)
    (nowMs : Nat) : field (quote.applyAuthoritativeAbsence nowMs).1 = field quote := by
  simp only [WorkingQuote.applyAuthoritativeAbsence]
  split
  · exact hcanceled nowMs
  · exact hcanceled nowMs
  · exact hcanceled nowMs
  · exact hstale _ nowMs
  · exact hstale _ nowMs
  · rfl

@[simp] theorem quoteId_applyAuthoritativeAbsence (nowMs : Nat) :
    (quote.applyAuthoritativeAbsence nowMs).1.quoteId = quote.quoteId :=
  field_applyAuthoritativeAbsence quote (fun _ => rfl) (fun _ _ => rfl) nowMs

end Rtt.QuoteLifecycle
