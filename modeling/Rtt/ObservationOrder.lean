import Rtt.PassRuns

/-!
Observations that reach a local record out of order.  A record is followed
through a run in which observations are merged into it one by one or by passes,
and the question is whether an old observation can revive a finished quote.
-/

namespace Rtt.ObservationOrder

open Rtt.Quote
open Rtt.OrderState
open Rtt.OrderManager
open Rtt.QuoteLifecycle
open Rtt.ExchangeSync
open Rtt.PassRuns
open Rtt.Machine

/-- A report is merged into one record, or a whole pass is made. -/
inductive Event where
  | observe (index : Nat) (observed : ExchangeObservedQuote)
  | pass (pass : Pass)

/-- A report that met a record, with the record before and after. -/
structure Merge where
  observed : ExchangeObservedQuote
  before : WorkingQuote
  after : WorkingQuote
  deriving DecidableEq

/-- What an event leaves of the manager and the records. -/
def eventState (state : LocalOrderManager × List WorkingQuote) :
    Event → LocalOrderManager × List WorkingQuote
  | .observe index observed =>
      (state.1, state.2.modify index fun quote => quote.applyExchangeObservation observed)
  | .pass pass => (passStep state pass).1

/-- The observation that an event applies to the record at position `k`, with
the record it is applied to. -/
def delivered (k : Nat) (state : LocalOrderManager × List WorkingQuote) :
    Event → Option (ExchangeObservedQuote × WorkingQuote)
  | .observe index observed =>
      if index = k then state.2[k]?.map fun quote => (observed, quote) else none
  | .pass pass =>
      if pass.snapshot.resyncPending then none
      else state.2[k]?.bind fun quote =>
        (reportFor pass.snapshot (state.2.take k) quote.quoteId).map fun observed =>
          (observed, (quote.markUnknownIfTimedOut state.1.policy.submitTimeoutMs
            state.1.policy.cancelTimeoutMs pass.nowMs).1)

/-- The output is the merge into the record watched, if there was one. -/
def eventStep (k : Nat) (state : LocalOrderManager × List WorkingQuote) (event : Event) :
    (LocalOrderManager × List WorkingQuote) × Option Merge :=
  (eventState state event,
    (delivered k state event).bind fun merge =>
      (eventState state event).2[k]?.map fun after =>
        { observed := merge.1, before := merge.2, after })

def merges (k : Nat) (state : LocalOrderManager × List WorkingQuote) (events : List Event) :
    List Merge :=
  (outputs (eventStep k) state events).filterMap id

/-- The record says that its order is gone for good. -/
def IsFinished (quote : WorkingQuote) : Bool :=
  match quote.state with
  | .canceled | .rejected _ => true
  | _ => false

/-- Once an observation has canceled or rejected the quote, no observation that
is merged later and was made no later makes it active again. -/
def NoStaleRevival (merged : List Merge) : Prop :=
  merged.Pairwise fun earlier later =>
    IsFinished earlier.after = true →
      later.observed.observedAtMs ≤ earlier.observed.observedAtMs →
        IsActive later.before = false → IsActive later.after = false

/-- A live report reaches an inactive record only if it is newer than every
report merged before it that ended the quote. -/
def RevivedByNewer (merged : List Merge) : Prop :=
  merged.Pairwise fun earlier later =>
    IsLiveReport earlier.observed.state = false →
      IsLiveReport later.observed.state = true →
        IsActive later.before = false →
          earlier.observed.observedAtMs < later.observed.observedAtMs

instance (merged : List Merge) : Decidable (NoStaleRevival merged) :=
  inferInstanceAs (Decidable (merged.Pairwise _))

theorem isFinished_applyExchangeObservation (quote : WorkingQuote)
    (observed : ExchangeObservedQuote) :
    IsFinished (quote.applyExchangeObservation observed) = !IsLiveReport observed.state := by
  simp only [IsFinished, state_applyExchangeObservation]
  cases observed.state with
  | working => by_cases h : quote.state = .pendingCancel <;> simp [h, IsLiveReport]
  | pendingCancel | canceled | rejected => rfl

theorem getElem?_of_delivered {k : Nat} {state : LocalOrderManager × List WorkingQuote}
    {event : Event} {observed : ExchangeObservedQuote} {before : WorkingQuote}
    (h : delivered k state event = some (observed, before)) :
    (eventState state event).2[k]? = some (before.applyExchangeObservation observed) := by
  cases event with
  | observe index seen =>
      simp only [delivered] at h
      split at h
      · rename_i heq
        obtain ⟨quote, hquote, hpair⟩ := Option.map_eq_some_iff.mp h
        obtain ⟨rfl, rfl⟩ := Prod.mk.inj hpair
        simp [eventState, heq, hquote]
      · exact absurd h (by simp)
  | pass pass =>
      simp only [delivered] at h
      split at h
      · exact absurd h (by simp)
      · rename_i hresync
        obtain ⟨quote, hquote, hmap⟩ := Option.bind_eq_some_iff.mp h
        obtain ⟨report, hreport, hpair⟩ := Option.map_eq_some_iff.mp hmap
        obtain ⟨rfl, rfl⟩ := Prod.mk.inj hpair
        simp only [eventState, passStep, working_getElem?, hquote, Option.map_some, hreport,
          passQuote_of_not_resyncPending (Bool.eq_false_iff.mpr hresync)]
        rfl

theorem after_eq {k : Nat} {state : LocalOrderManager × List WorkingQuote} {event : Event}
    {merge : Merge} (h : (eventStep k state event).2 = some merge) :
    merge.after = merge.before.applyExchangeObservation merge.observed := by
  obtain ⟨⟨observed, before⟩, hdelivered, hmap⟩ := Option.bind_eq_some_iff.mp h
  rw [getElem?_of_delivered hdelivered] at hmap
  rw [← Option.some.inj hmap]

theorem after_eq_of_mem_merges {k : Nat} {state : LocalOrderManager × List WorkingQuote}
    {events : List Event} :
    ∀ merge ∈ merges k state events,
      merge.after = merge.before.applyExchangeObservation merge.observed := by
  have hall : ∀ out ∈ outputs (eventStep k) state events, ∀ merge, out = some merge →
      merge.after = merge.before.applyExchangeObservation merge.observed :=
    outputs_forall (I := fun _ => True) (fun _ _ _ _ => trivial)
      (fun _ _ _ _ _ h => after_eq h) trivial (along_true state events)
  intro merge hmem
  obtain ⟨out, hout, hsome⟩ := List.mem_filterMap.mp hmem
  exact hall out hout merge hsome

/-- Exactly when a run keeps finished quotes finished against old
observations. -/
theorem noStaleRevival_iff (k : Nat) (state : LocalOrderManager × List WorkingQuote)
    (events : List Event) :
    NoStaleRevival (merges k state events) ↔ RevivedByNewer (merges k state events) := by
  apply List.Pairwise.iff_of_mem
  intro earlier later hearlier hlater
  rw [after_eq_of_mem_merges earlier hearlier, after_eq_of_mem_merges later hlater,
    isFinished_applyExchangeObservation, isActive_applyExchangeObservation, Bool.not_eq_true']
  constructor
  · intro hsafe hended hlive hinactive
    by_contra hold
    have hdead := hsafe hended (not_lt.mp hold) hinactive
    rw [hlive] at hdead
    exact Bool.noConfusion hdead
  · intro hnewer hended hold hinactive
    by_contra hrevived
    have hlive := Bool.not_eq_false _ ▸ hrevived
    have hlt := hnewer hended hlive hinactive
    omega

def reportPass (state : ExchangeObservedQuoteState) (observedAtMs : Nat) : Pass :=
  { desired := ⟨[]⟩
    snapshot :=
      { authoritative := true
        quotes := [{ quoteId := restingQuote.quoteId, clientOrderId := restingQuote.clientOrderId
                     state, observedAtMs }]
        observedAtMs }
    nowMs := 3000 }

/-- A working report made before the cancel, but merged after it, revives the
quote. -/
theorem late_working_report_revives :
    ((merges 0 (LocalOrderManager.new {}, [restingQuote])
        [.pass (reportPass .canceled 2000), .pass (reportPass .working 1500)]).map fun merge =>
          (merge.observed.observedAtMs, merge.before.state, merge.after.state)) =
      [(2000, .working, .canceled), (1500, .canceled, .working)] ∧
    ¬ NoStaleRevival (merges 0 (LocalOrderManager.new {}, [restingQuote])
        [.pass (reportPass .canceled 2000), .pass (reportPass .working 1500)]) := by
  exact ⟨by decide, by decide⟩

end Rtt.ObservationOrder
