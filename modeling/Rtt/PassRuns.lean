import Rtt.ExchangeSync
import Rtt.Machine

/-!
Runs of passes in which each pass is fed the records the previous one left.  An
unknown record stays what it is, and blocks every pass, until a snapshot speaks
about its id.
-/

namespace Rtt.PassRuns

open Rtt.Quote
open Rtt.OrderState
open Rtt.OrderManager
open Rtt.QuoteLifecycle
open Rtt.ReconcilePlan
open Rtt.ExchangeSync
open Rtt.Machine

structure Pass where
  desired : DesiredQuotes
  snapshot : ExchangeSyncSnapshot
  nowMs : Nat

/-- The records of one pass are those that the next one starts from. -/
def passStep (state : LocalOrderManager × List WorkingQuote) (pass : Pass) :
    (LocalOrderManager × List WorkingQuote) × ReconciliationOutcome :=
  let result := state.1.reconcileWithExchange pass.desired state.2 pass.snapshot pass.nowMs
  ((result.1, result.2.working), result.2)

/-- The snapshot settles what became of an id: no resync is pending and it
observes the id, or is authoritative and omits it. -/
def Settles (pass : Pass) (quoteId : QuoteId) : Prop :=
  pass.snapshot.resyncPending = false ∧
    (Observes pass.snapshot quoteId ∨
      pass.snapshot.authoritative = true ∧ ¬ Observes pass.snapshot quoteId)

variable {policy : ReconciliationPolicy} {quote : WorkingQuote}

theorem markUnknownIfTimedOut_of_blocks (hblocks : quote.blocksConvergence = true)
    (submitTimeoutMs cancelTimeoutMs nowMs : Nat) :
    quote.markUnknownIfTimedOut submitTimeoutMs cancelTimeoutMs nowMs = (quote, false) := by
  obtain h | ⟨reason, hpending, -⟩ :=
    markUnknownIfTimedOut_cases quote submitTimeoutMs cancelTimeoutMs nowMs
  · exact h
  · rcases hpending with hstate | hstate <;>
      simp [WorkingQuote.blocksConvergence, hstate] at hblocks

theorem passQuote_of_not_settles {pass : Pass} {earlier : List WorkingQuote}
    (hblocks : quote.blocksConvergence = true) (hopen : ¬ Settles pass quote.quoteId) :
    passQuote policy pass.snapshot pass.nowMs
      (reportFor pass.snapshot earlier quote.quoteId) quote = quote := by
  cases hresync : pass.snapshot.resyncPending with
  | true =>
      rw [passQuote_of_resyncPending hresync, not_isCancelable_of_blocksConvergence hblocks]
      rfl
  | false =>
      have hsilent : ¬ Observes pass.snapshot quote.quoteId ∧
          pass.snapshot.authoritative = false := by
        by_cases hobserves : Observes pass.snapshot quote.quoteId
        · exact absurd ⟨hresync, Or.inl hobserves⟩ hopen
        · refine ⟨hobserves, ?_⟩
          cases hauthoritative : pass.snapshot.authoritative with
          | false => rfl
          | true => exact absurd ⟨hresync, Or.inr ⟨hauthoritative, hobserves⟩⟩ hopen
      rw [passQuote_of_not_resyncPending hresync, reportFor_eq_none hsilent.1]
      simp [syncQuote, markUnknownIfTimedOut_of_blocks hblocks, hsilent.2]

theorem passStep_of_unknown {state : LocalOrderManager × List WorkingQuote} {pass : Pass}
    {k : Nat} (hquote : state.2[k]? = some quote) (hblocks : quote.blocksConvergence = true)
    (hopen : ¬ Settles pass quote.quoteId) :
    (passStep state pass).1.2[k]? = some quote ∧
      (passStep state pass).2.working[k]? = some quote ∧
      (passStep state pass).2.blocked = true ∧ (passStep state pass).2.commands = [] := by
  have hstays : (passStep state pass).2.working[k]? = some quote := by
    simp only [passStep, working_getElem?, hquote, Option.map_some,
      passQuote_of_not_settles hblocks hopen]
  obtain ⟨hcommands, hblocked⟩ :=
    plan_of_not_trusted (not_trusted_of_getElem? hstays hblocks)
  exact ⟨hstays, hstays, hblocked, hcommands⟩

theorem run_of_unknown {state : LocalOrderManager × List WorkingQuote} {passes : List Pass}
    {k : Nat} (hquote : state.2[k]? = some quote) (hblocks : quote.blocksConvergence = true)
    (hopen : ∀ pass ∈ passes, ¬ Settles pass quote.quoteId) :
    (exec passStep state passes).2[k]? = some quote ∧
      ∀ outcome ∈ outputs passStep state passes,
        outcome.working[k]? = some quote ∧ outcome.blocked = true ∧ outcome.commands = [] := by
  have halong : Along passStep (fun _ pass => ¬ Settles pass quote.quoteId) state passes :=
    along_forall_iff.mpr hopen
  constructor
  · exact exec_invariant (I := fun s => s.2[k]? = some quote)
      (fun s pass hs hpass => (passStep_of_unknown hs hblocks hpass).1) hquote halong
  · exact outputs_forall (I := fun s => s.2[k]? = some quote)
      (fun s pass hs hpass => (passStep_of_unknown hs hblocks hpass).1)
      (fun s pass hs hpass => (passStep_of_unknown hs hblocks hpass).2) hquote halong

theorem passStep_of_resyncPending {state : LocalOrderManager × List WorkingQuote}
    {pass : Pass} {k : Nat} (hresync : pass.snapshot.resyncPending = true)
    (hquote : state.2[k]? = some quote) (hcancelable : quote.isCancelable = true) :
    (passStep state pass).1.2[k]? =
      some (quote.markReconnectStale pass.snapshot.observedAtMs) := by
  simp only [passStep, working_getElem?, hquote, Option.map_some,
    passQuote_of_resyncPending hresync, hcancelable, if_true]

theorem blocking_persists :
    (∀ (state : LocalOrderManager × List WorkingQuote) (passes : List Pass) (k : Nat)
        (quote : WorkingQuote),
      state.2[k]? = some quote → quote.blocksConvergence = true →
      (∀ pass ∈ passes, ¬ Settles pass quote.quoteId) →
      (exec passStep state passes).2[k]? = some quote ∧
        ∀ outcome ∈ outputs passStep state passes,
          outcome.working[k]? = some quote ∧ outcome.blocked = true ∧
            outcome.commands = []) ∧
    ∀ (state : LocalOrderManager × List WorkingQuote) (passes : List Pass) (pass : Pass),
      pass.snapshot.resyncPending = true →
      (passStep (exec passStep state passes) pass).2.commands = [] ∧
        (passStep (exec passStep state passes) pass).2.blocked = true ∧
        ∀ (k : Nat) (quote : WorkingQuote),
          (exec passStep state passes).2[k]? = some quote → quote.isCancelable = true →
          ∃ stale, (passStep (exec passStep state passes) pass).2.working[k]? = some stale ∧
            stale.quoteId = quote.quoteId ∧ stale.blocksConvergence = true := by
  constructor
  · intro state passes k quote hquote hblocks hopen
    exact run_of_unknown hquote hblocks hopen
  · intro state passes pass hresync
    obtain ⟨hcommands, hblocked⟩ := plan_of_resyncPending (exec passStep state passes).1
      pass.desired (exec passStep state passes).2 pass.nowMs hresync
    refine ⟨hcommands, hblocked, fun k quote hquote hcancelable => ?_⟩
    exact ⟨_, passStep_of_resyncPending hresync hquote hcancelable, rfl, rfl⟩

def restingQuote : WorkingQuote := Tests.workingQuote "quote-1" "0.44" "10" 1000

def lostQuote : WorkingQuote := restingQuote.markUnknownOrStale "injected" 1200

def silentPass : Pass := { desired := ⟨[]⟩, snapshot := {}, nowMs := 7000 }

def reconnectPass : Pass := { silentPass with snapshot := { resyncPending := true } }

theorem blocking_persists_lostQuote :
    (∀ outcome ∈ outputs passStep (LocalOrderManager.new {}, [lostQuote])
        [silentPass, reconnectPass, silentPass],
      outcome.working[0]? = some lostQuote ∧ outcome.blocked = true ∧
        outcome.commands = []) ∧
      ∃ stale, (passStep (LocalOrderManager.new {}, [restingQuote]) reconnectPass).2.working[0]? =
          some stale ∧
        stale.quoteId = restingQuote.quoteId ∧ stale.blocksConvergence = true := by
  constructor
  · refine (blocking_persists.1 _ _ 0 lostQuote rfl rfl ?_).2
    intro pass hpass
    simp only [List.mem_cons, List.not_mem_nil, or_false] at hpass
    rcases hpass with rfl | rfl | rfl <;>
      simp [Settles, Observes, silentPass, reconnectPass]
  · exact (blocking_persists.2 (LocalOrderManager.new {}, [restingQuote]) [] reconnectPass
      rfl).2.2 0 restingQuote rfl rfl

end Rtt.PassRuns
