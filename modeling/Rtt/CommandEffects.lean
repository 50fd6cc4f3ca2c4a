import Rtt.ReconcilePlan

namespace Rtt.CommandEffects

open Rtt.Quote
open Rtt.OrderState
open Rtt.KeyIndex
open Rtt.OrderManager
open Rtt.QuoteLifecycle
open Rtt.SetReconciliation
open Rtt.ReconcilePlan

/-- How a cancelled quote is marked: canceled once the cancel is confirmed,
pending while it is in flight. -/
structure CancelMark where
  mark : WorkingQuote → Nat → WorkingQuote
  quoteId_mark : ∀ quote nowMs, (mark quote nowMs).quoteId = quote.quoteId
  blocksConvergence_mark : ∀ quote nowMs, (mark quote nowMs).blocksConvergence = false
  mark_mark : ∀ quote nowMs, mark (mark quote nowMs) nowMs = mark quote nowMs

/-- A cancel that is answered at once: the record becomes canceled. -/
def confirmed : CancelMark where
  mark := WorkingQuote.markCanceled
  quoteId_mark _ _ := rfl
  blocksConvergence_mark _ _ := rfl
  mark_mark _ _ := rfl

/-- A cancel that is under way: the record becomes pending. -/
def inFlight : CancelMark where
  mark := WorkingQuote.markPendingCancel
  quoteId_mark _ _ := rfl
  blocksConvergence_mark _ _ := rfl
  mark_mark _ _ := rfl

section

variable (how : CancelMark) (nowMs : Nat)

/-- A place writes a new pending record of its quote; a cancel marks the records it is about. -/
def applyCommand (working : List WorkingQuote) : ExecutionCommand → List WorkingQuote
  | .place desired =>
      upsert WorkingQuote.quoteId (WorkingQuote.pendingSubmit desired nowMs) working
  | .cancel quoteId =>
      working.map fun quote => if quote.quoteId = quoteId then how.mark quote nowMs else quote
  | .cancelAll =>
      working.map fun quote => if quote.isCancelable then how.mark quote nowMs else quote

def applyCommands (working : List WorkingQuote) (commands : List ExecutionCommand) :
    List WorkingQuote :=
  commands.foldl (applyCommand how nowMs) working

/-- The records after a plan made from them has been carried out. -/
def recorded (self : LocalOrderManager) (desired : DesiredQuotes) (working : List WorkingQuote) :
    List WorkingQuote :=
  applyCommands how nowMs working (self.reconcile desired working nowMs).commands

/-- What a command does to the record of one quote. -/
def applyToRecord (quoteId : QuoteId) (kept : Option WorkingQuote) :
    ExecutionCommand → Option WorkingQuote
  | .place desired =>
      if desired.quoteId = quoteId then some (WorkingQuote.pendingSubmit desired nowMs)
      else kept
  | .cancel cancelled =>
      kept.map fun quote => if quoteId = cancelled then how.mark quote nowMs else quote
  | .cancelAll =>
      kept.map fun quote => if quote.isCancelable then how.mark quote nowMs else quote

end

variable {how : CancelMark} {self : LocalOrderManager} {desired : DesiredQuotes}
  {working : List WorkingQuote} {nowMs : Nat}

theorem record_applyCommand (working : List WorkingQuote) (command : ExecutionCommand)
    (quoteId : QuoteId) :
    record (applyCommand how nowMs working command) quoteId =
      applyToRecord how nowMs quoteId (record working quoteId) command := by
  cases command with
  | place desired =>
      simp only [record, applyCommand, applyToRecord, lastWith_upsert]
      congr 1
  | cancel cancelled =>
      simp only [record, applyCommand, applyToRecord]
      rw [lastWith_map fun quote => by split <;> simp [how.quoteId_mark]]
      cases hrecord : lastWith WorkingQuote.quoteId quoteId working with
      | none => rfl
      | some quote => simp only [Option.map_some, (mem_of_lastWith hrecord).2]
  | cancelAll =>
      simp only [record, applyCommand, applyToRecord]
      rw [lastWith_map fun quote => by split <;> simp [how.quoteId_mark]]

theorem record_applyCommands (working : List WorkingQuote) (commands : List ExecutionCommand)
    (quoteId : QuoteId) :
    record (applyCommands how nowMs working commands) quoteId =
      commands.foldl (applyToRecord how nowMs quoteId) (record working quoteId) := by
  induction commands generalizing working with
  | nil => rfl
  | cons command rest ih =>
      simp only [applyCommands, List.foldl_cons]
      rw [← record_applyCommand]
      exact ih _

theorem nodup_applyCommands (commands : List ExecutionCommand)
    (hdistinct : (working.map WorkingQuote.quoteId).Nodup) :
    ((applyCommands how nowMs working commands).map WorkingQuote.quoteId).Nodup := by
  induction commands generalizing working with
  | nil => exact hdistinct
  | cons command rest ih =>
      apply ih
      cases command with
      | place desired => exact nodup_map_upsert _ hdistinct
      | cancel | cancelAll =>
          simp only [applyCommand]
          rw [map_key_map fun quote => by split <;> simp [how.quoteId_mark]]
          exact hdistinct

theorem trusted_applyCommands (commands : List ExecutionCommand) (htrusted : Trusted working) :
    Trusted (applyCommands how nowMs working commands) := by
  induction commands generalizing working with
  | nil => exact htrusted
  | cons command rest ih =>
      apply ih
      intro quote hmem
      cases command with
      | place desired =>
          rcases mem_of_mem_upsert hmem with rfl | hold
          · rfl
          · exact htrusted quote hold
      | cancel | cancelAll =>
          obtain ⟨old, hold, rfl⟩ := List.mem_map.mp hmem
          split
          · exact how.blocksConvergence_mark old nowMs
          · exact htrusted old hold

theorem nodup_recorded (hdistinct : (working.map WorkingQuote.quoteId).Nodup) :
    ((recorded how nowMs self desired working).map WorkingQuote.quoteId).Nodup :=
  nodup_applyCommands _ hdistinct

theorem trusted_recorded (htrusted : Trusted working) :
    Trusted (recorded how nowMs self desired working) :=
  trusted_applyCommands _ htrusted

theorem foldl_applyToRecord_of_not_placed {commands : List ExecutionCommand}
    {quoteId : QuoteId} {kept : Option WorkingQuote}
    (hplaced : ∀ desiredQuote, .place desiredQuote ∈ commands →
      desiredQuote.quoteId ≠ quoteId)
    (hall : .cancelAll ∉ commands) :
    commands.foldl (applyToRecord how nowMs quoteId) kept =
      kept.map fun quote =>
        if .cancel quoteId ∈ commands then how.mark quote nowMs else quote := by
  induction commands generalizing kept with
  | nil => simp
  | cons command rest ih =>
      rw [List.foldl_cons, ih (fun d hd => hplaced d (List.mem_cons_of_mem _ hd))
        (fun h => hall (List.mem_cons_of_mem _ h))]
      cases command with
      | place desiredQuote =>
          simp [applyToRecord, hplaced desiredQuote List.mem_cons_self]
      | cancel cancelled =>
          cases kept with
          | none => rfl
          | some quote =>
              by_cases hid : quoteId = cancelled
              · by_cases hrest : ExecutionCommand.cancel quoteId ∈ rest <;>
                  simp [applyToRecord, hid, how.mark_mark]
              · simp [applyToRecord, hid]
      | cancelAll => exact absurd List.mem_cons_self hall

theorem not_placed_of_not_issued (htrusted : Trusted working) {quoteId : QuoteId}
    (hissued : quoteId ∉ (situation self desired working nowMs).issued)
    (desiredQuote : DesiredQuote)
    (hmem : .place desiredQuote ∈ (self.reconcile desired working nowMs).commands) :
    desiredQuote.quoteId ≠ quoteId := by
  rintro rfl
  exact hissued ((place_mem_iff htrusted).mp hmem).1

theorem foldl_applyToRecord_of_placed {commands : List ExecutionCommand}
    {desiredQuote : DesiredQuote}
    (honly : ∀ command ∈ commands, ∃ placed, command = .place placed ∧
      (placed.quoteId = desiredQuote.quoteId → placed = desiredQuote)) :
    commands.foldl (applyToRecord how nowMs desiredQuote.quoteId)
        (some (WorkingQuote.pendingSubmit desiredQuote nowMs)) =
      some (WorkingQuote.pendingSubmit desiredQuote nowMs) := by
  induction commands with
  | nil => rfl
  | cons command rest ih =>
      obtain ⟨placed, rfl, hsame⟩ := honly command List.mem_cons_self
      have hkept : applyToRecord how nowMs desiredQuote.quoteId
          (some (WorkingQuote.pendingSubmit desiredQuote nowMs)) (.place placed) =
            some (WorkingQuote.pendingSubmit desiredQuote nowMs) := by
        simp only [applyToRecord]
        split
        · rename_i hid
          rw [hsame hid]
        · rfl
      rw [List.foldl_cons, hkept]
      exact ih fun command hmem => honly command (List.mem_cons_of_mem _ hmem)

theorem record_of_issued (htrusted : Trusted working) {quoteId : QuoteId}
    {desiredQuote : DesiredQuote}
    (hissued : quoteId ∈ (situation self desired working nowMs).issued)
    (hwanted : wanted desired quoteId = some desiredQuote) :
    record (recorded how nowMs self desired working) quoteId =
      some (WorkingQuote.pendingSubmit desiredQuote nowMs) := by
  obtain rfl := (mem_of_lastWith hwanted).2
  have hplace := (place_mem_iff htrusted).mpr ⟨hissued, hwanted⟩
  obtain ⟨before, after, hsplit⟩ := List.append_of_mem hplace
  have honly : ∀ command ∈ after, ∃ placed, command = .place placed ∧
      (placed.quoteId = desiredQuote.quoteId → placed = desiredQuote) := by
    intro command hmem
    have hlast := places_come_last self desired nowMs htrusted
    rw [hsplit] at hlast
    have htail := (List.pairwise_cons.mp (List.pairwise_append.mp hlast).2.1).1
    obtain ⟨placed, rfl⟩ := htail command hmem ⟨desiredQuote, rfl⟩
    refine ⟨placed, rfl, fun hid => ?_⟩
    have hplaced : .place placed ∈ (self.reconcile desired working nowMs).commands := by
      rw [hsplit]
      simp [hmem]
    have hwanted' := ((place_mem_iff htrusted).mp hplaced).2
    rw [hid, hwanted] at hwanted'
    exact (Option.some.inj hwanted').symm
  have hplaced : ∀ kept, applyToRecord how nowMs desiredQuote.quoteId kept
      (.place desiredQuote) = some (WorkingQuote.pendingSubmit desiredQuote nowMs) :=
    fun _ => if_pos rfl
  rw [recorded, record_applyCommands, hsplit, List.foldl_append, List.foldl_cons, hplaced]
  exact foldl_applyToRecord_of_placed honly

theorem record_of_withdrawn (htrusted : Trusted working) {quoteId : QuoteId}
    (hissued : quoteId ∉ (situation self desired working nowMs).issued)
    (hwithdrawn : quoteId ∈ (situation self desired working nowMs).withdrawn) :
    record (recorded how nowMs self desired working) quoteId =
      (record working quoteId).map fun quote => how.mark quote nowMs := by
  rw [recorded, record_applyCommands]
  rcases (cancel_mem_iff htrusted).mpr hwithdrawn with hcancel | ⟨hall, -⟩
  · have hnone : .cancelAll ∉ (self.reconcile desired working nowMs).commands := by
      intro hall
      rw [(commands_of_cancelAll_mem htrusted hall).1] at hcancel
      simp at hcancel
    rw [foldl_applyToRecord_of_not_placed (not_placed_of_not_issued htrusted hissued) hnone]
    simp only [hcancel, if_true]
  · obtain ⟨quote, hrecord, hcancelable⟩ := hwithdrawn.1
    rw [(commands_of_cancelAll_mem htrusted hall).1, List.foldl_cons, List.foldl_nil, hrecord]
    simp only [applyToRecord, Option.map_some, hcancelable, if_true]

theorem record_of_kept (htrusted : Trusted working) {quoteId : QuoteId}
    (hissued : quoteId ∉ (situation self desired working nowMs).issued)
    (hkept : quoteId ∉ (situation self desired working nowMs).withdrawn) :
    record (recorded how nowMs self desired working) quoteId = record working quoteId := by
  rw [recorded, record_applyCommands]
  obtain ⟨hcancel, hlive⟩ := not_or.mp (mt (cancel_mem_iff htrusted).mp hkept)
  by_cases hall : .cancelAll ∈ (self.reconcile desired working nowMs).commands
  · rw [(commands_of_cancelAll_mem htrusted hall).1, List.foldl_cons, List.foldl_nil,
      applyToRecord]
    cases hrecord : record working quoteId with
    | none => rfl
    | some quote =>
        have hdead : ¬ quote.isCancelable = true := fun h => hlive ⟨hall, quote, hrecord, h⟩
        rw [Option.map_some, if_neg hdead]
  · rw [foldl_applyToRecord_of_not_placed (not_placed_of_not_issued htrusted hissued) hall]
    simp only [hcancel, if_false, Option.map_id']

end Rtt.CommandEffects
