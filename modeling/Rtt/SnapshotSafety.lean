import Rtt.PassRuns

namespace Rtt.SnapshotSafety

open Rtt.Quote
open Rtt.OrderState
open Rtt.KeyIndex
open Rtt.OrderManager
open Rtt.QuoteLifecycle
open Rtt.SetReconciliation
open Rtt.ReconcilePlan
open Rtt.ExchangeSync
open Rtt.PassRuns
open Rtt.Machine

/-- The snapshot says that the quote is on the market. -/
def LiveOnExchange (snapshot : ExchangeSyncSnapshot) (quoteId : QuoteId) : Prop :=
  ∃ observed ∈ snapshot.quotes, observed.quoteId = quoteId ∧ IsLiveReport observed.state = true

/-- No place of the quote comes before a cancel that covers it. -/
def PlacedAfterCancel (commands : List ExecutionCommand) (quoteId : QuoteId) : Prop :=
  ∀ before desiredQuote after, commands = before ++ .place desiredQuote :: after →
    desiredQuote.quoteId = quoteId → .cancel quoteId ∈ before ∨ .cancelAll ∈ before

section

variable (self : LocalOrderManager) (desired : DesiredQuotes) (working : List WorkingQuote)
  (snapshot : ExchangeSyncSnapshot) (nowMs : Nat)

/-- No quote that is live gets a second order. -/
def NoDoubleLiveOrder : Prop :=
  ∀ quoteId, LiveOnExchange snapshot quoteId →
    PlacedAfterCancel
      (self.reconcileWithExchange desired working snapshot nowMs).2.commands quoteId

/-- Some record that the snapshot does not observe is unknown after the pass. -/
def LosesTrack : Prop :=
  ∃ quote ∈ working, ¬ Observes snapshot quote.quoteId ∧
    if snapshot.authoritative then
      (quote.state = .pendingSubmit ∨ quote.state = .working) ∧
        ¬ TimedOut self.policy nowMs quote
    else quote.blocksConvergence = true ∨ TimedOut self.policy nowMs quote

/-- Every wanted id that the snapshot reports live has a record, and its last
entry in the snapshot is a live one. -/
def LiveIdsTracked : Prop :=
  ∀ quoteId, LiveOnExchange snapshot quoteId →
    (∃ desiredQuote ∈ desired.quotes, desiredQuote.quoteId = quoteId) →
    (∃ quote ∈ working, quote.quoteId = quoteId) ∧
      ∃ observed, report snapshot quoteId = some observed ∧ IsLiveReport observed.state = true

end

variable {self : LocalOrderManager} {desired : DesiredQuotes} {working : List WorkingQuote}
  {snapshot : ExchangeSyncSnapshot} {nowMs : Nat}

theorem working_getElem?_of_distinct (hdistinct : (working.map WorkingQuote.quoteId).Nodup)
    (hresync : snapshot.resyncPending = false) (k : Nat) :
    (self.reconcileWithExchange desired working snapshot nowMs).2.working[k]? =
      working[k]?.map fun quote =>
        syncQuote self.policy snapshot nowMs (report snapshot quote.quoteId) quote := by
  rw [working_getElem?]
  cases hquote : working[k]? with
  | none => rfl
  | some quote =>
      have hfresh : quote.quoteId ∉ (working.take k).map WorkingQuote.quoteId := by
        obtain ⟨hk, hget⟩ := List.getElem?_eq_some_iff.mp hquote
        rw [← List.take_append_drop k working, List.map_append] at hdistinct
        intro hmem
        refine (List.nodup_append.mp hdistinct).2.2 _ hmem _ ?_ rfl
        rw [List.drop_eq_getElem_cons hk, hget]
        simp
      simp only [Option.map_some, passQuote_of_not_resyncPending hresync, reportFor,
        if_neg hfresh]

theorem mem_working_of_distinct (hdistinct : (working.map WorkingQuote.quoteId).Nodup)
    (hresync : snapshot.resyncPending = false) {merged : WorkingQuote} :
    merged ∈ (self.reconcileWithExchange desired working snapshot nowMs).2.working ↔
      ∃ quote ∈ working,
        merged = syncQuote self.policy snapshot nowMs (report snapshot quote.quoteId) quote := by
  simp only [List.mem_iff_getElem?, working_getElem?_of_distinct hdistinct hresync,
    Option.map_eq_some_iff]
  constructor
  · rintro ⟨k, quote, hquote, rfl⟩
    exact ⟨quote, ⟨k, hquote⟩, rfl⟩
  · rintro ⟨quote, ⟨k, hquote⟩, rfl⟩
    exact ⟨k, quote, hquote, rfl⟩

variable (self desired nowMs) in
theorem trusted_iff_not_losesTrack (hdistinct : (working.map WorkingQuote.quoteId).Nodup)
    (hresync : snapshot.resyncPending = false) :
    Trusted (self.reconcileWithExchange desired working snapshot nowMs).2.working ↔
      ¬ LosesTrack self working snapshot nowMs := by
  have hiff : ∀ quote : WorkingQuote,
      (syncQuote self.policy snapshot nowMs (report snapshot quote.quoteId)
        quote).blocksConvergence = true ↔
      ¬ Observes snapshot quote.quoteId ∧
        if snapshot.authoritative then
          (quote.state = .pendingSubmit ∨ quote.state = .working) ∧
            ¬ TimedOut self.policy nowMs quote
        else quote.blocksConvergence = true ∨ TimedOut self.policy nowMs quote := by
    intro quote
    rw [← report_eq_none_iff]
    cases hreport : report snapshot quote.quoteId with
    | none =>
        rw [blocksConvergence_syncQuote_none]
        simp
    | some observed =>
        rw [(syncQuote_some observed quote).1]
        simp
  simp only [Trusted, mem_working_of_distinct hdistinct hresync, LosesTrack, not_exists, not_and]
  constructor
  · intro htrusted quote hmem hsilent hlost
    have hblocks := (hiff quote).mpr ⟨hsilent, hlost⟩
    rw [htrusted _ ⟨quote, hmem, rfl⟩] at hblocks
    exact Bool.noConfusion hblocks
  · rintro hkept merged ⟨quote, hmem, rfl⟩
    apply Bool.eq_false_iff.mpr
    intro hblocks
    obtain ⟨hsilent, hlost⟩ := (hiff quote).mp hblocks
    exact hkept quote hmem hsilent hlost

variable (self desired nowMs) in
theorem live_iff_of_observed (hdistinct : (working.map WorkingQuote.quoteId).Nodup)
    (hresync : snapshot.resyncPending = false) {quoteId : QuoteId}
    (hobserves : Observes snapshot quoteId) :
    quoteId ∈ (situation self desired
        (self.reconcileWithExchange desired working snapshot nowMs).2.working nowMs).live ↔
      (∃ quote ∈ working, quote.quoteId = quoteId) ∧
        ∃ observed, report snapshot quoteId = some observed ∧
          IsLiveReport observed.state = true := by
  obtain ⟨observed, hreport⟩ : ∃ observed, report snapshot quoteId = some observed :=
    exists_lastWith_iff.mpr hobserves
  have hdistinct' : ((self.reconcileWithExchange desired working snapshot nowMs).2.working.map
      WorkingQuote.quoteId).Nodup := by
    rw [working_quoteIds]
    exact hdistinct
  simp only [mem_live, record_eq_some_iff hdistinct',
    mem_working_of_distinct hdistinct hresync, hreport]
  constructor
  · rintro ⟨merged, ⟨⟨quote, hmem, rfl⟩, hid⟩, hcancelable⟩
    rw [quoteId_syncQuote] at hid
    rw [hid, hreport, (syncQuote_some observed quote).2.1] at hcancelable
    exact ⟨⟨quote, hmem, hid⟩, observed, rfl, hcancelable⟩
  · rintro ⟨⟨quote, hmem, hid⟩, observed', hsame, hlive⟩
    obtain rfl := Option.some.inj hsame
    refine ⟨_, ⟨⟨quote, hmem, rfl⟩, ?_⟩, ?_⟩
    · rw [quoteId_syncQuote, hid]
    · rw [hid, hreport, (syncQuote_some _ quote).2.1]
      exact hlive

theorem placedAfterCancel_iff (htrusted : Trusted working) {quoteId : QuoteId} :
    PlacedAfterCancel (self.reconcile desired working nowMs).commands quoteId ↔
      (quoteId ∈ (situation self desired working nowMs).wanted →
        quoteId ∈ (situation self desired working nowMs).live) := by
  constructor
  · rintro hafter ⟨desiredQuote, hwanted⟩
    by_contra hnotLive
    obtain rfl := (mem_of_lastWith hwanted).2
    have hplace := (place_mem_iff htrusted).mpr
      ⟨⟨⟨desiredQuote, hwanted⟩, Or.inl hnotLive⟩, hwanted⟩
    obtain ⟨before, after, hsplit⟩ := List.append_of_mem hplace
    rcases hafter before desiredQuote after hsplit rfl with hcancel | hall
    · have hin := (cancel_mem_iff htrusted).mp (Or.inl (hsplit ▸ List.mem_append_left _ hcancel))
      exact hnotLive hin.1
    · have honly := commands_of_cancelAll_mem htrusted (hsplit ▸ List.mem_append_left _ hall)
      rw [honly.1] at hplace
      simp at hplace
  · rintro hlive before desiredQuote after hsplit rfl
    have hplace : .place desiredQuote ∈ (self.reconcile desired working nowMs).commands := by
      rw [hsplit]
      simp
    obtain ⟨hissued, -⟩ := (place_mem_iff htrusted).mp hplace
    have hin := hlive hissued.1
    have hstale := hissued.2.resolve_left (not_not_intro hin)
    rcases (cancel_mem_iff htrusted).mpr ⟨hin, Or.inr hstale⟩ with hcancel | ⟨hall, -⟩
    · exact Or.inl (cancel_mem_before htrusted hsplit hcancel)
    · rw [(commands_of_cancelAll_mem htrusted hall).1] at hplace
      simp at hplace

/-- Exactly when a pass never places an id that the snapshot reports live
without cancelling it first. -/
theorem noDoubleLiveOrder_iff (hdistinct : (working.map WorkingQuote.quoteId).Nodup)
    (hresync : snapshot.resyncPending = false) :
    NoDoubleLiveOrder self desired working snapshot nowMs ↔
      LosesTrack self working snapshot nowMs ∨
        LiveIdsTracked desired working snapshot := by
  obtain ⟨hcommands, -⟩ := plan_of_not_resyncPending self desired working nowMs hresync
  have htrusted := trusted_iff_not_losesTrack self desired nowMs hdistinct hresync
  rw [NoDoubleLiveOrder, hcommands]
  by_cases htrust : Trusted
      (self.reconcileWithExchange desired working snapshot nowMs).2.working
  · rw [or_iff_right (htrusted.mp htrust), LiveIdsTracked]
    apply forall_congr'
    intro quoteId
    apply forall_congr'
    rintro ⟨observed, hmem, hid, -⟩
    rw [placedAfterCancel_iff htrust, wanted_iff,
      live_iff_of_observed self desired nowMs hdistinct hresync ⟨observed, hmem, hid⟩]
  · apply iff_of_true
    · intro quoteId _ before desiredQuote after hsplit
      rw [(reconcile_of_not_trusted htrust).1] at hsplit
      simp at hsplit
    · exact Or.inl (not_not.mp (mt htrusted.mpr htrust))

def bid : DesiredQuote := Tests.desiredQuote "quote-1" "0.44" "10"

def bidReport (state : ExchangeObservedQuoteState) : ExchangeObservedQuote :=
  { quoteId := bid.quoteId, clientOrderId := some "client-quote-1", state
    observedAtMs := 2000 }

def bidSnapshot : ExchangeSyncSnapshot :=
  { authoritative := true, quotes := [bidReport .working], observedAtMs := 2000 }

def bidRecord : WorkingQuote := Tests.workingQuote "quote-1" "0.44" "10" 1000

theorem noDoubleLiveOrder_tracked :
    NoDoubleLiveOrder (LocalOrderManager.new {}) ⟨[bid]⟩ [bidRecord] bidSnapshot 2000 := by
  refine (noDoubleLiveOrder_iff (by decide) rfl).mpr (Or.inr fun quoteId hreported _ => ?_)
  obtain ⟨observed, hmem, rfl, -⟩ := hreported
  obtain rfl := List.mem_singleton.mp hmem
  exact ⟨⟨bidRecord, by simp, rfl⟩, _, rfl, rfl⟩

/-- An order that rests on the exchange without a local record is placed a
second time. -/
theorem orphan_placed_again :
    (([] : List WorkingQuote).map WorkingQuote.quoteId).Nodup ∧
      bidSnapshot.resyncPending = false ∧
      ((LocalOrderManager.new {}).reconcileWithExchange ⟨[bid]⟩ [] bidSnapshot 2000).2.commands =
        [.place bid] ∧
      ¬ NoDoubleLiveOrder (LocalOrderManager.new {}) ⟨[bid]⟩ [] bidSnapshot 2000 := by
  have hplaced : ((LocalOrderManager.new {}).reconcileWithExchange ⟨[bid]⟩ [] bidSnapshot
      2000).2.commands = [.place bid] := by decide
  refine ⟨by simp, rfl, hplaced, fun hsafe => ?_⟩
  have hlive : LiveOnExchange bidSnapshot bid.quoteId :=
    ⟨bidReport .working, by simp [bidSnapshot], rfl, rfl⟩
  simpa using hsafe _ hlive [] bid [] hplaced rfl

section

variable (self : LocalOrderManager) (desired : DesiredQuotes) (working : List WorkingQuote)
  (snapshot : ExchangeSyncSnapshot) (nowMs : Nat)

/-- A submitted or resting quote that one snapshot omits becomes unknown, the
pass commands nothing, and neither does any later pass until a snapshot settles
the id. -/
def OneAbsenceIsNotEnough : Prop :=
  ∀ (k : Nat) (quote : WorkingQuote), working[k]? = some quote →
    (quote.state = .pendingSubmit ∨ quote.state = .working) →
    ¬ Observes snapshot quote.quoteId →
    let result := self.reconcileWithExchange desired working snapshot nowMs
    (∃ missing, result.2.working[k]? = some missing ∧ missing.blocksConvergence = true) ∧
      result.2.blocked = true ∧ result.2.commands = [] ∧
      ∀ later : List Pass, (∀ pass ∈ later, ¬ Settles pass quote.quoteId) →
        ∀ outcome ∈ outputs passStep (result.1, result.2.working) later, outcome.commands = []

end

theorem timedOut_of_pendingSubmit {policy : ReconciliationPolicy} {quote : WorkingQuote}
    (hstate : quote.state = .pendingSubmit) :
    TimedOut policy nowMs quote ↔
      ∃ last, quote.lastCommandMs = some last ∧ policy.submitTimeoutMs ≤ nowMs - last := by
  simp only [TimedOut, WorkingQuote.markUnknownIfTimedOut, hstate]
  cases quote.lastCommandMs with
  | none => simp
  | some last => by_cases hlate : policy.submitTimeoutMs ≤ nowMs - last <;> simp [hlate]

theorem not_timedOut_of_working {policy : ReconciliationPolicy} {quote : WorkingQuote}
    (hstate : quote.state = .working) : ¬ TimedOut policy nowMs quote := by
  simp only [TimedOut, WorkingQuote.markUnknownIfTimedOut, hstate]
  cases quote.lastCommandMs <;> simp

variable (self desired nowMs) in
theorem missing_getElem? (hauthoritative : snapshot.authoritative = true)
    (hresync : snapshot.resyncPending = false) {k : Nat} {quote : WorkingQuote}
    (hquote : working[k]? = some quote)
    (hopen : quote.state = .pendingSubmit ∨ quote.state = .working)
    (hsilent : ¬ Observes snapshot quote.quoteId) :
    ∃ missing, (self.reconcileWithExchange desired working snapshot nowMs).2.working[k]? =
        some missing ∧ missing.quoteId = quote.quoteId ∧
      (missing.blocksConvergence = true ↔ ¬ TimedOut self.policy nowMs quote) := by
  refine ⟨syncQuote self.policy snapshot nowMs none quote, ?_, by simp, ?_⟩
  · rw [working_getElem?, hquote, Option.map_some, passQuote_of_not_resyncPending hresync,
      reportFor_eq_none hsilent]
  · rw [blocksConvergence_syncQuote_none, hauthoritative, if_pos rfl]
    exact and_iff_right hopen

/-- Exactly when a single missing report is not enough to place again. -/
theorem oneAbsenceIsNotEnough_iff (hauthoritative : snapshot.authoritative = true)
    (hresync : snapshot.resyncPending = false) :
    OneAbsenceIsNotEnough self desired working snapshot nowMs ↔
      ∀ quote ∈ working, quote.state = .pendingSubmit →
        ¬ Observes snapshot quote.quoteId →
        ∀ last, quote.lastCommandMs = some last →
          nowMs - last < self.policy.submitTimeoutMs := by
  constructor
  · intro henough quote hmem hstate hsilent last hlast
    obtain ⟨k, hquote⟩ := List.mem_iff_getElem?.mp hmem
    obtain ⟨⟨missing, hmissing, hblocks⟩, -⟩ :=
      henough k quote hquote (Or.inl hstate) hsilent
    obtain ⟨missing', hmissing', -, hiff⟩ := missing_getElem? self desired nowMs
      hauthoritative hresync hquote (Or.inl hstate) hsilent
    obtain rfl := Option.some.inj (hmissing.symm.trans hmissing')
    by_contra hlate
    exact hiff.mp hblocks
      ((timedOut_of_pendingSubmit hstate).mpr ⟨last, hlast, not_lt.mp hlate⟩)
  · intro hintime k quote hquote hopen hsilent
    have hkept : ¬ TimedOut self.policy nowMs quote := by
      rcases hopen with hstate | hstate
      · rw [timedOut_of_pendingSubmit hstate]
        rintro ⟨last, hlast, hlate⟩
        have := hintime quote (List.mem_of_getElem? hquote) hstate hsilent last hlast
        omega
      · exact not_timedOut_of_working hstate
    obtain ⟨missing, hmissing, hid, hiff⟩ := missing_getElem? self desired nowMs
      hauthoritative hresync hquote hopen hsilent
    have hblocks := hiff.mpr hkept
    obtain ⟨hcommands, hblocked⟩ :=
      plan_of_not_trusted (not_trusted_of_getElem? hmissing hblocks)
    refine ⟨⟨missing, hmissing, hblocks⟩, hblocked, hcommands, fun later hlater => ?_⟩
    have hmissing' : ((self.reconcileWithExchange desired working snapshot nowMs).1,
      (self.reconcileWithExchange desired working snapshot nowMs).2.working).2[k]? =
        some missing := hmissing
    have hrun := run_of_unknown hmissing' hblocks (fun pass hpass => hid ▸ hlater pass hpass)
    exact fun outcome houtcome => (hrun.2 outcome houtcome).2.2

def emptySnapshot : ExchangeSyncSnapshot :=
  { authoritative := true, quotes := [], observedAtMs := 6000 }

def submittedRecord : WorkingQuote := WorkingQuote.pendingSubmit bid 1000

theorem oneAbsenceIsNotEnough_resting :
    OneAbsenceIsNotEnough (LocalOrderManager.new {}) ⟨[bid]⟩ [bidRecord] emptySnapshot 6000 := by
  apply (oneAbsenceIsNotEnough_iff rfl rfl).mpr
  intro quote hmem hstate
  obtain rfl := List.mem_singleton.mp hmem
  exact absurd hstate (by decide)

/-- When the submit timeout runs out in the pass that misses the quote, the
record goes straight to canceled and the quote is placed again. -/
theorem submitted_placed_again :
    submittedRecord.state = .pendingSubmit ∧ emptySnapshot.authoritative = true ∧
      emptySnapshot.resyncPending = false ∧ ¬ Observes emptySnapshot submittedRecord.quoteId ∧
      ((LocalOrderManager.new {}).reconcileWithExchange ⟨[bid]⟩ [submittedRecord] emptySnapshot
        6000).2.commands = [.place bid] ∧
      ¬ OneAbsenceIsNotEnough (LocalOrderManager.new {}) ⟨[bid]⟩ [submittedRecord]
        emptySnapshot 6000 := by
  have hplaced : ((LocalOrderManager.new {}).reconcileWithExchange ⟨[bid]⟩ [submittedRecord]
      emptySnapshot 6000).2.commands = [.place bid] := by decide
  have hsilent : ¬ Observes emptySnapshot submittedRecord.quoteId := by
    simp [Observes, emptySnapshot]
  refine ⟨rfl, rfl, rfl, hsilent, hplaced, fun henough => ?_⟩
  have hnone := (henough 0 submittedRecord rfl (Or.inl rfl) hsilent).2.2.1
  rw [hplaced] at hnone
  exact absurd hnone (by simp)

end Rtt.SnapshotSafety
