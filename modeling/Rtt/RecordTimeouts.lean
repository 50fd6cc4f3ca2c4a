import Rtt.RecordEvents

namespace Rtt.RecordTimeouts

open Rtt.Quote
open Rtt.OrderState
open Rtt.OrderManager
open Rtt.Machine
open Rtt.RecordEvents

/-- A record with the times at which it last entered its pending states, and the
time of the report that made it pending cancel, if no command came since. -/
structure Timed where
  quote : WorkingQuote
  submitEnteredMs : Option Nat
  cancelEnteredMs : Option Nat
  cancelReportedMs : Option Nat

namespace Timed

def start (desired : DesiredQuote) (nowMs : Nat) : Timed :=
  { quote := .pendingSubmit desired nowMs
    submitEnteredMs := some nowMs
    cancelEnteredMs := none
    cancelReportedMs := none }

/-- The record comes into the state with this event. -/
def Enters (record : Timed) (event : RecordEvent) (state : WorkingQuoteState) : Prop :=
  record.quote.state ≠ state ∧ (event.apply record.quote).state = state

instance (record : Timed) (event : RecordEvent) (state : WorkingQuoteState) :
    Decidable (record.Enters event state) :=
  inferInstanceAs (Decidable (_ ∧ _))

/-- When the cancel that is pending was reported by the exchange, not commanded. -/
def reportedMs (record : Timed) (event : RecordEvent) : Option Nat :=
  match event with
  | .pendingCancel _ => none
  | .observation observed =>
      if record.Enters event .pendingCancel then some observed.observedAtMs
      else record.cancelReportedMs
  | _ => record.cancelReportedMs

/-- An operation, with the entry times that it sets. -/
def step (record : Timed) (event : RecordEvent) : Timed × Unit :=
  ({ quote := event.apply record.quote
     submitEnteredMs :=
       if record.Enters event .pendingSubmit then some event.atMs else record.submitEnteredMs
     cancelEnteredMs :=
       if record.Enters event .pendingCancel then some event.atMs else record.cancelEnteredMs
     cancelReportedMs := record.reportedMs event }, ())

theorem quote_exec (record : Timed) (events : List RecordEvent) :
    (exec step record events).quote = exec RecordEvents.step record.quote events :=
  exec_simulates (fun _ _ => rfl) record events

/-- When the record times out it does so in a check, and has been pending for the
time that the check allows. -/
structure Measured (record : Timed) (event : RecordEvent) : Prop where
  submit : record.Enters event (.unknownOrStale "submit_timeout") →
    ∃ submitTimeoutMs cancelTimeoutMs nowMs enteredMs,
      event = .timeoutCheck submitTimeoutMs cancelTimeoutMs nowMs ∧
        record.submitEnteredMs = some enteredMs ∧ enteredMs + submitTimeoutMs ≤ nowMs
  cancel : record.Enters event (.unknownOrStale "cancel_timeout") →
    ∃ submitTimeoutMs cancelTimeoutMs nowMs enteredMs,
      event = .timeoutCheck submitTimeoutMs cancelTimeoutMs nowMs ∧
        record.cancelEnteredMs = some enteredMs ∧ enteredMs + cancelTimeoutMs ≤ nowMs

/-- A check of a record that was reported as pending cancel comes before the
timeout after the last command, or not before the timeout after the report; and
no other operation borrows the reason of a timeout. -/
def OnTime (record : Timed) : RecordEvent → Prop
  | .timeoutCheck _ cancelTimeoutMs nowMs =>
      record.quote.state = .pendingCancel →
        ∀ reportedMs ∈ record.cancelReportedMs, ∀ commandMs ∈ record.quote.lastCommandMs,
          nowMs < commandMs + cancelTimeoutMs ∨ reportedMs + cancelTimeoutMs ≤ nowMs
  | .unknownOrStale reason _ =>
      reason = "submit_timeout" ∨ reason = "cancel_timeout" →
        record.quote.state = .unknownOrStale reason
  | _ => True

/-- Times of the past are past, a record pending its submission was last commanded
when it was created, and one pending its cancel since it entered that state, unless
the state was reported. -/
structure Clocked (record : Timed) (clockMs : Nat) : Prop where
  submit : record.quote.state = .pendingSubmit → ∃ enteredMs ≤ clockMs,
    record.submitEnteredMs = some enteredMs ∧ record.quote.lastCommandMs = some enteredMs
  cancel : record.quote.state = .pendingCancel → ∃ enteredMs ≤ clockMs, ∃ commandMs ≤ clockMs,
    record.cancelEnteredMs = some enteredMs ∧ record.quote.lastCommandMs = some commandMs ∧
      (record.cancelReportedMs = none ∧ enteredMs ≤ commandMs ∨
        record.cancelReportedMs = some enteredMs)
  command : ∃ commandMs ≤ clockMs, record.quote.lastCommandMs = some commandMs

section

variable {record : Timed} {event : RecordEvent} {clockMs : Nat}

theorem pending_cases {quote : WorkingQuote} {state : WorkingQuoteState}
    (hpending : state = .pendingSubmit ∨ state = .pendingCancel)
    (h : (event.apply quote).state = state) :
    quote.state = state ∨ state = .pendingCancel ∧
      ((∃ nowMs, event = .pendingCancel nowMs) ∨ ∃ observed, event = .observation observed) := by
  cases event with
  | working | canceled | rejected | unknownOrStale | reconnectStale =>
      obtain rfl | rfl := hpending <;> cases h
  | pendingCancel nowMs => exact Or.inr ⟨h.symm, Or.inl ⟨nowMs, rfl⟩⟩
  | timeoutCheck submitTimeoutMs cancelTimeoutMs nowMs =>
      obtain hkept | ⟨reason, -, hstale⟩ := QuoteLifecycle.markUnknownIfTimedOut_cases quote
        submitTimeoutMs cancelTimeoutMs nowMs
      · rw [RecordEvent.apply, hkept] at h
        exact Or.inl h
      · rw [RecordEvent.apply, hstale] at h
        obtain rfl | rfl := hpending <;> cases h
  | observation observed =>
      refine Or.inr ⟨hpending.resolve_left ?_, Or.inr ⟨observed, rfl⟩⟩
      rintro rfl
      rw [RecordEvent.apply, QuoteLifecycle.state_applyExchangeObservation] at h
      split at h
      · cases h
      · cases h
      · cases h
      · split_ifs at h
  | absence nowMs =>
      refine Or.inl ?_
      simp only [RecordEvent.apply, WorkingQuote.applyAuthoritativeAbsence] at h
      obtain rfl | rfl := hpending <;> split at h <;> first | cases h | exact h

theorem lastCommandMs_applyExchangeObservation (quote : WorkingQuote)
    (observed : ExchangeObservedQuote) :
    (quote.applyExchangeObservation observed).lastCommandMs = quote.lastCommandMs := by
  obtain ⟨_, _, _, _, _, _, state, _, _, _, _, _⟩ := quote
  obtain ⟨_, clientOrderId, report, _⟩ := observed
  cases report <;> cases state <;> cases clientOrderId <;> rfl

theorem step_cases (record : Timed) (event : RecordEvent) :
    (∃ nowMs, event = .pendingCancel nowMs) ∨
      (event.apply record.quote).lastCommandMs = record.quote.lastCommandMs ∧
        record.reportedMs event =
          if record.Enters event .pendingCancel then some event.atMs
          else record.cancelReportedMs := by
  by_cases hcommand : ∃ nowMs, event = .pendingCancel nowMs
  · exact Or.inl hcommand
  refine Or.inr ⟨?_, ?_⟩
  · cases event with
    | working | canceled | rejected | unknownOrStale | reconnectStale => rfl
    | pendingCancel nowMs => exact absurd ⟨nowMs, rfl⟩ hcommand
    | timeoutCheck submitTimeoutMs cancelTimeoutMs nowMs =>
        exact QuoteLifecycle.field_markUnknownIfTimedOut record.quote (fun _ _ => rfl) _ _ _
    | observation observed => exact lastCommandMs_applyExchangeObservation record.quote observed
    | absence nowMs =>
        exact QuoteLifecycle.field_applyAuthoritativeAbsence record.quote (fun _ => rfl)
          (fun _ _ => rfl) nowMs
  · by_cases hreport : ∃ observed, event = .observation observed
    · obtain ⟨observed, rfl⟩ := hreport
      rfl
    · have hstays : ¬ record.Enters event .pendingCancel := by
        rintro ⟨hbefore, hafter⟩
        obtain hwas | ⟨-, hcause⟩ := pending_cases (Or.inr rfl) hafter
        · exact hbefore hwas
        · exact hcause.elim hcommand hreport
      rw [if_neg hstays]
      cases event with
      | pendingCancel nowMs => exact absurd ⟨nowMs, rfl⟩ hcommand
      | observation observed => exact absurd ⟨observed, rfl⟩ hreport
      | working | canceled | rejected | unknownOrStale | timeoutCheck | reconnectStale
      | absence => rfl

theorem clocked_start (desired : DesiredQuote) (createdMs : Nat) :
    (start desired createdMs).Clocked createdMs := by
  constructor
  · exact fun _ => ⟨createdMs, le_rfl, rfl, rfl⟩
  · exact fun h => absurd h (by rintro ⟨⟩)
  · exact ⟨createdMs, le_rfl, rfl⟩

theorem clocked_step (hclocked : record.Clocked clockMs) (hclock : clockMs ≤ event.atMs) :
    (record.step event).1.Clocked event.atMs := by
  constructor
  · intro hstate
    have hbefore : record.quote.state = .pendingSubmit :=
      (pending_cases (Or.inl rfl) hstate).resolve_right (by rintro ⟨⟨⟩, -⟩)
    obtain ⟨enteredMs, hpast, hentered, hlast⟩ := hclocked.submit hbefore
    have hkept : (record.step event).1.submitEnteredMs = some enteredMs :=
      (if_neg fun henters => henters.1 hbefore).trans hentered
    obtain ⟨nowMs, rfl⟩ | ⟨hcommand, -⟩ := step_cases record event
    · cases hstate
    · exact ⟨enteredMs, hpast.trans hclock, hkept, hcommand.trans hlast⟩
  · intro hstate
    by_cases hbefore : record.quote.state = .pendingCancel
    · obtain ⟨enteredMs, hpast, commandMs, hcommandPast, hentered, hlast, hcause⟩ :=
        hclocked.cancel hbefore
      have hstays : ¬ record.Enters event .pendingCancel := fun henters => henters.1 hbefore
      have hkept : (record.step event).1.cancelEnteredMs = some enteredMs :=
        (if_neg hstays).trans hentered
      refine ⟨enteredMs, hpast.trans hclock, ?_⟩
      obtain ⟨nowMs, rfl⟩ | ⟨hcommand, hreport⟩ := step_cases record event
      · exact ⟨nowMs, le_rfl, hkept, rfl, Or.inl ⟨rfl, hpast.trans hclock⟩⟩
      · refine ⟨commandMs, hcommandPast.trans hclock, hkept, hcommand.trans hlast, ?_⟩
        have hreported : (record.step event).1.cancelReportedMs = record.cancelReportedMs :=
          hreport.trans (if_neg hstays)
        rwa [hreported]
    · have henters : record.Enters event .pendingCancel := ⟨hbefore, hstate⟩
      refine ⟨event.atMs, le_rfl, ?_⟩
      obtain ⟨nowMs, rfl⟩ | ⟨hcommand, hreport⟩ := step_cases record event
      · exact ⟨nowMs, le_rfl, if_pos henters, rfl, Or.inl ⟨rfl, le_rfl⟩⟩
      · obtain ⟨commandMs, hcommandPast, hlast⟩ := hclocked.command
        exact ⟨commandMs, hcommandPast.trans hclock, if_pos henters, hcommand.trans hlast,
          Or.inr (hreport.trans (if_pos henters))⟩
  · obtain ⟨nowMs, rfl⟩ | ⟨hcommand, -⟩ := step_cases record event
    · exact ⟨nowMs, le_rfl, rfl⟩
    · obtain ⟨commandMs, hcommandPast, hlast⟩ := hclocked.command
      exact ⟨commandMs, hcommandPast.trans hclock, hcommand.trans hlast⟩

theorem state_timeoutCheck {quote : WorkingQuote} {submitTimeoutMs cancelTimeoutMs nowMs
    commandMs : Nat} (hlast : quote.lastCommandMs = some commandMs) (hpast : commandMs ≤ nowMs) :
    (quote.markUnknownIfTimedOut submitTimeoutMs cancelTimeoutMs nowMs).1.state =
      match quote.state with
      | .pendingSubmit =>
          if commandMs + submitTimeoutMs ≤ nowMs then .unknownOrStale "submit_timeout"
          else .pendingSubmit
      | .pendingCancel =>
          if commandMs + cancelTimeoutMs ≤ nowMs then .unknownOrStale "cancel_timeout"
          else .pendingCancel
      | state => state := by
  have hlate : ∀ timeoutMs, nowMs - commandMs ≥ timeoutMs ↔ commandMs + timeoutMs ≤ nowMs := by
    intro timeoutMs
    omega
  simp only [WorkingQuote.markUnknownIfTimedOut, hlast, hlate]
  cases hstate : quote.state with
  | pendingSubmit | pendingCancel =>
      simp only
      split_ifs
      · rfl
      · exact hstate
  | working | canceled | rejected | unknownOrStale => exact hstate

section

variable {submitTimeoutMs cancelTimeoutMs nowMs commandMs : Nat}

theorem enters_submit_timeout_iff (hlast : record.quote.lastCommandMs = some commandMs)
    (hpast : commandMs ≤ nowMs) :
    record.Enters (.timeoutCheck submitTimeoutMs cancelTimeoutMs nowMs)
        (.unknownOrStale "submit_timeout") ↔
      record.quote.state = .pendingSubmit ∧ commandMs + submitTimeoutMs ≤ nowMs := by
  rw [Enters, RecordEvent.apply, state_timeoutCheck hlast hpast]
  cases record.quote.state with
  | pendingCancel => by_cases hlate : commandMs + cancelTimeoutMs ≤ nowMs <;> simp [hlate]
  | pendingSubmit | working | canceled | rejected | unknownOrStale => simp

theorem enters_cancel_timeout_iff (hlast : record.quote.lastCommandMs = some commandMs)
    (hpast : commandMs ≤ nowMs) :
    record.Enters (.timeoutCheck submitTimeoutMs cancelTimeoutMs nowMs)
        (.unknownOrStale "cancel_timeout") ↔
      record.quote.state = .pendingCancel ∧ commandMs + cancelTimeoutMs ≤ nowMs := by
  rw [Enters, RecordEvent.apply, state_timeoutCheck hlast hpast]
  cases record.quote.state with
  | pendingSubmit => by_cases hlate : commandMs + submitTimeoutMs ≤ nowMs <;> simp [hlate]
  | pendingCancel | working | canceled | rejected | unknownOrStale => simp

theorem measured_timeoutCheck_iff (hclocked : record.Clocked clockMs) (hclock : clockMs ≤ nowMs) :
    record.Measured (.timeoutCheck submitTimeoutMs cancelTimeoutMs nowMs) ↔
      record.OnTime (.timeoutCheck submitTimeoutMs cancelTimeoutMs nowMs) := by
  obtain ⟨commandMs, hcommandPast, hlast⟩ := hclocked.command
  have hpast : commandMs ≤ nowMs := hcommandPast.trans hclock
  constructor
  · intro hmeasured hbefore reportedMs hreported commandMs' hcommand
    obtain rfl : commandMs = commandMs' := Option.some_inj.mp (hlast.symm.trans hcommand)
    by_cases hlate : commandMs + cancelTimeoutMs ≤ nowMs
    · obtain ⟨_, _, _, enteredMs, ⟨⟩, hentered, hafter⟩ :=
        hmeasured.cancel ((enters_cancel_timeout_iff hlast hpast).mpr ⟨hbefore, hlate⟩)
      obtain ⟨enteredMs', -, _, -, hentered', -, hcause⟩ := hclocked.cancel hbefore
      obtain rfl : enteredMs = enteredMs' := Option.some_inj.mp (hentered.symm.trans hentered')
      refine Or.inr ?_
      obtain ⟨hnone, -⟩ | hsome := hcause
      · cases hnone.symm.trans hreported
      · obtain rfl : enteredMs = reportedMs := Option.some_inj.mp (hsome.symm.trans hreported)
        exact hafter
    · exact Or.inl (not_le.mp hlate)
  · intro honTime
    constructor
    · intro henters
      obtain ⟨hbefore, hlate⟩ := (enters_submit_timeout_iff hlast hpast).mp henters
      obtain ⟨enteredMs, -, hentered, hcommand⟩ := hclocked.submit hbefore
      obtain rfl : commandMs = enteredMs := Option.some_inj.mp (hlast.symm.trans hcommand)
      exact ⟨_, _, _, commandMs, rfl, hentered, hlate⟩
    · intro henters
      obtain ⟨hbefore, hlate⟩ := (enters_cancel_timeout_iff hlast hpast).mp henters
      obtain ⟨enteredMs, -, commandMs', -, hentered, hcommand, hcause⟩ := hclocked.cancel hbefore
      obtain rfl : commandMs = commandMs' := Option.some_inj.mp (hlast.symm.trans hcommand)
      refine ⟨_, _, _, enteredMs, rfl, hentered, ?_⟩
      obtain ⟨-, hbeforeCommand⟩ | hsome := hcause
      · exact (Nat.add_le_add_right hbeforeCommand cancelTimeoutMs).trans hlate
      · exact (honTime hbefore enteredMs hsome commandMs hlast).resolve_left (not_lt.mpr hlate)

end

theorem timeout_cases {quote : WorkingQuote} {reason : String}
    (htimeout : reason = "submit_timeout" ∨ reason = "cancel_timeout")
    (h : (event.apply quote).state = .unknownOrStale reason) :
    quote.state = .unknownOrStale reason ∨ (∃ nowMs, event = .unknownOrStale reason nowMs) ∨
      ∃ submitTimeoutMs cancelTimeoutMs nowMs,
        event = .timeoutCheck submitTimeoutMs cancelTimeoutMs nowMs := by
  cases event with
  | working | canceled | rejected | pendingCancel => cases h
  | unknownOrStale reason nowMs =>
      cases h
      exact Or.inr (Or.inl ⟨nowMs, rfl⟩)
  | timeoutCheck submitTimeoutMs cancelTimeoutMs nowMs =>
      exact Or.inr (Or.inr ⟨submitTimeoutMs, cancelTimeoutMs, nowMs, rfl⟩)
  | reconnectStale nowMs =>
      cases h
      exact absurd htimeout (by decide)
  | observation observed =>
      rw [RecordEvent.apply, QuoteLifecycle.state_applyExchangeObservation] at h
      split at h
      · cases h
      · cases h
      · cases h
      · split_ifs at h
  | absence nowMs =>
      simp only [RecordEvent.apply, WorkingQuote.applyAuthoritativeAbsence] at h
      split at h
      · cases h
      · cases h
      · cases h
      · cases h
        exact absurd htimeout (by decide)
      · cases h
        exact absurd htimeout (by decide)
      · exact Or.inl h

theorem measured_of_not_timeout
    (hstale : ∀ reason nowMs, event ≠ .unknownOrStale reason nowMs)
    (hcheck : ∀ submitTimeoutMs cancelTimeoutMs nowMs,
      event ≠ .timeoutCheck submitTimeoutMs cancelTimeoutMs nowMs) : record.Measured event := by
  have hstays : ∀ reason, reason = "submit_timeout" ∨ reason = "cancel_timeout" →
      ¬ record.Enters event (.unknownOrStale reason) := by
    rintro reason htimeout ⟨hbefore, hafter⟩
    obtain hwas | ⟨nowMs, heq⟩ | ⟨_, _, nowMs, heq⟩ := timeout_cases htimeout hafter
    · exact hbefore hwas
    · exact hstale _ _ heq
    · exact hcheck _ _ _ heq
  constructor
  · exact fun henters => absurd henters (hstays _ (Or.inl rfl))
  · exact fun henters => absurd henters (hstays _ (Or.inr rfl))

theorem measured_unknownOrStale_iff {reason : String} {nowMs : Nat} :
    record.Measured (.unknownOrStale reason nowMs) ↔
      record.OnTime (.unknownOrStale reason nowMs) := by
  constructor
  · rintro ⟨hsubmit, hcancel⟩ (rfl | rfl)
    · by_contra hbefore
      obtain ⟨_, _, _, _, ⟨⟩, -⟩ := hsubmit ⟨hbefore, rfl⟩
    · by_contra hbefore
      obtain ⟨_, _, _, _, ⟨⟩, -⟩ := hcancel ⟨hbefore, rfl⟩
  · intro honTime
    constructor
    · rintro ⟨hbefore, ⟨⟩⟩
      exact absurd (honTime (Or.inl rfl)) hbefore
    · rintro ⟨hbefore, ⟨⟩⟩
      exact absurd (honTime (Or.inr rfl)) hbefore

theorem measured_iff (hclocked : record.Clocked clockMs) (hclock : clockMs ≤ event.atMs) :
    record.Measured event ↔ record.OnTime event := by
  cases event with
  | timeoutCheck submitTimeoutMs cancelTimeoutMs nowMs =>
      exact measured_timeoutCheck_iff hclocked hclock
  | unknownOrStale reason nowMs => exact measured_unknownOrStale_iff
  | working | pendingCancel | canceled | rejected | reconnectStale | observation | absence =>
      refine iff_of_true (measured_of_not_timeout ?_ ?_) trivial
      · rintro _ _ ⟨⟩
      · rintro _ _ _ ⟨⟩

end

end Timed

/-- Whenever the record times out in the run it has been pending for the timeout. -/
def TimeoutsMeasured (start : Timed) (events : List RecordEvent) : Prop :=
  ∀ pre event, pre ++ [event] <+: events → (exec Timed.step start pre).Measured event

/-- In a run on one clock, records time out only when they have been pending for
the timeout, exactly when every check of a reported cancel comes on time. -/
theorem timeouts_measured_iff (desired : DesiredQuote) (createdMs : Nat)
    {events : List RecordEvent}
    (hclock : (createdMs :: events.map RecordEvent.atMs).Pairwise (· ≤ ·)) :
    TimeoutsMeasured (.start desired createdMs) events ↔
      Along Timed.step Timed.OnTime (.start desired createdMs) events := by
  rw [TimeoutsMeasured, ← along_iff_forall_prefix]
  refine @along_congr _ _ _ Timed.step Timed.Measured Timed.OnTime
    (fun record events => ∃ clockMs, record.Clocked clockMs ∧
      (clockMs :: events.map RecordEvent.atMs).Pairwise (· ≤ ·)) ?_ ?_ events _
    ⟨createdMs, Timed.clocked_start desired createdMs, hclock⟩
  · rintro record event rest ⟨clockMs, hclocked, hordered⟩
    obtain ⟨hpast, hrest⟩ := List.pairwise_cons.mp hordered
    exact ⟨event.atMs, Timed.clocked_step hclocked (hpast _ List.mem_cons_self), hrest⟩
  · rintro record event rest ⟨clockMs, hclocked, hordered⟩
    exact Timed.measured_iff hclocked ((List.pairwise_cons.mp hordered).1 _ List.mem_cons_self)

/-- Checks of a cancel that the record asked for, each on time. -/
def commandedCancel : List RecordEvent :=
  [.working "client-1" 1010, .pendingCancel 2000, .timeoutCheck 500 1000 2500,
    .timeoutCheck 500 1000 3000]

/-- The record times out a second after the cancel it asked for. -/
theorem timeouts_measured_iff_commanded :
    TimeoutsMeasured (.start (Tests.desiredQuote "quote-1" "0.44" "10") 1000)
      commandedCancel := by
  refine (timeouts_measured_iff _ 1000 (by decide)).mpr ⟨trivial, trivial, ?_, ?_, trivial⟩
  · rintro - reportedMs ⟨⟩
  · rintro - reportedMs ⟨⟩

/-- The exchange reports a cancel that the record did not ask for. -/
def reportedCancel : List RecordEvent :=
  [.working "client-1" 1100, .observation
    { quoteId := ⟨"quote-1"⟩, clientOrderId := some "client-1", state := .pendingCancel
      observedAtMs := 9000 }]

/-- The report makes the record pending cancel at 9000 and the check at 9001 gives
up on it: the timer has been running since 1000. -/
theorem reported_cancel_times_out_early :
    ¬ TimeoutsMeasured (.start (Tests.desiredQuote "quote-1" "0.44" "10") 1000)
      (reportedCancel ++ [.timeoutCheck 500 1000 9001]) := by
  intro h
  obtain ⟨_, _, _, enteredMs, ⟨⟩, hentered, hafter⟩ :=
    (h reportedCancel _ List.prefix_rfl).cancel (by decide)
  have hreported : (exec Timed.step (.start (Tests.desiredQuote "quote-1" "0.44" "10") 1000)
      reportedCancel).cancelEnteredMs = some 9000 := by decide
  obtain rfl : enteredMs = 9000 := Option.some_inj.mp (hentered.symm.trans hreported)
  omega

end Rtt.RecordTimeouts
