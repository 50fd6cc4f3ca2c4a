import Rtt.TraceOrder
import Rtt.WsClient

namespace Rtt.ReconnectSignals

open Rtt.MarketMessages
open Rtt.TraceOrder
open Rtt.WsClient

/-- A message of the exchange was passed on. -/
def IsDelivery : RunEvent → Prop
  | .broadcast message => isReconnected message = false
  | .attempted _ | .slept _ => False

/-- A reconnect was announced. -/
def IsSignal : RunEvent → Prop
  | .broadcast message => isReconnected message = true
  | .attempted _ | .slept _ => False

def isAttempt : RunEvent → Bool
  | .attempted _ => true
  | .broadcast _ | .slept _ => false

/-- Messages of different connections have a reconnect event between them. -/
def Signalled (trace : List RunEvent) : Prop :=
  Separated IsDelivery (fun e => isAttempt e = true) IsSignal trace

/-- At every attempt the counter shows how many attempts, this one included, have
followed an ended one. -/
def CountsReconnects (trace : List RunEvent) : Prop :=
  ∀ pre count post, trace = pre ++ .attempted count :: post → count = pre.countP isAttempt

/-- The first two connections attempted both deliver messages. -/
def FirstTwoDeliver (turns : List Turn) : Prop :=
  ∃ first second rest, attempts turns = first :: second :: rest ∧
    first.connection.delivered ≠ [] ∧ second.connection.delivered ≠ []

variable {run : WsRun} {turn : Turn} {turns : List Turn}

section Turns

theorem mem_opened {e : RunEvent} :
    e ∈ opened run turn ↔ e = .attempted run.reconnectCount ∨
      ∃ message ∈ turn.connection.delivered, e = .broadcast message := by
  simp [opened, eq_comm]

theorem separated_opened (run : WsRun) (turn : Turn) : Signalled (opened run turn) := by
  refine separated_cons _ ?_
  intro e he
  obtain ⟨message, -, rfl⟩ := List.mem_map.mp he
  exact Bool.false_ne_true

theorem not_isDelivery_opened (h : turn.connection.delivered = []) :
    ∀ e ∈ opened run turn, ¬ IsDelivery e := by
  intro e he
  rcases mem_opened.mp he with rfl | ⟨message, hmessage, -⟩
  · exact id
  · exact absurd hmessage (by simp [h])

theorem not_isDelivery_signal (event : ReconnectEvent) (delayMs : Nat) :
    ∀ e ∈ [RunEvent.broadcast (.reconnected event), .slept delayMs], ¬ IsDelivery e := by
  simp [IsDelivery, isReconnected]

theorem exists_isSignal (event : ReconnectEvent) (delayMs : Nat) :
    ∃ e ∈ [RunEvent.broadcast (.reconnected event), .slept delayMs], IsSignal e :=
  ⟨_, List.mem_cons_self, rfl⟩

theorem separated_signal (event : ReconnectEvent) (delayMs : Nat) :
    Signalled [.broadcast (.reconnected event), .slept delayMs] :=
  separated_cons _ (by simp [isAttempt])

end Turns

theorem attempts_eq_cons {first : Turn} {rest : List Turn} :
    attempts turns = first :: rest ↔ ∃ later, turns = first :: later ∧
      first.shutdownBefore = false ∧
        (first.stops = true ∧ rest = [] ∨ first.stops = false ∧ rest = attempts later) := by
  cases turns with
  | nil => simp [attempts]
  | cons turn later =>
      rcases hopen : turn.shutdownBefore <;> rcases hstops : turn.stops <;>
        simp only [attempts, hopen, hstops] <;> grind

theorem traceFrom_of_no_attempt (h : attempts turns = []) : traceFrom run turns = [] := by
  cases turns with
  | nil => rfl
  | cons turn later =>
      rcases hopen : turn.shutdownBefore with _ | _
      · rw [attempts, if_neg (by simp [hopen])] at h
        split at h <;> exact absurd h (by simp)
      · exact traceFrom_of_shutdownBefore later hopen

theorem exists_opened {first : Turn} {rest : List Turn} (hrunning : run.stopped = false)
    (h : attempts turns = first :: rest) :
    ∃ post, traceFrom run turns = opened run first ++ post := by
  obtain ⟨later, rfl, hopen, -⟩ := attempts_eq_cons.mp h
  rcases hstops : first.stops with _ | _
  · rcases hfirst : run.firstConnect with _ | _
    · obtain ⟨next, event, delayMs, -, -, htrace⟩ :=
        traceFrom_of_later later hrunning hopen hstops hfirst
      rw [htrace, List.append_assoc]
      exact ⟨_, rfl⟩
    · obtain ⟨next, -, -, -, htrace⟩ := traceFrom_of_first later hrunning hopen hstops hfirst
      exact ⟨_, htrace⟩
  · rw [traceFrom_of_stops later hrunning hopen hstops]
    exact ⟨[], by simp⟩

section Later

theorem signalled_later (hrunning : run.stopped = false) (hlater : run.firstConnect = false) :
    Signalled (traceFrom run turns) := by
  induction turns generalizing run with
  | nil => exact separated_nil
  | cons turn later ih =>
      rcases hopen : turn.shutdownBefore with _ | _
      · rcases hstops : turn.stops with _ | _
        · obtain ⟨next, event, delayMs, hnext, hnextLater, htrace⟩ :=
            traceFrom_of_later later hrunning hopen hstops hlater
          have hquiet := not_isDelivery_signal event delayMs
          rw [htrace]
          refine separated_append ?_ (ih hnext hnextLater) (.inl ?_)
          · exact separated_append (separated_opened run turn) (separated_signal event delayMs)
              (.inr (preceded_of_none hquiet))
          · exact followed_append hquiet (exists_isSignal event delayMs)
        · rw [traceFrom_of_stops later hrunning hopen hstops]
          exact separated_opened run turn
      · rw [traceFrom_of_shutdownBefore later hopen]
        exact separated_nil

theorem preceded_later (hrunning : run.stopped = false) (hlater : run.firstConnect = false)
    (h : ∀ second rest, attempts turns = second :: rest → second.connection.delivered = []) :
    Preceded IsDelivery IsSignal (traceFrom run turns) := by
  rcases hattempts : attempts turns with _ | ⟨second, rest⟩
  · rw [traceFrom_of_no_attempt hattempts]
    exact preceded_of_none (by simp)
  · have hquiet : ∀ e ∈ opened run second, ¬ IsDelivery e :=
      not_isDelivery_opened (h second rest hattempts)
    obtain ⟨later, rfl, hopen, hstops | hstops⟩ := attempts_eq_cons.mp hattempts
    · rw [traceFrom_of_stops later hrunning hopen hstops.1]
      exact preceded_of_none hquiet
    · obtain ⟨next, event, delayMs, -, -, htrace⟩ :=
        traceFrom_of_later later hrunning hopen hstops.1 hlater
      rw [htrace]
      refine preceded_append ?_ ?_
      · intro e he
        rcases List.mem_append.mp he with hopened | hsignal
        · exact hquiet e hopened
        · exact not_isDelivery_signal event delayMs e hsignal
      · obtain ⟨e, he, hsignal⟩ := exists_isSignal event delayMs
        exact ⟨e, List.mem_append_right _ he, hsignal⟩

end Later

section Start

variable {first : Turn} {later : List Turn} {next : WsRun}

theorem not_signalled_of_deliver {second : Turn} {rest : List Turn}
    (hnext : next.stopped = false) (hattempts : attempts later = second :: rest)
    (hfirst : first.connection.delivered ≠ []) (hsecond : second.connection.delivered ≠ []) :
    ¬ Signalled (opened run first ++ traceFrom next later) := by
  intro hsignalled
  obtain ⟨post, hpost⟩ := exists_opened hnext hattempts
  obtain ⟨pre, message, hdelivered⟩ :=
    (List.eq_nil_or_concat' first.connection.delivered).resolve_left hfirst
  obtain ⟨answer, answers, hanswers⟩ := List.exists_cons_of_ne_nil hsecond
  have hmessage : isReconnected message = false :=
    first.connection.delivered_feed message (by simp [hdelivered])
  have hanswer : isReconnected answer = false :=
    second.connection.delivered_feed answer (by simp [hanswers])
  obtain ⟨e, he, hsignal⟩ := hsignalled (.attempted run.reconnectCount :: pre.map .broadcast)
    (.broadcast message) [.attempted next.reconnectCount] (.broadcast answer)
    (answers.map .broadcast ++ post) (by simp [hpost, opened, hdelivered, hanswers])
    hmessage hanswer ⟨_, List.mem_singleton.mpr rfl, rfl⟩
  rw [List.mem_singleton.mp he] at hsignal
  exact hsignal

theorem signalled_opened_append_iff (hnext : next.stopped = false)
    (hnextLater : next.firstConnect = false) :
    Signalled (opened run first ++ traceFrom next later) ↔
      ¬ ∃ second rest, attempts later = second :: rest ∧
        first.connection.delivered ≠ [] ∧ second.connection.delivered ≠ [] := by
  constructor
  · rintro hsignalled ⟨second, rest, hattempts, hfirst, hsecond⟩
    exact not_signalled_of_deliver hnext hattempts hfirst hsecond hsignalled
  · intro hnone
    refine separated_append (separated_opened run first) (signalled_later hnext hnextLater) ?_
    rcases hfirst : first.connection.delivered with _ | ⟨message, messages⟩
    · exact .inl (followed_of_none (not_isDelivery_opened hfirst))
    · refine .inr (preceded_later hnext hnextLater ?_)
      intro second rest hattempts
      by_contra hsecond
      exact hnone ⟨second, rest, hattempts, by simp [hfirst], hsecond⟩

theorem signalled_iff (turns : List Turn) :
    Signalled (traceFrom .start turns) ↔ ¬ FirstTwoDeliver turns := by
  rcases hattempts : attempts turns with _ | ⟨first, rest⟩
  · rw [traceFrom_of_no_attempt hattempts]
    refine iff_of_true separated_nil ?_
    rintro ⟨first, second, rest, htwo, -⟩
    exact absurd (hattempts.symm.trans htwo) (by simp)
  · have htwo : FirstTwoDeliver turns ↔ ∃ second others, rest = second :: others ∧
        first.connection.delivered ≠ [] ∧ second.connection.delivered ≠ [] := by
      simp [FirstTwoDeliver, hattempts]
    rw [htwo]
    obtain ⟨later, rfl, hopen, ⟨hstops, rfl⟩ | ⟨hstops, rfl⟩⟩ := attempts_eq_cons.mp hattempts
    · rw [traceFrom_of_stops later rfl hopen hstops]
      exact iff_of_true (separated_opened _ first) (by simp)
    · obtain ⟨next, hnext, hnextLater, -, htrace⟩ :=
        @traceFrom_of_first .start first later rfl hopen hstops rfl
      rw [htrace]
      exact signalled_opened_append_iff hnext hnextLater

theorem countP_opened (run : WsRun) (turn : Turn) : (opened run turn).countP isAttempt = 1 := by
  have hnone : (turn.connection.delivered.map RunEvent.broadcast).countP isAttempt = 0 := by
    rw [List.countP_eq_zero]
    rintro e he
    obtain ⟨message, -, rfl⟩ := List.mem_map.mp he
    exact Bool.false_ne_true
  rw [opened, List.countP_cons_of_pos rfl, hnone]

theorem countsReconnects_opened (turn : Turn) : CountsReconnects (opened .start turn) := by
  intro pre count post hsplit
  rcases pre with _ | ⟨attempt, pre⟩
  · injection hsplit with hcount
    injection hcount with hcount
    exact hcount.symm
  · injection hsplit with _ hrest
    have hmem : RunEvent.attempted count ∈ turn.connection.delivered.map RunEvent.broadcast :=
      hrest ▸ by simp
    simp at hmem

theorem countsReconnects_iff (turns : List Turn) :
    CountsReconnects (traceFrom .start turns) ↔ (attempts turns).length ≤ 1 := by
  rcases hattempts : attempts turns with _ | ⟨first, rest⟩
  · rw [traceFrom_of_no_attempt hattempts]
    refine iff_of_true ?_ (by simp)
    intro pre count post hsplit
    exact absurd hsplit (by simp)
  · obtain ⟨later, rfl, hopen, ⟨hstops, rfl⟩ | ⟨hstops, rfl⟩⟩ := attempts_eq_cons.mp hattempts
    · rw [traceFrom_of_stops later rfl hopen hstops]
      exact iff_of_true (countsReconnects_opened first) (by simp)
    · obtain ⟨next, hnext, -, hcount, htrace⟩ :=
        @traceFrom_of_first .start first later rfl hopen hstops rfl
      rw [htrace]
      rcases hsecond : attempts later with _ | ⟨second, rest⟩
      · rw [traceFrom_of_no_attempt hsecond, List.append_nil]
        exact iff_of_true (countsReconnects_opened first) (by simp)
      · refine iff_of_false ?_ (by simp)
        obtain ⟨post, hpost⟩ := exists_opened hnext hsecond
        intro hcounts
        have hone : next.reconnectCount = (opened .start first).countP isAttempt :=
          hcounts (opened .start first) next.reconnectCount
            (second.connection.delivered.map .broadcast ++ post)
            (by rw [hpost]; rfl)
        rw [hcount, countP_opened] at hone
        exact absurd hone (by decide)

end Start

/-- Every new connection is signalled exactly when the first two attempted do not
both deliver, and the counter tells the new attempts exactly when there is none. -/
theorem reconnects_signalled_iff (turns : List Turn) :
    (Signalled (traceFrom .start turns) ↔ ¬ FirstTwoDeliver turns) ∧
      (CountsReconnects (traceFrom .start turns) ↔ (attempts turns).length ≤ 1) := by
  constructor
  · exact signalled_iff turns
  · exact countsReconnects_iff turns

/-- A connection that delivers one tick size change and ends cleanly. -/
def oneMessage : Turn where
  connection :=
    { delivered := [.tickSizeChange
        { assetId := "yes", market := "m", oldTickSize := "0.01", newTickSize := "0.001"
          timestamp := "1" }]
      closedCleanly := true
      delivered_feed := by simp [isReconnected] }
  shutdownBefore := false
  shutdownAtClose := false
  shutdownAfter := false
  nowMs := 0
  subsecNanos := 0

/-- The first drop of a connection goes unsignalled and uncounted. -/
theorem first_drop_unsignalled :
    ¬ ∀ turns : List Turn,
      Signalled (traceFrom .start turns) ∧ CountsReconnects (traceFrom .start turns) := by
  intro hall
  obtain ⟨hsignalled, -⟩ := hall [oneMessage, oneMessage]
  obtain ⟨e, he, hsignal⟩ := hsignalled [.attempted 0] _ [.attempted 0] _
    [.broadcast (.reconnected { sequence := 1, timestampMs := 0 }), .slept 1000] rfl rfl rfl
    ⟨_, List.mem_singleton.mpr rfl, rfl⟩
  rw [List.mem_singleton.mp he] at hsignal
  exact hsignal

end Rtt.ReconnectSignals
