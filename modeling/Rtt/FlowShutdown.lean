import Rtt.FlowProgress

namespace Rtt.FlowShutdown

open Rtt.Quote
open Rtt.StrategyContract
open Rtt.Backtest
open Rtt.ExecutionLoop
open Rtt.RelayLink
open Rtt.TriggerFlow
open Rtt.FlowRuns
open Rtt.FlowEnds
open Rtt.FlowProgress
open Rtt.DispatchOnce
open Rtt.Machine
open Rtt.FairRounds

variable {σ : Type} {feedCapacity : Nat} {Order Signature Request : Type}
  {strategy : Strategy σ} {config : LoopConfig} {system : System σ feedCapacity}

/-- What happens after the signal: the loop sees it whenever it is at its head, the bridges
may notice it or go on for a while, and no more snapshots come. -/
def IsStopping : Action Order Signature Request → Prop
  | .publish _ => False
  | .loopHead shutdown => shutdown = true
  | _ => True

/-- Each task gets a turn at what it may have to do, in any order. -/
structure IsStopRound (round : List (Action Order Signature Request)) : Prop where
  bridgeSend : .bridgeSend ∈ round
  stopBridge : .stopBridge ∈ round
  runnerRecv : .runnerRecv ∈ round
  runnerSend : .runnerSend ∈ round
  stampSend : .stampSend ∈ round
  stopStamper : .stopStamper ∈ round
  loopHead : .loopHead true ∈ round
  loopBody : ∃ limiterNowNs outside, .loopBody limiterNowNs outside ∈ round

/-- The execution loop has ended and dropped its channel. -/
structure Stopped (strategy : Strategy σ) (start : σ) (system : System σ feedCapacity) : Prop where
  kept : Kept strategy start system
  running : system.loop.running = false
  dropped : system.orders.receiverGone = true

/-- Every sender has gone. -/
def Ended (system : System σ feedCapacity) : Prop := tasks system = 0

theorem alive_eq_zero {μ : Type} {capacity : Nat} {link : Link μ capacity} :
    alive link = 0 ↔ link.senderGone = true := by
  cases hgone : link.senderGone <;> simp [alive, hgone]

theorem ended_iff : Ended system ↔ system.snapshots.senderGone = true ∧
    system.triggers.senderGone = true ∧ system.orders.senderGone = true := by
  rw [Ended, tasks, Nat.add_eq_zero_iff, Nat.add_eq_zero_iff, Nat.mul_eq_zero, alive_eq_zero,
    alive_eq_zero, alive_eq_zero, and_assoc, or_iff_right two_ne_zero]

/-- After the signal the loop does not get back into its body. -/
theorem atHead_of_step {action : Action Order Signature Request} (hstopping : IsStopping action)
    (hhead : system.inBody = false) : (step strategy config system action).1.inBody = false := by
  cases action with
  | publish snapshot => exact hhead
  | bridgeRecv =>
      simp only [TriggerFlow.step, System.bridgeRecv]
      split
      · split <;> exact hhead
      · exact hhead
  | bridgeSend => exact hhead
  | stopBridge => exact hhead
  | runnerRecv =>
      simp only [TriggerFlow.step, System.runnerRecv]
      split
      · split
        · split <;> exact hhead
        · split <;> exact hhead
      · exact hhead
  | runnerSend =>
      simp only [TriggerFlow.step, System.runnerSend]
      split <;> exact hhead
  | stampRecv nowNs =>
      simp only [TriggerFlow.step, System.stampRecv]
      split
      · split
        · exact hhead
        · split <;> exact hhead
      · exact hhead
  | stampSend =>
      simp only [TriggerFlow.step, System.stampSend]
      split <;> exact hhead
  | stopStamper =>
      simp only [TriggerFlow.step, System.stopStamper]
      split <;> exact hhead
  | loopHead shutdown =>
      obtain rfl : shutdown = true := hstopping
      simp [TriggerFlow.step, System.loopHead, System.setLoop, hhead]
  | loopBody limiterNowNs outside =>
      rw [TriggerFlow.step, loopBody_outside config hhead]
      exact hhead

theorem atHead_run {actions : List (Action Order Signature Request)}
    (hstopping : ∀ action ∈ actions, IsStopping action) (hhead : system.inBody = false) :
    (exec (step strategy config) system actions).inBody = false := by
  induction actions generalizing system with
  | nil => exact hhead
  | cons action actions ih =>
      obtain ⟨hfirst, hrest⟩ := List.forall_mem_cons.mp hstopping
      exact ih hrest (atHead_of_step hfirst hhead)

theorem atHead_of_loopBody (system : System σ feedCapacity) (limiterNowNs : Nat)
    (outside : ClobExecutor.Outside Order Signature Request) :
    (system.loopBody config limiterNowNs outside).1.inBody = false := by
  cases hbody : system.inBody with
  | false => rwa [loopBody_outside config hbody]
  | true =>
      obtain ⟨orders, loop, -, -, -, hafter⟩ := loopBody_spec config hbody limiterNowNs outside
      rw [hafter]
      rfl

theorem loopHead_shutdown (hhead : system.inBody = false) :
    (system.loopHead true).loop.running = false ∧
      (system.loopHead true).orders.receiverGone = true := by
  simp [System.loopHead, System.setLoop, Link.closeReceiver, hhead]

theorem dropped_setLoop (hdropped : system.orders.receiverGone = true) (loop : LoopState) :
    (system.setLoop loop).orders.receiverGone = true := by
  rw [System.setLoop]
  split
  · exact hdropped
  · rfl

theorem dropped_of_step (hdropped : system.orders.receiverGone = true)
    (action : Action Order Signature Request) :
    (step strategy config system action).1.orders.receiverGone = true := by
  cases action with
  | publish snapshot => exact hdropped
  | bridgeRecv =>
      simp only [TriggerFlow.step, System.bridgeRecv]
      split
      · split <;> exact hdropped
      · exact hdropped
  | bridgeSend => exact hdropped
  | stopBridge => exact hdropped
  | runnerRecv =>
      simp only [TriggerFlow.step, System.runnerRecv]
      split
      · split
        · split <;> exact hdropped
        · split <;> exact hdropped
      · exact hdropped
  | runnerSend =>
      simp only [TriggerFlow.step, System.runnerSend]
      split <;> exact hdropped
  | stampRecv nowNs =>
      simp only [TriggerFlow.step, System.stampRecv]
      split
      · split
        · exact (receiverGone_offer _ _).trans hdropped
        · split
          · exact (receiverGone_closeSender _).trans hdropped
          · exact hdropped
      · exact hdropped
  | stampSend =>
      have hdelivered := (receiverGone_deliver system.orders).trans hdropped
      simp only [TriggerFlow.step, System.stampSend]
      split
      · exact (receiverGone_closeSender _).trans hdelivered
      · exact hdelivered
  | stopStamper =>
      simp only [TriggerFlow.step, System.stopStamper]
      split
      · exact (receiverGone_closeSender _).trans hdropped
      · exact hdropped
  | loopHead shutdown =>
      simp only [TriggerFlow.step, System.loopHead]
      split
      · exact hdropped
      · split
        · exact hdropped
        · exact dropped_setLoop hdropped _
  | loopBody limiterNowNs outside =>
      cases hbody : system.inBody with
      | false =>
          rw [TriggerFlow.step, loopBody_outside config hbody]
          exact hdropped
      | true =>
          obtain ⟨orders, loop, hreceiver, -, -, hafter⟩ :=
            loopBody_spec config hbody limiterNowNs outside
          rw [TriggerFlow.step, hafter]
          exact dropped_setLoop (hreceiver.trans hdropped) _

theorem Stopped.step {start : σ} (h : Stopped strategy start system)
    (action : Action Order Signature Request) :
    Stopped strategy start (TriggerFlow.step strategy config system action).1 where
  kept := h.kept.step action
  running := by
    by_contra hgoes
    have hrunning := running_of_step action (by simpa using hgoes)
    exact Bool.false_ne_true (h.running.symm.trans hrunning)
  dropped := dropped_of_step h.dropped action

theorem stopBridge_cases (system : System σ feedCapacity) :
    (system.stopBridge = system ∧ (system.snapshots.held = none →
        system.snapshots.senderGone = true)) ∨ Advances system system.stopBridge := by
  by_cases hidle : system.snapshots.isIdle = true
  · refine Or.inr ?_
    have halive := alive_closeSender hidle
    obtain ⟨hload, -⟩ := @load_closeSender _ _ 8 7 system.snapshots
    have hfeed := feedLoad_le (Nat.le_of_succ_le halive.le)
    apply Advances.of_head
    · simp only [transit, System.stopBridge]
      omega
    · simp only [transit, tasks, System.stopBridge]
      omega
    · rfl
  · refine Or.inl ⟨?_, ?_⟩
    · rw [System.stopBridge, Link.closeSender, if_neg hidle]
    · intro hheld
      by_contra hthere
      exact hidle (Carries.isIdle_iff.mpr ⟨hheld, by simpa using hthere⟩)

theorem stopStamper_cases (system : System σ feedCapacity) :
    (system.stopStamper = system ∧ (system.orders.held = none →
        system.orders.senderGone = true)) ∨ Advances system system.stopStamper := by
  by_cases hidle : system.orders.isIdle = true
  · rw [System.stopStamper, if_pos hidle]
    exact Or.inr (endStamper_advances hidle)
  · refine Or.inl ⟨?_, ?_⟩
    · rw [System.stopStamper, if_neg hidle]
    · intro hheld
      by_contra hthere
      exact hidle (Carries.isIdle_iff.mpr ⟨hheld, by simpa using hthere⟩)

variable {start : σ}

theorem Stopped.atHead (h : Stopped strategy start system) : system.inBody = false := by
  by_contra hbody
  have hrunning := h.kept.1.body (by simpa using hbody)
  exact Bool.false_ne_true (h.running.symm.trans hrunning)

theorem Stopped.loopHead_eq (h : Stopped strategy start system) (shutdown : Bool) :
    system.loopHead shutdown = system := by
  have hloop : { system.loop with running := false } = system.loop := by rw [← h.running]
  rw [System.loopHead, if_neg (by simp [h.atHead]), if_neg (by simp [h.running]), System.setLoop,
    hloop, h.running, closeReceiver_of_gone h.dropped]
  rfl

theorem stopping_cases (h : Stopped strategy start system)
    {action : Action Order Signature Request} (hstopping : IsStopping action) :
    (TriggerFlow.step strategy config system action).1 = system ∨
      Advances system (TriggerFlow.step strategy config system action).1 := by
  obtain ⟨hwired, past, hflows⟩ := h.kept
  cases action with
  | publish snapshot => exact hstopping.elim
  | bridgeRecv => exact (bridgeRecv_cases system).imp_left And.left
  | bridgeSend => exact (bridgeSend_cases hflows.snapshots.gone).imp_left And.left
  | stopBridge => exact (stopBridge_cases system).imp_left And.left
  | runnerRecv => exact (runnerRecv_cases strategy system).imp_left And.left
  | runnerSend => exact (runnerSend_cases hwired hflows.triggers.gone).imp_left And.left
  | stampRecv nowNs => exact (stampRecv_cases system nowNs).imp_left And.left
  | stampSend => exact (stampSend_cases hwired hflows.orders.gone).imp_left And.left
  | stopStamper => exact (stopStamper_cases system).imp_left And.left
  | loopHead shutdown => exact Or.inl (h.loopHead_eq shutdown)
  | loopBody limiterNowNs outside =>
      rw [TriggerFlow.step, loopBody_outside config h.atHead]
      exact Or.inl rfl

/-- A runner with nothing to wait for ends. -/
theorem runnerRecv_last (hidle : system.triggers.isIdle = true)
    (hended : system.snapshots.isEnded = true) :
    (system.runnerRecv strategy).1 = system.endRunner := by
  obtain ⟨htake, -⟩ | ⟨snapshot, rest, hqueue, -⟩ := take_cases system.snapshots
  · rw [System.runnerRecv, if_pos hidle, htake]
    simp only [hended, if_true]
  · exact absurd hended (by simp [Link.isEnded, hqueue])

theorem exists_stopping (h : Stopped strategy start system) (hthere : ¬ Ended system)
    {round : List (Action Order Signature Request)} (hround : IsStopRound round) :
    ∃ action ∈ round,
      Moves (TriggerFlow.step strategy config) (Stopped strategy start) Eq system action := by
  obtain ⟨⟨hwired, past, hflows⟩, -, hdropped⟩ := h
  by_contra hnone
  have hidle : ∀ action ∈ round,
      Spins system (TriggerFlow.step strategy config system action).1 := by
    intro action hmem
    by_contra hmoves
    apply hnone
    refine ⟨action, hmem, ?_⟩
    rintro _ rfl - hsame
    apply hmoves
    rw [← hsame]
    exact .refl system
  -- the end of the loop goes back through the tasks, each of which drops what it holds
  have horders : system.orders.senderGone = true := by
    apply idle_of_spins (hidle _ hround.stopStamper) (stopStamper_cases system)
    refine held_eq_none (idle_of_spins (hidle _ hround.stampSend)
      (stampSend_cases hwired hflows.orders.gone)) fun hreceiver => ?_
    exact absurd (hreceiver.symm.trans hdropped) Bool.false_ne_true
  have hstamper := hwired.stamper.trans horders
  have htriggersHeld : system.triggers.held = none := by
    refine held_eq_none (idle_of_spins (hidle _ hround.runnerSend)
      (runnerSend_cases hwired hflows.triggers.gone)) fun hreceiver => ?_
    exact absurd (hreceiver.symm.trans hstamper) Bool.false_ne_true
  have hsnapshots : system.snapshots.receiverGone = false → system.snapshots.queue = [] := by
    intro hreceiver
    apply And.left
    apply idle_of_spins (hidle _ hround.runnerRecv) (runnerRecv_cases strategy system) ?_ hreceiver
    exact Carries.isIdle_iff.mpr ⟨htriggersHeld, hwired.runner.symm.trans hreceiver⟩
  have hbridge : system.snapshots.senderGone = true := by
    apply idle_of_spins (hidle _ hround.stopBridge) (stopBridge_cases system)
    exact held_eq_none (idle_of_spins (hidle _ hround.bridgeSend)
      (bridgeSend_cases hflows.snapshots.gone)) hsnapshots
  have htriggers : system.triggers.senderGone = true := by
    by_contra hsender
    have hsender : system.triggers.senderGone = false := by simpa using hsender
    have hended : system.snapshots.isEnded = true := by
      simp [Link.isEnded, hsnapshots (hwired.runner.trans hsender), hbridge]
    have hfree := Carries.isIdle_iff.mpr ⟨htriggersHeld, hsender⟩
    have hends := hidle _ hround.runnerRecv
    rw [TriggerFlow.step, runnerRecv_last hfree hended] at hends
    exact hends.not_advances (endRunner_advances hfree)
  exact hthere (ended_iff.mpr ⟨hbridge, htriggers, horders⟩)

theorem not_isIdle {μ : Type} {capacity : Nat} {link : Link μ capacity}
    (hgone : link.senderGone = true) : ¬ link.isIdle = true := by
  simp [Link.isIdle, hgone]

theorem ended_of_step (h : Stopped strategy start system) (hended : Ended system)
    {action : Action Order Signature Request} (hstopping : IsStopping action) :
    Ended (TriggerFlow.step strategy config system action).1 := by
  obtain ⟨hbridge, hrunner, hstamper⟩ := ended_iff.mp hended
  cases action with
  | publish snapshot => exact hstopping.elim
  | bridgeRecv =>
      rw [TriggerFlow.step, System.bridgeRecv, if_neg (not_isIdle hbridge)]
      exact hended
  | bridgeSend => exact ended_iff.mpr ⟨senderGone_deliver hbridge, hrunner, hstamper⟩
  | stopBridge =>
      rw [TriggerFlow.step, System.stopBridge, closeSender_of_gone hbridge]
      exact hended
  | runnerRecv =>
      rw [TriggerFlow.step, System.runnerRecv, if_neg (not_isIdle hrunner)]
      exact hended
  | runnerSend =>
      have hgone := senderGone_deliver hrunner
      simp only [TriggerFlow.step, System.runnerSend, hgone, if_true, System.endRunner]
      rw [closeSender_of_gone hgone]
      exact ended_iff.mpr ⟨hbridge, hgone, hstamper⟩
  | stampRecv nowNs =>
      rw [TriggerFlow.step, System.stampRecv, if_neg (not_isIdle hstamper)]
      exact hended
  | stampSend =>
      have hgone := senderGone_deliver hstamper
      simp only [TriggerFlow.step, System.stampSend, hgone, if_true, System.endStamper]
      rw [closeSender_of_gone hgone]
      exact ended_iff.mpr ⟨hbridge, hrunner, hgone⟩
  | stopStamper =>
      rw [TriggerFlow.step, System.stopStamper, if_neg (not_isIdle hstamper)]
      exact hended
  | loopHead shutdown =>
      rw [TriggerFlow.step, h.loopHead_eq]
      exact hended
  | loopBody limiterNowNs outside =>
      rw [TriggerFlow.step, loopBody_outside config h.atHead]
      exact hended

theorem stopping_lowers (strategy : Strategy σ) (config : LoopConfig) (start : σ) :
    Lowers (TriggerFlow.step strategy config) (Stopped strategy start)
      (IsStopping : Action Order Signature Request → Prop) Eq
      (Ended : System σ feedCapacity → Prop) weight where
  refl _ := rfl
  trans _ _ _ := Eq.trans
  weight_le _ _ hsame := (congrArg weight hsame).ge
  keeps _ action h _ := h.step action
  stays _ _ h hstopping hended := ended_of_step h hended hstopping
  lowers _ _ h hstopping _ :=
    (stopping_cases h hstopping).imp Eq.symm fun hmoves => Or.inl hmoves.lower

theorem dispatched_of_step (strategy : Strategy σ) (config : LoopConfig)
    (system : System σ feedCapacity) (past : History)
    (action : Action Order Signature Request) :
    ∃ last : Option Dispatched,
      ((step strategy config system action).2.foldl History.add past).dispatched =
        past.dispatched ++ last.toList ∧
      (last ≠ none → system.inBody = true ∧
        (step strategy config system action).1.inBody = false) := by
  rcases step_loop strategy config system past action with
    ⟨_, -, -, hsame⟩ | ⟨limiterNowNs, outside, rfl, hbody, -, hnew⟩
  · exact ⟨none, hsame.trans (List.append_nil _).symm, fun hne => absurd rfl hne⟩
  · exact ⟨_, hnew, fun _ => ⟨hbody, atHead_of_loopBody system limiterNowNs outside⟩⟩

theorem dispatched_run {actions : List (Action Order Signature Request)}
    (hstopping : ∀ action ∈ actions, IsStopping action) (past : History) :
    ∃ last : Option Dispatched,
      ((outputs (step strategy config) system actions).flatten.foldl History.add
        past).dispatched = past.dispatched ++ last.toList ∧
      (last ≠ none → system.inBody = true) := by
  induction actions generalizing system past with
  | nil => exact ⟨none, (List.append_nil _).symm, fun hne => absurd rfl hne⟩
  | cons action actions ih =>
      obtain ⟨hfirst, hrest⟩ := List.forall_mem_cons.mp hstopping
      obtain ⟨first, hsecond, honce⟩ :=
        dispatched_of_step strategy config system past action
      obtain ⟨last, hlast, hbody⟩ := @ih (step strategy config system action).1 hrest
        ((step strategy config system action).2.foldl History.add past)
      rw [outputs, List.flatten_cons, List.foldl_append, hlast, hsecond]
      cases first with
      | none =>
          refine ⟨last, by simp, fun hne => ?_⟩
          by_contra hhead
          have hstays := @atHead_of_step _ _ _ _ _ strategy config _ _ hfirst
            (Bool.eq_false_iff.mpr hhead)
          exact Bool.false_ne_true (hstays.symm.trans (hbody hne))
      | some order =>
          obtain ⟨hin, hout⟩ := honce (Option.some_ne_none order)
          obtain rfl : last = none := by
            by_contra hne
            exact Bool.false_ne_true (hout.symm.trans (hbody hne))
          exact ⟨some order, by simp, fun _ => hin⟩

theorem atHead_of_round {round : List (Action Order Signature Request)}
    (hround : IsStopRound round) (hstopping : ∀ action ∈ round, IsStopping action) :
    (exec (step strategy config) system round).inBody = false := by
  obtain ⟨limiterNowNs, outside, hmem⟩ := hround.loopBody
  obtain ⟨before, after, rfl⟩ := List.append_of_mem hmem
  rw [exec_append, exec]
  refine atHead_run ?_ (atHead_of_loopBody _ limiterNowNs outside)
  exact fun action haction =>
    hstopping action (List.mem_append_right before (List.mem_cons_of_mem _ haction))

theorem stopped_of_round (hkept : Kept strategy start system) (hhead : system.inBody = false)
    {round : List (Action Order Signature Request)} (hround : IsStopRound round)
    (hstopping : ∀ action ∈ round, IsStopping action) :
    Stopped strategy start (exec (step strategy config) system round) := by
  obtain ⟨before, after, rfl⟩ := List.append_of_mem hround.loopHead
  rw [exec_append, exec]
  refine exec_kept (fun _ action h => h.step action) ?_ after
  have hbefore : Kept strategy start (exec (step strategy config) system before) :=
    exec_kept (fun _ action h => h.step action) hkept before
  have hthere : (exec (step strategy config) system before).inBody = false :=
    atHead_run (fun action haction => hstopping action (List.mem_append_left _ haction)) hhead
  obtain ⟨hrunning, hdropped⟩ := loopHead_shutdown hthere
  exact ⟨hbefore.step _, hrunning, hdropped⟩

theorem ended_of_rounds (hkept : Kept strategy start system)
    {rounds : List (List (Action Order Signature Request))}
    (hrounds : ∀ round ∈ rounds, IsStopRound round ∧ ∀ action ∈ round, IsStopping action)
    (hmany : 9 * feedCapacity + 3610 < rounds.length) :
    Stopped strategy start (exec (step strategy config) system rounds.flatten) ∧
      Ended (exec (step strategy config) system rounds.flatten) := by
  -- the first round takes the loop to its head, the second ends it
  rcases rounds with _ | ⟨first, _ | ⟨second, rest⟩⟩
  · exact absurd hmany (Nat.not_lt_zero _)
  · simp at hmany
  · obtain ⟨⟨hfirst, hfirstStops⟩, hlater⟩ := List.forall_mem_cons.mp hrounds
    obtain ⟨⟨hsecond, hsecondStops⟩, hrest⟩ := List.forall_mem_cons.mp hlater
    rw [List.flatten_cons, List.flatten_cons, exec_append, exec_append]
    have hback : Kept strategy start (exec (step strategy config) system first) :=
      exec_kept (fun _ action h => h.step action) hkept first
    have hstopped := @stopped_of_round _ _ _ _ _ strategy config _ _ hback
      (atHead_of_round hfirst hfirstStops) _ hsecond hsecondStops
    refine ⟨exec_kept (fun _ action h => h.step action) hstopped _, ?_⟩
    apply (stopping_lowers strategy config start).finished_of_rounds
      (fun _ h hthere _ hround => exists_stopping h hthere hround) hrest hstopped
    have hweight := weight_le (exec (step strategy config)
      (exec (step strategy config) system first) second)
    rw [List.length_cons, List.length_cons] at hmany
    omega

/-- The shutdown hangs nowhere.  Whatever was under way at the signal, if no more snapshots
come and each task gets its turns, in any order, then the loop ends and every task drops both
its channels.  After the signal one order at most is still dispatched, and none if the loop
was not in its body. -/
theorem tasks_shut_down (strategy : Strategy σ) (config : LoopConfig) (start : σ)
    (loop : LoopState) (past : List (Action Order Signature Request))
    {rounds : List (List (Action Order Signature Request))}
    (hrounds : ∀ round ∈ rounds, IsStopRound round ∧ ∀ action ∈ round, IsStopping action)
    (hmany : 9 * feedCapacity + 3610 < rounds.length) :
    let origin : System σ feedCapacity := .start start loop
    let signalled := exec (step strategy config) origin past
    let system := exec (step strategy config) origin (past ++ rounds.flatten)
    system.loop.running = false ∧
      (system.snapshots.senderGone = true ∧ system.snapshots.receiverGone = true) ∧
      (system.triggers.senderGone = true ∧ system.triggers.receiverGone = true) ∧
      (system.orders.senderGone = true ∧ system.orders.receiverGone = true) ∧
      ∃ last : Option Dispatched,
        (history strategy config origin (past ++ rounds.flatten)).dispatched =
          (history strategy config origin past).dispatched ++ last.toList ∧
        (last ≠ none → signalled.inBody = true) := by
  intro origin signalled system
  have hkept : ∀ actions : List (Action Order Signature Request),
      Kept strategy start (exec (step strategy config) origin actions) :=
    exec_kept (fun _ action h => h.step action)
      ⟨Wired.start start loop, _, flows_start strategy start loop⟩
  have hstopping : ∀ action ∈ rounds.flatten, IsStopping action := by
    intro action hmem
    obtain ⟨round, hround, haction⟩ := List.mem_flatten.mp hmem
    exact (hrounds round hround).2 action haction
  obtain ⟨hstopped, hended⟩ : Stopped strategy start system ∧ Ended system := by
    have hsystem : system = exec (step strategy config) signalled rounds.flatten :=
      exec_append origin past rounds.flatten
    rw [hsystem]
    exact ended_of_rounds (hkept past) hrounds hmany
  obtain ⟨hbridge, hrunner, hstamper⟩ := ended_iff.mp hended
  have hwired := hstopped.kept.1
  refine ⟨hstopped.running, ⟨hbridge, hwired.runner.trans hrunner⟩,
    ⟨hrunner, hwired.stamper.trans hstamper⟩, ⟨hstamper, hstopped.dropped⟩, ?_⟩
  rw [history, outputs_append, List.flatten_append, List.foldl_append]
  exact dispatched_run hstopping _

def stopRound : List (Action Unit Unit Unit) :=
  [.loopHead true, .loopBody 2000000000 accepting, .stopStamper, .stampSend, .stampRecv 100,
    .runnerSend, .runnerRecv, .stopBridge, .bridgeSend]

/-- The loop has loaded the flag when the signal comes, and the strategy runner holds a second
trigger. -/
def underWay : List (Action Unit Unit Unit) :=
  [.publish (askAt "0.50"), .bridgeRecv, .bridgeSend, .runnerRecv, .runnerSend, .stampRecv 100,
    .stampSend, .publish (askAt "0.50"), .bridgeRecv, .bridgeSend, .runnerRecv, .loopHead false]

/-- The order whose turn was under way is the last one. -/
theorem tasks_shut_down_midway :
    ∃ rounds : List (List (Action Unit Unit Unit)),
      9 * 2 + 3610 < rounds.length ∧ (∀ round ∈ rounds, round = stopRound) ∧
      let origin : System TriggerMaker 2 := .start tokenMaker oneOrderLeft
      let system := exec (step (firingStrategy askRule) liveConfig) origin
        (underWay ++ rounds.flatten)
      system.loop.running = false ∧ system.snapshots.senderGone = true ∧
        system.triggers.senderGone = true ∧ system.orders.senderGone = true ∧
        (history (firingStrategy askRule) liveConfig origin
          (underWay ++ rounds.flatten)).dispatched.length ≤ 1 := by
  obtain ⟨count, hcount⟩ : ∃ count, 4000 ≤ count := ⟨4000, le_rfl⟩
  have hrounds : ∀ round ∈ List.replicate count stopRound,
      IsStopRound round ∧ ∀ action ∈ round, IsStopping action := by
    intro round hround
    rw [List.eq_of_mem_replicate hround]
    refine ⟨⟨?_, ?_, ?_, ?_, ?_, ?_, ?_, ⟨2000000000, accepting, ?_⟩⟩, ?_⟩
    all_goals simp [stopRound, IsStopping]
  have hmany : 9 * 2 + 3610 < (List.replicate count stopRound).length := by
    rw [List.length_replicate]
    omega
  refine ⟨List.replicate count stopRound, hmany, fun _ => List.eq_of_mem_replicate, ?_⟩
  obtain ⟨hrunning, ⟨hbridge, -⟩, ⟨hrunner, -⟩, ⟨hstamper, -⟩, last, hlast, -⟩ :=
    tasks_shut_down (firingStrategy askRule) liveConfig tokenMaker oneOrderLeft underWay hrounds
      hmany
  refine ⟨hrunning, hbridge, hrunner, hstamper, ?_⟩
  have hnone : (history (firingStrategy askRule) liveConfig
      (System.start tokenMaker oneOrderLeft : System TriggerMaker 2) underWay).dispatched.length =
        0 := by
    decide
  rw [hlast, List.length_append, hnone]
  cases last <;> simp

end Rtt.FlowShutdown
