import Rtt.TriggerFlow

namespace Rtt.FlowEnds

open Rtt.Quote
open Rtt.StrategyContract
open Rtt.ExecutionLoop
open Rtt.RelayLink
open Rtt.TriggerFlow
open Rtt.Machine

section Links

variable {μ : Type} {capacity : Nat} {link : Link μ capacity}

theorem take_cases (link : Link μ capacity) :
    (link.take = (link, none) ∧ (link.receiverGone = false → link.queue = [])) ∨
      ∃ message rest, link.queue = message :: rest ∧ link.receiverGone = false ∧
        link.take.2 = some message ∧ link.take.1.queue = rest ∧
        link.take.1.held = link.held ∧ link.take.1.senderGone = link.senderGone ∧
        link.take.1.receiverGone = false := by
  rw [Link.take]
  split
  · rename_i hgone
    exact Or.inl ⟨rfl, fun hthere => absurd (hthere.symm.trans hgone) Bool.false_ne_true⟩
  · rename_i hthere
    split
    · rename_i hqueue
      exact Or.inl ⟨rfl, fun _ => hqueue⟩
    · rename_i message rest hqueue
      exact Or.inr ⟨message, rest, hqueue, by simpa using hthere, rfl, rfl, rfl, rfl,
        by simpa using hthere⟩

theorem closeReceiver_of_gone (hgone : link.receiverGone = true) : link.closeReceiver = link := by
  rw [Link.closeReceiver, ← hgone]

theorem closeSender_of_gone (hgone : link.senderGone = true) : link.closeSender = link := by
  rw [Link.closeSender, if_neg (by simp [Link.isIdle, hgone])]

@[simp] theorem receiverGone_offer (link : Link μ capacity) (message : μ) :
    (link.offer message).receiverGone = link.receiverGone := by
  rw [Link.offer]
  split <;> rfl

@[simp] theorem senderGone_offer (link : Link μ capacity) (message : μ) :
    (link.offer message).senderGone = link.senderGone := by
  rw [Link.offer]
  split <;> rfl

@[simp] theorem receiverGone_deliver (link : Link μ capacity) :
    link.deliver.receiverGone = link.receiverGone := by
  rw [Link.deliver]
  split
  · rfl
  · split
    · rfl
    · split <;> rfl

@[simp] theorem receiverGone_closeSender (link : Link μ capacity) :
    link.closeSender.receiverGone = link.receiverGone := by
  rw [Link.closeSender]
  split <;> rfl

theorem take_ends (link : Link μ capacity) :
    link.take.1.receiverGone = link.receiverGone ∧ link.take.1.senderGone = link.senderGone := by
  obtain ⟨htake, -⟩ | ⟨message, rest, -, hthere, -, -, -, hsender, hreceiver⟩ := take_cases link
  · rw [htake]
    exact ⟨rfl, rfl⟩
  · exact ⟨hreceiver.trans hthere.symm, hsender⟩

theorem senderGone_deliver (hgone : link.senderGone = true) : link.deliver.senderGone = true := by
  rw [Link.deliver]
  split
  · exact hgone
  · split
    · rfl
    · split <;> exact hgone

theorem senderGone_closeSender (hidle : link.isIdle = true) :
    link.closeSender.senderGone = true := by
  rw [Link.closeSender, if_pos hidle]

theorem senderGone_deliver_of_receiver (hthere : link.receiverGone = false) :
    link.deliver.senderGone = link.senderGone := by
  rw [Link.deliver, hthere]
  split
  · rfl
  · split
    · rename_i hgone
      exact absurd hgone Bool.false_ne_true
    · split <;> rfl

theorem not_isEnded (hthere : link.senderGone = false) :
    ¬ link.isEnded = true := by
  simp [Link.isEnded, hthere]

end Links

variable {σ : Type} {feedCapacity : Nat} {Order Signature Request : Type}
  {strategy : Strategy σ} {config : LoopConfig} {system : System σ feedCapacity}

/-- The two ends of a task go together, and so do the loop and its channel. -/
structure Wired (system : System σ feedCapacity) : Prop where
  runner : system.snapshots.receiverGone = system.triggers.senderGone
  stamper : system.triggers.receiverGone = system.orders.senderGone
  loop : system.loop.running = true → system.orders.receiverGone = false
  body : system.inBody = true → system.loop.running = true

theorem tryRecv_ends (orders : Link TriggerMessage channelCapacity) :
    (tryRecv orders).1.receiverGone = orders.receiverGone ∧
      (tryRecv orders).1.senderGone = orders.senderGone := by
  have hends := take_ends orders
  simp only [tryRecv]
  split
  · rename_i htaken
    rwa [htaken] at hends
  · rename_i htaken
    rw [htaken] at hends
    split <;> exact hends

theorem running_of_runTurn {state : LoopState} {turn : Turn Order Signature Request}
    (hrunning : (runTurn config state turn).1.running = true) : state.running = true := by
  by_contra hstopped
  have hturn : runTurn config state turn = (state, none) := by
    rw [runTurn, if_pos (by simpa using hstopped)]
  rw [hturn] at hrunning
  exact hstopped hrunning

theorem loopBody_spec (config : LoopConfig) (hbody : system.inBody = true)
    (limiterNowNs : Nat) (outside : ClobExecutor.Outside Order Signature Request) :
    ∃ orders loop, orders.receiverGone = system.orders.receiverGone ∧
      orders.senderGone = system.orders.senderGone ∧
      (loop.running = true → system.loop.running = true) ∧
      (system.loopBody config limiterNowNs outside).1 =
        { system with orders, inBody := false }.setLoop loop := by
  obtain ⟨hreceiver, hsender⟩ := tryRecv_ends system.orders
  rw [System.loopBody, if_pos hbody]
  exact ⟨_, _, hreceiver, hsender, running_of_runTurn, rfl⟩

theorem loopBody_outside (config : LoopConfig) (hhead : system.inBody = false)
    (limiterNowNs : Nat) (outside : ClobExecutor.Outside Order Signature Request) :
    system.loopBody config limiterNowNs outside = (system, []) := by
  rw [System.loopBody, hhead]
  rfl

theorem senderGone_setLoop (system : System σ feedCapacity) (loop : LoopState) :
    (system.setLoop loop).orders.senderGone = system.orders.senderGone := by
  rw [System.setLoop]
  split <;> rfl

namespace Wired

theorem start (strategy : σ) (loop : LoopState) :
    Wired (System.start strategy loop : System σ feedCapacity) :=
  ⟨rfl, rfl, fun _ => rfl, fun hbody => absurd hbody Bool.false_ne_true⟩

theorem endRunner (h : Wired system)
    (hgone : system.triggers.isIdle = true ∨ system.triggers.senderGone = true) :
    Wired system.endRunner := by
  have hsender : system.triggers.closeSender.senderGone = true := by
    rcases hgone with hidle | hgone
    · exact senderGone_closeSender hidle
    · rwa [closeSender_of_gone hgone]
  refine ⟨hsender.symm, ?_, h.loop, h.body⟩
  exact (receiverGone_closeSender _).trans h.stamper

theorem endStamper (h : Wired system)
    (hgone : system.orders.isIdle = true ∨ system.orders.senderGone = true) :
    Wired system.endStamper := by
  have hsender : system.orders.closeSender.senderGone = true := by
    rcases hgone with hidle | hgone
    · exact senderGone_closeSender hidle
    · rwa [closeSender_of_gone hgone]
  refine ⟨h.runner, hsender.symm, ?_, h.body⟩
  intro hrunning
  exact (receiverGone_closeSender _).trans (h.loop hrunning)

theorem bridgeRecv (h : Wired system) : Wired system.bridgeRecv.1 := by
  simp only [System.bridgeRecv]
  split
  · split
    · exact { h with runner := (receiverGone_offer _ _).trans h.runner }
    all_goals exact { h with }
  · exact h

theorem runnerRecv (h : Wired system) : Wired (system.runnerRecv strategy).1 := by
  have hends := (take_ends system.snapshots).1
  simp only [System.runnerRecv]
  split
  · rename_i hidle
    split
    · rename_i snapshots snapshot htaken
      rw [htaken] at hends
      have hrunner : snapshots.receiverGone = system.triggers.senderGone := hends.trans h.runner
      split
      · refine ⟨hrunner.trans (senderGone_offer _ _).symm, ?_, h.loop, h.body⟩
        exact (receiverGone_offer _ _).trans h.stamper
      · exact { h with runner := hrunner }
    · split
      · exact h.endRunner (Or.inl hidle)
      · exact h
  · exact h

theorem runnerSend (h : Wired system) : Wired system.runnerSend := by
  simp only [System.runnerSend]
  split
  · rename_i hgone
    refine ⟨?_, ?_, h.loop, h.body⟩
    · simp only [System.endRunner, closeSender_of_gone hgone, hgone]
      rfl
    · simp only [System.endRunner, receiverGone_closeSender, receiverGone_deliver]
      exact h.stamper
  · rename_i hthere
    have hbefore : system.triggers.senderGone = false := by
      by_contra hgone
      exact hthere (senderGone_deliver (by simpa using hgone))
    refine ⟨h.runner.trans ?_, (receiverGone_deliver _).trans h.stamper, h.loop, h.body⟩
    rw [hbefore]
    exact (by simpa using hthere : system.triggers.deliver.senderGone = false).symm

theorem stampRecv (h : Wired system) (nowNs : Nat) : Wired (system.stampRecv nowNs).1 := by
  have hends := take_ends system.triggers
  simp only [System.stampRecv]
  split
  · rename_i hidle
    split
    · rename_i triggers trigger htaken
      rw [htaken] at hends
      refine ⟨h.runner.trans hends.2.symm, ?_, ?_, h.body⟩
      · exact hends.1.trans (h.stamper.trans (senderGone_offer _ _).symm)
      · exact fun hrunning => (receiverGone_offer _ _).trans (h.loop hrunning)
    · split
      · exact h.endStamper (Or.inl hidle)
      · exact h
  · exact h

theorem stampSend (h : Wired system) : Wired system.stampSend := by
  simp only [System.stampSend]
  split
  · rename_i hgone
    refine ⟨h.runner, ?_, ?_, h.body⟩
    · simp only [System.endStamper, closeSender_of_gone hgone, hgone]
      rfl
    · intro hrunning
      simp only [System.endStamper, receiverGone_closeSender, receiverGone_deliver]
      exact h.loop hrunning
  · rename_i hthere
    have hbefore : system.orders.senderGone = false := by
      by_contra hgone
      exact hthere (senderGone_deliver (by simpa using hgone))
    refine ⟨h.runner, h.stamper.trans ?_, ?_, h.body⟩
    · rw [hbefore]
      exact (by simpa using hthere : system.orders.deliver.senderGone = false).symm
    · exact fun hrunning => (receiverGone_deliver _).trans (h.loop hrunning)

theorem setLoop (h : Wired system) (hhead : system.inBody = false) {loop : LoopState}
    (hrunning : loop.running = true → system.loop.running = true) :
    Wired (system.setLoop loop) where
  runner := h.runner
  stamper := h.stamper.trans (senderGone_setLoop system loop).symm
  loop hgoes := by
    change loop.running = true at hgoes
    rw [System.setLoop, if_pos hgoes]
    exact h.loop (hrunning hgoes)
  body hbody := absurd (hhead.symm.trans hbody) Bool.false_ne_true

theorem loopHead (h : Wired system) (shutdown : Bool) : Wired (system.loopHead shutdown) := by
  rw [System.loopHead]
  split
  · exact h
  · rename_i hhead
    split
    · rename_i hgoes
      exact { h with body := fun _ => (Bool.and_eq_true_iff.mp hgoes).1 }
    · exact h.setLoop (by simpa using hhead) (fun hgoes => nomatch hgoes)

theorem loopBody (h : Wired system) (limiterNowNs : Nat)
    (outside : ClobExecutor.Outside Order Signature Request) :
    Wired (system.loopBody config limiterNowNs outside).1 := by
  cases hbody : system.inBody with
  | false =>
      rw [loopBody_outside config hbody]
      exact h
  | true =>
      obtain ⟨orders, loop, hreceiver, hsender, hrunning, hafter⟩ :=
        loopBody_spec config hbody limiterNowNs outside
      rw [hafter]
      have hleft : Wired { system with orders, inBody := false } := by
        refine ⟨h.runner, h.stamper.trans hsender.symm, ?_, fun hin => nomatch hin⟩
        exact fun hgoes => hreceiver.trans (h.loop hgoes)
      exact hleft.setLoop rfl hrunning

theorem step (h : Wired system) (action : Action Order Signature Request) :
    Wired (step strategy config system action).1 := by
  cases action with
  | publish snapshot => exact { h with }
  | bridgeRecv => exact h.bridgeRecv
  | bridgeSend => exact { h with runner := (receiverGone_deliver _).trans h.runner }
  | stopBridge => exact { h with runner := (receiverGone_closeSender _).trans h.runner }
  | runnerRecv => exact h.runnerRecv
  | runnerSend => exact h.runnerSend
  | stampRecv nowNs => exact h.stampRecv nowNs
  | stampSend => exact h.stampSend
  | stopStamper =>
      rw [TriggerFlow.step, System.stopStamper]
      split
      · rename_i hidle
        exact h.endStamper (Or.inl hidle)
      · exact h
  | loopHead shutdown => exact h.loopHead shutdown
  | loopBody limiterNowNs outside => exact h.loopBody limiterNowNs outside

end Wired

theorem loop_bridgeRecv (system : System σ feedCapacity) :
    system.bridgeRecv.1.loop = system.loop := by
  simp only [System.bridgeRecv]
  split
  · split <;> rfl
  · rfl

theorem loop_runnerRecv (strategy : Strategy σ) (system : System σ feedCapacity) :
    (system.runnerRecv strategy).1.loop = system.loop := by
  simp only [System.runnerRecv]
  split
  · split
    · split <;> rfl
    · split <;> rfl
  · rfl

theorem loop_runnerSend (system : System σ feedCapacity) :
    system.runnerSend.loop = system.loop := by
  simp only [System.runnerSend]
  split <;> rfl

theorem loop_stampRecv (system : System σ feedCapacity) (nowNs : Nat) :
    (system.stampRecv nowNs).1.loop = system.loop := by
  simp only [System.stampRecv]
  split
  · split
    · rfl
    · split <;> rfl
  · rfl

theorem loop_stampSend (system : System σ feedCapacity) : system.stampSend.loop = system.loop := by
  simp only [System.stampSend]
  split <;> rfl

theorem running_loopHead {shutdown : Bool}
    (hrunning : (system.loopHead shutdown).loop.running = true) :
    system.loop.running = true := by
  rw [System.loopHead] at hrunning
  split at hrunning
  · exact hrunning
  · split at hrunning
    · exact hrunning
    · exact nomatch hrunning

theorem running_loopBody {limiterNowNs : Nat}
    {outside : ClobExecutor.Outside Order Signature Request}
    (hrunning : (system.loopBody config limiterNowNs outside).1.loop.running = true) :
    system.loop.running = true := by
  cases hbody : system.inBody with
  | false => rwa [loopBody_outside config hbody] at hrunning
  | true =>
      obtain ⟨orders, loop, -, -, hgoes, hafter⟩ :=
        loopBody_spec config hbody limiterNowNs outside
      rw [hafter] at hrunning
      exact hgoes hrunning

theorem running_of_step (action : Action Order Signature Request)
    (hrunning : (TriggerFlow.step strategy config system action).1.loop.running = true) :
    system.loop.running = true := by
  cases action with
  | publish snapshot => exact hrunning
  | bridgeRecv => rwa [TriggerFlow.step, loop_bridgeRecv] at hrunning
  | bridgeSend => exact hrunning
  | stopBridge => exact hrunning
  | runnerRecv => rwa [TriggerFlow.step, loop_runnerRecv] at hrunning
  | runnerSend => rwa [TriggerFlow.step, loop_runnerSend] at hrunning
  | stampRecv nowNs => rwa [TriggerFlow.step, loop_stampRecv] at hrunning
  | stampSend => rwa [TriggerFlow.step, loop_stampSend] at hrunning
  | stopStamper =>
      simp only [TriggerFlow.step, System.stopStamper] at hrunning
      split at hrunning
      · exact hrunning
      · exact hrunning
  | loopHead shutdown => exact running_loopHead hrunning
  | loopBody limiterNowNs outside => exact running_loopBody hrunning

/-- Nobody stops a task. -/
def IsCalm : Action Order Signature Request → Prop
  | .stopBridge | .stopStamper => False
  | _ => True

/-- No task before the loop has ended. -/
structure AllThere (system : System σ feedCapacity) : Prop where
  bridge : system.snapshots.senderGone = false
  runner : system.triggers.senderGone = false
  stamper : system.orders.senderGone = false

/-- As long as the loop runs and nobody stops a task all of them are there. -/
def Together (system : System σ feedCapacity) : Prop :=
  system.loop.running = true → AllThere system

theorem Together.step (h : Together system) (hwired : Wired system)
    {action : Action Order Signature Request} (hcalm : IsCalm action) :
    Together (TriggerFlow.step strategy config system action).1 := by
  intro hafter
  have hrunning := running_of_step action hafter
  obtain ⟨hsnapshots, htriggers, horders⟩ := h hrunning
  have hrunner := hwired.runner.trans htriggers
  have hstamper := hwired.stamper.trans horders
  cases action with
  | publish snapshot => exact ⟨hsnapshots, htriggers, horders⟩
  | bridgeRecv =>
      simp only [TriggerFlow.step, System.bridgeRecv]
      split
      · split
        · exact ⟨(senderGone_offer _ _).trans hsnapshots, htriggers, horders⟩
        all_goals exact ⟨hsnapshots, htriggers, horders⟩
      · exact ⟨hsnapshots, htriggers, horders⟩
  | bridgeSend =>
      exact ⟨(senderGone_deliver_of_receiver hrunner).trans hsnapshots, htriggers, horders⟩
  | stopBridge => exact hcalm.elim
  | runnerRecv =>
      have hends := (take_ends system.snapshots).2
      simp only [TriggerFlow.step, System.runnerRecv]
      split
      · split
        · rename_i snapshots snapshot htaken
          rw [htaken] at hends
          have hsender := hends.trans hsnapshots
          split
          · exact ⟨hsender, (senderGone_offer _ _).trans htriggers, horders⟩
          · exact ⟨hsender, htriggers, horders⟩
        · rw [if_neg (not_isEnded hsnapshots)]
          exact ⟨hsnapshots, htriggers, horders⟩
      · exact ⟨hsnapshots, htriggers, horders⟩
  | runnerSend =>
      have hsender := (senderGone_deliver_of_receiver hstamper).trans htriggers
      simp only [TriggerFlow.step, System.runnerSend, hsender]
      exact ⟨hsnapshots, hsender, horders⟩
  | stampRecv nowNs =>
      have hends := (take_ends system.triggers).2
      simp only [TriggerFlow.step, System.stampRecv]
      split
      · split
        · rename_i triggers trigger htaken
          rw [htaken] at hends
          exact ⟨hsnapshots, hends.trans htriggers, (senderGone_offer _ _).trans horders⟩
        · rw [if_neg (not_isEnded htriggers)]
          exact ⟨hsnapshots, htriggers, horders⟩
      · exact ⟨hsnapshots, htriggers, horders⟩
  | stampSend =>
      have hsender := (senderGone_deliver_of_receiver (hwired.loop hrunning)).trans horders
      simp only [TriggerFlow.step, System.stampSend, hsender]
      exact ⟨hsnapshots, htriggers, hsender⟩
  | stopStamper => exact hcalm.elim
  | loopHead shutdown =>
      simp only [TriggerFlow.step, System.loopHead]
      split
      · exact ⟨hsnapshots, htriggers, horders⟩
      · split
        · exact ⟨hsnapshots, htriggers, horders⟩
        · exact ⟨hsnapshots, htriggers, (senderGone_setLoop _ _).trans horders⟩
  | loopBody limiterNowNs outside =>
      cases hbody : system.inBody with
      | false =>
          rw [TriggerFlow.step, loopBody_outside config hbody]
          exact ⟨hsnapshots, htriggers, horders⟩
      | true =>
          obtain ⟨orders, loop, -, hsender, -, hbodyDone⟩ :=
            loopBody_spec config hbody limiterNowNs outside
          rw [TriggerFlow.step, hbodyDone]
          exact ⟨hsnapshots, htriggers, (senderGone_setLoop _ _).trans (hsender.trans horders)⟩

end Rtt.FlowEnds
