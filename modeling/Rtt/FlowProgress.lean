import Rtt.DispatchOnce
import Rtt.FairRounds
import Rtt.FlowEnds

namespace Rtt.FlowProgress

open Rtt.Quote
open Rtt.PublicEvent (OrderBookSnapshot)
open Rtt.StrategyContract
open Rtt.Backtest
open Rtt.ReplayTriggers
open Rtt.ExecutionLoop
open Rtt.RelayLink
open Rtt.TriggerFlow
open Rtt.FlowRuns
open Rtt.FlowEnds
open Rtt.DispatchOnce
open Rtt.Machine
open Rtt.FairRounds

section Links

variable {μ : Type} {capacity : Nat}

/-- The steps that the messages of a link still have before them.  Nobody waits for those
in the queue of a receiver that has gone. -/
def load (link : Link μ capacity) (perHeld perQueued : Nat) : Nat :=
  (if link.held.isSome then perHeld else 0) +
    if link.receiverGone then 0 else perQueued * link.queue.length

def alive (link : Link μ capacity) : Nat := if link.senderGone then 0 else 1

variable {link : Link μ capacity} {perHeld perQueued : Nat}

theorem deliver_cases {gap : Nat} (hgap : perQueued + gap = perHeld)
    (hgone : link.senderGone = true → link.held = none) :
    (link.deliver = link ∧
        (link.held ≠ none → link.receiverGone = false ∧ capacity ≤ link.queue.length)) ∨
      (load link.deliver perHeld perQueued + gap ≤ load link perHeld perQueued ∧
        alive link.deliver ≤ alive link) := by
  cases hheld : link.held with
  | none => exact Or.inl ⟨by simp [Link.deliver, hheld], by simp⟩
  | some message =>
      have hthere : link.senderGone = false := by
        by_contra hsender
        rw [hgone (by simpa using hsender)] at hheld
        simp at hheld
      cases hreceiver : link.receiverGone with
      | true =>
          refine Or.inr ?_
          simp [Link.deliver, hheld, hreceiver, load, alive]
          omega
      | false =>
          by_cases hroom : link.queue.length < capacity
          · refine Or.inr ?_
            simp [Link.deliver, hheld, hreceiver, hroom, load, alive, hthere]
            rw [Nat.mul_add]
            omega
          · refine Or.inl ⟨?_, fun _ => ⟨rfl, not_lt.mp hroom⟩⟩
            simp [Link.deliver, hheld, hreceiver, hroom]

theorem load_take (hthere : link.receiverGone = false) {message : μ} {rest : List μ}
    (hqueue : link.queue = message :: rest) (htaken : link.take.1.queue = rest)
    (hheld : link.take.1.held = link.held) (hstays : link.take.1.receiverGone = false) :
    load link.take.1 perHeld perQueued + perQueued = load link perHeld perQueued := by
  simp only [load, hheld, hstays, htaken, hthere, hqueue, List.length_cons, Nat.mul_add]
  simp
  omega

theorem sender_there (hgoes : ¬ link.isEnded = true) (hqueue : link.queue = []) :
    link.senderGone = false := by
  simpa [Link.isEnded, hqueue] using hgoes

theorem load_offer (hidle : link.isIdle = true) (message : μ) :
    load (link.offer message) perHeld perQueued = load link perHeld perQueued + perHeld ∧
      alive (link.offer message) = alive link := by
  have hheld := (Carries.isIdle_iff.mp hidle).1
  rw [Link.offer, if_pos hidle]
  simp only [load, alive, hheld]
  simp
  omega

theorem load_closeReceiver_le (link : Link μ capacity) :
    load link.closeReceiver perHeld perQueued ≤ load link perHeld perQueued ∧
      alive link.closeReceiver = alive link := by
  refine ⟨?_, rfl⟩
  simp only [load, Link.closeReceiver, if_true]
  exact Nat.add_le_add_left (Nat.zero_le _) _

theorem load_closeSender (link : Link μ capacity) :
    load link.closeSender perHeld perQueued = load link perHeld perQueued ∧
      alive link.closeSender ≤ alive link := by
  rw [Link.closeSender]
  split
  · exact ⟨rfl, Nat.zero_le _⟩
  · exact ⟨rfl, le_rfl⟩

theorem alive_closeSender (hidle : link.isIdle = true) :
    alive link.closeSender + 1 = alive link := by
  have hthere := (Carries.isIdle_iff.mp hidle).2
  rw [Link.closeSender, if_pos hidle]
  simp [alive, hthere]

end Links

variable {σ : Type} {feedCapacity : Nat} {Order Signature Request : Type}
  {strategy : Strategy σ} {config : LoopConfig} {system : System σ feedCapacity}

/-- The bridge of snapshots has the feed before it. -/
def feedLoad (system : System σ feedCapacity) : Nat :=
  if system.snapshots.senderGone then 0
  else 9 * system.feed.backlog.length + if 0 < system.feed.missed then 1 else 0

/-- The weight of the messages under way. -/
def transit (system : System σ feedCapacity) : Nat :=
  feedLoad system + load system.snapshots 8 7 + load system.triggers 6 5 + load system.orders 4 2

/-- The end of the trigger bridge counts twice, as the loop has to learn of it. -/
def tasks (system : System σ feedCapacity) : Nat :=
  alive system.snapshots + alive system.triggers + 2 * alive system.orders

/-- `try_recv` would find the channel of the loop empty. -/
def isWaiting (system : System σ feedCapacity) : Bool :=
  system.orders.queue.isEmpty && !system.orders.senderGone

/-- The way of the loop from its head to its body. -/
def headLoad (system : System σ feedCapacity) : Nat :=
  if system.inBody || isWaiting system then 0 else 1

/-- Everything that is still to do before the tasks come to rest. -/
def weight (system : System σ feedCapacity) : Nat :=
  transit system + tasks system + headLoad system

/-- Something has come on, and nothing has come up, but for a task that ended. -/
structure Advances (before after : System σ feedCapacity) : Prop where
  transit_le : transit after ≤ transit before
  lower : weight after < weight before

theorem headLoad_le (system : System σ feedCapacity) : headLoad system ≤ 1 := by
  rw [headLoad]
  split <;> omega

theorem headLoad_congr {before after : System σ feedCapacity}
    (hbody : after.inBody = before.inBody) (hqueue : after.orders.queue = before.orders.queue)
    (hsender : after.orders.senderGone = before.orders.senderGone) :
    headLoad after = headLoad before := by
  rw [headLoad, headLoad, isWaiting, isWaiting, hbody, hqueue, hsender]

theorem Advances.of_head {before after : System σ feedCapacity}
    (htransit : transit after ≤ transit before)
    (hlower : transit after + tasks after < transit before + tasks before)
    (hhead : headLoad after = headLoad before) : Advances before after := by
  refine ⟨htransit, ?_⟩
  rw [weight, weight, hhead]
  exact Nat.add_lt_add_right hlower _

/-- The loop goes round while there is nothing for it in its channel. -/
def Spins (before after : System σ feedCapacity) : Prop :=
  ∃ inBody, after = { before with inBody } ∧
    (isWaiting before = false → inBody = before.inBody)

namespace Spins

theorem refl (system : System σ feedCapacity) : Spins system system :=
  ⟨system.inBody, rfl, fun _ => rfl⟩

variable {before middle after : System σ feedCapacity}

theorem trans (h : Spins before middle) (hnext : Spins middle after) : Spins before after := by
  obtain ⟨first, rfl, hfirst⟩ := h
  obtain ⟨second, rfl, hsecond⟩ := hnext
  exact ⟨second, rfl, fun hbusy => (hsecond hbusy).trans (hfirst hbusy)⟩

theorem weight_eq (h : Spins before after) : weight after = weight before := by
  obtain ⟨inBody, rfl, hbusy⟩ := h
  have hhead : headLoad { before with inBody } = headLoad before := by
    rw [headLoad, headLoad]
    change (if inBody || isWaiting before then 0 else 1) = _
    cases hwaiting : isWaiting before with
    | true => simp
    | false => rw [hbusy hwaiting]
  rw [weight, weight, hhead]
  rfl

theorem not_advances (h : Spins before after) : ¬ Advances before after :=
  fun hmoves => Nat.lt_irrefl _ (h.weight_eq ▸ hmoves.lower)

end Spins

theorem recv_cases {μ : Type} {capacity : Nat} (feed : LossyChannel.Channel μ capacity) :
    (feed.recv = (feed, .pending) ∧ feed.missed = 0 ∧ feed.backlog = []) ∨
      (0 < feed.missed ∧ feed.recv = ({ feed with missed := 0 }, .lagged feed.missed)) ∨
      ∃ message rest, feed.missed = 0 ∧ feed.backlog = message :: rest ∧
        feed.recv.2 = .message message ∧ feed.recv.1.backlog = rest ∧
        feed.recv.1.missed = 0 := by
  rw [LossyChannel.Channel.recv]
  split
  · rename_i hmissed
    exact Or.inr (Or.inl ⟨hmissed, rfl⟩)
  · rename_i hmissed
    have hnone : feed.missed = 0 := Nat.eq_zero_of_not_pos hmissed
    split
    · rename_i hbacklog
      exact Or.inl ⟨rfl, hnone, hbacklog⟩
    · rename_i message rest hbacklog
      exact Or.inr (Or.inr ⟨message, rest, hnone, hbacklog, rfl, rfl, hnone⟩)

theorem bridgeRecv_cases (system : System σ feedCapacity) :
    (system.bridgeRecv.1 = system ∧ (system.snapshots.isIdle = true →
        system.feed.missed = 0 ∧ system.feed.backlog = [])) ∨
      Advances system system.bridgeRecv.1 := by
  by_cases hidle : system.snapshots.isIdle = true
  · have hthere := (Carries.isIdle_iff.mp hidle).2
    obtain ⟨hrecv, hmissed, hbacklog⟩ | ⟨hmissed, hrecv⟩ |
        ⟨snapshot, rest, hmissed, hbacklog, hmessage, hrest, hnone⟩ := recv_cases system.feed
    · refine Or.inl ⟨?_, fun _ => ⟨hmissed, hbacklog⟩⟩
      simp only [System.bridgeRecv, hidle, if_true, hrecv]
    · refine Or.inr ?_
      simp only [System.bridgeRecv, hidle, if_true, hrecv]
      apply Advances.of_head
      · simp [transit, feedLoad, hthere]
      · simp [transit, feedLoad, tasks, hthere, hmissed]
      · rfl
    · refine Or.inr ?_
      obtain ⟨hload, halive⟩ := @load_offer _ _ _ 8 7 hidle snapshot
      have hfeed : system.feed.recv = (system.feed.recv.1, .message snapshot) :=
        Prod.ext rfl hmessage
      rw [System.bridgeRecv, if_pos hidle, hfeed]
      have hbefore : feedLoad system = 9 * rest.length + 9 := by
        simp [feedLoad, hthere, hmissed, hbacklog, Nat.mul_add]
      apply Advances.of_head
      · simp only [transit, hload, hbefore]
        simp [feedLoad, hthere, hrest, hnone]
        omega
      · simp only [transit, tasks, hload, halive, hbefore]
        simp [feedLoad, hthere, hrest, hnone]
        omega
      · rfl
  · refine Or.inl ⟨?_, fun h => absurd h hidle⟩
    rw [System.bridgeRecv, if_neg hidle]

theorem Advances.of_le {before middle after : System σ feedCapacity}
    (h : Advances before middle)
    (hafter : transit after ≤ transit middle ∧ weight after ≤ weight middle) :
    Advances before after :=
  ⟨hafter.1.trans h.transit_le, hafter.2.trans_lt h.lower⟩

theorem feedLoad_le {snapshots : Link OrderBookSnapshot channelCapacity}
    (hgone : alive snapshots ≤ alive system.snapshots) :
    feedLoad { system with snapshots } ≤ feedLoad system := by
  cases hafter : snapshots.senderGone with
  | true => simp [feedLoad, hafter]
  | false =>
      have hbefore : system.snapshots.senderGone = false := by
        by_contra hsender
        have hsender : system.snapshots.senderGone = true := by simpa using hsender
        simp [alive, hafter, hsender] at hgone
      simp [feedLoad, hafter, hbefore]

theorem bridgeSend_cases (hgone : system.snapshots.senderGone = true →
    system.snapshots.held = none) :
    ({ system with snapshots := system.snapshots.deliver } = system ∧
        (system.snapshots.held ≠ none → system.snapshots.receiverGone = false ∧
          channelCapacity ≤ system.snapshots.queue.length)) ∨
      Advances system { system with snapshots := system.snapshots.deliver } := by
  obtain ⟨hsame, hfull⟩ | ⟨hload, halive⟩ :=
    @deliver_cases _ _ system.snapshots 8 7 1 rfl hgone
  · exact Or.inl ⟨by rw [hsame], hfull⟩
  · have hfeed := feedLoad_le halive
    apply Or.inr
    apply Advances.of_head
    · simp only [transit]
      omega
    · simp only [transit, tasks]
      omega
    · rfl

theorem transit_endRunner_le (system : System σ feedCapacity) :
    transit system.endRunner ≤ transit system := by
  obtain ⟨hsnapshots, -⟩ := @load_closeReceiver_le _ _ 8 7 system.snapshots
  obtain ⟨htriggers, -⟩ := @load_closeSender _ _ 6 5 system.triggers
  have hfeed : feedLoad system.endRunner = feedLoad system := rfl
  rw [transit, transit, hfeed]
  simp only [System.endRunner]
  omega

theorem endRunner_le (system : System σ feedCapacity) :
    transit system.endRunner ≤ transit system ∧ weight system.endRunner ≤ weight system := by
  have htransit := transit_endRunner_le system
  obtain ⟨-, hreader⟩ := @load_closeReceiver_le _ _ 8 7 system.snapshots
  obtain ⟨-, hsender⟩ := @load_closeSender _ _ 6 5 system.triggers
  have hhead : headLoad system.endRunner = headLoad system := rfl
  refine ⟨htransit, ?_⟩
  rw [weight, weight, hhead]
  simp only [tasks, System.endRunner] at htransit ⊢
  omega

theorem endRunner_advances (hidle : system.triggers.isIdle = true) :
    Advances system system.endRunner := by
  have hsender := alive_closeSender hidle
  have hle := transit_endRunner_le system
  apply Advances.of_head hle
  · have htasks : tasks system.endRunner + 1 = tasks system := by
      simp only [tasks, System.endRunner, (@load_closeReceiver_le _ _ 8 7 system.snapshots).2]
      omega
    omega
  · rfl

theorem transit_endStamper_le (system : System σ feedCapacity) :
    transit system.endStamper ≤ transit system := by
  obtain ⟨htriggers, -⟩ := @load_closeReceiver_le _ _ 6 5 system.triggers
  obtain ⟨horders, -⟩ := @load_closeSender _ _ 4 2 system.orders
  have hfeed : feedLoad system.endStamper = feedLoad system := rfl
  rw [transit, transit, hfeed]
  simp only [System.endStamper]
  omega

theorem endStamper_advances (hidle : system.orders.isIdle = true) :
    Advances system system.endStamper := by
  have hsender := alive_closeSender hidle
  have hle := transit_endStamper_le system
  have hhead := headLoad_le system.endStamper
  refine ⟨hle, ?_⟩
  have htasks : tasks system.endStamper + 2 = tasks system := by
    simp only [tasks, System.endStamper, (@load_closeReceiver_le _ _ 6 5 system.triggers).2]
    omega
  rw [weight, weight]
  omega

theorem endStamper_le (system : System σ feedCapacity) :
    transit system.endStamper ≤ transit system ∧ weight system.endStamper ≤ weight system := by
  by_cases hidle : system.orders.isIdle = true
  · obtain ⟨hle, hlower⟩ := endStamper_advances hidle
    exact ⟨hle, hlower.le⟩
  · have hle := transit_endStamper_le system
    have horders : system.orders.closeSender = system.orders := by
      rw [Link.closeSender, if_neg hidle]
    have hhead : headLoad system.endStamper = headLoad system :=
      headLoad_congr rfl (congrArg Link.queue horders) (congrArg Link.senderGone horders)
    have htasks : tasks system.endStamper = tasks system := by
      simp only [tasks, System.endStamper, horders]
      rfl
    refine ⟨hle, ?_⟩
    rw [weight, weight, hhead, htasks]
    omega

theorem runnerRecv_cases (strategy : Strategy σ) (system : System σ feedCapacity) :
    ((system.runnerRecv strategy).1 = system ∧ (system.triggers.isIdle = true →
        system.snapshots.receiverGone = false →
          system.snapshots.queue = [] ∧ system.snapshots.senderGone = false)) ∨
      Advances system (system.runnerRecv strategy).1 := by
  by_cases hidle : system.triggers.isIdle = true
  · obtain ⟨htake, hempty⟩ | ⟨snapshot, rest, hqueue, hthere, hmessage, hrest, hheld, hsender,
        hstays⟩ := take_cases system.snapshots
    · simp only [System.runnerRecv, hidle, if_true, htake]
      split
      · exact Or.inr (endRunner_advances hidle)
      · rename_i hgoes
        exact Or.inl ⟨rfl, fun _ hthere => ⟨hempty hthere, sender_there hgoes (hempty hthere)⟩⟩
    · refine Or.inr ?_
      have hload := @load_take _ _ system.snapshots 8 7 hthere _ _ hqueue hrest hheld hstays
      have hfeed : ∀ (next : σ) triggers, feedLoad
          { system with snapshots := system.snapshots.take.1, strategy := next, triggers } =
            feedLoad system := by
        intro next triggers
        simp only [feedLoad, hsender]
      have halive : alive system.snapshots.take.1 = alive system.snapshots := by
        rw [alive, alive, hsender]
      have htake : system.snapshots.take = (system.snapshots.take.1, some snapshot) :=
        Prod.ext rfl hmessage
      rw [System.runnerRecv, if_pos hidle, htake]
      cases hfired : (strategy.onBookUpdate system.strategy snapshot).2 with
      | none =>
          simp only [hfired]
          apply Advances.of_head
          · simp only [transit, hfeed]
            omega
          · simp only [transit, tasks, hfeed, halive]
            omega
          · rfl
      | some trigger =>
          obtain ⟨hoffer, hoffered⟩ := @load_offer _ _ _ 6 5 hidle trigger
          simp only [hfired]
          apply Advances.of_head
          · simp only [transit, hfeed, hoffer]
            omega
          · simp only [transit, tasks, hfeed, halive, hoffer, hoffered]
            omega
          · rfl
  · refine Or.inl ⟨?_, fun h => absurd h hidle⟩
    rw [System.runnerRecv, if_neg hidle]

theorem runnerSend_cases (h : Wired system)
    (hgone : system.triggers.senderGone = true → system.triggers.held = none) :
    (system.runnerSend = system ∧
        (system.triggers.held ≠ none → system.triggers.receiverGone = false ∧
          channelCapacity ≤ system.triggers.queue.length)) ∨
      Advances system system.runnerSend := by
  obtain ⟨hsame, hfull⟩ | ⟨hload, halive⟩ :=
    @deliver_cases _ _ system.triggers 6 5 1 rfl hgone
  · refine Or.inl ⟨?_, hfull⟩
    rw [System.runnerSend, hsame]
    simp only
    split
    · rename_i hsender
      rw [System.endRunner, closeReceiver_of_gone (h.runner.trans hsender),
        closeSender_of_gone hsender]
    · rfl
  · refine Or.inr ?_
    have hsent : Advances system { system with triggers := system.triggers.deliver } := by
      have hfeed : feedLoad { system with triggers := system.triggers.deliver } =
          feedLoad system := rfl
      apply Advances.of_head
      · simp only [transit, hfeed]
        omega
      · simp only [transit, tasks, hfeed]
        omega
      · rfl
    rw [System.runnerSend]
    simp only
    split
    · exact hsent.of_le (endRunner_le _)
    · exact hsent

theorem stampRecv_cases (system : System σ feedCapacity) (nowNs : Nat) :
    ((system.stampRecv nowNs).1 = system ∧ (system.orders.isIdle = true →
        system.triggers.receiverGone = false →
          system.triggers.queue = [] ∧ system.triggers.senderGone = false)) ∨
      Advances system (system.stampRecv nowNs).1 := by
  by_cases hidle : system.orders.isIdle = true
  · obtain ⟨htake, hempty⟩ | ⟨trigger, rest, hqueue, hthere, hmessage, hrest, hheld, hsender,
        hstays⟩ := take_cases system.triggers
    · simp only [System.stampRecv, hidle, if_true, htake]
      split
      · exact Or.inr (endStamper_advances hidle)
      · rename_i hgoes
        exact Or.inl ⟨rfl, fun _ hthere => ⟨hempty hthere, sender_there hgoes (hempty hthere)⟩⟩
    · refine Or.inr ?_
      have hload := @load_take _ _ system.triggers 6 5 hthere _ _ hqueue hrest hheld hstays
      have halive : alive system.triggers.take.1 = alive system.triggers := by
        rw [alive, alive, hsender]
      have htake : system.triggers.take = (system.triggers.take.1, some trigger) :=
        Prod.ext rfl hmessage
      obtain ⟨hoffer, hoffered⟩ := @load_offer _ _ _ 4 2 hidle (restamp trigger nowNs)
      have hfeed : feedLoad
          { system with
            triggers := system.triggers.take.1
            orders := system.orders.offer (restamp trigger nowNs) } = feedLoad system := rfl
      rw [System.stampRecv, if_pos hidle, htake]
      simp only
      apply Advances.of_head
      · simp only [transit, hfeed, hoffer]
        omega
      · simp only [transit, tasks, hfeed, halive, hoffer, hoffered]
        omega
      · exact headLoad_congr rfl (by simp only [Link.offer, hidle, if_true]) (senderGone_offer _ _)
  · refine Or.inl ⟨?_, fun h => absurd h hidle⟩
    rw [System.stampRecv, if_neg hidle]

theorem stampSend_cases (h : Wired system)
    (hgone : system.orders.senderGone = true → system.orders.held = none) :
    (system.stampSend = system ∧
        (system.orders.held ≠ none → system.orders.receiverGone = false ∧
          channelCapacity ≤ system.orders.queue.length)) ∨
      Advances system system.stampSend := by
  obtain ⟨hsame, hfull⟩ | ⟨hload, halive⟩ :=
    @deliver_cases _ _ system.orders 4 2 2 rfl hgone
  · refine Or.inl ⟨?_, hfull⟩
    rw [System.stampSend, hsame]
    simp only
    split
    · rename_i hsender
      rw [System.endStamper, closeReceiver_of_gone (h.stamper.trans hsender),
        closeSender_of_gone hsender]
    · rfl
  · refine Or.inr ?_
    have hsent : Advances system { system with orders := system.orders.deliver } := by
      have hfeed : feedLoad { system with orders := system.orders.deliver } =
          feedLoad system := rfl
      have hhead := headLoad_le { system with orders := system.orders.deliver }
      constructor
      · simp only [transit, hfeed]
        omega
      · simp only [weight, transit, tasks, hfeed]
        omega
    rw [System.stampSend]
    simp only
    split
    · exact hsent.of_le (endStamper_le _)
    · exact hsent

theorem loopHead_cases (hrunning : system.loop.running = true) :
    (Spins system (system.loopHead false) ∧
        (system.inBody = false → isWaiting system = true)) ∨
      Advances system (system.loopHead false) := by
  cases hbody : system.inBody with
  | true =>
      rw [System.loopHead, if_pos hbody]
      exact Or.inl ⟨.refl system, by simp⟩
  | false =>
      have hentered : system.loopHead false = { system with inBody := true } := by
        simp [System.loopHead, hbody, hrunning]
      rw [hentered]
      cases hwaiting : isWaiting system with
      | true => exact Or.inl ⟨⟨true, rfl, by simp [hwaiting]⟩, fun _ => rfl⟩
      | false =>
          have hbefore : headLoad system = 1 := by simp [headLoad, hbody, hwaiting]
          have hafter : headLoad { system with inBody := true } = 0 := rfl
          refine Or.inr ⟨le_rfl, ?_⟩
          rw [weight, weight, hbefore, hafter]
          exact Nat.lt_succ_self _

theorem loopBody_cases (config : LoopConfig) (hwired : Wired system)
    (hrunning : system.loop.running = true) (limiterNowNs : Nat)
    (outside : ClobExecutor.Outside Order Signature Request) :
    (Spins system (system.loopBody config limiterNowNs outside).1 ∧
        (system.inBody = true → isWaiting system = true)) ∨
      Advances system (system.loopBody config limiterNowNs outside).1 ∨
      (system.loopBody config limiterNowNs outside).1.loop.running = false := by
  cases hbody : system.inBody with
  | false =>
      rw [loopBody_outside config hbody]
      exact Or.inl ⟨.refl system, by simp⟩
  | true =>
      obtain ⟨htake, hempty⟩ | ⟨trigger, rest, hqueue, hthere, hmessage, hrest, hheld, hsender,
          hstays⟩ := take_cases system.orders
      · have hnone := hempty (hwired.loop hrunning)
        have hrecv : tryRecv system.orders =
            (system.orders, if system.orders.isEnded then .disconnected else .empty) := by
          rw [tryRecv, htake]
        simp only [System.loopBody, hbody, if_true, hrecv]
        split
        · refine Or.inr (Or.inr ?_)
          simp [runTurn, hrunning, System.setLoop]
        · rename_i hgoes
          have hwaiting : isWaiting system = true := by
            simp [isWaiting, hnone, sender_there hgoes hnone]
          refine Or.inl ⟨⟨false, ?_, ?_⟩, fun _ => hwaiting⟩
          · simp [runTurn, hrunning, System.setLoop]
          · simp [hwaiting]
      · have hrecv : tryRecv system.orders = (system.orders.take.1, .trigger trigger) := by
          have htake : system.orders.take = (system.orders.take.1, some trigger) :=
            Prod.ext rfl hmessage
          rw [tryRecv, htake]
        have hload := @load_take _ _ system.orders 4 2 hthere _ _ hqueue hrest hheld hstays
        have halive : alive system.orders.take.1 = alive system.orders := by
          rw [alive, alive, hsender]
        simp only [System.loopBody, hbody, if_true, hrecv, System.setLoop]
        split
        · refine Or.inr (Or.inl ?_)
          have hfeed : ∀ loop, feedLoad
              { system with orders := system.orders.take.1, inBody := false, loop } =
                feedLoad system := fun _ => rfl
          have hhead : ∀ loop, headLoad
              { system with orders := system.orders.take.1, inBody := false, loop } ≤ 1 :=
            fun _ => headLoad_le _
          constructor
          · simp only [transit, hfeed]
            omega
          · refine Nat.lt_of_le_of_lt (Nat.add_le_add_left (hhead _) _) ?_
            simp only [weight, transit, tasks, hfeed, halive]
            omega
        · rename_i hstops
          exact Or.inr (Or.inr (by simpa using hstops))

/-- Each task gets a turn at what it may have to do, in any order. -/
structure IsRound (round : List (Action Order Signature Request)) : Prop where
  bridgeRecv : .bridgeRecv ∈ round
  bridgeSend : .bridgeSend ∈ round
  runnerRecv : .runnerRecv ∈ round
  runnerSend : .runnerSend ∈ round
  stampRecv : ∃ nowNs, .stampRecv nowNs ∈ round
  stampSend : .stampSend ∈ round
  loopHead : .loopHead false ∈ round
  loopBody : ∃ limiterNowNs outside, .loopBody limiterNowNs outside ∈ round

/-- What holds of the system in every run. -/
def Kept (strategy : Strategy σ) (start : σ) (system : System σ feedCapacity) : Prop :=
  Wired system ∧ ∃ past, Flows strategy start system past

variable {start : σ}

theorem Kept.step (h : Kept strategy start system) (action : Action Order Signature Request) :
    Kept strategy start (TriggerFlow.step strategy config system action).1 := by
  obtain ⟨hwired, past, hflows⟩ := h
  exact ⟨hwired.step action, _, hflows.step action⟩

theorem held_eq_none {μ : Type} {link : Link μ channelCapacity}
    (hfull : link.held ≠ none →
      link.receiverGone = false ∧ channelCapacity ≤ link.queue.length)
    (hqueue : link.receiverGone = false → link.queue = []) : link.held = none := by
  by_contra hheld
  obtain ⟨hthere, hlength⟩ := hfull hheld
  rw [hqueue hthere] at hlength
  simp [channelCapacity] at hlength

/-- No action of the round brings anything on, wherever the loop has spun to. -/
def Rests (strategy : Strategy σ) (config : LoopConfig) (start : σ)
    (round : List (Action Order Signature Request)) (system : System σ feedCapacity) : Prop :=
  ∀ action ∈ round, ∃ inBody, (isWaiting system = false → inBody = system.inBody) ∧
    Kept strategy start { system with inBody } ∧ Spins { system with inBody }
      (TriggerFlow.step strategy config { system with inBody } action).1

theorem idle_of_spins {idle : Prop} {before after : System σ feedCapacity}
    (hspins : Spins before after) (h : after = before ∧ idle ∨ Advances before after) : idle := by
  obtain ⟨-, hidle⟩ | hmoves := h
  · exact hidle
  · exact absurd hmoves hspins.not_advances

variable {round : List (Action Order Signature Request)}

/-- A loop with something in its channel goes to its body and takes it. -/
theorem Rests.waiting (h : Rests strategy config start round system) (hround : IsRound round)
    (hwired : Wired system) (hrunning : system.loop.running = true) :
    isWaiting system = true := by
  by_contra hwaiting
  have hbusy : isWaiting system = false := by simpa using hwaiting
  cases hbody : system.inBody with
  | false =>
      obtain ⟨_, hsame, -, hspins⟩ := h _ hround.loopHead
      obtain rfl := hsame hbusy
      obtain ⟨-, hwaits⟩ | hmoves := loopHead_cases hrunning
      · exact hwaiting (hwaits hbody)
      · exact hspins.not_advances hmoves
  | true =>
      obtain ⟨limiterNowNs, outside, hmem⟩ := hround.loopBody
      obtain ⟨_, hsame, -, hspins⟩ := h _ hmem
      obtain rfl := hsame hbusy
      obtain ⟨-, hwaits⟩ | hmoves | hstops :=
        loopBody_cases config hwired hrunning limiterNowNs outside
      · exact hwaiting (hwaits hbody)
      · exact hspins.not_advances hmoves
      · obtain ⟨_, hafter, -⟩ := hspins
        rw [TriggerFlow.step] at hafter
        rw [hafter] at hstops
        exact absurd (hrunning.symm.trans hstops) (by simp)

theorem load_le {μ : Type} {capacity : Nat} (link : Link μ capacity) (perHeld perQueued : Nat) :
    load link perHeld perQueued ≤ perHeld + perQueued * capacity := by
  refine Nat.add_le_add ?_ ?_
  · split
    · exact le_rfl
    · exact Nat.zero_le _
  · split
    · exact Nat.zero_le _
    · exact Nat.mul_le_mul_left _ link.fits

theorem weight_le (system : System σ feedCapacity) :
    weight system ≤ 9 * feedCapacity + 3608 := by
  have halive : ∀ {μ : Type} {capacity : Nat} (link : Link μ capacity), alive link ≤ 1 := by
    intro μ capacity link
    rw [alive]
    split <;> omega
  have hfeed : feedLoad system ≤ 9 * feedCapacity + 1 := by
    rw [feedLoad]
    split
    · exact Nat.zero_le _
    · refine Nat.add_le_add (Nat.mul_le_mul_left 9 system.feed.fits) ?_
      split <;> omega
  have hsnapshots := load_le system.snapshots 8 7
  have htriggers := load_le system.triggers 6 5
  have horders := load_le system.orders 4 2
  have hreader := halive system.snapshots
  have hrunner := halive system.triggers
  have hstamper := halive system.orders
  have hhead := headLoad_le system
  have hcapacity : channelCapacity = 256 := rfl
  rw [weight, transit, tasks]
  omega

/-- Each task gets its turn after the one that works for it. -/
def inOrder : List (Action Unit Unit Unit) :=
  [.bridgeRecv, .bridgeSend, .runnerRecv, .runnerSend, .stampRecv 100, .stampSend,
    .loopHead false, .loopBody 2000000000 accepting]

/-- One snapshot has been published and passed on. -/
def relayed : System TriggerMaker 2 :=
  exec (step (firingStrategy askRule) liveConfig) (.start tokenMaker oneOrderLeft)
    ([.publish (askAt "0.50")] ++ inOrder)

end Rtt.FlowProgress
