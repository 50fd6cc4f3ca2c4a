import Rtt.Backtest
import Rtt.ExecutionLoop
import Rtt.LossyChannel
import Rtt.RelayLink

/-!
The tasks of the executor from the feed to the execution loop: the bridge of snapshots,
the strategy runner and the bridge of triggers, with the channels between them.  Any task
may take the next step.
-/

namespace Rtt.TriggerFlow

open Rtt.Quote
open Rtt.PublicEvent
open Rtt.StrategyContract
open Rtt.ExecutionLoop
open Rtt.RelayLink

/-- The capacity of the channels after the feed. -/
def channelCapacity : Nat := 256

/-- The channels of the executor and the tasks between them. -/
structure System (σ : Type) (feedCapacity : Nat) where
  feed : LossyChannel.Channel OrderBookSnapshot feedCapacity
  /-- From the snapshot bridge to the strategy runner. -/
  snapshots : Link OrderBookSnapshot channelCapacity
  strategy : σ
  /-- From the strategy runner to the trigger bridge. -/
  triggers : Link TriggerMessage channelCapacity
  /-- From the trigger bridge to the execution loop. -/
  orders : Link TriggerMessage channelCapacity
  loop : LoopState
  /-- The loop has found the shutdown flag unset and is in its body. -/
  inBody : Bool

/-- What a step lets an observer see. -/
inductive Event where
  | published (snapshot : OrderBookSnapshot)
  | bridged (snapshot : OrderBookSnapshot)
  | consumed (snapshot : OrderBookSnapshot)
  | fired (trigger : TriggerMessage)
  /-- A trigger is taken by its bridge, which stamps it. -/
  | stamped (trigger : TriggerMessage) (nowNs : Nat)
  /-- A trigger is taken by the execution loop. -/
  | taken (trigger : TriggerMessage)
  | dispatched (order : Dispatched)

/-- The next step of one task, or something from outside. -/
inductive Action (Order Signature Request : Type) where
  | publish (snapshot : OrderBookSnapshot)
  | bridgeRecv
  | bridgeSend
  | stopBridge
  | runnerRecv
  | runnerSend
  | stampRecv (nowNs : Nat)
  | stampSend
  | stopStamper
  | loopHead (shutdown : Bool)
  | loopBody (limiterNowNs : Nat) (outside : ClobExecutor.Outside Order Signature Request)

/-- `try_recv` on the channel of the execution loop. -/
def tryRecv (orders : Link TriggerMessage channelCapacity) :
    Link TriggerMessage channelCapacity × Received :=
  match orders.take with
  | (orders, some trigger) => (orders, .trigger trigger)
  | (orders, none) => (orders, if orders.isEnded then .disconnected else .empty)

def trigger? : Received → Option TriggerMessage
  | .trigger trigger => some trigger
  | .empty | .disconnected => none

def restamp (trigger : TriggerMessage) (nowNs : Nat) : TriggerMessage :=
  { trigger with timestampNs := nowNs }

variable {σ : Type} {feedCapacity : Nat} {Order Signature Request : Type}

namespace System

def start (strategy : σ) (loop : LoopState) : System σ feedCapacity :=
  { feed := .empty, snapshots := .empty, strategy, triggers := .empty, orders := .empty, loop
    inBody := false }

variable (self : System σ feedCapacity)

def publish (snapshot : OrderBookSnapshot) : System σ feedCapacity × List Event :=
  ({ self with feed := (self.feed.send snapshot).1 }, [.published snapshot])

/-- The bridge waits for a snapshot; it goes on after a lag. -/
def bridgeRecv : System σ feedCapacity × List Event :=
  if self.snapshots.isIdle then
    let (feed, received) := self.feed.recv
    match received with
    | .message snapshot =>
        ({ self with feed, snapshots := self.snapshots.offer snapshot }, [.bridged snapshot])
    | .lagged _ | .pending => ({ self with feed }, [])
  else (self, [])

/-- The bridge ends at the shutdown signal, or when the feed is closed. -/
def stopBridge : System σ feedCapacity := { self with snapshots := self.snapshots.closeSender }

/-- The runner drops both its channels when it ends. -/
def endRunner : System σ feedCapacity :=
  { self with
    snapshots := self.snapshots.closeReceiver
    triggers := self.triggers.closeSender }

/-- One turn of `StrategyRunner::run`. -/
def runnerRecv (strategy : Strategy σ) : System σ feedCapacity × List Event :=
  if self.triggers.isIdle then
    match self.snapshots.take with
    | (snapshots, some snapshot) =>
        let (next, trigger) := strategy.onBookUpdate self.strategy snapshot
        match trigger with
        | some trigger =>
            ({ self with
                snapshots, strategy := next, triggers := self.triggers.offer trigger },
              [.consumed snapshot, .fired trigger])
        | none => ({ self with snapshots, strategy := next }, [.consumed snapshot])
    | (_, none) => if self.snapshots.isEnded then (self.endRunner, []) else (self, [])
  else (self, [])

/-- A runner whose receiver has gone ends. -/
def runnerSend : System σ feedCapacity :=
  let self := { self with triggers := self.triggers.deliver }
  if self.triggers.senderGone then self.endRunner else self

/-- The trigger bridge drops both its channels when it ends. -/
def endStamper : System σ feedCapacity :=
  { self with
    triggers := self.triggers.closeReceiver
    orders := self.orders.closeSender }

/-- The trigger bridge stamps a trigger before it forwards it. -/
def stampRecv (nowNs : Nat) : System σ feedCapacity × List Event :=
  if self.orders.isIdle then
    match self.triggers.take with
    | (triggers, some trigger) =>
        ({ self with triggers, orders := self.orders.offer (restamp trigger nowNs) },
          [.stamped trigger nowNs])
    | (_, none) => if self.triggers.isEnded then (self.endStamper, []) else (self, [])
  else (self, [])

/-- A bridge whose receiver has gone ends. -/
def stampSend : System σ feedCapacity :=
  let self := { self with orders := self.orders.deliver }
  if self.orders.senderGone then self.endStamper else self

/-- The bridge notices its stop signal between two messages. -/
def stopStamper : System σ feedCapacity := if self.orders.isIdle then self.endStamper else self

/-- The loop drops its channel when it ends. -/
def setLoop (loop : LoopState) : System σ feedCapacity :=
  { self with
    loop
    orders := if loop.running then self.orders else self.orders.closeReceiver }

/-- The head of the execution loop, the only place where it loads the shutdown flag. -/
def loopHead (shutdown : Bool) : System σ feedCapacity :=
  if self.inBody then self
  else if self.loop.running && !shutdown then { self with inBody := true }
  else self.setLoop { self.loop with running := false }

/-- The body of the execution loop, which takes at most one trigger. -/
def loopBody (config : LoopConfig) (limiterNowNs : Nat)
    (outside : ClobExecutor.Outside Order Signature Request) :
    System σ feedCapacity × List Event :=
  if self.inBody then
    let (orders, received) := tryRecv self.orders
    let (loop, order) :=
      runTurn config self.loop { shutdown := false, received, limiterNowNs, outside }
    ({ self with orders, inBody := false }.setLoop loop,
      (trigger? received).toList.map .taken ++ order.toList.map .dispatched)
  else (self, [])

end System

/-- One step of one task. -/
def step (strategy : Strategy σ) (config : LoopConfig) (system : System σ feedCapacity) :
    Action Order Signature Request → System σ feedCapacity × List Event
  | .publish snapshot => system.publish snapshot
  | .bridgeRecv => system.bridgeRecv
  | .bridgeSend => ({ system with snapshots := system.snapshots.deliver }, [])
  | .stopBridge => (system.stopBridge, [])
  | .runnerRecv => system.runnerRecv strategy
  | .runnerSend => (system.runnerSend, [])
  | .stampRecv nowNs => system.stampRecv nowNs
  | .stampSend => (system.stampSend, [])
  | .stopStamper => (system.stopStamper, [])
  | .loopHead shutdown => (system.loopHead shutdown, [])
  | .loopBody limiterNowNs outside => system.loopBody config limiterNowNs outside

end Rtt.TriggerFlow
