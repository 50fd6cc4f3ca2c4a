import Rtt.DispatchTimes
import Rtt.Machine

namespace Rtt.Executor

open Rtt.Quote
open Rtt.ClobExecutor
open Rtt.Machine

def queueCapacity : Nat := 1024

/-- A bounded queue; it cannot be built longer than its capacity. -/
structure TriggerQueue where
  messages : List TriggerMessage
  fits : messages.length ≤ queueCapacity

namespace TriggerQueue

def new : TriggerQueue := { messages := [], fits := Nat.zero_le _ }

/-- `try_send`: refused when the queue is full. -/
def trySend (self : TriggerQueue) (msg : TriggerMessage) : Option TriggerQueue :=
  if h : self.messages.length < queueCapacity then
    some
      { messages := self.messages ++ [msg]
        fits := by
          rw [List.length_append, List.length_singleton]
          exact h }
  else none

/-- `try_recv`: the oldest message, if there is one. -/
def tryRecv (self : TriggerQueue) : TriggerQueue × Option TriggerMessage :=
  match h : self.messages with
  | [] => (self, none)
  | msg :: rest =>
      ({ messages := rest
         fits := by
          have hfits := self.fits
          rw [h, List.length_cons] at hfits
          omega }, some msg)

end TriggerQueue

def restamp (msg : TriggerMessage) (nowNs : Nat) : TriggerMessage :=
  { msg with timestampNs := nowNs }

/-- `IngressThread::inject`.  The receiver is there as long as the queue is. -/
def inject (queue : TriggerQueue) (msg : TriggerMessage) (nowNs : Nat) :
    Except String TriggerQueue :=
  match queue.trySend (restamp msg nowNs) with
  | some queue => .ok queue
  | none => .error "queue full: sending on a full channel"

/-- `nowNs` gives the successive readings of the clock. -/
def processOne (sendStart : Except ConnectionError SendHandle)
    (collect : SendHandle → Except ConnectionError Response) (nowNs : Nat → Nat)
    (msg : TriggerMessage) : TimestampRecord :=
  let record : TimestampRecord :=
    { tTriggerRx := msg.timestampNs
      tDispatchQ := nowNs 0
      tExecStart := nowNs 1
      tBufReady := nowNs 2
      tWriteBegin := nowNs 3
      tWriteEnd := nowNs 4 }
  match sendStart with
  | .ok handle =>
      let record :=
        { record with connectionIndex := handle.connectionIndex, tFirstRespByte := nowNs 5 }
      match collect handle with
      | .ok resp =>
          let record :=
            match resp.cfRay with
            | some cfRay => { record with cfRayPop := extractPop cfRay }
            | none => record
          { record with tHeadersDone := nowNs 6, isReconnect := false }
      | .error _ => { record with tHeadersDone := nowNs 6, isReconnect := true }
  | .error _ =>
      { record with tFirstRespByte := nowNs 5, tHeadersDone := nowNs 6, isReconnect := true }

/-- How many times the clock is read for a record. -/
def readings : Nat := 7

/-- Where the executor thread stands in its loop. -/
inductive Worker where
  /-- Before it looks whether it shall go on. -/
  | checking
  | polling
  | processing (msg : TriggerMessage) (times : List Nat)
  | ended
  deriving DecidableEq, Repr

def Worker.current : Worker → Option TriggerMessage
  | .processing msg _ => some msg
  | .checking | .polling | .ended => none

/-- The thread with its queue, after `start`. -/
structure ExecutionThread where
  queue : TriggerQueue
  /-- A sender of the queue is left. -/
  connected : Bool
  running : Bool
  worker : Worker
  records : List TimestampRecord

/-- A step of the ingress, of the owner of the thread or of the thread itself. -/
inductive Action where
  | inject (msg : TriggerMessage) (nowNs : Nat)
  | dropSenders
  | stop
  | check
  | poll
  | readClock (nowNs : Nat)
  | finish (sendStart : Except ConnectionError SendHandle)
      (collect : SendHandle → Except ConnectionError Response)

/-- What a step lets an observer see. -/
inductive Event where
  | accepted (msg : TriggerMessage)
  | refused (error : String)
  | recorded (msg : TriggerMessage) (record : TimestampRecord)

namespace ExecutionThread

def start : ExecutionThread :=
  { queue := .new, connected := true, running := true, worker := .checking, records := [] }

variable (self : ExecutionThread)

/-- The one ingress thread stamps a trigger and sends it.  No other thread sends to the
queue, and so nobody can tell the two steps from one. -/
def inject (msg : TriggerMessage) (nowNs : Nat) : ExecutionThread × List Event :=
  if self.connected then
    match Executor.inject self.queue msg nowNs with
    | .ok queue => ({ self with queue }, [.accepted (restamp msg nowNs)])
    | .error error => (self, [.refused error])
  else (self, [])

/-- The thread looks whether it shall go on. -/
def check : ExecutionThread :=
  match self.worker with
  | .checking => { self with worker := if self.running then .polling else .ended }
  | .polling | .processing _ _ | .ended => self

/-- The thread looks for a trigger. -/
def poll : ExecutionThread :=
  match self.worker with
  | .polling =>
      match self.queue.tryRecv with
      | (queue, some msg) => { self with queue, worker := .processing msg [] }
      | (_, none) => { self with worker := if self.connected then .checking else .ended }
  | .checking | .processing _ _ | .ended => self

/-- The thread reads its clock while it processes a trigger. -/
def readClock (nowNs : Nat) : ExecutionThread :=
  match self.worker with
  | .processing msg times =>
      if times.length < readings then
        { self with worker := .processing msg (times ++ [nowNs]) }
      else self
  | .checking | .polling | .ended => self

/-- The thread has its response or failure, and writes the record. -/
def finish (sendStart : Except ConnectionError SendHandle)
    (collect : SendHandle → Except ConnectionError Response) : ExecutionThread × List Event :=
  match self.worker with
  | .processing msg times =>
      if times.length < readings then (self, [])
      else
        let record := processOne sendStart collect (fun reading => times.getD reading 0) msg
        ({ self with worker := .checking, records := self.records ++ [record] },
          [.recorded msg record])
  | .checking | .polling | .ended => (self, [])

end ExecutionThread

def step (thread : ExecutionThread) : Action → ExecutionThread × List Event
  | .inject msg nowNs => thread.inject msg nowNs
  | .dropSenders => ({ thread with connected := false }, [])
  | .stop => ({ thread with running := false }, [])
  | .check => (thread.check, [])
  | .poll => (thread.poll, [])
  | .readClock nowNs => (thread.readClock nowNs, [])
  | .finish sendStart collect => thread.finish sendStart collect

end Rtt.Executor
