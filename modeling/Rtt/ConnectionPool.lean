import Mathlib.Logic.Function.Basic
import Rtt.ClobExecutor
import Rtt.MachineWord

/-!
The pool of warm connections.  A call is split where the code awaits or takes the lock
of a connection; any task may take the next step.
-/

namespace Rtt.ConnectionPool

open Rtt.MachineWord
open Rtt.ClobExecutor

inductive AddressFamily where
  | auto
  | v4
  | v6
  deriving DecidableEq, Repr

structure SocketAddr where
  text : String
  isIpv4 : Bool
  deriving DecidableEq, Repr

def SocketAddr.isIpv6 (self : SocketAddr) : Bool := !self.isIpv4

/-- The connection that an error names. -/
def connectionIndex : ConnectionError → Option Nat
  | .collect index _ | .reconnect index _ => some index
  | .poolEmpty | .resolve _ | .connect _ _ => none

/-- The text of an error. -/
def errorText : ConnectionError → String
  | .poolEmpty => "connection pool is empty"
  | .resolve error => "failed to resolve host: " ++ error
  | .connect (some address) error =>
      "failed to establish H2 connection to " ++ address ++ ": " ++ error
  | .connect none error => "failed to establish H2 connection: " ++ error
  | .collect index error =>
      "failed while collecting response on connection " ++ toString index ++ ": " ++ error
  | .reconnect index error =>
      "failed to reconnect connection " ++ toString index ++ ": " ++ error

/-- What the network answers to an attempt to connect: the addresses of the host, and
how the connection to each of them goes. -/
structure Dial where
  toSocketAddrs : Except String (List SocketAddr)
  connect : SocketAddr → Except String Unit

section Connect

variable (af : AddressFamily) (dial : Dial)

def AddressFamily.admits : AddressFamily → SocketAddr → Bool
  | .auto, _ => true
  | .v4, address => address.isIpv4
  | .v6, address => address.isIpv6

/-- The addresses of the host, as far as they are of the family. -/
def resolve : Except String (List SocketAddr) :=
  match dial.toSocketAddrs with
  | .error error => .error error
  | .ok addrs =>
      let filtered := addrs.filter af.admits
      if filtered.isEmpty then .error "no addresses found for requested family" else .ok filtered

def connectSenderForAddr (addr : SocketAddr) : Except ConnectionError Unit :=
  match dial.connect addr with
  | .ok () => .ok ()
  | .error error => .error (.connect (some addr.text) error)

/-- The loop over the addresses, with the error of the last one tried. -/
def connectEach : Option ConnectionError → List SocketAddr → Except ConnectionError Unit
  | lastError, [] =>
      .error (lastError.getD (.connect none "all resolved addresses failed"))
  | _, addr :: rest =>
      match connectSenderForAddr dial addr with
      | .ok () => .ok ()
      | .error error => connectEach (some error) rest

/-- The addresses are tried in their order. -/
def connectH2 : Except ConnectionError Unit :=
  match resolve af dial with
  | .error error => .error (.resolve error)
  | .ok addrs => connectEach dial none addrs

end Connect

/-- One HTTP/2 connection.  Senders are numbered in the order in which they are opened. -/
structure H2Connection where
  sender : Nat
  healthy : Bool
  deriving DecidableEq, Repr

structure ConnectionHealth where
  index : Nat
  healthy : Bool
  lastError : Option String
  deriving DecidableEq, Repr

/-- What a reconnect was made for. -/
inductive Purpose where
  /-- `ensure_healthy` before a request is sent. -/
  | send
  /-- `collect` failed with this error. -/
  | report (error : ConnectionError)
  /-- A health check has found the connection dead, after these statuses. -/
  | check (statuses : List ConnectionHealth)
  /-- `reconnect` or `report_failure` was called for itself. -/
  | direct

/-- Where a task stands inside the functions of the pool. -/
inductive Phase where
  | idle
  /-- The index is acquired; the health of its connection is to be read. -/
  | acquired (index : Nat)
  /-- The connection was found healthy or is new; the request is to be handed over. -/
  | ready (index : Nat)
  /-- The request was handed to the sender; the response is to be collected. -/
  | sent (index sender : Nat)
  /-- The collection failed; the failure is to be reported. -/
  | failed (index sender : Nat) (error : ConnectionError)
  | connecting (index : Nat) (purpose : Purpose)
  /-- The new sender is to be put in its place. -/
  | connected (index sender : Nat) (purpose : Purpose)
  /-- The health check has come to this connection. -/
  | checking (index : Nat) (statuses : List ConnectionHealth)

/-- The pool with its tasks. -/
structure Pool (Task : Type) where
  af : AddressFamily
  connections : List H2Connection
  nextIndex : Nat
  opened : Nat
  phase : Task → Phase

inductive Returned where
  | send (result : Except ConnectionError (Response × Nat))
  | reconnect (result : Except ConnectionError Unit)
  | healthCheck (statuses : List ConnectionHealth)

/-- What the steps of the tasks let an observer see. -/
inductive Event (Task : Type) where
  | acquired (task : Task) (index : Nat)
  /-- The task has passed `ensure_healthy`. -/
  | passed (task : Task)
  | handedOver (task : Task) (sender : Nat)
  /-- The sender was found dead. -/
  | marked (sender : Nat)
  /-- A health check on the sender has succeeded. -/
  | cleared (sender : Nat)
  | returned (task : Task) (result : Returned)

/-- A call that a task begins, or the next step of the one that it has begun. -/
inductive Action (Task : Type) where
  | send (task : Task)
  | reportFailure (task : Task) (index : Nat)
  | reconnect (task : Task) (index : Nat)
  | healthCheck (task : Task)
  | readHealth (task : Task)
  | handOver (task : Task)
  | collect (task : Task) (answer : Except String Response)
  | markFailed (task : Task)
  | connect (task : Task) (dial : Dial)
  | install (task : Task)
  | check (task : Task) (answer : Except String Unit)

section Steps

variable {Task : Type} [DecidableEq Task]

namespace Pool

/-- The pool after `warmup`. -/
def warm (af : AddressFamily) (poolSize : Nat) : Pool Task :=
  { af
    connections := (List.range poolSize).map fun sender => { sender, healthy := true }
    nextIndex := 0
    opened := poolSize
    phase := fun _ => .idle }

def moveTo (self : Pool Task) (task : Task) (phase : Phase) : Pool Task :=
  { self with phase := Function.update self.phase task phase }

def setHealthy (self : Pool Task) (index : Nat) (healthy : Bool) : Pool Task :=
  { self with connections := self.connections.modify index fun conn => { conn with healthy } }

def senderAt (self : Pool Task) (index : Nat) : Option Nat :=
  (self.connections[index]?).map H2Connection.sender

/-- `ConnectionPool::acquire`: the connections take turns. -/
def acquire (self : Pool Task) : Except ConnectionError (Pool Task × Nat) :=
  if self.connections.isEmpty then .error .poolEmpty
  else
    .ok ({ self with nextIndex := wrappingAdd self.nextIndex 1 },
      self.nextIndex % self.connections.length)

variable (self : Pool Task) (task : Task)

/-- A send begins with the connection whose turn it is. -/
def startSend : Pool Task × List (Event Task) :=
  match self.acquire with
  | .error error => (self, [.returned task (.send (.error error))])
  | .ok (pool, index) => (pool.moveTo task (.acquired index), [.acquired task index])

/-- The first half of `ensure_healthy`. -/
def readHealth (index : Nat) : Pool Task × List (Event Task) :=
  match self.connections[index]? with
  | none => (self, [])
  | some conn =>
      if conn.healthy then (self.moveTo task (.ready index), [.passed task])
      else (self.moveTo task (.connecting index .send), [])

/-- The second half of `send_start`. -/
def handOver (index : Nat) : Pool Task × List (Event Task) :=
  match self.senderAt index with
  | none => (self, [])
  | some sender => (self.moveTo task (.sent index sender), [.handedOver task sender])

/-- The response of a request that was handed over, or its failure. -/
def collect (index sender : Nat) : Except String Response → Pool Task × List (Event Task)
  | .ok resp => (self.moveTo task .idle, [.returned task (.send (.ok (resp, index)))])
  | .error error => (self.moveTo task (.failed index sender (.collect index error)), [])

/-- The first half of `report_failure`. -/
def markUnhealthy (index : Nat) (purpose : Purpose) : Pool Task × List (Event Task) :=
  match self.senderAt index with
  | none =>
      (self.moveTo task .idle,
        [.returned task (.reconnect (.error (.reconnect index "connection index out of range")))])
  | some sender =>
      ((self.setHealthy index false).moveTo task (.connecting index purpose), [.marked sender])

/-- `collect` drops the result of `report_failure` and returns its own error. -/
def markFailed (index sender : Nat) (error : ConnectionError) : Pool Task × List (Event Task) :=
  match self.senderAt index with
  | none => (self.moveTo task .idle, [.returned task (.send (.error error))])
  | some current =>
      ((self.setHealthy index false).moveTo task (.connecting index (.report error)),
        [.marked sender, .marked current])

/-- The head of the loop of `health_check_detailed`. -/
def checkFrom (index : Nat) (statuses : List ConnectionHealth) :
    Pool Task × List (Event Task) :=
  if index < self.connections.length then (self.moveTo task (.checking index statuses), [])
  else (self.moveTo task .idle, [.returned task (.healthCheck statuses)])

/-- A reconnect returns to what it was made for. -/
def afterReconnect (index : Nat) (result : Except ConnectionError Unit) :
    Purpose → Pool Task × List (Event Task)
  | .send =>
      match result with
      | .ok () => (self.moveTo task (.ready index), [.passed task])
      | .error error => (self.moveTo task .idle, [.returned task (.send (.error error))])
  | .report error => (self.moveTo task .idle, [.returned task (.send (.error error))])
  | .check statuses => self.checkFrom task (index + 1) statuses
  | .direct => (self.moveTo task .idle, [.returned task (.reconnect result)])

/-- The first half of `reconnect`.  The sender is opened before the index is looked at. -/
def connect (index : Nat) (purpose : Purpose) (dial : Dial) : Pool Task × List (Event Task) :=
  match connectH2 self.af dial with
  | .error error =>
      self.afterReconnect task index (.error (.reconnect index (errorText error))) purpose
  | .ok () =>
      ({ self.moveTo task (.connected index self.opened purpose) with
          opened := self.opened + 1 }, [])

/-- The second half of `reconnect`. -/
def install (index sender : Nat) (purpose : Purpose) : Pool Task × List (Event Task) :=
  if index < self.connections.length then
    { self with connections := self.connections.set index { sender, healthy := true } }
      |>.afterReconnect task index (.ok ()) purpose
  else
    self.afterReconnect task index
      (.error (.reconnect index "connection index out of range")) purpose

/-- One turn of the loop of `health_check_detailed`.  The lock is held until the answer
has come. -/
def check (index : Nat) (statuses : List ConnectionHealth) (answer : Except String Unit) :
    Pool Task × List (Event Task) :=
  match self.senderAt index with
  | none => (self, [])
  | some sender =>
      match answer with
      | .ok () =>
          let status := { index, healthy := true, lastError := none }
          let (pool, events) :=
            (self.setHealthy index true).checkFrom task (index + 1) (statuses ++ [status])
          (pool, .cleared sender :: events)
      | .error error =>
          let status := { index, healthy := false, lastError := some error }
          ((self.setHealthy index false).moveTo task
            (.connecting index (.check (statuses ++ [status]))), [.marked sender])

end Pool

/-- One step of one task. A step that does not fit the task's phase changes nothing. -/
def step (pool : Pool Task) (action : Action Task) : Pool Task × List (Event Task) :=
  match action with
  | .send task =>
      match pool.phase task with
      | .idle => pool.startSend task
      | _ => (pool, [])
  | .reportFailure task index =>
      match pool.phase task with
      | .idle => pool.markUnhealthy task index .direct
      | _ => (pool, [])
  | .reconnect task index =>
      match pool.phase task with
      | .idle => (pool.moveTo task (.connecting index .direct), [])
      | _ => (pool, [])
  | .healthCheck task =>
      match pool.phase task with
      | .idle => pool.checkFrom task 0 []
      | _ => (pool, [])
  | .readHealth task =>
      match pool.phase task with
      | .acquired index => pool.readHealth task index
      | _ => (pool, [])
  | .handOver task =>
      match pool.phase task with
      | .ready index => pool.handOver task index
      | _ => (pool, [])
  | .collect task answer =>
      match pool.phase task with
      | .sent index sender => pool.collect task index sender answer
      | _ => (pool, [])
  | .markFailed task =>
      match pool.phase task with
      | .failed index sender error => pool.markFailed task index sender error
      | _ => (pool, [])
  | .connect task dial =>
      match pool.phase task with
      | .connecting index purpose => pool.connect task index purpose dial
      | _ => (pool, [])
  | .install task =>
      match pool.phase task with
      | .connected index sender purpose => pool.install task index sender purpose
      | _ => (pool, [])
  | .check task answer =>
      match pool.phase task with
      | .checking index statuses => pool.check task index statuses answer
      | _ => (pool, [])

/-- The count that `health_check` returns. -/
def healthyCount (statuses : List ConnectionHealth) : Nat :=
  (statuses.filter ConnectionHealth.healthy).length

end Steps

end Rtt.ConnectionPool
