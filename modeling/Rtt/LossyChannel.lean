import Rtt.Machine

/-!
A bounded channel that drops its oldest message to make room for a new one, as
the receiver at its end sees it.
-/

namespace Rtt.LossyChannel

open Rtt.Machine

/-- `missed` counts the dropped messages that the receiver has not been told of. -/
structure Channel (μ : Type*) (capacity : Nat) where
  backlog : List μ
  missed : Nat
  fits : backlog.length ≤ capacity

/-- A step of the sender or of the receiver. -/
inductive ChannelOp (μ : Type*) where
  | send (message : μ)
  | recv

/-- What the receiver is told: a message, how many it has missed, or that there is none. -/
inductive Received (μ : Type*) where
  | message (item : μ)
  | lagged (missed : Nat)
  | pending

/-- How a message has left the channel. -/
inductive Departure (μ : Type*) where
  | taken (message : μ)
  | lost (message : μ)

def Departure.message {μ : Type*} : Departure μ → μ
  | .taken message | .lost message => message

def Departure.taken? {μ : Type*} : Departure μ → Option μ
  | .taken message => some message
  | .lost _ => none

variable {μ : Type*} {capacity : Nat}

def Received.departures : Received μ → List (Departure μ)
  | .message item => [.taken item]
  | .lagged _ | .pending => []

namespace Channel

def empty : Channel μ capacity := { backlog := [], missed := 0, fits := Nat.zero_le _ }

/-- The channel after a send, and the message that had to go for it. -/
def send (self : Channel μ capacity) (message : μ) : Channel μ capacity × Option μ :=
  let queue := self.backlog ++ [message]
  if h : queue.length ≤ capacity then ({ self with backlog := queue, fits := h }, none)
  else
    ({ backlog := queue.tail
       missed := self.missed + 1
       fits := by
        have hfits := self.fits
        simp only [queue, List.length_tail, List.length_append, List.length_singleton]
        omega },
      queue.head?)

/-- A receiver that has missed messages is told so before it gets the next one. -/
def recv (self : Channel μ capacity) : Channel μ capacity × Received μ :=
  if 0 < self.missed then ({ self with missed := 0 }, .lagged self.missed)
  else
    match h : self.backlog with
    | [] => (self, .pending)
    | message :: rest =>
        ({ self with
           backlog := rest
           fits := by
            have hfits := self.fits
            rw [h, List.length_cons] at hfits
            omega },
          .message message)

/-- The output is what leaves the channel, one way or the other. -/
def step (self : Channel μ capacity) : ChannelOp μ → Channel μ capacity × List (Departure μ)
  | .send message => ((self.send message).1, (self.send message).2.toList.map .lost)
  | .recv => (self.recv.1, self.recv.2.departures)

end Channel

/-- The messages that have left the channel, in the order of their departure. -/
def departures (channel : Channel μ capacity) (ops : List (ChannelOp μ)) : List (Departure μ) :=
  (outputs Channel.step channel ops).flatten

def sent (ops : List (ChannelOp μ)) : List μ :=
  ops.filterMap fun
    | .send message => some message
    | .recv => none

def taken (log : List (Departure μ)) : List μ := log.filterMap Departure.taken?

variable (channel : Channel μ capacity)

theorem send_conserves (message : μ) :
    ((channel.send message).2.toList.map Departure.lost).map Departure.message ++
        (channel.send message).1.backlog = channel.backlog ++ [message] := by
  rw [Channel.send]
  split
  · rfl
  · have hqueue : ∀ queue : List μ,
        (queue.head?.toList.map Departure.lost).map Departure.message ++ queue.tail = queue := by
      intro queue
      cases queue <;> rfl
    exact hqueue _

theorem recv_conserves :
    channel.recv.2.departures.map Departure.message ++ channel.recv.1.backlog =
      channel.backlog := by
  rw [Channel.recv]
  split
  · rfl
  · split
    · simp_all [Received.departures]
    · simp_all [Received.departures, Departure.message]

/-- Messages leave in the order in which they were sent, each of them once. -/
theorem departures_conserve (ops : List (ChannelOp μ)) :
    (departures channel ops).map Departure.message ++ (exec Channel.step channel ops).backlog =
      channel.backlog ++ sent ops := by
  induction ops generalizing channel with
  | nil => simp [departures, outputs, exec, sent]
  | cons op ops ih =>
      have hrest := ih (channel.step op).1
      rw [departures, outputs, List.flatten_cons, List.map_append, List.append_assoc, exec,
        ← departures, hrest]
      cases op with
      | send message =>
          rw [← List.append_assoc, Channel.step, send_conserves, List.append_assoc]
          rfl
      | recv =>
          rw [← List.append_assoc, Channel.step, recv_conserves]
          rfl

theorem map_message_departures {ops : List (ChannelOp μ)}
    (hdrained : (exec Channel.step (.empty : Channel μ capacity) ops).backlog = []) :
    (departures (.empty : Channel μ capacity) ops).map Departure.message = sent ops := by
  have hconserve := departures_conserve (.empty : Channel μ capacity) ops
  rw [hdrained, List.append_nil] at hconserve
  exact hconserve

end Rtt.LossyChannel
