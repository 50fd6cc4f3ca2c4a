import Mathlib.Data.List.Basic

/-!
A bounded queue between two tasks.  The sender holds one message at a time and waits
with it for room; what becomes of the messages after one side has gone is accounted for.
-/

namespace Rtt.RelayLink

/-- A bounded queue with the message that its sender waits with. -/
structure Link (μ : Type*) (capacity : Nat) where
  held : Option μ
  queue : List μ
  senderGone : Bool
  receiverGone : Bool
  fits : queue.length ≤ capacity

variable {μ : Type*} {capacity : Nat}

namespace Link

def empty : Link μ capacity :=
  { held := none, queue := [], senderGone := false, receiverGone := false, fits := Nat.zero_le _ }

/-- The sender is there and has nothing in hand. -/
def isIdle (self : Link μ capacity) : Bool := self.held.isNone && !self.senderGone

/-- The sender takes up a message, if it has none. -/
def offer (self : Link μ capacity) (message : μ) : Link μ capacity :=
  if self.isIdle then { self with held := some message } else self

/-- The sender puts its message into the queue once there is room.  When the receiver has
gone the message is dropped and the sender goes as well. -/
def deliver (self : Link μ capacity) : Link μ capacity :=
  match self.held with
  | none => self
  | some message =>
      if self.receiverGone then { self with held := none, senderGone := true }
      else if h : self.queue.length < capacity then
        { self with
          held := none
          queue := self.queue ++ [message]
          fits := by
            rw [List.length_append, List.length_singleton]
            exact h }
      else self

def take (self : Link μ capacity) : Link μ capacity × Option μ :=
  if self.receiverGone then (self, none)
  else
    match h : self.queue with
    | [] => (self, none)
    | message :: rest =>
        ({ self with
           queue := rest
           fits := by
            have hfits := self.fits
            rw [h, List.length_cons] at hfits
            omega }, some message)

/-- A sender ends between two messages only. -/
def closeSender (self : Link μ capacity) : Link μ capacity :=
  if self.isIdle then { self with senderGone := true } else self

/-- The receiver goes; the sender notices it at its next delivery. -/
def closeReceiver (self : Link μ capacity) : Link μ capacity := { self with receiverGone := true }

/-- The receiver learns that no more messages will come. -/
def isEnded (self : Link μ capacity) : Bool := self.queue.isEmpty && self.senderGone

/-- What has been offered and is not yet taken, in its order. -/
def pending (self : Link μ capacity) : List μ := self.queue ++ self.held.toList

end Link

/-- Everything offered was taken in its order, is pending or was dropped, and at most one
message is dropped, when both sides have gone. -/
structure Carries (link : Link μ capacity) (offered taken : List μ) : Prop where
  conserves : ∃ dropped, offered = taken ++ link.pending ++ dropped ∧ dropped.length ≤ 1 ∧
    (dropped ≠ [] → link.senderGone = true ∧ link.receiverGone = true)
  gone : link.senderGone = true → link.held = none

namespace Carries

variable {link : Link μ capacity} {offered taken : List μ}

theorem empty : Carries (Link.empty : Link μ capacity) [] [] where
  conserves := ⟨[], rfl, Nat.zero_le _, fun h => absurd rfl h⟩
  gone _ := rfl

theorem isIdle_iff : link.isIdle = true ↔ link.held = none ∧ link.senderGone = false := by
  simp [Link.isIdle]

theorem offer (h : Carries link offered taken) (hidle : link.isIdle = true) (message : μ) :
    Carries (link.offer message) (offered ++ [message]) taken := by
  obtain ⟨hheld, hthere⟩ := isIdle_iff.mp hidle
  obtain ⟨dropped, hoffered, hlength, hdropped⟩ := h.conserves
  obtain rfl : dropped = [] := by
    by_contra hne
    exact Bool.false_ne_true (hthere.symm.trans (hdropped hne).1)
  rw [Link.offer, if_pos hidle]
  constructor
  · refine ⟨[], ?_, hlength, hdropped⟩
    simp only [hoffered, Link.pending, hheld, Option.toList_none, Option.toList_some,
      List.append_nil, List.append_assoc]
  · intro hgone
    exact absurd (hthere.symm.trans hgone) Bool.false_ne_true

theorem deliver (h : Carries link offered taken) : Carries link.deliver offered taken := by
  obtain ⟨dropped, hoffered, hlength, hdropped⟩ := h.conserves
  rw [Link.deliver]
  split
  · exact h
  · rename_i message hheld
    have hthere : link.senderGone ≠ true := by
      intro hgone
      rw [h.gone hgone] at hheld
      exact nomatch hheld
    have hnone : dropped = [] := by
      by_contra hne
      exact hthere (hdropped hne).1
    subst hnone
    have hpending : offered = taken ++ (link.queue ++ [message]) := by
      rw [hoffered, Link.pending, hheld, Option.toList_some, List.append_nil]
    split
    · rename_i hgone
      refine ⟨⟨[message], ?_, Nat.le_refl 1, fun _ => ⟨rfl, hgone⟩⟩, fun _ => rfl⟩
      rw [hpending, Link.pending, Option.toList_none, List.append_nil, List.append_assoc]
    · split
      · refine ⟨⟨[], ?_, hlength, fun hne => absurd rfl hne⟩, fun _ => rfl⟩
        rw [hpending, Link.pending, Option.toList_none, List.append_nil, List.append_nil]
      · exact h

theorem take (h : Carries link offered taken) :
    Carries link.take.1 offered (taken ++ link.take.2.toList) := by
  obtain ⟨dropped, hoffered, hlength, hdropped⟩ := h.conserves
  rw [Link.take]
  split
  · rwa [Option.toList_none, List.append_nil]
  · split
    · rwa [Option.toList_none, List.append_nil]
    · rename_i message rest hqueue
      refine ⟨⟨dropped, ?_, hlength, hdropped⟩, h.gone⟩
      simp only [hoffered, Link.pending, hqueue, Option.toList_some, List.append_assoc,
        List.cons_append, List.nil_append]

theorem closeSender (h : Carries link offered taken) :
    Carries link.closeSender offered taken := by
  obtain ⟨dropped, hoffered, hlength, hdropped⟩ := h.conserves
  rw [Link.closeSender]
  split
  · rename_i hidle
    refine ⟨⟨dropped, hoffered, hlength, ?_⟩, fun _ => (isIdle_iff.mp hidle).1⟩
    exact fun hne => ⟨rfl, (hdropped hne).2⟩
  · exact h

theorem closeReceiver (h : Carries link offered taken) :
    Carries link.closeReceiver offered taken := by
  obtain ⟨dropped, hoffered, hlength, hdropped⟩ := h.conserves
  exact ⟨⟨dropped, hoffered, hlength, fun hne => ⟨(hdropped hne).1, rfl⟩⟩, h.gone⟩

theorem taken_prefix (h : Carries link offered taken) : taken <+: offered := by
  obtain ⟨dropped, hoffered, -, -⟩ := h.conserves
  exact ⟨link.pending ++ dropped, by rw [hoffered, List.append_assoc]⟩

end Carries

end Rtt.RelayLink
