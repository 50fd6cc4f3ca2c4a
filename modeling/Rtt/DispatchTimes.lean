import Rtt.ClobExecutor

namespace Rtt.ClobExecutor

open Rtt.Quote

section Filling

/-- A row of times filled from the front: the entries taken so far ascend, and those
after them are not set. -/
structure Filling (size : Nat) (times taken : List Nat) (latest : Nat) : Prop where
  unset : times = taken ++ List.replicate (size - taken.length) 0
  ascending : taken.Pairwise (· ≤ ·)
  latest : ∀ time ∈ taken, time ≤ latest
  positive : ∀ time ∈ taken.tail, 0 < time

/-- Set the entries that are not set. -/
def backfill (now : Nat) (times : List Nat) : List Nat :=
  times.map fun time => if time = 0 then now else time

theorem backfill_of_positive {now : Nat} {times : List Nat} (h : ∀ time ∈ times, 0 < time) :
    backfill now times = times := by
  calc backfill now times = times.map id :=
        List.map_congr_left fun time htime => if_neg (h time htime).ne'
    _ = times := List.map_id times

variable {size : Nat} {times taken : List Nat} {latest now : Nat}

theorem ascending_concat (h : taken.Pairwise (· ≤ ·)) (hlatest : ∀ time ∈ taken, time ≤ now)
    (rest : Nat) : (taken ++ List.replicate rest now).Pairwise (· ≤ ·) := by
  rw [List.pairwise_append]
  refine ⟨h, List.pairwise_replicate.mpr (Or.inr le_rfl), ?_⟩
  intro time htime last hlast
  rw [List.eq_of_mem_replicate hlast]
  exact hlatest time htime

namespace Filling

theorem start (size trigger : Nat) :
    Filling size (trigger :: List.replicate (size - 1) 0) [trigger] trigger where
  unset := rfl
  ascending := List.pairwise_singleton _ _
  latest := by simp
  positive := by simp

theorem set (h : Filling size times taken latest) (place : Nat) (hplace : taken.length = place)
    (hsome : 0 < place) (hroom : place < size) (hlatest : latest ≤ now) (hnow : 0 < now) :
    Filling size (times.set place now) (taken ++ [now]) now where
  unset := by
    obtain ⟨rest, hrest⟩ : ∃ rest, size - taken.length = rest + 1 :=
      ⟨size - taken.length - 1, by omega⟩
    have hless : size - (taken ++ [now]).length = rest := by
      rw [List.length_append, List.length_singleton]
      omega
    rw [hless, h.unset, hrest, ← hplace, List.set_append_right _ _ le_rfl, Nat.sub_self,
      List.replicate_succ, List.set_cons_zero, List.append_assoc, List.singleton_append]
  ascending :=
    ascending_concat h.ascending (fun time htime => (h.latest time htime).trans hlatest) 1
  latest := by
    refine List.forall_mem_append.mpr ⟨?_, List.forall_mem_singleton.mpr le_rfl⟩
    exact fun time htime => (h.latest time htime).trans hlatest
  positive := by
    rw [List.tail_append_of_ne_nil (List.ne_nil_of_length_pos (hplace ▸ hsome))]
    exact List.forall_mem_append.mpr ⟨h.positive, List.forall_mem_singleton.mpr hnow⟩

theorem ascending_of_full (h : Filling size times taken latest) (hfull : taken.length = size) :
    times.Pairwise (· ≤ ·) := by
  rw [h.unset, hfull, Nat.sub_self, List.replicate_zero, List.append_nil]
  exact h.ascending

theorem ascending_backfill (h : Filling size times taken latest) (place : Nat)
    (hsome : 0 < place) (hplace : place ≤ taken.length) (hlatest : latest ≤ now) :
    (times.take place ++ backfill now (times.drop place)).Pairwise (· ≤ ·) := by
  have hpositive : ∀ time ∈ taken.drop place, 0 < time := by
    intro time htime
    refine h.positive time ?_
    rw [← List.drop_one]
    exact List.drop_subset_drop_left taken hsome htime
  have hfilled : times.take place ++ backfill now (times.drop place) =
      taken ++ backfill now (List.replicate (size - taken.length) 0) := by
    rw [h.unset, List.take_append_of_le_length hplace, List.drop_append_of_le_length hplace,
      backfill, List.map_append, ← backfill, ← backfill, backfill_of_positive hpositive,
      ← List.append_assoc, List.take_append_drop]
  rw [hfilled, backfill, List.map_replicate, if_pos rfl]
  exact ascending_concat h.ascending (fun time htime => (h.latest time htime).trans hlatest) _

end Filling

end Filling

namespace TimestampRecord

def queueDelay (self : TimestampRecord) : Nat := self.tExecStart - self.tTriggerRx

def prepTime (self : TimestampRecord) : Nat := self.tBufReady - self.tExecStart

def triggerToWire (self : TimestampRecord) : Nat := self.tWriteBegin - self.tTriggerRx

def writeDuration (self : TimestampRecord) : Nat := self.tWriteEnd - self.tWriteBegin

def writeToFirstByte (self : TimestampRecord) : Nat := self.tFirstRespByte - self.tWriteEnd

/-- From the first byte written to the first one read. -/
def warmTtfb (self : TimestampRecord) : Nat := self.tFirstRespByte - self.tWriteBegin

def triggerToFirstByte (self : TimestampRecord) : Nat := self.tFirstRespByte - self.tTriggerRx

/-- The eight checkpoints, in the order in which a dispatch passes them. -/
def checkpoints (self : TimestampRecord) : List Nat :=
  [self.tTriggerRx, self.tDispatchQ, self.tExecStart, self.tBufReady, self.tWriteBegin,
    self.tWriteEnd, self.tFirstRespByte, self.tHeadersDone]

/-- The checkpoints of a record ascend. -/
structure Ordered (record : TimestampRecord) : Prop where
  ascending : record.checkpoints.Pairwise (· ≤ ·)
  sign : record.tSignStart ≤ record.tSignEnd

namespace Ordered

variable {record : TimestampRecord}

theorem chain (h : record.Ordered) :
    record.tTriggerRx ≤ record.tExecStart ∧ record.tExecStart ≤ record.tBufReady ∧
      record.tBufReady ≤ record.tWriteBegin ∧ record.tWriteBegin ≤ record.tWriteEnd ∧
      record.tWriteEnd ≤ record.tFirstRespByte := by
  have hpairs := h.ascending
  simp only [checkpoints, List.pairwise_cons, List.mem_cons, forall_eq_or_imp] at hpairs
  omega

theorem triggerToWire_eq (h : record.Ordered) :
    record.triggerToWire =
      record.queueDelay + record.prepTime + (record.tWriteBegin - record.tBufReady) := by
  obtain ⟨hqueue, hprep, hready, -, -⟩ := h.chain
  unfold triggerToWire queueDelay prepTime
  omega

theorem warmTtfb_eq (h : record.Ordered) :
    record.warmTtfb = record.writeDuration + record.writeToFirstByte := by
  obtain ⟨-, -, -, hwrite, hfirst⟩ := h.chain
  unfold warmTtfb writeDuration writeToFirstByte
  omega

theorem triggerToFirstByte_eq (h : record.Ordered) :
    record.triggerToFirstByte =
      record.queueDelay + record.prepTime + (record.tWriteBegin - record.tBufReady) +
        record.writeDuration + record.writeToFirstByte := by
  obtain ⟨hqueue, hprep, hready, hwrite, hfirst⟩ := h.chain
  have hsplit : record.triggerToFirstByte = record.triggerToWire + record.warmTtfb := by
    unfold triggerToFirstByte triggerToWire warmTtfb
    omega
  rw [hsplit, h.triggerToWire_eq, h.warmTtfb_eq, Nat.add_assoc _ record.writeDuration]

end Ordered

end TimestampRecord

def DispatchOutcome.record : DispatchOutcome → TimestampRecord
  | .sent record _ => record
  | .rejected record _ => record

section Stamp

variable {Order Signature Request : Type} (outside : Outside Order Signature Request)

theorem tTriggerRx_send (reads : Nat) (record : TimestampRecord) (resp : Response) :
    (send outside reads record resp).record.tTriggerRx = record.tTriggerRx := by
  rw [send]
  split <;> rfl

theorem tTriggerRx_dispatchRequest (reads : Nat) (req : Request) (record : TimestampRecord) :
    (dispatchRequest outside reads req record).record.tTriggerRx = record.tTriggerRx := by
  simp only [dispatchRequest]
  split
  · rfl
  · split
    · exact tTriggerRx_send outside _ _ _
    · rfl

theorem tTriggerRx_signAndDispatch (trigger : TriggerMessage) :
    (signAndDispatch outside trigger).record.tTriggerRx = trigger.timestampNs := by
  simp only [signAndDispatch]
  split
  · rfl
  · split
    · rfl
    · split
      · rfl
      · split
        · rfl
        · exact tTriggerRx_dispatchRequest outside _ _ _

theorem tTriggerRx_processOneClob (presigned : PreSignedOrderPool) (trigger : TriggerMessage) :
    (processOneClob outside presigned trigger).2.record.tTriggerRx = trigger.timestampNs := by
  simp only [processOneClob]
  split
  · exact tTriggerRx_dispatchRequest outside _ _ _
  · rfl
  · rfl

end Stamp

/-- The record of the outcome is in order, its durations add up, and it is marked as a
reconnect just in case the dispatch failed on a connection. -/
structure Timely (outcome : DispatchOutcome) : Prop where
  ordered : outcome.record.Ordered
  adds : outcome.record.triggerToFirstByte =
    outcome.record.queueDelay + outcome.record.prepTime +
      (outcome.record.tWriteBegin - outcome.record.tBufReady) +
      outcome.record.writeDuration + outcome.record.writeToFirstByte
  marked : outcome.record.isReconnect = true ↔ IsColdFailure outcome

theorem Timely.of_ordered {outcome : DispatchOutcome} (hordered : outcome.record.Ordered)
    (hmarked : outcome.record.isReconnect = true ↔ IsColdFailure outcome) : Timely outcome :=
  ⟨hordered, hordered.triggerToFirstByte_eq, hmarked⟩

theorem isColdFailure_rejected_iff {record : TimestampRecord} {error : DispatchError} :
    IsColdFailure (.rejected record error) ↔
      ∃ failure, error = .connection failure ∧ failure ≠ .poolEmpty := by
  constructor
  · rintro ⟨_, failure, heq, hfailure⟩
    exact ⟨failure, (DispatchOutcome.rejected.inj heq).2, hfailure⟩
  · rintro ⟨failure, rfl, hfailure⟩
    exact ⟨record, failure, rfl, hfailure⟩

section

variable {Order Signature Request : Type} {outside : Outside Order Signature Request}
  {reads : Nat} {record : TimestampRecord} {taken : List Nat} {latest : Nat}

theorem reject_timely {error : DispatchError} {isReconnect : Bool}
    (h : Filling 8 record.checkpoints taken latest)
    (hbegun : 3 ≤ taken.length) (hsign : record.tSignStart ≤ record.tSignEnd)
    (hlatest : latest ≤ outside.nowNs reads)
    (hmark : isReconnect = true ↔ ∃ failure, error = .connection failure ∧ failure ≠ .poolEmpty) :
    Timely (reject outside reads record error isReconnect) := by
  refine Timely.of_ordered ⟨?_, hsign⟩ ?_
  · exact h.ascending_backfill 3 (by decide) hbegun hlatest
  · exact hmark.trans isColdFailure_rejected_iff.symm

theorem reject_early_timely {error : DispatchError}
    (h : Filling 8 record.checkpoints taken latest)
    (hbegun : 3 ≤ taken.length) (hsign : record.tSignStart ≤ record.tSignEnd)
    (hlatest : latest ≤ outside.nowNs reads)
    (hbefore : ∀ failure, error ≠ .connection failure) :
    Timely (reject outside reads record error false) := by
  refine reject_timely h hbegun hsign hlatest (iff_of_false Bool.false_ne_true ?_)
  rintro ⟨failure, herror, -⟩
  exact hbefore failure herror

theorem reject_connection_timely {failure : ConnectionError}
    (h : Filling 8 record.checkpoints taken latest)
    (hbegun : 3 ≤ taken.length) (hsign : record.tSignStart ≤ record.tSignEnd)
    (hlatest : latest ≤ outside.nowNs reads) :
    Timely (reject outside reads record (.connection failure)
      (connectionFailureIsReconnect failure)) := by
  refine reject_timely h hbegun hsign hlatest ?_
  simp [connectionFailureIsReconnect]

theorem sent_timely {body : Option Bytes} (hordered : record.Ordered)
    (hwarm : record.isReconnect = false) : Timely (.sent record body) := by
  refine Timely.of_ordered hordered (iff_of_false ?_ not_isColdFailure_sent)
  rw [DispatchOutcome.record, hwarm]
  exact Bool.false_ne_true

theorem send_timely {resp : Response} (h : Filling 8 record.checkpoints taken latest)
    (htaken : taken.length = 7) (hsign : record.tSignStart ≤ record.tSignEnd)
    (hlatest : latest ≤ outside.nowNs reads) (hnow : 0 < outside.nowNs reads) :
    Timely (send outside reads record resp) := by
  have hdone := h.set 7 htaken (by decide) (by decide) hlatest hnow
  have hfull := hdone.ascending_of_full (by simp [htaken])
  simp only [send]
  split
  · exact sent_timely ⟨hfull, hsign⟩ rfl
  · exact sent_timely ⟨hfull, hsign⟩ rfl

section Clock

variable (hmono : Monotone outside.nowNs) (hpositive : ∀ i, 0 < outside.nowNs i)

include hmono hpositive

theorem dispatchRequest_timely {req : Request} (h : Filling 8 record.checkpoints taken latest)
    (htaken : taken.length = 4) (hsign : record.tSignStart ≤ record.tSignEnd)
    (hlatest : latest ≤ outside.nowNs reads) :
    Timely (dispatchRequest outside reads req record) := by
  have hnext : ∀ i, outside.nowNs i ≤ outside.nowNs (i + 1) := fun i => hmono (Nat.le_succ i)
  have hbegin := h.set 4 htaken (by decide) (by decide) hlatest (hpositive reads)
  have hend := hbegin.set 5 (by simp [htaken]) (by decide) (by decide) (hnext reads)
    (hpositive (reads + 1))
  simp only [dispatchRequest]
  split
  · exact reject_connection_timely hend (by simp [htaken]) hsign (hnext (reads + 1))
  · have hbyte := hend.set 6 (by simp [htaken]) (by decide) (by decide) (hnext (reads + 1))
      (hpositive (reads + 2))
    split
    · exact send_timely hbyte (by simp [htaken]) hsign (hnext (reads + 2)) (hpositive (reads + 3))
    · exact reject_connection_timely hbyte (by simp [htaken]) hsign (hnext (reads + 2))

variable (trigger : TriggerMessage) (htrigger : trigger.timestampNs ≤ outside.nowNs 0)

include htrigger

theorem filling_begun :
    Filling 8 [trigger.timestampNs, outside.nowNs 0, outside.nowNs 1, 0, 0, 0, 0, 0]
      [trigger.timestampNs, outside.nowNs 0, outside.nowNs 1] (outside.nowNs 1) :=
  ((Filling.start 8 trigger.timestampNs).set 1 rfl (by decide) (by decide) htrigger
    (hpositive 0)).set 2 rfl (by decide) (by decide) (hmono (Nat.le_succ 0)) (hpositive 1)

theorem signAndDispatch_timely : Timely (signAndDispatch outside trigger) := by
  have hnext : ∀ i, outside.nowNs i ≤ outside.nowNs (i + 1) := fun i => hmono (Nat.le_succ i)
  have hbegun := filling_begun hmono hpositive trigger htrigger
  have hsigned : outside.nowNs 1 ≤ outside.nowNs 4 := hmono (by decide)
  simp only [signAndDispatch]
  split
  · exact reject_early_timely hbegun le_rfl le_rfl (hnext 1) (by simp)
  · split
    · exact reject_early_timely hbegun le_rfl (hnext 2) hsigned (by simp)
    · split
      · exact reject_early_timely hbegun le_rfl (hnext 2) hsigned (by simp)
      · split
        · exact reject_early_timely hbegun le_rfl (hnext 2) hsigned (by simp)
        · have hready := hbegun.set 3 rfl (by decide) (by decide) hsigned (hpositive 4)
          exact dispatchRequest_timely hmono hpositive hready rfl (hnext 2) (hnext 4)

theorem processOneClob_timely (presigned : PreSignedOrderPool) :
    Timely (processOneClob outside presigned trigger).2 := by
  have hnext : ∀ i, outside.nowNs i ≤ outside.nowNs (i + 1) := fun i => hmono (Nat.le_succ i)
  have hready := (filling_begun hmono hpositive trigger htrigger).set 3 rfl (by decide)
    (by decide) (hnext 1) (hpositive 2)
  simp only [processOneClob]
  split
  · exact dispatchRequest_timely hmono hpositive hready rfl le_rfl (hnext 2)
  · exact reject_early_timely hready (by simp) le_rfl (hnext 2) (by simp)
  · exact reject_early_timely hready (by simp) le_rfl (hnext 2) (by simp)

end Clock

end

/-- Over a clock that does not run backwards, both dispatches return a timely record
whatever becomes of the order. -/
theorem dispatch_records_timely {Order Signature Request : Type}
    (outside : Outside Order Signature Request) (presigned : PreSignedOrderPool)
    (trigger : TriggerMessage) (hmono : Monotone outside.nowNs)
    (hpositive : ∀ i, 0 < outside.nowNs i) (htrigger : trigger.timestampNs ≤ outside.nowNs 0) :
    Timely (signAndDispatch outside trigger) ∧
      Timely (processOneClob outside presigned trigger).2 :=
  ⟨signAndDispatch_timely hmono hpositive trigger htrigger,
    processOneClob_timely hmono hpositive trigger htrigger presigned⟩

section Sample

/-- An exchange that drops the connection before it answers. -/
def dropping : Outside Unit Unit Unit where
  buildOrder _ := .ok ()
  signOrder _ := .ok ()
  encodeOrderPayload _ _ _ := .ok []
  buildOrderRequest _ := .ok ()
  sendStart _ := .ok { connectionIndex := 1 }
  collect handle := .error (.collect handle.connectionIndex "connection reset")
  nowNs reads := 200 + 10 * reads

def sampleTrigger : TriggerMessage :=
  { triggerId := 1, tokenId := "token_abc", side := .buy, price := "0.50", size := "10"
    orderType := .gtc, timestampNs := 100 }

theorem dispatch_records_timely_dropping :
    (signAndDispatch dropping sampleTrigger).record.isReconnect = true ∧
      Timely (signAndDispatch dropping sampleTrigger) ∧
      Timely (processOneClob dropping { bodies := [[1]], cursor := 1 } sampleTrigger).2 := by
  have hmono : Monotone dropping.nowNs := by
    intro i j hij
    change 200 + 10 * i ≤ 200 + 10 * j
    omega
  have hpositive : ∀ i, 0 < dropping.nowNs i := by
    intro i
    change 0 < 200 + 10 * i
    omega
  exact ⟨by decide, dispatch_records_timely dropping _ sampleTrigger hmono hpositive (by decide)⟩

end Sample

end Rtt.ClobExecutor
