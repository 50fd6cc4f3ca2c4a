import Rtt.Machine
import Rtt.OrderWire

namespace Rtt.PresignedRuns

open Rtt.Quote
open Rtt.ClobOrder
open Rtt.ClobExecutor
open Rtt.ClobRequest
open Rtt.JsonText
open Rtt.Machine
open Rtt.OrderWire
open Rtt.RegistryProvider (bind_eq_ok)

inductive Call where
  | dispatch (creds : L2Credentials) (now : Except String Nat)
  | dispatchWithTimestamp (creds : L2Credentials) (timestamp : String)
  | resetCursor

def Call.isReset : Call → Bool
  | .resetCursor => true
  | _ => false

section Calls

variable {Header : Type} (crates : Crates Header)

abbrev Dispatched (Header : Type) : Type := Except RequestBuildError (Option (Request Header))

/-- One call; the output is the request, if there is one. -/
def step (pool : PreSignedOrderPool) : Call → PreSignedOrderPool × Dispatched Header
  | .dispatch creds now => Pool.dispatch crates pool creds now
  | .dispatchWithTimestamp creds timestamp =>
      Pool.dispatchWithTimestamp crates pool creds timestamp
  | .resetCursor => (pool.resetCursor, .ok none)

/-- What a call has to give: the request built from the next payload itself. -/
def plainResult (payloads : List SignedOrderPayload) (taken : Nat) : Call → Dispatched Header
  | .dispatch creds now =>
      match payloads[taken]? with
      | none => .ok none
      | some payload => (buildOrderRequest crates payload creds now).map some
  | .dispatchWithTimestamp creds timestamp =>
      match payloads[taken]? with
      | none => .ok none
      | some payload => (buildOrderRequestWithTimestamp crates payload creds timestamp).map some
  | .resetCursor => .ok none

/-- The dispatches since the last reset. -/
def sinceReset (calls : List Call) : Nat :=
  (calls.reverse.takeWhile fun call => !call.isReset).length

theorem sinceReset_concat (calls : List Call) (call : Call) :
    sinceReset (calls ++ [call]) = if call.isReset then 0 else sinceReset calls + 1 := by
  rw [sinceReset, List.reverse_append, List.reverse_singleton, List.singleton_append,
    List.takeWhile_cons]
  cases call.isReset <;> simp [sinceReset]

def bodyOf (payload : SignedOrderPayload) : Bytes := encodeUtf8 payload.toValue.render

/-- The pool of these payloads, after this many dispatches since the last reset. -/
def poolAt (payloads : List SignedOrderPayload) (taken : Nat) : PreSignedOrderPool :=
  { bodies := payloads.map bodyOf, cursor := min taken payloads.length }

theorem new_eq (payloads : List SignedOrderPayload) :
    Pool.new payloads = .ok (poolAt payloads 0) := by
  have hbodies : payloads.mapM encodeOrderPayload =
      (.ok (payloads.map bodyOf) : Except RequestBuildError (List Bytes)) := by
    induction payloads with
    | nil => rfl
    | cons payload payloads ih =>
        rw [List.mapM_cons, ih]
        rfl
  rw [Pool.new, hbodies, poolAt, Nat.zero_min]
  rfl

theorem dispatch_poolAt {Request : Type} (payloads : List SignedOrderPayload) (taken : Nat)
    (build : Bytes → Except RequestBuildError Request) :
    (poolAt payloads taken).dispatch build =
      (poolAt payloads (taken + 1),
        match payloads[taken]? with
        | none => .ok none
        | some payload => (build (bodyOf payload)).map some) := by
  by_cases hleft : taken < payloads.length
  · have hbody : (poolAt payloads taken).bodies[(poolAt payloads taken).cursor]? =
        some (bodyOf payloads[taken]) := by
      simp [poolAt, Nat.min_eq_left hleft.le, hleft]
    rw [PreSignedOrderPool.dispatch, hbody, List.getElem?_eq_getElem hleft]
    simp [poolAt, Nat.min_eq_left hleft.le, Nat.min_eq_left (Nat.succ_le_of_lt hleft)]
  · have hbody : (poolAt payloads taken).bodies[(poolAt payloads taken).cursor]? = none := by
      simp [poolAt, Nat.min_eq_right (not_lt.mp hleft)]
    rw [PreSignedOrderPool.dispatch, hbody, List.getElem?_eq_none (not_lt.mp hleft)]
    simp [poolAt, Nat.min_eq_right (not_lt.mp hleft),
      Nat.min_eq_right (Nat.le_succ_of_le (not_lt.mp hleft))]

theorem step_poolAt (payloads : List SignedOrderPayload) (taken : Nat) (call : Call) :
    step crates (poolAt payloads taken) call =
      (poolAt payloads (if call.isReset then 0 else taken + 1),
        plainResult crates payloads taken call) := by
  cases call with
  | dispatch creds now => exact dispatch_poolAt payloads taken _
  | dispatchWithTimestamp creds timestamp => exact dispatch_poolAt payloads taken _
  | resetCursor => simp [step, PreSignedOrderPool.resetCursor, poolAt, plainResult, Call.isReset]

theorem exec_poolAt (payloads : List SignedOrderPayload) (calls : List Call) :
    exec (step crates) (poolAt payloads 0) calls = poolAt payloads (sinceReset calls) := by
  induction calls using List.reverseRecOn with
  | nil => rfl
  | append_singleton calls call ih =>
      rw [exec_concat, ih, step_poolAt, sinceReset_concat]

theorem outputs_length {σ ι ο : Type} (step : σ → ι → σ × ο) (start : σ) (inputs : List ι) :
    (outputs step start inputs).length = inputs.length := by
  induction inputs generalizing start with
  | nil => rfl
  | cons input inputs ih => simp [outputs, ih]

theorem outputs_poolAt (payloads : List SignedOrderPayload) (calls : List Call) (i : Nat) :
    (outputs (step crates) (poolAt payloads 0) calls)[i]? =
      calls[i]?.map (plainResult crates payloads (sinceReset (calls.take i))) := by
  induction calls using List.reverseRecOn with
  | nil => rfl
  | append_singleton calls call ih =>
      have hlength := outputs_length (step crates) (poolAt payloads 0) calls
      rw [outputs_concat, exec_poolAt, step_poolAt]
      rcases Nat.lt_trichotomy i calls.length with hbefore | rfl | hafter
      · rw [List.getElem?_append_left (by omega), List.getElem?_append_left hbefore, ih,
          List.take_append_of_le_length hbefore.le]
      · rw [List.take_left, List.getElem?_concat_length, ← hlength, List.getElem?_concat_length]
        rfl
      · rw [List.getElem?_eq_none (by simp; omega), List.getElem?_eq_none (by simp; omega)]
        rfl

end Calls

section Sent

variable {Header : Type} {crates : Crates Header}

/-- The bodies of the requests that a run gives. -/
def sentBodies (results : List (Dispatched Header)) : List Bytes :=
  results.filterMap fun result =>
    match result with
    | .ok (some request) => some request.body
    | _ => none

theorem body_of_buildFromBytes {body : Bytes} {creds : L2Credentials} {timestamp : String}
    {request : Request Header}
    (hok : buildOrderRequestFromBytesWithTimestamp crates body creds timestamp = .ok request) :
    request.body = body := by
  obtain ⟨bodyStr, -, hok⟩ := bind_eq_ok.mp hok
  obtain ⟨named, -, hok⟩ := bind_eq_ok.mp hok
  obtain ⟨headers, -, hok⟩ := bind_eq_ok.mp hok
  rw [← Except.ok.inj hok]

theorem map_some_eq_ok {α ε : Type} {result : Except ε α} {value : α} :
    result.map some = .ok (some value) ↔ result = .ok value := by
  cases result <;> simp [Except.map]

theorem body_of_plainResult {payloads : List SignedOrderPayload} {taken : Nat} {call : Call}
    {request : Request Header}
    (hok : plainResult crates payloads taken call = .ok (some request)) :
    call.isReset = false ∧ (payloads.map bodyOf)[taken]? = some request.body := by
  rw [List.getElem?_map]
  cases call with
  | dispatch creds now =>
      refine ⟨rfl, ?_⟩
      simp only [plainResult] at hok
      cases hpayload : payloads[taken]? with
      | none => simp [hpayload] at hok
      | some payload =>
          rw [hpayload] at hok
          obtain ⟨body, hbody, hbuilt⟩ := bind_eq_ok.mp (map_some_eq_ok.mp hok)
          obtain rfl : bodyOf payload = body := Except.ok.inj hbody
          obtain ⟨timestamp, -, hbuilt⟩ := bind_eq_ok.mp hbuilt
          rw [Option.map_some, body_of_buildFromBytes hbuilt]
  | dispatchWithTimestamp creds timestamp =>
      refine ⟨rfl, ?_⟩
      simp only [plainResult] at hok
      cases hpayload : payloads[taken]? with
      | none => simp [hpayload] at hok
      | some payload =>
          rw [hpayload] at hok
          obtain ⟨body, hbody, hbuilt⟩ := bind_eq_ok.mp (map_some_eq_ok.mp hok)
          obtain rfl : bodyOf payload = body := Except.ok.inj hbody
          rw [Option.map_some, body_of_buildFromBytes hbuilt]
  | resetCursor => simp [plainResult] at hok

theorem sentBodies_sublist (payloads : List SignedOrderPayload) (taken : Nat) {calls : List Call}
    (hreset : ∀ call ∈ calls, call.isReset = false) :
    (sentBodies (outputs (step crates) (poolAt payloads taken) calls)).Sublist
      ((payloads.map bodyOf).drop taken) := by
  induction calls generalizing taken with
  | nil => exact List.nil_sublist _
  | cons call calls ih =>
      have hrest := ih (taken + 1) fun call hcall => hreset call (List.mem_cons_of_mem _ hcall)
      rw [outputs, step_poolAt, if_neg (by simp [hreset call List.mem_cons_self])]
      by_cases hsome : ∃ request, plainResult crates payloads taken call = .ok (some request)
      · obtain ⟨request, hrequest⟩ := hsome
        obtain ⟨hleft, hbody⟩ :=
          List.getElem?_eq_some_iff.mp (body_of_plainResult hrequest).2
        rw [hrequest, List.drop_eq_getElem_cons hleft, hbody]
        exact hrest.cons_cons request.body
      · have hnone : ∀ results, sentBodies (plainResult crates payloads taken call :: results) =
            sentBodies results := by
          intro results
          rw [sentBodies, List.filterMap_cons_none]
          · rfl
          · split
            · rename_i request hrequest
              exact absurd ⟨request, hrequest⟩ hsome
            · rfl
        rw [hnone]
        exact hrest.trans (List.drop_sublist_drop_left _ (Nat.le_succ taken))

end Sent

section Batch

variable {Address : Type} {zero : Address} {addressText : Address → String}
  {parseTokenId : String → Option Nat} {signOrder : Order Address → Except String String}
  {trigger : TriggerMessage} {maker signerAddr : Address} {feeRateBps : Nat}
  {signatureType : SignatureType} {owner : String}

theorem generateSalt_lt (raw : Nat) : generateSalt raw < 2 ^ 53 := by
  rw [generateSalt, Nat.and_two_pow_sub_one_eq_mod]
  exact Nat.mod_lt _ (by decide)

/-- The payload is that of the order for one salt, with the signature of that order. -/
def IsPresigned (zero : Address) (addressText : Address → String)
    (parseTokenId : String → Option Nat) (signOrder : Order Address → Except String String)
    (trigger : TriggerMessage) (maker signerAddr : Address) (feeRateBps : Nat)
    (signatureType : SignatureType) (owner : String) (raw : Nat)
    (payload : SignedOrderPayload) : Prop :=
  ∃ order sig,
    buildOrder zero parseTokenId (generateSalt raw) trigger maker signerAddr feeRateBps
        signatureType = .ok order ∧
      signOrder order = .ok sig ∧
        SignedOrderPayload.new addressText order sig trigger.orderType owner = some payload

/-- No payload is made for one salt: the order cannot be built, or cannot be signed. -/
def CannotSign (zero : Address) (parseTokenId : String → Option Nat)
    (signOrder : Order Address → Except String String) (trigger : TriggerMessage)
    (maker signerAddr : Address) (feeRateBps : Nat) (signatureType : SignatureType) (raw : Nat)
    (error : PresignError) : Prop :=
  (∃ built, buildOrder zero parseTokenId (generateSalt raw) trigger maker signerAddr feeRateBps
      signatureType = .error built ∧ error = .build built) ∨
    ∃ order signed, buildOrder zero parseTokenId (generateSalt raw) trigger maker signerAddr
        feeRateBps signatureType = .ok order ∧
      signOrder order = .error signed ∧ error = .sign signed

theorem salt_of_buildOrder {salt : Nat} {order : Order Address}
    (hok : buildOrder zero parseTokenId salt trigger maker signerAddr feeRateBps signatureType =
      .ok order) : order.salt = salt := by
  simp only [buildOrder] at hok
  split at hok
  · cases hok
  · split at hok
    · cases hok
    · rw [← Except.ok.inj hok]

theorem salt_of_isPresigned {raw : Nat} {payload : SignedOrderPayload}
    (h : IsPresigned zero addressText parseTokenId signOrder trigger maker signerAddr feeRateBps
      signatureType owner raw payload) : payload.order.salt = generateSalt raw := by
  obtain ⟨order, sig, hbuilt, -, hpayload⟩ := h
  obtain ⟨json, hjson, rfl⟩ := Option.map_eq_some_iff.mp hpayload
  simp only [OrderJson.fromOrder, Option.ite_none_right_eq_some] at hjson
  rw [← Option.some.inj hjson.2, salt_of_buildOrder hbuilt]

theorem presignOne_cases (raw : Nat) :
    (∃ error, presignOne zero addressText parseTokenId signOrder trigger maker signerAddr
        feeRateBps signatureType owner raw = some (.error error) ∧
      CannotSign zero parseTokenId signOrder trigger maker signerAddr feeRateBps signatureType raw
        error) ∨
      ∃ payload, presignOne zero addressText parseTokenId signOrder trigger maker signerAddr
          feeRateBps signatureType owner raw = some (.ok payload) ∧
        IsPresigned zero addressText parseTokenId signOrder trigger maker signerAddr feeRateBps
          signatureType owner raw payload := by
  rw [presignOne]
  cases hbuilt : buildOrder zero parseTokenId (generateSalt raw) trigger maker signerAddr
      feeRateBps signatureType with
  | error error => exact Or.inl ⟨.build error, rfl, Or.inl ⟨error, hbuilt, rfl⟩⟩
  | ok order =>
      cases hsigned : signOrder order with
      | error error =>
          exact Or.inl ⟨.sign error, by simp [hsigned], Or.inr ⟨order, error, hbuilt, hsigned, rfl⟩⟩
      | ok sig =>
          have hsalt : order.salt < 2 ^ 64 := by
            rw [salt_of_buildOrder hbuilt]
            exact (generateSalt_lt raw).trans (by decide)
          obtain ⟨payload, hpayload⟩ : ∃ payload,
              SignedOrderPayload.new addressText order sig trigger.orderType owner =
                some payload := by
            simp only [SignedOrderPayload.new, OrderJson.fromOrder, if_pos hsalt]
            exact ⟨_, rfl⟩
          exact Or.inr ⟨payload, by simp [hsigned, hpayload], order, sig, hbuilt, hsigned,
            hpayload⟩

theorem presignBatch_cases (raws : List Nat) :
    (∃ signed raw rest error, raws = signed ++ raw :: rest ∧
      (∀ earlier ∈ signed, ∃ payload, IsPresigned zero addressText parseTokenId signOrder trigger
        maker signerAddr feeRateBps signatureType owner earlier payload) ∧
      CannotSign zero parseTokenId signOrder trigger maker signerAddr feeRateBps signatureType raw
        error ∧
      presignBatch zero addressText parseTokenId signOrder trigger maker signerAddr
        feeRateBps signatureType owner raws = some (.error error)) ∨
      ∃ payloads, presignBatch zero addressText parseTokenId signOrder trigger maker signerAddr
          feeRateBps signatureType owner raws = some (.ok payloads) ∧
        List.Forall₂ (IsPresigned zero addressText parseTokenId signOrder trigger maker signerAddr
          feeRateBps signatureType owner) raws payloads := by
  induction raws with
  | nil => exact Or.inr ⟨[], rfl, .nil⟩
  | cons raw raws ih =>
      rw [presignBatch]
      obtain ⟨error, hone, hcannot⟩ | ⟨payload, hone, hpresigned⟩ := @presignOne_cases _ zero
        addressText parseTokenId signOrder trigger maker signerAddr feeRateBps signatureType owner
        raw
      · exact Or.inl ⟨[], raw, raws, error, rfl, by simp, hcannot, by rw [hone]⟩
      · obtain ⟨signed, failed, rest, error, rfl, hsigned, hcannot, hrest⟩ |
          ⟨payloads, hrest, hall⟩ := ih
        · refine Or.inl ⟨raw :: signed, failed, rest, error, rfl, ?_, hcannot, ?_⟩
          · exact List.forall_mem_cons.mpr ⟨⟨payload, hpresigned⟩, hsigned⟩
          · rw [hone, hrest]
            rfl
        · exact Or.inr ⟨payload :: payloads, by rw [hone, hrest]; rfl, .cons hpresigned hall⟩

theorem bodies_nodup {raws : List Nat} {payloads : List SignedOrderPayload}
    (hall : List.Forall₂ (IsPresigned zero addressText parseTokenId signOrder trigger maker
      signerAddr feeRateBps signatureType owner) raws payloads)
    (hsalts : (raws.map generateSalt).Nodup) : (payloads.map bodyOf).Nodup := by
  have heq : payloads.map (fun payload => payload.order.salt) = raws.map generateSalt := by
    induction hall with
    | nil => rfl
    | cons hone _ ih =>
        rw [List.map_cons, List.map_cons, salt_of_isPresigned hone,
          ih (List.nodup_cons.mp hsalts).2]
  rw [← heq] at hsalts
  refine (List.Nodup.of_map _ hsalts).map ?_
  intro payload payload' hbody
  have hread := readBody_encodeUtf8 payload.toValue
  rw [show encodeUtf8 payload.toValue.render = encodeUtf8 payload'.toValue.render from hbody,
    readBody_encodeUtf8] at hread
  exact payload_toValue_inj.mp (Option.some.inj hread).symm

end Batch

section Results

variable {Address Header : Type} (crates : Crates Header) (zero : Address)
  (addressText : Address → String) (parseTokenId : String → Option Nat)
  (signOrder : Order Address → Except String String) (trigger : TriggerMessage)
  (maker signerAddr : Address) (feeRateBps : Nat) (signatureType : SignatureType)
  (owner : String)

/-- Signing ahead stops at the first word that cannot be signed.  Orders signed ahead leave
the pool as the requests built from them plainly, and none leaves it twice unless the cursor
is reset. -/
theorem presigned_orders_sent_once (raws : List Nat) :
    (∃ signed raw rest error, raws = signed ++ raw :: rest ∧
      (∀ earlier ∈ signed, ∃ payload, IsPresigned zero addressText parseTokenId signOrder trigger
        maker signerAddr feeRateBps signatureType owner earlier payload) ∧
      CannotSign zero parseTokenId signOrder trigger maker signerAddr feeRateBps signatureType raw
        error ∧
      presignBatch zero addressText parseTokenId signOrder trigger maker signerAddr
        feeRateBps signatureType owner raws = some (.error error)) ∨
      ∃ payloads pool, presignBatch zero addressText parseTokenId signOrder trigger maker
          signerAddr feeRateBps signatureType owner raws = some (.ok payloads) ∧
        List.Forall₂ (IsPresigned zero addressText parseTokenId signOrder trigger maker signerAddr
          feeRateBps signatureType owner) raws payloads ∧
        Pool.new payloads = .ok pool ∧
        ∀ calls : List Call,
          (∀ i : Nat, (outputs (step crates) pool calls)[i]? =
            calls[i]?.map (plainResult crates payloads (sinceReset (calls.take i)))) ∧
          ((raws.map generateSalt).Nodup → (∀ call ∈ calls, call.isReset = false) →
            (sentBodies (outputs (step crates) pool calls)).Nodup) := by
  obtain herror | ⟨payloads, hbatch, hall⟩ := @presignBatch_cases _ zero addressText
    parseTokenId signOrder trigger maker signerAddr feeRateBps signatureType owner raws
  · exact Or.inl herror
  · refine Or.inr ⟨payloads, poolAt payloads 0, hbatch, hall, new_eq payloads, ?_⟩
    intro calls
    refine ⟨outputs_poolAt crates payloads calls, ?_⟩
    intro hsalts hreset
    exact (sentBodies_sublist payloads 0 hreset).nodup (bodies_nodup hall hsalts)

end Results

end Rtt.PresignedRuns
