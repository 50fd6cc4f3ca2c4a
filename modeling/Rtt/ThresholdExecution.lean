import Rtt.BinaryFloat
import Rtt.DispatchOnce
import Rtt.SignedAmounts

namespace Rtt.ThresholdExecution

open Rtt.Quote
open Rtt.PublicEvent
open Rtt.StrategyContract
open Rtt.Backtest
open Rtt.BinaryFloat
open Rtt.ClobExecutor
open Rtt.ClobOrder
open Rtt.SignedAmounts
open Rtt.ExecutionLoop
open Rtt.ReplayTriggers
open Rtt.TriggerFlow
open Rtt.FlowRuns
open Rtt.DispatchOnce
open Rtt.Machine

section Prices

variable {F : Type} {prices : PriceArithmetic F} {value : F → Option ℚ}

/-- How floating point numbers of 64 bits are read and compared.  `value` is the number that
one of them is, if it is finite. -/
structure ReadsNearest (prices : PriceArithmetic F) (value : F → Option ℚ) : Prop where
  parse : ∀ {text : String} {units : Nat}, IsAmount text units →
    ∃ x, prices.parse text = some x ∧ value x = some (nearest (units / 10 ^ 6))
  le : ∀ {x y : F} {a b : ℚ}, value x = some a → value y = some b →
    (prices.le x y = true ↔ a ≤ b)

/-- The millionths up to which every two amounts are told apart. -/
def maxUnits : Nat := 2 ^ 32 * 10 ^ 6

theorem nearest_succ_lt {units : Nat} (h : units < maxUnits) :
    nearest (units / 10 ^ 6) < nearest ((units + 1 : Nat) / 10 ^ 6) := by
  have hbound : (units : ℚ) + 1 ≤ 2 ^ 32 * 10 ^ 6 := by exact_mod_cast h
  refine nearest_lt (by positivity) ?_
  push_cast
  have hstep : ((units : ℚ) + 1) / 10 ^ 6 - units / 10 ^ 6 = 1 / 10 ^ 6 := by ring
  have hsum : (units : ℚ) / 10 ^ 6 + (units + 1) / 10 ^ 6 ≤ 2 ^ 33 := by
    rw [← add_div, div_le_iff₀ (by norm_num)]
    linarith
  rw [hstep]
  exact hsum.trans_lt (by norm_num)

theorem le_of_nearest_le {a b : Nat} (h : nearest (a / 10 ^ 6) ≤ nearest (b / 10 ^ 6))
    (hb : b < maxUnits) : a ≤ b := by
  by_contra hless
  have hstep : ((b + 1 : Nat) : ℚ) / 10 ^ 6 ≤ a / 10 ^ 6 :=
    div_le_div_of_nonneg_right (by exact_mod_cast not_le.mp hless) (by norm_num)
  have hmono := nearest_mono (by positivity) hstep
  exact absurd h (not_le.mpr ((nearest_succ_lt hb).trans_le hmono))

/-- The best price on the other side of the book. -/
def touch : Side → OrderBookSnapshot → Option PriceLevel
  | .buy, snapshot => snapshot.bestAsk
  | .sell, snapshot => snapshot.bestBid

/-- The price of so many millionths is no worse for the side than the threshold. -/
def Passes (units p : Nat) : Side → Prop
  | .buy => p ≤ units
  | .sell => units ≤ p

/-- The comparison of floating point numbers is exact on the prices that can be signed. -/
theorem passes_of_fires (hfloat : ReadsNearest prices value) {threshold : F} {units : Nat}
    (hunits : value threshold = some (nearest (units / 10 ^ 6))) (hbound : units < maxUnits)
    {side : Side} {bestBid bestAsk : Option PriceLevel} {price : String}
    (hfires : thresholdRule prices threshold side bestBid bestAsk = some price) {p : Nat}
    (hprice : IsAmount price p) : Passes units p side := by
  obtain ⟨x, hparse, hvalue⟩ := hfloat.parse hprice
  cases side with
  | buy =>
      simp only [thresholdRule, Option.bind_eq_bind, Option.bind_eq_some_iff] at hfires
      obtain ⟨ask, -, y, hread, hfires⟩ := hfires
      split at hfires
      · rename_i hle
        obtain rfl := Option.some.inj hfires
        obtain rfl := Option.some.inj (hparse.symm.trans hread)
        exact le_of_nearest_le ((hfloat.le hvalue hunits).mp hle) hbound
      · exact nomatch hfires
  | sell =>
      simp only [thresholdRule, Option.bind_eq_bind, Option.bind_eq_some_iff] at hfires
      obtain ⟨bid, -, y, hread, hfires⟩ := hfires
      split at hfires
      · rename_i hle
        obtain rfl := Option.some.inj hfires
        obtain rfl := Option.some.inj (hparse.symm.trans hread)
        have hnearest := (hfloat.le hunits hvalue).mp hle
        by_contra hless
        -- the price is below the threshold, and so below the bound
        have hp : p < units := not_le.mp hless
        exact absurd (le_of_nearest_le hnearest (hp.trans hbound)) (not_le.mpr hp)
      · exact nomatch hfires

theorem touch_of_fires {threshold : F} {side : Side} {snapshot : OrderBookSnapshot}
    {price : String}
    (hfires : thresholdRule prices threshold side snapshot.bestBid snapshot.bestAsk =
      some price) :
    (touch side snapshot).map PriceLevel.price = some price := by
  cases side with
  | buy =>
      simp only [thresholdRule, Option.bind_eq_bind, Option.bind_eq_some_iff] at hfires
      obtain ⟨ask, hask, y, -, hfires⟩ := hfires
      split at hfires
      · rw [touch, hask, Option.map_some, hfires]
      · exact nomatch hfires
  | sell =>
      simp only [thresholdRule, Option.bind_eq_bind, Option.bind_eq_some_iff] at hfires
      obtain ⟨bid, hbid, y, -, hfires⟩ := hfires
      split at hfires
      · rw [touch, hbid, Option.map_some, hfires]
      · exact nomatch hfires

end Prices

section Triggers

variable {rule : FiringRule} {maker : TriggerMaker}

/-- A trigger that its maker makes for a snapshot. -/
structure MadeFor (rule : FiringRule) (maker : TriggerMaker) (trigger : TriggerMessage)
    (snapshot : OrderBookSnapshot) : Prop where
  assetId : snapshot.assetId = maker.tokenId
  fires : rule maker.side snapshot.bestBid snapshot.bestAsk = some trigger.price
  tokenId : trigger.tokenId = maker.tokenId
  side : trigger.side = maker.side
  size : trigger.size = maker.size
  orderType : trigger.orderType = maker.orderType

/-- What a maker keeps: everything but the id of its next trigger. -/
def Keeps (start maker : TriggerMaker) : Prop :=
  maker = { start with nextTriggerId := maker.nextTriggerId }

theorem onBookUpdate_spec {start : TriggerMaker} (hkeeps : Keeps start maker)
    (snapshot : OrderBookSnapshot) :
    Keeps start ((firingStrategy rule).onBookUpdate maker snapshot).1 ∧
      ∀ trigger ∈ ((firingStrategy rule).onBookUpdate maker snapshot).2,
        MadeFor rule start trigger snapshot := by
  rw [Keeps] at hkeeps
  rw [hkeeps]
  simp only [firingStrategy]
  split
  · exact ⟨rfl, by simp⟩
  · rename_i hasset
    split
    · exact ⟨rfl, by simp⟩
    · rename_i price hfires
      refine ⟨rfl, ?_⟩
      rintro trigger ⟨⟩
      exact ⟨not_not.mp hasset, hfires, rfl, rfl, rfl, rfl⟩

theorem run_made (rule : FiringRule) (start : TriggerMaker)
    (snapshots : List OrderBookSnapshot) :
    ∀ trigger ∈ (run (firingStrategy rule) start snapshots).triggers,
      ∃ snapshot ∈ snapshots, MadeFor rule start trigger snapshot := by
  let replay := snapshots.foldl (snapshotStep (firingStrategy rule))
    { strategy := start, triggers := [] }
  have hrun : Keeps start replay.strategy ∧ ∀ trigger ∈ replay.triggers,
      ∃ snapshot ∈ snapshots, MadeFor rule start trigger snapshot := by
    induction snapshots using List.reverseRecOn with
    | nil => exact ⟨rfl, by simp [replay]⟩
    | append_singleton snapshots snapshot ih =>
        obtain ⟨hkeeps, hmade⟩ := ih
        obtain ⟨hnext, hnew⟩ :=
          @onBookUpdate_spec rule _ start hkeeps snapshot
        simp only [replay, List.foldl_append, List.foldl_cons, List.foldl_nil, snapshotStep]
        refine ⟨hnext, List.forall_mem_append.mpr ⟨?_, ?_⟩⟩
        · intro trigger htrigger
          obtain ⟨earlier, hearlier, hfor⟩ := hmade trigger htrigger
          exact ⟨earlier, List.mem_append_left _ hearlier, hfor⟩
        · intro trigger htrigger
          exact ⟨snapshot, by simp, hnew trigger (Option.mem_toList.mp htrigger)⟩
  exact hrun.2

theorem MadeFor.of_withoutTimestamp {trigger fired : TriggerMessage}
    {snapshot : OrderBookSnapshot} (h : MadeFor rule maker fired snapshot)
    (hsame : withoutTimestamp trigger = withoutTimestamp fired) :
    MadeFor rule maker trigger snapshot := by
  have hfields : trigger = { fired with timestampNs := trigger.timestampNs } := by
    cases trigger
    cases fired
    simpa [withoutTimestamp] using hsame
  rw [hfields]
  exact ⟨h.assetId, h.fires, h.tokenId, h.side, h.size, h.orderType⟩

variable {feedCapacity : Nat}

theorem made_of_taken {system : System TriggerMaker feedCapacity} {past : History}
    (h : Flows (firingStrategy rule) maker system past) :
    ∀ trigger ∈ past.taken, ∃ snapshot ∈ past.published, MadeFor rule maker trigger snapshot := by
  intro trigger htrigger
  have hfired : past.fired = (run (firingStrategy rule) maker past.consumed).triggers :=
    (congrArg SnapshotReplay.triggers h.strategy).symm
  have hinitial : past.taken.map withoutTimestamp <+: past.fired.map withoutTimestamp :=
    calc past.taken.map withoutTimestamp
        <+: past.stamped.map withoutTimestamp := h.orders.taken_prefix.map withoutTimestamp
      _ = past.relayed.map withoutTimestamp := h.stamps
      _ <+: past.fired.map withoutTimestamp := h.triggers.taken_prefix.map withoutTimestamp
  obtain ⟨fired, hmem, hsame⟩ :=
    List.mem_map.mp (hinitial.subset (List.mem_map_of_mem htrigger))
  rw [hfired] at hmem
  obtain ⟨snapshot, hsnapshot, hmade⟩ := run_made rule maker past.consumed fired hmem
  obtain ⟨left, hleft, htaken⟩ := h.feed
  have hbridged := h.snapshots.taken_prefix.subset hsnapshot
  rw [← htaken] at hbridged
  refine ⟨snapshot, ?_, hmade.of_withoutTimestamp hsame.symm⟩
  rw [← hleft]
  obtain ⟨departure, hdeparture, hmessage⟩ := List.mem_filterMap.mp hbridged
  cases departure with
  | taken message =>
      obtain rfl := Option.some.inj hmessage
      exact List.mem_append_left _ (List.mem_map_of_mem hdeparture)
  | lost message => exact nomatch hmessage

end Triggers

section Signing

variable {Address Signature Request : Type} {feedCapacity : Nat} {σ : Type}
  {strategy : Strategy σ} {config : LoopConfig}

/-- The order is signed for the size, at amounts no worse than so many millionths a share;
a seller gives away less than one base unit. -/
def SignedWithin (units size : Nat) (signed : Order Address) : Side → Prop
  | .buy => signed.takerAmount = size ∧ signed.makerAmount * 10 ^ 6 ≤ units * size
  | .sell => signed.makerAmount = size ∧ units * size < (signed.takerAmount + 1) * 10 ^ 6

theorem signedWithin_of_sided {units p size : Nat} {side : Side} (hpasses : Passes units p side)
    {signed : Order Address}
    (hamounts : sided (ClobSide.ofSide side) (p * size / 10 ^ 6) size =
      (signed.makerAmount, signed.takerAmount)) : SignedWithin units size signed side := by
  cases side with
  | buy =>
      obtain ⟨hmaker, htaker⟩ := Prod.mk.inj hamounts
      refine ⟨htaker.symm, ?_⟩
      calc signed.makerAmount * 10 ^ 6 = p * size / 10 ^ 6 * 10 ^ 6 := by rw [hmaker]
        _ ≤ p * size := Nat.div_mul_le_self _ _
        _ ≤ units * size := Nat.mul_le_mul_right size hpasses
  | sell =>
      obtain ⟨hmaker, htaker⟩ := Prod.mk.inj hamounts
      refine ⟨hmaker.symm, ?_⟩
      calc units * size ≤ p * size := Nat.mul_le_mul_right size hpasses
        _ < (p * size / 10 ^ 6 + 1) * 10 ^ 6 :=
          (Nat.div_lt_iff_lt_mul (by decide)).mp (Nat.lt_succ_self _)
        _ = (signed.takerAmount + 1) * 10 ^ 6 := by rw [htaker]

/-- The order is signed for a trigger of its maker, at the price of so many millionths. -/
structure SignedFor (maker : Address) (parseTokenId : String → Option Nat) (start : TriggerMaker)
    (price : String) (p size : Nat) (signed : Order Address) : Prop where
  maker : signed.maker = maker
  tokenId : parseTokenId start.tokenId = some signed.tokenId
  side : signed.side = (ClobSide.ofSide start.side).toNat
  isPrice : IsAmount price p
  isSize : IsAmount start.size size
  amounts : sided (ClobSide.ofSide start.side) (p * size / 10 ^ 6) size =
    (signed.makerAmount, signed.takerAmount)

theorem signedFor_of_buildOrder {zero maker signerAddr : Address}
    {parseTokenId : String → Option Nat} {salt feeRateBps : Nat} {rule : FiringRule}
    {start : TriggerMaker} {trigger : TriggerMessage} {snapshot : OrderBookSnapshot}
    {signatureType : SignatureType} {signed : Order Address}
    (hmade : MadeFor rule start trigger snapshot)
    (hok : buildOrder zero parseTokenId salt trigger maker signerAddr feeRateBps signatureType =
      .ok signed) :
    ∃ p size, SignedFor maker parseTokenId start trigger.price p size signed := by
  obtain ⟨p, size, hprice, hsize, -, hamounts⟩ :=
    computeAmounts_ok_iff.mp (amounts_of_buildOrder hok)
  rw [hmade.side] at hamounts
  rw [hmade.size] at hsize
  simp only [buildOrder, amounts_of_buildOrder hok] at hok
  cases htoken : parseTokenId trigger.tokenId with
  | none =>
      rw [htoken] at hok
      cases hok
  | some tokenId =>
      rw [htoken] at hok
      have hfields := Except.ok.inj hok
      have htokenId : tokenId = signed.tokenId := congrArg Order.tokenId hfields
      have hside : (ClobSide.ofSide trigger.side).toNat = signed.side :=
        congrArg Order.side hfields
      rw [hmade.tokenId, htokenId] at htoken
      rw [hmade.side] at hside
      exact ⟨p, size, (congrArg Order.maker hfields).symm, htoken, hside.symm, hprice, hsize,
        hamounts⟩

theorem outcome_of_runTurn (hsigns : config.signs = true) {state : LoopState}
    {turn : Turn (Order Address) Signature Request} {order : Dispatched}
    (h : (runTurn config state turn).2 = some order) :
    order.outcome = signAndDispatch turn.outside order.trigger := by
  obtain ⟨limiter, running, -, hturn⟩ | ⟨trigger, limiter, -, ⟨reason, -, hturn⟩ | ⟨-, hturn⟩⟩ :=
    runTurn_cases config state turn
  · rw [hturn] at h
    exact nomatch h
  · rw [hturn] at h
    exact nomatch h
  · rw [hturn] at h
    simp only [dispatchTrigger, hsigns, if_true] at h
    obtain rfl := Option.some.inj h
    rfl

theorem signed_run (hsigns : config.signs = true) (start : σ) (loop : LoopState)
    (actions : List (Action (Order Address) Signature Request)) :
    let origin : System σ feedCapacity := .start start loop
    ∀ order ∈ (history strategy config origin actions).dispatched,
      ∃ limiterNowNs outside, .loopBody limiterNowNs outside ∈ actions ∧
        order.outcome = signAndDispatch outside order.trigger := by
  refine run_induction (step strategy config) (P := fun _ action => action ∈ actions)
    (motive := fun _ _ out => ∀ order ∈ (out.flatten.foldl History.add {}).dispatched,
      ∃ limiterNowNs outside, .loopBody limiterNowNs outside ∈ actions ∧
        order.outcome = signAndDispatch outside order.trigger)
    (by simp) ?_ actions (along_forall_iff.mpr fun _ haction => haction)
  intro _ system out action hsigned haction
  rw [List.flatten_append, List.flatten_singleton, List.foldl_append]
  rcases step_loop strategy config system (out.flatten.foldl History.add {}) action with
    ⟨_, -, -, hsame⟩ | ⟨limiterNowNs, outside, rfl, -, -, hnew⟩
  · rwa [hsame]
  · rw [hnew]
    refine List.forall_mem_append.mpr ⟨hsigned, ?_⟩
    intro order horder
    exact ⟨limiterNowNs, outside, haction,
      outcome_of_runTurn hsigns (Option.mem_toList.mp horder)⟩

end Signing

section Results

variable {F Address Signature Request : Type} {feedCapacity : Nat}

/-- Whatever the executor's tasks do, every order that the threshold strategy brings about
is at the best price of the other side of a book from the feed, and is refused before it
is signed or signed for its own size at that price.  A threshold of whole millionths is
kept: the amounts are no worse than it. -/
theorem signed_within_threshold (prices : PriceArithmetic F) (value : F → Option ℚ)
    (hfloat : ReadsNearest prices value) (threshold : F) (config : LoopConfig)
    (hsigns : config.signs = true) (start : TriggerMaker) (loop : LoopState)
    (zero maker signerAddr : Address) (parseTokenId : String → Option Nat) (feeRateBps : Nat)
    (signatureType : SignatureType)
    (actions : List (Action (Order Address) Signature Request))
    (hbuild : ∀ limiterNowNs outside, .loopBody limiterNowNs outside ∈ actions →
      ∃ salt, outside.buildOrder = fun trigger =>
        buildOrder zero parseTokenId salt trigger maker signerAddr feeRateBps signatureType) :
    let origin : System TriggerMaker feedCapacity := .start start loop
    let past := history (thresholdStrategy prices threshold) config origin actions
    ∀ order ∈ past.dispatched,
      (∃ snapshot ∈ past.published, snapshot.assetId = start.tokenId ∧
        (touch start.side snapshot).map PriceLevel.price = some order.trigger.price) ∧
      ((∃ record error, order.outcome = .rejected record (.buildOrder error)) ∨
        ∃ limiterNowNs outside signed p size,
          .loopBody limiterNowNs outside ∈ actions ∧
          order.outcome = signAndDispatch outside order.trigger ∧
          outside.buildOrder order.trigger = .ok signed ∧
          SignedFor maker parseTokenId start order.trigger.price p size signed ∧
          ∀ units < maxUnits, value threshold = some (nearest (units / 10 ^ 6)) →
            SignedWithin units size signed start.side) := by
  intro origin past order horder
  have hflows : Flows (thresholdStrategy prices threshold) start _ past :=
    flows_run (thresholdStrategy prices threshold) config start loop actions
  obtain ⟨snapshot, hsnapshot, hmade⟩ := made_of_taken hflows order.trigger
    (hflows.dispatched.subset (List.mem_map_of_mem horder))
  obtain ⟨limiterNowNs, outside, haction, houtcome⟩ :=
    signed_run hsigns start loop actions order horder
  refine ⟨⟨snapshot, hsnapshot, hmade.assetId, touch_of_fires hmade.fires⟩, ?_⟩
  obtain ⟨salt, hsalt⟩ := hbuild limiterNowNs outside haction
  cases hbuilt : outside.buildOrder order.trigger with
  | error error =>
      refine .inl ?_
      rw [houtcome, signAndDispatch, hbuilt]
      exact ⟨_, error, rfl⟩
  | ok signed =>
      have hok := hbuilt
      rw [hsalt] at hok
      obtain ⟨p, size, hsigned⟩ := signedFor_of_buildOrder hmade hok
      refine .inr ⟨limiterNowNs, outside, signed, p, size, haction, houtcome, hbuilt, hsigned,
        ?_⟩
      intro units hbound hunits
      have hpasses := passes_of_fires hfloat hunits hbound hmade.fires hsigned.isPrice
      exact signedWithin_of_sided hpasses hsigned.amounts

/-- Decimals as the nearest floating point numbers. -/
def roundedPrices : PriceArithmetic ℚ where
  parse text :=
    (parseScaledDecimal text "price").toOption.map fun units => nearest (units / 10 ^ 6)
  sub a b := nearest (a - b)
  le a b := a ≤ b
  lt a b := a < b

theorem readsNearest_roundedPrices : ReadsNearest roundedPrices some where
  parse hamount := by
    refine ⟨_, ?_, rfl⟩
    simp only [roundedPrices, parseScaledDecimal_ok_iff_isAmount.mpr hamount]
    rfl
  le hx hy := by
    obtain rfl := Option.some.inj hx
    obtain rfl := Option.some.inj hy
    exact decide_eq_true_iff

def halfThreshold : ℚ := nearest ((500000 : Nat) / 10 ^ 6)

def signing : Outside (Order Unit) Unit Unit where
  buildOrder trigger := buildOrder () (fun _ => some 7) 1 trigger () () 0 .poly
  signOrder _ := .ok ()
  encodeOrderPayload _ _ _ := .ok []
  buildOrderRequest _ := .ok ()
  sendStart _ := .ok { connectionIndex := 0 }
  collect _ := .ok { cfRay := none, body := [] }
  nowNs reads := 200 + reads

def relayAndSign : List (Action (Order Unit) Unit Unit) :=
  [.publish (askAt "0.50"), .bridgeRecv, .bridgeSend, .runnerRecv, .runnerSend,
    .stampRecv 100, .stampSend, .loopHead false, .loopBody 2000000000 signing]

theorem signing_of_loopBody {limiterNowNs : Nat} {outside : Outside (Order Unit) Unit Unit}
    (h : .loopBody limiterNowNs outside ∈ relayAndSign) : outside = signing := by
  have hbody : limiterNowNs = 2000000000 ∧ outside = signing := by
    simpa [relayAndSign] using h
  exact hbody.2

def isSent : DispatchOutcome → Bool
  | .sent _ _ => true
  | .rejected _ _ => false

/-- Ten shares at half a dollar are signed for no more than five dollars. -/
theorem signed_within_threshold_half :
    let past := history (thresholdStrategy roundedPrices halfThreshold)
      { liveConfig with signs := true } (.start tokenMaker oneOrderLeft : System TriggerMaker 2)
      relayAndSign
    ∃ order ∈ past.dispatched, order.trigger.price = "0.50" ∧
      ∃ signed : Order Unit, signing.buildOrder order.trigger = .ok signed ∧
        SignedWithin 500000 10000000 signed .buy := by
  intro past
  have hone : past.dispatched.map (fun order => (order.trigger.price, isSent order.outcome)) =
      [("0.50", true)] := by
    decide +kernel
  obtain ⟨order, horder, hsent⟩ := List.mem_map.mp (hone ▸ List.mem_singleton_self _)
  have hbuild : ∀ limiterNowNs outside, .loopBody limiterNowNs outside ∈ relayAndSign →
        ∃ salt, outside.buildOrder = fun trigger =>
          buildOrder () (fun _ => some 7) salt trigger () () 0 .poly := by
    intro limiterNowNs outside haction
    obtain rfl := signing_of_loopBody haction
    exact ⟨1, rfl⟩
  obtain ⟨-, hresult⟩ := signed_within_threshold roundedPrices some readsNearest_roundedPrices
    halfThreshold { liveConfig with signs := true } rfl tokenMaker oneOrderLeft () () ()
    (fun _ => some 7) 0 .poly relayAndSign hbuild order horder
  refine ⟨order, horder, congrArg Prod.fst hsent, ?_⟩
  rcases hresult with ⟨record, error, hrefused⟩ |
    ⟨_, outside, signed, p, size, haction, -, hbuilt, hsigned, hwithin⟩
  · have houtcome := congrArg Prod.snd hsent
    rw [hrefused] at houtcome
    exact nomatch houtcome
  · obtain rfl := signing_of_loopBody haction
    have hten : IsAmount "10" 10000000 :=
      parseScaledDecimal_ok_iff_isAmount.mp
        (show parseScaledDecimal "10" "size" = .ok 10000000 by decide +kernel)
    refine ⟨signed, hbuilt, ?_⟩
    rw [← hsigned.isSize.unique hten]
    exact hwithin 500000 (by decide) rfl

end Results

end Rtt.ThresholdExecution
