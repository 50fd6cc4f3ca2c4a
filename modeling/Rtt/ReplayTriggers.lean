import Rtt.Backtest
import Rtt.Machine
import Mathlib.Data.List.ReduceOption

namespace Rtt.ReplayTriggers

open Rtt.Quote
open Rtt.Machine
open Rtt.PartialMap
open Rtt.PublicEvent
open Rtt.MarketMessages
open Rtt.HotState
open Rtt.StrategyContract
open Rtt.StrategyRuntime
open Rtt.Backtest

def withoutTimestamp (trigger : TriggerMessage) : TriggerMessage :=
  { trigger with timestampNs := 0 }

/-- The same triggers in the same order, up to their stamps. -/
def SameTriggers (a b : BacktestResult) : Prop :=
  a.triggers.map withoutTimestamp = b.triggers.map withoutTimestamp

instance (a b : BacktestResult) : Decidable (SameTriggers a b) :=
  inferInstanceAs (Decidable (_ = _))

/-- The triggers that a maker makes for a list of prices. -/
def makeAll : TriggerMaker → List String → List TriggerMessage
  | _, [] => []
  | maker, price :: prices =>
      (maker.makeTrigger price).2 :: makeAll (maker.makeTrigger price).1 prices

theorem map_price_makeAll (maker : TriggerMaker) (prices : List String) :
    (makeAll maker prices).map TriggerMessage.price = prices := by
  induction prices generalizing maker with
  | nil => rfl
  | cons price prices ih => exact congrArg (price :: ·) (ih _)

theorem withoutTimestamp_makeAll (maker : TriggerMaker) (clock : Nat → Nat)
    (prices : List String) :
    (makeAll { maker with epoch := clock } prices).map withoutTimestamp =
      (makeAll maker prices).map withoutTimestamp := by
  induction prices generalizing maker with
  | nil => rfl
  | cons price prices ih =>
      rw [makeAll, makeAll, List.map_cons, List.map_cons]
      exact congrArg₂ List.cons rfl (ih (maker.makeTrigger price).1)

theorem makeAll_same_iff (maker : TriggerMaker) (clock : Nat → Nat) {ps qs : List String} :
    (makeAll maker ps).map withoutTimestamp =
        (makeAll { maker with epoch := clock } qs).map withoutTimestamp ↔ ps = qs := by
  rw [withoutTimestamp_makeAll maker clock qs]
  constructor
  · intro h
    have hprices := congrArg (List.map TriggerMessage.price) h
    rw [List.map_map, List.map_map] at hprices
    exact (map_price_makeAll maker ps).symm.trans (hprices.trans (map_price_makeAll maker qs))
  · rintro rfl
    rfl

/-- What a snapshot of the token makes a strategy do. -/
def firePrice (rule : FiringRule) (maker : TriggerMaker) (snapshot : OrderBookSnapshot) :
    Option String :=
  if snapshot.assetId ≠ maker.tokenId then none
  else rule maker.side snapshot.bestBid snapshot.bestAsk

theorem onBookUpdate_eq (rule : FiringRule) (maker : TriggerMaker)
    (snapshot : OrderBookSnapshot) :
    (firingStrategy rule).onBookUpdate maker snapshot =
      match firePrice rule maker snapshot with
      | none => (maker, none)
      | some price => ((maker.makeTrigger price).1, some (maker.makeTrigger price).2) := by
  unfold firingStrategy firePrice
  dsimp only
  split
  · rfl
  · cases rule maker.side snapshot.bestBid snapshot.bestAsk <;> rfl

/-- The price at which the replay over notices fires. -/
def noticePrice (rule : FiringRule) (maker : TriggerMaker) (store : HotStateStore)
    (update : NormalizedUpdate) : HotStateStore × Option String :=
  let store := store.applyUpdate update
  (store, (store.projectSnapshot update.notice).bind (firePrice rule maker))

/-- The snapshot that a view shows of its book. -/
def viewSnapshot (book : HotBookState) : OrderBookSnapshot :=
  { assetId := book.assetId
    bestBid := book.bestBid.map bookLevelToSnapshotLevel
    bestAsk := book.bestAsk.map bookLevelToSnapshotLevel
    timestampMs := book.timestampMs
    hash := (book.sourceHash.or book.notice.sourceHash).getD "" }

def resolvedBook : Option HotStateView → Option HotBookState
  | some (.book book) => some book
  | _ => none

/-- The price at which the replay over views fires. -/
def viewPrice (rule : FiringRule) (maker : TriggerMaker) (store : HotStateStore)
    (update : NormalizedUpdate) : HotStateStore × Option String :=
  let store := store.applyUpdate update
  (store,
    if update.notice.subject = .asset publicSourceId maker.tokenId then
      (resolvedBook (store.resolveNotice update.notice)).bind fun book =>
        firePrice rule maker (viewSnapshot book)
    else none)

variable {rule : FiringRule} {maker : TriggerMaker}

theorem noticePrice_makeTrigger (rule : FiringRule) (maker : TriggerMaker) (price : String) :
    noticePrice rule (maker.makeTrigger price).1 = noticePrice rule maker := rfl

theorem viewPrice_makeTrigger (rule : FiringRule) (maker : TriggerMaker) (price : String) :
    viewPrice rule (maker.makeTrigger price).1 = viewPrice rule maker := rfl

theorem triggers_noticeReplay (rule : FiringRule) (updates : List NormalizedUpdate)
    (replay : NoticeReplay TriggerMaker) :
    (updates.foldl (noticeStep (firingStrategy rule)) replay).triggers =
      replay.triggers ++ makeAll replay.strategy
        (outputs (noticePrice rule replay.strategy) replay.store updates).reduceOption := by
  induction updates generalizing replay with
  | nil => simp [outputs, makeAll]
  | cons update updates ih =>
      rw [List.foldl_cons, ih, outputs]
      simp only [noticeStep, noticePrice]
      cases hproject : (replay.store.applyUpdate update).projectSnapshot update.notice with
      | none => rfl
      | some snapshot =>
          simp only [onBookUpdate_eq, Option.bind_some]
          cases hfire : firePrice rule replay.strategy snapshot with
          | none => simp
          | some price =>
              rw [List.reduceOption_cons_of_some, makeAll, noticePrice_makeTrigger]
              simp

theorem resolveView_single {scaffold : SharedRuntimeScaffold} {input : ProvisionedInput}
    (hinputs : scaffold.topology.inputs = [input])
    (hpart : viewPart input.requirement.kind = .book) (store : HotStateStore)
    (notice : UpdateNotice) :
    (scaffold.resolveView store notice).2 =
        (if input.subject = notice.subject then
          some
            { notice
              books := (resolvedBook (store.resolveNotice notice)).toList
              references := []
              inventory := [] }
        else none) ∧
      (scaffold.resolveView store notice).1.topology = scaffold.topology := by
  have hrelevant : scaffold.isRelevantNotice notice = decide (input.subject = notice.subject) := by
    rw [SharedRuntimeScaffold.isRelevantNotice, hinputs, List.any_cons, List.any_nil, Bool.or_false]
  unfold SharedRuntimeScaffold.resolveView
  rw [hrelevant]
  rcases Decidable.em (input.subject = notice.subject) with hsubject | hsubject
  · rw [if_pos (decide_eq_true hsubject), if_pos hsubject]
    refine ⟨congrArg some ?_, rfl⟩
    rw [hinputs, List.foldl_cons, List.foldl_nil, SharedRuntimeScaffold.addInput, hpart]
    simp only [SharedRuntimeScaffold.resolveBook, if_pos hsubject]
    rcases store.resolveNotice notice with _ | (book | reference) <;> rfl
  · rw [if_neg (by simpa using hsubject), if_neg hsubject]
    exact ⟨rfl, rfl⟩

theorem onUpdate_eq (rule : FiringRule) (maker : TriggerMaker) (notice : UpdateNotice)
    (book : Option HotBookState) :
    (firingTriggerStrategy rule).onUpdate maker
        { notice, books := book.toList, references := [], inventory := [] } =
      match book.bind fun book => firePrice rule maker (viewSnapshot book) with
      | none => (maker, none)
      | some price => ((maker.makeTrigger price).1, some (maker.makeTrigger price).2) := by
  rcases book with _ | book
  · rfl
  · simp only [firingTriggerStrategy, StrategyRuntimeView.snapshot, StrategyRuntimeView.book,
      Option.toList_some, List.find?_cons, List.find?_nil, Option.bind_some]
    rcases Decidable.em (book.assetId = maker.tokenId) with hasset | hasset
    · rw [decide_eq_true hasset]
      exact onBookUpdate_eq rule maker (viewSnapshot book)
    · rw [decide_eq_false hasset]
      have hnone : firePrice rule maker (viewSnapshot book) = none := if_pos hasset
      rw [hnone]
      rfl

/-- The one input of a strategy that watches the book of its token. -/
def tokenInput (maker : TriggerMaker) : ProvisionedInput :=
  provisionInput .shared 0 (polymarketBbo maker.tokenId)

theorem tokenInput_subject (maker : TriggerMaker) :
    (tokenInput maker).subject = .asset publicSourceId maker.tokenId := rfl

/-- A maker after one chance to fire. -/
def fired (maker : TriggerMaker) : Option String → TriggerMaker
  | none => maker
  | some price => (maker.makeTrigger price).1

theorem triggerStep_spec (rule : FiringRule) (replay : TriggerReplay TriggerMaker)
    (hinputs : replay.scaffold.topology.inputs = [tokenInput replay.strategy])
    (update : NormalizedUpdate) :
    let after := triggerStep (firingTriggerStrategy rule) replay update
    let price := (viewPrice rule replay.strategy replay.store update).2
    after.store = replay.store.applyUpdate update ∧
      after.scaffold.topology = replay.scaffold.topology ∧
      after.strategy = fired replay.strategy price ∧
      after.triggers = replay.triggers ++ makeAll replay.strategy price.toList := by
  obtain ⟨hview, htopology⟩ :=
    resolveView_single hinputs rfl (replay.store.applyUpdate update) update.notice
  rcases hresolve : replay.scaffold.resolveView (replay.store.applyUpdate update)
    update.notice with ⟨scaffold, view⟩
  rw [hresolve, tokenInput_subject] at hview
  rw [hresolve] at htopology
  rcases Decidable.em (update.notice.subject =
    .asset publicSourceId replay.strategy.tokenId) with hsubject | hsubject
  · rw [if_pos hsubject.symm] at hview
    obtain rfl : view = _ := hview
    rw [triggerStep_of_view hresolve, onUpdate_eq]
    simp only [viewPrice, if_pos hsubject]
    cases (resolvedBook ((replay.store.applyUpdate update).resolveNotice update.notice)).bind
        fun book => firePrice rule replay.strategy (viewSnapshot book) with
    | none => exact ⟨trivial, htopology, rfl, rfl⟩
    | some price => exact ⟨trivial, htopology, rfl, rfl⟩
  · rw [if_neg (Ne.symm hsubject)] at hview
    obtain rfl : view = none := hview
    rw [triggerStep_of_none hresolve]
    simp only [viewPrice, if_neg hsubject]
    refine ⟨trivial, htopology, rfl, ?_⟩
    simp [makeAll]

theorem triggers_triggerReplay (rule : FiringRule) (updates : List NormalizedUpdate)
    (replay : TriggerReplay TriggerMaker)
    (hinputs : replay.scaffold.topology.inputs = [tokenInput replay.strategy]) :
    (updates.foldl (triggerStep (firingTriggerStrategy rule)) replay).triggers =
      replay.triggers ++ makeAll replay.strategy
        (outputs (viewPrice rule replay.strategy) replay.store updates).reduceOption := by
  induction updates generalizing replay with
  | nil => simp [outputs, makeAll]
  | cons update updates ih =>
      obtain ⟨hstore, htopology, hstrategy, htriggers⟩ :=
        triggerStep_spec rule replay hinputs update
      have htoken : tokenInput (triggerStep (firingTriggerStrategy rule) replay update).strategy =
          tokenInput replay.strategy := by
        rw [hstrategy]
        cases (viewPrice rule replay.strategy replay.store update).2 <;> rfl
      rw [List.foldl_cons, ih _ (by rw [htopology, hinputs, htoken]), outputs, hstore, htriggers,
        hstrategy]
      have hnext : (viewPrice rule replay.strategy replay.store update).1 =
          replay.store.applyUpdate update := rfl
      rw [hnext]
      cases (viewPrice rule replay.strategy replay.store update).2 with
      | none => simp [fired, makeAll]
      | some price =>
          rw [List.reduceOption_cons_of_some]
          simp [fired, makeAll, viewPrice_makeTrigger]

/-- A trade of the token comes in the version of the token's book, on which the
strategy fires. -/
def TradeRefires (rule : FiringRule) (maker : TriggerMaker) (store : HotStateStore)
    (update : NormalizedUpdate) : Prop :=
  update.payload.kind = .tradeTick ∧ update.notice.subject = .asset publicSourceId maker.tokenId ∧
    ∃ book ∈ store.bookState publicSourceId maker.tokenId, book.version = update.notice.version ∧
      (rule maker.side (book.bestBid.map bookLevelToSnapshotLevel)
        (book.bestAsk.map bookLevelToSnapshotLevel)).isSome

instance (rule : FiringRule) (maker : TriggerMaker) (store : HotStateStore)
    (update : NormalizedUpdate) : Decidable (TradeRefires rule maker store update) := by
  unfold TradeRefires
  infer_instance

variable {store : HotStateStore} {update : NormalizedUpdate}

theorem subject_of_bookAsset (hfeed : FromPublicFeed update) {assetId : AssetId}
    (hasset : bookAsset update.payload = some assetId) :
    update.notice.subject = .asset publicSourceId assetId ∧
      resolvesBook update.notice.kind := by
  rw [hfeed.kind]
  have hconcerns := hfeed.subject
  cases hpayload : update.payload with
  | bookSnapshot | bookDelta | bestBidAsk | tickSizeChange =>
      rw [hpayload] at hasset hconcerns
      obtain rfl := Option.some.inj hasset
      exact ⟨hconcerns, rfl⟩
  | tradeTick | referencePrice | reconnect | sourceStatus =>
      rw [hpayload] at hasset
      exact absurd hasset (by simp [bookAsset])

theorem resolveBookNotice_own (hkeyed : KeyedByAsset store) (hfeed : FromPublicFeed update)
    {assetId : AssetId} (hasset : bookAsset update.payload = some assetId) :
    ∃ book, (store.applyUpdate update).resolveBookNotice update.notice = some book ∧
      book.notice = update.notice ∧ book.assetId = assetId := by
  have hown := store.books_applyUpdate_own update hasset
  obtain ⟨book, hbook⟩ := exists_nextBook (store.marketsByAsset assetId)
    (store.books (.asset update.notice.sourceId assetId)) hasset
  obtain ⟨hnotice, hversion⟩ := version_nextBook hbook
  refine ⟨book, ?_, hnotice, (hkeyed.applyUpdate update) _ _ _ (hown.trans hbook)⟩
  rw [HotStateStore.resolveBookNotice, (subject_of_bookAsset hfeed hasset).1]
  rw [show (InstrumentRef.asset publicSourceId assetId).instrumentId = assetId from rfl, hown,
    hbook, Option.filter_some, if_pos (decide_eq_true hversion)]

theorem projectSnapshot_own {notice : UpdateNotice} {book : HotBookState}
    (h : store.resolveBookNotice notice = some book) (hnotice : book.notice = notice) :
    store.projectSnapshot notice = some (viewSnapshot book) := by
  rw [HotStateStore.projectSnapshot, h, viewSnapshot, hnotice]
  rfl

theorem viewPrice_of_book (hkeyed : KeyedByAsset store) (hfeed : FromPublicFeed update)
    {assetId : AssetId} (hasset : bookAsset update.payload = some assetId) :
    (viewPrice rule maker store update).2 = (noticePrice rule maker store update).2 := by
  obtain ⟨hsubject, hkind⟩ := subject_of_bookAsset hfeed hasset
  obtain ⟨book, hresolve, hnotice, rfl⟩ := resolveBookNotice_own hkeyed hfeed hasset
  simp only [viewPrice, noticePrice, projectSnapshot_own hresolve hnotice, Option.bind_some,
    HotStateStore.resolveNotice, if_pos hkind, hresolve, Option.map_some, resolvedBook, hsubject]
  split
  · rfl
  · rename_i hother
    have htoken : (viewSnapshot book).assetId ≠ maker.tokenId := by
      intro htoken
      apply hother
      rw [← htoken]
      rfl
    exact (if_pos htoken).symm

theorem viewPrice_of_not_book (hfeed : FromPublicFeed update)
    (hasset : bookAsset update.payload = none) : (viewPrice rule maker store update).2 = none := by
  have hkind : resolvesBook update.notice.kind = false := by
    rw [hfeed.kind]
    cases hpayload : update.payload with
    | bookSnapshot | bookDelta | bestBidAsk | tickSizeChange =>
        exact absurd (hpayload ▸ hasset) (by simp [bookAsset])
    | tradeTick | referencePrice | reconnect | sourceStatus => rfl
  simp only [viewPrice, HotStateStore.resolveNotice, hkind, Bool.false_eq_true, if_false]
  split
  · cases (store.applyUpdate update).resolveReferenceNotice update.notice <;> rfl
  · rfl

theorem noticePrice_of_trade (hkeyed : KeyedByAsset store) (hfeed : FromPublicFeed update)
    (hkind : update.payload.kind = .tradeTick) {assetId : AssetId}
    (hsubject : update.notice.subject = .asset publicSourceId assetId) :
    (noticePrice rule maker store update).2.isSome ↔ TradeRefires rule maker store update := by
  have hbooks : (store.applyUpdate update).books = store.books := by
    rcases update with ⟨notice, payload⟩
    cases payload <;> first | rfl | exact absurd hkind (by simp [NormalizedUpdatePayload.kind])
  have hresolve : (store.applyUpdate update).resolveBookNotice update.notice =
      (store.bookState publicSourceId assetId).filter fun book =>
        book.version = update.notice.version := by
    rw [HotStateStore.resolveBookNotice, hbooks, hsubject, hfeed.sourceId]
    rfl
  simp only [noticePrice, HotStateStore.projectSnapshot, hresolve, TradeRefires, hkind, hsubject,
    true_and]
  constructor
  · intro hfires
    obtain ⟨price, hprice⟩ := Option.isSome_iff_exists.mp hfires
    obtain ⟨snapshot, hsnapshot, hfire⟩ := Option.bind_eq_some_iff.mp hprice
    obtain ⟨book, hfilter, rfl⟩ := Option.map_eq_some_iff.mp hsnapshot
    obtain ⟨hbook, hversion⟩ := Option.filter_eq_some_iff.mp hfilter
    unfold firePrice at hfire
    split at hfire
    · exact absurd hfire (by simp)
    · rename_i htoken
      have hasset : assetId = maker.tokenId :=
        (hkeyed _ _ _ hbook).symm.trans (not_not.mp htoken)
      subst hasset
      exact ⟨rfl, book, hbook, of_decide_eq_true hversion, Option.isSome_iff_exists.mpr ⟨_, hfire⟩⟩
  · rintro ⟨htoken, book, hbook, hversion, hfires⟩
    obtain rfl : assetId = maker.tokenId := congrArg InstrumentRef.instrumentId htoken
    rw [show store.bookState _ _ = some book from hbook, Option.filter_some,
      if_pos (decide_eq_true hversion), Option.map_some, Option.bind_some, firePrice,
      if_neg (not_not.mpr (hkeyed _ _ _ hbook))]
    exact hfires

theorem not_tradeRefires_of_kind (hkind : update.payload.kind ≠ .tradeTick) :
    ¬ TradeRefires rule maker store update := by
  rintro ⟨htrade, -⟩
  exact hkind htrade

theorem noticePrice_of_reconnect (hreconnect : isReconnect update.payload) :
    (noticePrice rule maker store update).2 = none := by
  have hnone : (store.applyUpdate update).books (.asset update.notice.sourceId
      update.notice.subject.instrumentId) = none := by
    rw [HotStateStore.books_applyUpdate]
    exact if_pos ⟨hreconnect, rfl⟩
  simp only [noticePrice, HotStateStore.projectSnapshot, HotStateStore.resolveBookNotice, hnone]
  rfl

/-- Only a trade can make the snapshot replay fire where the view replay does
not, and does exactly when it refires. -/
theorem noticePrice_eq_viewPrice_iff (hkeyed : KeyedByAsset store)
    (hfeed : FromPublicFeed update) :
    (noticePrice rule maker store update).2 = (viewPrice rule maker store update).2 ↔
      ¬ TradeRefires rule maker store update := by
  cases hasset : bookAsset update.payload with
  | some assetId =>
      rw [viewPrice_of_book hkeyed hfeed hasset]
      refine iff_of_true rfl (not_tradeRefires_of_kind ?_)
      cases hpayload : update.payload with
      | tradeTick => exact absurd (hpayload ▸ hasset) (by simp [bookAsset])
      | _ => simp [NormalizedUpdatePayload.kind]
  | none =>
      rw [viewPrice_of_not_book hfeed hasset]
      have hconcerns := hfeed.subject
      cases hpayload : update.payload with
      | bookSnapshot | bookDelta | bestBidAsk | tickSizeChange =>
          exact absurd (hpayload ▸ hasset) (by simp [bookAsset])
      | referencePrice | sourceStatus =>
          rw [hpayload] at hconcerns
          exact hconcerns.elim
      | tradeTick trade =>
          rw [hpayload] at hconcerns
          obtain ⟨assetId, hsubject⟩ := hconcerns
          rw [← noticePrice_of_trade hkeyed hfeed (by rw [hpayload]; rfl) hsubject]
          exact Option.not_isSome_iff_eq_none.symm
      | reconnect reconnect =>
          refine iff_of_true (noticePrice_of_reconnect ?_) (not_tradeRefires_of_kind ?_)
          · rw [hpayload]
            rfl
          · simp [hpayload, NormalizedUpdatePayload.kind]

theorem viewPrice_none_or_eq (hkeyed : KeyedByAsset store) (hfeed : FromPublicFeed update) :
    (viewPrice rule maker store update).2 = none ∨
      (viewPrice rule maker store update).2 = (noticePrice rule maker store update).2 := by
  cases hasset : bookAsset update.payload with
  | none => exact .inl (viewPrice_of_not_book hfeed hasset)
  | some assetId => exact .inr (viewPrice_of_book hkeyed hfeed hasset)

section Prices

variable {α : Type*} {fewer more : List (Option α)}

theorem reduceOption_sublist (h : List.Forall₂ (fun a b => a = none ∨ a = b) fewer more) :
    List.Sublist fewer.reduceOption more.reduceOption := by
  induction h with
  | nil => exact List.Sublist.refl _
  | @cons a b fewer more hab _ ih =>
      rcases hab with rfl | rfl
      · cases b with
        | none => exact ih
        | some x => exact ih.cons x
      · cases a with
        | none => exact ih
        | some x => exact ih.cons_cons x

theorem reduceOption_eq_iff (h : List.Forall₂ (fun a b => a = none ∨ a = b) fewer more) :
    more.reduceOption = fewer.reduceOption ↔ more = fewer := by
  constructor
  · intro heq
    induction h with
    | nil => rfl
    | @cons a b fewer more hab hrest ih =>
        rcases hab with rfl | rfl
        · cases b with
          | none => rw [ih heq]
          | some x =>
              have hlength := (reduceOption_sublist hrest).length_le
              rw [List.reduceOption_cons_of_some, List.reduceOption_cons_of_none] at heq
              rw [← heq, List.length_cons] at hlength
              omega
        · cases a with
          | none => rw [ih heq]
          | some x =>
              rw [List.reduceOption_cons_of_some, List.reduceOption_cons_of_some] at heq
              rw [ih (List.cons.inj heq).2]
  · rintro rfl
    rfl

end Prices

/-- The hot state that the updates leave. -/
def storeStep (store : HotStateStore) (update : NormalizedUpdate) : HotStateStore × Unit :=
  (store.applyUpdate update, ())

theorem forall₂_prices (rule : FiringRule) (maker : TriggerMaker) {updates : List NormalizedUpdate}
    (hkeyed : KeyedByAsset store) (hfeed : ∀ update ∈ updates, FromPublicFeed update) :
    List.Forall₂ (fun a b => a = none ∨ a = b) (outputs (viewPrice rule maker) store updates)
      (outputs (noticePrice rule maker) store updates) := by
  induction updates generalizing store with
  | nil => exact .nil
  | cons update updates ih =>
      obtain ⟨hupdate, hrest⟩ := List.forall_mem_cons.mp hfeed
      exact .cons (viewPrice_none_or_eq hkeyed hupdate) (ih (hkeyed.applyUpdate update) hrest)

theorem prices_eq_iff (rule : FiringRule) (maker : TriggerMaker) {updates : List NormalizedUpdate}
    (hkeyed : KeyedByAsset store) (hfeed : ∀ update ∈ updates, FromPublicFeed update) :
    outputs (noticePrice rule maker) store updates = outputs (viewPrice rule maker) store updates ↔
      Along storeStep (fun store update => ¬ TradeRefires rule maker store update) store
        updates := by
  induction updates generalizing store with
  | nil => exact iff_of_true rfl trivial
  | cons update updates ih =>
      obtain ⟨hupdate, hrest⟩ := List.forall_mem_cons.mp hfeed
      rw [outputs, outputs, Along, List.cons.injEq, noticePrice_eq_viewPrice_iff hkeyed hupdate]
      exact and_congr_right fun _ => ih (hkeyed.applyUpdate update) hrest

theorem replays_agree_iff (rule : FiringRule) (maker : TriggerMaker) (clock : Nat → Nat)
    (markets : List MarketMeta) {updates : List NormalizedUpdate}
    (hfeed : ∀ update ∈ updates, FromPublicFeed update) :
    SameTriggers (runNoticeReplay (firingStrategy rule) maker markets updates)
        (runTriggerNoticeReplay (firingTriggerStrategy rule) { maker with epoch := clock } markets
          updates) ↔
      Along storeStep (fun store update => ¬ TradeRefires rule maker store update)
        (markets.foldl HotStateStore.registerMarket .new) updates := by
  have hkeyed := keyedByAsset_registered markets
  simp only [SameTriggers, runNoticeReplay, runTriggerNoticeReplay]
  rw [triggers_noticeReplay, triggers_triggerReplay _ _ _ rfl, List.nil_append, List.nil_append]
  refine (makeAll_same_iff maker clock).trans ?_
  exact (reduceOption_eq_iff (forall₂_prices rule maker hkeyed hfeed)).trans
    (prices_eq_iff rule maker hkeyed hfeed)

/-- The two replays of a strategy give the same triggers exactly when no trade
makes it fire again on a book it has fired on. -/
theorem trigger_replays_agree_iff {F : Type} (prices : PriceArithmetic F) (limit : F)
    (maker : TriggerMaker) (clock : Nat → Nat) (markets : List MarketMeta)
    (updates : List NormalizedUpdate) (hfeed : ∀ update ∈ updates, FromPublicFeed update) :
    (SameTriggers (runNoticeReplay (thresholdStrategy prices limit) maker markets updates)
        (runTriggerNoticeReplay (thresholdTriggerStrategy prices limit)
          { maker with epoch := clock } markets updates) ↔
      Along storeStep
        (fun store update => ¬ TradeRefires (thresholdRule prices limit) maker store update)
        (markets.foldl HotStateStore.registerMarket .new) updates) ∧
    (SameTriggers (runNoticeReplay (spreadStrategy prices limit) maker markets updates)
        (runTriggerNoticeReplay (spreadTriggerStrategy prices limit)
          { maker with epoch := clock } markets updates) ↔
      Along storeStep
        (fun store update => ¬ TradeRefires (spreadRule prices limit) maker store update)
        (markets.foldl HotStateStore.registerMarket .new) updates) := by
  constructor
  · exact replays_agree_iff (thresholdRule prices limit) maker clock markets hfeed
  · exact replays_agree_iff (spreadRule prices limit) maker clock markets hfeed

/-- A book of asset `yes` and a trade of it. -/
def bookThenTrade (traded : String) : List WsMessage :=
  [.book
    { assetId := "yes", market := "m", timestamp := "1"
      bids := [⟨"0.5", "100"⟩], asks := [⟨"0.52", "40"⟩], hash := none },
   .lastTradePrice
    { assetId := "yes", market := "m", price := "0.52", side := some .buy, size := some "3"
      feeRateBps := none, timestamp := traded }]

/-- A trade in the millisecond of the book makes the snapshot replay fire twice. -/
theorem trade_in_book_version_refires :
    (∀ update ∈ (bookThenTrade "1").flatMap WsMessage.toNormalizedUpdates,
      FromPublicFeed update) ∧
    ¬ SameTriggers
      (runNoticeReplay (thresholdStrategy millionths 520000) buyer []
        ((bookThenTrade "1").flatMap WsMessage.toNormalizedUpdates))
      (runTriggerNoticeReplay (thresholdTriggerStrategy millionths 520000) buyer []
        ((bookThenTrade "1").flatMap WsMessage.toNormalizedUpdates)) := by
  constructor
  · intro update hupdate
    obtain ⟨message, -, hmem⟩ := List.mem_flatMap.mp hupdate
    exact fromPublicFeed_of_mem hmem
  · decide +kernel

theorem trigger_replays_agree_iff_laterTrade :
    SameTriggers
      (runNoticeReplay (thresholdStrategy millionths 520000) buyer []
        ((bookThenTrade "2").flatMap WsMessage.toNormalizedUpdates))
      (runTriggerNoticeReplay (thresholdTriggerStrategy millionths 520000)
        { buyer with epoch := fun id => 7 * id } []
        ((bookThenTrade "2").flatMap WsMessage.toNormalizedUpdates)) := by
  refine (trigger_replays_agree_iff millionths 520000 buyer (fun id => 7 * id) [] _ ?_).1.mpr ?_
  · intro update hupdate
    obtain ⟨message, -, hmem⟩ := List.mem_flatMap.mp hupdate
    exact fromPublicFeed_of_mem hmem
  · decide +kernel

end Rtt.ReplayTriggers
