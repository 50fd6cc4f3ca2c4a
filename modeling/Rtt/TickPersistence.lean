import Rtt.TickConsistency

namespace Rtt.TickPersistence

open Rtt.Machine
open Rtt.PartialMap
open Rtt.PublicEvent
open Rtt.HotState
open Rtt.TickConsistency
open Rtt.MarketMessages (assetNotice)
open Rtt.SourceIsolation (HotEvent storeAfter)

/-- The book carries the tick size, as text and in units. -/
structure HasTick (newTickSize : TickSize) (book : HotBookState) : Prop where
  text : book.tickSize = some newTickSize
  units : book.tickSizeUnits = parseScaled newTickSize

/-- The units of a registered market are those of its tick size. -/
def Faithful (registered : Option RegisteredMarket) : Prop :=
  ∀ market ∈ registered, market.tickSizeUnits = (parseScaled market.tickSize).getD 0

/-- What ends the hold of a tick-size change of an asset. -/
def Interrupts (sourceId : SourceId) (assetId : AssetId) : HotEvent → Prop
  | .registered market => market.yesAsset.assetId = assetId ∨ market.noAsset.assetId = assetId
  | .applied update => update.notice.sourceId = sourceId ∧
      match update.payload with
      | .reconnect _ => True
      | .tickSizeChange change => change.assetId = assetId
      | .bookSnapshot _ | .bookDelta _ | .bestBidAsk _ | .tradeTick _ | .referencePrice _
      | .sourceStatus _ => False

/-- An update of the book leaves the tick size: it does not take another one from
the registered market. -/
def PayloadKeeps (registered : Option RegisteredMarket) (newTickSize : TickSize)
    (assetId : AssetId) : NormalizedUpdatePayload → Prop
  | .bookSnapshot snapshot => snapshot.assetId = assetId →
      registered.map RegisteredMarket.tickSize = some newTickSize
  | .bestBidAsk bestBidAsk => bestBidAsk.assetId = assetId →
      ∀ market ∈ registered, market.tickSize = newTickSize
  | .bookDelta _ | .tickSizeChange _ | .tradeTick _ | .referencePrice _ | .reconnect _
  | .sourceStatus _ => True

/-- The event does not take the new tick size away. -/
def KeepsTick (registered : Option RegisteredMarket) (newTickSize : TickSize)
    (sourceId : SourceId) (assetId : AssetId) : HotEvent → Prop
  | .registered _ => True
  | .applied update => update.notice.sourceId = sourceId →
      PayloadKeeps registered newTickSize assetId update.payload

section NextBook

variable {registered : Option RegisteredMarket} {newTickSize : TickSize}
  {old : HotBookState}

theorem units_of_text (hfaithful : Faithful registered) (hparsed : parseScaled newTickSize ≠ none)
    {market : RegisteredMarket} (hmarket : market ∈ registered)
    (htext : market.tickSize = newTickSize) :
    some market.tickSizeUnits = parseScaled newTickSize := by
  obtain ⟨units, hunits⟩ := Option.ne_none_iff_exists'.mp hparsed
  rw [hfaithful market hmarket, htext, hunits, Option.getD_some]

theorem hasTick_snapshotBook_iff (hfaithful : Faithful registered)
    (hparsed : parseScaled newTickSize ≠ none) (notice : UpdateNotice)
    (snapshot : BookSnapshotUpdate) :
    HasTick newTickSize (snapshotBook registered notice snapshot) ↔
      registered.map RegisteredMarket.tickSize = some newTickSize := by
  have htext : (snapshotBook registered notice snapshot).tickSize =
      registered.map RegisteredMarket.tickSize := by
    rcases registered with _ | market <;> rfl
  have hunits := (@fields_snapshotBook registered notice snapshot).tick
  constructor
  · exact fun h => htext.symm.trans h.text
  · intro h
    refine ⟨htext.trans h, hunits.trans ?_⟩
    obtain ⟨market, hmarket, hsame⟩ := Option.map_eq_some_iff.mp h
    rw [hmarket, Option.map_some]
    exact units_of_text hfaithful hparsed hmarket hsame

theorem hasTick_deltaBook (h : HasTick newTickSize old) (notice : UpdateNotice)
    (delta : BookDeltaUpdate) :
    HasTick newTickSize (deltaBook registered (some old) notice delta) := by
  obtain ⟨htext, hunits⟩ := h
  simp only [deltaBook]
  cases delta.side <;> exact ⟨htext, hunits⟩

theorem hasTick_bestBidAskBook_iff (hfaithful : Faithful registered)
    (hparsed : parseScaled newTickSize ≠ none) (h : HasTick newTickSize old)
    (notice : UpdateNotice) (bestBidAsk : BestBidAskUpdate) :
    HasTick newTickSize (bestBidAskBook registered (some old) notice bestBidAsk) ↔
      ∀ market ∈ registered, market.tickSize = newTickSize := by
  rcases registered with _ | market
  · exact iff_of_true ⟨h.text, h.units⟩ (by simp)
  · simp only [Option.mem_some_iff, forall_eq']
    constructor
    · exact fun hafter => Option.some.inj hafter.text
    · intro hsame
      exact ⟨congrArg some hsame, units_of_text hfaithful hparsed rfl hsame⟩

theorem hasTick_nextBook_iff (hfaithful : Faithful registered)
    (hparsed : parseScaled newTickSize ≠ none) (h : HasTick newTickSize old)
    {update : NormalizedUpdate} {assetId : AssetId} {book : HotBookState}
    (hasset : bookAsset update.payload = some assetId)
    (hquiet : ¬ Interrupts update.notice.sourceId assetId (.applied update))
    (hbook : nextBook registered (some old) update = some book) :
    HasTick newTickSize book ↔ PayloadKeeps registered newTickSize assetId update.payload := by
  rcases update with ⟨notice, payload⟩
  cases payload with
  | bookSnapshot snapshot =>
      obtain rfl := Option.some.inj hbook
      obtain rfl := Option.some.inj hasset
      simp only [PayloadKeeps, forall_const]
      exact hasTick_snapshotBook_iff hfaithful hparsed notice snapshot
  | bookDelta delta =>
      obtain rfl := Option.some.inj hbook
      exact iff_of_true (hasTick_deltaBook h notice delta) trivial
  | bestBidAsk bestBidAsk =>
      obtain rfl := Option.some.inj hbook
      obtain rfl := Option.some.inj hasset
      simp only [PayloadKeeps, forall_const]
      exact hasTick_bestBidAskBook_iff hfaithful hparsed h notice bestBidAsk
  | tickSizeChange change => exact absurd ⟨rfl, Option.some.inj hasset⟩ hquiet
  | tradeTick | referencePrice | reconnect | sourceStatus =>
      exact absurd hasset (by simp [bookAsset])

end NextBook

section Run

variable {sourceId : SourceId} {assetId : AssetId} {registered : Option RegisteredMarket}
  {newTickSize : TickSize} {store : HotStateStore} {event : HotEvent}

theorem exec_hotStep (store : HotStateStore) (events : List HotEvent) :
    exec hotStep store events = events.foldl HotEvent.apply store := by
  induction events generalizing store with
  | nil => rfl
  | cons event events ih => exact ih _

/-- The market of the asset is the registered one, and its book is there. -/
structure Holding (sourceId : SourceId) (assetId : AssetId)
    (registered : Option RegisteredMarket) (store : HotStateStore) : Prop where
  wellKept : WellKept store
  market : store.marketsByAsset assetId = registered
  book : store.books (.asset sourceId assetId) ≠ none

/-- The book of the asset has the new tick size. -/
def TickHeld (sourceId : SourceId) (assetId : AssetId) (newTickSize : TickSize)
    (store : HotStateStore) : Prop :=
  ∃ book, store.books (.asset sourceId assetId) = some book ∧ HasTick newTickSize book

theorem books_registered (h : WellKept store) {market : MarketMeta}
    (hquiet : ¬ Interrupts sourceId assetId (.registered market)) :
    (store.registerMarket market).marketsByAsset assetId = store.marketsByAsset assetId ∧
      (store.registerMarket market).books (.asset sourceId assetId) =
        store.books (.asset sourceId assetId) := by
  obtain ⟨hyes, hno⟩ := not_or.mp hquiet
  have hasset : ∀ {store : HotStateStore} (registered : RegisteredMarket) {other : AssetId},
      WellKept store → other ≠ assetId →
        (store.registerAsset registered other).marketsByAsset assetId =
            store.marketsByAsset assetId ∧
          (store.registerAsset registered other).books (.asset sourceId assetId) =
            store.books (.asset sourceId assetId) := by
    intro store registered other hkept hne
    refine ⟨insert_of_ne _ _ _ hne.symm, ?_⟩
    simp only [HotStateStore.registerAsset, mapValues_apply]
    cases hbook : store.books (.asset sourceId assetId) with
    | none => rfl
    | some book =>
        rw [Option.map_some, if_neg]
        rw [hkept.assetId_eq hbook]
        exact hne.symm
  obtain ⟨hmarkets, hbooks⟩ := hasset _ h hyes
  obtain ⟨hmarkets', hbooks'⟩ := hasset _ (h.registerAsset _ _) hno
  exact ⟨hmarkets'.trans hmarkets, hbooks'.trans hbooks⟩

theorem books_applied {update : NormalizedUpdate}
    (hquiet : ¬ Interrupts sourceId assetId (.applied update)) :
    (store.applyUpdate update).books (.asset sourceId assetId) =
      if update.notice.sourceId = sourceId ∧ bookAsset update.payload = some assetId then
        nextBook (store.marketsByAsset assetId) (store.books (.asset sourceId assetId)) update
      else store.books (.asset sourceId assetId) := by
  have hreconnect : ¬ (isReconnect update.payload = true ∧
      (HotStateKey.asset sourceId assetId).sourceId = update.notice.sourceId.value) := by
    rintro ⟨hpayload, hsource⟩
    refine hquiet ⟨?_, ?_⟩
    · rcases update with ⟨⟨⟨source⟩, _, _, _, _, _⟩, _⟩
      rcases sourceId with ⟨name⟩
      exact congrArg SourceId.mk hsource.symm
    · rcases update with ⟨notice, payload⟩
      cases payload with
      | reconnect => trivial
      | bookSnapshot | bookDelta | bestBidAsk | tradeTick | referencePrice | tickSizeChange
      | sourceStatus => exact absurd hpayload Bool.false_ne_true
  rw [HotStateStore.books_applyUpdate, if_neg hreconnect]
  cases hasset : bookAsset update.payload with
  | none => simp
  | some written =>
      simp only [asset_eq_iff, Option.some.injEq]
      by_cases hsame : sourceId = update.notice.sourceId ∧ assetId = written
      · obtain ⟨rfl, rfl⟩ := hsame
        simp
      · rw [if_neg hsame, if_neg]
        rintro ⟨rfl, rfl⟩
        exact hsame ⟨rfl, rfl⟩

theorem Holding.hotStep (h : Holding sourceId assetId registered store)
    (hquiet : ¬ Interrupts sourceId assetId event) :
    Holding sourceId assetId registered (hotStep store event).1 := by
  refine ⟨wellKept_hotStep h.wellKept event, ?_, ?_⟩
  · cases event with
    | registered market => exact (books_registered h.wellKept hquiet).1.trans h.market
    | applied update =>
        exact (congrFun (HotStateStore.marketsByAsset_applyUpdate _ _) _).trans h.market
  · cases event with
    | registered market =>
        intro hnone
        exact h.book ((books_registered h.wellKept hquiet).2.symm.trans hnone)
    | applied update =>
        intro hnone
        have hwritten := (books_applied hquiet).symm.trans hnone
        split at hwritten
        · rename_i hown
          obtain ⟨book, hbook⟩ := exists_nextBook (store.marketsByAsset assetId)
            (store.books (.asset sourceId assetId)) hown.2
          exact absurd (hbook.symm.trans hwritten) (by simp)
        · exact h.book hwritten

theorem tickHeld_hotStep_iff (hfaithful : Faithful registered)
    (hparsed : parseScaled newTickSize ≠ none) (h : Holding sourceId assetId registered store)
    (hquiet : ¬ Interrupts sourceId assetId event)
    (hheld : TickHeld sourceId assetId newTickSize store) :
    TickHeld sourceId assetId newTickSize (hotStep store event).1 ↔
      KeepsTick registered newTickSize sourceId assetId event := by
  obtain ⟨old, hold, htick⟩ := hheld
  cases event with
  | registered market =>
      exact iff_of_true ⟨old, (books_registered h.wellKept hquiet).2.trans hold, htick⟩ trivial
  | applied update =>
      have hbooks : (Rtt.TickConsistency.hotStep store (.applied update)).1.books
          (.asset sourceId assetId) = _ := books_applied hquiet
      by_cases hown : update.notice.sourceId = sourceId ∧ bookAsset update.payload = some assetId
      · obtain ⟨hsource, hasset⟩ := hown
        rw [if_pos ⟨hsource, hasset⟩, h.market, hold] at hbooks
        obtain ⟨book, hbook⟩ := exists_nextBook registered (some old) hasset
        have hiff := hasTick_nextBook_iff hfaithful hparsed htick hasset (hsource ▸ hquiet) hbook
        rw [TickHeld, hbooks, hbook]
        simp only [Option.some.injEq, exists_eq_left', hiff, KeepsTick, hsource, forall_const]
      · rw [if_neg hown] at hbooks
        refine iff_of_true ⟨old, hbooks.trans hold, htick⟩ ?_
        intro hsource
        have hother : bookAsset update.payload ≠ some assetId := fun hasset =>
          hown ⟨hsource, hasset⟩
        rcases update with ⟨notice, payload⟩
        cases payload with
        | bookSnapshot | bestBidAsk => exact fun hasset => absurd (congrArg some hasset) hother
        | bookDelta | tickSizeChange | tradeTick | referencePrice | reconnect | sourceStatus =>
            trivial

end Run

section Reached

variable {store : HotStateStore}

theorem faithful_registerAsset (h : ∀ assetId, Faithful (store.marketsByAsset assetId))
    {registered : RegisteredMarket} (hregistered : Faithful (some registered)) (added : AssetId) :
    ∀ assetId, Faithful ((store.registerAsset registered added).marketsByAsset assetId) := by
  intro assetId
  rcases eq_or_ne assetId added with rfl | hne
  · have hown : (store.registerAsset registered assetId).marketsByAsset assetId =
        some registered := insert_self ..
    rw [hown]
    exact hregistered
  · have hother : (store.registerAsset registered added).marketsByAsset assetId =
        store.marketsByAsset assetId := insert_of_ne _ _ _ hne
    rw [hother]
    exact h assetId

theorem faithful_hotStep (h : ∀ assetId, Faithful (store.marketsByAsset assetId))
    (event : HotEvent) :
    ∀ assetId, Faithful ((hotStep store event).1.marketsByAsset assetId) := by
  cases event with
  | applied update =>
      intro assetId
      have hmarkets := congrFun (HotStateStore.marketsByAsset_applyUpdate store update) assetId
      exact hmarkets.symm ▸ h assetId
  | registered market =>
      have hregistered : Faithful (some
          { marketId := market.marketId
            tickSize := market.tickSize
            tickSizeUnits := (parseScaled market.tickSize).getD 0
            lotSize := market.minOrderSize
            lotSizeUnits := market.minOrderSize.bind parseScaled }) := by
        rintro _ ⟨rfl⟩
        rfl
      exact faithful_registerAsset (faithful_registerAsset h hregistered _) hregistered _

theorem invariant_storeAfter {I : HotStateStore → Prop} (hnew : I .new)
    (hstep : ∀ store event, I store → I (hotStep store event).1) (events : List HotEvent) :
    I (storeAfter events) := by
  rw [storeAfter, ← exec_hotStep]
  exact exec_kept hstep hnew events

theorem wellKept_storeAfter (events : List HotEvent) : WellKept (storeAfter events) :=
  invariant_storeAfter wellKept_new (fun _ event h => wellKept_hotStep h event) events

theorem faithful_storeAfter (events : List HotEvent) :
    ∀ assetId, Faithful ((storeAfter events).marketsByAsset assetId) := by
  refine invariant_storeAfter
    (I := fun store => ∀ assetId, Faithful (store.marketsByAsset assetId)) ?_
    (fun _ event h => faithful_hotStep h event) events
  rintro _ _ hnone
  exact absurd hnone (by simp [HotStateStore.new])

theorem tickHeld_tickSizeChange (store : HotStateStore) (notice : UpdateNotice)
    (change : TickSizeChangeUpdate) :
    TickHeld notice.sourceId change.assetId change.newTickSize
      (store.applyUpdate ⟨notice, .tickSizeChange change⟩) := by
  refine ⟨tickSizeBook (store.marketsByAsset change.assetId)
    (store.books (.asset notice.sourceId change.assetId)) notice change, ?_, rfl, rfl⟩
  exact store.books_applyUpdate_own ⟨notice, .tickSizeChange change⟩ rfl

end Reached

/-- The book keeps the tick size of a change through all updates up to the next
interruption exactly when each of them keeps it. -/
theorem tick_size_kept_iff (before after : List HotEvent) (notice : UpdateNotice)
    (change : TickSizeChangeUpdate) (hparsed : parseScaled change.newTickSize ≠ none)
    (hquiet : ∀ event ∈ after, ¬ Interrupts notice.sourceId change.assetId event) :
    (∀ part, part <+: after →
      TickHeld notice.sourceId change.assetId change.newTickSize
        (storeAfter (before ++ .applied ⟨notice, .tickSizeChange change⟩ :: part))) ↔
      ∀ event ∈ after, KeepsTick ((storeAfter before).marketsByAsset change.assetId)
        change.newTickSize notice.sourceId change.assetId event := by
  let registered := (storeAfter before).marketsByAsset change.assetId
  let changed := (storeAfter before).applyUpdate ⟨notice, .tickSizeChange change⟩
  have hrun : ∀ part, storeAfter (before ++ .applied ⟨notice, .tickSizeChange change⟩ :: part) =
      exec hotStep changed part := by
    intro part
    rw [exec_hotStep, storeAfter, List.foldl_append, List.foldl_cons]
    rfl
  have hheld : TickHeld notice.sourceId change.assetId change.newTickSize changed :=
    tickHeld_tickSizeChange _ notice change
  have hholding : Holding notice.sourceId change.assetId registered changed := by
    obtain ⟨book, hbook, -⟩ := hheld
    refine ⟨(wellKept_storeAfter before).applyUpdate _, ?_, ?_⟩
    · exact congrFun (HotStateStore.marketsByAsset_applyUpdate _ _) _
    · rw [hbook]
      exact Option.some_ne_none book
  have hkeep : ∀ store, ∀ event ∈ after,
      Holding notice.sourceId change.assetId registered store →
        Holding notice.sourceId change.assetId registered (hotStep store event).1 :=
    fun _ event hmem h => h.hotStep (hquiet event hmem)
  have hexact : ∀ store, ∀ event ∈ after,
      Holding notice.sourceId change.assetId registered store →
        TickHeld notice.sourceId change.assetId change.newTickSize store →
          (TickHeld notice.sourceId change.assetId change.newTickSize (hotStep store event).1 ↔
            KeepsTick registered change.newTickSize notice.sourceId change.assetId event) :=
    fun _ event hmem h =>
      tickHeld_hotStep_iff (faithful_storeAfter before _) hparsed h (hquiet event hmem)
  simp only [hrun]
  rw [forall_prefix_iff_along hkeep hexact hholding hheld]
  exact along_forall_iff

def changedTick : TickSizeChangeUpdate :=
  { marketId := "market-1", assetId := "asset-yes", oldTickSize := "0.01"
    newTickSize := "0.001", timestampMs := 1 }

def registeredMarket : HotEvent :=
  .registered
    { marketId := "market-1", yesAsset := { assetId := "asset-yes", side := .yes }
      noAsset := { assetId := "asset-no", side := .no }
      tickSize := "0.01", minOrderSize := some "5" }

def laterDelta : HotEvent :=
  .applied
    { notice := assetNotice publicSourceId "asset-yes" .bookDelta 2 none
      payload := .bookDelta
        { marketId := "market-1", assetId := "asset-yes", side := .buy, price := "0.55"
          size := "100", bestBid := none, bestAsk := none, timestampMs := 2
          sourceHash := none } }

def laterSnapshot : HotEvent :=
  .applied
    { notice := assetNotice publicSourceId "asset-yes" .bookSnapshot 3 none
      payload := .bookSnapshot
        { marketId := "market-1", assetId := "asset-yes", bids := [⟨"0.55", "100"⟩], asks := []
          timestampMs := 3, sourceHash := none } }

theorem tick_size_kept_iff_laterDelta :
    (∀ part, part <+: [laterDelta] →
      TickHeld publicSourceId "asset-yes" "0.001"
        (storeAfter ([registeredMarket] ++ .applied
          ⟨assetNotice publicSourceId "asset-yes" .tickSizeChange 1 none,
            .tickSizeChange changedTick⟩ :: part))) ↔
      ∀ event ∈ [laterDelta],
        KeepsTick ((storeAfter [registeredMarket]).marketsByAsset "asset-yes") "0.001"
          publicSourceId "asset-yes" event :=
  tick_size_kept_iff [registeredMarket] [laterDelta]
    (assetNotice publicSourceId "asset-yes" .tickSizeChange 1 none) changedTick
    (by decide +kernel) (by
      intro event hevent hinterrupts
      obtain rfl := List.mem_singleton.mp hevent
      exact hinterrupts.2)

/-- A snapshot after the change takes the tick size of the registered market back. -/
theorem snapshot_restores_registered_tick :
    ¬ ∀ part, part <+: [laterSnapshot] →
      TickHeld publicSourceId "asset-yes" "0.001"
        (storeAfter ([registeredMarket] ++ .applied
          ⟨assetNotice publicSourceId "asset-yes" .tickSizeChange 1 none,
            .tickSizeChange changedTick⟩ :: part)) := by
  intro h
  obtain ⟨book, hbook, htick⟩ := h _ (List.prefix_refl _)
  have hrestored : ∀ book ∈ (storeAfter ([registeredMarket] ++ .applied
      ⟨assetNotice publicSourceId "asset-yes" .tickSizeChange 1 none,
        .tickSizeChange changedTick⟩ :: [laterSnapshot])).books
        (.asset publicSourceId "asset-yes"), book.tickSize = some "0.01" := by
    decide +kernel
  exact absurd ((hrestored book hbook).symm.trans htick.text) (by decide)

end Rtt.TickPersistence
