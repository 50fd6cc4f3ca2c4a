import Rtt.HotState

namespace Rtt.SourceIsolation

open Rtt.PartialMap
open Rtt.PublicEvent
open Rtt.HotState

/-- A market is registered, or an update applied. -/
inductive HotEvent where
  | registered (market : MarketMeta)
  | applied (update : NormalizedUpdate)

def HotEvent.apply (store : HotStateStore) : HotEvent → HotStateStore
  | .registered market => store.registerMarket market
  | .applied update => store.applyUpdate update

def storeAfter (events : List HotEvent) : HotStateStore := events.foldl HotEvent.apply .new

/-- The notice and its subject name the same source. -/
def WellScoped : HotEvent → Prop
  | .registered _ => True
  | .applied update => update.notice.sourceId = update.notice.subject.sourceId

instance (event : HotEvent) : Decidable (WellScoped event) :=
  match event with
  | .registered _ => isTrue trivial
  | .applied update =>
      inferInstanceAs (Decidable (update.notice.sourceId = update.notice.subject.sourceId))

/-- The registrations and the updates of one source. -/
def keeps (source : SourceId) : HotEvent → Bool
  | .registered _ => true
  | .applied update => update.notice.sourceId = source

/-- Two stores with the same markets and the same state of one source. -/
structure AgreeOn (source : SourceId) (a b : HotStateStore) : Prop where
  markets : a.marketsByAsset = b.marketsByAsset
  books : ∀ key, key.sourceId = source.value → a.books key = b.books key
  references : ∀ key, key.sourceId = source.value → a.references key = b.references key

variable {source : SourceId} {a b : HotStateStore} {update : NormalizedUpdate}

theorem AgreeOn.registerAsset (h : AgreeOn source a b) (registered : RegisteredMarket)
    (assetId : AssetId) :
    AgreeOn source (a.registerAsset registered assetId) (b.registerAsset registered assetId) := by
  constructor
  · simp only [HotStateStore.registerAsset, h.markets]
  · intro key hkey
    simp only [HotStateStore.registerAsset, mapValues_apply, h.books key hkey]
  · exact h.references

theorem AgreeOn.registerMarket (h : AgreeOn source a b) (market : MarketMeta) :
    AgreeOn source (a.registerMarket market) (b.registerMarket market) :=
  (h.registerAsset _ _).registerAsset _ _

theorem AgreeOn.applyUpdate (h : AgreeOn source a b) (update : NormalizedUpdate) :
    AgreeOn source (a.applyUpdate update) (b.applyUpdate update) := by
  constructor
  · rw [HotStateStore.marketsByAsset_applyUpdate, HotStateStore.marketsByAsset_applyUpdate,
      h.markets]
  · intro key hkey
    simp only [HotStateStore.books_applyUpdate, h.books key hkey, h.markets]
  · intro key hkey
    simp only [HotStateStore.references_applyUpdate, h.references key hkey]

theorem books_applyUpdate_other {store : HotStateStore} {key : HotStateKey}
    (hkey : key.sourceId ≠ update.notice.sourceId.value) :
    (store.applyUpdate update).books key = store.books key := by
  have hother : ∀ assetId, key ≠ .asset update.notice.sourceId assetId := by
    rintro assetId rfl
    exact hkey rfl
  simp only [HotStateStore.books_applyUpdate, hkey, and_false, if_false, hother]
  split <;> rfl

theorem references_applyUpdate_other {store : HotStateStore} {key : HotStateKey}
    (hscoped : WellScoped (.applied update))
    (hkey : key.sourceId ≠ update.notice.sourceId.value) :
    (store.applyUpdate update).references key = store.references key := by
  have hother : key ≠ .fromSubject update.notice.subject := by
    rintro rfl
    apply hkey
    rw [show update.notice.sourceId = update.notice.subject.sourceId from hscoped]
    rfl
  simp only [HotStateStore.references_applyUpdate, hkey, hother, and_false, if_false]

theorem AgreeOn.skip (h : AgreeOn source a b) (hscoped : WellScoped (.applied update))
    (hsource : update.notice.sourceId ≠ source) : AgreeOn source (a.applyUpdate update) b := by
  have hother : ∀ {key : HotStateKey}, key.sourceId = source.value →
      key.sourceId ≠ update.notice.sourceId.value := by
    intro key hkey heq
    exact hsource (SourceId.ext (heq.symm.trans hkey))
  constructor
  · rw [HotStateStore.marketsByAsset_applyUpdate, h.markets]
  · intro key hkey
    rw [books_applyUpdate_other (hother hkey), h.books key hkey]
  · intro key hkey
    rw [references_applyUpdate_other hscoped (hother hkey), h.references key hkey]

theorem agreeOn_run {events : List HotEvent} (hscoped : ∀ event ∈ events, WellScoped event)
    (h : AgreeOn source a b) :
    AgreeOn source (events.foldl HotEvent.apply a)
      ((events.filter (keeps source)).foldl HotEvent.apply b) := by
  induction events generalizing a b with
  | nil => exact h
  | cons event events ih =>
      have hrest : ∀ event ∈ events, WellScoped event :=
        fun event hevent => hscoped event (by simp [hevent])
      rw [List.foldl_cons, List.filter_cons]
      split
      · rw [List.foldl_cons]
        apply ih hrest
        cases event with
        | registered market => exact h.registerMarket market
        | applied update => exact h.applyUpdate update
      · rename_i hkeeps
        apply ih hrest
        cases event with
        | registered market => exact absurd rfl hkeeps
        | applied update =>
            exact h.skip (hscoped _ (by simp)) (by simpa [keeps] using hkeeps)

/-- What a source has recorded is what its own updates leave, and a reconnect of
the source leaves its own record and nothing else of it. -/
theorem sources_isolated (events : List HotEvent)
    (hscoped : ∀ event ∈ events, WellScoped event) (source : SourceId) :
    (∀ key : HotStateKey, key.sourceId = source.value →
      (storeAfter events).books key =
        (storeAfter (events.filter (keeps source))).books key ∧
      (storeAfter events).references key =
        (storeAfter (events.filter (keeps source))).references key) ∧
    (∀ (update : NormalizedUpdate) (reconnect : ReconnectUpdate),
      update.payload = .reconnect reconnect → WellScoped (.applied update) →
      update.notice.sourceId = source → ∀ key : HotStateKey,
        (key.sourceId = source.value →
          ((storeAfter events).applyUpdate update).books key = none ∧
          ((storeAfter events).applyUpdate update).references key =
            if key = .fromSubject update.notice.subject then
              some (reconnectReference update.notice reconnect)
            else none) ∧
        (key.sourceId ≠ source.value →
          ((storeAfter events).applyUpdate update).books key = (storeAfter events).books key ∧
          ((storeAfter events).applyUpdate update).references key =
            (storeAfter events).references key)) := by
  constructor
  · intro key hkey
    have hagree : AgreeOn source (storeAfter events) (storeAfter (events.filter (keeps source))) :=
      agreeOn_run hscoped
        { markets := rfl, books := fun _ _ => rfl, references := fun _ _ => rfl }
    exact ⟨hagree.books key hkey, hagree.references key hkey⟩
  · rintro update reconnect hpayload hupdate rfl key
    constructor
    · intro hkey
      rw [HotStateStore.books_applyUpdate, HotStateStore.references_applyUpdate]
      simp [hpayload, isReconnect, bookAsset, nextReference, hkey]
    · intro hkey
      exact ⟨books_applyUpdate_other hkey, references_applyUpdate_other hupdate hkey⟩

def sampleSnapshot (source : SourceId) (version : Nat) (bid ask : Price) : NormalizedUpdate :=
  { notice :=
      { sourceId := source
        sourceKind := .polymarketWs
        subject := .asset source "yes"
        kind := .bookSnapshot
        version
        sourceHash := none }
    payload := .bookSnapshot
      { marketId := "m", assetId := "yes", bids := [⟨bid, "100"⟩], asks := [⟨ask, "40"⟩]
        timestampMs := version, sourceHash := none } }

def sampleReconnect (source : SourceId) (sequence : Nat) : NormalizedUpdate :=
  { notice :=
      { sourceId := source
        sourceKind := .polymarketWs
        subject := .source source
        kind := .reconnect
        version := sequence
        sourceHash := none }
    payload := .reconnect { sequence, timestampMs := sequence } }

def sampleMarket : MarketMeta :=
  { marketId := "m", yesAsset := ⟨"yes", .yes⟩, noAsset := ⟨"no", .no⟩, tickSize := "0.01"
    minOrderSize := some "5" }

def sampleEvents : List HotEvent :=
  [.applied (sampleSnapshot publicSourceId 1 "0.5" "0.51"), .registered sampleMarket,
    .applied (sampleSnapshot ⟨"other-venue"⟩ 1 "0.4" "0.61")]

theorem sources_isolated_twoVenues :
    (∀ event ∈ sampleEvents, WellScoped event) ∧
      (storeAfter sampleEvents).books (.asset publicSourceId "yes") =
        (storeAfter (sampleEvents.filter (keeps publicSourceId))).books
          (.asset publicSourceId "yes") ∧
      ((storeAfter sampleEvents).applyUpdate (sampleReconnect publicSourceId 1)).books
        (.asset publicSourceId "yes") = none := by
  have hscoped : ∀ event ∈ sampleEvents, WellScoped event := by decide
  have hisolated := sources_isolated sampleEvents hscoped publicSourceId
  exact ⟨hscoped, (hisolated.1 _ rfl).1,
    ((hisolated.2 (sampleReconnect publicSourceId 1) _ rfl rfl rfl _).1 rfl).1⟩

end Rtt.SourceIsolation
