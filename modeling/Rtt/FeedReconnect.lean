import Rtt.Feed

namespace Rtt.FeedReconnect

open Rtt.Machine
open Rtt.PartialMap
open Rtt.PublicEvent
open Rtt.MarketMessages
open Rtt.OrderBook
open Rtt.Feed

/-- The kinds of notice that the feed publishes about assets. -/
def isAssetKind : UpdateKind → Bool
  | .bookSnapshot | .bookDelta | .bestBidAsk | .tradeTick | .tickSizeChange => true
  | .referencePrice | .reconnect | .sourceStatus | .custom => false

/-- The messages whose updates go to the reference store of an asset. -/
def carriesReference : WsMessage → Bool
  | .bestBidAsk _ | .lastTradePrice _ | .tickSizeChange _ => true
  | .book _ | .priceChange _ | .reconnected _ => false

/-- What a manager has published over its messages. -/
def published (sourceId : SourceId) (messages : List WsMessage) : List Published :=
  (outputs (processMessage sourceId) .new messages).flatten

def storesAfter (sourceId : SourceId) (messages : List WsMessage) : FeedStores :=
  exec (processMessage sourceId) .new messages

variable {sourceId : SourceId} {stores : FeedStores} {message : WsMessage}

theorem mem_outputs_processMessage {messages : List WsMessage} {publication : Published}
    (h : publication ∈ (outputs (processMessage sourceId) stores messages).flatten) :
    ∃ message ∈ messages, ∃ update ∈ message.toNormalizedUpdates,
      publication.update = scopeUpdateToSource update sourceId .polymarketWs := by
  induction messages generalizing stores with
  | nil => exact absurd h (by simp [outputs])
  | cons message messages ih =>
      rw [outputs, List.flatten_cons] at h
      rcases List.mem_append.mp h with hown | hrest
      · have hmem := List.mem_map_of_mem (f := Published.update) hown
        rw [map_update_processMessage] at hmem
        obtain ⟨update, hupdate, heq⟩ := List.mem_map.mp hmem
        exact ⟨message, by simp, update, hupdate, heq.symm⟩
      · obtain ⟨other, hother, hupdate⟩ := ih hrest
        exact ⟨other, by simp [hother], hupdate⟩

theorem reference_stays {key : ReferenceStoreKey} (update : NormalizedUpdate)
    (h : stores.referenceStore.state key ≠ none) :
    (applyUpdateToStores stores update).referenceStore.state key ≠ none := by
  have hrecord : (stores.referenceStore.applyUpdate update).state key ≠ none :=
    (stores.referenceStore.state_applyUpdate_ne_none update key).mpr (.inr h)
  rcases update with ⟨notice, payload⟩
  cases payload with
  | bookSnapshot | bookDelta => exact h
  | bestBidAsk | tradeTick | referencePrice | tickSizeChange | sourceStatus | reconnect =>
      exact hrecord

theorem reference_stays_exec {key : ReferenceStoreKey} (messages : List WsMessage)
    (h : stores.referenceStore.state key ≠ none) :
    (exec (processMessage sourceId) stores messages).referenceStore.state key ≠ none := by
  let Stays : FeedStores → Prop := fun stores => stores.referenceStore.state key ≠ none
  have hupdate : ∀ stores update, Stays stores → Stays (processUpdate stores update).1 :=
    fun _ update hstays => reference_stays update hstays
  have hmessage : ∀ stores message, Stays stores →
      Stays (processMessage sourceId stores message).1 :=
    fun _ _ hstays => exec_kept hupdate hstays _
  exact exec_kept hmessage h messages

theorem exists_reference (sourceId : SourceId) (stores : FeedStores)
    (h : carriesReference message) :
    ∃ publication ∈ (processMessage sourceId stores message).2,
      isAssetKind publication.notice.kind ∧
        publication.notice.kind ≠ .bookSnapshot ∧ publication.notice.kind ≠ .bookDelta ∧
        (processMessage sourceId stores message).1.referenceStore.state
          (.forSubject publication.notice.subject) ≠ none := by
  cases message with
  | book | priceChange | reconnected => exact absurd h (by simp [carriesReference])
  | bestBidAsk | lastTradePrice | tickSizeChange =>
      refine ⟨_, List.mem_singleton.mpr rfl, rfl, ?_, ?_, ?_⟩
      · exact UpdateKind.noConfusion
      · exact UpdateKind.noConfusion
      · exact (stores.referenceStore.state_applyUpdate_ne_none _ _).mpr (.inl rfl)

theorem kind_of_not_carriesReference {update : NormalizedUpdate}
    (hupdate : update ∈ message.toNormalizedUpdates) (h : ¬ carriesReference message)
    (hkind : isAssetKind update.notice.kind) :
    update.notice.kind = .bookSnapshot ∨ update.notice.kind = .bookDelta := by
  cases message with
  | book =>
      obtain rfl := List.mem_singleton.mp hupdate
      exact .inl rfl
  | priceChange event =>
      obtain ⟨entry, -, rfl⟩ := List.mem_map.mp hupdate
      exact .inr rfl
  | reconnected =>
      obtain rfl := List.mem_singleton.mp hupdate
      exact absurd hkind (by simp [isAssetKind])
  | bestBidAsk | lastTradePrice | tickSizeChange => exact absurd rfl h

theorem resolveNotice_reference {notice : UpdateNotice} (hsnapshot : notice.kind ≠ .bookSnapshot)
    (hdelta : notice.kind ≠ .bookDelta)
    (h : stores.referenceStore.state (.forSubject notice.subject) ≠ none) :
    stores.resolveNotice notice ≠ none := by
  obtain ⟨state, hstate⟩ := Option.ne_none_iff_exists'.mp h
  rw [FeedStores.resolveNotice, ReferenceStore.resolveSubject, hstate]
  split
  · contradiction
  · contradiction
  · simp

theorem orderBooks_reconnected (sourceId : SourceId) (messages : List WsMessage)
    (event : ReconnectEvent) :
    (storesAfter sourceId (messages ++ [.reconnected event])).orderBooks = .new := by
  rw [storesAfter, exec_concat]
  rfl

/-- Of what was published about assets before a reconnect nothing resolves after
it exactly when no message before it went to the reference store. -/
theorem reconnect_forgets_iff (sourceId : SourceId) (before : List WsMessage)
    (event : ReconnectEvent) :
    (∀ publication ∈ published sourceId before, isAssetKind publication.notice.kind →
      (storesAfter sourceId (before ++ [.reconnected event])).resolveNotice publication.notice =
        none) ↔
      ∀ message ∈ before, ¬ carriesReference message := by
  constructor
  · intro hforgets message hmessage hcarries
    obtain ⟨pre, post, rfl⟩ := List.append_of_mem hmessage
    obtain ⟨publication, hpublication, hkind, hsnapshot, hdelta, hstate⟩ :=
      exists_reference sourceId (exec (processMessage sourceId) .new pre) hcarries
    have hpublished : publication ∈ published sourceId (pre ++ message :: post) := by
      rw [published, outputs_append, outputs]
      simp [hpublication]
    refine resolveNotice_reference hsnapshot hdelta ?_ (hforgets publication hpublished hkind)
    rw [storesAfter, List.append_assoc, List.cons_append, exec_append, exec]
    exact reference_stays_exec _ hstate
  · intro hnone publication hpublication hkind
    obtain ⟨message, hmessage, update, hupdate, heq⟩ := mem_outputs_processMessage hpublication
    have hbook : publication.notice.kind = .bookSnapshot ∨
        publication.notice.kind = .bookDelta := by
      have hscoped : publication.notice.kind = update.notice.kind := by
        rw [Published.notice, heq]
        rfl
      rw [hscoped] at hkind ⊢
      exact kind_of_not_carriesReference hupdate (hnone message hmessage) hkind
    have hbooks := orderBooks_reconnected sourceId before event
    rw [FeedStores.resolveNotice]
    rcases hbook with hsnapshot | hdelta
    · rw [hsnapshot, hbooks]
      rfl
    · rw [hdelta, hbooks]
      rfl

/-- A best bid and ask from before the reconnect is still there after it. -/
theorem quote_survives_reconnect :
    let before := [WsMessage.bestBidAsk
      { assetId := "yes", market := "m", bestBid := "0.5", bestAsk := "0.52", spread := "0.02"
        timestamp := "1" }]
    ¬ ∀ publication ∈ published publicSourceId before, isAssetKind publication.notice.kind →
      (storesAfter publicSourceId
        (before ++ [.reconnected { sequence := 1, timestampMs := 2 }])).resolveNotice
          publication.notice = none := by
  decide +kernel

end Rtt.FeedReconnect
