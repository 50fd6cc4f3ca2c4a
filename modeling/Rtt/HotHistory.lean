import Rtt.CellHistory
import Rtt.HotState

namespace Rtt.HotHistory

open Rtt.CellHistory
open Rtt.PublicEvent
open Rtt.HotState

/-- What a notice announces: that its subject is in this version. -/
structure Stamp where
  subject : InstrumentRef
  version : Nat
  deriving DecidableEq, Repr

def stamp (notice : UpdateNotice) : Stamp := ⟨notice.subject, notice.version⟩

def bookStamp (book : HotBookState) : Stamp := ⟨book.notice.subject, book.version⟩

def referenceStamp (reference : HotReferenceState) : Stamp :=
  ⟨reference.notice.subject, reference.version⟩

/-- What an update does to the book under a key. -/
def bookEffect (key : HotStateKey) (update : NormalizedUpdate) : Effect Stamp :=
  if isReconnect update.payload ∧ key.sourceId = update.notice.sourceId.value then .cleared
  else if (bookAsset update.payload).map (HotStateKey.asset update.notice.sourceId) = some key then
    .written (stamp update.notice)
  else .kept

/-- What an update does to the reference record under a key. -/
def referenceEffect (key : HotStateKey) (update : NormalizedUpdate) : Effect Stamp :=
  if bookAsset update.payload = none ∧ key = .fromSubject update.notice.subject then
    .written (stamp update.notice)
  else if isReconnect update.payload ∧ key.sourceId = update.notice.sourceId.value then .cleared
  else .kept

variable {registered : Option RegisteredMarket} {update : NormalizedUpdate} {assetId : AssetId}

theorem bookStamp_nextBook (registered : Option RegisteredMarket)
    (existing : Option HotBookState) (h : bookAsset update.payload = some assetId) :
    (nextBook registered existing update).map bookStamp = some (stamp update.notice) := by
  obtain ⟨book, hbook⟩ := exists_nextBook registered existing h
  obtain ⟨hnotice, hversion⟩ := version_nextBook hbook
  rw [hbook, Option.map_some, bookStamp, hnotice, hversion]
  rfl

theorem referenceStamp_nextReference (existing : Option HotReferenceState)
    (h : bookAsset update.payload = none) :
    (nextReference existing update).map referenceStamp = some (stamp update.notice) := by
  rcases update with ⟨notice, payload⟩
  cases payload with
  | bookSnapshot | bookDelta | bestBidAsk | tickSizeChange => exact absurd h (by simp [bookAsset])
  | tradeTick | referencePrice | reconnect | sourceStatus => rfl

theorem shows_bookEffect (key : HotStateKey) (store : HotStateStore) (update : NormalizedUpdate) :
    Shows bookStamp (store.books key) ((store.applyUpdate update).books key)
      (bookEffect key update) := by
  rw [HotStateStore.books_applyUpdate, bookEffect]
  split
  · rfl
  · cases hasset : bookAsset update.payload with
    | none => rfl
    | some assetId =>
        simp only [Option.map_some, Option.some.injEq, eq_comm (a := key)]
        split
        · exact bookStamp_nextBook _ _ hasset
        · rfl

theorem shows_referenceEffect (key : HotStateKey) (store : HotStateStore)
    (update : NormalizedUpdate) :
    Shows referenceStamp (store.references key) ((store.applyUpdate update).references key)
      (referenceEffect key update) := by
  rw [HotStateStore.references_applyUpdate, referenceEffect]
  split
  · rename_i hwrites
    exact referenceStamp_nextReference _ hwrites.1
  · split <;> rfl

theorem shows_books (key : HotStateKey) (store : HotStateStore)
    (updates : List NormalizedUpdate) :
    Shows bookStamp (store.books key) ((updates.foldl HotStateStore.applyUpdate store).books key)
      (lastEffect (bookEffect key) updates) :=
  shows_foldl (shows_bookEffect key) store updates

end Rtt.HotHistory
