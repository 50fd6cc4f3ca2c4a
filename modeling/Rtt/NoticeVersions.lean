import Rtt.HotHistory
import Rtt.Machine

namespace Rtt.NoticeVersions

open Rtt.Machine
open Rtt.CellHistory
open Rtt.PublicEvent
open Rtt.MarketMessages
open Rtt.HotState
open Rtt.HotHistory

/-- An update is applied, or the notice of the one at an index is resolved. -/
inductive NoticeEvent where
  | applied (update : NormalizedUpdate)
  | resolved (index : Nat)

/-- An update and the store as it stood right after it. -/
structure Applied where
  update : NormalizedUpdate
  after : HotStateStore

/-- The store, and each update so far with the store that it left. -/
structure NoticeRun where
  store : HotStateStore
  past : List Applied

/-- What resolving a notice found, and the book its own update had left. -/
structure Resolution where
  notice : UpdateNotice
  found : Option HotStateView
  own : Option HotBookState

def Applied.bookKey (applied : Applied) : HotStateKey :=
  .asset applied.update.notice.sourceId applied.update.notice.subject.instrumentId

def startRun (markets : List MarketMeta) : NoticeRun :=
  { store := markets.foldl HotStateStore.registerMarket .new, past := [] }

/-- The output of a resolve is what was found next to what the update had left. -/
def noticeStep (run : NoticeRun) : NoticeEvent → NoticeRun × Option Resolution
  | .applied update =>
      let store := run.store.applyUpdate update
      ({ store, past := run.past ++ [⟨update, store⟩] }, none)
  | .resolved index =>
      (run, run.past[index]?.map fun applied =>
        { notice := applied.update.notice
          found := run.store.resolveNotice applied.update.notice
          own := applied.after.books applied.bookKey })

/-- A notice of a book resolves to nothing or to the book of its own update. -/
def IsExact : Option Resolution → Prop
  | none => True
  | some resolution => resolvesBook resolution.notice.kind →
      resolution.found = none ∨ resolution.found = resolution.own.map .book

instance : ∀ resolution, Decidable (IsExact resolution)
  | none => isTrue trivial
  | some resolution => inferInstanceAs (Decidable
      (resolvesBook resolution.notice.kind → resolution.found = none ∨ _ = _))

def later (run : NoticeRun) (index : Nat) : List NormalizedUpdate :=
  (run.past.drop (index + 1)).map Applied.update

/-- What happened last to the book of a notice does not carry its version. -/
def KeepsVersion (version : Nat) : Effect Stamp → Prop
  | .kept | .cleared => True
  | .written last => last.version ≠ version

instance (version : Nat) : ∀ effect, Decidable (KeepsVersion version effect)
  | .kept => isTrue trivial
  | .cleared => isTrue trivial
  | .written last => inferInstanceAs (Decidable (last.version ≠ version))

/-- No notice of a book is resolved after a later update of its book in the same version. -/
def Undisturbed (run : NoticeRun) : NoticeEvent → Prop
  | .applied _ => True
  | .resolved index =>
      match run.past[index]? with
      | none => True
      | some applied =>
          resolvesBook applied.update.notice.kind → KeepsVersion applied.update.notice.version
            (lastEffect (bookEffect applied.bookKey) (later run index))

instance (run : NoticeRun) : ∀ event, Decidable (Undisturbed run event)
  | .applied _ => isTrue trivial
  | .resolved index => by
      unfold Undisturbed
      dsimp only
      split <;> infer_instance

/-- Every store of the past leads to the present one by the updates since. -/
def Recorded (run : NoticeRun) : Prop :=
  ∀ index applied, run.past[index]? = some applied →
    run.store = (later run index).foldl HotStateStore.applyUpdate applied.after

variable {run : NoticeRun} {event : NoticeEvent}

theorem recorded_noticeStep (h : Recorded run) : Recorded (noticeStep run event).1 := by
  cases event with
  | resolved index => exact h
  | applied update =>
      intro index applied hget
      change (run.past ++ [(_ : Applied)])[index]? = some applied at hget
      rcases Nat.lt_or_ge index run.past.length with hlt | hge
      · rw [List.getElem?_append_left hlt] at hget
        simp only [noticeStep, later]
        rw [List.drop_append_of_le_length (by omega), List.map_append, List.foldl_append,
          h index applied hget]
        rfl
      · rw [List.getElem?_append_right hge] at hget
        obtain ⟨hlt, happlied⟩ := List.getElem?_eq_some_iff.mp hget
        rw [List.getElem_singleton] at happlied
        have hlater : later (noticeStep run (.applied update)).1 index = [] := by
          simp only [later, noticeStep, List.map_eq_nil_iff, List.drop_eq_nil_iff,
            List.length_append, List.length_singleton]
          omega
        rw [hlater, ← happlied]
        rfl

theorem resolveNotice_of_keepsVersion {store after : HotStateStore} {notice : UpdateNotice}
    {effect : Effect Stamp} (hkind : resolvesBook notice.kind)
    (hshows : Shows bookStamp
      (after.books (.asset notice.sourceId notice.subject.instrumentId))
      (store.books (.asset notice.sourceId notice.subject.instrumentId)) effect)
    (hkeeps : KeepsVersion notice.version effect) :
    store.resolveNotice notice = none ∨
      store.resolveNotice notice =
        (after.books (.asset notice.sourceId notice.subject.instrumentId)).map .book := by
  rw [HotStateStore.resolveNotice, if_pos hkind, HotStateStore.resolveBookNotice]
  cases effect with
  | kept =>
      rw [show store.books _ = after.books _ from hshows]
      cases after.books (.asset notice.sourceId notice.subject.instrumentId) with
      | none => exact .inl rfl
      | some book =>
          rw [Option.filter_some]
          split
          · exact .inr rfl
          · exact .inl rfl
  | cleared =>
      rw [show store.books _ = none from hshows]
      exact .inl rfl
  | written last =>
      obtain ⟨book, hbook, rfl⟩ := Option.map_eq_some_iff.mp hshows
      have hversion : book.version ≠ notice.version := hkeeps
      rw [hbook, Option.filter_some, if_neg (by simpa using hversion)]
      exact .inl rfl

theorem isExact_noticeStep (h : Recorded run) (hkeeps : Undisturbed run event) :
    IsExact (noticeStep run event).2 := by
  cases event with
  | applied update => trivial
  | resolved index =>
      cases hget : run.past[index]? with
      | none =>
          simp only [noticeStep, hget]
          trivial
      | some applied =>
          simp only [Undisturbed, hget] at hkeeps
          simp only [noticeStep, hget]
          intro hkind
          have hshows := shows_books applied.bookKey applied.after (later run index)
          rw [← h index applied hget] at hshows
          exact resolveNotice_of_keepsVersion hkind hshows (hkeeps hkind)

theorem exact_notices (markets : List MarketMeta) (events : List NoticeEvent)
    (h : Along noticeStep Undisturbed (startRun markets) events) :
    ∀ resolution ∈ outputs noticeStep (startRun markets) events, IsExact resolution := by
  apply outputs_forall (fun _ _ hrecorded _ => recorded_noticeStep hrecorded)
    (fun _ _ hrecorded hkeeps => isExact_noticeStep hrecorded hkeeps) _ h
  intro index applied hget
  exact absurd hget (by simp [startRun])

/-- A book of asset `yes` and a price change of a bid and an ask of it. -/
def twoEntries (changed : String) : List WsMessage :=
  [.book
    { assetId := "yes", market := "m", timestamp := "1"
      bids := [⟨"0.5", "100"⟩], asks := [⟨"0.52", "40"⟩], hash := none },
   .priceChange
    { market := "m", timestamp := changed
      priceChanges :=
        [{ assetId := "yes", price := "0.51", size := some "7", side := .buy, hash := none
           bestBid := none, bestAsk := none },
         { assetId := "yes", price := "0.52", size := some "9", side := .sell, hash := none
           bestBid := none, bestAsk := none }] }]

def appliedThen (messages : List WsMessage) (index : Nat) : List NoticeEvent :=
  (messages.flatMap WsMessage.toNormalizedUpdates).map .applied ++ [.resolved index]

/-- Both entries of a price change carry its timestamp, so the notice of the
first resolves to the book that the second left. -/
theorem sameTimestamp_resolves_later_book :
    ¬ ∀ resolution ∈ outputs noticeStep (startRun []) (appliedThen (twoEntries "2") 1),
      IsExact resolution := by
  decide +kernel

theorem exact_notices_superseded :
    Along noticeStep Undisturbed (startRun []) (appliedThen (twoEntries "2") 0) ∧
      ∀ resolution ∈ outputs noticeStep (startRun []) (appliedThen (twoEntries "2") 0),
        IsExact resolution := by
  have hundisturbed :
      Along noticeStep Undisturbed (startRun []) (appliedThen (twoEntries "2") 0) := by
    decide +kernel
  exact ⟨hundisturbed, exact_notices [] _ hundisturbed⟩

end Rtt.NoticeVersions
