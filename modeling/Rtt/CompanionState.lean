import Rtt.HotHistory
import Rtt.Machine
import Rtt.StrategyRuntime

namespace Rtt.CompanionState

open Rtt.Machine
open Rtt.CellHistory
open Rtt.PublicEvent
open Rtt.MarketMessages
open Rtt.HotState
open Rtt.HotHistory
open Rtt.StrategyContract
open Rtt.StrategyRuntime

/-- An update is applied to the hot state, or a notice is handled by the strategy's runtime. -/
inductive RuntimeEvent where
  | applied (update : NormalizedUpdate)
  | handled (notice : UpdateNotice)

/-- The hot state and the scaffold, with what was applied and handled so far. -/
structure RuntimeRun where
  store : HotStateStore
  scaffold : SharedRuntimeScaffold
  applied : List NormalizedUpdate
  handled : List UpdateNotice

/-- What handling a notice resolved, and the notices handled before it. -/
structure Handling where
  before : List UpdateNotice
  own : Option HotStateView
  view : Option StrategyRuntimeView

/-- A store with the registered markets, and the scaffold for the requirements. -/
def startRuntime (markets : List MarketMeta) (requirements : StrategyRequirements) : RuntimeRun :=
  { store := markets.foldl HotStateStore.registerMarket .new
    scaffold := .new requirements
    applied := []
    handled := [] }

/-- An update goes to the store; a notice is resolved to a view, if it is relevant. -/
def runtimeStep (run : RuntimeRun) : RuntimeEvent → RuntimeRun × Option Handling
  | .applied update =>
      ({ run with
          store := run.store.applyUpdate update
          applied := run.applied ++ [update] }, none)
  | .handled notice =>
      let (scaffold, view) := run.scaffold.resolveView run.store notice
      ({ run with scaffold, handled := run.handled ++ [notice] },
        some { before := run.handled, own := run.store.resolveNotice notice, view })

/-- The stamps of the notices handled. -/
def announced (handled : List UpdateNotice) : List Stamp := handled.map stamp

/-- Every record of the view is the notice's own or in a version announced by a
notice for its subject that was handled before. -/
def NoFuture : Option Handling → Prop
  | none => True
  | some handling => ∀ view ∈ handling.view,
      (∀ book ∈ view.books,
        handling.own = some (.book book) ∨ bookStamp book ∈ announced handling.before) ∧
      ∀ reference ∈ view.references,
        handling.own = some (.reference reference) ∨
          referenceStamp reference ∈ announced handling.before

instance : ∀ handling, Decidable (NoFuture handling)
  | none => isTrue trivial
  | some handling => by
      unfold NoFuture
      infer_instance

/-- The last write of a record was announced before. -/
def IsAnnounced (handled : List UpdateNotice) : Effect Stamp → Prop
  | .kept | .cleared => True
  | .written last => last ∈ announced handled

instance (handled : List UpdateNotice) : ∀ effect, Decidable (IsAnnounced handled effect)
  | .kept => isTrue trivial
  | .cleared => isTrue trivial
  | .written last => inferInstanceAs (Decidable (last ∈ announced handled))

/-- What happened last to the record that an input reads. -/
def inputEffect (applied : List NormalizedUpdate) (input : ProvisionedInput) : Effect Stamp :=
  match viewPart input.requirement.kind with
  | .book =>
      lastEffect
        (bookEffect (.asset input.subject.sourceId input.subject.instrumentId)) applied
  | .reference => lastEffect (referenceEffect (.fromSubject input.subject)) applied
  | .inventory => .kept

/-- No relevant notice is handled while the feed is ahead of the notices of a
companion subject that the runtime has seen. -/
def CompanionsAnnounced (run : RuntimeRun) : RuntimeEvent → Prop
  | .applied _ => True
  | .handled notice => run.scaffold.isRelevantNotice notice →
      ∀ input ∈ run.scaffold.topology.inputs, input.subject ≠ notice.subject →
        subjectKey input.subject ∈ run.scaffold.seenSubjects →
          IsAnnounced run.handled (inputEffect run.applied input)

instance (run : RuntimeRun) : ∀ event, Decidable (CompanionsAnnounced run event)
  | .applied _ => isTrue trivial
  | .handled notice => by
      unfold CompanionsAnnounced
      infer_instance

/-- The records of the store are the ones its updates have left. -/
structure Replayed (run : RuntimeRun) : Prop where
  books : ∀ key, Shows bookStamp none (run.store.books key)
    (lastEffect (bookEffect key) run.applied)
  references : ∀ key, Shows referenceStamp none (run.store.references key)
    (lastEffect (referenceEffect key) run.applied)

variable {run : RuntimeRun} {event : RuntimeEvent} {notice : UpdateNotice}

theorem replayed_runtimeStep (h : Replayed run) : Replayed (runtimeStep run event).1 := by
  cases event with
  | handled notice => exact ⟨h.books, h.references⟩
  | applied update =>
      constructor
      · intro key
        simp only [runtimeStep, lastEffect_concat]
        exact (h.books key).trans (shows_bookEffect key run.store update)
      · intro key
        simp only [runtimeStep, lastEffect_concat]
        exact (h.references key).trans (shows_referenceEffect key run.store update)

theorem mem_announced_of_shows {α : Type*} {tag : α → Stamp} {record : α} {cell : Option α}
    {effect : Effect Stamp} (hcell : cell = some record) (hshows : Shows tag none cell effect)
    (hannounced : IsAnnounced run.handled effect) : tag record ∈ announced run.handled := by
  subst hcell
  cases effect with
  | kept => exact absurd hshows (by simp [Shows])
  | cleared => exact absurd hshows (by simp [Shows])
  | written last =>
      obtain rfl := Option.some.inj hshows
      exact hannounced

theorem resolveBook_cases {resolvedNotice : Option HotStateView} {input : ProvisionedInput}
    {scaffold : SharedRuntimeScaffold} {store : HotStateStore} {book : HotBookState}
    (h : scaffold.resolveBook store input notice resolvedNotice = some book) :
    resolvedNotice = some (.book book) ∨
      (input.subject ≠ notice.subject ∧ subjectKey input.subject ∈ scaffold.seenSubjects ∧
        store.bookState input.subject.sourceId input.subject.instrumentId = some book) := by
  unfold SharedRuntimeScaffold.resolveBook at h
  split at h
  · split at h
    · obtain rfl := Option.some.inj h
      exact .inl rfl
    · exact absurd h (by simp)
  · rename_i hsubject
    split at h
    · rename_i hseen
      exact .inr ⟨hsubject, hseen, h⟩
    · exact absurd h (by simp)

theorem resolveReference_cases {resolvedNotice : Option HotStateView} {input : ProvisionedInput}
    {scaffold : SharedRuntimeScaffold} {store : HotStateStore} {reference : HotReferenceState}
    (h : scaffold.resolveReference store input notice resolvedNotice = some reference) :
    resolvedNotice = some (.reference reference) ∨
      (input.subject ≠ notice.subject ∧ subjectKey input.subject ∈ scaffold.seenSubjects ∧
        store.referenceState input.subject = some reference) := by
  unfold SharedRuntimeScaffold.resolveReference at h
  split at h
  · split at h
    · obtain rfl := Option.some.inj h
      exact .inl rfl
    · exact absurd h (by simp)
  · rename_i hsubject
    split at h
    · rename_i hseen
      exact .inr ⟨hsubject, hseen, h⟩
    · exact absurd h (by simp)

theorem noFuture_runtimeStep (h : Replayed run) (hcompanions : CompanionsAnnounced run event) :
    NoFuture (runtimeStep run event).2 := by
  cases event with
  | applied update => trivial
  | handled notice =>
      intro view hview
      have hrelevant : run.scaffold.isRelevantNotice notice := by
        change (run.scaffold.resolveView run.store notice).2 = some view at hview
        unfold SharedRuntimeScaffold.resolveView at hview
        split at hview
        · assumption
        · exact absurd hview (by simp)
      have hresolved := resolvedFrom_resolveView hview
      constructor
      · intro book hbook
        obtain ⟨input, hinput, hpart, hresolve⟩ := hresolved.books book hbook
        rcases resolveBook_cases hresolve with hown | ⟨hsubject, hseen, hcell⟩
        · exact .inl hown
        · have hannounced := hcompanions hrelevant input hinput hsubject hseen
          rw [inputEffect, hpart] at hannounced
          exact .inr (mem_announced_of_shows hcell (h.books _) hannounced)
      · intro reference hreference
        obtain ⟨input, hinput, hpart, hresolve⟩ := hresolved.references reference hreference
        rcases resolveReference_cases hresolve with hown | ⟨hsubject, hseen, hcell⟩
        · exact .inl hown
        · have hannounced := hcompanions hrelevant input hinput hsubject hseen
          rw [inputEffect, hpart] at hannounced
          exact .inr (mem_announced_of_shows hcell (h.references _) hannounced)

theorem replayed_startRuntime (markets : List MarketMeta) (requirements : StrategyRequirements) :
    Replayed (startRuntime markets requirements) := by
  exact ⟨fun key => (HotStateStore.registered_new markets key).1,
    fun key => (HotStateStore.registered_new markets key).2⟩

theorem no_future_companions (markets : List MarketMeta) (requirements : StrategyRequirements)
    (events : List RuntimeEvent)
    (h : Along runtimeStep CompanionsAnnounced (startRuntime markets requirements) events) :
    ∀ handling ∈ outputs runtimeStep (startRuntime markets requirements) events,
      NoFuture handling := by
  apply outputs_forall (fun _ _ hreplayed _ => replayed_runtimeStep hreplayed)
    (fun _ _ hreplayed hcompanions => noFuture_runtimeStep hreplayed hcompanions) _ h
  exact replayed_startRuntime markets requirements

def priceOf (symbol : String) (version : Nat) (price : Price) : NormalizedUpdate :=
  { notice :=
      { sourceId := ⟨"external-reference"⟩
        sourceKind := .externalReference
        subject := .symbol ⟨"external-reference"⟩ symbol
        kind := .referencePrice
        version
        sourceHash := none }
    payload := .referencePrice { price, notional := none, timestampMs := version } }

def bookOf (assetId : AssetId) (version : Nat) : NormalizedUpdate :=
  { notice := assetNotice publicSourceId assetId .bookSnapshot version none
    payload := .bookSnapshot
      { marketId := "m", assetId, bids := [⟨"0.5", "100"⟩], asks := [⟨"0.52", "40"⟩]
        timestampMs := version, sourceHash := none } }

def crossFeed : StrategyRequirements :=
  .trigger [polymarketBbo "yes", externalReferencePrice "btc"] .sharedFeedAcceptable

/-- The reference price moves from version 1 to version 2 and a book arrives;
`caughtUp` says whether the second price's notice is handled before the book's. -/
def priceThenBook (caughtUp : Bool) : List RuntimeEvent :=
  [.applied (priceOf "btc" 1 "60000"), .handled (priceOf "btc" 1 "60000").notice,
    .applied (priceOf "btc" 2 "61000"), .applied (bookOf "yes" 1)] ++
  (if caughtUp then [.handled (priceOf "btc" 2 "61000").notice] else []) ++
  [.handled (bookOf "yes" 1).notice]

/-- The view of the book shows the second price before its notice was handled. -/
theorem companion_ahead_of_its_notice :
    ¬ ∀ handling ∈ outputs runtimeStep (startRuntime [] crossFeed) (priceThenBook false),
      NoFuture handling := by
  decide +kernel

theorem no_future_companions_caughtUp :
    Along runtimeStep CompanionsAnnounced (startRuntime [] crossFeed) (priceThenBook true) ∧
      ∀ handling ∈ outputs runtimeStep (startRuntime [] crossFeed) (priceThenBook true),
        NoFuture handling := by
  have hannounced : Along runtimeStep CompanionsAnnounced (startRuntime [] crossFeed)
      (priceThenBook true) := by
    decide +kernel
  exact ⟨hannounced, no_future_companions [] crossFeed _ hannounced⟩

end Rtt.CompanionState
