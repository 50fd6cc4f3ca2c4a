import Rtt.OrderManager
import Rtt.StrategyContract
import Mathlib.Data.Finset.Basic

namespace Rtt.StrategyRuntime

open Rtt.Quote
open Rtt.MachineWord
open Rtt.Decimal
open Rtt.PublicEvent
open Rtt.HotState
open Rtt.StrategyContract

inductive ProvisionedTopology where
  | shared
  | dedicated
  deriving DecidableEq, Repr

/-- A requirement with the source and subject that serve it. -/
structure ProvisionedInput where
  requirement : StrategyDataRequirement
  sourceId : SourceId
  sourceKind : SourceKind
  subject : InstrumentRef
  topology : ProvisionedTopology
  instanceKey : String
  deriving DecidableEq, Repr

/-- The inputs provisioned for a strategy. -/
structure RuntimeTopologyPlan where
  executionMode : ExecutionMode
  isolationPolicy : IsolationPolicy
  inputs : List ProvisionedInput
  deriving DecidableEq, Repr

/-- The source of a requirement that names none. -/
def defaultSourceId : StrategyDataRequirementKind → SourceId
  | .polymarketBbo | .polymarketDepthTopN _ | .rewardMetadata => ⟨"polymarket-public"⟩
  | .externalReferencePrice => ⟨"external-reference"⟩
  | .recentTrades => ⟨"external-trades"⟩
  | .inventory | .liveOrderState => ⟨"strategy-runtime"⟩

def defaultSourceKind : StrategyDataRequirementKind → SourceKind
  | .polymarketBbo | .polymarketDepthTopN _ | .rewardMetadata => .polymarketWs
  | .externalReferencePrice => .externalReference
  | .recentTrades => .externalTrade
  | .inventory | .liveOrderState => .synthetic

/-- The source that serves a requirement. -/
def provisionSource (requirement : StrategyDataRequirement) : SourceId × SourceKind :=
  let sourceId :=
    match requirement.selector with
    | .source sourceId => ⟨sourceId⟩
    | .asset _ | .market _ | .symbol _ => defaultSourceId requirement.kind
  (sourceId, defaultSourceKind requirement.kind)

/-- The subject that a requirement is about. -/
def provisionSubject (requirement : StrategyDataRequirement) (sourceId : SourceId) :
    InstrumentRef :=
  match requirement.selector with
  | .asset assetId => .asset sourceId assetId
  | .market marketId => .market sourceId marketId
  | .symbol name => .symbol sourceId name
  | .source _ => .source sourceId

def provisionInput (topology : ProvisionedTopology) (index : Nat)
    (requirement : StrategyDataRequirement) : ProvisionedInput :=
  let (sourceId, sourceKind) := provisionSource requirement
  { requirement
    sourceId
    sourceKind
    subject := provisionSubject requirement sourceId
    topology
    instanceKey :=
      match topology with
      | .shared => "shared:" ++ sourceId.value
      | .dedicated => "dedicated:" ++ sourceId.value ++ ":" ++ index.repr }

/-- One input for each requirement. -/
def RuntimeTopologyPlan.fromRequirements (requirements : StrategyRequirements) :
    RuntimeTopologyPlan :=
  let topology :=
    match requirements.isolationPolicy with
    | .sharedFeedAcceptable => ProvisionedTopology.shared
    | .dedicatedPreferred | .dedicatedRequired => .dedicated
  { executionMode := requirements.executionMode
    isolationPolicy := requirements.isolationPolicy
    inputs := requirements.data.mapIdx (provisionInput topology) }

/-- The key under which a subject counts as seen. -/
def subjectKey (subject : InstrumentRef) : String :=
  subject.sourceId.value ++ ":" ++ subject.kind.debugName ++ ":" ++ subject.instrumentId

section Inventory

structure InventoryStore where
  positions : Std.TreeMap String InventoryPosition

/-- The name that `{:?}` prints. -/
def sideDebugName : Side → String
  | .buy => "Buy"
  | .sell => "Sell"

def inventoryKey (assetId : String) (side : Side) : String :=
  assetId ++ ":" ++ sideDebugName side

/-- The same text as the parser of the executor. -/
def parseUnits (value : String) : Nat := OrderManager.parseUnits value

def formatUnits (units : Nat) : String := OrderManager.formatUnits units

def formatUnitsTrimmed (units : Nat) : String :=
  let trimmed := ((formatUnits units).toList.reverse.dropWhile (· = '0')).dropWhile (· = '.')
  if trimmed = [] then "0" else String.ofList trimmed.reverse

namespace InventoryStore

/-- `apply_delta`: the texts are read, added and written again. -/
def applyDelta (self : InventoryStore) (delta : InventoryDelta) : InventoryStore :=
  let key := inventoryKey delta.assetId delta.side
  let entry := self.positions[key]?.getD
    { assetId := delta.assetId
      side := delta.side
      filledSize := "0"
      netNotional := "0"
      updatedAtMs := delta.observedAtMs }
  { self with
    positions := self.positions.insert key
      { entry with
        filledSize := formatUnitsTrimmed
          (saturatingAdd (parseUnits entry.filledSize) (parseUnits delta.filledSizeDelta))
        netNotional := formatUnitsTrimmed
          (saturatingAdd (parseUnits entry.netNotional) (parseUnits delta.notionalDelta))
        updatedAtMs := delta.observedAtMs } }

/-- The positions that an input asks for. -/
def positionsFor (self : InventoryStore) (input : ProvisionedInput) : List InventoryPosition :=
  self.positions.values.filter fun position =>
    match input.requirement.selector with
    | .asset assetId => position.assetId = assetId
    | .source _ => true
    | .market _ | .symbol _ => false

end InventoryStore

end Inventory

section PushUnique

/-- A book of the same source and asset as one already there is left out. -/
def pushUniqueBook (books : List HotBookState) (book : HotBookState) : List HotBookState :=
  if books.any fun existing =>
      existing.notice.sourceId = book.notice.sourceId ∧ existing.assetId = book.assetId then books
  else books ++ [book]

/-- A reference of the same source and instrument id is left out, whatever its kind. -/
def pushUniqueReference (references : List HotReferenceState) (reference : HotReferenceState) :
    List HotReferenceState :=
  if references.any fun existing =>
      existing.notice.sourceId = reference.notice.sourceId ∧
        existing.notice.subject.instrumentId = reference.notice.subject.instrumentId then
    references
  else references ++ [reference]

def pushUniqueInventory (inventory : List InventoryPosition) (position : InventoryPosition) :
    List InventoryPosition :=
  if inventory.any fun existing =>
      existing.assetId = position.assetId ∧ existing.side = position.side then inventory
  else inventory ++ [position]

end PushUnique

/-- The scaffold without the hot state, which it shares with the feed. -/
structure SharedRuntimeScaffold where
  topology : RuntimeTopologyPlan
  seenSubjects : Finset String
  inventory : InventoryStore

/-- Which part of the view a requirement fills. -/
inductive ViewPart where
  | book
  | reference
  | inventory
  deriving DecidableEq, Repr

/-- The part of a view that a requirement goes to. -/
def viewPart : StrategyDataRequirementKind → ViewPart
  | .polymarketBbo | .polymarketDepthTopN _ | .rewardMetadata => .book
  | .externalReferencePrice | .recentTrades => .reference
  | .inventory | .liveOrderState => .inventory

namespace SharedRuntimeScaffold

def new (requirements : StrategyRequirements) : SharedRuntimeScaffold :=
  { topology := .fromRequirements requirements
    seenSubjects := ∅
    inventory := { positions := ∅ } }

/-- Some input is about the subject of the notice. -/
def isRelevantNotice (self : SharedRuntimeScaffold) (notice : UpdateNotice) : Bool :=
  self.topology.inputs.any fun input => input.subject = notice.subject

variable (self : SharedRuntimeScaffold) (store : HotStateStore)

/-- The book for an input: of the notice's own subject as announced, of others as they stand. -/
def resolveBook (input : ProvisionedInput) (notice : UpdateNotice)
    (resolvedNotice : Option HotStateView) : Option HotBookState :=
  if input.subject = notice.subject then
    match resolvedNotice with
    | some (.book book) => some book
    | _ => none
  else if subjectKey input.subject ∈ self.seenSubjects then
    store.bookState input.subject.sourceId input.subject.instrumentId
  else none

/-- The reference for an input, in the same way. -/
def resolveReference (input : ProvisionedInput) (notice : UpdateNotice)
    (resolvedNotice : Option HotStateView) : Option HotReferenceState :=
  if input.subject = notice.subject then
    match resolvedNotice with
    | some (.reference reference) => some reference
    | _ => none
  else if subjectKey input.subject ∈ self.seenSubjects then store.referenceState input.subject
  else none

/-- What one input adds to the view. -/
def addInput (resolvedNotice : Option HotStateView) (view : StrategyRuntimeView)
    (input : ProvisionedInput) : StrategyRuntimeView :=
  match viewPart input.requirement.kind with
  | .book =>
      match self.resolveBook store input view.notice resolvedNotice with
      | some book => { view with books := pushUniqueBook view.books book }
      | none => view
  | .reference =>
      match self.resolveReference store input view.notice resolvedNotice with
      | some reference => { view with references := pushUniqueReference view.references reference }
      | none => view
  | .inventory =>
      { view with
        inventory := (self.inventory.positionsFor input).foldl pushUniqueInventory view.inventory }

/-- The view for a relevant notice, whose subject counts as seen from then on. -/
def resolveView (notice : UpdateNotice) : SharedRuntimeScaffold × Option StrategyRuntimeView :=
  if self.isRelevantNotice notice then
    let view := self.topology.inputs.foldl (self.addInput store (store.resolveNotice notice))
      { notice, books := [], references := [], inventory := [] }
    ({ self with seenSubjects := Insert.insert (subjectKey notice.subject) self.seenSubjects },
      some view)
  else (self, none)

def applyInventoryDelta (delta : InventoryDelta) : SharedRuntimeScaffold :=
  { self with inventory := self.inventory.applyDelta delta }

end SharedRuntimeScaffold

section View

variable {self : SharedRuntimeScaffold} {store : HotStateStore} {notice : UpdateNotice}
  {resolvedNotice : Option HotStateView} {view : StrategyRuntimeView}

theorem mem_pushUniqueBook {books : List HotBookState} {book other : HotBookState}
    (h : other ∈ pushUniqueBook books book) : other ∈ books ∨ other = book := by
  unfold pushUniqueBook at h
  split at h
  · exact .inl h
  · simpa using h

theorem mem_pushUniqueReference {references : List HotReferenceState}
    {reference other : HotReferenceState} (h : other ∈ pushUniqueReference references reference) :
    other ∈ references ∨ other = reference := by
  unfold pushUniqueReference at h
  split at h
  · exact .inl h
  · simpa using h

/-- Every record of a view was resolved for an input of the topology. -/
structure ResolvedFrom (scaffold : SharedRuntimeScaffold) (store : HotStateStore)
    (inputs : List ProvisionedInput) (notice : UpdateNotice)
    (resolvedNotice : Option HotStateView) (view : StrategyRuntimeView) : Prop where
  notice_eq : view.notice = notice
  books : ∀ book ∈ view.books, ∃ input ∈ inputs, viewPart input.requirement.kind = .book ∧
    scaffold.resolveBook store input notice resolvedNotice = some book
  references : ∀ reference ∈ view.references, ∃ input ∈ inputs,
    viewPart input.requirement.kind = .reference ∧
      scaffold.resolveReference store input notice resolvedNotice = some reference

theorem ResolvedFrom.addInput {inputs : List ProvisionedInput}
    (h : ResolvedFrom self store inputs notice resolvedNotice view) {input : ProvisionedInput}
    (hinput : input ∈ inputs) :
    ResolvedFrom self store inputs notice resolvedNotice
      (self.addInput store resolvedNotice view input) := by
  obtain ⟨rfl, hbooks, hreferences⟩ := h
  unfold SharedRuntimeScaffold.addInput
  split
  · rename_i hpart
    split
    · rename_i book hbook
      refine ⟨rfl, ?_, hreferences⟩
      intro other hother
      rcases mem_pushUniqueBook hother with hother | rfl
      · exact hbooks other hother
      · exact ⟨input, hinput, hpart, hbook⟩
    · exact ⟨rfl, hbooks, hreferences⟩
  · rename_i hpart
    split
    · rename_i reference hreference
      refine ⟨rfl, hbooks, ?_⟩
      intro other hother
      rcases mem_pushUniqueReference hother with hother | rfl
      · exact hreferences other hother
      · exact ⟨input, hinput, hpart, hreference⟩
    · exact ⟨rfl, hbooks, hreferences⟩
  · exact ⟨rfl, hbooks, hreferences⟩

theorem resolvedFrom_foldl {inputs : List ProvisionedInput} {visited : List ProvisionedInput}
    (hsub : visited ⊆ inputs) (h : ResolvedFrom self store inputs notice resolvedNotice view) :
    ResolvedFrom self store inputs notice resolvedNotice
      (visited.foldl (self.addInput store resolvedNotice) view) := by
  induction visited generalizing view with
  | nil => exact h
  | cons input visited ih =>
      obtain ⟨hinput, hvisited⟩ := List.cons_subset.mp hsub
      exact ih hvisited (h.addInput hinput)

theorem resolvedFrom_resolveView (h : (self.resolveView store notice).2 = some view) :
    ResolvedFrom self store self.topology.inputs notice (store.resolveNotice notice) view := by
  unfold SharedRuntimeScaffold.resolveView at h
  split at h
  · obtain rfl := Option.some.inj h
    apply resolvedFrom_foldl (List.Subset.refl _)
    exact ⟨rfl, fun book hbook => absurd hbook (by simp), fun reference href =>
      absurd href (by simp)⟩
  · exact absurd h (by simp)

end View

end Rtt.StrategyRuntime
