import Rtt.InventoryUnits
import Rtt.ViewCompleteness

namespace Rtt.QuoteViews

open Rtt.Machine
open Rtt.MachineWord
open Rtt.KeyIndex
open Rtt.Quote
open Rtt.PublicEvent
open Rtt.MarketMessages
open Rtt.HotState
open Rtt.StrategyContract
open Rtt.StrategyRuntime
open Rtt.CompanionState
open Rtt.InventoryUnits

/-- A strategy that quotes, with the state it keeps. -/
structure QuoteStrategy (σ : Type*) where
  requirements : σ → StrategyRequirements
  onUpdate : σ → StrategyRuntimeView → σ × Option DesiredQuotes

/-- The runtime with the store that it shares with the feed. -/
structure QuoteRuntime (σ : Type*) where
  strategy : σ
  store : HotStateStore
  scaffold : SharedRuntimeScaffold

/-- The feed applies an update, a fill comes in, or a notice is handled. -/
inductive QuoteEvent where
  | applied (update : NormalizedUpdate)
  | filled (delta : InventoryDelta)
  | handled (notice : UpdateNotice)

/-- What the strategy was shown for a notice, and its quotes. -/
structure Quoted where
  view : StrategyRuntimeView
  quotes : Option DesiredQuotes

section Runtime

variable {σ : Type*} (quoter : QuoteStrategy σ)

/-- A runtime over a store, provisioned for its strategy. -/
def QuoteRuntime.new (strategy : σ) (store : HotStateStore) : QuoteRuntime σ :=
  { strategy, store, scaffold := .new (quoter.requirements strategy) }

def QuoteRuntime.applyInventoryDelta (self : QuoteRuntime σ) (delta : InventoryDelta) :
    QuoteRuntime σ :=
  { self with scaffold := self.scaffold.applyInventoryDelta delta }

/-- The strategy is asked for its quotes if the notice resolves to a view. -/
def QuoteRuntime.handleNotice (self : QuoteRuntime σ) (notice : UpdateNotice) :
    QuoteRuntime σ × Option Quoted :=
  match self.scaffold.resolveView self.store notice with
  | (scaffold, none) => ({ self with scaffold }, none)
  | (scaffold, some view) =>
      let (strategy, quotes) := quoter.onUpdate self.strategy view
      ({ self with scaffold, strategy }, some { view, quotes })

/-- One event; the output is the view and the quotes, if the strategy was asked. -/
def quoteStep (run : QuoteRuntime σ) : QuoteEvent → QuoteRuntime σ × Option Quoted
  | .applied update => ({ run with store := run.store.applyUpdate update }, none)
  | .filled delta => (run.applyInventoryDelta delta, none)
  | .handled notice => run.handleNotice quoter notice

def startQuotes (strategy : σ) (markets : List MarketMeta) : QuoteRuntime σ :=
  .new quoter strategy (markets.foldl HotStateStore.registerMarket .new)

structure QuoteBacktestResult where
  desiredQuotes : List DesiredQuotes
  totalViews : Nat
  totalEvents : Nat

/-- The runtime of a replay and what the strategy has been asked so far. -/
structure QuoteReplay (σ : Type*) where
  runtime : QuoteRuntime σ
  desiredQuotes : List DesiredQuotes
  totalViews : Nat

/-- An update is applied and its notice handled. -/
def quoteReplayStep (replay : QuoteReplay σ) (update : NormalizedUpdate) : QuoteReplay σ :=
  let run := { replay.runtime with store := replay.runtime.store.applyUpdate update }
  match run.scaffold.resolveView run.store update.notice with
  | (scaffold, none) => { replay with runtime := { run with scaffold } }
  | (scaffold, some view) =>
      let (strategy, nextQuotes) := quoter.onUpdate run.strategy view
      { runtime := { run with scaffold, strategy }
        desiredQuotes := replay.desiredQuotes ++ nextQuotes.toList
        totalViews := replay.totalViews + 1 }

def runQuoteNoticeReplay (strategy : σ) (markets : List MarketMeta)
    (updates : List NormalizedUpdate) : QuoteBacktestResult :=
  let replay := updates.foldl (quoteReplayStep quoter)
    { runtime := startQuotes quoter strategy markets, desiredQuotes := [], totalViews := 0 }
  { desiredQuotes := replay.desiredQuotes
    totalViews := replay.totalViews
    totalEvents := updates.length }

/-- Every notice is handled before the next update. -/
def prompt (updates : List NormalizedUpdate) : List QuoteEvent :=
  updates.flatMap fun update => [.applied update, .handled update.notice]

theorem replay_quotes_as_live (strategy : σ) (markets : List MarketMeta)
    (updates : List NormalizedUpdate) :
    let quoted := (outputs (quoteStep quoter) (startQuotes quoter strategy markets)
      (prompt updates)).filterMap id
    let result := runQuoteNoticeReplay quoter strategy markets updates
    result.desiredQuotes = quoted.filterMap Quoted.quotes ∧ result.totalViews = quoted.length := by
  have hreplay : updates.foldl (quoteReplayStep quoter)
      { runtime := startQuotes quoter strategy markets, desiredQuotes := [], totalViews := 0 } =
        { runtime := exec (quoteStep quoter) (startQuotes quoter strategy markets)
            (prompt updates)
          desiredQuotes := ((outputs (quoteStep quoter) (startQuotes quoter strategy markets)
            (prompt updates)).filterMap id).filterMap Quoted.quotes
          totalViews := ((outputs (quoteStep quoter) (startQuotes quoter strategy markets)
            (prompt updates)).filterMap id).length } := by
    induction updates using List.reverseRecOn with
    | nil => rfl
    | append_singleton updates update ih =>
        have hprompt : prompt (updates ++ [update]) =
            prompt updates ++ [.applied update, .handled update.notice] := by
          rw [prompt, List.flatMap_append, List.flatMap_singleton]
          rfl
        rw [List.foldl_append, ih, hprompt, exec_append, outputs_append]
        simp only [List.foldl_cons, List.foldl_nil, quoteReplayStep, exec, outputs, quoteStep,
          QuoteRuntime.handleNotice]
        split
        · simp
        · cases hquotes : (quoter.onUpdate _ _).2 <;> simp
  simp only [runQuoteNoticeReplay, hreplay]
  exact ⟨trivial, trivial⟩

end Runtime

def fills (events : List QuoteEvent) : List InventoryDelta :=
  events.filterMap fun
    | .filled delta => some delta
    | .applied _ | .handled _ => none

/-- The events as a runtime without inventory has them. -/
def withoutFills (events : List QuoteEvent) : List RuntimeEvent :=
  events.filterMap fun
    | .applied update => some (.applied update)
    | .handled notice => some (.handled notice)
    | .filled _ => none

section Units

theorem parseUnits_lt (value : String) : parseUnits value < wordSize :=
  saturatingAdd_lt _ _

/-- A fill in micro-units, whatever its texts are. -/
def unitDelta (delta : InventoryDelta) : UnitDelta :=
  { assetId := delta.assetId
    side := delta.side
    filledUnits := parseUnits delta.filledSizeDelta
    notionalUnits := parseUnits delta.notionalDelta
    observedAtMs := delta.observedAtMs
    filled_lt := parseUnits_lt _
    notional_lt := parseUnits_lt _ }

theorem applyDelta_of_units (store : InventoryStore) {units : UnitDelta} {delta : InventoryDelta}
    (hasset : units.assetId = delta.assetId) (hside : units.side = delta.side)
    (hfilled : units.filledUnits = parseUnits delta.filledSizeDelta)
    (hnotional : units.notionalUnits = parseUnits delta.notionalDelta)
    (hobserved : units.observedAtMs = delta.observedAtMs) :
    store.applyDelta units.inventoryDelta = store.applyDelta delta := by
  have hfilledText : parseUnits (OrderManager.formatUnits units.filledUnits) =
      parseUnits delta.filledSizeDelta := (parseUnits_formatUnits units.filled_lt).trans hfilled
  have hnotionalText : parseUnits (OrderManager.formatUnits units.notionalUnits) =
      parseUnits delta.notionalDelta := (parseUnits_formatUnits units.notional_lt).trans hnotional
  simp only [InventoryStore.applyDelta, UnitDelta.inventoryDelta, hfilledText, hnotionalText,
    hasset, hside, hobserved]

theorem applyDelta_unitDelta (store : InventoryStore) (delta : InventoryDelta) :
    store.applyDelta (unitDelta delta).inventoryDelta = store.applyDelta delta :=
  applyDelta_of_units store rfl rfl rfl rfl rfl

/-- What the fills of a token on one side come to in one of their amounts. -/
def filledOn (amount : InventoryDelta → String) (assetId : String) (side : Side)
    (deltas : List InventoryDelta) : Nat :=
  ((deltas.filter fun delta => assetId = delta.assetId ∧ side = delta.side).map
    fun delta => parseUnits (amount delta)).sum

theorem total_unitDelta (units : UnitDelta → Nat) (amount : InventoryDelta → String)
    (hunits : ∀ delta, units (unitDelta delta) = parseUnits (amount delta)) (assetId : String)
    (side : Side) (deltas : List InventoryDelta) :
    total units assetId side (deltas.map unitDelta) = filledOn amount assetId side deltas := by
  rw [total, filledOn, List.filter_map, List.map_map]
  congr 1
  exact List.map_congr_left fun delta _ => hunits delta

end Units

section Stock

/-- Every position is under its own key. -/
def OwnPlaces (store : InventoryStore) : Prop :=
  ∀ key position, store.positions[key]? = some position →
    key = inventoryKey position.assetId position.side

theorem OwnPlaces.applyDelta {store : InventoryStore} (h : OwnPlaces store)
    (delta : InventoryDelta) : OwnPlaces (store.applyDelta delta) := by
  have hentry : inventoryKey delta.assetId delta.side =
      inventoryKey (entryFor store delta).assetId (entryFor store delta).side := by
    rw [entryFor]
    cases hstored : store.positions[inventoryKey delta.assetId delta.side]? with
    | none => rfl
    | some position => exact h _ _ hstored
  intro key position hposition
  rw [positions_applyDelta] at hposition
  split at hposition
  · rename_i hkey
    obtain rfl := Option.some.inj hposition
    exact hkey.symm.trans hentry
  · exact h _ _ hposition

/-- What the inventory holds after these fills. -/
structure Stocked (deltas : List InventoryDelta) (store : InventoryStore) : Prop where
  counted : Counted (deltas.map unitDelta) store
  places : OwnPlaces store

theorem stocked_empty : Stocked [] { positions := ∅ } where
  counted := counted_applied []
  places := by simp [OwnPlaces]

theorem Stocked.applyDelta {deltas : List InventoryDelta} {store : InventoryStore}
    (h : Stocked deltas store) (delta : InventoryDelta) :
    Stocked (deltas ++ [delta]) (store.applyDelta delta) := by
  refine ⟨?_, h.places.applyDelta delta⟩
  rw [List.map_append, List.map_singleton, ← applyDelta_unitDelta]
  exact h.counted.applyDelta (unitDelta delta)

theorem values_eq {κ β : Type} {cmp : κ → κ → Ordering} (positions : Std.TreeMap κ β cmp) :
    positions.values = positions.toList.map Prod.snd := by
  have hvalues := @Std.DTreeMap.Internal.Impl.values_eq_map_snd _ _ positions.inner.inner
  have hentries := @Std.DTreeMap.Internal.Impl.Const.toList_eq_toListModel_map _ _
    positions.inner.inner
  change positions.inner.inner.values =
    (Std.DTreeMap.Internal.Impl.Const.toList positions.inner.inner).map Prod.snd
  rw [hvalues, hentries, List.map_map]
  rfl

theorem mem_values_iff {store : InventoryStore} {position : InventoryPosition} :
    position ∈ store.positions.values ↔
      ∃ key : String, store.positions[key]? = some position := by
  rw [values_eq, List.mem_map]
  constructor
  · rintro ⟨⟨key, _⟩, hmem, rfl⟩
    exact ⟨key, Std.TreeMap.mem_toList_iff_getElem?_eq_some.mp hmem⟩
  · rintro ⟨key, hposition⟩
    exact ⟨(key, position), Std.TreeMap.mem_toList_iff_getElem?_eq_some.mpr hposition, rfl⟩

theorem Stocked.mem_values {deltas : List InventoryDelta} {store : InventoryStore}
    (h : Stocked deltas store) :
    (∀ position ∈ store.positions.values,
      Accounts (deltas.map unitDelta) position.assetId position.side position) ∧
    ∀ assetId side, (∃ position ∈ store.positions.values,
        position.assetId = assetId ∧ position.side = side) ↔
      ∃ delta ∈ deltas, delta.assetId = assetId ∧ delta.side = side := by
  have hall : ∀ position ∈ store.positions.values,
      store.positions[inventoryKey position.assetId position.side]? = some position := by
    intro position hmem
    obtain ⟨key, hposition⟩ := mem_values_iff.mp hmem
    rwa [h.places key position hposition] at hposition
  refine ⟨fun position hmem => h.counted.accounts _ _ _ (hall position hmem), ?_⟩
  intro assetId side
  have habsent := not_congr (h.counted.absent_iff assetId side)
  rw [← ne_eq, Option.ne_none_iff_exists'] at habsent
  constructor
  · rintro ⟨position, hmem, rfl, rfl⟩
    by_contra hnone
    refine habsent.mp ⟨position, hall position hmem⟩ ?_
    rintro _ hdelta ⟨hasset, hside⟩
    obtain ⟨delta, hmem, rfl⟩ := List.mem_map.mp hdelta
    exact hnone ⟨delta, hmem, hasset.symm, hside.symm⟩
  · rintro ⟨delta, hmem, rfl, rfl⟩
    obtain ⟨position, hposition⟩ := habsent.mpr fun hnone =>
      hnone (unitDelta delta) (List.mem_map_of_mem hmem) ⟨rfl, rfl⟩
    obtain ⟨hasset, hside, -, -⟩ := h.counted.accounts _ _ _ hposition
    exact ⟨position, mem_values_iff.mpr ⟨_, hposition⟩, hasset, hside⟩

end Stock

section View

variable (scaffold : SharedRuntimeScaffold) (store : HotStateStore)

/-- The input asks for the inventory of the token. -/
def Tracks (input : ProvisionedInput) (assetId : String) : Prop :=
  viewPart input.requirement.kind = .inventory ∧
    match input.requirement.selector with
    | .asset tracked => assetId = tracked
    | .source _ => True
    | .market _ | .symbol _ => False

/-- What two positions of one view must not share. -/
def place (position : InventoryPosition) : String × Side := (position.assetId, position.side)

/-- The positions that the inputs select, in their order. -/
def selectedPositions (inputs : List ProvisionedInput) : List InventoryPosition :=
  inputs.flatMap fun input =>
    if viewPart input.requirement.kind = .inventory then scaffold.inventory.positionsFor input
    else []

theorem pushUniqueInventory_firsts (inventory : List InventoryPosition)
    (position : InventoryPosition) :
    pushUniqueInventory (firsts place inventory) position =
      firsts place (inventory ++ [position]) :=
  ite_any_firsts (fun existing => by simp [place]) inventory

theorem foldl_pushUniqueInventory (inventory positions : List InventoryPosition) :
    positions.foldl pushUniqueInventory (firsts place inventory) =
      firsts place (inventory ++ positions) := by
  induction positions generalizing inventory with
  | nil => rw [List.append_nil, List.foldl_nil]
  | cons position positions ih =>
      rw [List.foldl_cons, pushUniqueInventory_firsts, ih, List.append_assoc,
        List.singleton_append]

theorem inventory_addInput (resolved : Option HotStateView) (view : StrategyRuntimeView)
    (input : ProvisionedInput) :
    (scaffold.addInput store resolved view input).inventory =
      (if viewPart input.requirement.kind = .inventory then scaffold.inventory.positionsFor input
        else []).foldl pushUniqueInventory view.inventory := by
  rw [SharedRuntimeScaffold.addInput]
  cases hpart : viewPart input.requirement.kind with
  | book =>
      simp only [reduceCtorEq, if_false, List.foldl_nil]
      split <;> rfl
  | reference =>
      simp only [reduceCtorEq, if_false, List.foldl_nil]
      split <;> rfl
  | inventory => simp

theorem inventory_foldl (resolved : Option HotStateView) (view : StrategyRuntimeView)
    (hview : view.inventory = []) (inputs : List ProvisionedInput) :
    (inputs.foldl (scaffold.addInput store resolved) view).inventory =
      firsts place (selectedPositions scaffold inputs) := by
  induction inputs using List.reverseRecOn with
  | nil => exact hview
  | append_singleton inputs input ih =>
      rw [List.foldl_append, List.foldl_cons, List.foldl_nil, inventory_addInput, ih,
        foldl_pushUniqueInventory, selectedPositions, selectedPositions, List.flatMap_append,
        List.flatMap_singleton]

theorem mem_selectedPositions_iff {inputs : List ProvisionedInput}
    {position : InventoryPosition} :
    position ∈ selectedPositions scaffold inputs ↔
      position ∈ scaffold.inventory.positions.values ∧
        ∃ input ∈ inputs, Tracks input position.assetId := by
  simp only [selectedPositions, List.mem_flatMap]
  constructor
  · rintro ⟨input, hinput, hmem⟩
    split at hmem
    · rename_i hpart
      obtain ⟨hvalue, hselected⟩ := List.mem_filter.mp hmem
      refine ⟨hvalue, input, hinput, hpart, ?_⟩
      cases hselector : input.requirement.selector <;> simp_all
    · exact absurd hmem List.not_mem_nil
  · rintro ⟨hvalue, input, hinput, hpart, hselected⟩
    refine ⟨input, hinput, ?_⟩
    rw [if_pos hpart, InventoryStore.positionsFor, List.mem_filter]
    refine ⟨hvalue, ?_⟩
    cases hselector : input.requirement.selector <;> simp_all

theorem addInput_frame {scaffold other : SharedRuntimeScaffold}
    (hseen : scaffold.seenSubjects = other.seenSubjects) (resolved : Option HotStateView)
    {view view' : StrategyRuntimeView} (hnotice : view.notice = view'.notice)
    (hbooks : view.books = view'.books) (hreferences : view.references = view'.references)
    (input : ProvisionedInput) :
    let next := scaffold.addInput store resolved view input
    let next' := other.addInput store resolved view' input
    next.notice = next'.notice ∧ next.books = next'.books ∧ next.references = next'.references := by
  have hbook : scaffold.resolveBook store input view.notice resolved =
      other.resolveBook store input view'.notice resolved := by
    simp only [SharedRuntimeScaffold.resolveBook, hnotice, hseen]
  have hreference : scaffold.resolveReference store input view.notice resolved =
      other.resolveReference store input view'.notice resolved := by
    simp only [SharedRuntimeScaffold.resolveReference, hnotice, hseen]
  simp only [SharedRuntimeScaffold.addInput]
  cases viewPart input.requirement.kind with
  | book =>
      simp only [hbook]
      cases other.resolveBook store input view'.notice resolved with
      | none => exact ⟨hnotice, hbooks, hreferences⟩
      | some book => exact ⟨hnotice, by simp only [hbooks], hreferences⟩
  | reference =>
      simp only [hreference]
      cases other.resolveReference store input view'.notice resolved with
      | none => exact ⟨hnotice, hbooks, hreferences⟩
      | some reference => exact ⟨hnotice, hbooks, by simp only [hreferences]⟩
  | inventory => exact ⟨hnotice, hbooks, hreferences⟩

theorem foldl_frame {scaffold other : SharedRuntimeScaffold}
    (hseen : scaffold.seenSubjects = other.seenSubjects) (resolved : Option HotStateView)
    {view view' : StrategyRuntimeView} (hnotice : view.notice = view'.notice)
    (hbooks : view.books = view'.books) (hreferences : view.references = view'.references)
    (inputs : List ProvisionedInput) :
    let next := inputs.foldl (scaffold.addInput store resolved) view
    let next' := inputs.foldl (other.addInput store resolved) view'
    next.notice = next'.notice ∧ next.books = next'.books ∧ next.references = next'.references := by
  induction inputs generalizing view view' with
  | nil => exact ⟨hnotice, hbooks, hreferences⟩
  | cons input inputs ih =>
      obtain ⟨hnotice', hbooks', hreferences'⟩ :=
        addInput_frame store hseen resolved hnotice hbooks hreferences input
      exact ih hnotice' hbooks' hreferences'

end View

section Runs

variable {σ : Type*} {quoter : QuoteStrategy σ} {strategy : σ} {markets : List MarketMeta}

theorem handleNotice_spec (run : QuoteRuntime σ) (notice : UpdateNotice) :
    (run.handleNotice quoter notice).1.store = run.store ∧
      (run.handleNotice quoter notice).1.scaffold =
        (run.scaffold.resolveView run.store notice).1 ∧
      (run.handleNotice quoter notice).2.map Quoted.view =
        (run.scaffold.resolveView run.store notice).2 := by
  rw [QuoteRuntime.handleNotice]
  split
  · rename_i hview
    rw [hview]
    exact ⟨rfl, rfl, rfl⟩
  · rename_i hview
    rw [hview]
    exact ⟨rfl, rfl, rfl⟩

/-- The runtime after these events, next to one that had no fills. -/
structure Follows (past : List QuoteEvent) (run : QuoteRuntime σ) (plain : RuntimeRun) : Prop where
  stocked : Stocked (fills past) run.scaffold.inventory
  store : run.store = plain.store
  topology : run.scaffold.topology = plain.scaffold.topology
  seen : run.scaffold.seenSubjects = plain.scaffold.seenSubjects

theorem isRelevantNotice_congr {scaffold other : SharedRuntimeScaffold}
    (htopology : scaffold.topology = other.topology) (notice : UpdateNotice) :
    scaffold.isRelevantNotice notice = other.isRelevantNotice notice := by
  simp only [SharedRuntimeScaffold.isRelevantNotice, htopology]

theorem Follows.step {past : List QuoteEvent} {run : QuoteRuntime σ} {plain : RuntimeRun}
    (h : Follows past run plain) (event : QuoteEvent) :
    Follows (past ++ [event]) (quoteStep quoter run event).1
      (exec runtimeStep plain (withoutFills [event])) := by
  obtain ⟨hstocked, hstore, htopology, hseen⟩ := h
  have hfills : fills (past ++ [event]) = fills past ++ fills [event] := List.filterMap_append
  rw [← List.append_nil (fills past)] at hstocked
  cases event with
  | applied update =>
      refine ⟨hfills ▸ hstocked, ?_, htopology, hseen⟩
      exact congrArg (fun store => HotStateStore.applyUpdate store update) hstore
  | filled delta =>
      refine ⟨?_, hstore, htopology, hseen⟩
      rw [List.append_nil] at hstocked
      rw [hfills]
      exact hstocked.applyDelta delta
  | handled notice =>
      obtain ⟨hstore', hscaffold, -⟩ := @handleNotice_spec _ quoter run notice
      have hrelevant := isRelevantNotice_congr htopology notice
      constructor
      · rw [hfills, quoteStep, hscaffold, SharedRuntimeScaffold.resolveView]
        split <;> exact hstocked
      · exact hstore'.trans hstore
      · rw [quoteStep, hscaffold, SharedRuntimeScaffold.resolveView]
        change _ = (plain.scaffold.resolveView plain.store notice).1.topology
        rw [SharedRuntimeScaffold.resolveView, hrelevant]
        split <;> exact htopology
      · rw [quoteStep, hscaffold, SharedRuntimeScaffold.resolveView]
        change _ = (plain.scaffold.resolveView plain.store notice).1.seenSubjects
        rw [SharedRuntimeScaffold.resolveView, hrelevant]
        split
        · exact congrArg (Insert.insert (subjectKey notice.subject)) hseen
        · exact hseen

theorem follows_run (quoter : QuoteStrategy σ) (strategy : σ) (markets : List MarketMeta)
    (past : List QuoteEvent) :
    Follows past (exec (quoteStep quoter) (startQuotes quoter strategy markets) past)
      (exec runtimeStep (startRuntime markets (quoter.requirements strategy))
        (withoutFills past)) := by
  induction past using List.reverseRecOn with
  | nil => exact ⟨stocked_empty, rfl, rfl, rfl⟩
  | append_singleton past event ih =>
      rw [exec_concat, withoutFills, List.filterMap_append, exec_append]
      exact ih.step event

/-- Whatever the order of updates, fills and notices, the strategy sees each position that
its inputs ask for once, with the saturated sums of all its fills so far, and next to it the
books and references that it would see without any fill. -/
theorem views_show_inventory (quoter : QuoteStrategy σ) (strategy : σ)
    (markets : List MarketMeta) (past : List QuoteEvent) (notice : UpdateNotice) :
    let run := exec (quoteStep quoter) (startQuotes quoter strategy markets) past
    let plain := exec runtimeStep (startRuntime markets (quoter.requirements strategy))
      (withoutFills past)
    ((run.handleNotice quoter notice).2.isSome =
      (plain.scaffold.resolveView plain.store notice).2.isSome) ∧
    ∀ quoted ∈ (run.handleNotice quoter notice).2,
      (∃ view ∈ (plain.scaffold.resolveView plain.store notice).2,
        quoted.view.books = view.books ∧ quoted.view.references = view.references) ∧
      (quoted.view.inventory.map place).Nodup ∧
      (∀ assetId side, (∃ position ∈ quoted.view.inventory,
          position.assetId = assetId ∧ position.side = side) ↔
        (∃ input ∈ run.scaffold.topology.inputs, Tracks input assetId) ∧
          ∃ delta ∈ fills past, delta.assetId = assetId ∧ delta.side = side) ∧
      ∀ position ∈ quoted.view.inventory,
        parseUnits position.filledSize =
            min (filledOn InventoryDelta.filledSizeDelta position.assetId position.side
              (fills past)) (2 ^ 64 - 1) ∧
          parseUnits position.netNotional =
            min (filledOn InventoryDelta.notionalDelta position.assetId position.side
              (fills past)) (2 ^ 64 - 1) := by
  intro run plain
  obtain ⟨hstocked, hstore, htopology, hseen⟩ := follows_run quoter strategy markets past
  obtain ⟨-, -, hview⟩ := @handleNotice_spec _ quoter run notice
  have hrelevant := isRelevantNotice_congr htopology notice
  have hsome : (run.handleNotice quoter notice).2.isSome =
      (plain.scaffold.resolveView plain.store notice).2.isSome := by
    rw [← Option.isSome_map, hview, SharedRuntimeScaffold.resolveView,
      SharedRuntimeScaffold.resolveView, hrelevant]
    split <;> rfl
  refine ⟨hsome, ?_⟩
  intro quoted hquoted
  rw [hquoted, Option.map_some, SharedRuntimeScaffold.resolveView] at hview
  split at hview
  · rename_i hnotice
    have hfilled : quoted.view = _ := Option.some.inj hview
    have hinventory : quoted.view.inventory =
        firsts place (selectedPositions run.scaffold run.scaffold.topology.inputs) := by
      rw [hfilled]
      exact inventory_foldl run.scaffold run.store _ _ rfl _
    obtain ⟨haccounts, hthere⟩ := hstocked.mem_values
    refine ⟨?_, ?_, ?_, ?_⟩
    · rw [SharedRuntimeScaffold.resolveView, ← hrelevant, if_pos hnotice]
      refine ⟨_, rfl, ?_⟩
      rw [hfilled, ← htopology, ← hstore]
      exact (foldl_frame run.store hseen _ rfl rfl rfl _).2
    · rw [hinventory]
      exact nodup_map_firsts place _
    · intro assetId side
      have hplace := @exists_mem_firsts_iff _ _ _ place (assetId, side)
        (selectedPositions run.scaffold run.scaffold.topology.inputs)
      simp only [place, Prod.mk.injEq] at hplace
      rw [hinventory, hplace, ← hthere assetId side]
      simp only [mem_selectedPositions_iff]
      constructor
      · rintro ⟨position, ⟨hvalue, htracks⟩, rfl, rfl⟩
        exact ⟨htracks, position, hvalue, rfl, rfl⟩
      · rintro ⟨htracks, position, hvalue, rfl, rfl⟩
        exact ⟨position, ⟨hvalue, htracks⟩, rfl, rfl⟩
    · intro position hmem
      rw [hinventory] at hmem
      have hselected := mem_of_mem_firsts hmem
      obtain ⟨-, -, hsize, hnotional⟩ :=
        haccounts position ((mem_selectedPositions_iff _).mp hselected).1
      rw [total_unitDelta _ InventoryDelta.filledSizeDelta fun _ => rfl] at hsize
      rw [total_unitDelta _ InventoryDelta.notionalDelta fun _ => rfl] at hnotional
      exact ⟨hsize, hnotional⟩
  · exact absurd hview (by simp)

end Runs

end Rtt.QuoteViews
