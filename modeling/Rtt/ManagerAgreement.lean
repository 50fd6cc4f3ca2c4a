import Rtt.FeedManager

/-!
The feed manager and its websocket client.  Each compares the assets of a call with
a list of its own; the two lists stay the same, so a call clears the assets that it
unsubscribes and no others.
-/

namespace Rtt.ManagerAgreement

open Rtt.Machine
open Rtt.PartialMap
open Rtt.PublicEvent
open Rtt.Feed
open Rtt.SubscriptionPlan
open Rtt.FeedManager

/-- The manager holds the assets that its client subscribes. -/
structure Agrees (manager : PolymarketFeedManager) : Prop where
  planner : manager.wsClient.plannerConfig = manager.subscriptionPlanner
  assigned : manager.assetIds = manager.wsClient.assignedAssetIds

/-- The assets that some commands unsubscribe. -/
def unsubscribed (commands : List SubscriptionCommand) : List String :=
  (commands.filter fun command => command.operation = .unsubscribe).flatMap
    SubscriptionCommand.assetIds

/-- The stores lose what they kept for these assets and nothing else. -/
structure ClearsExactly (sourceId : SourceId) (assetIds : List String)
    (before after : FeedStores) : Prop where
  books : ∀ assetId, after.orderBooks.books assetId =
    if assetId ∈ assetIds then none else before.orderBooks.books assetId
  references : ∀ key, after.referenceStore.state key =
    if key.sourceId = sourceId ∧ key.instrumentKind = InstrumentKind.asset.debugName ∧
        key.instrumentId ∈ assetIds then none
    else before.referenceStore.state key

section Assigned

theorem mem_ofList_toList (desired : Std.TreeSet String) (assetId : String) :
    assetId ∈ Std.TreeSet.ofList desired.toList ↔ assetId ∈ desired := by
  rw [Std.TreeSet.mem_ofList, List.contains_iff_mem, Std.TreeSet.mem_toList]

theorem assignedAssetIds_ofList_toList (config : SubscriptionPlannerConfig)
    (desired : Std.TreeSet String) :
    assignedAssetIdsForConfig (Std.TreeSet.ofList desired.toList) config =
      assignedAssetIdsForConfig desired config := by
  rw [assignedAssetIdsForConfig_eq, assignedAssetIdsForConfig_eq,
    toList_congr (mem_ofList_toList desired)]

end Assigned

section Commands

variable {current desired : Std.TreeSet String} {config : SubscriptionPlannerConfig}

theorem unsubscribed_planSubscriptionCommands :
    unsubscribed (planSubscriptionCommands current desired config) =
      (planDiff current desired config).removes := by
  obtain ⟨removals, additions, h⟩ := exists_planParts current desired config
  have hremovals : removals.filter (fun command => command.operation = .unsubscribe) =
      removals := by
    rw [List.filter_eq_self]
    intro command hcommand
    simpa using h.removed.operation_eq command hcommand
  have hadditions : additions.filter (fun command => command.operation = .unsubscribe) = [] := by
    rw [List.filter_eq_nil_iff]
    intro command hcommand
    simp [h.added.operation_eq command hcommand]
  rw [unsubscribed, h.plan_eq, List.filter_append, hremovals, hadditions, List.append_nil,
    h.removed.assetIds_eq]

theorem mem_iff_of_plan_eq_nil (h : planSubscriptionCommands current desired config = [])
    (assetId : String) :
    assetId ∈ current ↔ assetId ∈ assignedAssetIdsForConfig desired config := by
  obtain ⟨removals, additions, hparts⟩ := exists_planParts current desired config
  have hnone := List.append_eq_nil_iff.mp (hparts.plan_eq.symm.trans h)
  have hremoves := hparts.removed.assetIds_eq
  have hadds := hparts.added.assetIds_eq
  rw [hnone.1, List.flatMap_nil] at hremoves
  rw [hnone.2, List.flatMap_nil] at hadds
  have hremoved := @mem_removes_iff current desired config assetId
  have hadded := @mem_adds_iff current desired config assetId
  rw [← hremoves] at hremoved
  rw [← hadds] at hadded
  simp only [List.not_mem_nil, false_iff, not_and, not_not] at hremoved hadded
  exact ⟨hremoved, hadded⟩

end Commands

section Calls

variable {manager : PolymarketFeedManager}

theorem clearsExactly_clearAssets (removes : List String) :
    ClearsExactly manager.sourceId removes manager.stores (manager.clearAssets removes) := by
  refine ⟨books_clearAssets removes, ?_⟩
  intro key
  have hclear : ∀ (stores : FeedStores) (removed : String),
      (stores.clearAsset manager.sourceId removed).referenceStore.state key =
        if key.sourceId = manager.sourceId ∧
            key.instrumentKind = InstrumentKind.asset.debugName ∧ key.instrumentId = removed then
          none
        else stores.referenceStore.state key := by
    intro stores removed
    simp only [FeedStores.clearAsset, ReferenceStore.clearInstrument, retain_apply,
      Bool.not_eq_true', decide_eq_false_iff_not, ite_not]
  have hmem : (∃ removed ∈ removes, key.sourceId = manager.sourceId ∧
      key.instrumentKind = InstrumentKind.asset.debugName ∧ key.instrumentId = removed) ↔
        key.sourceId = manager.sourceId ∧
          key.instrumentKind = InstrumentKind.asset.debugName ∧ key.instrumentId ∈ removes := by
    constructor
    · rintro ⟨removed, hmem, hsource, hkind, rfl⟩
      exact ⟨hsource, hkind, hmem⟩
    · rintro ⟨hsource, hkind, hmem⟩
      exact ⟨_, hmem, hsource, hkind, rfl⟩
  rw [PolymarketFeedManager.clearAssets,
    lookup_foldl_clear (f := fun stores : FeedStores => stores.referenceStore.state key) hclear]
  simp only [hmem]

theorem agrees_withSubscriptionPlanner (sourceId : SourceId) (assetIds : List String)
    (subscriptionPlanner : SubscriptionPlannerConfig) :
    Agrees (.withSubscriptionPlanner sourceId assetIds subscriptionPlanner) :=
  ⟨rfl, (assignedAssetIds_ofList_toList subscriptionPlanner _).symm⟩

theorem reconfigureAssets_cases (manager : PolymarketFeedManager) (assetIds : List String) :
    let next := assignedAssetIdsForConfig (Std.TreeSet.ofList assetIds) manager.subscriptionPlanner
    ((∀ assetId, assetId ∈ manager.assetIds ↔ assetId ∈ next) ∧
        manager.reconfigureAssets assetIds = (manager, false)) ∨
      (¬ ∀ assetId, assetId ∈ manager.assetIds ↔ assetId ∈ next) ∧
        manager.reconfigureAssets assetIds =
          ({ manager with
              stores := manager.clearAssets (planSubscriptionDiff
                (Std.TreeSet.ofList manager.assetIds) (Std.TreeSet.ofList next)).removes
              assetIds := next
              wsClient := (manager.wsClient.reconfigureAssets
                (Std.TreeSet.ofList assetIds).toList).1 }, true) := by
  intro next
  have hsame : (Std.TreeSet.ofList manager.assetIds).toList = (Std.TreeSet.ofList next).toList ↔
      ∀ assetId, assetId ∈ manager.assetIds ↔ assetId ∈ next := by
    rw [← Std.TreeSet.equiv_iff_toList_eq, Std.TreeSet.equiv_iff_forall_mem_iff]
    simp only [Std.TreeSet.mem_ofList, List.contains_iff_mem]
  by_cases h : ∀ assetId, assetId ∈ manager.assetIds ↔ assetId ∈ next
  · exact Or.inl ⟨h, if_pos (hsame.mpr h)⟩
  · exact Or.inr ⟨h, if_neg (hsame.not.mpr h)⟩

theorem agrees_reconfigureAssets (h : Agrees manager) (assetIds : List String) :
    Agrees (manager.reconfigureAssets assetIds).1 := by
  obtain ⟨-, hcall⟩ | ⟨-, hcall⟩ := reconfigureAssets_cases manager assetIds
  · rw [hcall]
    exact h
  · rw [hcall]
    refine ⟨h.planner, ?_⟩
    have hassigned := assignedAssetIds_ofList_toList manager.subscriptionPlanner
      (Std.TreeSet.ofList assetIds)
    rw [← hassigned, ← h.planner]
    rfl

theorem agrees_managerStep (manager : PolymarketFeedManager) (input : ManagerInput)
    (h : Agrees manager) : Agrees (managerStep manager input).1 := by
  cases input with
  | reconfigureAssets assetIds => exact agrees_reconfigureAssets h assetIds
  | message message => exact ⟨h.planner, h.assigned⟩

theorem agrees_exec (sourceId : SourceId) (assetIds : List String)
    (subscriptionPlanner : SubscriptionPlannerConfig) (inputs : List ManagerInput) :
    Agrees (exec managerStep
      (.withSubscriptionPlanner sourceId assetIds subscriptionPlanner) inputs) :=
  exec_kept agrees_managerStep
    (agrees_withSubscriptionPlanner sourceId assetIds subscriptionPlanner) inputs

/-- What a call enqueues, clears and answers. -/
structure CallSpec (manager after : PolymarketFeedManager) (changed : Bool)
    (enqueued : List SubscriptionCommand) : Prop where
  issued : after.wsClient.issuedCommands = manager.wsClient.issuedCommands ++ enqueued
  cleared : ClearsExactly manager.sourceId (unsubscribed enqueued) manager.stores after.stores
  unchanged : changed = false → enqueued = [] ∧ after = manager
  commanded : changed = true → enqueued ≠ []

theorem exists_callSpec (h : Agrees manager) (assetIds : List String) :
    ∃ enqueued, CallSpec manager (manager.reconfigureAssets assetIds).1
      (manager.reconfigureAssets assetIds).2 enqueued := by
  obtain ⟨-, hcall⟩ | ⟨hmoved, hcall⟩ := reconfigureAssets_cases manager assetIds
  · rw [hcall]
    refine ⟨[], ?_, ?_, fun _ => ⟨rfl, rfl⟩, fun hchanged => absurd hchanged (by simp)⟩
    · rw [List.append_nil]
    · exact clearsExactly_clearAssets []
  · rw [hcall]
    refine ⟨planSubscriptionCommands (Std.TreeSet.ofList manager.assetIds)
      (Std.TreeSet.ofList (Std.TreeSet.ofList assetIds).toList) manager.subscriptionPlanner,
      ?_, ?_, fun hunchanged => absurd hunchanged (by simp), ?_⟩
    · rw [h.assigned, ← h.planner]
      rfl
    · rw [unsubscribed_planSubscriptionCommands, planDiff, assignedAssetIds_ofList_toList]
      exact clearsExactly_clearAssets _
    · rintro - hnone
      refine hmoved fun assetId => ?_
      have hkept := mem_iff_of_plan_eq_nil hnone assetId
      rw [assignedAssetIds_ofList_toList, Std.TreeSet.mem_ofList, List.contains_iff_mem] at hkept
      exact hkept

end Calls

/-- After any calls and messages the manager holds the assets that its client is
assigned, and the next call clears the assets that it unsubscribes and no others.  One
that answers that nothing changed has changed nothing. -/
theorem manager_client_agree (sourceId : SourceId) (assetIds : List String)
    (subscriptionPlanner : SubscriptionPlannerConfig) (inputs : List ManagerInput)
    (next : List String) :
    let manager := exec managerStep
      (.withSubscriptionPlanner sourceId assetIds subscriptionPlanner) inputs
    let (after, changed) := manager.reconfigureAssets next
    manager.assetIds = manager.wsClient.assignedAssetIds ∧
      ∃ enqueued, after.wsClient.issuedCommands = manager.wsClient.issuedCommands ++ enqueued ∧
        ClearsExactly manager.sourceId (unsubscribed enqueued) manager.stores after.stores ∧
        (changed = false → enqueued = [] ∧ after = manager) ∧
        (changed = true → enqueued ≠ []) := by
  intro manager
  have hagrees : Agrees manager := agrees_exec sourceId assetIds subscriptionPlanner inputs
  obtain ⟨enqueued, hissued, hcleared, hunchanged, hcommanded⟩ := exists_callSpec hagrees next
  exact ⟨hagrees.assigned, enqueued, hissued, hcleared, hunchanged, hcommanded⟩

end Rtt.ManagerAgreement
