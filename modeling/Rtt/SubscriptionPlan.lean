import Rtt.ListShares
import Std.Data.TreeSet.Lemmas
import Mathlib.Data.String.Basic
import Mathlib.Data.Finset.Basic

namespace Rtt.SubscriptionPlan

open Rtt.ListShares

inductive SubscriptionOperation where
  | subscribe
  | unsubscribe
  deriving DecidableEq, Repr

structure SubscriptionDiff where
  adds : List String
  removes : List String
  unchanged : List String
  deriving DecidableEq, Repr

/-- A command for a batch of assets, with the pause before it. -/
structure SubscriptionCommand where
  operation : SubscriptionOperation
  assetIds : List String
  shardIndex : Nat
  pacingMs : Nat
  deriving DecidableEq, Repr

/-- How commands are cut and which shard they are for. -/
structure SubscriptionPlannerConfig where
  maxBatchSize : Nat
  pacingMs : Nat
  shardCount : Nat
  shardIndex : Nat
  deriving DecidableEq, Repr

def SubscriptionPlannerConfig.default : SubscriptionPlannerConfig :=
  { maxBatchSize := 64, pacingMs := 0, shardCount := 1, shardIndex := 0 }

structure SubscriptionShard where
  shardIndex : Nat
  assetIds : List String
  deriving DecidableEq, Repr

def planSubscriptionDiff (current desired : Std.TreeSet String) : SubscriptionDiff :=
  { adds := desired.toList.filter fun assetId => !current.contains assetId
    removes := current.toList.filter fun assetId => !desired.contains assetId
    unchanged := current.toList.filter fun assetId => desired.contains assetId }

def SubscriptionShard.push (assetId : String) (shard : SubscriptionShard) : SubscriptionShard :=
  { shard with assetIds := shard.assetIds ++ [assetId] }

/-- The assets are dealt round robin in the order of their ids. -/
def assignSubscriptionShards (desired : Std.TreeSet String) (shardCount : Nat) :
    List SubscriptionShard :=
  let shardCount := max shardCount 1
  let shards := (List.range shardCount).map fun shardIndex => { shardIndex, assetIds := [] }
  desired.toList.zipIdx.foldl
    (fun shards entry => shards.modify (entry.2 % shardCount) (.push entry.1)) shards

/-- The assets of the configured shard; an index out of range takes the last one. -/
def assignedAssetIdsForConfig (desired : Std.TreeSet String)
    (config : SubscriptionPlannerConfig) : List String :=
  let shardCount := max config.shardCount 1
  let shardIndex := min config.shardIndex (shardCount - 1)
  (((assignSubscriptionShards desired shardCount).find? fun shard =>
    shard.shardIndex = shardIndex).map SubscriptionShard.assetIds).getD []

/-- The commands for some assets in batches; only the first of all has no pause. -/
def appendBatchedCommands (commands : List SubscriptionCommand)
    (operation : SubscriptionOperation) (assetIds : List String)
    (shardIndex maxBatchSize pacingMs : Nat) : List SubscriptionCommand :=
  (assetIds.toChunks maxBatchSize).foldl
    (fun commands batch => commands ++
      [{ operation, assetIds := batch, shardIndex
         pacingMs := if commands = [] then 0 else pacingMs }])
    commands

/-- Unsubscribes come before subscribes. -/
def planSubscriptionCommands (current desired : Std.TreeSet String)
    (config : SubscriptionPlannerConfig) : List SubscriptionCommand :=
  let shardCount := max config.shardCount 1
  let shardIndex := min config.shardIndex (shardCount - 1)
  let maxBatchSize := max config.maxBatchSize 1
  let desiredForShard := Std.TreeSet.ofList (assignedAssetIdsForConfig desired config)
  let diff := planSubscriptionDiff current desiredForShard
  let commands := appendBatchedCommands [] .unsubscribe diff.removes shardIndex maxBatchSize
    config.pacingMs
  appendBatchedCommands commands .subscribe diff.adds shardIndex maxBatchSize config.pacingMs

example :
    planSubscriptionCommands ∅ (Std.TreeSet.ofList ["a1", "a2", "a3", "a4", "a5"])
        { maxBatchSize := 2, pacingMs := 250, shardCount := 1, shardIndex := 0 } =
      [{ operation := .subscribe, assetIds := ["a1", "a2"], shardIndex := 0, pacingMs := 0 },
        { operation := .subscribe, assetIds := ["a3", "a4"], shardIndex := 0, pacingMs := 250 },
        { operation := .subscribe, assetIds := ["a5"], shardIndex := 0, pacingMs := 250 }] := by
  decide +kernel

section Shards

variable (desired : Std.TreeSet String)

theorem foldl_push_eq_dealt (count : Nat) (assetIds : List String) :
    assetIds.zipIdx.foldl
        (fun shards entry => shards.modify (entry.2 % count) (SubscriptionShard.push entry.1))
        ((List.range count).map fun shardIndex => ⟨shardIndex, []⟩) =
      (List.range count).map fun shardIndex => ⟨shardIndex, dealt count shardIndex assetIds⟩ := by
  induction assetIds using List.reverseRecOn with
  | nil => rfl
  | append_singleton assetIds assetId ih =>
      rw [List.zipIdx_append, List.foldl_append, ih]
      refine List.ext_getElem? fun shardIndex => ?_
      simp only [List.zipIdx_singleton, List.foldl_cons, List.foldl_nil, List.getElem?_modify,
        List.getElem?_map, dealt_concat, Nat.zero_add]
      by_cases hshard : shardIndex < count
      · rw [List.getElem?_range hshard]
        by_cases hturn : assetIds.length % count = shardIndex
        · simp [hturn, SubscriptionShard.push]
        · simp [hturn]
      · rw [List.getElem?_eq_none (by simpa using hshard)]
        simp

theorem assignSubscriptionShards_eq (shardCount : Nat) :
    assignSubscriptionShards desired shardCount =
      (List.range (max shardCount 1)).map fun shardIndex =>
        ⟨shardIndex, dealt (max shardCount 1) shardIndex desired.toList⟩ :=
  foldl_push_eq_dealt _ desired.toList

theorem assignedAssetIdsForConfig_eq (config : SubscriptionPlannerConfig) :
    assignedAssetIdsForConfig desired config =
      dealt (max config.shardCount 1) (min config.shardIndex (max config.shardCount 1 - 1))
        desired.toList := by
  have hfind : ∀ {index count : Nat}, index < count →
      (List.range count).find? (fun shardIndex => shardIndex = index) = some index := by
    intro index count hindex
    rw [List.find?_range_eq_some]
    refine ⟨by simp, List.mem_range.mpr hindex, ?_⟩
    intro other hother
    simp only [decide_eq_false_iff_not, Bool.not_eq_true']
    omega
  simp only [assignedAssetIdsForConfig, assignSubscriptionShards_eq, List.find?_map,
    Function.comp_def]
  rw [hfind (by omega), show max (max config.shardCount 1) 1 = max config.shardCount 1 by omega]
  rfl

theorem nodup_toList (assets : Std.TreeSet String) : assets.toList.Nodup := by
  refine (Std.TreeSet.distinct_toList (t := assets)).imp ?_
  intro assetId other hne
  simpa using hne

theorem toList_congr {assets others : Std.TreeSet String}
    (h : ∀ assetId, assetId ∈ assets ↔ assetId ∈ others) : assets.toList = others.toList :=
  Std.TreeSet.equiv_iff_toList_eq.mp (.of_forall_mem_iff h)

end Shards

section Commands

variable {operation : SubscriptionOperation} {assetIds : List String}
  {shardIndex maxBatchSize pacingMs : Nat}

/-- The batches of one operation, in the order of the assets. -/
structure Batched (operation : SubscriptionOperation) (assetIds : List String)
    (shardIndex maxBatchSize : Nat) (commands : List SubscriptionCommand) : Prop where
  assetIds_eq : commands.flatMap SubscriptionCommand.assetIds = assetIds
  fits : ∀ command ∈ commands, Fits maxBatchSize command.assetIds
  operation_eq : ∀ command ∈ commands, command.operation = operation
  shardIndex_eq : ∀ command ∈ commands, command.shardIndex = shardIndex

/-- The first command goes out at once and the others wait. -/
def Paced (pacingMs : Nat) (commands : List SubscriptionCommand) : Prop :=
  ∀ index command, commands[index]? = some command →
    command.pacingMs = if index = 0 then 0 else pacingMs

theorem Paced.concat {commands : List SubscriptionCommand} {command : SubscriptionCommand}
    (h : Paced pacingMs commands)
    (hcommand : command.pacingMs = if commands = [] then 0 else pacingMs) :
    Paced pacingMs (commands ++ [command]) := by
  intro index other hother
  rcases lt_or_ge index commands.length with hlt | hge
  · rw [List.getElem?_append_left hlt] at hother
    exact h index other hother
  · rw [List.getElem?_append_right hge] at hother
    obtain ⟨hindex, rfl⟩ : index - commands.length = 0 ∧ command = other := by
      simpa [List.getElem?_singleton] using hother
    rw [hcommand]
    cases commands with
    | nil => simp_all
    | cons first rest =>
        rw [List.length_cons] at hge
        rw [if_neg (List.cons_ne_nil _ _), if_neg (by omega)]

theorem foldl_push_batches (batches : List (List String)) (commands : List SubscriptionCommand) :
    ∃ pushed : List SubscriptionCommand,
      batches.foldl
          (fun commands batch => commands ++
            [{ operation, assetIds := batch, shardIndex
               pacingMs := if commands = [] then 0 else pacingMs }])
          commands = commands ++ pushed ∧
        pushed.map SubscriptionCommand.assetIds = batches ∧
        (∀ command ∈ pushed, command.operation = operation ∧ command.shardIndex = shardIndex) ∧
        (Paced pacingMs commands → Paced pacingMs (commands ++ pushed)) := by
  induction batches generalizing commands with
  | nil => exact ⟨[], by simp⟩
  | cons batch batches ih =>
      obtain ⟨pushed, hpushed, hbatches, hall, hpaced⟩ := ih (commands ++
        [{ operation, assetIds := batch, shardIndex
           pacingMs := if commands = [] then 0 else pacingMs }])
      refine ⟨{ operation, assetIds := batch, shardIndex
                pacingMs := if commands = [] then 0 else pacingMs } :: pushed, ?_, ?_, ?_, ?_⟩
      · rw [List.foldl_cons, hpushed, List.append_assoc, List.singleton_append]
      · rw [List.map_cons, hbatches]
      · rintro command (_ | ⟨_, hcommand⟩)
        · exact ⟨rfl, rfl⟩
        · exact hall command hcommand
      · intro h
        rw [← List.singleton_append, ← List.append_assoc]
        exact hpaced (h.concat rfl)

theorem appendBatchedCommands_spec (hbatch : 0 < maxBatchSize)
    (commands : List SubscriptionCommand) :
    ∃ pushed, appendBatchedCommands commands operation assetIds shardIndex maxBatchSize
        pacingMs = commands ++ pushed ∧
      Batched operation assetIds shardIndex maxBatchSize pushed ∧
      (Paced pacingMs commands → Paced pacingMs (commands ++ pushed)) := by
  obtain ⟨hflat, hfits⟩ := toChunks_spec hbatch assetIds
  obtain ⟨pushed, hpushed, hbatches, hall, hpaced⟩ :=
    @foldl_push_batches operation shardIndex pacingMs (assetIds.toChunks maxBatchSize) commands
  refine ⟨pushed, hpushed, ⟨?_, ?_, fun command hcommand => (hall command hcommand).1,
    fun command hcommand => (hall command hcommand).2⟩, hpaced⟩
  · rw [List.flatMap_def, hbatches, hflat]
  · intro command hcommand
    exact hfits _ (hbatches ▸ List.mem_map_of_mem hcommand)

/-- What a command does to the set of subscriptions. -/
def applyCommand (subscribed : Finset String) (command : SubscriptionCommand) : Finset String :=
  match command.operation with
  | .subscribe => subscribed ∪ command.assetIds.toFinset
  | .unsubscribe => subscribed \ command.assetIds.toFinset

theorem foldl_applyCommand_subscribe {commands : List SubscriptionCommand}
    (h : ∀ command ∈ commands, command.operation = .subscribe) (subscribed : Finset String) :
    commands.foldl applyCommand subscribed =
      subscribed ∪ (commands.flatMap SubscriptionCommand.assetIds).toFinset := by
  induction commands generalizing subscribed with
  | nil => simp
  | cons command commands ih =>
      obtain ⟨hcommand, hrest⟩ := List.forall_mem_cons.mp h
      rw [List.foldl_cons, ih hrest, List.flatMap_cons, List.toFinset_append,
        ← Finset.union_assoc]
      simp only [applyCommand, hcommand]

theorem foldl_applyCommand_unsubscribe {commands : List SubscriptionCommand}
    (h : ∀ command ∈ commands, command.operation = .unsubscribe) (subscribed : Finset String) :
    commands.foldl applyCommand subscribed =
      subscribed \ (commands.flatMap SubscriptionCommand.assetIds).toFinset := by
  induction commands generalizing subscribed with
  | nil => simp
  | cons command commands ih =>
      obtain ⟨hcommand, hrest⟩ := List.forall_mem_cons.mp h
      rw [List.foldl_cons, ih hrest, List.flatMap_cons, List.toFinset_append,
        ← Finset.sup_eq_union, ← sdiff_sdiff_left]
      simp only [applyCommand, hcommand]

end Commands

section Plan

variable (current desired : Std.TreeSet String) (config : SubscriptionPlannerConfig)

/-- The difference that the plan carries out. -/
def planDiff : SubscriptionDiff :=
  planSubscriptionDiff current (Std.TreeSet.ofList (assignedAssetIdsForConfig desired config))

theorem mem_adds_iff {assetId : String} :
    assetId ∈ (planDiff current desired config).adds ↔
      assetId ∈ assignedAssetIdsForConfig desired config ∧ assetId ∉ current := by
  simp only [planDiff, planSubscriptionDiff, List.mem_filter, Std.TreeSet.mem_toList,
    Std.TreeSet.mem_ofList, List.contains_iff_mem, Bool.not_eq_true', ← Bool.not_eq_true,
    Std.TreeSet.contains_iff_mem]

theorem mem_removes_iff {assetId : String} :
    assetId ∈ (planDiff current desired config).removes ↔
      assetId ∈ current ∧ assetId ∉ assignedAssetIdsForConfig desired config := by
  simp only [planDiff, planSubscriptionDiff, List.mem_filter, Std.TreeSet.mem_toList,
    Bool.not_eq_true', ← Bool.not_eq_true, Std.TreeSet.contains_iff_mem,
    Std.TreeSet.mem_ofList, List.contains_iff_mem]

/-- The plan in two parts, first the removals and then the additions. -/
structure PlanParts (removals additions : List SubscriptionCommand) : Prop where
  plan_eq : planSubscriptionCommands current desired config = removals ++ additions
  removed : Batched .unsubscribe (planDiff current desired config).removes
    (min config.shardIndex (max config.shardCount 1 - 1)) (max config.maxBatchSize 1) removals
  added : Batched .subscribe (planDiff current desired config).adds
    (min config.shardIndex (max config.shardCount 1 - 1)) (max config.maxBatchSize 1) additions
  paced : Paced config.pacingMs (removals ++ additions)

theorem exists_planParts : ∃ removals additions,
    PlanParts current desired config removals additions := by
  have hbatch : 0 < max config.maxBatchSize 1 := by omega
  obtain ⟨removals, hremovals, hremoved, hpaced⟩ := @appendBatchedCommands_spec .unsubscribe
    (planDiff current desired config).removes
    (min config.shardIndex (max config.shardCount 1 - 1)) _ config.pacingMs hbatch []
  obtain ⟨additions, hadditions, hadded, hpaced'⟩ := @appendBatchedCommands_spec .subscribe
    (planDiff current desired config).adds
    (min config.shardIndex (max config.shardCount 1 - 1)) _ config.pacingMs hbatch removals
  rw [List.nil_append] at hremovals hpaced
  refine ⟨removals, additions, ?_, hremoved, hadded, hpaced' (hpaced ?_)⟩
  · rw [← hadditions, ← hremovals]
    rfl
  · intro index command hcommand
    exact absurd hcommand (by simp)

variable {current desired config} {removals additions : List SubscriptionCommand}

theorem PlanParts.applied (h : PlanParts current desired config removals additions) :
    (planSubscriptionCommands current desired config).foldl applyCommand
        current.toList.toFinset =
      (assignedAssetIdsForConfig desired config).toFinset := by
  rw [h.plan_eq, List.foldl_append, foldl_applyCommand_unsubscribe h.removed.operation_eq,
    foldl_applyCommand_subscribe h.added.operation_eq, h.removed.assetIds_eq,
    h.added.assetIds_eq]
  ext assetId
  simp only [Finset.mem_union, Finset.mem_sdiff, List.mem_toFinset, mem_adds_iff,
    mem_removes_iff, Std.TreeSet.mem_toList]
  tauto

theorem PlanParts.unsubscribes_first (h : PlanParts current desired config removals additions) :
    (planSubscriptionCommands current desired config).Pairwise fun earlier later =>
      ¬ (earlier.operation = .subscribe ∧ later.operation = .unsubscribe) := by
  rw [h.plan_eq, List.pairwise_append]
  refine ⟨?_, ?_, ?_⟩
  · refine List.pairwise_of_forall_mem_list fun earlier hearlier later _ hboth => ?_
    exact absurd (hboth.1.symm.trans (h.removed.operation_eq _ hearlier)) (by decide)
  · refine List.pairwise_of_forall_mem_list fun earlier _ later hlater hboth => ?_
    exact absurd (hboth.2.symm.trans (h.added.operation_eq _ hlater)) (by decide)
  · intro earlier hearlier later _ hboth
    exact absurd (hboth.1.symm.trans (h.removed.operation_eq _ hearlier)) (by decide)

theorem PlanParts.fits (h : PlanParts current desired config removals additions) :
    ∀ command ∈ planSubscriptionCommands current desired config,
      Fits (max config.maxBatchSize 1) command.assetIds := by
  intro command hcommand
  rw [h.plan_eq, List.mem_append] at hcommand
  rcases hcommand with hcommand | hcommand
  · exact h.removed.fits command hcommand
  · exact h.added.fits command hcommand

theorem PlanParts.nodup (h : PlanParts current desired config removals additions) :
    ((planSubscriptionCommands current desired config).flatMap
      SubscriptionCommand.assetIds).Nodup := by
  rw [h.plan_eq, List.flatMap_append, h.removed.assetIds_eq, h.added.assetIds_eq,
    List.nodup_append]
  refine ⟨(nodup_toList _).filter _, (nodup_toList _).filter _, ?_⟩
  rintro assetId hremoved _ hadded rfl
  exact ((mem_adds_iff ..).mp hadded).2 ((mem_removes_iff ..).mp hremoved).1

end Plan

theorem subscription_plan_correct (current desired : Std.TreeSet String)
    (config : SubscriptionPlannerConfig) :
    let commands := planSubscriptionCommands current desired config
    let shardCount := max config.shardCount 1
    let assigned (shardIndex : Nat) := assignedAssetIdsForConfig desired { config with shardIndex }
    commands.foldl applyCommand current.toList.toFinset =
        (assignedAssetIdsForConfig desired config).toFinset ∧
      (commands.Pairwise fun earlier later =>
        ¬ (earlier.operation = .subscribe ∧ later.operation = .unsubscribe)) ∧
      (∀ command ∈ commands, command.assetIds ≠ [] ∧
        command.assetIds.length ≤ max 1 config.maxBatchSize) ∧
      (commands.flatMap SubscriptionCommand.assetIds).Nodup ∧
      (∀ index command, commands[index]? = some command →
        command.pacingMs = if index = 0 then 0 else config.pacingMs) ∧
      (∀ assetId, (∃ shardIndex < shardCount, assetId ∈ assigned shardIndex) ↔
        assetId ∈ desired) ∧
      (∀ shardIndex < shardCount, ∀ other < shardCount, shardIndex ≠ other →
        List.Disjoint (assigned shardIndex) (assigned other)) ∧
      (∀ shardIndex, (assigned shardIndex).Nodup) ∧
      (∀ shardIndex ≥ shardCount, assigned shardIndex = assigned (shardCount - 1)) ∧
      ∀ shardIndex other, (assigned shardIndex).length ≤ (assigned other).length + 1 := by
  intro commands shardCount assigned
  obtain ⟨removals, additions, h⟩ := exists_planParts current desired config
  have hassigned : ∀ shardIndex, assigned shardIndex =
      dealt shardCount (min shardIndex (shardCount - 1)) desired.toList :=
    fun shardIndex => assignedAssetIdsForConfig_eq desired _
  have hinside : ∀ shardIndex < shardCount, min shardIndex (shardCount - 1) = shardIndex := by
    intro shardIndex hlt
    omega
  refine ⟨h.applied, h.unsubscribes_first, ?_, h.nodup, ?_, ?_, ?_, ?_, ?_, ?_⟩
  · rw [max_comm]
    exact h.fits
  · have hpaced := h.paced
    rw [← h.plan_eq] at hpaced
    exact hpaced
  · intro assetId
    rw [← Std.TreeSet.mem_toList, ← exists_mem_dealt_iff (show 0 < shardCount by omega)]
    refine exists_congr fun shardIndex => and_congr_right fun hlt => ?_
    rw [hassigned, hinside shardIndex hlt]
  · intro shardIndex hlt other hother hne assetId hmem hmem'
    rw [hassigned, hinside _ hlt] at hmem
    rw [hassigned, hinside _ hother] at hmem'
    exact hne (dealt_disjoint (nodup_toList desired) hmem hmem')
  · intro shardIndex
    rw [hassigned]
    exact nodup_dealt (nodup_toList desired) _ _
  · intro shardIndex hge
    rw [hassigned, hassigned]
    congr 1
    omega
  · intro shardIndex other
    rw [hassigned, hassigned]
    exact dealt_length_le (by omega) (by omega) desired.toList

end Rtt.SubscriptionPlan
