import Rtt.SubscriptionPlan

namespace Rtt.ShardStability

open Rtt.ListShares
open Rtt.SubscriptionPlan

/-- The asset is dealt to this shard. -/
def OnShard (desired : Std.TreeSet String) (shardCount shardIndex : Nat) (assetId : String) :
    Prop :=
  ∃ shard ∈ assignSubscriptionShards desired shardCount,
    shard.shardIndex = shardIndex ∧ assetId ∈ shard.assetIds

/-- Every other asset is on the shards it was on. -/
def OthersUnmoved (before after : Std.TreeSet String) (shardCount : Nat) (assetId : String) :
    Prop :=
  ∀ other, other ≠ assetId → ∀ shardIndex,
    OnShard before shardCount shardIndex other ↔ OnShard after shardCount shardIndex other

/-- How many assets come before this one. -/
def rank (desired : Std.TreeSet String) (assetId : String) : Nat :=
  desired.toList.countP (· < assetId)

theorem toList_pairwise_lt (desired : Std.TreeSet String) : desired.toList.Pairwise (· < ·) :=
  Std.TreeSet.ordered_toList.imp fun h => compare_lt_iff_lt.mp h

theorem onShard_iff {desired : Std.TreeSet String} {shardCount shardIndex : Nat}
    {assetId : String} :
    OnShard desired shardCount shardIndex assetId ↔
      assetId ∈ desired ∧ rank desired assetId % max shardCount 1 = shardIndex := by
  have hcount : 0 < max shardCount 1 := by omega
  rw [OnShard, assignSubscriptionShards_eq]
  simp only [List.mem_map, List.mem_range]
  constructor
  · rintro ⟨shard, ⟨index, hindex, rfl⟩, rfl, hmem⟩
    obtain ⟨hdesired, hshare⟩ := (mem_dealt_ascending_iff (toList_pairwise_lt desired)).mp hmem
    exact ⟨Std.TreeSet.mem_toList.mp hdesired, hshare⟩
  · rintro ⟨hdesired, rfl⟩
    refine ⟨_, ⟨_, Nat.mod_lt _ hcount, rfl⟩, rfl, ?_⟩
    exact (mem_dealt_ascending_iff (toList_pairwise_lt desired)).mpr
      ⟨Std.TreeSet.mem_toList.mpr hdesired, rfl⟩

section Larger

variable {smaller larger : Std.TreeSet String} {assetId other : String}

theorem rank_congr (h : ∀ id, id ∈ larger ↔ id ∈ smaller) (other : String) :
    rank larger other = rank smaller other := by
  rw [rank, rank, toList_congr h]

theorem rank_larger (hnew : assetId ∉ smaller)
    (hlarger : ∀ id, id ∈ larger ↔ id = assetId ∨ id ∈ smaller) (other : String) :
    rank larger other = rank smaller other + if assetId < other then 1 else 0 := by
  have hperm : larger.toList.Perm (assetId :: smaller.toList) := by
    rw [List.perm_ext_iff_of_nodup (nodup_toList larger)]
    · intro id
      rw [List.mem_cons, Std.TreeSet.mem_toList, Std.TreeSet.mem_toList, hlarger]
    · refine List.nodup_cons.mpr ⟨?_, nodup_toList smaller⟩
      rwa [Std.TreeSet.mem_toList]
  rw [rank, hperm.countP_eq, List.countP_cons]
  simp only [rank, decide_eq_true_eq]

theorem othersUnmoved_congr {shardCount : Nat} (h : ∀ id, id ∈ larger ↔ id ∈ smaller) :
    OthersUnmoved smaller larger shardCount assetId := by
  intro other _ shardIndex
  rw [onShard_iff, onShard_iff, h, rank_congr h]

theorem othersUnmoved_larger_iff (hnew : assetId ∉ smaller)
    (hlarger : ∀ id, id ∈ larger ↔ id = assetId ∨ id ∈ smaller) (shardCount : Nat) :
    OthersUnmoved smaller larger shardCount assetId ↔
      shardCount ≤ 1 ∨ ∀ other ∈ smaller, other < assetId := by
  have hcount : 0 < max shardCount 1 := by omega
  constructor
  · intro h
    by_contra hnot
    push Not at hnot
    obtain ⟨hmany, other, hother, hbehind⟩ := hnot
    have hne : other ≠ assetId := fun heq => hnew (heq ▸ hother)
    have hless : assetId < other := lt_of_le_of_ne hbehind hne.symm
    have hmoved := (h other hne _).mp (onShard_iff.mpr ⟨hother, rfl⟩)
    rw [onShard_iff, rank_larger hnew hlarger, if_pos hless, succ_mod_eq_iff hcount] at hmoved
    omega
  · intro h other hne shardIndex
    rw [onShard_iff, onShard_iff, hlarger, or_iff_right hne]
    refine and_congr_right fun hother => ?_
    rcases h with hsingle | hlast
    · have hone : max shardCount 1 = 1 := by omega
      rw [hone, Nat.mod_one, Nat.mod_one]
    · rw [rank_larger hnew hlarger, if_neg (hlast other hother).not_gt, Nat.add_zero]

end Larger

theorem othersUnmoved_comm {before after : Std.TreeSet String} {shardCount : Nat}
    {assetId : String} :
    OthersUnmoved before after shardCount assetId ↔
      OthersUnmoved after before shardCount assetId := by
  constructor
  · exact fun h other hne shardIndex => (h other hne shardIndex).symm
  · exact fun h other hne shardIndex => (h other hne shardIndex).symm

section OneAsset

variable (desired : Std.TreeSet String) (shardCount : Nat) (assetId : String)

theorem mem_insert_iff {id : String} :
    id ∈ desired.insert assetId ↔ id = assetId ∨ id ∈ desired := by
  rw [Std.TreeSet.mem_insert, compare_eq_iff_eq, eq_comm]

theorem mem_erase_iff {id : String} :
    id ∈ desired.erase assetId ↔ id ≠ assetId ∧ id ∈ desired := by
  rw [Std.TreeSet.mem_erase, ne_eq, compare_eq_iff_eq, eq_comm]

theorem insert_stable_iff :
    OthersUnmoved desired (desired.insert assetId) shardCount assetId ↔
      shardCount ≤ 1 ∨ assetId ∈ desired ∨ ∀ other ∈ desired, other < assetId := by
  by_cases hmem : assetId ∈ desired
  · refine iff_of_true (othersUnmoved_congr ?_) (Or.inr (Or.inl hmem))
    intro id
    rw [mem_insert_iff]
    constructor
    · rintro (rfl | hid)
      · exact hmem
      · exact hid
    · exact Or.inr
  · rw [othersUnmoved_larger_iff hmem fun id => mem_insert_iff desired assetId]
    simp only [hmem, false_or]

theorem erase_stable_iff :
    OthersUnmoved desired (desired.erase assetId) shardCount assetId ↔
      shardCount ≤ 1 ∨ assetId ∉ desired ∨ ∀ other ∈ desired, other ≤ assetId := by
  rw [othersUnmoved_comm]
  by_cases hmem : assetId ∈ desired
  · have hgone : assetId ∉ desired.erase assetId := by
      rw [mem_erase_iff]
      exact fun h => h.1 rfl
    rw [othersUnmoved_larger_iff hgone]
    · have hlast : (∀ other ∈ desired.erase assetId, other < assetId) ↔
          ∀ other ∈ desired, other ≤ assetId := by
        constructor
        · intro h other hother
          rcases eq_or_ne other assetId with rfl | hne
          · exact le_refl other
          · exact (h other ((mem_erase_iff ..).mpr ⟨hne, hother⟩)).le
        · intro h other hother
          obtain ⟨hne, hother⟩ := (mem_erase_iff ..).mp hother
          exact lt_of_le_of_ne (h other hother) hne
      simp only [hlast, hmem, not_true_eq_false, false_or]
    · intro id
      rw [mem_erase_iff]
      constructor
      · intro hid
        rcases eq_or_ne id assetId with heq | hne
        · exact Or.inl heq
        · exact Or.inr ⟨hne, hid⟩
      · rintro (rfl | ⟨-, hid⟩)
        · exact hmem
        · exact hid
  · refine iff_of_true (othersUnmoved_congr ?_) (Or.inr (Or.inl hmem))
    intro id
    rw [mem_erase_iff]
    constructor
    · intro hid
      exact ⟨fun heq => hmem (heq ▸ hid), hid⟩
    · exact And.right

/-- Adding or removing an asset leaves the others on their shards exactly when it
changes nothing, when there is one shard, or when no other asset comes after it. -/
theorem shards_stable_iff :
    (OthersUnmoved desired (desired.insert assetId) shardCount assetId ↔
      shardCount ≤ 1 ∨ assetId ∈ desired ∨ ∀ other ∈ desired, other < assetId) ∧
    (OthersUnmoved desired (desired.erase assetId) shardCount assetId ↔
      shardCount ≤ 1 ∨ assetId ∉ desired ∨ ∀ other ∈ desired, other ≤ assetId) :=
  ⟨insert_stable_iff desired shardCount assetId, erase_stable_iff desired shardCount assetId⟩

end OneAsset

def fourAssets : Std.TreeSet String := Std.TreeSet.ofList ["a1", "a2", "a3", "a4"]

/-- One asset in front of four moves each of them to the other shard. -/
theorem new_first_asset_moves_the_rest :
    assignSubscriptionShards fourAssets 2 = [⟨0, ["a1", "a3"]⟩, ⟨1, ["a2", "a4"]⟩] ∧
      assignSubscriptionShards (fourAssets.insert "a0") 2 =
        [⟨0, ["a0", "a2", "a4"]⟩, ⟨1, ["a1", "a3"]⟩] ∧
      ¬ OthersUnmoved fourAssets (fourAssets.insert "a0") 2 "a0" := by
  have hbefore : assignSubscriptionShards fourAssets 2 =
      [⟨0, ["a1", "a3"]⟩, ⟨1, ["a2", "a4"]⟩] := by
    decide +kernel
  have hafter : assignSubscriptionShards (fourAssets.insert "a0") 2 =
      [⟨0, ["a0", "a2", "a4"]⟩, ⟨1, ["a1", "a3"]⟩] := by
    decide +kernel
  refine ⟨hbefore, hafter, ?_⟩
  intro h
  have hmoved := (h "a1" (by decide) 0).mp
  simp [OnShard, hbefore, hafter] at hmoved

end Rtt.ShardStability
