import Rtt.FillExposure
import Rtt.StrategyRuntime

namespace Rtt.InventoryUnits

open Rtt.Quote
open Rtt.MachineWord
open Rtt.Decimal
open Rtt.StrategyContract
open Rtt.StrategyRuntime

section RoundTrip

/-- The numeral that the trimmed formatter prints. -/
def trimmedUnits (units : Nat) : Numeral :=
  (fixedPoint 6 units).trimZeros (whole_fixedPoint_ne_nil 6 units)

theorem scaled_trimmedUnits (units : Nat) : (trimmedUnits units).scaled 6 = units :=
  scaled_trimmedFixedPoint (by omega) units

theorem places_trimmedUnits_length_le (units : Nat) :
    (trimmedUnits units).places.length ≤ 6 :=
  places_trimmedFixedPoint_length_le (by omega) units

theorem formatUnitsTrimmed_eq (units : Nat) :
    formatUnitsTrimmed units = (trimmedUnits units).render := by
  have htext : (formatUnits units).toList = (fixedPoint 6 units).text := String.toList_ofList
  have htrim := Numeral.text_trimZeros _ (whole_fixedPoint_ne_nil 6 units) rfl
  have hne : (trimmedUnits units).text ≠ [] :=
    Numeral.text_ne_nil (whole_fixedPoint_ne_nil 6 units)
  simp only [List.rdropWhile, List.reverse_reverse] at htrim
  simp only [formatUnitsTrimmed, htext]
  rw [if_neg]
  · rw [htrim]
    rfl
  · intro hnil
    rw [hnil, List.reverse_nil] at htrim
    exact hne htrim.symm

theorem parseUnits_formatUnits {units : Nat} (hfits : units < wordSize) :
    parseUnits (formatUnits units) = units := by
  have hscaled : (fixedPoint 6 units).scaled 6 = units := scaled_fixedPoint (by omega) units
  have hparse := FillExposure.parseUnits_render (places_fixedPoint_length (by omega) units).le
    (hscaled.symm ▸ hfits)
  exact hparse.trans hscaled

theorem parseUnits_formatUnitsTrimmed {units : Nat} (hfits : units < wordSize) :
    parseUnits (formatUnitsTrimmed units) = units := by
  have hscaled := scaled_trimmedUnits units
  have hparse := FillExposure.parseUnits_render (places_trimmedUnits_length_le units)
    (hscaled.symm ▸ hfits)
  rw [formatUnitsTrimmed_eq]
  exact hparse.trans hscaled

theorem parseUnits_zero : parseUnits "0" = 0 := by decide +kernel

end RoundTrip

section Key

theorem toList_inventoryKey (assetId : String) (side : Side) :
    (inventoryKey assetId side).toList =
      assetId.toList ++ ':' :: (sideDebugName side).toList := by
  simp [inventoryKey]

theorem inventoryKey_inj {assetId assetId' : String} {side side' : Side} :
    inventoryKey assetId side = inventoryKey assetId' side' ↔
      assetId = assetId' ∧ side = side' := by
  constructor
  · intro h
    have hlist := congrArg String.toList h
    rw [toList_inventoryKey, toList_inventoryKey] at hlist
    have hside : side = side' := by
      have hlast := congrArg List.getLast? hlist
      rw [List.getLast?_append_of_ne_nil _ (by simp), List.getLast?_append_of_ne_nil _ (by simp)]
        at hlast
      cases side <;> cases side' <;> first | rfl | exact absurd hlast (by decide)
    subst hside
    exact ⟨String.toList_injective (List.append_cancel_right hlist), rfl⟩
  · rintro ⟨rfl, rfl⟩
    rfl

end Key

/-- An exposure of the executor in micro-units, each below `2 ^ 64`. -/
structure UnitDelta where
  assetId : String
  side : Side
  filledUnits : Nat
  notionalUnits : Nat
  observedAtMs : Nat
  filled_lt : filledUnits < wordSize
  notional_lt : notionalUnits < wordSize

namespace UnitDelta

/-- The delta with both amounts as the executor formats them. -/
def inventoryDelta (delta : UnitDelta) : InventoryDelta :=
  { assetId := delta.assetId
    side := delta.side
    filledSizeDelta := OrderManager.formatUnits delta.filledUnits
    notionalDelta := OrderManager.formatUnits delta.notionalUnits
    observedAtMs := delta.observedAtMs }

def On (assetId : String) (side : Side) (delta : UnitDelta) : Prop :=
  assetId = delta.assetId ∧ side = delta.side

instance (assetId : String) (side : Side) (delta : UnitDelta) :
    Decidable (delta.On assetId side) :=
  inferInstanceAs (Decidable (_ ∧ _))

theorem inventoryKey_eq_iff {assetId : String} {side : Side} {delta : UnitDelta} :
    inventoryKey delta.assetId delta.side = inventoryKey assetId side ↔
      delta.On assetId side := by
  rw [eq_comm, inventoryKey_inj]
  rfl

end UnitDelta

/-- What the deltas of one position add up to. -/
def total (units : UnitDelta → Nat) (assetId : String) (side : Side)
    (deltas : List UnitDelta) : Nat :=
  ((deltas.filter fun delta => delta.On assetId side).map units).sum

theorem total_concat (units : UnitDelta → Nat) (assetId : String) (side : Side)
    (deltas : List UnitDelta) (delta : UnitDelta) :
    total units assetId side (deltas ++ [delta]) =
      if delta.On assetId side then total units assetId side deltas + units delta
      else total units assetId side deltas := by
  simp only [total, List.filter_append, List.map_append, List.sum_append]
  split <;> simp [*]

theorem total_perm {deltas deltas' : List UnitDelta} (hperm : deltas.Perm deltas')
    (units : UnitDelta → Nat) (assetId : String) (side : Side) :
    total units assetId side deltas = total units assetId side deltas' :=
  ((hperm.filter _).map _).sum_eq

section Accounts

/-- What the position of an asset and a side owes to the deltas so far. -/
structure Accounts (deltas : List UnitDelta) (assetId : String) (side : Side)
    (position : InventoryPosition) : Prop where
  assetId_eq : position.assetId = assetId
  side_eq : position.side = side
  filled : parseUnits position.filledSize =
    min (total UnitDelta.filledUnits assetId side deltas) wordMax
  notional : parseUnits position.netNotional =
    min (total UnitDelta.notionalUnits assetId side deltas) wordMax

theorem Accounts.perm {deltas deltas' : List UnitDelta} (hperm : deltas.Perm deltas')
    {assetId : String} {side : Side} {position : InventoryPosition}
    (h : Accounts deltas assetId side position) : Accounts deltas' assetId side position := by
  obtain ⟨hasset, hside, hfilled, hnotional⟩ := h
  refine ⟨hasset, hside, ?_, ?_⟩
  · rw [hfilled, total_perm hperm]
  · rw [hnotional, total_perm hperm]

theorem min_saturatingAdd (a b : Nat) :
    saturatingAdd (min a wordMax) b = min (a + b) wordMax := by
  simp only [saturatingAdd]
  omega

theorem saturatingAdd_lt (a b : Nat) : saturatingAdd a b < wordSize := by
  simp only [saturatingAdd, wordMax, wordSize]
  omega

theorem parseUnits_saturated {stored added : String} {counted units : Nat}
    (hstored : parseUnits stored = min counted wordMax) (hadded : parseUnits added = units) :
    parseUnits (formatUnitsTrimmed (saturatingAdd (parseUnits stored) (parseUnits added))) =
      min (counted + units) wordMax := by
  rw [parseUnits_formatUnitsTrimmed (saturatingAdd_lt _ _), hstored, hadded, min_saturatingAdd]

/-- The entry that a delta starts from. -/
def entryFor (store : InventoryStore) (delta : InventoryDelta) : InventoryPosition :=
  store.positions[inventoryKey delta.assetId delta.side]?.getD
    { assetId := delta.assetId
      side := delta.side
      filledSize := "0"
      netNotional := "0"
      updatedAtMs := delta.observedAtMs }

theorem positions_applyDelta (store : InventoryStore) (delta : InventoryDelta) (key : String) :
    (store.applyDelta delta).positions[key]? =
      if inventoryKey delta.assetId delta.side = key then
        some
          { entryFor store delta with
            filledSize := formatUnitsTrimmed (saturatingAdd
              (parseUnits (entryFor store delta).filledSize) (parseUnits delta.filledSizeDelta))
            netNotional := formatUnitsTrimmed (saturatingAdd
              (parseUnits (entryFor store delta).netNotional) (parseUnits delta.notionalDelta))
            updatedAtMs := delta.observedAtMs }
      else store.positions[key]? := by
  simp only [InventoryStore.applyDelta, Std.TreeMap.getElem?_insert, compare_eq_iff_eq]
  rfl

def applied (deltas : List UnitDelta) : InventoryStore :=
  (deltas.map UnitDelta.inventoryDelta).foldl InventoryStore.applyDelta { positions := ∅ }

theorem applied_concat (deltas : List UnitDelta) (delta : UnitDelta) :
    applied (deltas ++ [delta]) = (applied deltas).applyDelta delta.inventoryDelta := by
  simp [applied]

theorem total_eq_zero {deltas : List UnitDelta} {assetId : String} {side : Side}
    (hnone : ∀ delta ∈ deltas, ¬ delta.On assetId side) (units : UnitDelta → Nat) :
    total units assetId side deltas = 0 := by
  have hfilter : (deltas.filter fun delta => delta.On assetId side) = [] :=
    List.filter_eq_nil_iff.mpr fun delta hdelta => by simpa using hnone delta hdelta
  rw [total, hfilter]
  rfl

/-- A store that has counted the deltas. -/
structure Counted (deltas : List UnitDelta) (store : InventoryStore) : Prop where
  absent_iff : ∀ assetId side, store.positions[inventoryKey assetId side]? = none ↔
    ∀ delta ∈ deltas, ¬ delta.On assetId side
  accounts : ∀ assetId side position,
    store.positions[inventoryKey assetId side]? = some position →
      Accounts deltas assetId side position

theorem Counted.accounts_entryFor {deltas : List UnitDelta} {store : InventoryStore}
    (h : Counted deltas store) (delta : UnitDelta) :
    Accounts deltas delta.assetId delta.side (entryFor store delta.inventoryDelta) := by
  simp only [entryFor, UnitDelta.inventoryDelta]
  cases hstored : store.positions[inventoryKey delta.assetId delta.side]? with
  | some position => exact h.accounts _ _ _ hstored
  | none =>
      have hzero := total_eq_zero ((h.absent_iff _ _).mp hstored)
      refine ⟨rfl, rfl, ?_, ?_⟩
      · rw [hzero]
        exact parseUnits_zero
      · rw [hzero]
        exact parseUnits_zero

theorem Counted.applyDelta {deltas : List UnitDelta} {store : InventoryStore}
    (h : Counted deltas store) (delta : UnitDelta) :
    Counted (deltas ++ [delta]) (store.applyDelta delta.inventoryDelta) := by
  constructor
  · intro assetId side
    rw [positions_applyDelta]
    simp only [List.mem_append, List.mem_singleton, or_imp, forall_and, forall_eq]
    rw [← h.absent_iff, ← UnitDelta.inventoryKey_eq_iff]
    split
    · rename_i hkey
      simp only [UnitDelta.inventoryDelta] at hkey
      simp [hkey]
    · rename_i hkey
      exact ⟨fun hnone => ⟨hnone, hkey⟩, And.left⟩
  · intro assetId side position hposition
    rw [positions_applyDelta] at hposition
    split at hposition
    · rename_i hkey
      have hon : delta.On assetId side := UnitDelta.inventoryKey_eq_iff.mp hkey
      obtain ⟨rfl, rfl⟩ := hon
      obtain ⟨hasset, hside, hfilled, hnotional⟩ := h.accounts_entryFor delta
      obtain rfl := Option.some.inj hposition
      have hfilledDelta : parseUnits delta.inventoryDelta.filledSizeDelta = delta.filledUnits :=
        parseUnits_formatUnits delta.filled_lt
      have hnotionalDelta : parseUnits delta.inventoryDelta.notionalDelta = delta.notionalUnits :=
        parseUnits_formatUnits delta.notional_lt
      refine ⟨hasset, hside, ?_, ?_⟩
      · rw [total_concat, if_pos ⟨rfl, rfl⟩]
        dsimp only
        exact parseUnits_saturated hfilled hfilledDelta
      · rw [total_concat, if_pos ⟨rfl, rfl⟩]
        dsimp only
        exact parseUnits_saturated hnotional hnotionalDelta
    · rename_i hkey
      have hoff : ¬ delta.On assetId side := fun hon =>
        hkey (UnitDelta.inventoryKey_eq_iff.mpr hon)
      obtain ⟨hasset, hside, hfilled, hnotional⟩ := h.accounts _ _ _ hposition
      refine ⟨hasset, hside, ?_, ?_⟩
      · rw [total_concat, if_neg hoff, hfilled]
      · rw [total_concat, if_neg hoff, hnotional]

theorem counted_applied (deltas : List UnitDelta) : Counted deltas (applied deltas) := by
  induction deltas using List.reverseRecOn with
  | nil => exact ⟨by simp [applied], by simp [applied]⟩
  | append_singleton deltas delta ih =>
      rw [applied_concat]
      exact ih.applyDelta delta

end Accounts

theorem inventory_accounts (deltas : List UnitDelta) :
    (∀ ordered, ordered.Perm deltas → ∀ assetId side,
      ((applied ordered).positions[inventoryKey assetId side]? = none ↔
          ∀ delta ∈ deltas, ¬ delta.On assetId side) ∧
        ∀ position, (applied ordered).positions[inventoryKey assetId side]? = some position →
          position.assetId = assetId ∧ position.side = side ∧
            parseUnits position.filledSize =
              min (2 ^ 64 - 1) (total UnitDelta.filledUnits assetId side deltas) ∧
            parseUnits position.netNotional =
              min (2 ^ 64 - 1) (total UnitDelta.notionalUnits assetId side deltas)) ∧
      (∀ (store : InventoryStore) (delta : UnitDelta) assetId side, ¬ delta.On assetId side →
        (store.applyDelta delta.inventoryDelta).positions[inventoryKey assetId side]? =
          store.positions[inventoryKey assetId side]?) ∧
      ∀ units < 2 ^ 64, parseUnits (formatUnits units) = units ∧
        parseUnits (formatUnitsTrimmed units) = units := by
  refine ⟨?_, ?_, fun units hfits =>
    ⟨parseUnits_formatUnits hfits, parseUnits_formatUnitsTrimmed hfits⟩⟩
  · intro ordered hperm assetId side
    have hcounted := counted_applied ordered
    constructor
    · rw [hcounted.absent_iff]
      simp only [hperm.mem_iff]
    · intro position hposition
      obtain ⟨hasset, hside, hfilled, hnotional⟩ :=
        (hcounted.accounts _ _ _ hposition).perm hperm
      rw [min_comm] at hfilled hnotional
      exact ⟨hasset, hside, hfilled, hnotional⟩
  · intro store delta assetId side hoff
    rw [positions_applyDelta]
    exact if_neg fun hkey => hoff (UnitDelta.inventoryKey_eq_iff.mp hkey)

example :
    let fill (filledUnits observedAtMs : Nat) (h : filledUnits < wordSize) : UnitDelta :=
      { assetId := "token_abc", side := .buy, filledUnits, notionalUnits := 440000, observedAtMs
        filled_lt := h, notional_lt := by decide }
    let store := applied [fill 1500000 2000 (by decide), fill wordMax 2001 (by decide)]
    store.positions["token_abc:Buy"]? = some
      { assetId := "token_abc", side := .buy, filledSize := "18446744073709.551615"
        netNotional := "0.88", updatedAtMs := 2001 } := by decide +kernel

end Rtt.InventoryUnits
