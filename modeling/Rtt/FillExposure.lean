import Rtt.Machine
import Rtt.OrderManager

namespace Rtt.FillExposure

open Rtt.Quote
open Rtt.OrderState
open Rtt.KeyIndex
open Rtt.MachineWord
open Rtt.Decimal
open Rtt.OrderManager
open Rtt.OrderManager.LocalOrderManager
open Rtt.Machine

structure Call where
  desired : DesiredQuotes
  working : List WorkingQuote
  snapshot : ExchangeSyncSnapshot
  nowMs : Nat

/-- The manager keeps what it has counted from call to call. -/
def callStep (manager : LocalOrderManager) (call : Call) :
    LocalOrderManager × ReconciliationOutcome :=
  manager.reconcileWithExchange call.desired call.working call.snapshot call.nowMs

/-- All fills of the snapshots, repetitions included. -/
def reportedFills (calls : List Call) : List ExchangeFill :=
  calls.flatMap fun call => call.snapshot.fills

/-- All exposure deltas that the calls returned. -/
def returnedDeltas (policy : ReconciliationPolicy) (calls : List Call) : List ExposureDelta :=
  (outputs callStep (LocalOrderManager.new policy) calls).flatMap
    ReconciliationOutcome.exposureDeltas

theorem collectDeltas_snd (seen : Std.TreeSet String) (fills : List ExchangeFill) :
    (collectDeltas seen fills).2 =
      ((firsts ExchangeFill.fillId fills).filter fun fill =>
        !seen.contains fill.fillId).map exposureDelta := by
  induction fills generalizing seen with
  | nil => rfl
  | cons fill fills ih =>
      simp only [collectDeltas, firsts, List.filter_cons, List.filter_filter]
      cases hseen : seen.contains fill.fillId with
      | true =>
          simp only [if_true, ih, Bool.not_true, Bool.false_eq_true, if_false]
          congr 2
          funext other
          by_cases hsame : other.fillId = fill.fillId
          · simp [hsame, hseen]
          · simp [hsame]
      | false =>
          simp only [Bool.false_eq_true, if_false, ih, Bool.not_false, if_true, List.map_cons]
          congr 3
          funext other
          rw [Std.TreeSet.contains_insert]
          by_cases hsame : other.fillId = fill.fillId
          · simp [hsame]
          · simp [hsame, Ne.symm hsame]

theorem mem_collectDeltas_fst (seen : Std.TreeSet String) (fills : List ExchangeFill)
    (fillId : String) :
    (collectDeltas seen fills).1.contains fillId = true ↔
      seen.contains fillId = true ∨ fillId ∈ fills.map ExchangeFill.fillId := by
  induction fills generalizing seen with
  | nil => simp [collectDeltas]
  | cons fill fills ih =>
      simp only [collectDeltas]
      cases hseen : seen.contains fill.fillId with
      | true =>
          simp only [if_true, ih, List.map_cons, List.mem_cons]
          constructor
          · tauto
          · rintro (h | rfl | h)
            · exact Or.inl h
            · exact Or.inl hseen
            · exact Or.inr h
      | false =>
          simp only [Bool.false_eq_true, if_false, ih, List.map_cons, List.mem_cons,
            Std.TreeSet.contains_insert, Bool.or_eq_true, beq_iff_eq, compare_eq_iff_eq]
          rw [eq_comm]
          tauto

theorem fills_of_callStep (manager : LocalOrderManager) (call : Call) :
    (callStep manager call).1.seenFillIds =
        (collectDeltas manager.seenFillIds call.snapshot.fills).1 ∧
      (callStep manager call).2.exposureDeltas =
        (collectDeltas manager.seenFillIds call.snapshot.fills).2 := by
  simp only [callStep, LocalOrderManager.reconcileWithExchange,
    LocalOrderManager.collectNewExposureDeltas]
  cases call.snapshot.resyncPending <;> exact ⟨rfl, rfl⟩

theorem returnedDeltas_eq (policy : ReconciliationPolicy) (calls : List Call) :
    returnedDeltas policy calls =
      (firsts ExchangeFill.fillId (reportedFills calls)).map exposureDelta := by
  have hrun := run_induction callStep
    (motive := fun read manager out =>
      (∀ fillId, manager.seenFillIds.contains fillId = true ↔
        fillId ∈ (reportedFills read).map ExchangeFill.fillId) ∧
      out.flatMap ReconciliationOutcome.exposureDeltas =
        (firsts ExchangeFill.fillId (reportedFills read)).map exposureDelta)
    ⟨by simp [LocalOrderManager.new, reportedFills], rfl⟩ ?_ calls
    (along_true (LocalOrderManager.new policy) calls)
  · exact hrun.2
  · rintro read manager out call ⟨hseen, hdeltas⟩ -
    obtain ⟨hids, hnew⟩ := fills_of_callStep manager call
    have hsplit : reportedFills (read ++ [call]) = reportedFills read ++ call.snapshot.fills := by
      simp [reportedFills]
    constructor
    · intro fillId
      rw [hids, mem_collectDeltas_fst, hseen, hsplit, List.map_append, List.mem_append]
    · rw [List.flatMap_append, hdeltas, List.flatMap_singleton, hnew, collectDeltas_snd, hsplit,
        firsts_append, List.map_append]
      congr 3
      funext fill
      rw [Bool.eq_iff_iff, Bool.not_eq_true', ← Bool.not_eq_true, hseen, decide_eq_true_eq]

theorem ofDigitChars_whole_lt {d : Numeral} (hfits : d.scaled 6 < wordSize) :
    Nat.ofDigitChars 10 d.whole 0 < wordSize := by
  have hle : Nat.ofDigitChars 10 d.whole 0 ≤ d.scaled 6 := by
    simp only [Numeral.scaled]
    omega
  exact lt_of_le_of_lt hle hfits

theorem parseU64_whole {d : Numeral} (hfits : d.scaled 6 < wordSize) :
    (parseU64 d.whole).getD 0 = Nat.ofDigitChars 10 d.whole 0 := by
  by_cases hwhole : d.whole = []
  · rw [hwhole]
    rfl
  · rw [parseU64_digits d.whole_digits hwhole (ofDigitChars_whole_lt hfits), Option.getD_some]

theorem parseU64_places {d : Numeral} (hplaces : d.places.length ≤ 6)
    (hfits : d.scaled 6 < wordSize) :
    ((truncateUtf8 6 d.places).bind fun kept => parseU64 (zeroExtend 6 kept)).getD 0 =
      Nat.ofDigitChars 10 (d.places ++ List.replicate (6 - d.places.length) '0') 0 := by
  have hdigits : ∀ c ∈ d.places ++ List.replicate (6 - d.places.length) '0', c.isDigit := by
    intro c hc
    rcases List.mem_append.mp hc with hplace | hzero
    · exact d.places_digits c hplace
    · rw [List.eq_of_mem_replicate hzero]
      decide
  have hne : d.places ++ List.replicate (6 - d.places.length) '0' ≠ [] := by
    intro hnil
    have hlen := congrArg List.length hnil
    simp only [List.length_append, List.length_replicate, List.length_nil] at hlen
    omega
  have hlt : Nat.ofDigitChars 10 (d.places ++ List.replicate (6 - d.places.length) '0') 0 <
      wordSize := by
    refine lt_of_le_of_lt ?_ hfits
    simp only [Numeral.scaled]
    omega
  rw [truncateUtf8_digits d.places_digits hplaces, Option.bind_some,
    zeroExtend_digits d.places_digits, parseU64_digits hdigits hne hlt, Option.getD_some]

theorem parseUnits_render {d : Numeral} (hplaces : d.places.length ≤ 6)
    (hfits : d.scaled 6 < wordSize) : parseUnits d.render = d.scaled 6 := by
  have hsplit : d.render.toList.splitOn '.' = d.whole :: d.fraction.toList := by
    rw [Numeral.render, String.toList_ofList, splitOn_text]
  have hfrac : (d.whole :: d.fraction.toList)[1]?.getD [] = d.places := by
    simp only [Numeral.places]
    cases d.fraction <;> rfl
  have hsum : Nat.ofDigitChars 10 d.whole 0 * unitsScale +
      Nat.ofDigitChars 10 (d.places ++ List.replicate (6 - d.places.length) '0') 0 =
        d.scaled 6 := rfl
  simp only [parseUnits, hsplit, List.getElem?_cons_zero, Option.getD_some, hfrac,
    parseU64_whole hfits, parseU64_places hplaces hfits]
  rw [saturatingMul_eq (by omega), saturatingAdd_eq (by omega), hsum]

theorem denotes_formatUnits (units : Nat) :
    Denotes (formatUnits units) ((units : ℚ) / 1000000) := by
  refine ⟨fixedPoint 6 units, rfl, ?_⟩
  rw [value_fixedPoint (by omega)]
  norm_num

theorem denotes_exposureDelta {fill : ExchangeFill} {size price : Numeral}
    (hsize : fill.filledSize = size.render) (hprice : fill.price = price.render)
    (hsizePlaces : size.places.length ≤ 6) (hpricePlaces : price.places.length ≤ 6)
    (hsizeFits : size.scaled 6 < wordSize) (hpriceFits : price.scaled 6 < wordSize) :
    Denotes (exposureDelta fill).filledSizeDelta size.value ∧
      Denotes (exposureDelta fill).notionalDelta
        ((price.scaled 6 * size.scaled 6 / 1000000 : Nat) / 1000000) := by
  simp only [exposureDelta, hsize, hprice, parseUnits_render hsizePlaces hsizeFits,
    parseUnits_render hpricePlaces hpriceFits]
  constructor
  · have hvalue : size.value = (size.scaled 6 : ℚ) / 1000000 := by
      rw [size.scaled_eq_value_mul hsizePlaces]
      norm_num
    rw [hvalue]
    exact denotes_formatUnits _
  · exact denotes_formatUnits _

theorem fills_counted_once (policy : ReconciliationPolicy) (calls : List Call) :
    let counted := firsts ExchangeFill.fillId (reportedFills calls)
    returnedDeltas policy calls = counted.map exposureDelta ∧
      (counted.map ExchangeFill.fillId).Nodup ∧
      (∀ fillId, (∃ fill ∈ counted, fill.fillId = fillId) ↔
        ∃ fill ∈ reportedFills calls, fill.fillId = fillId) ∧
      ∀ fill ∈ counted, ∀ size price : Numeral,
        fill.filledSize = size.render → fill.price = price.render →
        size.places.length ≤ 6 → price.places.length ≤ 6 →
        size.scaled 6 < wordSize → price.scaled 6 < wordSize →
          Denotes (exposureDelta fill).filledSizeDelta size.value ∧
            Denotes (exposureDelta fill).notionalDelta
              ((price.scaled 6 * size.scaled 6 / 1000000 : Nat) / 1000000) := by
  intro counted
  refine ⟨returnedDeltas_eq policy calls, nodup_map_firsts _ _,
    fun fillId => exists_mem_firsts_iff, ?_⟩
  intro fill _ size price hsize hprice hsizePlaces hpricePlaces hsizeFits hpriceFits
  exact denotes_exposureDelta hsize hprice hsizePlaces hpricePlaces hsizeFits hpriceFits

def tenAt : ExchangeFill :=
  { fillId := "fill-1", assetId := "token_abc", side := .buy, filledSize := "10", price := "0.44"
    observedAtMs := 2000 }

def fillCall (resyncPending : Bool) : Call :=
  { desired := ⟨[]⟩, working := []
    snapshot := { authoritative := true, resyncPending, fills := [tenAt, tenAt] }, nowMs := 2000 }

def ten : Numeral where
  whole := ['1', '0']
  fraction := none
  whole_digits := by simp
  fraction_digits := by simp
  digits_ne_nil := by decide

def fortyFourCents : Numeral where
  whole := ['0']
  fraction := some ['4', '4']
  whole_digits := zero_digits
  fraction_digits := by simp
  digits_ne_nil := by decide

/-- A fill repeated within and across calls is counted once, as 10 for 4.4. -/
theorem fills_counted_once_tenAt :
    returnedDeltas {} [fillCall true, fillCall false] = [exposureDelta tenAt] ∧
      Denotes (exposureDelta tenAt).filledSizeDelta ten.value ∧
      Denotes (exposureDelta tenAt).notionalDelta ((4400000 : Nat) / 1000000) := by
  have hcounted : firsts ExchangeFill.fillId
      (reportedFills [fillCall true, fillCall false]) = [tenAt] := by decide
  have hall := fills_counted_once {} [fillCall true, fillCall false]
  rw [hcounted] at hall
  exact ⟨hall.1, hall.2.2.2 tenAt (by simp) ten fortyFourCents (by decide) (by decide) (by decide)
    (by decide) (by decide) (by decide)⟩

end Rtt.FillExposure
