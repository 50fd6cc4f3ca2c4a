import Rtt.OrderBook
import Rtt.DecimalOrder
import Rtt.HotState

namespace Rtt.TopOfBook

open Rtt.Quote
open Rtt.MachineWord
open Rtt.Decimal
open Rtt.DecimalOrder
open Rtt.PublicEvent
open Rtt.OrderBook
open Rtt.HotState

/-- A price below one with one to six digits. -/
def IsPrice (price : String) : Prop := IsFraction price ∧ (fractionDigits price).length ≤ 6

instance (price : String) : Decidable (IsPrice price) := inferInstanceAs (Decidable (_ ∧ _ ≤ _))

def priceUnits (price : String) : Nat :=
  Nat.ofDigitChars 10
    (fractionDigits price ++ List.replicate (6 - (fractionDigits price).length) '0') 0

theorem priceUnits_eq {price : String} (h : IsPrice price) :
    (priceUnits price : ℚ) = fractionValue price * 10 ^ 6 :=
  (fractionValue_millionths h.2).symm

theorem priceUnits_lt {price : String} (h : IsPrice price) : priceUnits price < 10 ^ 6 := by
  have hlt := placesValue_lt_one h.1.digits
  have hunits : (priceUnits price : ℚ) < 10 ^ 6 := by
    rw [priceUnits_eq h, fractionValue]
    linarith
  exact_mod_cast hunits

theorem scaledUnits_eq {whole fraction : List Char} {wholeUnits fractionUnits : Nat}
    (hwhole : parseU64 whole = some wholeUnits)
    (hfraction : parseU64 (zeroExtend 6 (fraction.take 6)) = some fractionUnits) :
    scaledUnits whole fraction =
      (checkedMul wholeUnits hotValueScale).bind fun units => checkedAdd units fractionUnits := by
  rw [scaledUnits, hwhole, Option.bind_some, hfraction, Option.bind_some]

theorem not_isWhitespace_price {price : String} (h : IsPrice price) :
    ∀ c ∈ price.toList, isWhitespace c = false := by
  rw [h.1.1]
  intro c hc
  rcases List.mem_cons.mp hc with rfl | hc
  · decide
  · rcases List.mem_cons.mp hc with rfl | hc
    · decide
    · exact isWhitespace_of_isDigit (h.1.digits c hc)

theorem splitOn_price {price : String} (h : IsPrice price) :
    price.toList.splitOn '.' = [['0'], fractionDigits price] := by
  have htext := splitOn_text (numeral price h.1)
  rwa [show (numeral price h.1).text = price.toList from h.1.1.symm] at htext

theorem priceUnits_lt_wordSize {price : String} (h : IsPrice price) :
    priceUnits price < wordSize := by
  have hsmall := priceUnits_lt h
  simp only [wordSize]
  omega

theorem parseU64_fractionDigits {price : String} (h : IsPrice price) :
    parseU64 (zeroExtend 6 ((fractionDigits price).take 6)) = some (priceUnits price) := by
  have hpadded : ∀ c ∈ fractionDigits price ++
      List.replicate (6 - (fractionDigits price).length) '0', c.isDigit := by
    intro c hc
    rcases List.mem_append.mp hc with hc | hc
    · exact h.1.digits c hc
    · rw [List.eq_of_mem_replicate hc]
      decide
  rw [List.take_of_length_le h.2, zeroExtend_digits h.1.digits]
  apply parseU64_digits hpadded
  · simp [h.1.2.1]
  · exact priceUnits_lt_wordSize h

theorem parseScaled_price {price : String} (h : IsPrice price) :
    parseScaled price = some (priceUnits price) := by
  have hwhole : parseU64 ['0'] = some 0 := by
    simp [parseU64, stripPlus, wordSize, Nat.ofDigitChars_cons]
  have hmul : checkedMul 0 hotValueScale = some 0 := by simp [checkedMul, wordSize]
  have hadd : checkedAdd 0 (priceUnits price) = some (priceUnits price) := by
    rw [checkedAdd, Nat.zero_add, if_pos (priceUnits_lt_wordSize h)]
  have hne : ¬ (price.toList = [] ∨ price.toList.head? = some '-') := by
    rw [h.1.1]
    simp
  rw [parseScaled, trim_eq_self (not_isWhitespace_price h), splitOn_price h, if_neg hne,
    scaledParts, scaledUnits_eq hwhole (parseU64_fractionDigits h), hmul, Option.bind_some, hadd]

theorem noWorse_priceUnits_iff {side : Side} {p q : String} (hp : IsPrice p) (hq : IsPrice q)
    (hspelled : fractionValue p = fractionValue q → p = q) :
    NoWorse side (priceUnits p) (priceUnits q) ↔ NoWorse side p q := by
  have hle : ∀ {r s : String}, IsPrice r → IsPrice s →
      (priceUnits r ≤ priceUnits s ↔ fractionValue r ≤ fractionValue s) := by
    intro r s hr hs
    rw [← @Nat.cast_le ℚ, priceUnits_eq hr, priceUnits_eq hs]
    constructor
    · intro h
      linarith
    · intro h
      linarith
  cases side with
  | buy => exact (hle hq hp).trans (fractionValue_le_iff hq.1 hp.1 fun h => (hspelled h.symm).symm)
  | sell => exact (hle hp hq).trans (fractionValue_le_iff hp.1 hq.1 hspelled)

def levelText (level : Option HotBookLevel) : Option PriceLevel :=
  level.map bookLevelToSnapshotLevel

/-- The numbers of a level are those that its texts read as. -/
structure LevelParsed (level : HotBookLevel) : Prop where
  price : parseScaled level.price.exact = some level.price.units
  size : parseScaled level.size.exact = some level.size.units

variable {registered : Option RegisteredMarket} {price size : String} {level : HotBookLevel}

theorem makeBookLevel_eq_some (h : makeBookLevel price size registered = some level) :
    level.price.exact = price ∧ level.size.exact = size ∧ LevelParsed level := by
  simp only [makeBookLevel, hotValue, Option.bind_eq_bind, Option.bind_eq_some_iff,
    Option.map_eq_some_iff] at h
  obtain ⟨_, ⟨priceUnits, hprice, rfl⟩, _, ⟨sizeUnits, hsize, rfl⟩, hlevel⟩ := h
  obtain rfl := Option.some.inj hlevel
  exact ⟨rfl, rfl, hprice, hsize⟩

theorem units_of_makeBookLevel (hprice : IsPrice price)
    (h : makeBookLevel price size registered = some level) :
    level.price.units = priceUnits price := by
  obtain ⟨hexact, -, hparsed⟩ := makeBookLevel_eq_some h
  have hunits := hparsed.price
  rw [hexact, parseScaled_price hprice] at hunits
  exact (Option.some.inj hunits).symm

theorem exists_makeBookLevel (registered : Option RegisteredMarket) {priceUnits sizeUnits : Nat}
    (hprice : parseScaled price = some priceUnits) (hsize : parseScaled size = some sizeUnits) :
    ∃ level, makeBookLevel price size registered = some level := by
  simp [makeBookLevel, hotValue, hprice, hsize]

theorem makeBookLevel_eq_none_iff (hprice : parseScaled price ≠ none) :
    makeBookLevel price size registered = none ↔ parseScaled size = none := by
  obtain ⟨priceUnits, hprice⟩ := Option.ne_none_iff_exists'.mp hprice
  cases hsize : parseScaled size <;> simp [makeBookLevel, hotValue, hprice, hsize]

theorem levelText_makeBookLevel (hprice : parseScaled price ≠ none)
    (hsize : parseScaled size ≠ none) :
    levelText (makeBookLevel price size registered) = some ⟨price, size⟩ := by
  obtain ⟨_, hprice⟩ := Option.ne_none_iff_exists'.mp hprice
  obtain ⟨_, hsize⟩ := Option.ne_none_iff_exists'.mp hsize
  obtain ⟨level, hlevel⟩ := exists_makeBookLevel registered hprice hsize
  obtain ⟨rfl, rfl, -⟩ := makeBookLevel_eq_some hlevel
  rw [hlevel]
  rfl

theorem noWorse_of_replaces {side : Side} {current candidate : HotBookLevel}
    (h : replaces side current candidate = true) :
    NoWorse side candidate.price.units current.price.units := by
  cases side with
  | buy => exact (of_decide_eq_true h).le
  | sell => exact (of_decide_eq_true h).le

theorem noWorse_of_not_replaces {side : Side} {current candidate : HotBookLevel}
    (h : ¬ replaces side current candidate = true) :
    NoWorse side current.price.units candidate.price.units := by
  cases side with
  | buy => exact not_lt.mp fun hlt => h (decide_eq_true hlt)
  | sell => exact not_lt.mp fun hlt => h (decide_eq_true hlt)

theorem foldl_replaces {side : Side} (levels : List HotBookLevel) (best : HotBookLevel) :
    let result := levels.foldl
      (fun current candidate => if replaces side current candidate then candidate else current)
      best
    result ∈ best :: levels ∧
      ∀ other ∈ best :: levels, NoWorse side result.price.units other.price.units := by
  induction levels generalizing best with
  | nil => simp [NoWorse.refl]
  | cons candidate levels ih =>
      rw [List.foldl_cons]
      split
      · rename_i hreplaces
        obtain ⟨hmem, hall⟩ := ih candidate
        have hbest := (hall _ List.mem_cons_self).trans (noWorse_of_replaces hreplaces)
        exact ⟨List.mem_cons_of_mem _ hmem, List.forall_mem_cons.mpr ⟨hbest, hall⟩⟩
      · rename_i hkeeps
        obtain ⟨hmem, hall⟩ := ih best
        have hcandidate :=
          (hall _ List.mem_cons_self).trans (noWorse_of_not_replaces hkeeps)
        obtain ⟨hbest, hrest⟩ := List.forall_mem_cons.mp hall
        refine ⟨?_, List.forall_mem_cons.mpr ⟨hbest, List.forall_mem_cons.mpr ⟨hcandidate, hrest⟩⟩⟩
        rcases List.mem_cons.mp hmem with heq | htail
        · exact List.mem_cons.mpr (Or.inl heq)
        · exact List.mem_cons_of_mem _ (List.mem_cons_of_mem _ htail)

variable {levels : List BookLevel} {side : Side}

theorem bestLevel_eq_none_iff :
    bestLevel levels side registered = none ↔
      ∀ source ∈ levels, makeBookLevel source.price source.size registered = none := by
  rw [← List.filterMap_eq_nil_iff]
  unfold bestLevel
  split <;> simp_all

theorem bestLevel_spec (h : bestLevel levels side registered = some level) :
    (∃ source ∈ levels, makeBookLevel source.price source.size registered = some level) ∧
      ∀ source ∈ levels, ∀ other,
        makeBookLevel source.price source.size registered = some other →
          NoWorse side level.price.units other.price.units := by
  unfold bestLevel at h
  split at h
  · exact absurd h (by simp)
  · rename_i first rest hlist
    obtain ⟨hmem, hall⟩ := @foldl_replaces side rest first
    rw [Option.some.inj h, ← hlist] at hmem hall
    constructor
    · exact List.mem_filterMap.mp hmem
    · intro source hsource other hother
      exact hall other (List.mem_filterMap.mpr ⟨source, hsource, hother⟩)

def sideLevel (book : HotBookState) : Side → Option HotBookLevel
  | .buy => book.bestBid
  | .sell => book.bestAsk

/-- The best level of a side, none while there is no book. -/
def hotLevel (book : Option HotBookState) (side : Side) : Option HotBookLevel :=
  book.bind fun book => sideLevel book side

def snapshotLevels (snapshot : BookSnapshotUpdate) : Side → List BookLevel
  | .buy => snapshot.bids
  | .sell => snapshot.asks

/-- The hint of a delta for its own side. -/
def deltaHint (delta : BookDeltaUpdate) : Option Price :=
  match delta.side with
  | .buy => delta.bestBid
  | .sell => delta.bestAsk

theorem levelText_map_refresh (tickSizeUnits lotSizeUnits : Option Nat)
    (level : Option HotBookLevel) :
    levelText (level.map (refreshBookLevelUnits tickSizeUnits lotSizeUnits)) = levelText level := by
  cases level <;> rfl

theorem sideLevel_refreshMidpoint (book : HotBookState) (side : Side) :
    sideLevel (refreshMidpoint book) side = sideLevel book side := by
  cases side <;> rfl

theorem levelText_sideLevel_applyRegistered (registered : Option RegisteredMarket)
    (book : HotBookState) (side : Side) :
    levelText (sideLevel (applyRegistered registered book) side) =
      levelText (sideLevel book side) := by
  cases registered with
  | none => rfl
  | some market => cases side <;> exact levelText_map_refresh ..

theorem levelParsed_sideLevel_applyRegistered {registered : Option RegisteredMarket}
    {book : HotBookState} {side : Side}
    (h : ∀ level, sideLevel book side = some level → LevelParsed level) :
    ∀ level, sideLevel (applyRegistered registered book) side = some level →
      LevelParsed level := by
  intro level hlevel
  cases registered with
  | none => exact h level hlevel
  | some market =>
      have hmap : sideLevel (applyRegistered (some market) book) side =
          (sideLevel book side).map
            (refreshBookLevelUnits (some market.tickSizeUnits) market.lotSizeUnits) := by
        cases side <;> rfl
      rw [hmap] at hlevel
      obtain ⟨source, hsource, rfl⟩ := Option.map_eq_some_iff.mp hlevel
      exact ⟨(h source hsource).price, (h source hsource).size⟩

variable {notice : UpdateNotice} {snapshot : BookSnapshotUpdate} {delta : BookDeltaUpdate}
  {existing : Option HotBookState}

theorem levelText_snapshotBook (registered : Option RegisteredMarket) (notice : UpdateNotice)
    (snapshot : BookSnapshotUpdate) (side : Side) :
    levelText (sideLevel (snapshotBook registered notice snapshot) side) =
      levelText (bestLevel (snapshotLevels snapshot side) side registered) := by
  rw [snapshotBook, sideLevel_refreshMidpoint, levelText_sideLevel_applyRegistered]
  cases side <;> rfl

theorem levelParsed_snapshotBook {side : Side} :
    ∀ level, sideLevel (snapshotBook registered notice snapshot) side = some level →
      LevelParsed level := by
  rw [snapshotBook, sideLevel_refreshMidpoint]
  apply levelParsed_sideLevel_applyRegistered
  intro level hlevel
  have hbest : bestLevel (snapshotLevels snapshot side) side registered = some level := by
    cases side <;> exact hlevel
  obtain ⟨⟨source, -, hsource⟩, -⟩ := bestLevel_spec hbest
  exact (makeBookLevel_eq_some hsource).2.2

theorem sideLevel_deltaBook (registered : Option RegisteredMarket)
    (existing : Option HotBookState) (notice : UpdateNotice) (delta : BookDeltaUpdate)
    (side : Side) :
    sideLevel (deltaBook registered existing notice delta) side =
      if delta.side = side then
        deltaLevel registered (hotLevel existing side) (deltaHint delta) delta
      else hotLevel existing side := by
  have hfound : ∀ fresh : HotBookState, sideLevel fresh side = none →
      sideLevel (existing.getD fresh) side = hotLevel existing side := by
    intro fresh hfresh
    cases existing with
    | none => exact hfresh
    | some book => rfl
  rw [← hfound (freshBook registered notice delta.marketId delta.assetId delta.timestampMs
    delta.sourceHash) (by cases side <;> rfl)]
  cases hdelta : delta.side <;> cases side <;>
    simp [deltaBook, hdelta, deltaHint, sideLevel, refreshMidpoint]

theorem levelParsed_deltaLevel {current : Option HotBookLevel} {hint : Option Price}
    (h : ∀ level, current = some level → LevelParsed level) :
    ∀ level, deltaLevel registered current hint delta = some level → LevelParsed level := by
  intro level hlevel
  cases hint with
  | some best => exact (makeBookLevel_eq_some hlevel).2.2
  | none =>
      simp only [deltaLevel] at hlevel
      split at hlevel
      · exact (makeBookLevel_eq_some hlevel).2.2
      · exact h level hlevel

end Rtt.TopOfBook
