import Rtt.TopOfBook

namespace Rtt.LadderBest

open Rtt.Quote
open Rtt.KeyIndex
open Rtt.DecimalOrder
open Rtt.PublicEvent
open Rtt.MarketMessages
open Rtt.OrderBook
open Rtt.HotState
open Rtt.TopOfBook

section Ladder

variable {ladder : PriceLadder} {side : Side} {level best : PriceLevel} {price size : String}
  {levels : List WsOrderBookLevel}

theorem best_applyLevels_eq_some_iff (hdistinct : (levels.map WsOrderBookLevel.price).Nodup) :
    (ladder.applyLevels levels).best side = some best ↔
      ∃ level ∈ levels, (⟨level.price, level.size⟩ : PriceLevel) = best ∧
        ∀ other ∈ levels, NoWorse side level.price other.price := by
  have hsize : ∀ price size, (ladder.applyLevels levels).sizeAt price = some size ↔
      ∃ level ∈ levels, level.price = price ∧ level.size = size := by
    intro price size
    rw [PriceLadder.sizeAt_applyLevels, Option.map_eq_some_iff]
    simp only [lastWith_eq_some_iff hdistinct, and_assoc]
  rw [PriceLadder.best_eq_some_iff, hsize]
  constructor
  · rintro ⟨⟨level, hlevel, hprice, hsize'⟩, hworst⟩
    refine ⟨level, hlevel, ?_, ?_⟩
    · rw [hprice, hsize']
    · intro other hother
      rw [hprice]
      exact hworst other.price other.size ((hsize _ _).mpr ⟨other, hother, rfl, rfl⟩)
  · rintro ⟨level, hlevel, rfl, hworst⟩
    refine ⟨⟨level, hlevel, rfl, rfl⟩, ?_⟩
    intro price size h
    obtain ⟨other, hother, rfl, -⟩ := (hsize _ _).mp h
    exact hworst other hother

theorem best_upsert_of_leads (hsize : ¬ IsZeroSize size)
    (hleads : ∀ level, ladder.best side = some level → NoWorse side price level.price) :
    (ladder.upsert price size).best side = some ⟨price, size⟩ := by
  rw [PriceLadder.best_eq_some_iff]
  constructor
  · rw [PriceLadder.sizeAt_upsert_self, if_neg hsize]
  · intro other otherSize hother
    rw [PriceLadder.sizeAt_upsert] at hother
    split at hother
    · rename_i heq
      exact heq ▸ NoWorse.refl side price
    · cases hbest : ladder.best side with
      | none =>
          rw [PriceLadder.best_eq_none_iff.mp hbest other] at hother
          exact absurd hother (by simp)
      | some level =>
          obtain ⟨-, hworst⟩ := PriceLadder.best_eq_some_iff.mp hbest
          exact (hleads level hbest).trans (hworst other otherSize hother)

theorem best_upsert_of_behind (hbest : ladder.best side = some level)
    (hprice : price ≠ level.price) (hbehind : IsZeroSize size ∨ NoWorse side level.price price) :
    (ladder.upsert price size).best side = some level := by
  obtain ⟨hsize, hworst⟩ := PriceLadder.best_eq_some_iff.mp hbest
  rw [PriceLadder.best_eq_some_iff]
  constructor
  · rw [PriceLadder.sizeAt_upsert_of_ne ladder (Ne.symm hprice), hsize]
  · intro other otherSize hother
    rw [PriceLadder.sizeAt_upsert] at hother
    split at hother
    · rename_i heq
      split at hother
      · exact absurd hother (by simp)
      · rename_i hzero
        exact heq ▸ hbehind.resolve_left hzero
    · exact hworst other otherSize hother

theorem sizeAt_of_best_upsert (h : (ladder.upsert price size).best side = some level) :
    (level.price = price ∧ level.size = size ∧ ¬ IsZeroSize size) ∨
      (level.price ≠ price ∧ ladder.sizeAt level.price = some level.size) := by
  obtain ⟨hsize, -⟩ := PriceLadder.best_eq_some_iff.mp h
  rw [PriceLadder.sizeAt_upsert] at hsize
  split at hsize
  · rename_i heq
    split at hsize
    · exact absurd hsize (by simp)
    · rename_i hzero
      exact Or.inl ⟨heq.symm, (Option.some.inj hsize).symm, hzero⟩
  · rename_i hne
    exact Or.inr ⟨Ne.symm hne, hsize⟩

theorem exists_best (h : ladder.sizeAt price = some size) :
    ∃ best, ladder.best side = some best ∧ NoWorse side best.price price := by
  cases hbest : ladder.best side with
  | none =>
      rw [PriceLadder.best_eq_none_iff.mp hbest price] at h
      exact absurd h (by simp)
  | some best => exact ⟨best, rfl, (PriceLadder.best_eq_some_iff.mp hbest).2 price size h⟩

theorem best_of_best_upsert (h : (ladder.upsert price size).best side = some level)
    (hprice : level.price ≠ price) :
    ∃ best, ladder.best side = some best ∧
      (best = level ∨ (best.price = price ∧ IsZeroSize size)) := by
  have hold := (sizeAt_of_best_upsert h).resolve_left fun hown => hprice hown.1
  obtain ⟨best, hbest, hnoWorse⟩ : ∃ best, ladder.best side = some best ∧
      NoWorse side best.price level.price := exists_best hold.2
  obtain ⟨hbestSize, hworst⟩ := PriceLadder.best_eq_some_iff.mp hbest
  obtain ⟨-, hworst'⟩ := PriceLadder.best_eq_some_iff.mp h
  refine ⟨best, hbest, ?_⟩
  by_cases hbestPrice : best.price = price
  · refine Or.inr ⟨hbestPrice, ?_⟩
    by_contra hzero
    have hown : (ladder.upsert price size).sizeAt best.price = some size := by
      rw [hbestPrice, PriceLadder.sizeAt_upsert_self, if_neg hzero]
    exact hprice ((hworst' _ _ hown).antisymm hnoWorse |>.trans hbestPrice)
  · left
    have hkept : (ladder.upsert price size).best side = some best := by
      by_cases hzero : IsZeroSize size
      · exact best_upsert_of_behind hbest (Ne.symm hbestPrice) (Or.inl hzero)
      · by_cases hbehind : NoWorse side best.price price
        · exact best_upsert_of_behind hbest (Ne.symm hbestPrice) (Or.inr hbehind)
        · have hleads : (ladder.upsert price size).best side = some ⟨price, size⟩ := by
            apply best_upsert_of_leads hzero
            intro other hother
            obtain rfl := Option.some.inj (hbest.symm.trans hother)
            exact NoWorse.of_not hbehind
          rw [hleads] at h
          exact absurd (congrArg PriceLevel.price (Option.some.inj h)).symm hprice
    exact Option.some.inj (hkept.symm.trans h)

end Ladder

/-- A delta keeps the two paths together.  A removal must come with a hint, and
one that reveals a level of the removed size where it takes the best level away,
or leave a better level standing; a new best level must have a readable size. -/
def Recovers (ladder : PriceLadder) (side : Side) (price size : String)
    (hint : Option String) : Prop :=
  if IsZeroSize size then
    match hint with
    | some revealed => ∀ level, ladder.best side = some level → level.price = price →
        ladder.sizeAt revealed = some level.size
    | none => ∃ level, ladder.best side = some level ∧ ¬ NoWorse side price level.price
  else
    (∀ level, ladder.best side = some level → NoWorse side price level.price) →
      parseScaled size ≠ none

/-- The best level of each side of a full book has a readable size. -/
def BestReadable (levels : List WsOrderBookLevel) (side : Side) : Prop :=
  ∀ level ∈ levels, (∀ other ∈ levels, NoWorse side level.price other.price) →
    parseScaled level.size ≠ none

section Hot

variable {prices : List String} {registered : Option RegisteredMarket} {side : Side}
  {ladder : PriceLadder} {levels : List WsOrderBookLevel}

theorem exists_bestLevel (hprices : ∀ price ∈ prices, IsPrice price)
    (hspelled : SpelledOnce prices) (hmem : ∀ level ∈ levels, level.price ∈ prices)
    {level : WsOrderBookLevel} (hlevel : level ∈ levels)
    (hworst : ∀ other ∈ levels, NoWorse side level.price other.price)
    (hsize : parseScaled level.size ≠ none) :
    ∃ hot, bestLevel (levels.map bookLevel) side registered = some hot ∧
      hot.price.exact = level.price ∧
      ∃ other ∈ levels, other.price = level.price ∧ hot.size.exact = other.size := by
  obtain ⟨sizeUnits, hsizeUnits⟩ := Option.ne_none_iff_exists'.mp hsize
  have hlevelPrice := parseScaled_price (hprices _ (hmem level hlevel))
  obtain ⟨made, hmade⟩ := exists_makeBookLevel registered hlevelPrice hsizeUnits
  cases hhot : bestLevel (levels.map bookLevel) side registered with
  | none =>
      have hnone := bestLevel_eq_none_iff.mp hhot (bookLevel level) (List.mem_map_of_mem hlevel)
      exact absurd (hmade.symm.trans hnone) (by simp)
  | some hot =>
      obtain ⟨⟨source, hsource, hmadeHot⟩, hall⟩ := bestLevel_spec hhot
      obtain ⟨other, hother, rfl⟩ := List.mem_map.mp hsource
      obtain ⟨hhotPrice, hhotSize, -⟩ := makeBookLevel_eq_some hmadeHot
      have hunits := hall (bookLevel level) (List.mem_map_of_mem hlevel) made hmade
      rw [units_of_makeBookLevel (hprices _ (hmem other hother)) hmadeHot,
        units_of_makeBookLevel (hprices _ (hmem level hlevel)) hmade,
        noWorse_priceUnits_iff (hprices _ (hmem other hother)) (hprices _ (hmem level hlevel))
          (hspelled _ (hmem other hother) _ (hmem level hlevel))] at hunits
      have hsame : other.price = level.price := hunits.antisymm (hworst other hother)
      exact ⟨hot, rfl, hhotPrice.trans hsame, other, hother, hsame, hhotSize⟩

theorem eq_nil_of_best_applyLevels (h : (ladder.applyLevels levels).best side = none) :
    levels = [] := by
  apply List.eq_nil_iff_forall_not_mem.mpr
  intro level hlevel
  have hsize := PriceLadder.best_eq_none_iff.mp h level.price
  rw [PriceLadder.sizeAt_applyLevels, Option.map_eq_none_iff] at hsize
  exact lastWith_eq_none_iff.mp hsize level hlevel rfl

theorem of_best_applyLevels {best : PriceLevel}
    (h : (ladder.applyLevels levels).best side = some best) :
    ∃ level ∈ levels, level.price = best.price ∧
      ∀ other ∈ levels, NoWorse side level.price other.price := by
  obtain ⟨hsize, hworst⟩ := PriceLadder.best_eq_some_iff.mp h
  rw [PriceLadder.sizeAt_applyLevels] at hsize
  obtain ⟨level, hlast, -⟩ := Option.map_eq_some_iff.mp hsize
  obtain ⟨hlevel, hprice⟩ := mem_of_lastWith hlast
  refine ⟨level, hlevel, hprice, ?_⟩
  intro other hother
  rw [hprice]
  cases hsome : (ladder.applyLevels levels).sizeAt other.price with
  | some size => exact hworst other.price size hsome
  | none =>
      rw [PriceLadder.sizeAt_applyLevels, Option.map_eq_none_iff] at hsome
      exact absurd rfl (lastWith_eq_none_iff.mp hsome other hother)

theorem snapshot_prices_agree (hprices : ∀ price ∈ prices, IsPrice price)
    (hspelled : SpelledOnce prices) (hmem : ∀ level ∈ levels, level.price ∈ prices)
    (hsizes : ∀ level ∈ levels, parseScaled level.size ≠ none) :
    (bestLevel (levels.map bookLevel) side registered).map (fun level => level.price.exact) =
      ((ladder.applyLevels levels).best side).map PriceLevel.price := by
  cases hbest : (ladder.applyLevels levels).best side with
  | none =>
      obtain rfl := eq_nil_of_best_applyLevels hbest
      rfl
  | some best =>
      obtain ⟨level, hlevel, hprice, hworst⟩ := of_best_applyLevels hbest
      obtain ⟨hot, hhot, hexact, -⟩ :=
        @exists_bestLevel prices registered side levels hprices hspelled hmem level hlevel hworst
          (hsizes level hlevel)
      rw [hhot, Option.map_some, Option.map_some, hexact, hprice]

theorem snapshot_agrees_iff (hprices : ∀ price ∈ prices, IsPrice price)
    (hspelled : SpelledOnce prices) (hmem : ∀ level ∈ levels, level.price ∈ prices)
    (hdistinct : (levels.map WsOrderBookLevel.price).Nodup) :
    levelText (bestLevel (levels.map bookLevel) side registered) =
        (ladder.applyLevels levels).best side ↔
      BestReadable levels side := by
  constructor
  · intro heq level hlevel hbest
    rw [(best_applyLevels_eq_some_iff hdistinct).mpr ⟨level, hlevel, rfl, hbest⟩] at heq
    obtain ⟨hot, hhot, htext⟩ := Option.map_eq_some_iff.mp heq
    obtain ⟨⟨source, -, hsource⟩, -⟩ := bestLevel_spec hhot
    obtain ⟨-, -, hparsed⟩ := makeBookLevel_eq_some hsource
    have hsize : hot.size.exact = level.size := congrArg PriceLevel.size htext
    rw [← hsize, hparsed.size]
    simp
  · intro hreadable
    cases hbest : (ladder.applyLevels levels).best side with
    | none =>
        obtain rfl := eq_nil_of_best_applyLevels hbest
        rfl
    | some best =>
        obtain ⟨level, hlevel, rfl, hworst⟩ :=
          (best_applyLevels_eq_some_iff hdistinct).mp hbest
        obtain ⟨hot, hhot, hexact, other, hother, hsame, hhotSize⟩ :=
          @exists_bestLevel prices registered side levels hprices hspelled hmem level hlevel
            hworst (hreadable level hlevel hworst)
        obtain rfl := List.inj_on_of_nodup_map hdistinct hother hlevel hsame
        rw [hhot, levelText, Option.map_some, bookLevelToSnapshotLevel, hexact, hhotSize]

/-- What both paths know of a side before a delta. -/
structure Mirrors (prices : List String) (current : Option HotBookLevel) (ladder : PriceLadder)
    (side : Side) : Prop where
  text : levelText current = ladder.best side
  parsed : ∀ level, current = some level → LevelParsed level
  prices : ∀ price, ladder.sizeAt price ≠ none → price ∈ prices

variable {current : Option HotBookLevel} {delta : BookDeltaUpdate} {hint : Option Price}
  {best : PriceLevel}

theorem Mirrors.exists_current (h : Mirrors prices current ladder side)
    (hbest : ladder.best side = some best) :
    ∃ level, current = some level ∧ level.price.exact = best.price ∧
      level.size.exact = best.size ∧ LevelParsed level := by
  have htext := h.text
  rw [hbest] at htext
  obtain ⟨level, hlevel, rfl⟩ := Option.map_eq_some_iff.mp htext
  exact ⟨level, hlevel, rfl, rfl, h.parsed level hlevel⟩

theorem Mirrors.current_eq_none (h : Mirrors prices current ladder side)
    (hbest : ladder.best side = none) : current = none := by
  have htext := h.text
  rw [hbest] at htext
  exact Option.map_eq_none_iff.mp htext

theorem levelText_of_revealed (hprices : ∀ price ∈ prices, IsPrice price)
    (h : Mirrors prices current ladder side) (hbest : ladder.best side = some best)
    {revealed : Price} (hrevealed : revealed ∈ prices) (hne : revealed ≠ delta.price) :
    levelText (deltaLevel registered current (some revealed) delta) =
      some ⟨revealed, best.size⟩ := by
  obtain ⟨level, rfl, -, hsize, hparsed⟩ := h.exists_current hbest
  simp only [deltaLevel, if_neg hne, Option.map_some, Option.getD_some]
  rw [hsize]
  apply levelText_makeBookLevel
  · rw [parseScaled_price (hprices _ hrevealed)]
    simp
  · rw [← hsize, hparsed.size]
    simp

theorem updatesBestSide_iff (hprices : ∀ price ∈ prices, IsPrice price)
    (hspelled : SpelledOnce prices) (h : Mirrors prices current ladder side)
    (hprice : delta.price ∈ prices) {candidate : HotBookLevel} {size : Size}
    (hcandidate : makeBookLevel delta.price size registered = some candidate) :
    updatesBestSide current (some candidate) side = true ↔
      ∀ level, ladder.best side = some level → NoWorse side delta.price level.price := by
  cases hbest : ladder.best side with
  | none => simp [updatesBestSide, h.current_eq_none hbest]
  | some best =>
      obtain ⟨level, rfl, hexact, -, hparsed⟩ := h.exists_current hbest
      have hmem : best.price ∈ prices := by
        apply h.prices
        simp [(PriceLadder.best_eq_some_iff.mp hbest).1]
      have hunits : level.price.units = priceUnits best.price := by
        have hread := hparsed.price
        rw [hexact, parseScaled_price (hprices _ hmem)] at hread
        exact (Option.some.inj hread).symm
      have hcompare : updatesBestSide (some level) (some candidate) side = true ↔
          NoWorse side candidate.price.units level.price.units := by
        cases side <;> exact decide_eq_true_iff
      rw [hcompare, units_of_makeBookLevel (hprices _ hprice) hcandidate, hunits,
        noWorse_priceUnits_iff (hprices _ hprice) (hprices _ hmem)
          (hspelled _ hprice _ hmem)]
      simp

theorem parseScaled_of_isZeroSize {size : String} (h : IsZeroSize size) :
    parseScaled size ≠ none := by
  rcases h with rfl | rfl | rfl <;> decide

theorem removal_unhinted_agrees_iff (hprices : ∀ price ∈ prices, IsPrice price)
    (hspelled : SpelledOnce prices) (h : Mirrors prices current ladder delta.side)
    (hprice : delta.price ∈ prices) (hzero : IsZeroSize delta.size) :
    levelText (deltaLevel registered current none delta) =
        (ladder.upsert delta.price delta.size).best delta.side ↔
      ∃ level, ladder.best delta.side = some level ∧
        ¬ NoWorse delta.side delta.price level.price := by
  obtain ⟨units, hunits⟩ := Option.ne_none_iff_exists'.mp (parseScaled_of_isZeroSize hzero)
  obtain ⟨candidate, hcandidate⟩ :=
    exists_makeBookLevel registered (parseScaled_price (hprices _ hprice)) hunits
  have hupdates := updatesBestSide_iff hprices hspelled h hprice hcandidate
  simp only [deltaLevel, hcandidate]
  constructor
  · intro heq
    by_contra hnone
    push Not at hnone
    rw [if_pos (hupdates.mpr hnone)] at heq
    obtain ⟨hexact, hsize, -⟩ := makeBookLevel_eq_some hcandidate
    have hown : (ladder.upsert delta.price delta.size).best delta.side =
        some ⟨delta.price, delta.size⟩ := by
      rw [← heq, levelText, Option.map_some, bookLevelToSnapshotLevel, hexact, hsize]
    rcases sizeAt_of_best_upsert hown with ⟨-, -, hpositive⟩ | ⟨hne, -⟩
    · exact hpositive hzero
    · exact hne rfl
  · rintro ⟨level, hbest, hbehind⟩
    have hkeeps : ¬ updatesBestSide current (some candidate) delta.side = true :=
      fun hupdate => hbehind (hupdates.mp hupdate level hbest)
    have hne : delta.price ≠ level.price := by
      rintro heq
      exact hbehind (heq ▸ NoWorse.refl _ _)
    rw [if_neg hkeeps, h.text, hbest, best_upsert_of_behind hbest hne (Or.inl hzero)]

theorem removal_hinted_agrees_iff (hprices : ∀ price ∈ prices, IsPrice price)
    (h : Mirrors prices current ladder delta.side) (hzero : IsZeroSize delta.size)
    {revealed : PriceLevel}
    (hafter : (ladder.upsert delta.price delta.size).best delta.side = some revealed) :
    levelText (deltaLevel registered current (some revealed.price) delta) = some revealed ↔
      ∀ level, ladder.best delta.side = some level → level.price = delta.price →
        ladder.sizeAt revealed.price = some level.size := by
  obtain ⟨hne, hsize⟩ := (sizeAt_of_best_upsert hafter).resolve_left fun hown => hown.2.2 hzero
  have hmem : revealed.price ∈ prices := h.prices _ (by simp [hsize])
  obtain ⟨best, hbest, hcase⟩ := best_of_best_upsert hafter hne
  rw [levelText_of_revealed hprices h hbest hmem hne, hsize]
  constructor
  · intro heq level hlevel _
    obtain rfl := Option.some.inj (hbest.symm.trans hlevel)
    rw [show revealed.size = best.size from
      (congrArg PriceLevel.size (Option.some.inj heq)).symm]
  · intro hsame
    rcases hcase with rfl | ⟨hprice, -⟩
    · rfl
    · rw [show best.size = revealed.size from (Option.some.inj (hsame best hbest hprice)).symm]

theorem parseScaled_of_levelText {hot : Option HotBookLevel} {price size : String}
    (htext : levelText hot = some ⟨price, size⟩)
    (hparsed : ∀ level, hot = some level → LevelParsed level) : parseScaled size ≠ none := by
  obtain ⟨level, hlevel, heq⟩ := Option.map_eq_some_iff.mp htext
  have hsize : level.size.exact = size := congrArg PriceLevel.size heq
  rw [← hsize, (hparsed level hlevel).size]
  simp

theorem leading_agrees_iff (hprices : ∀ price ∈ prices, IsPrice price)
    (hspelled : SpelledOnce prices) (h : Mirrors prices current ladder delta.side)
    (hprice : delta.price ∈ prices) (hzero : ¬ IsZeroSize delta.size)
    (hleads : ∀ level, ladder.best delta.side = some level →
      NoWorse delta.side delta.price level.price)
    (hhint : ∀ revealed, hint = some revealed → ∃ level,
      (ladder.upsert delta.price delta.size).best delta.side = some level ∧
        level.price = revealed) :
    levelText (deltaLevel registered current hint delta) =
        (ladder.upsert delta.price delta.size).best delta.side ↔
      parseScaled delta.size ≠ none := by
  have hafter := best_upsert_of_leads hzero hleads
  have hread : parseScaled delta.price ≠ none := by
    rw [parseScaled_price (hprices _ hprice)]
    simp
  rw [hafter]
  cases hint with
  | some revealed =>
      obtain ⟨level, hlevel, rfl⟩ := hhint revealed rfl
      obtain rfl := Option.some.inj (hafter.symm.trans hlevel)
      simp only [deltaLevel, if_true]
      constructor
      · intro htext
        exact parseScaled_of_levelText htext fun level hlevel => (makeBookLevel_eq_some hlevel).2.2
      · exact levelText_makeBookLevel hread
  | none =>
      simp only [deltaLevel]
      constructor
      · intro htext hnone
        rw [(makeBookLevel_eq_none_iff hread).mpr hnone] at htext
        exact parseScaled_of_levelText htext h.parsed hnone
      · intro hsize
        obtain ⟨units, hunits⟩ := Option.ne_none_iff_exists'.mp hsize
        obtain ⟨candidate, hcandidate⟩ :=
          exists_makeBookLevel registered (parseScaled_price (hprices _ hprice)) hunits
        have hupdates := updatesBestSide_iff hprices hspelled h hprice hcandidate
        rw [hcandidate, if_pos (hupdates.mpr hleads), ← hcandidate]
        exact levelText_makeBookLevel hread hsize

theorem behind_agrees (hprices : ∀ price ∈ prices, IsPrice price)
    (hspelled : SpelledOnce prices) (h : Mirrors prices current ladder delta.side)
    (hprice : delta.price ∈ prices) (hbest : ladder.best delta.side = some best)
    (hbehind : ¬ NoWorse delta.side delta.price best.price)
    (hhint : ∀ revealed, hint = some revealed → ∃ level,
      (ladder.upsert delta.price delta.size).best delta.side = some level ∧
        level.price = revealed) :
    levelText (deltaLevel registered current hint delta) =
      (ladder.upsert delta.price delta.size).best delta.side := by
  have hne : delta.price ≠ best.price := by
    rintro heq
    exact hbehind (heq ▸ NoWorse.refl _ _)
  have hafter : (ladder.upsert delta.price delta.size).best delta.side = some best :=
    best_upsert_of_behind hbest hne (Or.inr (NoWorse.of_not hbehind))
  have hmem : best.price ∈ prices := by
    apply h.prices
    simp [(PriceLadder.best_eq_some_iff.mp hbest).1]
  rw [hafter]
  cases hint with
  | some revealed =>
      obtain ⟨level, hlevel, rfl⟩ := hhint revealed rfl
      obtain rfl := Option.some.inj (hafter.symm.trans hlevel)
      exact levelText_of_revealed hprices h hbest hmem (Ne.symm hne)
  | none =>
      simp only [deltaLevel]
      cases hcandidate : makeBookLevel delta.price delta.size registered with
      | none => rw [updatesBestSide, if_neg (by simp), h.text, hbest]
      | some candidate =>
          have hupdates := updatesBestSide_iff hprices hspelled h hprice hcandidate
          rw [if_neg fun hupdate => hbehind (hupdates.mp hupdate best hbest), h.text, hbest]

theorem delta_agrees_iff (hprices : ∀ price ∈ prices, IsPrice price)
    (hspelled : SpelledOnce prices) (h : Mirrors prices current ladder delta.side)
    (hprice : delta.price ∈ prices)
    (hhint : ∀ revealed, hint = some revealed → ∃ level,
      (ladder.upsert delta.price delta.size).best delta.side = some level ∧
        level.price = revealed) :
    levelText (deltaLevel registered current hint delta) =
        (ladder.upsert delta.price delta.size).best delta.side ↔
      Recovers ladder delta.side delta.price delta.size hint := by
  unfold Recovers
  split
  · rename_i hzero
    cases hint with
    | none => exact removal_unhinted_agrees_iff hprices hspelled h hprice hzero
    | some revealed =>
        obtain ⟨level, hafter, rfl⟩ := hhint revealed rfl
        rw [hafter]
        exact removal_hinted_agrees_iff hprices h hzero hafter
  · rename_i hzero
    by_cases hleads : ∀ level, ladder.best delta.side = some level →
        NoWorse delta.side delta.price level.price
    · rw [leading_agrees_iff hprices hspelled h hprice hzero hleads hhint]
      exact ⟨fun hsize _ => hsize, fun h => h hleads⟩
    · simp only [hleads, false_imp_iff, iff_true]
      push Not at hleads
      obtain ⟨best, hbest, hbehind⟩ := hleads
      exact behind_agrees hprices hspelled h hprice hbest hbehind hhint

end Hot

end Rtt.LadderBest
