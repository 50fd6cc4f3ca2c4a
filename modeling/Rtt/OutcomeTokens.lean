import Rtt.KeyIndex
import Rtt.RegistryPagination

namespace Rtt.RegistryProvider

open Rtt.KeyIndex
open Rtt.ListShares
open Rtt.PublicEvent (AssetId OutcomeSide OutcomeToken)

namespace MarketMeta

def assetForSide (self : MarketMeta) : OutcomeSide → AssetId
  | .yes => self.yesAsset.assetId
  | .no => self.noAsset.assetId

def sideForAsset (self : MarketMeta) (assetId : AssetId) : Option OutcomeSide :=
  if self.yesAsset.assetId = assetId then some .yes
  else if self.noAsset.assetId = assetId then some .no
  else none

theorem sideForAsset_assetForSide_yes (self : MarketMeta) :
    self.sideForAsset (self.assetForSide .yes) = some .yes :=
  if_pos rfl

theorem sideForAsset_assetForSide_no_iff (self : MarketMeta) :
    self.sideForAsset (self.assetForSide .no) = some .no ↔
      self.assetForSide .yes ≠ self.assetForSide .no := by
  change (if self.assetForSide .yes = self.assetForSide .no then some OutcomeSide.yes
    else if self.assetForSide .no = self.assetForSide .no then some .no else none) = _ ↔ _
  split
  · rename_i hsame
    simp [hsame]
  · rename_i hne
    simp [hne]

theorem sideForAsset_assetForSide_iff (self : MarketMeta) :
    (∀ side, self.sideForAsset (self.assetForSide side) = some side) ↔
      self.assetForSide .yes ≠ self.assetForSide .no := by
  rw [← sideForAsset_assetForSide_no_iff]
  constructor
  · exact fun h => h .no
  · intro hno side
    cases side with
    | yes => exact self.sideForAsset_assetForSide_yes
    | no => exact hno

end MarketMeta

/-- The label of an outcome, in lower case. -/
def outcomeLabel : OutcomeSide → String
  | .yes => "yes"
  | .no => "no"

/-- The token of the last pair whose label names the side. -/
def lastToken (side : OutcomeSide) (pairs : List (String × String)) : Option AssetId :=
  (lastWith (fun pair => toAsciiLowercase pair.1) (outcomeLabel side) pairs).map Prod.snd

theorem lastToken_concat (side : OutcomeSide) (pairs : List (String × String))
    (pair : String × String) :
    lastToken side (pairs ++ [pair]) =
      if toAsciiLowercase pair.1 = outcomeLabel side then some pair.2
      else lastToken side pairs := by
  rw [lastToken, lastToken, lastWith_concat]
  split <;> rfl

theorem mem_of_lastToken {side : OutcomeSide} {pairs : List (String × String)} {token : AssetId}
    (h : lastToken side pairs = some token) :
    ∃ label, (label, token) ∈ pairs ∧ toAsciiLowercase label = outcomeLabel side := by
  obtain ⟨⟨label, paired⟩, hlast, rfl⟩ := Option.map_eq_some_iff.mp h
  exact ⟨label, mem_of_lastWith hlast⟩

theorem pairAssets_eq (pairs : List (String × String)) :
    pairAssets pairs =
      ((lastToken .yes pairs).map fun token => { assetId := token, side := .yes },
        (lastToken .no pairs).map fun token => { assetId := token, side := .no }) := by
  induction pairs using List.reverseRecOn with
  | nil => rfl
  | append_singleton pairs pair ih =>
      rw [lastToken_concat, lastToken_concat]
      unfold pairAssets at ih ⊢
      rw [List.foldl_append, ih, List.foldl_cons, List.foldl_nil]
      by_cases hyes : toAsciiLowercase pair.1 = "yes"
      · simp [hyes, outcomeLabel]
      · by_cases hno : toAsciiLowercase pair.1 = "no"
        · simp [hno, outcomeLabel]
        · simp [hyes, hno, outcomeLabel]

section Upstream

variable (json : SerdeJson)

/-- The entries of an array field, none where it is missing or does not parse. -/
def arrayEntries (field : Option StringArrayField) : List String :=
  match field.map (StringArrayField.intoVec json) with
  | some (.ok values) => values
  | _ => []

/-- The outcome labels of an upstream record, each beside the token at its place. -/
def upstreamPairs (record : GammaMarket) : List (String × String) :=
  (arrayEntries json record.outcomes).zip (arrayEntries json record.clobTokenIds)

variable {json}

theorem arrayEntries_of_requireArray {field : Option StringArrayField}
    {missing invalid : QuarantineReason} {values : List String}
    (h : requireArray json field missing invalid = .ok values) :
    arrayEntries json field = values := by
  obtain ⟨array, harray, hvalues⟩ := bind_eq_ok.mp h
  cases field with
  | none => exact absurd harray (by simp [requireField])
  | some array' =>
      obtain rfl := Except.ok.inj harray
      cases hvec : array'.intoVec json with
      | error err =>
          rw [hvec] at hvalues
          exact absurd hvalues (by simp [Except.mapError])
      | ok entries =>
          rw [hvec] at hvalues
          obtain rfl := Except.ok.inj hvalues
          rw [arrayEntries, Option.map_some, hvec]

/-- The record pairs the asset of each side with a label of that side. -/
def Paired (json : SerdeJson) (record : GammaMarket) (market : MarketMeta) : Prop :=
  ∀ side, ∃ label, (label, market.assetForSide side) ∈ upstreamPairs json record ∧
    toAsciiLowercase label = outcomeLabel side

/-- The sides of a market are told apart by their assets, and its record pairs each
asset with a label of its side. -/
structure SidesAgree (json : SerdeJson) (record : GammaMarket) (market : MarketMeta) : Prop where
  inverse : ∀ side, market.sideForAsset (market.assetForSide side) = some side
  paired : Paired json record market

section Normalized

variable {record : GammaMarket} {market : MarketMeta}

theorem lastToken_of_normalized (h : normalizeGammaMarket json record = .ok market)
    (side : OutcomeSide) :
    lastToken side (upstreamPairs json record) = some (market.assetForSide side) := by
  obtain ⟨outcomes, tokens, houtcomes, htokens, -, hpair, -⟩ := normalizeGammaMarket_ok h
  rw [upstreamPairs, arrayEntries_of_requireArray houtcomes, arrayEntries_of_requireArray htokens]
  rw [pairAssets_eq, Prod.mk.injEq] at hpair
  cases side with
  | yes =>
      obtain ⟨token, htoken, hasset⟩ := Option.map_eq_some_iff.mp hpair.1
      rw [htoken, MarketMeta.assetForSide, ← hasset]
  | no =>
      obtain ⟨token, htoken, hasset⟩ := Option.map_eq_some_iff.mp hpair.2
      rw [htoken, MarketMeta.assetForSide, ← hasset]

theorem paired_of_normalized (h : normalizeGammaMarket json record = .ok market) :
    Paired json record market :=
  fun side => mem_of_lastToken (lastToken_of_normalized h side)

theorem sidesAgree_iff (h : normalizeGammaMarket json record = .ok market) :
    SidesAgree json record market ↔
      lastToken .yes (upstreamPairs json record) ≠ lastToken .no (upstreamPairs json record) := by
  have hassets : lastToken .yes (upstreamPairs json record) ≠
      lastToken .no (upstreamPairs json record) ↔
        market.assetForSide .yes ≠ market.assetForSide .no := by
    rw [lastToken_of_normalized h .yes, lastToken_of_normalized h .no, Ne, Ne, Option.some.injEq]
  rw [hassets, ← market.sideForAsset_assetForSide_iff]
  constructor
  · exact SidesAgree.inverse
  · exact fun hinverse => ⟨hinverse, paired_of_normalized h⟩

end Normalized

theorem sorts_of_parsePage {providerName body : String} {request : RegistryPageRequest}
    {page : RegistryPage} (h : parsePage json providerName body request = .ok page) :
    ∃ events, json.events body = .ok events ∧
      Sorts (sortRecord json providerName) (pageRecords events) page.markets page.quarantined := by
  unfold parsePage at h
  rcases hevents : json.events body with err | events
  · rw [hevents] at h
    exact absurd h (by simp)
  · rw [hevents] at h
    obtain rfl := Except.ok.inj h
    exact ⟨events, rfl, sorts_records json providerName _⟩

end Upstream

/-- An accepted market pairs each side with a token that its record gives for it, and
tells the sides apart unless the record ends up with one token for both.  Each record of
a page ends in one of its lists. -/
theorem outcome_tokens_inverse_iff (json : SerdeJson) (providerName : String) :
    (∀ record market, normalizeGammaMarket json record = .ok market →
      Paired json record market ∧
      (SidesAgree json record market ↔
        lastToken .yes (upstreamPairs json record) ≠
          lastToken .no (upstreamPairs json record))) ∧
    ∀ body request page, parsePage json providerName body request = .ok page →
      ∃ events, json.events body = .ok events ∧
        Sorts (sortRecord json providerName) (pageRecords events) page.markets
          page.quarantined := by
  constructor
  · intro record market h
    exact ⟨paired_of_normalized h, sidesAgree_iff h⟩
  · intro body request page h
    exact sorts_of_parsePage h

section Sample

open Rtt.RegistryPagination (laterMarket sampleJson)

/-- A record whose two outcomes name one token. -/
def oneTokenMarket : GammaMarket :=
  { laterMarket with clobTokenIds := some (.plain ["token", "token"]) }

theorem laterMarket_sides_agree :
    ∃ market, normalizeGammaMarket sampleJson laterMarket = .ok market ∧
      SidesAgree sampleJson laterMarket market := by
  obtain ⟨market, hmarket⟩ : ∃ market,
      normalizeGammaMarket sampleJson laterMarket = .ok market := ⟨_, rfl⟩
  obtain ⟨hmarkets, -⟩ := outcome_tokens_inverse_iff sampleJson "gamma"
  obtain ⟨-, hagree⟩ := hmarkets laterMarket market hmarket
  exact ⟨market, hmarket, hagree.mpr (by decide +kernel)⟩

/-- The record with one token is accepted, and the asset of its NO side is looked up as
the YES side. -/
theorem one_token_swaps_sides :
    ¬ ∀ json record market, normalizeGammaMarket json record = .ok market →
      ∀ side, market.sideForAsset (market.assetForSide side) = some side := by
  intro h
  have hno := h sampleJson oneTokenMarket _ rfl .no
  exact absurd hno (by decide)

end Sample

end Rtt.RegistryProvider
