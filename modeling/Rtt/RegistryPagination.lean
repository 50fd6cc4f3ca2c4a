import Rtt.Registry
import Mathlib.Data.List.Nodup

namespace Rtt.RegistryPagination

open Rtt.MachineWord (wrappingAdd)
open Rtt.PublicEvent (MarketId)
open Rtt.RegistryProvider
open Rtt.Registry

/-- An upstream that serves the events of a list, whose markets have distinct ids. -/
structure Upstream (json : SerdeJson) where
  events : List GammaEvent
  distinct : ((pageRecords events).map GammaMarket.id).Nodup
  body : RegistryPageRequest → String
  serves : ∀ request, json.events (body request) =
    .ok ((events.drop request.offset).take request.limit)

section Slices

variable {json : SerdeJson} (upstream : Upstream json) (providerName : String)

def okStatus : StatusCode := { code := 200, printed := "200 OK" }

def Upstream.answer (request : RegistryPageRequest) : Answer :=
  fetchPage json providerName request (.answered okStatus (upstream.body request))

/-- Every page request was answered by the upstream. -/
def AnsweredBy (collection : Collection) : Prop :=
  ∀ fetch ∈ collection.fetches, fetch.result = upstream.answer providerName fetch.request

/-- The records of the events from a position on. -/
def Upstream.recordsFrom (offset count : Nat) : List GammaMarket :=
  pageRecords ((upstream.events.drop offset).take count)

/-- The page that a slice of the events becomes. -/
def Upstream.page (limit offset : Nat) : RegistryPage :=
  let records := upstream.recordsFrom offset limit
  { markets := records.filterMap (normalizedMarket json)
    quarantined := records.filterMap (quarantinedMarket json providerName)
    nextOffset := if limit = 0 ∨ records.length < limit then none else some (offset + limit) }

theorem Upstream.answer_eq (limit offset : Nat) :
    upstream.answer providerName { offset, limit } =
      .ok (upstream.page providerName limit offset) := by
  change parsePage json providerName (upstream.body { offset, limit }) { offset, limit } = _
  rw [parsePage, upstream.serves]
  simp only [length_markets_add_quarantined]
  rfl

theorem Upstream.recordsFrom_add (offset first second : Nat) :
    upstream.recordsFrom offset (first + second) =
      upstream.recordsFrom offset first ++ upstream.recordsFrom (offset + first) second := by
  rw [recordsFrom, List.take_add, List.drop_drop, pageRecords, List.flatMap_append]
  rfl

theorem Upstream.recordsFrom_of_le {offset : Nat} (h : upstream.events.length ≤ offset)
    (count : Nat) : upstream.recordsFrom offset count = [] := by
  rw [recordsFrom, List.drop_eq_nil_of_le h, List.take_nil]
  rfl

theorem Upstream.recordsFrom_zero {count : Nat} (h : upstream.events.length ≤ count) :
    upstream.recordsFrom 0 count = pageRecords upstream.events := by
  rw [recordsFrom, List.drop_zero, List.take_of_length_le h]

end Slices

section Loop

variable {json : SerdeJson} {upstream : Upstream json} {providerName : String}
  {policy : RegistryRefreshPolicy} {bound attempts : Nat} {collecting : Collecting}
  {script : List Answer} {collection : Collection}

/-- What the records leave in what was collected. -/
def addRecords (json : SerdeJson) (providerName : String) (collecting : Collecting)
    (records : List GammaMarket) : Collecting :=
  { collecting with
    markets := (records.filterMap (normalizedMarket json)).foldl insertMarket collecting.markets
    quarantined :=
      collecting.quarantined ++ records.filterMap (quarantinedMarket json providerName) }

theorem addRecords_append (collecting : Collecting) (first second : List GammaMarket) :
    addRecords json providerName collecting (first ++ second) =
      addRecords json providerName (addRecords json providerName collecting first) second := by
  simp only [addRecords, List.filterMap_append, List.foldl_append, List.append_assoc]

/-- The pages of a refresh: the full ones up to the first that is not full. -/
structure PagesRead (upstream : Upstream json) (providerName : String) (limit : Nat)
    (collecting : Collecting) (collection : Collection) (full : Nat) : Prop where
  requests : collection.fetches.map PageFetch.request =
    (List.range (full + 1)).map fun i => { offset := collecting.offset + i * limit, limit }
  filled : ∀ i < full, limit ≤ (upstream.recordsFrom (collecting.offset + i * limit) limit).length
  short : (upstream.recordsFrom (collecting.offset + full * limit) limit).length < limit
  result : collection.result = .ok
    { addRecords json providerName collecting
        (upstream.recordsFrom collecting.offset ((full + 1) * limit)) with
      offset := collecting.offset + full * limit }

theorem pagesRead_last {limit : Nat} {fetch : PageFetch}
    (hrequest : fetch.request = { offset := collecting.offset, limit })
    (hshort : (upstream.recordsFrom collecting.offset limit).length < limit) :
    PagesRead upstream providerName limit collecting
      { fetches := [fetch]
        result := .ok (collecting.addPage (upstream.page providerName limit collecting.offset))
        attempts := fetch.attempts } 0 := by
  refine ⟨?_, ?_, ?_, ?_⟩
  · simp [hrequest]
  · simp
  · simpa using hshort
  · simp only [Nat.zero_mul, Nat.zero_add, Nat.one_mul, Nat.add_zero]
    rfl

theorem PagesRead.cons {limit full : Nat} {fetch : PageFetch} {later : Collection}
    (hrequest : fetch.request = { offset := collecting.offset, limit })
    (hfull : limit ≤ (upstream.recordsFrom collecting.offset limit).length)
    (h : PagesRead upstream providerName limit
      { collecting.addPage (upstream.page providerName limit collecting.offset) with
        offset := collecting.offset + limit } later full) :
    PagesRead upstream providerName limit collecting
      { later with fetches := fetch :: later.fetches } (full + 1) := by
  have hoffset : ∀ i, collecting.offset + limit + i * limit =
      collecting.offset + (i + 1) * limit := by
    intro i
    rw [Nat.add_mul, Nat.one_mul, Nat.add_assoc, Nat.add_comm limit]
  obtain ⟨hrequests, hfilled, hshort, hresult⟩ := h
  refine ⟨?_, ?_, ?_, ?_⟩
  · have hrange := @List.range_succ_eq_map (full + 1)
    rw [List.map_cons, hrequests, hrange, List.map_cons, List.map_map, hrequest, Nat.zero_mul,
      Nat.add_zero]
    congr 1
    refine List.map_congr_left fun i _ => ?_
    simp only [Function.comp_apply, hoffset, Nat.succ_eq_add_one]
  · rintro (_ | i) hi
    · rw [Nat.zero_mul, Nat.add_zero]
      exact hfull
    · rw [← hoffset]
      exact hfilled i (Nat.lt_of_succ_lt_succ hi)
  · rw [← hoffset]
    exact hshort
  · have hrecords : upstream.recordsFrom collecting.offset ((full + 1 + 1) * limit) =
        upstream.recordsFrom collecting.offset limit ++
          upstream.recordsFrom (collecting.offset + limit) ((full + 1) * limit) := by
      rw [Nat.succ_mul, Nat.add_comm, upstream.recordsFrom_add]
    refine hresult.trans ?_
    rw [hrecords, addRecords_append, ← hoffset]
    rfl

theorem pagesRead_of_collectPages (hpage : 1 ≤ policy.pageSize)
    (hcollect : collectPages policy bound collecting attempts script = some collection)
    (hanswered : AnsweredBy upstream providerName collection) :
    ∃ full, PagesRead upstream providerName policy.pageSize collecting collection full := by
  induction bound generalizing collecting attempts script collection with
  | zero => exact absurd hcollect (by simp [collectPages])
  | succ bound ih =>
      obtain ⟨fetch, rest, hfetch, hend⟩ := collectPages_cases hcollect
      have hrequest := (fetchPageWithRetry_spec hfetch).request_eq
      have hresult : fetch ∈ collection.fetches → fetch.result =
          .ok (upstream.page providerName policy.pageSize collecting.offset) := by
        intro hmem
        rw [hanswered fetch hmem, hrequest, upstream.answer_eq]
      have hnext : ∀ page, (Except.ok page : Answer) =
          .ok (upstream.page providerName policy.pageSize collecting.offset) →
            page.nextOffset =
              if (upstream.recordsFrom collecting.offset policy.pageSize).length < policy.pageSize
              then none else some (collecting.offset + policy.pageSize) := by
        intro page hsame
        rw [Except.ok.inj hsame]
        simp only [Upstream.page, show ¬ policy.pageSize = 0 by omega, false_or]
      obtain ⟨err, herr, rfl⟩ | ⟨page, hpageResult, hnone, rfl⟩ |
        ⟨page, offset, later, hpageResult, hsome, hlater, rfl⟩ := hend
      · exact absurd (herr.symm.trans (hresult (by simp))) (by simp)
      · have hsame := hpageResult.symm.trans (hresult (by simp))
        have hstop := (hnext page hsame).symm.trans hnone
        obtain rfl := Except.ok.inj hsame
        refine ⟨0, pagesRead_last hrequest ?_⟩
        by_contra hfull
        rw [if_neg hfull] at hstop
        exact absurd hstop (by simp)
      · have hsame := hpageResult.symm.trans (hresult (by simp))
        have hgo := (hnext page hsame).symm.trans hsome
        obtain rfl := Except.ok.inj hsame
        split at hgo
        · exact absurd hgo (by simp)
        · rename_i hfull
          obtain rfl := Option.some.inj hgo
          obtain ⟨full, hread⟩ := ih hlater fun fetch hmem =>
            hanswered fetch (List.mem_cons_of_mem _ hmem)
          exact ⟨full + 1, hread.cons hrequest (Nat.le_of_not_lt hfull)⟩

theorem nextOffset_page (upstream : Upstream json) (providerName : String) {limit : Nat}
    (hlimit : 1 ≤ limit) (offset : Nat) :
    (upstream.page providerName limit offset).nextOffset = none ∨
      (upstream.page providerName limit offset).nextOffset = some (offset + limit) ∧
        offset < upstream.events.length := by
  simp only [Upstream.page]
  split
  · exact .inl rfl
  · rename_i hfull
    refine .inr ⟨rfl, ?_⟩
    by_contra hbeyond
    refine hfull (.inr ?_)
    rw [upstream.recordsFrom_of_le (Nat.le_of_not_lt hbeyond)]
    exact hlimit

/-- The page request that an answer ends at once. -/
def answeredFetch (request : RegistryPageRequest) (attempts : Nat) (page : RegistryPage) :
    PageFetch :=
  { request, answers := [.ok page], delays := [], result := .ok page
    attempts := wrappingAdd attempts 1 }

theorem collectPages_ok (policy : RegistryRefreshPolicy) (bound attempts : Nat)
    (collecting : Collecting) (page : RegistryPage) (script : List Answer) :
    collectPages policy (bound + 1) collecting attempts (.ok page :: script) =
      let fetch := answeredFetch { offset := collecting.offset, limit := policy.pageSize } attempts
        page
      match page.nextOffset with
      | none =>
          some { fetches := [fetch], result := .ok (collecting.addPage page)
                 attempts := fetch.attempts }
      | some offset =>
          (collectPages policy bound { collecting.addPage page with offset } fetch.attempts
            script).map fun collection =>
              { collection with fetches := fetch :: collection.fetches } :=
  rfl

theorem exists_collectPages (upstream : Upstream json) (providerName : String)
    (hpage : 1 ≤ policy.pageSize) (collecting : Collecting) (attempts : Nat) :
    ∃ script collection,
      (∀ bound, script.length ≤ bound →
        collectPages policy bound collecting attempts script = some collection) ∧
      AnsweredBy upstream providerName collection := by
  induction hleft : upstream.events.length - collecting.offset using Nat.strong_induction_on
    generalizing collecting attempts with
  | _ left ih =>
      have hanswer := upstream.answer_eq providerName policy.pageSize collecting.offset
      let page := upstream.page providerName policy.pageSize collecting.offset
      let fetch := answeredFetch { offset := collecting.offset, limit := policy.pageSize } attempts
        page
      rcases nextOffset_page upstream providerName hpage collecting.offset with
        hlast | ⟨hnext, hinside⟩
      · refine ⟨[.ok page], { fetches := [fetch], result := .ok (collecting.addPage page)
                              attempts := fetch.attempts }, ?_, ?_⟩
        · rintro (_ | bound) hbound
          · exact absurd hbound (by simp)
          · rw [collectPages_ok, hlast]
        · intro fetch hmem
          rw [List.mem_singleton.mp hmem]
          exact hanswer.symm
      · obtain ⟨script, later, hlater, hanswered⟩ :=
          ih _ (by simp only; omega)
            { collecting.addPage page with offset := collecting.offset + policy.pageSize }
            (wrappingAdd attempts 1) rfl
        refine ⟨.ok page :: script, { later with fetches := fetch :: later.fetches }, ?_, ?_⟩
        · rintro (_ | bound) hbound
          · exact absurd hbound (by simp)
          · rw [collectPages_ok, hnext]
            have hrest := hlater bound (Nat.le_of_succ_le_succ hbound)
            exact congrArg (Option.map _) hrest
        · intro fetch hmem
          rcases List.mem_cons.mp hmem with rfl | hmem
          · exact hanswer.symm
          · exact hanswered fetch hmem

theorem exists_collect (upstream : Upstream json) (providerName : String)
    (hpage : 1 ≤ policy.pageSize) :
    ∃ script collection, collect policy script = some collection ∧
      AnsweredBy upstream providerName collection := by
  obtain ⟨script, collection, hcollect, hanswered⟩ :=
    exists_collectPages upstream providerName hpage .empty 0
  exact ⟨script, collection, hcollect _ (Nat.le_refl _), hanswered⟩

end Loop

section Keep

variable {json : SerdeJson} {providerName : String} {markets : Std.TreeMap MarketId MarketMeta}
  {records : List GammaMarket}

theorem getElem?_insertMarkets_of_notMem {page : List MarketMeta} {marketId : MarketId}
    (h : marketId ∉ page.map fun market => market.marketId) :
    (page.foldl insertMarket markets)[marketId]? = markets[marketId]? := by
  induction page generalizing markets with
  | nil => rfl
  | cons market page ih =>
      rw [List.map_cons, List.mem_cons, not_or] at h
      rw [List.foldl_cons, ih h.2, insertMarket, Std.TreeMap.getElem?_insert, if_neg]
      rw [Std.LawfulEqCmp.compare_eq_iff_eq]
      exact fun hsame => h.1 hsame.symm

theorem getElem?_insertMarkets_of_mem {page : List MarketMeta} {market : MarketMeta}
    (hdistinct : (page.map fun market => market.marketId).Nodup) (h : market ∈ page) :
    (page.foldl insertMarket markets)[market.marketId]? = some market := by
  induction page generalizing markets with
  | nil => exact absurd h List.not_mem_nil
  | cons first page ih =>
      rw [List.map_cons, List.nodup_cons] at hdistinct
      rw [List.foldl_cons]
      rcases List.mem_cons.mp h with rfl | hmem
      · rw [getElem?_insertMarkets_of_notMem hdistinct.1]
        exact Std.TreeMap.getElem?_insert_self
      · exact ih hdistinct.2 hmem

theorem marketIds_sublist (records : List GammaMarket) :
    List.Sublist ((records.filterMap (normalizedMarket json)).map fun market => market.marketId)
      (records.map GammaMarket.id) := by
  induction records with
  | nil => exact .slnil
  | cons record records ih =>
      rcases hrecord : normalizeGammaMarket json record with reason | market
      · rw [List.filterMap_cons_none (normalizedMarket_error hrecord), List.map_cons]
        exact ih.cons _
      · obtain ⟨-, -, -, -, -, -, hid⟩ := normalizeGammaMarket_ok hrecord
        rw [List.filterMap_cons_some (normalizedMarket_ok hrecord), List.map_cons, List.map_cons,
          hid]
        exact ih.cons_cons _

/-- A record is among the markets of the snapshot or among the quarantined ones. -/
def Kept (json : SerdeJson) (providerName : String) (snapshot : RegistrySnapshot)
    (record : GammaMarket) : Prop :=
  match normalizeGammaMarket json record with
  | .ok market => snapshot.markets[market.marketId]? = some market
  | .error reason => quarantinedRecord providerName reason ∈ snapshot.quarantined

theorem kept_of_mem {snapshot : RegistrySnapshot} {collecting : Collecting}
    (hdistinct : (records.map GammaMarket.id).Nodup)
    (hmarkets : snapshot.markets =
      (addRecords json providerName collecting records).markets)
    (hquarantined : snapshot.quarantined =
      (addRecords json providerName collecting records).quarantined) :
    ∀ record ∈ records, Kept json providerName snapshot record := by
  intro record hmem
  cases hrecord : normalizeGammaMarket json record with
  | ok market =>
      simp only [Kept, hrecord, hmarkets]
      refine getElem?_insertMarkets_of_mem (hdistinct.sublist (marketIds_sublist records)) ?_
      rw [List.mem_filterMap]
      exact ⟨record, hmem, normalizedMarket_ok hrecord⟩
  | error reason =>
      simp only [Kept, hrecord, hquarantined]
      refine List.mem_append_right _ ?_
      rw [List.mem_filterMap]
      exact ⟨record, hmem, quarantinedMarket_error hrecord⟩

end Keep

section Complete

variable {json : SerdeJson} (upstream : Upstream json) {providerName : String}
  {policy : RegistryRefreshPolicy}

/-- A refresh visits every event and keeps every record. -/
structure Complete (registry : MarketRegistry) (collection : Collection)
    (snapshot : RegistrySnapshot) : Prop where
  visited : ∀ position < upstream.events.length, ∃ fetch ∈ collection.fetches,
    fetch.request.offset ≤ position ∧ position < fetch.request.offset + fetch.request.limit
  kept : ∀ event ∈ upstream.events, ∀ record ∈ event.markets,
    Kept json registry.providerName snapshot record

/-- Every page with events after it brings as many records as the page has places. -/
def PagesFull (limit : Nat) : Prop :=
  ∀ i, (i + 1) * limit < upstream.events.length →
    limit ≤ (upstream.recordsFrom (i * limit) limit).length

variable {upstream} {collection : Collection}

theorem reaches_iff {limit full : Nat}
    (h : PagesRead upstream providerName limit .empty collection full) (position : Nat) :
    (∃ fetch ∈ collection.fetches, fetch.request.offset ≤ position ∧
        position < fetch.request.offset + fetch.request.limit) ↔
      ∃ i < full + 1, i * limit ≤ position ∧ position < i * limit + limit := by
  constructor
  · rintro ⟨fetch, hmem, hrange⟩
    have hrequest := List.mem_map_of_mem (f := PageFetch.request) hmem
    rw [h.requests] at hrequest
    obtain ⟨i, hi, heq⟩ := List.mem_map.mp hrequest
    refine ⟨i, List.mem_range.mp hi, ?_⟩
    rw [← heq] at hrange
    simpa [Collecting.empty] using hrange
  · rintro ⟨i, hi, hrange⟩
    have hrequest := List.mem_map_of_mem
      (f := fun i => RegistryPageRequest.mk (Collecting.empty.offset + i * limit) limit)
      (List.mem_range.mpr hi)
    rw [← h.requests] at hrequest
    obtain ⟨fetch, hfetch, heq⟩ := List.mem_map.mp hrequest
    refine ⟨fetch, hfetch, ?_⟩
    rw [heq]
    simpa [Collecting.empty] using hrange

theorem visited_iff {limit full : Nat}
    (h : PagesRead upstream providerName limit .empty collection full) :
    (∀ position < upstream.events.length, ∃ fetch ∈ collection.fetches,
      fetch.request.offset ≤ position ∧
        position < fetch.request.offset + fetch.request.limit) ↔
      upstream.events.length ≤ (full + 1) * limit := by
  simp only [reaches_iff h]
  constructor
  · intro hvisited
    by_contra hmore
    obtain ⟨i, hi, -, hbelow⟩ := hvisited ((full + 1) * limit) (Nat.lt_of_not_le hmore)
    have hmul := Nat.mul_le_mul_right limit (Nat.succ_le_of_lt hi)
    rw [Nat.succ_mul] at hmul
    omega
  · intro hcovered position hposition
    have hlimit : 0 < limit := by
      rcases Nat.eq_zero_or_pos limit with rfl | hpos
      · rw [Nat.mul_zero] at hcovered
        omega
      · exact hpos
    refine ⟨position / limit, ?_, Nat.div_mul_le_self position limit, ?_⟩
    · exact (Nat.div_lt_iff_lt_mul hlimit).mpr (Nat.lt_of_lt_of_le hposition hcovered)
    · have hdivision := Nat.div_add_mod position limit
      have hmod := Nat.mod_lt position hlimit
      rw [Nat.mul_comm] at hdivision
      omega

theorem covered_iff {limit full : Nat}
    (h : PagesRead upstream providerName limit .empty collection full) :
    upstream.events.length ≤ (full + 1) * limit ↔ PagesFull upstream limit := by
  have hoffset : ∀ i, Collecting.empty.offset + i * limit = i * limit := fun i => Nat.zero_add _
  constructor
  · intro hcovered i hi
    have hfull : i < full := by
      have hlt := Nat.lt_of_mul_lt_mul_right (Nat.lt_of_lt_of_le hi hcovered)
      exact Nat.lt_of_succ_lt_succ hlt
    exact hoffset i ▸ h.filled i hfull
  · intro hpages
    by_contra hmore
    have hshort := h.short
    rw [hoffset] at hshort
    exact absurd (hpages full (Nat.lt_of_not_le hmore)) (Nat.not_le_of_lt hshort)

theorem collectSnapshot_complete_iff (registry : MarketRegistry)
    (hpage : 1 ≤ registry.refreshPolicy.pageSize) (state : RegistryState) (nowMs : Nat)
    {script : List Answer} (hcollect : collect registry.refreshPolicy script = some collection)
    (hanswered : AnsweredBy upstream registry.providerName collection) :
    ∃ next snapshot,
      registry.collectSnapshot state script nowMs =
        some (next, .ok (snapshot, collection.attempts)) ∧
      (Complete upstream registry collection snapshot ↔
        PagesFull upstream registry.refreshPolicy.pageSize) := by
  obtain ⟨full, hread⟩ := pagesRead_of_collectPages hpage hcollect hanswered
  have hend : registry.collectSnapshot state script nowMs =
      some (registry.endCollection state collection nowMs) := by
    rw [MarketRegistry.collectSnapshot, hcollect, Option.map_some]
  have hcovered := (visited_iff hread).trans (covered_iff hread)
  rw [hend, MarketRegistry.endCollection, hread.result]
  refine ⟨_, _, rfl, ?_⟩
  constructor
  · exact fun hcomplete => hcovered.mp hcomplete.visited
  · intro hpages
    refine ⟨hcovered.mpr hpages, ?_⟩
    intro event hevent record hrecord
    have hall := upstream.recordsFrom_zero ((covered_iff hread).mpr hpages)
    refine kept_of_mem (hall.symm ▸ upstream.distinct) rfl rfl record ?_
    rw [Collecting.empty, hall]
    exact List.mem_flatMap.mpr ⟨event, hevent, hrecord⟩

end Complete

/-- A refresh over the answers of the upstream ends, and it is complete exactly when
every page with events after it brings as many records as it has places. -/
theorem pagination_complete_iff (registry : MarketRegistry) {json : SerdeJson}
    (upstream : Upstream json) (hpage : 1 ≤ registry.refreshPolicy.pageSize) :
    (∃ script collection, collect registry.refreshPolicy script = some collection ∧
      AnsweredBy upstream registry.providerName collection) ∧
    ∀ (state : RegistryState) (nowMs : Nat) (script : List Answer) (collection : Collection),
      collect registry.refreshPolicy script = some collection →
      AnsweredBy upstream registry.providerName collection →
        ∃ next snapshot,
          registry.collectSnapshot state script nowMs =
            some (next, .ok (snapshot, collection.attempts)) ∧
          (Complete upstream registry collection snapshot ↔
            PagesFull upstream registry.refreshPolicy.pageSize) := by
  refine ⟨exists_collect upstream registry.providerName hpage, ?_⟩
  intro state nowMs script collection hcollect hanswered
  exact collectSnapshot_complete_iff registry hpage state nowMs hcollect hanswered

section Sample

def marketOf (id : String) : GammaMarket :=
  { id, conditionId := none, outcomes := some (.plain ["Yes", "No"])
    clobTokenIds := some (.plain ["token-yes", "token-no"]), active := true, closed := false
    enableOrderBook := true, orderPriceMinTickSize := none, tickSize := some (.string "0.01")
    orderMinSize := none, minimumOrderSize := none, rewardsMinSize := none
    rewardsMaxSpread := none }

def firstMarket : GammaMarket := marketOf "market-1"

def laterMarket : GammaMarket := marketOf "market-2"

def emptyEventText : String := "\x7b\"markets\":[]\x7d"

def eventText (id : String) : String :=
  "\x7b\"markets\":[\x7b\"id\":\"" ++ id ++ "\",\"outcomes\":[\"Yes\",\"No\"]," ++
    "\"clobTokenIds\":[\"token-yes\",\"token-no\"],\"active\":true," ++
    "\"enableOrderBook\":true,\"tickSize\":\"0.01\"\x7d]\x7d"

/-- The JSON library on the texts of the samples. -/
def sampleJson : SerdeJson :=
  { events := fun body =>
      if body = "[]" then .ok []
      else if body = "[" ++ emptyEventText ++ "]" then .ok [⟨[]⟩]
      else if body = "[" ++ eventText "market-1" ++ "]" then .ok [⟨[firstMarket]⟩]
      else if body = "[" ++ eventText "market-2" ++ "]" then .ok [⟨[laterMarket]⟩]
      else if body = "[" ++ emptyEventText ++ "," ++ eventText "market-2" ++ "]" then
        .ok [⟨[]⟩, ⟨[laterMarket]⟩]
      else if body = "[" ++ eventText "market-1" ++ "," ++ eventText "market-2" ++ "]" then
        .ok [⟨[firstMarket]⟩, ⟨[laterMarket]⟩]
      else .error "expected value at line 1 column 1"
    strings := fun _ => .error "expected value at line 1 column 1" }

/-- The pages over an event of this text and the event of the second market. -/
def sampleBody (first : String) (request : RegistryPageRequest) : String :=
  match request.offset, request.limit with
  | 0, 0 => "[]"
  | 0, 1 => "[" ++ first ++ "]"
  | 0, _ + 2 => "[" ++ first ++ "," ++ eventText "market-2" ++ "]"
  | 1, 0 => "[]"
  | 1, _ + 1 => "[" ++ eventText "market-2" ++ "]"
  | _ + 2, _ => "[]"

theorem sampleBody_serves {text : String} {event : GammaEvent}
    (hfirst : sampleJson.events ("[" ++ text ++ "]") = .ok [event])
    (hboth : sampleJson.events ("[" ++ text ++ "," ++ eventText "market-2" ++ "]") =
      .ok [event, ⟨[laterMarket]⟩]) (request : RegistryPageRequest) :
    sampleJson.events (sampleBody text request) =
      .ok (([event, ⟨[laterMarket]⟩] : List GammaEvent).drop request.offset |>.take
        request.limit) := by
  have hnone : sampleJson.events "[]" = .ok [] := by decide +kernel
  have hlater : sampleJson.events ("[" ++ eventText "market-2" ++ "]") =
      .ok [⟨[laterMarket]⟩] := by
    decide +kernel
  rcases request with ⟨_ | _ | offset, _ | _ | limit⟩
  · exact hnone
  · exact hfirst
  · rw [List.drop_zero, List.take_of_length_le (by simp)]
    exact hboth
  · exact hnone
  · exact hlater
  · rw [List.take_of_length_le (by simp)]
    exact hlater
  all_goals
    rw [List.drop_of_length_le (by simp), List.take_nil]
    exact hnone

/-- An event without markets before an event with one. -/
def sampleUpstream : Upstream sampleJson :=
  { events := [⟨[]⟩, ⟨[laterMarket]⟩]
    distinct := by decide
    body := sampleBody emptyEventText
    serves := sampleBody_serves (by decide +kernel) (by decide +kernel) }

/-- Two events with a market each. -/
def fullUpstream : Upstream sampleJson :=
  { events := [⟨[firstMarket]⟩, ⟨[laterMarket]⟩]
    distinct := by decide
    body := sampleBody (eventText "market-1")
    serves := sampleBody_serves (by decide +kernel) (by decide +kernel) }

theorem pagesFull_fullUpstream : PagesFull fullUpstream 1 := by
  rintro (_ | _ | i) hlater
  · exact le_rfl
  · exact le_rfl
  · simp only [fullUpstream, List.length_cons, List.length_nil] at hlater
    omega

/-- With one event in a page, three pages bring both markets. -/
theorem pagination_complete_iff_samplePages :
    let script : List Answer :=
      [0, 1, 2].map fun offset => .ok (fullUpstream.page "fixture-registry" 1 offset)
    ∃ collection next snapshot,
      collect (fixtureRegistry 1).refreshPolicy script = some collection ∧
        collection.fetches.length = 3 ∧
        (fixtureRegistry 1).collectSnapshot .default script 0 =
          some (next, .ok (snapshot, collection.attempts)) ∧
        Complete fullUpstream (fixtureRegistry 1) collection snapshot := by
  intro script
  obtain ⟨collection, hcollect, hlength, hanswered⟩ : ∃ collection,
      collect (fixtureRegistry 1).refreshPolicy script = some collection ∧
        collection.fetches.length = 3 ∧
        AnsweredBy fullUpstream (fixtureRegistry 1).providerName collection := by
    refine ⟨_, rfl, rfl, ?_⟩
    intro fetch hmem
    rcases List.mem_cons.mp hmem with rfl | hmem
    · exact (fullUpstream.answer_eq _ 1 0).symm
    rcases List.mem_cons.mp hmem with rfl | hmem
    · exact (fullUpstream.answer_eq _ 1 1).symm
    · rw [List.mem_singleton.mp hmem]
      exact (fullUpstream.answer_eq _ 1 2).symm
  obtain ⟨next, snapshot, hsnapshot, hcomplete⟩ :=
    (pagination_complete_iff (fixtureRegistry 1) fullUpstream (by decide)).2 .default 0 script
      collection hcollect hanswered
  exact ⟨collection, next, snapshot, hcollect, hlength, hsnapshot,
    hcomplete.mpr pagesFull_fullUpstream⟩

/-- With one event in a page, the event without markets ends the refresh before the
market. -/
theorem empty_event_ends_refresh :
    ¬ ∀ script collection next snapshot,
      collect (fixtureRegistry 1).refreshPolicy script = some collection →
      AnsweredBy sampleUpstream (fixtureRegistry 1).providerName collection →
      (fixtureRegistry 1).collectSnapshot .default script 0 =
        some (next, .ok (snapshot, collection.attempts)) →
          Complete sampleUpstream (fixtureRegistry 1) collection snapshot := by
  intro h
  let page : RegistryPage := { markets := [], quarantined := [], nextOffset := none }
  have hanswer : sampleUpstream.answer (fixtureRegistry 1).providerName
      { offset := 0, limit := 1 } = .ok page := sampleUpstream.answer_eq _ 1 0
  have hkept := (h [.ok page] _ _ _ rfl ?_ rfl).kept ⟨[laterMarket]⟩ (by decide) laterMarket
    (by decide)
  · have hnormal : ∃ market, normalizeGammaMarket sampleJson laterMarket = .ok market :=
      ⟨_, rfl⟩
    obtain ⟨market, hmarket⟩ := hnormal
    simp only [Kept, hmarket] at hkept
    have hempty : (∅ : Std.TreeMap MarketId MarketMeta)[market.marketId]? = none :=
      Std.TreeMap.getElem?_emptyc
    exact absurd (hempty.symm.trans hkept) (by simp)
  · intro fetch hmem
    rw [List.mem_singleton.mp hmem]
    exact hanswer.symm

end Sample

end Rtt.RegistryPagination
