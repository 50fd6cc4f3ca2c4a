import Rtt.ConcurrentRefresh

namespace Rtt.UniverseRuns

open Rtt.Machine
open Rtt.PublicEvent (MarketId)
open Rtt.RegistryProvider
open Rtt.Registry
open Rtt.ConcurrentRefresh

section Selection

/-- The policy wants the market, whatever the order of its checks. -/
def Wanted (policy : UniverseSelectionPolicy) (marketId : MarketId) (market : MarketMeta) : Prop :=
  marketId ∉ policy.excludeMarkets ∧
    (marketId ∈ policy.includeMarkets ∨
      (policy.activeOnly = true → market.isTradable = true) ∧
        (policy.requireReward = true → market.reward.isSome = true))

/-- A universe of the markets: each is decided on once, in the order of their ids, and
those selected are those that the policy wants. -/
structure Selects (policy : UniverseSelectionPolicy) (markets : Std.TreeMap MarketId MarketMeta)
    (chosen : SelectedUniverse) : Prop where
  listed : chosen.decisions.map UniverseDecision.marketId = markets.keys
  decided : ∀ decision ∈ chosen.decisions, ∃ market,
    markets[decision.marketId]? = some market ∧
      (decision.decision, decision.reason) = policy.decide decision.marketId market
  ascending : chosen.selectedMarketIds.Pairwise (fun a b => compare a b = .lt)
  selected : ∀ marketId, marketId ∈ chosen.selectedMarketIds ↔
    ∃ market, markets[marketId]? = some market ∧ Wanted policy marketId market

theorem decide_included_iff (policy : UniverseSelectionPolicy) (marketId : MarketId)
    (market : MarketMeta) :
    (policy.decide marketId market).1 = .included ↔ Wanted policy marketId market := by
  simp only [UniverseSelectionPolicy.decide, Wanted, Std.TreeSet.mem_iff_contains]
  split_ifs with hexclude hinclude hactive hreward <;>
    simp_all [Option.isSome_iff_ne_none]

variable {policy : UniverseSelectionPolicy}

theorem selects_resolve (snapshot : RegistrySnapshot) (hbypass : policy.bypassRegistry = false) :
    Selects policy snapshot.markets (.resolve (some snapshot) policy) := by
  have hlisted : (SelectedUniverse.resolve (some snapshot) policy).decisions.map
      UniverseDecision.marketId = snapshot.markets.keys := by
    simp only [SelectedUniverse.resolve, hbypass, Bool.false_eq_true, if_false, List.map_map]
    exact Std.TreeMap.map_fst_toList_eq_keys
  have hdecided : ∀ decision ∈ (SelectedUniverse.resolve (some snapshot) policy).decisions,
      ∃ market, snapshot.markets[decision.marketId]? = some market ∧
        (decision.decision, decision.reason) = policy.decide decision.marketId market := by
    intro decision hdecision
    simp only [SelectedUniverse.resolve, hbypass, Bool.false_eq_true, if_false,
      List.mem_map] at hdecision
    obtain ⟨⟨marketId, market⟩, hmem, rfl⟩ := hdecision
    exact ⟨market, Std.TreeMap.mem_toList_iff_getElem?_eq_some.mp hmem, rfl⟩
  have hselected : (SelectedUniverse.resolve (some snapshot) policy).selectedMarketIds =
      ((SelectedUniverse.resolve (some snapshot) policy).decisions.filter
        fun decided => decided.decision = .included).map UniverseDecision.marketId := by
    simp [SelectedUniverse.resolve, hbypass]
  refine ⟨hlisted, hdecided, ?_, ?_⟩
  · rw [hselected]
    have hkeys : (snapshot.markets.keys).Pairwise (fun a b => compare a b = .lt) :=
      Std.TreeMap.ordered_keys
    rw [← hlisted] at hkeys
    exact hkeys.sublist (List.filter_sublist.map _)
  · intro marketId
    rw [hselected]
    simp only [List.mem_map, List.mem_filter, decide_eq_true_eq]
    constructor
    · rintro ⟨decision, ⟨hmem, hincluded⟩, rfl⟩
      obtain ⟨market, hmarket, hdecide⟩ := hdecided decision hmem
      refine ⟨market, hmarket, (decide_included_iff policy _ _).mp ?_⟩
      rw [← hdecide]
      exact hincluded
    · rintro ⟨market, hmarket, hwanted⟩
      refine ⟨{ marketId, decision := (policy.decide marketId market).1
                reason := (policy.decide marketId market).2 }, ⟨?_, ?_⟩, rfl⟩
      · simp only [SelectedUniverse.resolve, hbypass, Bool.false_eq_true, if_false, List.mem_map]
        exact ⟨(marketId, market), Std.TreeMap.mem_toList_iff_getElem?_eq_some.mpr hmarket, rfl⟩
      · exact (decide_included_iff policy _ _).mpr hwanted

end Selection

section Pages

variable {Caller : Type}

/-- The provider has answered with this page. -/
def Answered (past : List (Action Caller)) (page : RegistryPage) : Prop :=
  ∃ caller, .answer caller (.ok page) ∈ past

/-- The markets stand under their own ids and were sent by the provider. -/
def FromPages (past : List (Action Caller)) (markets : Std.TreeMap MarketId MarketMeta) : Prop :=
  ∀ marketId market, markets[marketId]? = some market →
    market.marketId = marketId ∧ ∃ page, Answered past page ∧ market ∈ page.markets

variable {past : List (Action Caller)} {page : RegistryPage}
  {markets : Std.TreeMap MarketId MarketMeta}

theorem Answered.later (h : Answered past page) (action : Action Caller) :
    Answered (past ++ [action]) page := by
  obtain ⟨caller, hmem⟩ := h
  exact ⟨caller, List.mem_append_left _ hmem⟩

theorem FromPages.later (h : FromPages past markets) (action : Action Caller) :
    FromPages (past ++ [action]) markets := by
  intro marketId market hmarket
  obtain ⟨hid, page, hanswered, hmem⟩ := h marketId market hmarket
  exact ⟨hid, page, hanswered.later action, hmem⟩

theorem fromPages_empty : FromPages past (∅ : Std.TreeMap MarketId MarketMeta) := by
  intro marketId market hmarket
  simp at hmarket

theorem FromPages.insertMarket (h : FromPages past markets) (hpage : Answered past page)
    {market : MarketMeta} (hmem : market ∈ page.markets) :
    FromPages past (insertMarket markets market) := by
  intro marketId found hfound
  rw [Registry.insertMarket, Std.TreeMap.getElem?_insert] at hfound
  split at hfound
  · rename_i heq
    obtain rfl := Option.some.inj hfound
    exact ⟨Std.LawfulEqCmp.eq_of_compare heq, page, hpage, hmem⟩
  · exact h marketId found hfound

theorem FromPages.addPage {collecting : Collecting} (h : FromPages past collecting.markets)
    (hpage : Answered past page) : FromPages past (collecting.addPage page).markets := by
  have hall : ∀ (sent : List MarketMeta) (markets : Std.TreeMap MarketId MarketMeta),
      (∀ market ∈ sent, market ∈ page.markets) → FromPages past markets →
        FromPages past (sent.foldl Registry.insertMarket markets) := by
    intro sent
    induction sent with
    | nil => exact fun markets _ hmarkets => hmarkets
    | cons market sent ih =>
        intro markets hsent hmarkets
        obtain ⟨hfirst, hrest⟩ := List.forall_mem_cons.mp hsent
        exact ih _ hrest (hmarkets.insertMarket hpage hfirst)
  exact hall page.markets collecting.markets (fun _ hmem => hmem) h

theorem fromPages_collectPages {policy : RegistryRefreshPolicy} {bound attempts : Nat}
    {collecting collected : Collecting} {script : List Answer} {collection : Collection}
    (h : collectPages policy bound collecting attempts script = some collection)
    (hscript : ∀ page, .ok page ∈ script → Answered past page)
    (hstart : FromPages past collecting.markets) (hresult : collection.result = .ok collected) :
    FromPages past collected.markets := by
  induction bound generalizing collecting attempts script collection with
  | zero => exact absurd h (by simp [collectPages])
  | succ bound ih =>
      obtain ⟨fetch, rest, hfetch, hend⟩ := collectPages_cases h
      obtain ⟨-, hread, ⟨failed, hanswers, -⟩, -, -⟩ := fetchPageWithRetry_spec hfetch
      have hpage : ∀ page, fetch.result = .ok page → Answered past page := by
        intro page hok
        refine hscript page ?_
        rw [hread, hanswers, hok]
        simp
      obtain ⟨err, -, rfl⟩ | ⟨page, hok, -, rfl⟩ | ⟨page, offset, later, hok, -, hlater, rfl⟩ :=
        hend
      · simp at hresult
      · obtain rfl := Except.ok.inj hresult
        exact hstart.addPage (hpage page hok)
      · refine ih hlater ?_ (hstart.addPage (hpage page hok)) hresult
        intro other hother
        exact hscript other (by rw [hread]; exact List.mem_append_right _ hother)

end Pages

section Run

variable {Caller : Type} [DecidableEq Caller] {registry : MarketRegistry}
  {past : List (Action Caller)} {shared : Shared Caller}

/-- What is stored is one snapshot and the universe selected from it. -/
structure StateSound (registry : MarketRegistry) (past : List (Action Caller))
    (state : RegistryState) : Prop where
  snapshot : state.currentSnapshot = state.lastGoodSnapshot
  universes : state.currentUniverse = state.lastGoodUniverse
  selected : state.lastGoodUniverse = state.lastGoodSnapshot.map fun snapshot =>
    .resolve (some snapshot) registry.selectionPolicy
  pages : ∀ snapshot ∈ state.lastGoodSnapshot, FromPages past snapshot.markets

/-- What a caller has in hand comes from pages of the provider. -/
def PhaseSound (past : List (Action Caller)) : Phase → Prop
  | .idle => True
  | .collecting script => ∀ page, .ok page ∈ script → Answered past page
  | .collected collection =>
      ∀ collecting, collection.result = .ok collecting → FromPages past collecting.markets
  | .numbered _ collected =>
      ∀ snapshot attempts, collected = .ok (snapshot, attempts) → FromPages past snapshot.markets

/-- The invariant of the registry and of all refreshes under way. -/
structure Sound (registry : MarketRegistry) (past : List (Action Caller))
    (shared : Shared Caller) : Prop where
  state : StateSound registry past shared.registry
  phases : ∀ caller, PhaseSound past (shared.phase caller)

omit [DecidableEq Caller] in
theorem PhaseSound.later {phase : Phase} (h : PhaseSound past phase) (action : Action Caller) :
    PhaseSound (past ++ [action]) phase := by
  cases phase with
  | idle => trivial
  | collecting script => exact fun page hpage => (h page hpage).later action
  | collected collection => exact fun collecting hok => (h collecting hok).later action
  | numbered turn collected =>
      exact fun snapshot attempts hok => (h snapshot attempts hok).later action

omit [DecidableEq Caller] in
theorem StateSound.later {state : RegistryState} (h : StateSound registry past state)
    (action : Action Caller) : StateSound registry (past ++ [action]) state :=
  { h with pages := fun snapshot hsnapshot => (h.pages snapshot hsnapshot).later action }

omit [DecidableEq Caller] in
theorem Sound.later (h : Sound registry past shared) (action : Action Caller) :
    Sound registry (past ++ [action]) shared :=
  ⟨h.state.later action, fun caller => (h.phases caller).later action⟩

theorem Sound.moveTo (h : Sound registry past shared) (caller : Caller) {phase : Phase}
    (hphase : PhaseSound past phase) : Sound registry past (shared.moveTo caller phase) := by
  refine ⟨h.state, ?_⟩
  intro other
  rcases eq_or_ne other caller with rfl | hne
  · rw [Shared.phase_moveTo_self]
    exact hphase
  · rw [Shared.phase_moveTo_of_ne _ hne]
    exact h.phases other

theorem Sound.startCall (h : Sound registry past shared) (caller : Caller) :
    Sound registry past (startCall shared caller) := by
  unfold ConcurrentRefresh.startCall
  split
  · exact h.moveTo caller (fun page hpage => absurd hpage List.not_mem_nil)
  · exact h
  · exact h
  · exact h

theorem Sound.readAnswer (h : Sound registry past shared) (caller : Caller) (answer : Answer)
    (hanswer : ∀ page, answer = .ok page → Answered past page) :
    Sound registry past (readAnswer registry shared caller answer) := by
  unfold ConcurrentRefresh.readAnswer
  split
  · rename_i script hphase
    have hscript : ∀ page, .ok page ∈ script ++ [answer] → Answered past page := by
      intro page hpage
      have hbefore := h.phases caller
      rw [hphase] at hbefore
      rcases List.mem_append.mp hpage with hmem | hmem
      · exact hbefore page hmem
      · exact hanswer page (List.mem_singleton.mp hmem).symm
    simp only
    split
    · rename_i collection hcollect
      refine h.moveTo caller ?_
      intro collecting hok
      exact fromPages_collectPages hcollect hscript fromPages_empty hok
    · exact h.moveTo caller hscript
  · exact h
  · exact h
  · exact h

theorem Sound.numberSnapshot (h : Sound registry past shared) (caller : Caller) (nowMs : Nat) :
    Sound registry past (numberSnapshot registry shared caller nowMs) := by
  unfold ConcurrentRefresh.numberSnapshot
  split
  · rename_i collection hphase
    have hcollected := h.phases caller
    rw [hphase] at hcollected
    cases hresult : collection.result with
    | error err =>
        simp only [MarketRegistry.endCollection, hresult]
        have hmoved := @Sound.moveTo _ _ _ _ _ h caller
          (.numbered shared.turns (.error (err, collection.attempts))) (by simp [PhaseSound])
        exact ⟨hmoved.state, hmoved.phases⟩
    | ok collecting =>
        simp only [MarketRegistry.endCollection, hresult]
        have hpages := hcollected collecting hresult
        refine ⟨⟨h.state.snapshot, h.state.universes, h.state.selected, h.state.pages⟩, ?_⟩
        refine (h.moveTo caller ?_).phases
        rintro snapshot attempts ⟨⟩
        exact hpages
  · exact h
  · exact h
  · exact h

/-- A refresh that returns a snapshot returns the universe selected from that snapshot. -/
structure OutcomeSound (registry : MarketRegistry) (past : List (Action Caller))
    (outcome : RegistryRefreshOutcome) : Prop where
  selected : outcome.selectedUniverse = .resolve (some outcome.snapshot) registry.selectionPolicy
  pages : FromPages past outcome.snapshot.markets
  degraded : outcome.degraded = outcome.error.isSome

omit [DecidableEq Caller] in
theorem OutcomeSound.later {outcome : RegistryRefreshOutcome}
    (h : OutcomeSound registry past outcome) (action : Action Caller) :
    OutcomeSound registry (past ++ [action]) outcome :=
  { h with pages := h.pages.later action }

theorem Sound.storeSnapshot (h : Sound registry past shared) (caller : Caller) :
    Sound registry past (storeSnapshot registry shared caller).1 ∧
      ∀ result ∈ (storeSnapshot registry shared caller).2, ∀ outcome, result = .ok outcome →
        OutcomeSound registry past outcome := by
  unfold ConcurrentRefresh.storeSnapshot
  split
  · rename_i turn collected hphase
    have hnumbered := h.phases caller
    rw [hphase] at hnumbered
    have hidle : ∀ other, PhaseSound past ((shared.moveTo caller .idle).phase other) :=
      (@Sound.moveTo _ _ _ _ _ h caller .idle trivial).phases
    rcases collected with ⟨err, attempts⟩ | ⟨snapshot, attempts⟩
    · refine ⟨⟨h.state, hidle⟩, ?_⟩
      rintro _ ⟨⟩ outcome houtcome
      simp only [h.state.selected] at houtcome
      cases hgood : shared.registry.lastGoodSnapshot with
      | none => simp [hgood] at houtcome
      | some snapshot =>
          simp only [hgood, Option.map_some, Except.ok.injEq] at houtcome
          rw [← houtcome]
          exact ⟨rfl, h.state.pages snapshot hgood, rfl⟩
    · have hpages := hnumbered snapshot attempts rfl
      refine ⟨⟨⟨rfl, rfl, rfl, ?_⟩, hidle⟩, ?_⟩
      · rintro _ ⟨⟩
        exact hpages
      · rintro _ ⟨⟩ outcome houtcome
        rw [← Except.ok.inj houtcome]
        exact ⟨rfl, hpages, rfl⟩
  · exact ⟨h, by simp⟩
  · exact ⟨h, by simp⟩
  · exact ⟨h, by simp⟩

theorem Sound.step (h : Sound registry past shared) (action : Action Caller) :
    Sound registry (past ++ [action]) (sharedStep registry shared action).1 ∧
      ∀ result ∈ (sharedStep registry shared action).2, ∀ outcome, result = .ok outcome →
        OutcomeSound registry (past ++ [action]) outcome := by
  have hlater := h.later action
  cases action with
  | call caller => exact ⟨hlater.startCall caller, by simp [sharedStep]⟩
  | answer caller answer =>
      refine ⟨hlater.readAnswer caller answer ?_, by simp [sharedStep]⟩
      rintro page rfl
      exact ⟨caller, by simp⟩
  | number caller nowMs => exact ⟨hlater.numberSnapshot caller nowMs, by simp [sharedStep]⟩
  | store caller => exact hlater.storeSnapshot caller

theorem sound_run (registry : MarketRegistry) (schedule : List (Action Caller)) :
    Sound registry schedule (exec (sharedStep registry) .start schedule) ∧
      ∀ result ∈ outputs (sharedStep registry) .start schedule, ∀ outcome,
        result = some (.ok outcome) → OutcomeSound registry schedule outcome := by
  refine run_induction (sharedStep registry) (P := fun _ _ => True)
    (motive := fun past shared results => Sound registry past shared ∧
      ∀ result ∈ results, ∀ outcome, result = some (.ok outcome) →
        OutcomeSound registry past outcome) ?_ ?_ schedule (along_true _ _)
  · refine ⟨⟨⟨rfl, rfl, rfl, ?_⟩, fun _ => trivial⟩, by simp⟩
    intro snapshot hsnapshot
    exact absurd hsnapshot (by simp [Shared.start, RegistryState.default])
  · rintro past shared results action ⟨h, hresults⟩ -
    obtain ⟨hstep, hreturned⟩ := h.step action
    refine ⟨hstep, ?_⟩
    intro result hresult outcome houtcome
    rcases List.mem_append.mp hresult with hbefore | hnew
    · exact (hresults result hbefore outcome houtcome).later action
    · rw [List.mem_singleton.mp hnew] at houtcome
      exact hreturned _ houtcome outcome rfl

/-- Whatever refreshes overtake each other, the registry's universe and every universe that
a refresh returns are the selection from the snapshot beside it, of markets that the
provider has sent. -/
theorem universe_of_its_snapshot (registry : MarketRegistry)
    (hbypass : registry.selectionPolicy.bypassRegistry = false)
    (schedule : List (Action Caller)) :
    let state := (exec (sharedStep registry) .start schedule).registry
    (∀ snapshot ∈ state.currentSnapshot, FromPages schedule snapshot.markets ∧
      ∃ chosen, state.currentUniverse = some chosen ∧
        Selects registry.selectionPolicy snapshot.markets chosen) ∧
    ∀ outcome, some (.ok outcome) ∈ outputs (sharedStep registry) .start schedule →
      FromPages schedule outcome.snapshot.markets ∧
        Selects registry.selectionPolicy outcome.snapshot.markets outcome.selectedUniverse := by
  obtain ⟨⟨hstate, -⟩, hresults⟩ := sound_run registry schedule
  refine ⟨?_, ?_⟩
  · intro snapshot hsnapshot
    rw [hstate.snapshot] at hsnapshot
    refine ⟨hstate.pages snapshot hsnapshot, _, ?_, selects_resolve snapshot hbypass⟩
    rw [hstate.universes, hstate.selected, hsnapshot]
    rfl
  · intro outcome houtcome
    have hsound := hresults _ houtcome outcome rfl
    refine ⟨hsound.pages, ?_⟩
    rw [hsound.selected]
    exact selects_resolve outcome.snapshot hbypass

/-- The refresh that was numbered first stores its snapshot last. -/
def overtaken : List (Action Refresher) := bothNumbered ++ [.store .fast, .store .slow]

theorem universe_of_its_snapshot_overtaken :
    let state := (exec (sharedStep (fixtureRegistry 2)) .start overtaken).registry
    (∀ snapshot ∈ state.currentSnapshot, FromPages overtaken snapshot.markets ∧
      ∃ chosen, state.currentUniverse = some chosen ∧
        Selects (fixtureRegistry 2).selectionPolicy snapshot.markets chosen) ∧
    ∀ outcome, some (.ok outcome) ∈
        outputs (sharedStep (fixtureRegistry 2)) .start overtaken →
      FromPages overtaken outcome.snapshot.markets ∧
        Selects (fixtureRegistry 2).selectionPolicy outcome.snapshot.markets
          outcome.selectedUniverse :=
  universe_of_its_snapshot (fixtureRegistry 2) rfl overtaken

end Run

end Rtt.UniverseRuns
