import Rtt.ManagerAgreement

namespace Rtt.ReferenceHistory

open Rtt.Machine
open Rtt.PartialMap
open Rtt.PublicEvent
open Rtt.MarketMessages
open Rtt.Feed
open Rtt.FeedManager
open Rtt.ManagerAgreement
open Rtt.SubscriptionPlan

def isBook : NormalizedUpdatePayload → Bool
  | .bookSnapshot _ | .bookDelta _ => true
  | _ => false

def referencePrice? : NormalizedUpdatePayload → Option ReferencePriceUpdate
  | .referencePrice update => some update
  | _ => none

def tradeTick? : NormalizedUpdatePayload → Option TradeTickUpdate
  | .tradeTick update => some update
  | _ => none

def bestBidAsk? : NormalizedUpdatePayload → Option BestBidAskUpdate
  | .bestBidAsk update => some update
  | _ => none

def tickSizeChange? : NormalizedUpdatePayload → Option TickSizeChangeUpdate
  | .tickSizeChange update => some update
  | _ => none

def sourceStatus? : NormalizedUpdatePayload → Option SourceStatusUpdate
  | .sourceStatus update => some update
  | _ => none

def reconnect? : NormalizedUpdatePayload → Option ReconnectUpdate
  | .reconnect update => some update
  | _ => none

/-- The last payload of one kind. -/
def latest {α : Type} (pick : NormalizedUpdatePayload → Option α)
    (updates : List NormalizedUpdate) : Option α :=
  (updates.filterMap fun update => pick update.payload).getLast?

/-- What remains of some updates: the last notice, and the last data of each kind. -/
def latestState (updates : List NormalizedUpdate) : ReferenceState :=
  { lastNotice := updates.getLast?.map NormalizedUpdate.notice
    lastReferencePrice := latest referencePrice? updates
    lastTradeTick := latest tradeTick? updates
    lastBestBidAsk := latest bestBidAsk? updates
    lastTickSizeChange := latest tickSizeChange? updates
    lastSourceStatus := latest sourceStatus? updates
    lastReconnect := latest reconnect? updates }

/-- What there is to remember of these updates. -/
def remembered (updates : List NormalizedUpdate) : Option ReferenceState :=
  if updates = [] then none else some (latestState updates)

theorem latest_concat {α : Type} (pick : NormalizedUpdatePayload → Option α)
    (updates : List NormalizedUpdate) (update : NormalizedUpdate) :
    latest pick (updates ++ [update]) = (pick update.payload).or (latest pick updates) := by
  rw [latest, List.filterMap_append, List.filterMap_cons, List.filterMap_nil]
  cases pick update.payload with
  | none => rw [List.append_nil, Option.none_or, latest]
  | some value => rw [List.getLast?_concat, Option.some_or]

theorem getD_remembered (updates : List NormalizedUpdate) :
    (remembered updates).getD .empty = latestState updates := by
  rw [remembered]
  split
  · rename_i hnone
    rw [hnone]
    rfl
  · rfl

theorem remembered_concat (updates : List NormalizedUpdate) {update : NormalizedUpdate}
    (hdata : isBook update.payload = false) :
    remembered (updates ++ [update]) =
      some ({ (remembered updates).getD .empty with
        lastNotice := some update.notice }.record update.payload) := by
  rw [getD_remembered, remembered, if_neg (by simp)]
  refine congrArg some ?_
  simp only [latestState, latest_concat, List.getLast?_concat, Option.map_some]
  cases hpayload : update.payload with
  | bookSnapshot book => simp [hpayload, isBook] at hdata
  | bookDelta book => simp [hpayload, isBook] at hdata
  | _ => rfl

section Store

/-- The subject's updates that reach the reference store. -/
def concerning (subject : InstrumentRef) (updates : List NormalizedUpdate) :
    List NormalizedUpdate :=
  updates.filter fun update => !isBook update.payload && update.notice.subject = subject

theorem forSubject_inj {subject other : InstrumentRef} :
    ReferenceStoreKey.forSubject subject = .forSubject other ↔ subject = other := by
  constructor
  · intro hkey
    obtain ⟨sourceId, kind, instrumentId⟩ := subject
    obtain ⟨sourceId', kind', instrumentId'⟩ := other
    simp only [ReferenceStoreKey.forSubject, ReferenceStoreKey.mk.injEq] at hkey
    obtain ⟨rfl, hkind, rfl⟩ := hkey
    rw [InstrumentKind.debugName_injective hkind]
  · rintro rfl
    rfl

theorem resolveSubject_applyUpdate {stores : FeedStores} {subject : InstrumentRef}
    {heard : List NormalizedUpdate}
    (h : stores.referenceStore.resolveSubject subject = remembered heard)
    (update : NormalizedUpdate) :
    (applyUpdateToStores stores update).referenceStore.resolveSubject subject =
      remembered (heard ++ concerning subject [update]) := by
  cases hbook : isBook update.payload with
  | true =>
      have hkept : (applyUpdateToStores stores update).referenceStore = stores.referenceStore := by
        rw [applyUpdateToStores]
        cases hpayload : update.payload with
        | bookSnapshot book => rfl
        | bookDelta book => rfl
        | _ => simp [hpayload, isBook] at hbook
      rw [hkept, h]
      simp [concerning, hbook]
  | false =>
      have happlied : (applyUpdateToStores stores update).referenceStore =
          stores.referenceStore.applyUpdate update := by
        rw [applyUpdateToStores]
        cases hpayload : update.payload with
        | bookSnapshot book => simp [hpayload, isBook] at hbook
        | bookDelta book => simp [hpayload, isBook] at hbook
        | _ => rfl
      rw [happlied, ReferenceStore.resolveSubject, ReferenceStore.applyUpdate]
      simp only
      rw [insert_apply]
      by_cases hsubject : update.notice.subject = subject
      · have hown : concerning subject [update] = [update] := by
          simp [concerning, hbook, hsubject]
        rw [if_pos (by rw [hsubject]), hown, remembered_concat heard hbook, ← h, hsubject]
        rfl
      · have hother : concerning subject [update] = [] := by
          simp [concerning, hsubject]
        rw [if_neg fun hkey => hsubject (forSubject_inj.mp hkey).symm, hother, List.append_nil]
        exact h

theorem resolveSubject_exec {stores : FeedStores} {subject : InstrumentRef}
    {heard : List NormalizedUpdate}
    (h : stores.referenceStore.resolveSubject subject = remembered heard)
    (updates : List NormalizedUpdate) :
    (exec processUpdate stores updates).referenceStore.resolveSubject subject =
      remembered (heard ++ concerning subject updates) := by
  induction updates generalizing stores heard with
  | nil => rwa [concerning, List.filter_nil, List.append_nil]
  | cons update updates ih =>
      have hnext := ih (resolveSubject_applyUpdate h update)
      have hconcerning : concerning subject (update :: updates) =
          concerning subject [update] ++ concerning subject updates :=
        List.filter_append [update] updates
      rw [hconcerning, ← List.append_assoc]
      exact hnext

end Store

section Manager

variable {manager : PolymarketFeedManager} {subject : InstrumentRef}

/-- The call drops the subject's asset. -/
def Drops (subject : InstrumentRef) (manager next : PolymarketFeedManager) : Prop :=
  subject.kind = .asset ∧ subject.sourceId = manager.sourceId ∧
    subject.instrumentId ∈ manager.assetIds ∧ subject.instrumentId ∉ next.assetIds

instance (subject : InstrumentRef) (manager next : PolymarketFeedManager) :
    Decidable (Drops subject manager next) :=
  inferInstanceAs (Decidable (_ ∧ _))

/-- What was published about the subject since it was last dropped. -/
def heard (subject : InstrumentRef) :
    PolymarketFeedManager → List NormalizedUpdate → List ManagerInput → List NormalizedUpdate
  | _, past, [] => past
  | manager, past, input :: rest =>
      let (next, published) := managerStep manager input
      heard subject next
        ((if Drops subject manager next then [] else past) ++
          concerning subject (published.map Published.update)) rest

theorem resolveSubject_clearAssets (removes : List String) :
    (manager.clearAssets removes).referenceStore.resolveSubject subject =
      if subject.kind = .asset ∧ subject.sourceId = manager.sourceId ∧
          subject.instrumentId ∈ removes then none
      else manager.stores.referenceStore.resolveSubject subject := by
  have hclears := (@clearsExactly_clearAssets manager removes).2 (.forSubject subject)
  rw [ReferenceStore.resolveSubject, hclears, ReferenceStore.resolveSubject]
  refine if_congr ?_ rfl rfl
  simp only [ReferenceStoreKey.forSubject, InstrumentKind.debugName_injective.eq_iff]
  tauto

theorem remembered_step {past : List NormalizedUpdate}
    (h : manager.stores.referenceStore.resolveSubject subject = remembered past)
    (input : ManagerInput) :
    (managerStep manager input).1.stores.referenceStore.resolveSubject subject =
      remembered ((if Drops subject manager (managerStep manager input).1 then [] else past) ++
        concerning subject ((managerStep manager input).2.map Published.update)) := by
  cases input with
  | message message =>
      have hnot : ¬ Drops subject manager (managerStep manager (.message message)).1 :=
        fun hdrops => hdrops.2.2.2 hdrops.2.2.1
      rw [if_neg hnot]
      have hupdates : (managerStep manager (.message message)).2.map Published.update =
          message.toNormalizedUpdates.map fun update =>
            scopeUpdateToSource update manager.sourceId .polymarketWs :=
        map_update_processMessage manager.sourceId manager.stores message
      rw [hupdates]
      exact resolveSubject_exec h _
  | reconfigureAssets assetIds =>
      rw [managerStep, List.map_nil, concerning, List.filter_nil, List.append_nil]
      obtain ⟨-, hcall⟩ | ⟨-, hcall⟩ := reconfigureAssets_cases manager assetIds
      · rw [hcall, if_neg fun hdrops => hdrops.2.2.2 hdrops.2.2.1]
        exact h
      · rw [hcall]
        simp only
        rw [resolveSubject_clearAssets, h]
        split
        · rename_i hcleared
          obtain ⟨hkind, hsource, hremoved⟩ := hcleared
          simp only [planSubscriptionDiff, List.mem_filter, Std.TreeSet.mem_toList,
            Std.TreeSet.mem_ofList, List.contains_iff_mem, Bool.not_eq_true',
            ← Bool.not_eq_true, Std.TreeSet.contains_iff_mem] at hremoved
          rw [if_pos ⟨hkind, hsource, hremoved⟩]
          rfl
        · rename_i hkept
          rw [if_neg]
          rintro ⟨hkind, hsource, hassigned, hdropped⟩
          refine hkept ⟨hkind, hsource, ?_⟩
          simp only [planSubscriptionDiff, List.mem_filter, Std.TreeSet.mem_toList,
            Std.TreeSet.mem_ofList, List.contains_iff_mem, Bool.not_eq_true',
            ← Bool.not_eq_true, Std.TreeSet.contains_iff_mem]
          exact ⟨hassigned, hdropped⟩

theorem heard_cons (past : List NormalizedUpdate) (input : ManagerInput)
    (rest : List ManagerInput) :
    heard subject manager past (input :: rest) = heard subject (managerStep manager input).1
      ((if Drops subject manager (managerStep manager input).1 then [] else past) ++
        concerning subject ((managerStep manager input).2.map Published.update)) rest := rfl

theorem remembered_run {past : List NormalizedUpdate}
    (h : manager.stores.referenceStore.resolveSubject subject = remembered past)
    (inputs : List ManagerInput) :
    (exec managerStep manager inputs).stores.referenceStore.resolveSubject subject =
      remembered (heard subject manager past inputs) := by
  induction inputs generalizing manager past with
  | nil => exact h
  | cons input inputs ih => exact ih (remembered_step h input)

theorem concerning_append (xs ys : List NormalizedUpdate) :
    concerning subject (xs ++ ys) = concerning subject xs ++ concerning subject ys :=
  List.filter_append xs ys

theorem heard_suffix (manager : PolymarketFeedManager) (past : List NormalizedUpdate)
    (inputs : List ManagerInput) :
    heard subject manager past inputs <:+
      past ++ concerning subject
        ((outputs managerStep manager inputs).flatten.map Published.update) := by
  induction inputs generalizing manager past with
  | nil =>
      rw [outputs, List.flatten_nil, List.map_nil, concerning, List.filter_nil, List.append_nil]
      exact List.suffix_refl past
  | cons input inputs ih =>
      rw [outputs, List.flatten_cons, List.map_append, concerning_append, ← List.append_assoc,
        heard_cons]
      refine (ih (managerStep manager input).1 _).trans ?_
      by_cases hdrops : Drops subject manager (managerStep manager input).1
      · rw [if_pos hdrops, List.nil_append, List.append_assoc]
        exact List.suffix_append past _
      · rw [if_neg hdrops]

theorem heard_of_kept (manager : PolymarketFeedManager) (past : List NormalizedUpdate)
    (inputs : List ManagerInput)
    (hkept : Along managerStep (fun manager input => ¬ Drops subject manager
      (managerStep manager input).1) manager inputs) :
    heard subject manager past inputs =
      past ++ concerning subject
        ((outputs managerStep manager inputs).flatten.map Published.update) := by
  induction inputs generalizing manager past with
  | nil =>
      rw [outputs, List.flatten_nil, List.map_nil, concerning, List.filter_nil, List.append_nil]
      rfl
  | cons input inputs ih =>
      obtain ⟨hfirst, hrest⟩ := hkept
      rw [outputs, List.flatten_cons, List.map_append, concerning_append, ← List.append_assoc,
        heard_cons, if_neg hfirst]
      exact ih _ _ hrest

/-- Over any calls and messages, what the manager holds on a subject besides its book is the
notice it has published last and of each kind of data the last one, as far as they were
published since the subject was last dropped; all it has published, if it never was. -/
theorem references_follow_stream (sourceId : SourceId) (assetIds : List String)
    (subscriptionPlanner : SubscriptionPlannerConfig) (inputs : List ManagerInput)
    (subject : InstrumentRef) :
    let origin := PolymarketFeedManager.withSubscriptionPlanner sourceId assetIds
      subscriptionPlanner
    let stores := (exec managerStep origin inputs).stores
    let since := heard subject origin [] inputs
    let all := concerning subject
      ((outputs managerStep origin inputs).flatten.map Published.update)
    since <:+ all ∧
      (Along managerStep (fun manager input => ¬ Drops subject manager
        (managerStep manager input).1) origin inputs → since = all) ∧
      stores.referenceStore.resolveSubject subject = remembered since ∧
      ∀ notice : UpdateNotice, notice.subject = subject → notice.kind ≠ .bookSnapshot →
        notice.kind ≠ .bookDelta →
          stores.resolveNotice notice = (remembered since).map .reference := by
  intro origin stores since all
  have hresolves : stores.referenceStore.resolveSubject subject = remembered since :=
    remembered_run rfl inputs
  refine ⟨heard_suffix origin [] inputs, heard_of_kept origin [] inputs, hresolves, ?_⟩
  intro notice hsubject hsnapshot hdelta
  rw [FeedStores.resolveNotice]
  split
  · rename_i hkind
    exact absurd hkind hsnapshot
  · rename_i hkind
    exact absurd hkind hdelta
  · rw [hsubject, hresolves]

end Manager

end Rtt.ReferenceHistory
