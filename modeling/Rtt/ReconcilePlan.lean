import Rtt.OrderManager
import Rtt.QuoteLifecycle
import Rtt.SetReconciliation

namespace Rtt.ReconcilePlan

open Rtt.Quote
open Rtt.OrderState
open Rtt.KeyIndex
open Rtt.OrderManager
open Rtt.QuoteLifecycle
open Rtt.SetReconciliation

/-- The wanted quote of an id.  The last entry counts. -/
def wanted (desired : DesiredQuotes) (quoteId : QuoteId) : Option DesiredQuote :=
  lastWith DesiredQuote.quoteId quoteId desired.quotes

/-- The record that the planner uses for a quote: the last one with its id. -/
def record (working : List WorkingQuote) (quoteId : QuoteId) : Option WorkingQuote :=
  lastWith WorkingQuote.quoteId quoteId working

section

variable (self : LocalOrderManager) (desired : DesiredQuotes) (working : List WorkingQuote)
  (nowMs : Nat)

/-- The quote has changed and may be replaced now. -/
def replaceDue (quote : WorkingQuote) (desiredQuote : DesiredQuote) : Bool :=
  self.isMaterialChange quote desiredQuote && self.cooldownElapsed quote nowMs

/-- What the planner sees, as sets of quote ids. -/
def situation : Situation QuoteId where
  live := fun quoteId => ∃ quote, record working quoteId = some quote ∧ quote.isCancelable
  wanted := fun quoteId => ∃ desiredQuote, wanted desired quoteId = some desiredQuote
  stale := fun quoteId => ∃ quote desiredQuote, record working quoteId = some quote ∧
    wanted desired quoteId = some desiredQuote ∧ replaceDue self nowMs quote desiredQuote

/-- The cancels of a plan, in the order of the ids. -/
def plannedCancels : List ExecutionCommand :=
  (indexBy WorkingQuote.quoteId working).toList.filterMap fun entry =>
    self.cancelCommand (indexBy DesiredQuote.quoteId desired.quotes) nowMs entry.1 entry.2

/-- The places of a plan, in the order of the ids. -/
def plannedPlaces : List ExecutionCommand :=
  (indexBy DesiredQuote.quoteId desired.quotes).toList.filterMap fun entry =>
    self.placeCommand (indexBy WorkingQuote.quoteId working) nowMs entry.1 entry.2

end

variable {self : LocalOrderManager} {desired : DesiredQuotes} {working : List WorkingQuote}
  {nowMs : Nat}

theorem mem_live {quoteId : QuoteId} :
    quoteId ∈ (situation self desired working nowMs).live ↔
      ∃ quote, record working quoteId = some quote ∧ quote.isCancelable :=
  Iff.rfl

theorem mem_wanted {quoteId : QuoteId} :
    quoteId ∈ (situation self desired working nowMs).wanted ↔
      ∃ desiredQuote, wanted desired quoteId = some desiredQuote :=
  Iff.rfl

theorem mem_stale {quoteId : QuoteId} :
    quoteId ∈ (situation self desired working nowMs).stale ↔
      ∃ quote desiredQuote, record working quoteId = some quote ∧
        wanted desired quoteId = some desiredQuote ∧
          replaceDue self nowMs quote desiredQuote :=
  Iff.rfl

theorem stale_iff {quoteId : QuoteId} {quote : WorkingQuote} {desiredQuote : DesiredQuote}
    (hrecord : record working quoteId = some quote)
    (hwanted : wanted desired quoteId = some desiredQuote) :
    quoteId ∈ (situation self desired working nowMs).stale ↔
      replaceDue self nowMs quote desiredQuote := by
  rw [mem_stale, hrecord, hwanted]
  constructor
  · rintro ⟨quote', desiredQuote', hquote, hdesired, hdue⟩
    rw [Option.some.inj hquote, Option.some.inj hdesired]
    exact hdue
  · intro hdue
    exact ⟨quote, desiredQuote, rfl, rfl, hdue⟩

theorem wanted_iff {quoteId : QuoteId} :
    quoteId ∈ (situation self desired working nowMs).wanted ↔
      ∃ desiredQuote ∈ desired.quotes, desiredQuote.quoteId = quoteId :=
  exists_lastWith_iff

theorem cancelCommand_eq {quoteId : QuoteId} {quote : WorkingQuote} {command : ExecutionCommand} :
    self.cancelCommand (indexBy DesiredQuote.quoteId desired.quotes) nowMs quoteId quote =
        some command ↔
      quote.isCancelable ∧
        (∀ desiredQuote, wanted desired quoteId = some desiredQuote →
          replaceDue self nowMs quote desiredQuote) ∧
        .cancel quoteId = command := by
  simp only [LocalOrderManager.cancelCommand, getElem?_indexBy, wanted, replaceDue]
  cases quote.isCancelable with
  | false => simp
  | true =>
      cases lastWith DesiredQuote.quoteId quoteId desired.quotes with
      | none => simp
      | some desiredQuote => simp

theorem placeCommand_eq {quoteId : QuoteId} {desiredQuote : DesiredQuote}
    {command : ExecutionCommand} :
    self.placeCommand (indexBy WorkingQuote.quoteId working) nowMs quoteId desiredQuote =
        some command ↔
      (∀ quote, record working quoteId = some quote → quote.isCancelable →
        replaceDue self nowMs quote desiredQuote) ∧
        .place desiredQuote = command := by
  simp only [LocalOrderManager.placeCommand, getElem?_indexBy, record, replaceDue]
  cases lastWith WorkingQuote.quoteId quoteId working with
  | none => simp
  | some quote =>
      cases hcancelable : quote.isCancelable with
      | false => simp [hcancelable]
      | true => simp [hcancelable]

theorem mem_plannedCancels {command : ExecutionCommand} :
    command ∈ plannedCancels self desired working nowMs ↔
      ∃ quoteId ∈ (situation self desired working nowMs).withdrawn,
        command = .cancel quoteId := by
  simp only [plannedCancels, List.mem_filterMap, Prod.exists, mem_toList_indexBy,
    cancelCommand_eq, Situation.mem_withdrawn, mem_live, mem_wanted]
  constructor
  · rintro ⟨quoteId, quote, hrecord, hcancelable, hdue, rfl⟩
    refine ⟨quoteId, ⟨⟨quote, hrecord, hcancelable⟩, ?_⟩, rfl⟩
    cases hwanted : wanted desired quoteId with
    | none => exact Or.inl (by simp)
    | some desiredQuote =>
        exact Or.inr ((stale_iff hrecord hwanted).mpr (hdue desiredQuote hwanted))
  · rintro ⟨quoteId, ⟨⟨quote, hrecord, hcancelable⟩, hwhy⟩, rfl⟩
    refine ⟨quoteId, quote, hrecord, hcancelable, fun desiredQuote hwanted => ?_, rfl⟩
    rcases hwhy with hnot | hstale
    · exact absurd ⟨desiredQuote, hwanted⟩ hnot
    · exact (stale_iff hrecord hwanted).mp hstale

theorem mem_plannedPlaces {command : ExecutionCommand} :
    command ∈ plannedPlaces self desired working nowMs ↔
      ∃ quoteId ∈ (situation self desired working nowMs).issued,
        ∃ desiredQuote, wanted desired quoteId = some desiredQuote ∧
          command = .place desiredQuote := by
  simp only [plannedPlaces, List.mem_filterMap, Prod.exists, mem_toList_indexBy,
    placeCommand_eq, Situation.mem_issued, mem_live, mem_wanted]
  constructor
  · rintro ⟨quoteId, desiredQuote, hwanted, hdue, rfl⟩
    refine ⟨quoteId, ⟨⟨desiredQuote, hwanted⟩, ?_⟩, desiredQuote, hwanted, rfl⟩
    by_cases hlive : ∃ quote, record working quoteId = some quote ∧ quote.isCancelable
    · obtain ⟨quote, hrecord, hcancelable⟩ := hlive
      exact Or.inr ((stale_iff hrecord hwanted).mpr (hdue quote hrecord hcancelable))
    · exact Or.inl hlive
  · rintro ⟨quoteId, ⟨-, hwhy⟩, desiredQuote, hwanted, rfl⟩
    refine ⟨quoteId, desiredQuote, hwanted, fun quote hrecord hcancelable => ?_, rfl⟩
    rcases hwhy with hnot | hstale
    · exact absurd ⟨quote, hrecord, hcancelable⟩ hnot
    · exact (stale_iff hrecord hwanted).mp hstale

theorem record_eq_some_iff (hdistinct : (working.map WorkingQuote.quoteId).Nodup)
    {quoteId : QuoteId} {quote : WorkingQuote} :
    record working quoteId = some quote ↔ quote ∈ working ∧ quote.quoteId = quoteId :=
  lastWith_eq_some_iff hdistinct

variable (self desired nowMs) in
theorem any_isCancelable_iff (hdistinct : (working.map WorkingQuote.quoteId).Nodup) :
    working.any WorkingQuote.isCancelable ↔
      ∃ quoteId, quoteId ∈ (situation self desired working nowMs).live := by
  simp only [List.any_eq_true, mem_live, record_eq_some_iff hdistinct]
  constructor
  · rintro ⟨quote, hmem, hcancelable⟩
    exact ⟨quote.quoteId, quote, ⟨hmem, rfl⟩, hcancelable⟩
  · rintro ⟨quoteId, quote, ⟨hmem, -⟩, hcancelable⟩
    exact ⟨quote, hmem, hcancelable⟩

variable (self working nowMs) in
theorem notMem_wanted_of_isEmpty (hempty : desired.quotes.isEmpty) (quoteId : QuoteId) :
    quoteId ∉ (situation self desired working nowMs).wanted := by
  rw [wanted_iff]
  simp [List.isEmpty_iff.mp hempty]

/-- No record keeps the planner from planning. -/
def Trusted (working : List WorkingQuote) : Prop :=
  ∀ quote ∈ working, quote.blocksConvergence = false

instance (working : List WorkingQuote) : Decidable (Trusted working) :=
  inferInstanceAs (Decidable (∀ quote ∈ working, quote.blocksConvergence = false))

theorem reconcile_of_not_trusted (hblocked : ¬ Trusted working) :
    (self.reconcile desired working nowMs).commands = [] ∧
      (self.reconcile desired working nowMs).blocked = true := by
  have hne : ((working.filter WorkingQuote.blocksConvergence).map
      WorkingQuote.quoteId).isEmpty = false := by
    simpa [Trusted, List.isEmpty_eq_false_iff, List.filter_eq_nil_iff] using hblocked
  simp [LocalOrderManager.reconcile, hne]

theorem reconcile_of_trusted (htrusted : Trusted working) :
    (self.reconcile desired working nowMs).blocked = false ∧
      (self.reconcile desired working nowMs).commands =
        if desired.quotes.isEmpty && working.any WorkingQuote.isCancelable then [.cancelAll]
        else plannedCancels self desired working nowMs ++
          plannedPlaces self desired working nowMs := by
  have hnil : working.filter WorkingQuote.blocksConvergence = [] := by
    simpa [Trusted, List.filter_eq_nil_iff] using htrusted
  simp only [LocalOrderManager.reconcile, hnil, List.map_nil, List.isEmpty_nil,
    isEmpty_indexBy, plannedCancels, plannedPlaces]
  cases desired.quotes.isEmpty && working.any WorkingQuote.isCancelable <;>
    exact ⟨rfl, rfl⟩

/-- A wanted quote is placed exactly when its id is to be issued. -/
theorem place_mem_iff (htrusted : Trusted working) {desiredQuote : DesiredQuote} :
    .place desiredQuote ∈ (self.reconcile desired working nowMs).commands ↔
      desiredQuote.quoteId ∈ (situation self desired working nowMs).issued ∧
        wanted desired desiredQuote.quoteId = some desiredQuote := by
  rw [(reconcile_of_trusted htrusted).2]
  split
  · rename_i hall
    have hnot := notMem_wanted_of_isEmpty self working nowMs (Bool.and_eq_true_iff.mp hall).1
      desiredQuote.quoteId
    rw [Situation.mem_issued]
    simp [hnot]
  · rw [List.mem_append, mem_plannedCancels, mem_plannedPlaces]
    constructor
    · rintro (⟨quoteId, -, heq⟩ | ⟨quoteId, hissued, desiredQuote', hwanted, heq⟩)
      · exact ExecutionCommand.noConfusion heq
      · obtain rfl := ExecutionCommand.place.inj heq
        obtain rfl := (mem_of_lastWith hwanted).2
        exact ⟨hissued, hwanted⟩
    · rintro ⟨hissued, hwanted⟩
      exact Or.inr ⟨_, hissued, desiredQuote, hwanted, rfl⟩

theorem cancel_mem_iff (htrusted : Trusted working) {quoteId : QuoteId} :
    (.cancel quoteId ∈ (self.reconcile desired working nowMs).commands ∨
        (.cancelAll ∈ (self.reconcile desired working nowMs).commands ∧
          quoteId ∈ (situation self desired working nowMs).live)) ↔
      quoteId ∈ (situation self desired working nowMs).withdrawn := by
  rw [(reconcile_of_trusted htrusted).2]
  split
  · rename_i hall
    have hnot := notMem_wanted_of_isEmpty self working nowMs (Bool.and_eq_true_iff.mp hall).1
      quoteId
    rw [Situation.mem_withdrawn]
    simp [hnot]
  · simp only [List.mem_append, mem_plannedCancels, mem_plannedPlaces]
    constructor
    · rintro ((⟨_, hwithdrawn, heq⟩ | ⟨_, -, _, -, heq⟩) |
        ⟨⟨_, -, heq⟩ | ⟨_, -, _, -, heq⟩, -⟩)
      · rw [ExecutionCommand.cancel.inj heq]
        exact hwithdrawn
      all_goals exact ExecutionCommand.noConfusion heq
    · exact fun hwithdrawn => Or.inl (Or.inl ⟨quoteId, hwithdrawn, rfl⟩)

theorem commands_of_cancelAll_mem (htrusted : Trusted working)
    (hmem : .cancelAll ∈ (self.reconcile desired working nowMs).commands) :
    (self.reconcile desired working nowMs).commands = [.cancelAll] ∧
      desired.quotes.isEmpty ∧ working.any WorkingQuote.isCancelable := by
  rw [(reconcile_of_trusted htrusted).2] at hmem ⊢
  split at hmem
  · rename_i hall
    exact ⟨if_pos hall, Bool.and_eq_true_iff.mp hall⟩
  · rw [List.mem_append, mem_plannedCancels, mem_plannedPlaces] at hmem
    rcases hmem with ⟨_, -, heq⟩ | ⟨_, -, _, -, heq⟩ <;>
      exact ExecutionCommand.noConfusion heq

theorem commands_eq_nil_iff (htrusted : Trusted working)
    (hdistinct : (working.map WorkingQuote.quoteId).Nodup) :
    (self.reconcile desired working nowMs).commands = [] ↔
      (situation self desired working nowMs).Converged := by
  constructor
  · intro hnil quoteId
    constructor
    · rw [← cancel_mem_iff htrusted, hnil]
      simp
    · intro hissued
      obtain ⟨desiredQuote, hwanted⟩ := hissued.1
      obtain rfl := (mem_of_lastWith hwanted).2
      have hmem := (place_mem_iff htrusted).mpr ⟨hissued, hwanted⟩
      rw [hnil] at hmem
      exact absurd hmem (by simp)
  · intro hconverged
    apply List.eq_nil_iff_forall_not_mem.mpr
    intro command hmem
    cases command with
    | place desiredQuote =>
        exact (hconverged _).2 ((place_mem_iff htrusted).mp hmem).1
    | cancel quoteId =>
        exact (hconverged quoteId).1 ((cancel_mem_iff htrusted).mp (Or.inl hmem))
    | cancelAll =>
        obtain ⟨-, hempty, hany⟩ := commands_of_cancelAll_mem htrusted hmem
        obtain ⟨quoteId, hlive⟩ := (any_isCancelable_iff self desired nowMs hdistinct).mp hany
        exact (hconverged quoteId).1 ⟨hlive, Or.inl (notMem_wanted_of_isEmpty _ _ _ hempty _)⟩

theorem place_notMem_plannedCancels {desiredQuote : DesiredQuote} :
    .place desiredQuote ∉ plannedCancels self desired working nowMs := by
  rw [mem_plannedCancels]
  rintro ⟨_, -, heq⟩
  exact ExecutionCommand.noConfusion heq

theorem eq_place_of_mem_plannedPlaces {command : ExecutionCommand}
    (hmem : command ∈ plannedPlaces self desired working nowMs) :
    ∃ desiredQuote, command = .place desiredQuote := by
  obtain ⟨_, -, desiredQuote, -, rfl⟩ := mem_plannedPlaces.mp hmem
  exact ⟨desiredQuote, rfl⟩

variable (self desired nowMs) in
theorem pairwise_commands (htrusted : Trusted working)
    {R : ExecutionCommand → ExecutionCommand → Prop}
    (hcancels : ∀ a ∈ plannedCancels self desired working nowMs, ∀ b, R a b)
    (hplaces : (plannedPlaces self desired working nowMs).Pairwise R) :
    (self.reconcile desired working nowMs).commands.Pairwise R := by
  rw [(reconcile_of_trusted htrusted).2]
  split
  · simp
  · refine List.pairwise_append.mpr ⟨?_, hplaces, ?_⟩
    · exact List.pairwise_of_forall_mem_list fun a ha b _ => hcancels a ha b
    · exact fun a ha b _ => hcancels a ha b

variable (self desired nowMs) in
theorem places_come_last (htrusted : Trusted working) :
    (self.reconcile desired working nowMs).commands.Pairwise fun a b =>
      (∃ desiredQuote, a = .place desiredQuote) → ∃ desiredQuote, b = .place desiredQuote := by
  refine pairwise_commands self desired nowMs htrusted ?_ ?_
  · rintro _ ha _ ⟨desiredQuote, rfl⟩
    exact absurd ha place_notMem_plannedCancels
  · apply List.pairwise_of_forall_mem_list
    intro _ _ _ hb _
    exact eq_place_of_mem_plannedPlaces hb

variable (self desired nowMs) in
theorem places_distinct (htrusted : Trusted working) :
    (self.reconcile desired working nowMs).commands.Pairwise fun a b =>
      ∀ first second, a = .place first → b = .place second →
        first.quoteId ≠ second.quoteId := by
  refine pairwise_commands self desired nowMs htrusted ?_ ?_
  · rintro _ ha _ first _ rfl
    exact absurd ha place_notMem_plannedCancels
  · apply List.pairwise_filterMap.mpr
    apply (indexBy_toList_ascending _ _).imp_of_mem
    rintro ⟨_, first'⟩ ⟨_, second'⟩ hfirst hsecond hlt _ hplaced _ hplaced' first second rfl rfl
    obtain rfl := ExecutionCommand.place.inj (placeCommand_eq.mp hplaced).2
    obtain rfl := ExecutionCommand.place.inj (placeCommand_eq.mp hplaced').2
    obtain rfl := (mem_of_lastWith (mem_toList_indexBy.mp hfirst)).2
    obtain rfl := (mem_of_lastWith (mem_toList_indexBy.mp hsecond)).2
    exact hlt.ne

theorem cancel_mem_before (htrusted : Trusted working) {quoteId : QuoteId}
    {desiredQuote : DesiredQuote} {before after : List ExecutionCommand}
    (hsplit : (self.reconcile desired working nowMs).commands =
      before ++ .place desiredQuote :: after)
    (hmem : .cancel quoteId ∈ (self.reconcile desired working nowMs).commands) :
    .cancel quoteId ∈ before := by
  have hlast := places_come_last self desired nowMs htrusted
  rw [hsplit] at hlast hmem
  have htail := (List.pairwise_cons.mp (List.pairwise_append.mp hlast).2.1).1
  rcases List.mem_append.mp hmem with hbefore | hcons
  · exact hbefore
  · rcases List.mem_cons.mp hcons with heq | hafter
    · exact ExecutionCommand.noConfusion heq
    · obtain ⟨_, heq⟩ := htail _ hafter ⟨desiredQuote, rfl⟩
      exact ExecutionCommand.noConfusion heq

end Rtt.ReconcilePlan
