import Rtt.CompanionState
import Rtt.KeyIndex

namespace Rtt.ViewCompleteness

open Rtt.Machine
open Rtt.KeyIndex
open Rtt.PublicEvent
open Rtt.MarketMessages
open Rtt.HotState
open Rtt.HotHistory
open Rtt.StrategyContract
open Rtt.StrategyRuntime
open Rtt.CompanionState

section Keys

/-- Every record of the hot state is under the key of what it is about. -/
structure OwnKeys (store : HotStateStore) : Prop where
  books : ∀ key book, store.books key = some book → key = .asset book.notice.sourceId book.assetId
  references : ∀ key reference, store.references key = some reference →
    key = .fromSubject reference.notice.subject

variable {store : HotStateStore}

theorem OwnKeys.nextBook_key (h : OwnKeys store) {update : NormalizedUpdate} {assetId : AssetId}
    (hasset : bookAsset update.payload = some assetId) {book : HotBookState}
    (hbook : nextBook (store.marketsByAsset assetId)
      (store.books (.asset update.notice.sourceId assetId)) update = some book) :
    HotStateKey.asset update.notice.sourceId assetId =
      .asset book.notice.sourceId book.assetId := by
  have hkept : book.assetId = assetId := by
    apply assetId_nextBook hbook hasset
    intro old hold
    exact (asset_eq_iff.mp (h.books _ _ hold)).2.symm
  rw [(version_nextBook hbook).1, hkept]

theorem OwnKeys.applyUpdate (h : OwnKeys store) (update : NormalizedUpdate) :
    OwnKeys (store.applyUpdate update) := by
  constructor
  · intro key book hbook
    rw [HotStateStore.books_applyUpdate] at hbook
    split at hbook
    · exact absurd hbook (by simp)
    · cases hasset : bookAsset update.payload with
      | none =>
          rw [hasset] at hbook
          exact h.books _ _ hbook
      | some assetId =>
          simp only [hasset] at hbook
          split at hbook
          · rename_i hkey
            subst hkey
            exact h.nextBook_key hasset hbook
          · exact h.books _ _ hbook
  · intro key reference hreference
    rw [HotStateStore.references_applyUpdate] at hreference
    split at hreference
    · rename_i hwrites
      have hstamp := referenceStamp_nextReference (store.references key) hwrites.1
      rw [hreference, Option.map_some] at hstamp
      have hsubject := congrArg Stamp.subject (Option.some.inj hstamp)
      rw [hwrites.2]
      exact congrArg HotStateKey.fromSubject hsubject.symm
    · split at hreference
      · exact absurd hreference (by simp)
      · exact h.references _ _ hreference

theorem ownKeys_startRuntime (markets : List MarketMeta) (requirements : StrategyRequirements) :
    OwnKeys (startRuntime markets requirements).store := by
  constructor
  · intro key book hbook
    rw [startRuntime, (HotStateStore.registered_new markets key).1] at hbook
    exact absurd hbook (by simp)
  · intro key reference hreference
    rw [startRuntime, (HotStateStore.registered_new markets key).2] at hreference
    exact absurd hreference (by simp)

theorem ownKeys_runtimeStep {run : RuntimeRun} (h : OwnKeys run.store) (event : RuntimeEvent) :
    OwnKeys (runtimeStep run event).1.store := by
  cases event with
  | applied update => exact h.applyUpdate update
  | handled notice => exact h

end Keys

section Assembly

variable (scaffold : SharedRuntimeScaffold) (store : HotStateStore) (notice : UpdateNotice)

/-- The books resolved for the inputs, in their order. -/
def resolvedBooks (inputs : List ProvisionedInput) : List HotBookState :=
  inputs.filterMap fun input =>
    if viewPart input.requirement.kind = .book then
      scaffold.resolveBook store input notice (store.resolveNotice notice)
    else none

def resolvedReferences (inputs : List ProvisionedInput) : List HotReferenceState :=
  inputs.filterMap fun input =>
    if viewPart input.requirement.kind = .reference then
      scaffold.resolveReference store input notice (store.resolveNotice notice)
    else none

/-- What two books of one view must not share. -/
def bookPlace (book : HotBookState) : SourceId × AssetId := (book.notice.sourceId, book.assetId)

def referencePlace (reference : HotReferenceState) : SourceId × String :=
  (reference.notice.sourceId, reference.notice.subject.instrumentId)

theorem pushUniqueBook_firsts (books : List HotBookState) (book : HotBookState) :
    pushUniqueBook (firsts bookPlace books) book = firsts bookPlace (books ++ [book]) :=
  ite_any_firsts (fun existing => by simp [bookPlace]) books

theorem pushUniqueReference_firsts (references : List HotReferenceState)
    (reference : HotReferenceState) :
    pushUniqueReference (firsts referencePlace references) reference =
      firsts referencePlace (references ++ [reference]) :=
  ite_any_firsts (fun existing => by simp [referencePlace]) references

/-- A view holds the first record resolved for each place. -/
structure Assembled (inputs : List ProvisionedInput) (view : StrategyRuntimeView) : Prop where
  notice_eq : view.notice = notice
  books_eq : view.books = firsts bookPlace (resolvedBooks scaffold store notice inputs)
  references_eq : view.references =
    firsts referencePlace (resolvedReferences scaffold store notice inputs)

theorem Assembled.addInput {inputs : List ProvisionedInput} {view : StrategyRuntimeView}
    (h : Assembled scaffold store notice inputs view) (input : ProvisionedInput) :
    Assembled scaffold store notice (inputs ++ [input])
      (scaffold.addInput store (store.resolveNotice notice) view input) := by
  obtain ⟨rfl, hbooks, hreferences⟩ := h
  unfold SharedRuntimeScaffold.addInput
  cases hpart : viewPart input.requirement.kind with
  | book =>
      cases hbook : scaffold.resolveBook store input view.notice
          (store.resolveNotice view.notice) with
      | none =>
          constructor
          · rfl
          · simp [hbooks, resolvedBooks, hpart, hbook]
          · simp [hreferences, resolvedReferences, hpart]
      | some book =>
          constructor
          · rfl
          · simp only [hbooks, pushUniqueBook_firsts]
            simp [resolvedBooks, hpart, hbook]
          · simp [hreferences, resolvedReferences, hpart]
  | reference =>
      cases hreference : scaffold.resolveReference store input view.notice
          (store.resolveNotice view.notice) with
      | none =>
          constructor
          · rfl
          · simp [hbooks, resolvedBooks, hpart]
          · simp [hreferences, resolvedReferences, hpart, hreference]
      | some reference =>
          constructor
          · rfl
          · simp [hbooks, resolvedBooks, hpart]
          · simp only [hreferences, pushUniqueReference_firsts]
            simp [resolvedReferences, hpart, hreference]
  | inventory =>
      constructor
      · rfl
      · simp [hbooks, resolvedBooks, hpart]
      · simp [hreferences, resolvedReferences, hpart]

theorem assembled_foldl (inputs : List ProvisionedInput) :
    Assembled scaffold store notice inputs
      (inputs.foldl (scaffold.addInput store (store.resolveNotice notice))
        { notice, books := [], references := [], inventory := [] }) := by
  induction inputs using List.reverseRecOn with
  | nil => exact ⟨rfl, rfl, rfl⟩
  | append_singleton inputs input ih =>
      rw [List.foldl_append]
      exact ih.addInput scaffold store notice input

theorem assembled_resolveView {view : StrategyRuntimeView}
    (h : (scaffold.resolveView store notice).2 = some view) :
    Assembled scaffold store notice scaffold.topology.inputs view := by
  unfold SharedRuntimeScaffold.resolveView at h
  split at h
  · obtain rfl := Option.some.inj h
    exact assembled_foldl scaffold store notice _
  · exact absurd h (by simp)

end Assembly

section Completeness

/-- A view shows what is resolved for its own notice and the recorded state of every
subject that has been seen. -/
structure Complete (run : RuntimeRun) (notice : UpdateNotice) (view : StrategyRuntimeView) :
    Prop where
  ownBook : ∀ input ∈ run.scaffold.topology.inputs, viewPart input.requirement.kind = .book →
    input.subject = notice.subject →
      ∀ book, run.store.resolveNotice notice = some (.book book) → book ∈ view.books
  ownReference : ∀ input ∈ run.scaffold.topology.inputs,
    viewPart input.requirement.kind = .reference → input.subject = notice.subject →
      ∀ reference, run.store.resolveNotice notice = some (.reference reference) →
        reference ∈ view.references
  seenBook : ∀ input ∈ run.scaffold.topology.inputs, viewPart input.requirement.kind = .book →
    subjectKey input.subject ∈ run.scaffold.seenSubjects →
      ∀ book, run.store.bookState input.subject.sourceId input.subject.instrumentId = some book →
        book ∈ view.books
  seenReference : ∀ input ∈ run.scaffold.topology.inputs,
    viewPart input.requirement.kind = .reference →
      subjectKey input.subject ∈ run.scaffold.seenSubjects →
        ∀ reference, run.store.referenceState input.subject = some reference →
          reference ∈ view.references

/-- A view that is resolved is complete. -/
def ViewComplete (run : RuntimeRun) : RuntimeEvent → Prop
  | .applied _ => True
  | .handled notice => ∀ view ∈ (run.scaffold.resolveView run.store notice).2,
      Complete run notice view

/-- The recorded reference of a subject is to be shown with a notice: that of
the notice itself in the version announced, any other once its subject is seen. -/
structure ShowsReference (run : RuntimeRun) (notice : UpdateNotice) (subject : InstrumentRef)
    (reference : HotReferenceState) : Prop where
  recorded : run.store.referenceState subject = some reference
  current : subject = notice.subject →
    resolvesBook notice.kind = false ∧ reference.version = notice.version
  seen : subject ≠ notice.subject → subjectKey subject ∈ run.scaffold.seenSubjects

/-- No two references to be shown are of different subjects with one instrument
id and from one source. -/
def Undisplaced (run : RuntimeRun) : RuntimeEvent → Prop
  | .applied _ => True
  | .handled notice => run.scaffold.isRelevantNotice notice →
      ∀ input ∈ run.scaffold.topology.inputs, ∀ other ∈ run.scaffold.topology.inputs,
        viewPart input.requirement.kind = .reference →
        viewPart other.requirement.kind = .reference →
          ∀ reference reference', ShowsReference run notice input.subject reference →
            ShowsReference run notice other.subject reference' →
              reference.notice.sourceId = reference'.notice.sourceId →
              input.subject.instrumentId = other.subject.instrumentId →
                input.subject = other.subject

/-- Another subject that has been seen has its book under the same source and instrument id
as the subject of the notice. -/
def NamedElsewhere (run : RuntimeRun) (notice : UpdateNotice) : Prop :=
  ∃ other ∈ run.scaffold.topology.inputs, viewPart other.requirement.kind = .book ∧
    other.subject ≠ notice.subject ∧ subjectKey other.subject ∈ run.scaffold.seenSubjects ∧
      other.subject.sourceId = notice.subject.sourceId ∧
        other.subject.instrumentId = notice.subject.instrumentId

/-- The notice is of what is recorded of its own subject, in the version recorded. -/
structure OwnCurrent (run : RuntimeRun) (notice : UpdateNotice) : Prop where
  book : ∀ input ∈ run.scaffold.topology.inputs, viewPart input.requirement.kind = .book →
    input.subject = notice.subject → ∀ book,
      run.store.bookState notice.subject.sourceId notice.subject.instrumentId = some book →
        (notice.sourceId = notice.subject.sourceId ∧ resolvesBook notice.kind ∧
          book.version = notice.version) ∨ NamedElsewhere run notice
  reference : ∀ input ∈ run.scaffold.topology.inputs,
    viewPart input.requirement.kind = .reference → input.subject = notice.subject →
      ∀ reference, run.store.referenceState notice.subject = some reference →
        resolvesBook notice.kind = false ∧ reference.version = notice.version

/-- A notice of a subject that has been seen before is of its current state. -/
def OwnSeenCurrent (run : RuntimeRun) : RuntimeEvent → Prop
  | .applied _ => True
  | .handled notice => run.scaffold.isRelevantNotice notice →
      subjectKey notice.subject ∈ run.scaffold.seenSubjects → OwnCurrent run notice

variable {run : RuntimeRun} {notice : UpdateNotice}

theorem resolveBook_eq_some_iff {input : ProvisionedInput} {book : HotBookState} :
    run.scaffold.resolveBook run.store input notice (run.store.resolveNotice notice) = some book ↔
      if input.subject = notice.subject then run.store.resolveNotice notice = some (.book book)
      else subjectKey input.subject ∈ run.scaffold.seenSubjects ∧
        run.store.bookState input.subject.sourceId input.subject.instrumentId = some book := by
  unfold SharedRuntimeScaffold.resolveBook
  split
  · cases run.store.resolveNotice notice with
    | none => simp
    | some resolved => cases resolved <;> simp
  · split <;> simp [*]

theorem resolveReference_eq_some_iff {input : ProvisionedInput} {reference : HotReferenceState} :
    run.scaffold.resolveReference run.store input notice (run.store.resolveNotice notice) =
        some reference ↔
      if input.subject = notice.subject then
        run.store.resolveNotice notice = some (.reference reference)
      else subjectKey input.subject ∈ run.scaffold.seenSubjects ∧
        run.store.referenceState input.subject = some reference := by
  unfold SharedRuntimeScaffold.resolveReference
  split
  · cases run.store.resolveNotice notice with
    | none => simp
    | some resolved => cases resolved <;> simp
  · split <;> simp [*]

theorem resolveNotice_eq_reference_iff {store : HotStateStore} {reference : HotReferenceState} :
    store.resolveNotice notice = some (.reference reference) ↔
      store.referenceState notice.subject = some reference ∧ resolvesBook notice.kind = false ∧
        reference.version = notice.version := by
  unfold HotStateStore.resolveNotice
  cases resolvesBook notice.kind with
  | true => simp
  | false =>
      simp [HotStateStore.resolveReferenceNotice, HotStateStore.referenceState,
        Option.filter_eq_some_iff]

theorem resolveNotice_eq_book_iff {store : HotStateStore} {book : HotBookState} :
    store.resolveNotice notice = some (.book book) ↔
      store.bookState notice.sourceId notice.subject.instrumentId = some book ∧
        resolvesBook notice.kind ∧ book.version = notice.version := by
  unfold HotStateStore.resolveNotice
  cases resolvesBook notice.kind with
  | false => simp
  | true =>
      simp [HotStateStore.resolveBookNotice, HotStateStore.bookState,
        Option.filter_eq_some_iff]

theorem resolveReference_iff_shows {input : ProvisionedInput} {reference : HotReferenceState} :
    run.scaffold.resolveReference run.store input notice (run.store.resolveNotice notice) =
        some reference ↔ ShowsReference run notice input.subject reference := by
  rw [resolveReference_eq_some_iff]
  split
  · rename_i hsubject
    rw [resolveNotice_eq_reference_iff, hsubject]
    constructor
    · rintro ⟨hrecorded, hcurrent⟩
      exact ⟨hrecorded, fun _ => hcurrent, fun hne => absurd rfl hne⟩
    · rintro ⟨hrecorded, hcurrent, -⟩
      exact ⟨hrecorded, hcurrent rfl⟩
  · rename_i hsubject
    constructor
    · rintro ⟨hseen, hrecorded⟩
      exact ⟨hrecorded, fun heq => absurd heq hsubject, fun _ => hseen⟩
    · rintro ⟨hrecorded, -, hseen⟩
      exact ⟨hseen hsubject, hrecorded⟩

/-- A view has every record resolved for an input. -/
structure HasResolved (run : RuntimeRun) (notice : UpdateNotice) (view : StrategyRuntimeView) :
    Prop where
  books : ∀ book ∈ resolvedBooks run.scaffold run.store notice run.scaffold.topology.inputs,
    book ∈ view.books
  references : ∀ reference ∈ resolvedReferences run.scaffold run.store notice
    run.scaffold.topology.inputs, reference ∈ view.references

theorem mem_resolvedBooks_iff {inputs : List ProvisionedInput} {book : HotBookState} :
    book ∈ resolvedBooks run.scaffold run.store notice inputs ↔
      ∃ input ∈ inputs, viewPart input.requirement.kind = .book ∧
        if input.subject = notice.subject then run.store.resolveNotice notice = some (.book book)
        else subjectKey input.subject ∈ run.scaffold.seenSubjects ∧
          run.store.bookState input.subject.sourceId input.subject.instrumentId = some book := by
  simp only [resolvedBooks, List.mem_filterMap, Option.ite_none_right_eq_some,
    resolveBook_eq_some_iff]

theorem mem_resolvedReferences_iff {inputs : List ProvisionedInput}
    {reference : HotReferenceState} :
    reference ∈ resolvedReferences run.scaffold run.store notice inputs ↔
      ∃ input ∈ inputs, viewPart input.requirement.kind = .reference ∧
        ShowsReference run notice input.subject reference := by
  simp only [resolvedReferences, List.mem_filterMap, Option.ite_none_right_eq_some,
    resolveReference_iff_shows]

theorem Complete.hasResolved {view : StrategyRuntimeView} (h : Complete run notice view) :
    HasResolved run notice view := by
  constructor
  · intro book hbook
    obtain ⟨input, hinput, hpart, hbook⟩ := mem_resolvedBooks_iff.mp hbook
    split at hbook
    · rename_i hsubject
      exact h.ownBook input hinput hpart hsubject book hbook
    · exact h.seenBook input hinput hpart hbook.1 book hbook.2
  · intro reference hreference
    obtain ⟨input, hinput, hpart, hshows⟩ := mem_resolvedReferences_iff.mp hreference
    by_cases hsubject : input.subject = notice.subject
    · refine h.ownReference input hinput hpart hsubject reference ?_
      rw [resolveNotice_eq_reference_iff, ← hsubject]
      exact ⟨hshows.recorded, hshows.current hsubject⟩
    · exact h.seenReference input hinput hpart (hshows.seen hsubject) reference hshows.recorded

theorem books_of_mem_resolvedBooks (h : OwnKeys run.store) {inputs : List ProvisionedInput}
    {book : HotBookState} (hmem : book ∈ resolvedBooks run.scaffold run.store notice inputs) :
    run.store.bookState book.notice.sourceId book.assetId = some book := by
  obtain ⟨input, -, -, hbook⟩ := mem_resolvedBooks_iff.mp hmem
  have hrecorded : ∃ key, run.store.books key = some book := by
    split at hbook
    · exact ⟨_, (resolveNotice_eq_book_iff.mp hbook).1⟩
    · exact ⟨_, hbook.2⟩
  obtain ⟨key, hkey⟩ := hrecorded
  rw [HotStateStore.bookState, ← h.books key book hkey]
  exact hkey

/-- Books do not take each other's place: a place is a key of the hot state. -/
theorem resolvedBooks_one (h : OwnKeys run.store) {inputs : List ProvisionedInput} :
    ∀ x ∈ resolvedBooks run.scaffold run.store notice inputs,
      ∀ y ∈ resolvedBooks run.scaffold run.store notice inputs,
        bookPlace x = bookPlace y → x = y := by
  intro x hx y hy hplace
  obtain ⟨hsource, hasset⟩ := Prod.mk.inj hplace
  have hrecorded := books_of_mem_resolvedBooks h hx
  rw [hsource, hasset, books_of_mem_resolvedBooks h hy] at hrecorded
  exact (Option.some.inj hrecorded).symm

theorem ShowsReference.subject_eq (h : OwnKeys run.store) {subject : InstrumentRef}
    {reference : HotReferenceState} (hshows : ShowsReference run notice subject reference) :
    reference.notice.subject = subject :=
  (fromSubject_injective (h.references _ _ hshows.recorded)).symm

theorem resolvedReferences_one_iff (h : OwnKeys run.store) {inputs : List ProvisionedInput} :
    (∀ x ∈ resolvedReferences run.scaffold run.store notice inputs,
        ∀ y ∈ resolvedReferences run.scaffold run.store notice inputs,
          referencePlace x = referencePlace y → x = y) ↔
      ∀ input ∈ inputs, ∀ other ∈ inputs,
        viewPart input.requirement.kind = .reference →
        viewPart other.requirement.kind = .reference →
          ∀ reference reference', ShowsReference run notice input.subject reference →
            ShowsReference run notice other.subject reference' →
              reference.notice.sourceId = reference'.notice.sourceId →
              input.subject.instrumentId = other.subject.instrumentId →
                input.subject = other.subject := by
  simp only [mem_resolvedReferences_iff]
  constructor
  · intro hone input hinput other hother hpart hpart' x y hx hy hsource hinstrument
    rw [← hx.subject_eq h, ← hy.subject_eq h] at hinstrument ⊢
    rw [hone x ⟨input, hinput, hpart, hx⟩ y ⟨other, hother, hpart', hy⟩
      (Prod.ext hsource hinstrument)]
  · rintro hdistinct x ⟨input, hinput, hpart, hx⟩ y ⟨other, hother, hpart', hy⟩ hplace
    obtain ⟨hsource, hinstrument⟩ := Prod.mk.inj hplace
    rw [hx.subject_eq h, hy.subject_eq h] at hinstrument
    have hsubject := hdistinct input hinput other hother hpart hpart' x y hx hy hsource hinstrument
    have hrecorded := hx.recorded
    rw [hsubject, hy.recorded] at hrecorded
    exact (Option.some.inj hrecorded).symm

theorem exists_view_iff (scaffold : SharedRuntimeScaffold) (store : HotStateStore) :
    (∃ view, (scaffold.resolveView store notice).2 = some view) ↔
      scaffold.isRelevantNotice notice := by
  unfold SharedRuntimeScaffold.resolveView
  split <;> simp [*]

theorem hasResolved_iff_undisplaced (h : OwnKeys run.store) {view : StrategyRuntimeView}
    (hview : (run.scaffold.resolveView run.store notice).2 = some view) :
    HasResolved run notice view ↔ Undisplaced run (.handled notice) := by
  have hassembled := assembled_resolveView run.scaffold run.store notice hview
  have hrelevant := (exists_view_iff run.scaffold run.store).mp ⟨view, hview⟩
  have hbooks : (∀ book ∈ resolvedBooks run.scaffold run.store notice
      run.scaffold.topology.inputs, book ∈ view.books) := by
    rw [hassembled.books_eq, forall_mem_firsts_iff]
    exact resolvedBooks_one h
  constructor
  · intro hresolved _
    have hreferences := hresolved.references
    rw [hassembled.references_eq, forall_mem_firsts_iff, resolvedReferences_one_iff h]
      at hreferences
    exact hreferences
  · intro hundisplaced
    refine ⟨hbooks, ?_⟩
    rw [hassembled.references_eq, forall_mem_firsts_iff, resolvedReferences_one_iff h]
    exact hundisplaced hrelevant

theorem OwnKeys.book_key_eq {store : HotStateStore} (h : OwnKeys store) {source source' : SourceId}
    {instrument instrument' : String} {book : HotBookState}
    (hbook : store.bookState source instrument = some book)
    (hbook' : store.bookState source' instrument' = some book) :
    source = source' ∧ instrument = instrument' := by
  have hkey := (h.books _ _ hbook).trans (h.books _ _ hbook').symm
  exact asset_eq_iff.mp hkey

theorem Complete.ownCurrent (h : OwnKeys run.store) {view : StrategyRuntimeView}
    (hview : (run.scaffold.resolveView run.store notice).2 = some view)
    (hcomplete : Complete run notice view)
    (hseen : subjectKey notice.subject ∈ run.scaffold.seenSubjects) : OwnCurrent run notice := by
  have hassembled := assembled_resolveView run.scaffold run.store notice hview
  constructor
  · intro input hinput hpart hsubject book hbook
    have hshown : book ∈ view.books := by
      refine hcomplete.seenBook input hinput hpart ?_ book ?_
      · rwa [hsubject]
      · rwa [hsubject]
    rw [hassembled.books_eq] at hshown
    obtain ⟨other, hother, hpart', hresolved⟩ :=
      mem_resolvedBooks_iff.mp (mem_of_mem_firsts hshown)
    split at hresolved
    · obtain ⟨hrecorded, hkind, hversion⟩ := resolveNotice_eq_book_iff.mp hresolved
      exact .inl ⟨(h.book_key_eq hrecorded hbook).1, hkind, hversion⟩
    · rename_i hne
      obtain ⟨hsource, hinstrument⟩ := h.book_key_eq hresolved.2 hbook
      exact .inr ⟨other, hother, hpart', hne, hresolved.1, hsource, hinstrument⟩
  · intro input hinput hpart hsubject reference hreference
    have hshown : reference ∈ view.references := by
      refine hcomplete.seenReference input hinput hpart ?_ reference ?_
      · rwa [hsubject]
      · rwa [hsubject]
    rw [hassembled.references_eq] at hshown
    obtain ⟨other, -, -, hshows⟩ := mem_resolvedReferences_iff.mp (mem_of_mem_firsts hshown)
    have hown := fromSubject_injective (h.references _ _ hreference)
    exact hshows.current ((hshows.subject_eq h).symm.trans hown.symm)

theorem complete_of_hasResolved {view : StrategyRuntimeView}
    (hresolved : HasResolved run notice view)
    (hcurrent : subjectKey notice.subject ∈ run.scaffold.seenSubjects → OwnCurrent run notice) :
    Complete run notice view := by
  have hseenElse : ∀ other ∈ run.scaffold.topology.inputs,
      viewPart other.requirement.kind = .book → other.subject ≠ notice.subject →
        subjectKey other.subject ∈ run.scaffold.seenSubjects → ∀ book,
          run.store.bookState other.subject.sourceId other.subject.instrumentId = some book →
            book ∈ view.books := by
    intro other hother hpart hne hseen book hbook
    refine hresolved.books book (mem_resolvedBooks_iff.mpr ⟨other, hother, hpart, ?_⟩)
    rw [if_neg hne]
    exact ⟨hseen, hbook⟩
  have hown : ∀ input ∈ run.scaffold.topology.inputs, viewPart input.requirement.kind = .book →
      input.subject = notice.subject →
        ∀ book, run.store.resolveNotice notice = some (.book book) → book ∈ view.books := by
    intro input hinput hpart hsubject book hbook
    refine hresolved.books book (mem_resolvedBooks_iff.mpr ⟨input, hinput, hpart, ?_⟩)
    rwa [if_pos hsubject]
  have hownReference : ∀ input ∈ run.scaffold.topology.inputs,
      viewPart input.requirement.kind = .reference → input.subject = notice.subject →
        ∀ reference, run.store.resolveNotice notice = some (.reference reference) →
          reference ∈ view.references := by
    intro input hinput hpart hsubject reference hreference
    rw [resolveNotice_eq_reference_iff, ← hsubject] at hreference
    refine hresolved.references reference (mem_resolvedReferences_iff.mpr
      ⟨input, hinput, hpart, hreference.1, fun _ => hreference.2, ?_⟩)
    exact fun hne => absurd hsubject hne
  refine ⟨hown, hownReference, ?_, ?_⟩
  · intro input hinput hpart hseen book hbook
    by_cases hsubject : input.subject = notice.subject
    · rw [hsubject] at hseen hbook
      obtain ⟨hsource, hkind, hversion⟩ | ⟨other, hother, hpart', hne, hseen', hsame, hsame'⟩ :=
        (hcurrent hseen).book input hinput hpart hsubject book hbook
      · refine hown input hinput hpart hsubject book (resolveNotice_eq_book_iff.mpr ?_)
        rw [hsource]
        exact ⟨hbook, hkind, hversion⟩
      · rw [← hsame, ← hsame'] at hbook
        exact hseenElse other hother hpart' hne hseen' book hbook
    · exact hseenElse input hinput hpart hsubject hseen book hbook
  · intro input hinput hpart hseen reference hreference
    by_cases hsubject : input.subject = notice.subject
    · rw [hsubject] at hseen hreference
      exact hownReference input hinput hpart hsubject reference (resolveNotice_eq_reference_iff.mpr
        ⟨hreference, (hcurrent hseen).reference input hinput hpart hsubject reference hreference⟩)
    · exact hresolved.references reference (mem_resolvedReferences_iff.mpr
        ⟨input, hinput, hpart, hreference, fun heq => absurd heq hsubject, fun _ => hseen⟩)

theorem viewComplete_iff (h : OwnKeys run.store) (event : RuntimeEvent) :
    ViewComplete run event ↔ Undisplaced run event ∧ OwnSeenCurrent run event := by
  cases event with
  | applied update => exact iff_of_true trivial ⟨trivial, trivial⟩
  | handled notice =>
      constructor
      · intro hcomplete
        constructor
        · intro hrelevant
          obtain ⟨view, hview⟩ := (exists_view_iff run.scaffold run.store).mpr hrelevant
          have hresolved := (hcomplete view hview).hasResolved
          exact (hasResolved_iff_undisplaced h hview).mp hresolved hrelevant
        · intro hrelevant hseen
          obtain ⟨view, hview⟩ := (exists_view_iff run.scaffold run.store).mpr hrelevant
          exact (hcomplete view hview).ownCurrent h hview hseen
      · rintro ⟨hundisplaced, hcurrent⟩ view hview
        have hrelevant := (exists_view_iff run.scaffold run.store).mp ⟨view, hview⟩
        exact complete_of_hasResolved ((hasResolved_iff_undisplaced h hview).mpr hundisplaced)
          (hcurrent hrelevant)

end Completeness

section Runs

/-- The subjects of the notices handled for some input are the ones seen. -/
def HandledSeen (run : RuntimeRun) : Prop :=
  ∀ notice ∈ run.handled, run.scaffold.isRelevantNotice notice →
    subjectKey notice.subject ∈ run.scaffold.seenSubjects

theorem handledSeen_runtimeStep {run : RuntimeRun} (h : HandledSeen run) (event : RuntimeEvent) :
    HandledSeen (runtimeStep run event).1 := by
  cases event with
  | applied update => exact h
  | handled notice =>
      intro earlier hearlier hrelevant
      simp only [runtimeStep, SharedRuntimeScaffold.resolveView] at hearlier hrelevant ⊢
      rcases List.mem_append.mp hearlier with hbefore | hown
      · split at hrelevant
        · rename_i hnotice
          rw [if_pos hnotice]
          exact Finset.mem_insert_of_mem (h earlier hbefore hrelevant)
        · rename_i hnotice
          rw [if_neg hnotice]
          exact h earlier hbefore hrelevant
      · obtain rfl := List.mem_singleton.mp hown
        split at hrelevant
        · rename_i hnotice
          rw [if_pos hnotice]
          exact Finset.mem_insert_self _ _
        · rename_i hnotice
          exact absurd hrelevant hnotice

/-- Every view of a run is complete exactly when no reference takes another's place and no
notice of a subject seen before is behind it, or of the other kind of state. -/
theorem views_complete_iff (markets : List MarketMeta) (requirements : StrategyRequirements)
    (events : List RuntimeEvent) :
    (Along runtimeStep ViewComplete (startRuntime markets requirements) events ↔
      Along runtimeStep (fun run event => Undisplaced run event ∧ OwnSeenCurrent run event)
        (startRuntime markets requirements) events) ∧
    HandledSeen (exec runtimeStep (startRuntime markets requirements) events) := by
  have hstart := ownKeys_startRuntime markets requirements
  constructor
  · exact along_congr (J := fun run _ => OwnKeys run.store)
      (fun run event _ hkeys => ownKeys_runtimeStep hkeys event)
      (fun run event _ hkeys => viewComplete_iff hkeys event) hstart
  · apply exec_kept (I := HandledSeen) (fun run event h => handledSeen_runtimeStep h event)
    intro notice hmem
    exact absurd hmem (by simp [startRuntime])

/-- The instrument ids of the reference inputs tell their subjects apart. -/
def DistinctInstruments (inputs : List ProvisionedInput) : Prop :=
  ∀ input ∈ inputs, ∀ other ∈ inputs, viewPart input.requirement.kind = .reference →
    viewPart other.requirement.kind = .reference →
      input.subject.instrumentId = other.subject.instrumentId → input.subject = other.subject

instance (inputs : List ProvisionedInput) : Decidable (DistinctInstruments inputs) := by
  unfold DistinctInstruments
  infer_instance

theorem topology_runtimeStep (run : RuntimeRun) (event : RuntimeEvent) :
    (runtimeStep run event).1.scaffold.topology = run.scaffold.topology := by
  cases event with
  | applied update => rfl
  | handled notice =>
      simp only [runtimeStep, SharedRuntimeScaffold.resolveView]
      split <;> rfl

theorem undisplaced_of_distinctInstruments {markets : List MarketMeta}
    {requirements : StrategyRequirements}
    (h : DistinctInstruments (RuntimeTopologyPlan.fromRequirements requirements).inputs)
    (events : List RuntimeEvent) :
    Along runtimeStep Undisplaced (startRuntime markets requirements) events := by
  apply along_iff_forall_prefix.mpr
  intro pre event _
  have htopology := exec_field (f := fun run => run.scaffold.topology) topology_runtimeStep
    (startRuntime markets requirements) pre
  cases event with
  | applied update => trivial
  | handled notice =>
      intro _ input hinput other hother hpart hpart' _ _ _ _ _ hinstrument
      rw [htopology] at hinput hother
      exact h input hinput other hother hpart hpart' hinstrument

/-- Before the notice of the second price is handled. -/
def secondPriced : RuntimeRun :=
  exec runtimeStep (startRuntime [] crossFeed) ((priceThenBook true).take 4)

theorem ownCurrent_secondPriced : OwnCurrent secondPriced (priceOf "btc" 2 "61000").notice := by
  constructor
  · intro input hinput hpart hsubject
    have hother : ∀ input ∈ secondPriced.scaffold.topology.inputs,
        viewPart input.requirement.kind = .book →
          input.subject ≠ (priceOf "btc" 2 "61000").notice.subject := by
      decide +kernel
    exact absurd hsubject (hother input hinput hpart)
  · intro input _ _ _ reference hreference
    have hversion : (secondPriced.store.referenceState
        (priceOf "btc" 2 "61000").notice.subject).map HotReferenceState.version =
          some (priceOf "btc" 2 "61000").notice.version := by
      decide +kernel
    rw [hreference] at hversion
    exact ⟨rfl, Option.some.inj hversion⟩

theorem ownSeenCurrent_priceThenBook :
    Along runtimeStep OwnSeenCurrent (startRuntime [] crossFeed) (priceThenBook true) := by
  refine ⟨trivial, ?_, trivial, trivial, fun _ _ => ownCurrent_secondPriced, ?_, trivial⟩
  all_goals
    intro _ hseen
    exact absurd hseen (by decide +kernel)

theorem views_complete_iff_crossFeed :
    Along runtimeStep ViewComplete (startRuntime [] crossFeed) (priceThenBook true) := by
  apply (views_complete_iff [] crossFeed _).1.mpr
  apply along_iff_forall_prefix.mpr
  intro pre event hpre
  have hundisplaced : Along runtimeStep Undisplaced (startRuntime [] crossFeed)
      (priceThenBook true) := undisplaced_of_distinctInstruments (by decide) _
  constructor
  · exact along_iff_forall_prefix.mp hundisplaced pre event hpre
  · exact along_iff_forall_prefix.mp ownSeenCurrent_priceThenBook pre event hpre

/-- Reference prices of a token and of a symbol of one name. -/
def sharedName : StrategyRequirements :=
  .trigger [{ kind := .externalReferencePrice, selector := .asset "btc" },
    externalReferencePrice "btc"] .sharedFeedAcceptable

def tokenPrice : NormalizedUpdate :=
  let update := priceOf "btc" 1 "60000"
  { update with notice := { update.notice with subject := .asset ⟨"external-reference"⟩ "btc" } }

def symbolPrice : NormalizedUpdate := priceOf "btc" 1 "60001"

def symbolRecord : HotReferenceState :=
  { emptyReferenceState symbolPrice.notice with
    referencePrice := hotValue "60001"
    timestampMs := 1 }

def bothPriced : RuntimeRun :=
  exec runtimeStep (startRuntime [] sharedName)
    [.applied tokenPrice, .handled tokenPrice.notice, .applied symbolPrice]

theorem bothPriced_resolves :
    bothPriced.store.resolveNotice symbolPrice.notice = some (.reference symbolRecord) := by
  decide +kernel

theorem bothPriced_view :
    ((bothPriced.scaffold.resolveView bothPriced.store symbolPrice.notice).2.map
      fun view => decide (symbolRecord ∈ view.references)) = some false := by
  decide +kernel

/-- The price of the symbol is missing from the view of its own notice. -/
theorem symbol_displaced_by_token :
    ¬ Along runtimeStep ViewComplete (startRuntime [] sharedName)
      [.applied tokenPrice, .handled tokenPrice.notice, .applied symbolPrice,
        .handled symbolPrice.notice] := by
  intro h
  have hlast : ViewComplete bothPriced (.handled symbolPrice.notice) := h.2.2.2.1
  obtain ⟨view, hview, hmissing⟩ := Option.map_eq_some_iff.mp bothPriced_view
  apply of_decide_eq_false hmissing
  refine (hlast view hview).ownReference
    (provisionInput .shared 1 (externalReferencePrice "btc")) ?_ rfl rfl _ bothPriced_resolves
  exact List.mem_cons_of_mem _ List.mem_cons_self

end Runs

end Rtt.ViewCompleteness
