import Rtt.ExecutorState

namespace Rtt.RestartCaps

open Rtt.BreakerThreads
open Rtt.Machine
open Rtt.MachineWord
open Rtt.Safety
open Rtt.State

variable {Thread : Type} {centsOf : String → String → Nat} {limits : SafetyLimits}

/-- The admitted calls: those that the counters no longer know of, those that are counted in
the file, those that were when the save under way loaded the orders, and the rest. -/
structure Ledger (Thread : Type) where
  lost : List (Returned Thread) := []
  kept : List (Returned Thread) := []
  seen : List (Returned Thread) := []
  fresh : List (Returned Thread) := []
  starts : Nat := 0

namespace Ledger

def add (ledger : Ledger Thread) : Event Thread → Ledger Thread
  | .started =>
      { ledger with
        lost := ledger.lost ++ (ledger.seen ++ ledger.fresh)
        seen := []
        fresh := []
        starts := ledger.starts + 1 }
  | .admitted call => { ledger with fresh := ledger.fresh ++ [call] }
  | .loaded => { ledger with seen := ledger.seen ++ ledger.fresh, fresh := [] }
  | .saved => { ledger with kept := ledger.kept ++ ledger.seen, seen := [] }
  | .torn => { ledger with lost := ledger.lost ++ ledger.kept, kept := [] }

/-- The calls that some process still counts or the file knows. -/
def counted (ledger : Ledger Thread) : List (Returned Thread) :=
  ledger.kept ++ (ledger.seen ++ ledger.fresh)

end Ledger

theorem centsSum_append (calls others : List (Returned Thread)) :
    centsSum (calls ++ others) = centsSum calls + centsSum others := by
  rw [centsSum, List.map_append, List.sum_append]
  rfl

/-- The saved state knows of what is kept, but for a cent at each start. -/
def FileKnows (file : Option ExecutorState) (ledger : Ledger Thread) : Prop :=
  ledger.kept.length ≤ (ExecutorState.load file).ordersFired ∧
    centsSum ledger.kept ≤ (ExecutorState.load file).usdCommittedCents + ledger.starts

/-- A process since it began with what the file knew of, `before`. -/
structure Session (limits : SafetyLimits) (shared : Shared Thread) (ledger : Ledger Thread)
    (begin : Shared Thread) (before calls : List (Returned Thread)) : Prop where
  accounted : Accounted begin shared calls
  sameLimits : begin.breaker.maxOrders = limits.maxOrders ∧
    begin.breaker.maxUsdCents = limits.maxUsdCents
  counted : ledger.counted = before ++ admitted calls
  known : before.length ≤ begin.breaker.ordersFired ∧
    centsSum before ≤ begin.breaker.usdCommittedCents + (ledger.starts - 1)
  capped : before.length ≤ limits.maxOrders ∧
    centsSum before ≤ limits.maxUsdCents + (ledger.starts - 1)

/-- The counters of a running process cover what the ledger counts. -/
structure Counts (limits : SafetyLimits) (process : Process Thread) (ledger : Ledger Thread) :
    Prop where
  started : 0 < ledger.starts
  session : ∃ begin before calls, Session limits process.shared ledger begin before calls
  loaded : ∀ orders, process.loadedOrders = some orders →
    ledger.kept.length + ledger.seen.length ≤ orders

/-- The invariant: what is counted is within the caps, up to the roundings of the restarts. -/
structure Capped (limits : SafetyLimits) (service : Service Thread) (ledger : Ledger Thread) :
    Prop where
  orders : ledger.counted.length ≤ limits.maxOrders
  usd : centsSum ledger.counted ≤ limits.maxUsdCents + (ledger.starts - 1)
  file : FileKnows service.file ledger
  process : ∀ process, service.process = some process → Counts limits process ledger

/-- The counters stay machine words, and the cents small enough for their dollars to be told
apart, when an action of the breaker or a save is taken. -/
def WithinBounds (service : Service Thread) (action : State.Action Thread) : Prop :=
  ∀ process, service.process = some process →
    match action with
    | .breaker action => AddsWithinWord process.shared action
    | .save _ _ => process.shared.breaker.usdCommittedCents ≤ 2 ^ 51
    | .start | .loadOrders | .exit _ => True

variable {service : Service Thread} {process : Process Thread} {ledger : Ledger Thread}

section Sessions

variable {shared begin : Shared Thread} {before calls : List (Returned Thread)}

theorem Session.counts (h : Session limits shared ledger begin before calls) :
    ledger.counted.length ≤ shared.breaker.ordersFired ∧
      centsSum ledger.counted ≤ shared.breaker.usdCommittedCents + (ledger.starts - 1) := by
  obtain ⟨committing, -, hfired, -⟩ := h.accounted.orders
  have hcents := h.accounted.usd.1
  have hknown := h.known
  rw [h.counted, List.length_append, centsSum_append]
  omega

theorem Session.caps (h : Session limits shared ledger begin before calls) :
    ledger.counted.length ≤ limits.maxOrders ∧
      centsSum ledger.counted ≤ limits.maxUsdCents + (ledger.starts - 1) := by
  obtain ⟨hmaxOrders, hmaxUsd⟩ := h.sameLimits
  obtain ⟨horders, husd⟩ := h.known
  obtain ⟨hbefore, hcents⟩ := h.capped
  rw [h.counted, List.length_append, centsSum_append]
  constructor
  · obtain ⟨committing, -, -, hnone | hcap⟩ := h.accounted.orders <;> omega
  · rcases h.accounted.usd.2 with hnone | hcap
    · rw [hnone]
      exact hcents
    · omega

theorem Session.retold (h : Session limits shared ledger begin before calls)
    {next : Ledger Thread} (hcounted : next.counted = ledger.counted)
    (hstarts : next.starts = ledger.starts) : Session limits shared next begin before calls where
  accounted := h.accounted
  sameLimits := h.sameLimits
  counted := hcounted.trans h.counted
  known := hstarts ▸ h.known
  capped := hstarts ▸ h.capped

end Sessions

section Steps

theorem Capped.retold (h : Capped limits service ledger) {next : Ledger Thread}
    (hcounted : next.counted = ledger.counted) (hstarts : next.starts = ledger.starts)
    {after : Service Thread} (hfile : FileKnows after.file next)
    (hprocess : ∀ process, after.process = some process → Counts limits process next) :
    Capped limits after next where
  orders := hcounted ▸ h.orders
  usd := by
    rw [hcounted, hstarts]
    exact h.usd
  file := hfile
  process := hprocess

theorem Capped.start [DecidableEq Thread] (h : Capped limits service ledger) :
    Capped limits { service with process := some (State.start limits service.file) }
      (ledger.add .started) := by
  have hkept : ledger.kept.length ≤ limits.maxOrders ∧
      centsSum ledger.kept ≤ limits.maxUsdCents + ledger.starts := by
    have horders := h.orders
    have husd := h.usd
    rw [Ledger.counted, List.length_append] at horders
    rw [Ledger.counted, centsSum_append] at husd
    omega
  have hcounted : (ledger.add .started).counted = ledger.kept := by
    simp [Ledger.counted, Ledger.add]
  refine ⟨by rw [hcounted]; exact hkept.1, by rw [hcounted]; exact hkept.2, ?_, ?_⟩
  · exact ⟨h.file.1, h.file.2.trans (Nat.le_succ _)⟩
  · rintro _ ⟨⟩
    refine ⟨Nat.succ_pos _, ⟨(State.start limits service.file).shared, ledger.kept, [], ?_⟩,
      fun _ hnone => (nomatch hnone)⟩
    exact
      { accounted := accounted_start fun _ => rfl
        sameLimits := ⟨rfl, rfl⟩
        counted := by
          rw [hcounted]
          exact (List.append_nil _).symm
        known := h.file
        capped := hkept }

theorem Capped.breaker [DecidableEq Thread] (h : Capped limits service ledger)
    (hprocess : service.process = some process) {action : BreakerThreads.Action Thread}
    (hword : AddsWithinWord process.shared action) :
    let result := BreakerThreads.step centsOf process.shared action
    Capped limits { service with process := some { process with shared := result.1 } }
      ((admittedCall result.2).foldl Ledger.add ledger) := by
  intro result
  obtain ⟨hstarted, ⟨begin, before, calls, hsession⟩, hloaded⟩ := h.process process hprocess
  have hacc : Accounted begin result.1 (calls ++ result.2.toList) :=
    accounted_step hsession.accounted hword
  obtain ⟨next, hnext⟩ : ∃ next, (admittedCall result.2).foldl Ledger.add ledger = next :=
    ⟨_, rfl⟩
  have hfields : next.counted = before ++ admitted (calls ++ result.2.toList) ∧
      next.kept = ledger.kept ∧ next.seen = ledger.seen ∧ next.starts = ledger.starts := by
    rw [← hnext]
    cases hresult : result.2 with
    | none =>
        rw [Option.toList_none, List.append_nil]
        exact ⟨hsession.counted, rfl, rfl, rfl⟩
    | some call =>
        rw [Option.toList_some, admitted_concat, ← List.append_assoc, ← hsession.counted,
          admittedCall]
        split
        · refine ⟨?_, rfl, rfl, rfl⟩
          simp [Ledger.counted, Ledger.add]
        · rw [List.append_nil]
          exact ⟨rfl, rfl, rfl, rfl⟩
  rw [hnext]
  obtain ⟨hcounted, hkept, hseen, hstarts⟩ := hfields
  have hsession' : Session limits result.1 next begin before (calls ++ result.2.toList) :=
    ⟨hacc, hsession.sameLimits, hcounted, hstarts ▸ hsession.known, hstarts ▸ hsession.capped⟩
  refine ⟨hsession'.caps.1, hsession'.caps.2, ?_, ?_⟩
  · rw [FileKnows, hkept, hstarts]
    exact h.file
  · rintro _ ⟨⟩
    refine ⟨hstarts ▸ hstarted, ⟨begin, before, _, hsession'⟩, ?_⟩
    rw [hkept, hseen]
    exact hloaded

theorem Capped.loadOrders (h : Capped limits service ledger)
    (hprocess : service.process = some process) :
    Capped limits
      { service with
        process := some
          { process with loadedOrders := some process.shared.breaker.ordersFired } }
      (ledger.add .loaded) := by
  obtain ⟨hstarted, ⟨begin, before, calls, hsession⟩, -⟩ := h.process process hprocess
  have hcounted : (ledger.add .loaded).counted = ledger.counted := by
    simp [Ledger.counted, Ledger.add]
  refine h.retold hcounted rfl h.file ?_
  rintro _ ⟨⟩
  refine ⟨hstarted, ⟨begin, before, calls, hsession.retold hcounted rfl⟩, ?_⟩
  rintro _ ⟨⟩
  have hcounts := hsession.counts.1
  rw [Ledger.counted, List.length_append, List.length_append] at hcounts
  change ledger.kept.length + (ledger.seen ++ ledger.fresh).length ≤ _
  rwa [List.length_append]

theorem Capped.save (h : Capped limits service ledger)
    (hprocess : service.process = some process) {orders : Nat}
    (hloaded : process.loadedOrders = some orders)
    (hsmall : process.shared.breaker.usdCommittedCents ≤ 2 ^ 51) (now : String) :
    Capped limits
      { file := some (.fromStats orders (savedCents process.shared.breaker.usdCommittedCents)
          process.shared.breaker.tripped now)
        process := some { process with loadedOrders := none } } (ledger.add .saved) := by
  obtain ⟨hstarted, ⟨begin, before, calls, hsession⟩, hseen⟩ := h.process process hprocess
  have hcounted : (ledger.add .saved).counted = ledger.counted := by
    simp [Ledger.counted, Ledger.add]
  refine h.retold hcounted rfl ⟨?_, ?_⟩ ?_
  · change (ledger.kept ++ ledger.seen).length ≤ orders
    rw [List.length_append]
    exact hseen orders hloaded
  · change centsSum (ledger.kept ++ ledger.seen) ≤
      savedCents process.shared.breaker.usdCommittedCents + ledger.starts
    have hcounts := hsession.counts.2
    have hclose := (savedCents_close hsmall).1
    rw [Ledger.counted, ← List.append_assoc, centsSum_append] at hcounts
    omega
  · rintro _ ⟨⟩
    exact ⟨hstarted, ⟨begin, before, calls, hsession.retold hcounted rfl⟩,
      fun _ hnone => (nomatch hnone)⟩

theorem Capped.unsaved (h : Capped limits service ledger)
    (hprocess : service.process = some process) :
    Capped limits { service with process := some { process with loadedOrders := none } }
      ledger := by
  obtain ⟨hstarted, hsession, -⟩ := h.process process hprocess
  refine h.retold rfl rfl h.file ?_
  rintro _ ⟨⟩
  exact ⟨hstarted, hsession, fun _ hnone => (nomatch hnone)⟩

theorem Capped.torn (h : Capped limits service ledger) :
    Capped limits { file := none, process := none } (ledger.add .torn) := by
  have horders := h.orders
  have husd := h.usd
  rw [Ledger.counted, List.length_append] at horders
  rw [Ledger.counted, centsSum_append] at husd
  have hcounted : (ledger.add .torn).counted = ledger.seen ++ ledger.fresh := by
    simp [Ledger.counted, Ledger.add]
  refine ⟨?_, ?_, ⟨Nat.zero_le _, Nat.zero_le _⟩, fun _ hnone => (nomatch hnone)⟩
  · rw [hcounted]
    omega
  · rw [hcounted]
    change _ ≤ _ + (ledger.starts - 1)
    omega

theorem Capped.step [DecidableEq Thread] (h : Capped limits service ledger)
    {action : State.Action Thread} (hbounds : WithinBounds service action) :
    Capped limits (State.step centsOf limits service action).1
      ((State.step centsOf limits service action).2.foldl Ledger.add ledger) := by
  unfold State.step
  split
  · exact h.start
  · rename_i process action hprocess
    exact h.breaker hprocess (hbounds process hprocess)
  · rename_i process hprocess
    exact h.loadOrders hprocess
  · rename_i process now written hprocess
    split
    · exact h
    · rename_i orders hloaded
      split
      · exact h.save hprocess hloaded (hbounds process hprocess) now
      · exact h.unsaved hprocess
  · split
    · exact h.torn
    · exact h.retold rfl rfl h.file fun _ hnone => (nomatch hnone)
  · exact h

end Steps

section Runs

def admitted? : Event Thread → Option (Returned Thread)
  | .admitted call => some call
  | .started | .loaded | .saved | .torn => none

def admittedOf (log : List (Event Thread)) : List (Returned Thread) := log.filterMap admitted?

def ledgerOf (log : List (Event Thread)) : Ledger Thread := log.foldl Ledger.add {}

/-- No call stays behind: a process starts only when all that was admitted is in the file. -/
def Clean (ledger : Ledger Thread) : Event Thread → Prop
  | .started => ledger.seen ++ ledger.fresh = []
  | .torn => False
  | .admitted _ | .loaded | .saved => True

instance (ledger : Ledger Thread) (event : Event Thread) : Decidable (Clean ledger event) :=
  match event with
  | .started => decidable_of_iff ((ledger.seen ++ ledger.fresh).isEmpty = true) List.isEmpty_iff
  | .torn => isFalse id
  | .admitted _ | .loaded | .saved => isTrue trivial

theorem admittedOf_perm (log : List (Event Thread)) :
    (admittedOf log).Perm ((ledgerOf log).lost ++ (ledgerOf log).counted) := by
  induction log using List.reverseRecOn with
  | nil => exact List.Perm.refl _
  | append_singleton log event ih =>
      rw [admittedOf, List.filterMap_append, ← admittedOf, ledgerOf, List.foldl_append, ← ledgerOf]
      generalize ledgerOf log = ledger at ih
      have hadd : ((ledger.lost ++ ledger.counted) ++ (admitted? event).toList).Perm
          ((ledger.add event).lost ++ (ledger.add event).counted) := by
        cases event with
        | started =>
            have hswap : (ledger.kept ++ (ledger.seen ++ ledger.fresh)).Perm
                (ledger.seen ++ ledger.fresh ++ ledger.kept) := List.perm_append_comm
            simpa [admitted?, Ledger.add, Ledger.counted] using hswap.append_left ledger.lost
        | admitted call =>
            simp [admitted?, Ledger.add, Ledger.counted]
        | loaded => simp [admitted?, Ledger.add, Ledger.counted]
        | saved => simp [admitted?, Ledger.add, Ledger.counted]
        | torn => simp [admitted?, Ledger.add, Ledger.counted]
      refine (ih.append_right _).trans ?_
      cases event <;> exact hadd

def note (ledger : Ledger Thread) (event : Event Thread) : Ledger Thread × Unit :=
  (ledger.add event, ())

theorem exec_note (ledger : Ledger Thread) (log : List (Event Thread)) :
    exec note ledger log = log.foldl Ledger.add ledger := by
  induction log generalizing ledger with
  | nil => rfl
  | cons event rest ih => exact ih _

theorem lost_of_clean {log : List (Event Thread)} (hclean : Along note Clean {} log) :
    (ledgerOf log).lost = [] := by
  rw [ledgerOf, ← exec_note]
  refine exec_invariant (I := fun ledger => ledger.lost = []) ?_ rfl hclean
  intro ledger event hnone hevent
  cases event with
  | started =>
      change ledger.lost ++ (ledger.seen ++ ledger.fresh) = []
      rw [hnone, hevent, List.append_nil]
  | torn => exact hevent.elim
  | admitted _ | loaded | saved => exact hnone

variable [DecidableEq Thread]

def events (centsOf : String → String → Nat) (limits : SafetyLimits) (service : Service Thread)
    (actions : List (State.Action Thread)) : List (Event Thread) :=
  (outputs (State.step centsOf limits) service actions).flatten

theorem capped_run {file : Option ExecutorState} {actions : List (State.Action Thread)}
    (hbounds : Along (State.step centsOf limits) WithinBounds
      ({ file, process := none } : Service Thread) actions) :
    Capped limits (exec (State.step centsOf limits) { file, process := none } actions)
      (ledgerOf (events centsOf limits { file, process := none } actions)) := by
  refine run_induction (State.step centsOf limits) (P := WithinBounds)
    (motive := fun _ service out => Capped limits service (ledgerOf out.flatten)) ?_ ?_ actions
    hbounds
  · exact ⟨Nat.zero_le _, Nat.zero_le _, ⟨Nat.zero_le _, Nat.zero_le _⟩,
      fun _ hnone => (nomatch hnone)⟩
  · intro _ service out action hcapped haction
    rw [List.flatten_append, List.flatten_singleton, ledgerOf, List.foldl_append]
    exact hcapped.step haction

/-- Over any run of the executor with its restarts, while its threads check orders and its
health monitor saves, what is admitted stays within the caps but for the calls that were
lost with a process or a torn file and a cent for each restart; none is lost as long as each
process ends with a save. -/
theorem caps_outlive_restarts (centsOf : String → String → Nat) (limits : SafetyLimits)
    (file : Option ExecutorState) (actions : List (State.Action Thread))
    (hbounds : Along (State.step centsOf limits) WithinBounds
      ({ file, process := none } : Service Thread) actions) :
    let log := events centsOf limits { file, process := none } actions
    let ledger := ledgerOf log
    (admittedOf log).length ≤ limits.maxOrders + ledger.lost.length ∧
      centsSum (admittedOf log) ≤
        limits.maxUsdCents + centsSum ledger.lost + (ledger.starts - 1) ∧
      (Along note Clean {} log → ledger.lost = []) := by
  intro log ledger
  have hcapped : Capped limits _ ledger := capped_run hbounds
  have hperm : (admittedOf log).Perm (ledger.lost ++ ledger.counted) := admittedOf_perm log
  refine ⟨?_, ?_, lost_of_clean⟩
  · have horders := hcapped.orders
    rw [hperm.length_eq, List.length_append]
    omega
  · have husd := hcapped.usd
    have hsum : centsSum (admittedOf log) = centsSum (ledger.lost ++ ledger.counted) :=
      (hperm.map Returned.usdCents).sum_eq
    rw [hsum, centsSum_append]
    omega

/-- One call of fifty-eight cents. -/
def oneCall : List (State.Action Unit) :=
  [.breaker (.call () "0.58" "1"), .breaker (.advance ()), .breaker (.advance ())]

/-- Every process ends with a save, but a cent is gone at the restart, so that the second
call still passes. -/
theorem caps_outlive_restarts_lostCent :
    let actions := .start :: oneCall ++ [.loadOrders, .save "" true, .exit false, .start] ++ oneCall
    let log := events (fun _ _ => 58) { maxOrders := 5, maxUsdCents := 115 }
      { file := none, process := none } actions
    centsSum (admittedOf log) = 116 ∧
      centsSum (admittedOf log) ≤ 115 + centsSum (ledgerOf log).lost + ((ledgerOf log).starts - 1) ∧
      (ledgerOf log).lost = [] := by
  intro actions log
  have hbounds : Along (State.step (fun _ _ => 58) { maxOrders := 5, maxUsdCents := 115 })
      WithinBounds ({ file := none, process := none } : Service Unit) actions := by
    refine ⟨?_, ?_, ?_, ?_, ?_, ?_, ?_, ?_, ?_, ?_, ?_, trivial⟩
    all_goals rintro _ ⟨⟩
    · trivial
    · exact (by decide : 0 + 1 < wordSize)
    · exact (by decide : 0 + 58 < wordSize)
    · trivial
    · exact (by decide : 58 ≤ 2 ^ 51)
    · trivial
    · trivial
    · exact (by decide : 1 + 1 < wordSize)
    · change savedCents 58 + 58 < wordSize
      have hclose := savedCents_close (by decide : 58 ≤ 2 ^ 51)
      simp only [wordSize]
      omega
  obtain ⟨-, hcents, hclean⟩ := caps_outlive_restarts _ _ _ _ hbounds
  exact ⟨by decide +kernel, hcents, hclean (by decide +kernel)⟩

end Runs

end Rtt.RestartCaps
