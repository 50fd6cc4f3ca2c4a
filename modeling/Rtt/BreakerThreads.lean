import Mathlib
import Rtt.Machine
import Rtt.Safety

/-!
The circuit breaker shared by threads.  A call is split at its atomic steps: the
load of the flag, the two counter additions and the store of the flag.  Any
thread may take the next step.
-/

namespace Rtt.BreakerThreads

open Rtt.MachineWord
open Rtt.Safety
open Rtt.Machine

/-- Where a thread stands inside `checkAndRecord`. -/
inductive Phase where
  | idle
  /-- The flag was loaded; the order is to be counted. -/
  | counting (usdCents : Nat)
  /-- The order is within its limit; the cents are to be added. -/
  | committing (usdCents : Nat)
  /-- A limit was exceeded; the flag is to be stored. -/
  | tripping (usdCents : Nat) (reason : TripReason)

def Phase.isCommitting : Phase → Bool
  | .committing _ => true
  | _ => false

/-- The breaker, and where each thread stands in its call. -/
structure Shared (Thread : Type) where
  breaker : CircuitBreaker
  phase : Thread → Phase

/-- A thread begins a call or takes its next atomic step, or somebody trips the breaker. -/
inductive Action (Thread : Type) where
  | call (thread : Thread) (price size : String)
  | advance (thread : Thread)
  | trip

/-- A call that has returned: its thread, its cents and its result. -/
structure Returned (Thread : Type) where
  thread : Thread
  usdCents : Nat
  result : Except TripReason Unit

section

variable {Thread : Type} [DecidableEq Thread] (centsOf : String → String → Nat)

/-- The load of the flag at the beginning of `check_and_record`. -/
def startCall (state : Shared Thread) (thread : Thread) (price size : String) :
    Shared Thread × Option (Returned Thread) :=
  match state.phase thread with
  | .idle =>
      let usdCents := centsOf price size
      if state.breaker.tripped then
        (state, some { thread, usdCents, result := .error .alreadyTripped })
      else
        ({ state with phase := Function.update state.phase thread (.counting usdCents) }, none)
  | _ => (state, none)

/-- The next atomic step of a call.  The last one returns. -/
def advanceCall (state : Shared Thread) (thread : Thread) :
    Shared Thread × Option (Returned Thread) :=
  match state.phase thread with
  | .idle => (state, none)
  | .counting usdCents =>
      let orders := wrappingAdd state.breaker.ordersFired 1
      let next : Phase :=
        if orders > state.breaker.maxOrders then
          .tripping usdCents (.maxOrders orders state.breaker.maxOrders)
        else .committing usdCents
      ({ breaker := { state.breaker with ordersFired := orders }
         phase := Function.update state.phase thread next }, none)
  | .committing usdCents =>
      let usd := wrappingAdd state.breaker.usdCommittedCents usdCents
      let breaker := { state.breaker with usdCommittedCents := usd }
      if usd > state.breaker.maxUsdCents then
        ({ breaker
           phase := Function.update state.phase thread
             (.tripping usdCents (.maxUsd usd state.breaker.maxUsdCents)) }, none)
      else
        ({ breaker, phase := Function.update state.phase thread .idle },
          some { thread, usdCents, result := .ok () })
  | .tripping usdCents reason =>
      ({ breaker := state.breaker.trip, phase := Function.update state.phase thread .idle },
        some { thread, usdCents, result := .error reason })

def step (state : Shared Thread) :
    Action Thread → Shared Thread × Option (Returned Thread)
  | .call thread price size => startCall centsOf state thread price size
  | .advance thread => advanceCall state thread
  | .trip => ({ state with breaker := state.breaker.trip }, none)

def returned (state : Shared Thread) (schedule : List (Action Thread)) :
    List (Returned Thread) :=
  (outputs (step centsOf) state schedule).filterMap id

/-- The counter addition of this step, if it is one, stays below the word size. -/
def AddsWithinWord (state : Shared Thread) : Action Thread → Prop
  | .advance thread =>
      match state.phase thread with
      | .counting _ => state.breaker.ordersFired + 1 < wordSize
      | .committing usdCents => state.breaker.usdCommittedCents + usdCents < wordSize
      | _ => True
  | _ => True

end

/-- The call has returned `Ok`. -/
def Returned.admits {Thread : Type} (call : Returned Thread) : Bool :=
  match call.result with
  | .ok () => true
  | .error _ => false

/-- The call was refused by one of the two limits, not by the flag. -/
def Returned.overLimit {Thread : Type} (call : Returned Thread) : Prop :=
  ∃ reason, call.result = .error reason ∧ reason.isOverLimit = true

def admitted {Thread : Type} (calls : List (Returned Thread)) : List (Returned Thread) :=
  calls.filter Returned.admits

def centsSum {Thread : Type} (calls : List (Returned Thread)) : Nat :=
  (calls.map Returned.usdCents).sum

/-- What holds in every state of a run.  Every thread that is past the order
check, and every admitted call, has taken an order of its own. -/
structure Accounted {Thread : Type} (start state : Shared Thread)
    (calls : List (Returned Thread)) : Prop where
  limits_same : state.breaker.maxOrders = start.breaker.maxOrders ∧
    state.breaker.maxUsdCents = start.breaker.maxUsdCents
  orders : ∃ committing : Finset Thread,
    (∀ thread, thread ∈ committing ↔ (state.phase thread).isCommitting = true) ∧
      start.breaker.ordersFired + (admitted calls).length + committing.card ≤
        state.breaker.ordersFired ∧
      ((admitted calls).length + committing.card = 0 ∨
        start.breaker.ordersFired + (admitted calls).length + committing.card ≤
          start.breaker.maxOrders)
  usd : start.breaker.usdCommittedCents + centsSum (admitted calls) ≤
      state.breaker.usdCommittedCents ∧
    (admitted calls = [] ∨
      start.breaker.usdCommittedCents + centsSum (admitted calls) ≤ start.breaker.maxUsdCents)
  tripped : (∃ call ∈ calls, call.overLimit) → state.breaker.tripped = true

variable {Thread : Type} [DecidableEq Thread] {centsOf : String → String → Nat}
  {start state : Shared Thread} {calls : List (Returned Thread)}

omit [DecidableEq Thread] in
theorem admitted_concat (calls : List (Returned Thread)) (call : Returned Thread) :
    admitted (calls ++ [call]) = admitted calls ++ if call.admits then [call] else [] := by
  rw [admitted, List.filter_append, List.filter_singleton]
  cases call.admits <;> rfl

theorem isCommitting_update_iff {phase : Thread → Phase} {thread other : Thread} {next : Phase} :
    (Function.update phase thread next other).isCommitting = true ↔
      (other = thread ∧ next.isCommitting = true) ∨
        (other ≠ thread ∧ (phase other).isCommitting = true) := by
  rcases eq_or_ne other thread with rfl | hne
  · simp
  · simp [hne]

theorem mem_erase_iff_isCommitting {phase : Thread → Phase} {committing : Finset Thread}
    (hmem : ∀ thread, thread ∈ committing ↔ (phase thread).isCommitting = true)
    (thread : Thread) {next : Phase} (hnext : next.isCommitting = false) (other : Thread) :
    other ∈ committing.erase thread ↔
      (Function.update phase thread next other).isCommitting = true := by
  rw [Finset.mem_erase, hmem, isCommitting_update_iff, hnext]
  simp

theorem mem_insert_iff_isCommitting {phase : Thread → Phase} {committing : Finset Thread}
    (hmem : ∀ thread, thread ∈ committing ↔ (phase thread).isCommitting = true)
    (thread : Thread) {next : Phase} (hnext : next.isCommitting = true) (other : Thread) :
    other ∈ insert thread committing ↔
      (Function.update phase thread next other).isCommitting = true := by
  rw [Finset.mem_insert, hmem, isCommitting_update_iff, hnext]
  tauto

omit [DecidableEq Thread] in
theorem notMem_committing {phase : Thread → Phase} {committing : Finset Thread}
    (hmem : ∀ thread, thread ∈ committing ↔ (phase thread).isCommitting = true)
    {thread : Thread} (hphase : (phase thread).isCommitting = false) : thread ∉ committing := by
  rw [hmem, hphase]
  simp

omit [DecidableEq Thread] in
theorem tripped_concat (hacc : Accounted start state calls) {call : Returned Thread}
    (htripped : call.overLimit → state.breaker.tripped = true) :
    (∃ other ∈ calls ++ [call], other.overLimit) → state.breaker.tripped = true := by
  rintro ⟨other, hmem, hover⟩
  rcases List.mem_append.mp hmem with hold | hnew
  · exact hacc.tripped ⟨other, hold, hover⟩
  · rw [List.mem_singleton.mp hnew] at hover
    exact htripped hover

omit [DecidableEq Thread] in
theorem accounted_refused (hacc : Accounted start state calls) {call : Returned Thread}
    (hrefused : call.admits = false)
    (htripped : call.overLimit → state.breaker.tripped = true) :
    Accounted start state (calls ++ [call]) := by
  have hsame : admitted (calls ++ [call]) = admitted calls := by
    rw [admitted_concat, hrefused]
    simp
  exact ⟨hacc.limits_same, by rw [hsame]; exact hacc.orders, by rw [hsame]; exact hacc.usd,
    tripped_concat hacc htripped⟩

theorem accounted_moved (hacc : Accounted start state calls) {thread : Thread} {next : Phase}
    (hphase : (state.phase thread).isCommitting = false) (hnext : next.isCommitting = false) :
    Accounted start { state with phase := Function.update state.phase thread next } calls := by
  obtain ⟨committing, hmem, hfired, hcap⟩ := hacc.orders
  refine ⟨hacc.limits_same, ⟨committing.erase thread,
    mem_erase_iff_isCommitting hmem thread hnext, ?_⟩, hacc.usd, hacc.tripped⟩
  rw [Finset.erase_eq_of_notMem (notMem_committing hmem hphase)]
  exact ⟨hfired, hcap⟩

omit [DecidableEq Thread] in
theorem accounted_trip (hacc : Accounted start state calls) :
    Accounted start { state with breaker := state.breaker.trip } calls :=
  ⟨hacc.limits_same, hacc.orders, hacc.usd, fun _ => rfl⟩

theorem accounted_counted (hacc : Accounted start state calls) {thread : Thread} {next : Phase}
    (hphase : (state.phase thread).isCommitting = false)
    (hnext : next.isCommitting = true →
      state.breaker.ordersFired + 1 ≤ state.breaker.maxOrders) :
    Accounted start
      { breaker := { state.breaker with ordersFired := state.breaker.ordersFired + 1 }
        phase := Function.update state.phase thread next } calls := by
  obtain ⟨committing, hmem, hfired, hcap⟩ := hacc.orders
  have hout := notMem_committing hmem hphase
  refine ⟨hacc.limits_same, ?_, hacc.usd, hacc.tripped⟩
  cases hgoes : next.isCommitting with
  | true =>
      refine ⟨insert thread committing, mem_insert_iff_isCommitting hmem thread hgoes, ?_⟩
      rw [Finset.card_insert_of_notMem hout]
      have hlimit := hnext hgoes
      rw [hacc.limits_same.1] at hlimit
      constructor
      · show _ ≤ state.breaker.ordersFired + 1
        omega
      · omega
  | false =>
      refine ⟨committing.erase thread, mem_erase_iff_isCommitting hmem thread hgoes, ?_⟩
      rw [Finset.erase_eq_of_notMem hout]
      constructor
      · show _ ≤ state.breaker.ordersFired + 1
        omega
      · exact hcap

section Leaving

variable {thread : Thread} {usdCents : Nat} {next : Phase}

theorem exists_committing_left (hacc : Accounted start state calls)
    (hphase : state.phase thread = .committing usdCents) (hnext : next.isCommitting = false) :
    ∃ left : Finset Thread,
      (∀ other, other ∈ left ↔
        (Function.update state.phase thread next other).isCommitting = true) ∧
      start.breaker.ordersFired + (admitted calls).length + left.card + 1 ≤
        state.breaker.ordersFired ∧
      start.breaker.ordersFired + (admitted calls).length + left.card + 1 ≤
        start.breaker.maxOrders := by
  obtain ⟨committing, hmem, hfired, hcap⟩ := hacc.orders
  have hin : thread ∈ committing := by
    rw [hmem, hphase]
    rfl
  have hcard := Finset.card_erase_add_one hin
  exact ⟨committing.erase thread, mem_erase_iff_isCommitting hmem thread hnext, by omega, by omega⟩

theorem accounted_committed (hacc : Accounted start state calls)
    (hphase : state.phase thread = .committing usdCents) (hnext : next.isCommitting = false) :
    Accounted start
      { breaker := { state.breaker with
          usdCommittedCents := state.breaker.usdCommittedCents + usdCents }
        phase := Function.update state.phase thread next } calls := by
  obtain ⟨left, hmem, hfired, hcap⟩ := exists_committing_left hacc hphase hnext
  obtain ⟨husd, hmaxUsd⟩ := hacc.usd
  refine ⟨hacc.limits_same, ⟨left, hmem, ?_, ?_⟩, ⟨?_, hmaxUsd⟩, hacc.tripped⟩
  · show _ ≤ state.breaker.ordersFired
    omega
  · omega
  · show _ ≤ state.breaker.usdCommittedCents + usdCents
    omega

theorem accounted_admitted (hacc : Accounted start state calls)
    (hphase : state.phase thread = .committing usdCents) (hnext : next.isCommitting = false)
    {call : Returned Thread} (hcents : call.usdCents = usdCents) (hadmits : call.admits = true)
    (hunder : ¬ call.overLimit)
    (hlimit : state.breaker.usdCommittedCents + usdCents ≤ state.breaker.maxUsdCents) :
    Accounted start
      { breaker := { state.breaker with
          usdCommittedCents := state.breaker.usdCommittedCents + usdCents }
        phase := Function.update state.phase thread next } (calls ++ [call]) := by
  obtain ⟨left, hmem, hfired, hcap⟩ := exists_committing_left hacc hphase hnext
  obtain ⟨husd, hmaxUsd⟩ := hacc.usd
  rw [hacc.limits_same.2] at hlimit
  have hgrown : admitted (calls ++ [call]) = admitted calls ++ [call] := by
    rw [admitted_concat, hadmits, if_pos rfl]
  have hsum : centsSum (admitted calls ++ [call]) = centsSum (admitted calls) + usdCents := by
    simp [centsSum, hcents]
  have hlength : (admitted calls ++ [call]).length = (admitted calls).length + 1 := by
    simp
  refine ⟨hacc.limits_same, ⟨left, hmem, ?_, ?_⟩, ⟨?_, Or.inr ?_⟩,
    tripped_concat hacc fun hover => absurd hover hunder⟩
  · rw [hgrown, hlength]
    show _ ≤ state.breaker.ordersFired
    omega
  · rw [hgrown, hlength]
    omega
  · rw [hgrown, hsum]
    show _ ≤ state.breaker.usdCommittedCents + usdCents
    omega
  · rw [hgrown, hsum]
    omega

end Leaving

theorem accounted_step (hacc : Accounted start state calls) {action : Action Thread}
    (hword : AddsWithinWord state action) :
    Accounted start (step centsOf state action).1
      (calls ++ (step centsOf state action).2.toList) := by
  cases action with
  | trip =>
      rw [step, Option.toList_none, List.append_nil]
      exact accounted_trip hacc
  | call thread price size =>
      simp only [step, startCall]
      split
      · rename_i hidle
        cases htripped : state.breaker.tripped with
        | true =>
            simp only [if_true, Option.toList_some]
            exact accounted_refused hacc rfl fun _ => htripped
        | false =>
            simp only [Bool.false_eq_true, if_false, Option.toList_none, List.append_nil]
            exact accounted_moved hacc (by rw [hidle]; rfl) rfl
      · simpa using hacc
  | advance thread =>
      simp only [AddsWithinWord] at hword
      simp only [step, advanceCall]
      cases hphase : state.phase thread with
      | idle => simpa using hacc
      | counting usdCents =>
          simp only [hphase] at hword
          simp only [wrappingAdd_eq hword, Option.toList_none, List.append_nil]
          apply accounted_counted hacc (by rw [hphase]; rfl)
          intro hgoes
          by_contra hover
          rw [if_pos (not_le.mp hover)] at hgoes
          exact Bool.noConfusion hgoes
      | committing usdCents =>
          simp only [hphase] at hword
          simp only [wrappingAdd_eq hword]
          split
          · rw [Option.toList_none, List.append_nil]
            exact accounted_committed hacc hphase rfl
          · rename_i hlimit
            rw [Option.toList_some]
            refine accounted_admitted hacc hphase rfl rfl rfl ?_ (not_lt.mp hlimit)
            rintro ⟨reason, hresult, -⟩
            exact absurd hresult (by simp)
      | tripping usdCents reason =>
          simp only [Option.toList_some]
          exact accounted_refused
            (accounted_moved (accounted_trip hacc) (by rw [hphase]; rfl) rfl) rfl fun _ => rfl

omit [DecidableEq Thread] in
theorem accounted_start (hidle : ∀ thread, start.phase thread = .idle) :
    Accounted start start [] := by
  refine ⟨⟨rfl, rfl⟩, ⟨∅, ?_, ?_, Or.inl rfl⟩, ⟨le_refl _, Or.inl rfl⟩, ?_⟩
  · intro thread
    rw [hidle]
    simp [Phase.isCommitting]
  · exact le_refl _
  · rintro ⟨call, hmem, -⟩
    exact absurd hmem List.not_mem_nil

theorem accounted_run (hidle : ∀ thread, start.phase thread = .idle)
    (schedule : List (Action Thread))
    (hword : Along (step centsOf) AddsWithinWord start schedule) :
    Accounted start (exec (step centsOf) start schedule)
      (returned centsOf start schedule) := by
  refine run_induction (step centsOf)
    (motive := fun _ state out => Accounted start state (out.filterMap id))
    (accounted_start hidle) ?_ schedule hword
  intro before state out action hacc haction
  have hnext : Accounted start (step centsOf state action).1
      (out.filterMap id ++ (step centsOf state action).2.toList) := accounted_step hacc haction
  rw [List.filterMap_append]
  cases houtput : (step centsOf state action).2 with
  | none =>
      rw [houtput] at hnext
      exact hnext
  | some call =>
      rw [houtput] at hnext
      exact hnext

theorem tripped_step (htripped : state.breaker.tripped = true) (action : Action Thread) :
    (step centsOf state action).1.breaker.tripped = true := by
  cases action with
  | trip => rfl
  | call thread price size =>
      simp only [step, startCall]
      split
      · rw [if_pos htripped]
        exact htripped
      · exact htripped
  | advance thread =>
      simp only [step, advanceCall]
      cases state.phase thread with
      | idle => exact htripped
      | counting usdCents => exact htripped
      | committing usdCents =>
          simp only
          split
          · exact htripped
          · exact htripped
      | tripping usdCents reason => rfl

theorem tripped_exec (htripped : state.breaker.tripped = true)
    (schedule : List (Action Thread)) :
    (exec (step centsOf) state schedule).breaker.tripped = true :=
  exec_kept (I := fun state : Shared Thread => state.breaker.tripped = true)
    (fun _ action h => tripped_step h action) htripped schedule

theorem startCall_tripped {thread : Thread} (hidle : state.phase thread = .idle)
    (htripped : state.breaker.tripped = true) (price size : String) :
    startCall centsOf state thread price size =
      (state, some
        { thread, usdCents := centsOf price size, result := .error .alreadyTripped }) := by
  rw [startCall, hidle]
  exact if_pos htripped

/-- A call that no other thread disturbs is `checkAndRecord`. -/
theorem undisturbed_call {thread : Thread} (hidle : state.phase thread = .idle)
    (price size : String) :
    let schedule := [.call thread price size, .advance thread, .advance thread, .advance thread]
    exec (step centsOf) state schedule =
        { state with breaker := (state.breaker.checkAndRecord centsOf price size).1 } ∧
      returned centsOf state schedule =
        [{ thread, usdCents := centsOf price size
           result := (state.breaker.checkAndRecord centsOf price size).2 }] := by
  have hphase : Function.update state.phase thread .idle = state.phase := by
    rw [← hidle]
    exact Function.update_eq_self thread state.phase
  cases htripped : state.breaker.tripped with
  | true =>
      simp [exec, returned, outputs, step, startCall, advanceCall, hidle, htripped,
        CircuitBreaker.checkAndRecord]
  | false =>
      by_cases horders :
          wrappingAdd state.breaker.ordersFired 1 > state.breaker.maxOrders
      · simp [exec, returned, outputs, step, startCall, advanceCall, hidle, htripped,
          CircuitBreaker.checkAndRecord, CircuitBreaker.trip, horders, hphase]
      · by_cases husd : wrappingAdd state.breaker.usdCommittedCents (centsOf price size) >
            state.breaker.maxUsdCents
        · simp [exec, returned, outputs, step, startCall, advanceCall, hidle, htripped,
            CircuitBreaker.checkAndRecord, CircuitBreaker.trip, horders, husd, hphase]
        · simp [exec, returned, outputs, step, startCall, advanceCall, hidle, htripped,
            CircuitBreaker.checkAndRecord, horders, husd, hphase]

/-- The order and dollar caps, and the permanence of a trip, under every
interleaving of the atomic steps of any number of threads. -/
theorem breaker_threads_safe (centsOf : String → String → Nat) (start : Shared Thread)
    (schedule : List (Action Thread)) (hidle : ∀ thread, start.phase thread = .idle)
    (hword : Along (step centsOf) AddsWithinWord start schedule) :
    let accepted := admitted (returned centsOf start schedule)
    accepted.length ≤ start.breaker.maxOrders - start.breaker.ordersFired ∧
      (accepted ≠ [] →
        start.breaker.usdCommittedCents + centsSum accepted ≤ start.breaker.maxUsdCents) ∧
      (∀ before after, schedule = before ++ after →
        (exec (step centsOf) start before).breaker.tripped = true →
          (exec (step centsOf) start schedule).breaker.tripped = true) ∧
      ∀ before after thread price size,
        schedule = before ++ .call thread price size :: after →
        (∃ call ∈ returned centsOf start before, call.overLimit) →
        (exec (step centsOf) start before).phase thread = .idle →
          ∃ call, (step centsOf (exec (step centsOf) start before)
              (.call thread price size)).2 = some call ∧
            call.thread = thread ∧ call.admits = false := by
  intro accepted
  have hacc := accounted_run hidle schedule hword
  refine ⟨?_, ?_, ?_, ?_⟩
  · obtain ⟨committing, -, -, hnone | hcap⟩ := hacc.orders
    · show (admitted _).length ≤ _
      omega
    · show (admitted _).length ≤ _
      omega
  · intro hne
    exact hacc.usd.2.resolve_left hne
  · rintro before after rfl htripped
    rw [exec_append]
    exact tripped_exec htripped after
  · rintro before after thread price size rfl hover hfree
    have htripped := (accounted_run hidle before (along_append.mp hword).1).tripped hover
    exact ⟨_, congrArg Prod.snd (startCall_tripped hfree htripped price size), rfl, rfl⟩

def oneDollarLeft : Shared Bool where
  breaker := CircuitBreaker.withInitialCounts 5 100 1 0
  phase _ := .idle

/-- Both threads pass the order check before either adds its cents. -/
def overlapping : List (Action Bool) :=
  [.call true "0.60" "1", .call false "0.60" "1", .advance true, .advance false, .advance true,
    .advance false, .advance false]

/-- Two overlapping calls of sixty cents are not both admitted, and a later
call is refused. -/
theorem breaker_threads_safe_overlapping :
    let schedule := overlapping ++ [.call true "0.60" "1"]
    let accepted := admitted (returned (fun _ _ => 60) oneDollarLeft schedule)
    accepted.length = 1 ∧ 0 + centsSum accepted ≤ 100 ∧
      ∃ call, (step (fun _ _ => 60) (exec (step fun _ _ => 60) oneDollarLeft overlapping)
        (.call true "0.60" "1")).2 = some call ∧ call.thread = true ∧ call.admits = false := by
  intro schedule accepted
  have hword : Along (step fun _ _ => 60) AddsWithinWord oneDollarLeft schedule :=
    ⟨trivial, trivial, (by decide : 2 < wordSize), (by decide : 3 < wordSize),
      (by decide : 60 < wordSize), (by decide : 120 < wordSize), trivial, trivial, trivial⟩
  have hone : accepted.length = 1 := rfl
  obtain ⟨-, hcents, -, hlater⟩ :=
    breaker_threads_safe _ oneDollarLeft schedule (fun _ => rfl) hword
  refine ⟨hone, hcents (List.ne_nil_of_length_pos (hone ▸ Nat.one_pos)), ?_⟩
  exact hlater overlapping [] true "0.60" "1" rfl
    ⟨_, List.mem_cons_of_mem _ List.mem_cons_self, .maxUsd 120 100, rfl, rfl⟩ rfl

end Rtt.BreakerThreads
