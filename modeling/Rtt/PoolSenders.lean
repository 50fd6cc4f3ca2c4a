import Rtt.PoolRuns

namespace Rtt.PoolSenders

open Rtt.ClobExecutor
open Rtt.ConnectionPool
open Rtt.PoolRuns
open Rtt.Machine

variable {Task : Type} [DecidableEq Task]

/-- What an observer of the events remembers: the senders that are found dead, and those
that were when a task last passed the health check. -/
structure Watch (Task : Type) where
  marked : List Nat
  atPass : Task → List Nat

def Watch.start : Watch Task := { marked := [], atPass := fun _ => [] }

/-- A pass remembers which senders were marked at that moment. -/
def watch (seen : Watch Task) : Event Task → Watch Task × Unit
  | .passed task => ({ seen with atPass := Function.update seen.atPass task seen.marked }, ())
  | .marked sender => ({ seen with marked := sender :: seen.marked }, ())
  | .cleared sender => ({ seen with marked := seen.marked.filter (· ≠ sender) }, ())
  | .acquired _ _ | .handedOver _ _ | .returned _ _ => (seen, ())

/-- A request goes to a sender that was not found dead when its task passed the check. -/
def Checked (seen : Watch Task) : Event Task → Prop
  | .handedOver task sender => sender ∉ seen.atPass task
  | .acquired _ _ | .passed _ | .marked _ | .cleared _ | .returned _ _ => True

/-- A request goes to a sender that is not found dead. -/
def Live (seen : Watch Task) : Event Task → Prop
  | .handedOver _ sender => sender ∉ seen.marked
  | .acquired _ _ | .passed _ | .marked _ | .cleared _ | .returned _ _ => True

/-- What a phase promises of its sender; `home` tells where a sender was installed. -/
def PhaseFits (pool : Pool Task) (seen : Watch Task) (home : Nat → Option Nat) (task : Task) :
    Phase → Prop
  | .ready index => ∀ sender, pool.senderAt index = some sender → sender ∉ seen.atPass task
  | .sent index sender | .failed index sender _ => home sender = some index
  | .connected _ sender _ => home sender = none ∧ sender < pool.opened
  | .idle | .acquired _ | .connecting _ _ | .checking _ _ => True

/-- The sender that a task has made and not yet put in its place. -/
def pendingSender : Phase → Option Nat
  | .connected _ sender _ => some sender
  | _ => none

/-- The invariant of a pool of several tasks. -/
structure Watched (pool : Pool Task) (seen : Watch Task) (home : Nat → Option Nat) : Prop where
  slots : ∀ index sender, pool.senderAt index = some sender → home sender = some index
  phases : ∀ task, PhaseFits pool seen home task (pool.phase task)
  distinct : ∀ task other sender, pendingSender (pool.phase task) = some sender →
    pendingSender (pool.phase other) = some sender → task = other
  opened : ∀ sender, home sender ≠ none → sender < pool.opened
  known : ∀ sender ∈ seen.marked, home sender ≠ none
  knownAtPass : ∀ task, ∀ sender ∈ seen.atPass task, home sender ≠ none
  healthy : ∀ (index : Nat) (conn : H2Connection), pool.connections[index]? = some conn →
    conn.healthy = true → conn.sender ∉ seen.marked

variable {pool : Pool Task} {seen : Watch Task} {home : Nat → Option Nat} {task : Task}

theorem Watched.moveTo (h : Watched pool seen home) (task : Task) (phase : Phase)
    (hfits : PhaseFits pool seen home task phase) (hpending : pendingSender phase = none) :
    Watched (pool.moveTo task phase) seen home where
  slots := h.slots
  phases := by
    intro other
    rw [phase_moveTo]
    split
    · rename_i heq
      subst heq
      cases phase <;> exact hfits
    · have hother := h.phases other
      revert hother
      cases pool.phase other <;> exact id
  distinct := by
    intro first second sender hfirst hsecond
    rw [phase_moveTo] at hfirst hsecond
    split at hfirst
    · rw [hpending] at hfirst
      exact nomatch hfirst
    · split at hsecond
      · rw [hpending] at hsecond
        exact nomatch hsecond
      · exact h.distinct first second sender hfirst hsecond
  opened := h.opened
  known := h.known
  knownAtPass := h.knownAtPass
  healthy := h.healthy

omit [DecidableEq Task] in
theorem Watched.mark (h : Watched pool seen home) {index sender gone : Nat}
    (hsender : pool.senderAt index = some sender) (hgone : home gone = some index) :
    Watched (pool.setHealthy index false)
      { seen with marked := sender :: gone :: seen.marked } home where
  slots := by
    rw [senderAt_setHealthy]
    exact h.slots
  phases := by
    intro other
    have hother := h.phases other
    change PhaseFits (pool.setHealthy index false) _ home other (pool.phase other)
    revert hother
    cases pool.phase other with
    | ready place =>
        intro hready
        rw [PhaseFits, senderAt_setHealthy]
        exact hready
    | _ => exact id
  distinct := h.distinct
  opened := h.opened
  known := by
    intro other hother
    rcases List.mem_cons.mp hother with rfl | hother
    · rw [h.slots index other hsender]
      exact Option.some_ne_none index
    · rcases List.mem_cons.mp hother with rfl | hother
      · rw [hgone]
        exact Option.some_ne_none index
      · exact h.known other hother
  knownAtPass := h.knownAtPass
  healthy := by
    intro place conn hconn hhealthy
    simp only [Pool.setHealthy, List.getElem?_modify] at hconn
    rcases eq_or_ne index place with rfl | hne
    · cases hold : pool.connections[index]? with
      | none => simp [hold] at hconn
      | some old =>
          simp only [hold, if_true, Option.map_eq_map, Option.map_some, Option.some.injEq] at hconn
          rw [← hconn] at hhealthy
          exact absurd hhealthy Bool.false_ne_true
    · simp only [hne, if_false, Option.map_eq_map, Option.map_id'] at hconn
      -- the sender is at home elsewhere, so it is neither of the two
      have hplace : home conn.sender = some place :=
        h.slots place conn.sender (by rw [Pool.senderAt, hconn]; rfl)
      have hother : ∀ dead, home dead = some index → conn.sender ≠ dead := by
        rintro dead hdead rfl
        exact hne (Option.some.inj (hdead.symm.trans hplace))
      rw [List.mem_cons, List.mem_cons, not_or, not_or]
      exact ⟨hother sender (h.slots index sender hsender), hother gone hgone,
        h.healthy place conn hconn hhealthy⟩

theorem Watched.pass (h : Watched pool seen home) {index : Nat}
    (hlive : ∀ sender, pool.senderAt index = some sender → sender ∉ seen.marked) :
    Watched (pool.moveTo task (.ready index))
      { seen with atPass := Function.update seen.atPass task seen.marked } home := by
  have hpassed : Watched { pool with phase := Function.update pool.phase task .idle }
      { seen with atPass := Function.update seen.atPass task seen.marked } home := by
    refine { h.moveTo task .idle trivial rfl with phases := ?_, knownAtPass := ?_ }
    · intro other
      have hother := h.phases other
      change PhaseFits _ _ home other (Function.update pool.phase task .idle other)
      rcases eq_or_ne other task with rfl | hne
      · rw [Function.update_self]
        trivial
      · rw [Function.update_of_ne hne]
        revert hother
        cases pool.phase other with
        | ready place =>
            intro hready sender hsender
            change sender ∉ Function.update seen.atPass task seen.marked other
            rw [Function.update_of_ne hne]
            exact hready sender hsender
        | _ => exact id
    · intro other
      change ∀ sender ∈ Function.update seen.atPass task seen.marked other, _
      rcases eq_or_ne other task with rfl | hne
      · rw [Function.update_self]
        exact h.known
      · rw [Function.update_of_ne hne]
        exact h.knownAtPass other
  have hready : PhaseFits { pool with phase := Function.update pool.phase task .idle }
      { seen with atPass := Function.update seen.atPass task seen.marked } home task
      (.ready index) := by
    intro sender hsender
    change sender ∉ Function.update seen.atPass task seen.marked task
    rw [Function.update_self]
    exact hlive sender hsender
  simpa [Pool.moveTo] using hpassed.moveTo task (.ready index) hready rfl

/-- A step keeps the watch and hands requests over only where `Live` or `Checked` allows. -/
def Keeps (seen : Watch Task) (result : Pool Task × List (Event Task)) : Prop :=
  (∃ home, Watched result.1 (exec watch seen result.2) home) ∧
    Along watch Checked seen result.2

theorem Watched.keeps (h : Watched pool seen home) : Keeps seen (pool, []) :=
  ⟨⟨home, h⟩, trivial⟩

theorem Watched.moved (h : Watched pool seen home) {phase : Phase}
    (hfits : PhaseFits pool seen home task phase) (hpending : pendingSender phase = none) :
    Keeps seen (pool.moveTo task phase, []) :=
  (h.moveTo task phase hfits hpending).keeps

theorem Watched.returns (h : Watched pool seen home) (result : Returned) :
    Keeps seen (pool.moveTo task .idle, [.returned task result]) :=
  ⟨⟨home, h.moveTo task _ trivial rfl⟩, trivial, trivial⟩

theorem Watched.checkFrom (h : Watched pool seen home) (task : Task) (index : Nat)
    (statuses : List ConnectionHealth) : Keeps seen (pool.checkFrom task index statuses) := by
  rw [Pool.checkFrom]
  split
  · exact h.moved trivial rfl
  · exact h.returns _

theorem Watched.afterReconnect (h : Watched pool seen home) (task : Task) (index : Nat)
    (result : Except ConnectionError Unit) (purpose : Purpose)
    (hlive : result = .ok () → ∀ sender, pool.senderAt index = some sender →
      sender ∉ seen.marked) :
    Keeps seen (pool.afterReconnect task index result purpose) := by
  cases purpose with
  | send =>
      cases result with
      | ok done => exact ⟨⟨home, h.pass (hlive rfl)⟩, trivial, trivial⟩
      | error error => exact h.returns _
  | report error => exact h.returns _
  | check statuses => exact h.checkFrom task _ _
  | direct => exact h.returns _

theorem Watched.readHealth (h : Watched pool seen home) (index : Nat) :
    Keeps seen (pool.readHealth task index) := by
  rw [Pool.readHealth]
  split
  · exact h.keeps
  · rename_i conn hconn
    split
    · rename_i hhealthy
      refine ⟨⟨home, h.pass ?_⟩, trivial, trivial⟩
      intro sender hsender
      rw [Pool.senderAt, hconn] at hsender
      rw [← Option.some.inj hsender]
      exact h.healthy index conn hconn hhealthy
    · exact h.moved trivial rfl

theorem Watched.handOver (h : Watched pool seen home) {index : Nat}
    (hphase : pool.phase task = .ready index) : Keeps seen (pool.handOver task index) := by
  rw [Pool.handOver]
  split
  · exact h.keeps
  · rename_i sender hsender
    have hready := h.phases task
    rw [hphase] at hready
    exact ⟨⟨home, h.moveTo task _ (h.slots index sender hsender) rfl⟩, hready sender hsender,
      trivial⟩

theorem Watched.collect (h : Watched pool seen home) {index sender : Nat}
    (hphase : pool.phase task = .sent index sender) (answer : Except String Response) :
    Keeps seen (pool.collect task index sender answer) := by
  have hhome := h.phases task
  rw [hphase] at hhome
  cases answer with
  | ok resp => exact h.returns _
  | error error => exact h.moved hhome rfl

omit [DecidableEq Task] in
theorem Watched.marked (h : Watched pool seen home) {index sender : Nat}
    (hsender : pool.senderAt index = some sender) :
    Watched (pool.setHealthy index false) { seen with marked := sender :: seen.marked } home := by
  have hmark := h.mark hsender (h.slots index sender hsender)
  refine { hmark with known := ?_, healthy := ?_ }
  · exact fun other hother => hmark.known other (List.mem_cons_of_mem sender hother)
  · intro place conn hconn hhealthy hmem
    exact hmark.healthy place conn hconn hhealthy (List.mem_cons_of_mem sender hmem)

theorem Watched.markUnhealthy (h : Watched pool seen home) (index : Nat) :
    Keeps seen (pool.markUnhealthy task index .direct) := by
  rw [Pool.markUnhealthy]
  split
  · exact h.returns _
  · rename_i sender hsender
    exact ⟨⟨home, (h.marked hsender).moveTo task _ trivial rfl⟩, trivial, trivial⟩

theorem Watched.markFailed (h : Watched pool seen home) {index sender : Nat}
    {error : ConnectionError} (hphase : pool.phase task = .failed index sender error) :
    Keeps seen (pool.markFailed task index sender error) := by
  have hhome := h.phases task
  rw [hphase] at hhome
  rw [Pool.markFailed]
  split
  · exact h.returns _
  · rename_i current hcurrent
    exact ⟨⟨home, (h.mark hcurrent hhome).moveTo task _ trivial rfl⟩, trivial, trivial, trivial⟩

theorem Watched.open (h : Watched pool seen home) (task : Task) (index : Nat)
    (purpose : Purpose) :
    Watched { pool.moveTo task (.connected index pool.opened purpose) with
      opened := pool.opened + 1 } seen home := by
  have hfresh : home pool.opened = none := by
    by_contra hsome
    exact absurd (h.opened _ hsome) (lt_irrefl _)
  have hless : ∀ other sender, pendingSender (pool.phase other) = some sender →
      sender < pool.opened := by
    intro other sender hpending
    have hother := h.phases other
    revert hother hpending
    cases pool.phase other with
    | connected place new aim =>
        intro hpending hother
        rw [← Option.some.inj hpending]
        exact hother.2
    | _ => exact fun hpending => nomatch hpending
  refine
    { slots := h.slots, phases := ?_, distinct := ?_, opened := ?_, known := h.known
      knownAtPass := h.knownAtPass, healthy := h.healthy }
  · intro other
    change PhaseFits _ seen home other ((pool.moveTo task _).phase other)
    rw [phase_moveTo]
    split
    · exact ⟨hfresh, Nat.lt_succ_self _⟩
    · have hother := h.phases other
      revert hother
      cases pool.phase other with
      | connected place sender aim => exact fun hother => ⟨hother.1, Nat.lt_succ_of_lt hother.2⟩
      | _ => exact id
  · intro first second sender hfirst hsecond
    change pendingSender ((pool.moveTo task _).phase first) = _ at hfirst
    change pendingSender ((pool.moveTo task _).phase second) = _ at hsecond
    rw [phase_moveTo] at hfirst hsecond
    split at hfirst <;> split at hsecond
    · rename_i hone htwo
      exact hone.trans htwo.symm
    · exact absurd (Option.some.inj hfirst) (hless second sender hsecond).ne'
    · exact absurd (Option.some.inj hsecond) (hless first sender hfirst).ne'
    · exact h.distinct first second sender hfirst hsecond
  · exact fun sender hsender => Nat.lt_succ_of_lt (h.opened sender hsender)

theorem Watched.connect (h : Watched pool seen home) (index : Nat) (purpose : Purpose)
    (dial : Dial) : Keeps seen (pool.connect task index purpose dial) := by
  rw [Pool.connect]
  split
  · exact h.afterReconnect task index _ purpose (by simp)
  · exact (h.open task index purpose).keeps

omit [DecidableEq Task] in
theorem senderAt_set {index sender : Nat} (hindex : index < pool.connections.length)
    (other : Nat) :
    ({ pool with connections := pool.connections.set index { sender, healthy := true } } :
      Pool Task).senderAt other = if other = index then some sender else pool.senderAt other := by
  simp only [Pool.senderAt, List.getElem?_set]
  rcases eq_or_ne other index with rfl | hne
  · simp [hindex]
  · simp [hne, hne.symm]

theorem Watched.place (h : Watched pool seen home) {index sender : Nat} {purpose : Purpose}
    (hphase : pool.phase task = .connected index sender purpose)
    (hindex : index < pool.connections.length) :
    Watched { pool.moveTo task .idle with
        connections := pool.connections.set index { sender, healthy := true } }
      seen (Function.update home sender (some index)) := by
  obtain ⟨hfresh, hopened⟩ : home sender = none ∧ sender < pool.opened := by
    have hfits := h.phases task
    rw [hphase] at hfits
    exact hfits
  have hnew : ∀ other, home other ≠ none →
      Function.update home sender (some index) other = home other := by
    intro other hother
    refine Function.update_of_ne ?_ _ _
    rintro rfl
    exact hother hfresh
  have hsome : ∀ other, home other ≠ none →
      Function.update home sender (some index) other ≠ none :=
    fun other hother => (hnew other hother).symm ▸ hother
  have hsender := @senderAt_set _ pool index sender hindex
  refine
    { slots := ?_, phases := ?_, distinct := (h.moveTo task .idle trivial rfl).distinct
      opened := ?_, known := fun other hother => hsome other (h.known other hother)
      knownAtPass := fun _ other hother => hsome other (h.knownAtPass _ other hother)
      healthy := ?_ }
  · intro place found hfound
    change ({ pool with connections := _ } : Pool Task).senderAt place = _ at hfound
    rw [hsender] at hfound
    split at hfound
    · rename_i heq
      rw [← Option.some.inj hfound, Function.update_self, heq]
    · have hplace := h.slots place found hfound
      rw [hnew found (hplace ▸ Option.some_ne_none place)]
      exact hplace
  · intro other
    change PhaseFits _ seen _ other ((pool.moveTo task .idle).phase other)
    rw [phase_moveTo]
    split
    · trivial
    · rename_i hne
      have hother := h.phases other
      have hdistinct := h.distinct task other sender
      rw [hphase] at hdistinct
      revert hother hdistinct
      cases pool.phase other with
      | ready place =>
          intro hready _ found hfound
          change ({ pool with connections := _ } : Pool Task).senderAt place = _ at hfound
          rw [hsender] at hfound
          split at hfound
          · rw [← Option.some.inj hfound]
            intro hmem
            exact h.knownAtPass other sender hmem hfresh
          · exact hready found hfound
      | sent place found | failed place found error =>
          intro hfound _
          exact (hnew found (hfound ▸ Option.some_ne_none place)).trans hfound
      | connected place found aim =>
          intro hfound hdistinct
          refine ⟨(Function.update_of_ne ?_ _ _).trans hfound.1, hfound.2⟩
          rintro rfl
          exact hne (hdistinct rfl rfl).symm
      | idle | acquired place | connecting place aim | checking place statuses =>
          exact fun _ _ => trivial
  · intro other hother
    rcases eq_or_ne other sender with rfl | hne
    · exact hopened
    · rw [Function.update_of_ne hne] at hother
      exact h.opened other hother
  · intro place conn hconn hhealthy
    simp only [List.getElem?_set] at hconn
    split at hconn
    · rw [← Option.some.inj hconn]
      exact fun hmem => h.known sender hmem hfresh
    · exact h.healthy place conn hconn hhealthy

omit [DecidableEq Task] in
theorem Watched.placed (h : Watched pool seen home) {index sender : Nat} {purpose : Purpose}
    (hphase : pool.phase task = .connected index sender purpose) : sender ∉ seen.marked := by
  have hfits := h.phases task
  rw [hphase] at hfits
  exact fun hmem => h.known sender hmem hfits.1

theorem afterReconnect_moveTo (index : Nat) (result : Except ConnectionError Unit)
    (purpose : Purpose) :
    (pool.moveTo task .idle).afterReconnect task index result purpose =
      pool.afterReconnect task index result purpose := by
  cases purpose <;> try cases result
  all_goals simp [Pool.afterReconnect, Pool.checkFrom, Pool.moveTo]

theorem Watched.install (h : Watched pool seen home) {index sender : Nat} {purpose : Purpose}
    (hphase : pool.phase task = .connected index sender purpose) :
    Keeps seen (pool.install task index sender purpose) := by
  rw [Pool.install]
  split
  · rename_i hindex
    have hlive : ∀ found, ({ pool with
        connections := pool.connections.set index { sender, healthy := true } } :
          Pool Task).senderAt index = some found → found ∉ seen.marked := by
      intro found hfound
      rw [senderAt_set hindex, if_pos rfl] at hfound
      rw [← Option.some.inj hfound]
      exact h.placed hphase
    have hplaced := (h.place hphase hindex).afterReconnect task index (.ok ()) purpose
      fun _ => hlive
    rwa [← afterReconnect_moveTo]
  · exact h.afterReconnect task index _ purpose (by simp)

omit [DecidableEq Task] in
theorem Watched.cleared (h : Watched pool seen home) {index sender : Nat}
    (hsender : pool.senderAt index = some sender) :
    Watched (pool.setHealthy index true)
      { seen with marked := seen.marked.filter (· ≠ sender) } home where
  slots := by
    rw [senderAt_setHealthy]
    exact h.slots
  phases := by
    intro other
    have hother := h.phases other
    change PhaseFits (pool.setHealthy index true) _ home other (pool.phase other)
    revert hother
    cases pool.phase other with
    | ready place =>
        intro hready
        rw [PhaseFits, senderAt_setHealthy]
        exact hready
    | _ => exact id
  distinct := h.distinct
  opened := h.opened
  known := fun other hother => h.known other (List.mem_filter.mp hother).1
  knownAtPass := h.knownAtPass
  healthy := by
    intro place conn hconn hhealthy hmem
    obtain ⟨hmarked, hother⟩ := List.mem_filter.mp hmem
    simp only [Pool.setHealthy, List.getElem?_modify] at hconn
    rcases eq_or_ne index place with rfl | hne
    · cases hold : pool.connections[index]? with
      | none => simp [hold] at hconn
      | some old =>
          simp only [hold, if_true, Option.map_eq_map, Option.map_some, Option.some.injEq] at hconn
          rw [Pool.senderAt, hold, Option.map_some, Option.some.injEq] at hsender
          rw [← hconn, hsender] at hother
          exact absurd rfl (of_decide_eq_true hother)
    · simp only [hne, if_false, Option.map_eq_map, Option.map_id'] at hconn
      exact h.healthy place conn hconn hhealthy hmarked

theorem Watched.check (h : Watched pool seen home) (index : Nat)
    (statuses : List ConnectionHealth) (answer : Except String Unit) :
    Keeps seen (pool.check task index statuses answer) := by
  rw [Pool.check]
  split
  · exact h.keeps
  · rename_i sender hsender
    split
    · obtain ⟨hwatched, hlog⟩ := (h.cleared hsender).checkFrom task (index + 1)
        (statuses ++ [{ index, healthy := true, lastError := none }])
      exact ⟨hwatched, trivial, hlog⟩
    · exact ⟨⟨home, (h.marked hsender).moveTo task _ trivial rfl⟩, trivial, trivial⟩

theorem Watched.startSend (h : Watched pool seen home) (task : Task) :
    Keeps seen (pool.startSend task) := by
  rw [Pool.startSend]
  split
  · exact ⟨⟨home, h⟩, trivial, trivial⟩
  · rename_i next index hacquired
    have hnext : Watched next seen home := by
      rw [Pool.acquire] at hacquired
      split at hacquired
      · exact absurd hacquired (by simp)
      · obtain ⟨rfl, -⟩ := Prod.mk.inj (Except.ok.inj hacquired)
        exact ⟨h.slots, h.phases, h.distinct, h.opened, h.known, h.knownAtPass, h.healthy⟩
    exact ⟨⟨home, hnext.moveTo task _ trivial rfl⟩, trivial, trivial⟩

theorem Watched.step (h : Watched pool seen home) (action : Action Task) :
    Keeps seen (step pool action) := by
  refine step_elim (motive := Keeps seen) pool action h.keeps (fun task _ => h.startSend task)
    (fun _ index _ => h.markUnhealthy index) (fun _ _ _ => h.moved trivial rfl)
    (fun task _ => h.checkFrom task 0 []) (fun _ index _ => h.readHealth index)
    (fun _ _ hphase => h.handOver hphase) (fun _ _ _ answer hphase => h.collect hphase answer)
    (fun _ _ _ _ hphase => h.markFailed hphase)
    (fun _ index purpose dial _ => h.connect index purpose dial)
    (fun _ _ _ _ hphase => h.install hphase)
    (fun _ index statuses answer _ => h.check index statuses answer)

omit [DecidableEq Task] in
theorem senderAt_warm (af : AddressFamily) (poolSize index : Nat) :
    (Pool.warm af poolSize : Pool Task).senderAt index =
      if index < poolSize then some index else none := by
  simp only [Pool.senderAt, Pool.warm, List.getElem?_map]
  split <;> rename_i h <;> simp [h]

omit [DecidableEq Task] in
theorem watched_warm (af : AddressFamily) (poolSize : Nat) :
    Watched (Pool.warm af poolSize : Pool Task) .start
      fun sender => if sender < poolSize then some sender else none where
  slots := by
    intro index sender hsender
    rw [senderAt_warm] at hsender
    split at hsender
    · rename_i hindex
      obtain rfl := Option.some.inj hsender
      exact if_pos hindex
    · exact nomatch hsender
  phases _ := trivial
  distinct _ _ _ hpending := nomatch hpending
  opened := by
    intro sender hhome
    by_contra hge
    exact hhome (if_neg hge)
  known _ hmem := nomatch hmem
  knownAtPass _ _ hmem := nomatch hmem
  healthy _ _ _ _ := List.not_mem_nil

theorem watched_run (af : AddressFamily) (poolSize : Nat) (actions : List (Action Task)) :
    let log := events (.warm af poolSize) actions
    (∃ home, Watched (exec step (.warm af poolSize) actions) (exec watch .start log) home) ∧
      Along watch Checked .start log := by
  refine run_induction step (P := fun _ _ => True)
    (motive := fun _ pool out => (∃ home, Watched pool (exec watch .start out.flatten) home) ∧
      Along watch Checked .start out.flatten) ?_ ?_ actions (along_true _ actions)
  · exact ⟨⟨_, watched_warm af poolSize⟩, trivial⟩
  · rintro _ pool out action ⟨⟨home, h⟩, hlog⟩ _
    obtain ⟨hnext, hnew⟩ := h.step action
    rw [List.flatten_append, List.flatten_singleton, exec_append]
    exact ⟨hnext, along_append.mpr ⟨hlog, hnew⟩⟩

/-- Whatever the tasks of a pool do, a request is handed to a sender that was not found
dead, or was since cleared by a health check, when its task passed the health check. -/
theorem requests_go_to_checked_senders (af : AddressFamily) (poolSize : Nat)
    (actions : List (Action Task)) :
    Along watch Checked .start (events (.warm af poolSize) actions) :=
  (watched_run af poolSize actions).2

section OneTask

variable {pool : Pool Unit} {seen : Watch Unit}

/-- The only task is about to hand its request to a sender that is not found dead. -/
def Steady (pool : Pool Unit) (seen : Watch Unit) : Prop :=
  ∀ index, pool.phase () = .ready index → ∀ sender, pool.senderAt index = some sender →
    sender ∉ seen.marked

/-- A step of the only task keeps the pool steady, and uses a live sender. -/
def KeepsSteady (seen : Watch Unit) (result : Pool Unit × List (Event Unit)) : Prop :=
  Steady result.1 (exec watch seen result.2) ∧ Along watch Live seen result.2

theorem steady_moveTo {phase : Phase} (hphase : ∀ index, phase ≠ .ready index) :
    Steady (pool.moveTo () phase) seen := by
  intro index hready
  rw [phase_moveTo_self] at hready
  exact absurd hready (hphase index)

theorem keepsSteady_moveTo {phase : Phase} (hphase : ∀ index, phase ≠ .ready index) :
    KeepsSteady seen (pool.moveTo () phase, []) :=
  ⟨steady_moveTo hphase, trivial⟩

theorem keepsSteady_returns (result : Returned) :
    KeepsSteady seen (pool.moveTo () .idle, [.returned () result]) :=
  ⟨steady_moveTo (by simp), trivial, trivial⟩

theorem keepsSteady_passes {index : Nat}
    (hlive : ∀ sender, pool.senderAt index = some sender → sender ∉ seen.marked) :
    KeepsSteady seen (pool.moveTo () (.ready index), [.passed ()]) := by
  refine ⟨?_, trivial, trivial⟩
  intro place hready
  rw [phase_moveTo_self] at hready
  obtain rfl := Phase.ready.inj hready
  exact hlive

theorem keepsSteady_checkFrom (index : Nat) (statuses : List ConnectionHealth) :
    KeepsSteady seen (pool.checkFrom () index statuses) := by
  rw [Pool.checkFrom]
  split
  · exact keepsSteady_moveTo (by simp)
  · exact keepsSteady_returns _

theorem keepsSteady_afterReconnect (index : Nat) (result : Except ConnectionError Unit)
    (purpose : Purpose)
    (hlive : result = .ok () → ∀ sender, pool.senderAt index = some sender →
      sender ∉ seen.marked) :
    KeepsSteady seen (pool.afterReconnect () index result purpose) := by
  cases purpose with
  | send =>
      cases result with
      | ok done => exact keepsSteady_passes (hlive rfl)
      | error error => exact keepsSteady_returns _
  | report error => exact keepsSteady_returns _
  | check statuses => exact keepsSteady_checkFrom _ _
  | direct => exact keepsSteady_returns _

theorem keepsSteady_step {home : Nat → Option Nat} (h : Watched pool seen home)
    (hsteady : Steady pool seen) (action : Action Unit) :
    KeepsSteady seen (step pool action) := by
  refine step_elim (motive := KeepsSteady seen) pool action ⟨hsteady, trivial⟩ ?_ ?_ ?_ ?_ ?_ ?_
    ?_ ?_ ?_ ?_ ?_
  · intro _ hidle
    rw [Pool.startSend]
    split
    · refine ⟨?_, trivial, trivial⟩
      intro index hready
      rw [hidle] at hready
      exact absurd hready (by simp)
    · exact ⟨steady_moveTo (by simp), trivial, trivial⟩
  · intro _ index _
    rw [Pool.markUnhealthy]
    split
    · exact keepsSteady_returns _
    · exact ⟨steady_moveTo (by simp), trivial, trivial⟩
  · exact fun _ _ _ => keepsSteady_moveTo (by simp)
  · exact fun _ _ => keepsSteady_checkFrom 0 []
  · intro _ index _
    rw [Pool.readHealth]
    split
    · exact ⟨hsteady, trivial⟩
    · rename_i conn hconn
      split
      · rename_i hhealthy
        refine keepsSteady_passes ?_
        intro sender hsender
        rw [Pool.senderAt, hconn] at hsender
        rw [← Option.some.inj hsender]
        exact h.healthy index conn hconn hhealthy
      · exact keepsSteady_moveTo (by simp)
  · intro _ index hphase
    rw [Pool.handOver]
    split
    · exact ⟨hsteady, trivial⟩
    · rename_i sender hsender
      exact ⟨steady_moveTo (by simp), hsteady index hphase sender hsender, trivial⟩
  · intro _ index sender answer _
    cases answer with
    | ok resp => exact keepsSteady_returns _
    | error error => exact keepsSteady_moveTo (by simp)
  · intro _ index sender error _
    rw [Pool.markFailed]
    split
    · exact keepsSteady_returns _
    · exact ⟨steady_moveTo (by simp), trivial, trivial, trivial⟩
  · intro _ index purpose dial _
    rw [Pool.connect]
    split
    · exact keepsSteady_afterReconnect index _ purpose (by simp)
    · refine ⟨?_, trivial⟩
      intro place hready
      change (pool.moveTo () _).phase () = _ at hready
      rw [phase_moveTo_self] at hready
      exact absurd hready (by simp)
  · intro _ index sender purpose hphase
    rw [Pool.install]
    split
    · rename_i hindex
      refine keepsSteady_afterReconnect index _ purpose ?_
      intro _ found hfound
      rw [senderAt_set hindex, if_pos rfl] at hfound
      rw [← Option.some.inj hfound]
      exact h.placed hphase
    · exact keepsSteady_afterReconnect index _ purpose (by simp)
  · intro _ index statuses answer _
    rw [Pool.check]
    split
    · exact ⟨hsteady, trivial⟩
    · split
      · rename_i sender _ _
        obtain ⟨hnext, hlog⟩ := @keepsSteady_checkFrom (pool.setHealthy index true)
          (watch seen (.cleared sender)).1 (index + 1)
          (statuses ++ [{ index, healthy := true, lastError := none }])
        exact ⟨hnext, trivial, hlog⟩
      · exact ⟨steady_moveTo (by simp), trivial, trivial⟩

/-- A pool that one task has for itself never hands a request to a sender that was found
dead and not cleared since. -/
theorem lone_requests_go_to_live_senders (af : AddressFamily) (poolSize : Nat)
    (actions : List (Action Unit)) :
    Along watch Live .start (events (.warm af poolSize) actions) := by
  have hrun : Steady (exec step (.warm af poolSize) actions)
      (exec watch .start (events (.warm af poolSize) actions)) ∧
        Along watch Live .start (events (.warm af poolSize) actions) := by
    induction actions using List.reverseRecOn with
    | nil => exact ⟨fun _ hready => (nomatch hready), trivial⟩
    | append_singleton actions action ih =>
        obtain ⟨hsteady, hlog⟩ := ih
        obtain ⟨⟨home, h⟩, -⟩ := watched_run af poolSize actions
        obtain ⟨hnext, hnew⟩ := keepsSteady_step h hsteady action
        rw [events, outputs_concat, List.flatten_append, List.flatten_singleton, exec_concat,
          exec_append]
        exact ⟨hnext, along_append.mpr ⟨hlog, hnew⟩⟩
  exact hrun.2

end OneTask

end Rtt.PoolSenders
