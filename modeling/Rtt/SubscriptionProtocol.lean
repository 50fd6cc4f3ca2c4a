import Rtt.EditQueue
import Rtt.SubscriptionPlan

/-!
The websocket client and its caller: the desired set that they share, the queue
of control commands between them, and the commands written on a connection.
-/

namespace Rtt.SubscriptionProtocol

open Rtt.EditQueue
open Rtt.SubscriptionPlan

/-- Where a call of `reconfigure_assets` stands. -/
inductive Caller where
  | idle
  /-- The plan is made and the desired set not yet written. -/
  | planned (commands : List SubscriptionCommand) (desired : Std.TreeSet String)
  /-- The sender is not yet looked up. -/
  | written (commands : List SubscriptionCommand)
  /-- The commands left to enqueue, and whether the receiver is still there. -/
  | sending (commands : List SubscriptionCommand) (connected : Bool)

/-- One call of `connect_and_run`. -/
structure Connection where
  initialCommands : List SubscriptionCommand
  /-- Taken from the queue and not yet written. -/
  taken : Option SubscriptionCommand
  /-- Written so far. -/
  sent : List SubscriptionCommand
  deriving DecidableEq

/-- The commands that the call has still to enqueue. -/
def Caller.owed : Caller → List SubscriptionCommand
  | .idle | .planned .. | .sending _ false => []
  | .written commands | .sending commands true => commands

/-- The commands of the connection, those that it has still to write last. -/
def Connection.commands (self : Connection) : List SubscriptionCommand :=
  self.sent ++ (self.taken.toList ++ self.initialCommands)

/-- The client with its caller and its connection. -/
structure ClientSystem where
  desiredAssetIds : Std.TreeSet String
  /-- The queue of control commands, while the client runs. -/
  control : Option (List SubscriptionCommand)
  connection : Option Connection
  caller : Caller

/-- A step of the caller, of the connection task or of the network. -/
inductive Action where
  | reconfigureAssets (assetIds : List String)
  | writeDesired
  | lookUpControl
  | enqueue
  | run
  | stop
  | connect
  | sendInitial (succeeds : Bool)
  | receiveControl
  | sendTaken (succeeds : Bool)
  | drop
  deriving DecidableEq

def ClientSystem.new (assetIds : List String) : ClientSystem :=
  { desiredAssetIds := Std.TreeSet.ofList assetIds
    control := none
    connection := none
    caller := .idle }

namespace ClientSystem

variable (config : SubscriptionPlannerConfig) (self : ClientSystem)

/-- The call reads the assigned assets and plans the commands. -/
def reconfigureAssets (assetIds : List String) : ClientSystem :=
  match self.caller with
  | .idle =>
      let currentAssetIds :=
        Std.TreeSet.ofList (assignedAssetIdsForConfig self.desiredAssetIds config)
      let desiredAssetIds := Std.TreeSet.ofList assetIds
      { self with
        caller :=
          .planned (planSubscriptionCommands currentAssetIds desiredAssetIds config)
            desiredAssetIds }
  | .planned .. | .written _ | .sending .. => self

/-- The caller writes the set that it has planned for. -/
def writeDesired : ClientSystem :=
  match self.caller with
  | .planned commands desired =>
      { self with
        desiredAssetIds := desired
        caller := if commands = [] then .idle else .written commands }
  | .idle | .written _ | .sending .. => self

/-- The caller looks whether there is a queue to put its commands in. -/
def lookUpControl : ClientSystem :=
  match self.caller with
  | .written commands =>
      { self with caller := if self.control = none then .idle else .sending commands true }
  | .idle | .planned .. | .sending .. => self

/-- A command sent to a receiver that is gone is lost. -/
def enqueue : ClientSystem :=
  match self.caller with
  | .sending (command :: commands) connected =>
      { self with
        control := if connected then self.control.map (· ++ [command]) else self.control
        caller := .sending commands connected }
  | .sending [] _ => { self with caller := .idle }
  | .idle | .planned .. | .written _ => self

def run : ClientSystem :=
  match self.control with
  | none => { self with control := some [] }
  | some _ => self

/-- The loop is left between two connections, and the receiver goes with it. -/
def stop : ClientSystem :=
  match self.connection with
  | none =>
      { self with
        control := none
        caller :=
          match self.caller with
          | .sending commands _ => .sending commands false
          | .idle => .idle
          | .planned commands desired => .planned commands desired
          | .written commands => .written commands }
  | some _ => self

/-- The initial commands subscribe to what is desired when the connection is up. -/
def connect : ClientSystem :=
  match self.control, self.connection with
  | some _, none =>
      { self with
        connection := some
          { initialCommands := planSubscriptionCommands ∅ self.desiredAssetIds config
            taken := none
            sent := [] } }
  | _, _ => self

/-- The first commands of a connection are sent, or the connection fails. -/
def sendInitial (succeeds : Bool) : ClientSystem :=
  match self.connection with
  | some { initialCommands := command :: commands, taken, sent } =>
      { self with
        connection :=
          if succeeds then
            some { initialCommands := commands, taken, sent := sent ++ [command] }
          else none }
  | some { initialCommands := [], .. } | none => self

/-- The connection task takes a command from the queue. -/
def receiveControl : ClientSystem :=
  match self.connection, self.control with
  | some { initialCommands := [], taken := none, sent }, some (command :: commands) =>
      { self with
        control := some commands
        connection := some { initialCommands := [], taken := some command, sent } }
  | _, _ => self

/-- The command taken is sent, or lost with the connection. -/
def sendTaken (succeeds : Bool) : ClientSystem :=
  match self.connection with
  | some { initialCommands, taken := some command, sent } =>
      { self with
        connection :=
          if succeeds then some { initialCommands, taken := none, sent := sent ++ [command] }
          else none }
  | some { taken := none, .. } | none => self

def drop : ClientSystem := { self with connection := none }

def act (action : Action) : ClientSystem :=
  match action with
  | .reconfigureAssets assetIds => self.reconfigureAssets config assetIds
  | .writeDesired => self.writeDesired
  | .lookUpControl => self.lookUpControl
  | .enqueue => self.enqueue
  | .run => self.run
  | .stop => self.stop
  | .connect => self.connect config
  | .sendInitial succeeds => self.sendInitial succeeds
  | .receiveControl => self.receiveControl
  | .sendTaken succeeds => self.sendTaken succeeds
  | .drop => self.drop

end ClientSystem

/-- The list that a call gives. -/
def Action.requested? : Action → Option (List String)
  | .reconfigureAssets assetIds => some assetIds
  | .writeDesired | .lookUpControl | .enqueue | .run | .stop | .connect | .sendInitial _
  | .receiveControl | .sendTaken _ | .drop => none

/-- The list of the last call, or the first list where there is none. -/
def lastRequested (assetIds : List String) (actions : List Action) : List String :=
  (actions.filterMap Action.requested?).getLast?.getD assetIds

/-- No call starts while another is in progress. -/
def CallsInTurn (config : SubscriptionPlannerConfig) : ClientSystem → List Action → Prop
  | _, [] => True
  | system, action :: actions =>
      (action.requested? ≠ none → system.caller = .idle) ∧
        CallsInTurn config (system.act config action) actions

section Plan

variable (config : SubscriptionPlannerConfig)

/-- The set of subscriptions that a desired set stands for. -/
def assigned (desired : Std.TreeSet String) : Finset String :=
  (assignedAssetIdsForConfig desired config).toFinset

theorem pointwise_applyCommand : Pointwise applyCommand := by
  intro s t command assetId h
  simp only [applyCommand]
  cases command.operation with
  | subscribe => simp only [Finset.mem_union, h]
  | unsubscribe => simp only [Finset.mem_sdiff, h]

variable {config} {current desired : Std.TreeSet String}
  {removals additions : List SubscriptionCommand}

theorem mem_foldl_plan_iff (h : PlanParts current desired config removals additions)
    (s : Finset String) (assetId : String) :
    assetId ∈ (planSubscriptionCommands current desired config).foldl applyCommand s ↔
      (assetId ∈ s ∧ ¬ (assetId ∈ current ∧ assetId ∉ assigned config desired)) ∨
        (assetId ∈ assigned config desired ∧ assetId ∉ current) := by
  rw [h.plan_eq, List.foldl_append, foldl_applyCommand_unsubscribe h.removed.operation_eq,
    foldl_applyCommand_subscribe h.added.operation_eq, h.removed.assetIds_eq,
    h.added.assetIds_eq]
  simp only [Finset.mem_union, Finset.mem_sdiff, List.mem_toFinset, mem_adds_iff,
    mem_removes_iff, assigned]

theorem applyCommand_plan_fixed (h : PlanParts current desired config removals additions)
    {command : SubscriptionCommand}
    (hcommand : command ∈ planSubscriptionCommands current desired config) :
    applyCommand (assigned config desired) command = assigned config desired := by
  rw [h.plan_eq, List.mem_append] at hcommand
  rcases hcommand with hcommand | hcommand
  · have hgone : ∀ assetId ∈ command.assetIds, assetId ∉ assigned config desired := by
      intro assetId hmem
      have hremoved := List.mem_flatMap_of_mem hcommand hmem
      rw [h.removed.assetIds_eq, mem_removes_iff] at hremoved
      simpa [assigned] using hremoved.2
    simp only [applyCommand, h.removed.operation_eq command hcommand]
    rw [Finset.sdiff_eq_self_iff_disjoint, Finset.disjoint_right]
    intro assetId hmem
    exact hgone assetId (List.mem_toFinset.mp hmem)
  · have hkept : command.assetIds.toFinset ⊆ assigned config desired := by
      intro assetId hmem
      have hadded := List.mem_flatMap_of_mem hcommand (List.mem_toFinset.mp hmem)
      rw [h.added.assetIds_eq, mem_adds_iff] at hadded
      simpa [assigned] using hadded.1
    simp only [applyCommand, h.added.operation_eq command hcommand]
    exact Finset.union_eq_left.mpr hkept

/-- The commands planned against what was assigned lead to what is assigned next. -/
theorem carries_plan (before desired : Std.TreeSet String) :
    Carries applyCommand
      (planSubscriptionCommands (Std.TreeSet.ofList (assignedAssetIdsForConfig before config))
        desired config)
      (assigned config before) (assigned config desired) := by
  obtain ⟨removals, additions, h⟩ := exists_planParts
    (Std.TreeSet.ofList (assignedAssetIdsForConfig before config)) desired config
  refine ⟨settles_of_fixed fun command hcommand => applyCommand_plan_fixed h hcommand, ?_⟩
  intro s assetId hsame
  rw [mem_foldl_plan_iff h]
  simp only [assigned, List.mem_toFinset, Std.TreeSet.mem_ofList, List.contains_iff_mem]
    at hsame ⊢
  tauto

theorem foldl_initialCommands (desired : Std.TreeSet String) :
    (planSubscriptionCommands ∅ desired config).foldl applyCommand ∅ =
      assigned config desired := by
  obtain ⟨removals, additions, h⟩ := exists_planParts ∅ desired config
  ext assetId
  rw [mem_foldl_plan_iff h]
  simp

end Plan

section Invariant

variable {config : SubscriptionPlannerConfig} {requested later : List String}
  {system next : ClientSystem}

/-- The commands on their way to the connection. -/
def queued (system : ClientSystem) : List SubscriptionCommand :=
  system.control.getD [] ++ system.caller.owed

/-- What the state of a call says about the desired set and the queue. -/
structure CallerSynced (config : SubscriptionPlannerConfig) (requested : List String)
    (system : ClientSystem) : Prop where
  planned : ∀ commands desired, system.caller = .planned commands desired →
    commands = planSubscriptionCommands
        (Std.TreeSet.ofList (assignedAssetIdsForConfig system.desiredAssetIds config)) desired
        config ∧
      desired = Std.TreeSet.ofList requested
  requested : (∀ commands desired, system.caller ≠ .planned commands desired) →
    system.desiredAssetIds = Std.TreeSet.ofList requested
  sender : ∀ commands, system.caller = .sending commands true → system.control ≠ none

/-- A live connection, once it has written its commands and the queued ones, has
subscribed what is assigned. -/
def ConnectionSynced (config : SubscriptionPlannerConfig) (system : ClientSystem)
    (connection : Connection) : Prop :=
  system.control ≠ none ∧ (connection.taken ≠ none → connection.initialCommands = []) ∧
    (connection.commands ++ queued system).foldl applyCommand ∅ =
      assigned config system.desiredAssetIds

/-- The invariant: the queue leads to the desired set from whatever is sent before it. -/
structure Synced (config : SubscriptionPlannerConfig) (requested : List String)
    (system : ClientSystem) : Prop where
  caller : CallerSynced config requested system
  settles : Settles applyCommand (queued system) (assigned config system.desiredAssetIds)
  connection : ∀ connection, system.connection = some connection →
    ConnectionSynced config system connection

theorem synced_new (assetIds : List String) :
    Synced config assetIds (ClientSystem.new assetIds) where
  caller := ⟨by simp [ClientSystem.new], fun _ => rfl, by simp [ClientSystem.new]⟩
  settles := settles_nil
  connection := by simp [ClientSystem.new]

theorem CallerSynced.of_caller_eq (h : CallerSynced config requested system)
    (hdesired : next.desiredAssetIds = system.desiredAssetIds)
    (hcontrol : system.control ≠ none → next.control ≠ none)
    (hcaller : next.caller = system.caller) :
    CallerSynced config requested next := by
  obtain ⟨hplanned, hwritten, hsender⟩ := h
  rw [← hdesired, ← hcaller] at *
  exact ⟨hplanned, hwritten, fun commands hsending => hcontrol (hsender commands hsending)⟩

theorem Synced.of_queued_eq (h : Synced config requested system)
    (hdesired : next.desiredAssetIds = system.desiredAssetIds)
    (hcontrol : system.control ≠ none → next.control ≠ none)
    (hconnection : next.connection = system.connection) (hqueued : queued next = queued system)
    (hcaller : CallerSynced config later next) : Synced config later next := by
  refine ⟨hcaller, ?_, ?_⟩
  · rw [hqueued, hdesired]
    exact h.settles
  · intro connection hlive
    obtain ⟨hopen, htaken, hreplay⟩ := h.connection connection (hconnection ▸ hlive)
    refine ⟨hcontrol hopen, htaken, ?_⟩
    rw [hqueued, hdesired]
    exact hreplay

theorem Synced.of_connection (h : Synced config requested system) {connection : Option Connection}
    (hconnection : ∀ live, connection = some live → ConnectionSynced config system live) :
    Synced config requested { system with connection } where
  caller := h.caller.of_caller_eq rfl id rfl
  settles := h.settles
  connection := hconnection

theorem Synced.drop (h : Synced config requested system) : Synced config requested system.drop :=
  h.of_connection (by simp)

theorem Synced.reconfigureAssets (h : Synced config requested system)
    (hidle : system.caller = .idle) (assetIds : List String) :
    Synced config assetIds (system.reconfigureAssets config assetIds) := by
  simp only [ClientSystem.reconfigureAssets, hidle]
  refine h.of_queued_eq rfl id rfl ?_ ⟨?_, ?_, ?_⟩
  · simp only [queued, hidle, Caller.owed]
  · rintro commands desired ⟨⟩
    exact ⟨rfl, rfl⟩
  · intro hplanned
    exact absurd rfl (hplanned _ _)
  · rintro commands ⟨⟩

theorem Synced.writeDesired (h : Synced config requested system) :
    Synced config requested system.writeDesired := by
  unfold ClientSystem.writeDesired
  split
  · rename_i commands desired hplanned
    obtain ⟨hcommands, hdesired⟩ := h.caller.planned _ _ hplanned
    have hcarries := @carries_plan config system.desiredAssetIds desired
    rw [← hcommands] at hcarries
    have hbefore : queued system = system.control.getD [] := by
      simp [queued, hplanned, Caller.owed]
    have howed : (if commands = [] then Caller.idle else .written commands).owed = commands := by
      split
      · rename_i hnil
        rw [hnil]
        rfl
      · rfl
    have hqueued : queued { system with
        desiredAssetIds := desired
        caller := if commands = [] then .idle else .written commands } =
          queued system ++ commands := by
      rw [hbefore, queued, howed]
    refine ⟨⟨?_, fun _ => hdesired, ?_⟩, ?_, ?_⟩
    · intro _ _ hcaller
      split at hcaller <;> exact absurd hcaller (by simp)
    · intro _ hcaller
      split at hcaller <;> exact absurd hcaller (by simp)
    · rw [hqueued]
      exact h.settles.append pointwise_applyCommand hcarries
    · intro connection hconnection
      obtain ⟨hopen, htaken, hreplay⟩ := h.connection connection hconnection
      refine ⟨hopen, htaken, ?_⟩
      rw [hqueued, ← List.append_assoc, List.foldl_append, hreplay, hcarries.foldl_eq]
  all_goals exact h

theorem Synced.lookUpControl (h : Synced config requested system) :
    Synced config requested system.lookUpControl := by
  unfold ClientSystem.lookUpControl
  split
  · rename_i commands hwritten
    have hdesired : system.desiredAssetIds = Std.TreeSet.ofList requested :=
      h.caller.requested (by simp [hwritten])
    by_cases hcontrol : system.control = none
    · rw [if_pos hcontrol]
      refine ⟨⟨by simp, fun _ => hdesired, by simp⟩, ?_, ?_⟩
      · simp only [queued, hcontrol, Option.getD_none, Caller.owed]
        exact settles_nil
      · intro connection hconnection
        exact absurd hcontrol (h.connection connection hconnection).1
    · rw [if_neg hcontrol]
      refine h.of_queued_eq rfl id rfl ?_ ⟨by simp, fun _ => hdesired, fun _ _ => hcontrol⟩
      simp only [queued, hwritten, Caller.owed]
  all_goals exact h

theorem Synced.enqueue (h : Synced config requested system) :
    Synced config requested system.enqueue := by
  unfold ClientSystem.enqueue
  split
  · rename_i command commands connected hsending
    have hdesired : system.desiredAssetIds = Std.TreeSet.ofList requested :=
      h.caller.requested (by simp [hsending])
    cases connected with
    | true =>
        obtain ⟨queue, hqueue⟩ := Option.ne_none_iff_exists'.mp (h.caller.sender _ hsending)
        refine h.of_queued_eq rfl ?_ rfl ?_ ⟨by simp, fun _ => hdesired, ?_⟩
        · simp [hqueue]
        · simp [queued, hsending, hqueue, Caller.owed]
        · simp [hqueue]
    | false =>
        refine h.of_queued_eq rfl id rfl ?_ ⟨by simp, fun _ => hdesired, by simp⟩
        simp [queued, hsending, Caller.owed]
  · rename_i connected hsending
    have hdesired : system.desiredAssetIds = Std.TreeSet.ofList requested :=
      h.caller.requested (by simp [hsending])
    refine h.of_queued_eq rfl id rfl ?_ ⟨by simp, fun _ => hdesired, by simp⟩
    cases connected <;> simp [queued, hsending, Caller.owed]
  all_goals exact h

theorem Synced.run (h : Synced config requested system) : Synced config requested system.run := by
  unfold ClientSystem.run
  split
  · rename_i hcontrol
    refine h.of_queued_eq rfl (by simp) rfl ?_ (h.caller.of_caller_eq rfl (by simp) rfl)
    simp only [queued, hcontrol, Option.getD_none, Option.getD_some]
  · exact h

theorem Synced.stop (h : Synced config requested system) : Synced config requested system.stop := by
  unfold ClientSystem.stop
  split
  · rename_i hconnection
    refine ⟨⟨?_, ?_, ?_⟩, ?_, by simp [hconnection]⟩
    · intro commands desired hcaller
      refine h.caller.planned commands desired ?_
      cases hbefore : system.caller <;> simp_all
    · intro hnot
      refine h.caller.requested fun commands desired hcaller => ?_
      exact hnot commands desired (by simp only [hcaller])
    · intro commands hcaller
      cases hbefore : system.caller <;> simp_all
    · have hsuffix : queued { system with
          control := none
          caller :=
            match system.caller with
            | .sending commands _ => .sending commands false
            | .idle => .idle
            | .planned commands desired => .planned commands desired
            | .written commands => .written commands } <:+ queued system := by
        simp only [queued, Option.getD_none, List.nil_append]
        cases system.caller with
        | written commands => exact List.suffix_append _ _
        | idle | planned _ _ | sending _ _ => exact List.nil_suffix
      exact h.settles.suffix hsuffix
  · exact h

theorem Synced.connect (h : Synced config requested system) :
    Synced config requested (system.connect config) := by
  unfold ClientSystem.connect
  split
  · rename_i queue hcontrol hconnection
    refine h.of_connection ?_
    rintro connection ⟨⟩
    refine ⟨by simp [hcontrol], by simp, ?_⟩
    have hcommands : Connection.commands
        ⟨planSubscriptionCommands ∅ system.desiredAssetIds config, none, []⟩ =
          planSubscriptionCommands ∅ system.desiredAssetIds config := rfl
    rw [hcommands, List.foldl_append, foldl_initialCommands, h.settles.foldl_eq]
  · exact h

theorem Synced.sendInitial (h : Synced config requested system) (succeeds : Bool) :
    Synced config requested (system.sendInitial succeeds) := by
  unfold ClientSystem.sendInitial
  split
  · rename_i command commands taken sent hconnection
    obtain ⟨hopen, htaken, hreplay⟩ := h.connection _ hconnection
    refine h.of_connection ?_
    intro connection hlive
    cases succeeds with
    | false => exact absurd hlive (by simp)
    | true =>
        obtain rfl := Option.some.inj hlive
        have hnone : taken = none := by
          by_contra hsome
          exact absurd (htaken hsome) (by simp)
        refine ⟨hopen, fun hsome => absurd hnone hsome, ?_⟩
        rw [← hreplay, hnone]
        simp only [Connection.commands, Option.toList_none, List.nil_append, List.append_assoc,
          List.singleton_append]
  all_goals exact h

theorem Synced.sendTaken (h : Synced config requested system) (succeeds : Bool) :
    Synced config requested (system.sendTaken succeeds) := by
  unfold ClientSystem.sendTaken
  split
  · rename_i commands command sent hconnection
    obtain ⟨hopen, htaken, hreplay⟩ := h.connection _ hconnection
    refine h.of_connection ?_
    intro connection hlive
    cases succeeds with
    | false => exact absurd hlive (by simp)
    | true =>
        obtain rfl := Option.some.inj hlive
        refine ⟨hopen, fun hsome => absurd rfl hsome, ?_⟩
        rw [← hreplay]
        simp only [Connection.commands, Option.toList_none, Option.toList_some, List.nil_append,
          List.append_assoc, List.singleton_append]
  all_goals exact h

theorem Synced.receiveControl (h : Synced config requested system) :
    Synced config requested system.receiveControl := by
  unfold ClientSystem.receiveControl
  split
  · rename_i sent command commands hconnection hcontrol
    obtain ⟨hopen, -, hreplay⟩ := h.connection _ hconnection
    have hqueued : queued system = command :: (commands ++ system.caller.owed) := by
      simp [queued, hcontrol]
    refine ⟨h.caller.of_caller_eq rfl (by simp) rfl, ?_, ?_⟩
    · refine h.settles.suffix ?_
      rw [hqueued]
      exact List.suffix_cons _ _
    · rintro connection ⟨⟩
      refine ⟨by simp, fun _ => rfl, ?_⟩
      rw [hqueued] at hreplay
      rw [← hreplay]
      simp [Connection.commands, queued]
  · exact h

theorem Synced.act (h : Synced config requested system) {action : Action}
    (hturn : action.requested? ≠ none → system.caller = .idle) :
    Synced config (action.requested?.getD requested) (system.act config action) := by
  cases action with
  | reconfigureAssets assetIds => exact h.reconfigureAssets (hturn (by simp [Action.requested?])) _
  | writeDesired => exact h.writeDesired
  | lookUpControl => exact h.lookUpControl
  | enqueue => exact h.enqueue
  | run => exact h.run
  | stop => exact h.stop
  | connect => exact h.connect
  | sendInitial succeeds => exact h.sendInitial succeeds
  | receiveControl => exact h.receiveControl
  | sendTaken succeeds => exact h.sendTaken succeeds
  | drop => exact h.drop

theorem lastRequested_cons (action : Action) (actions : List Action) :
    lastRequested requested (action :: actions) =
      lastRequested (action.requested?.getD requested) actions := by
  simp only [lastRequested, List.filterMap_cons]
  cases action.requested? with
  | none => rfl
  | some assetIds => rw [List.getLast?_cons, Option.getD_some, Option.getD_some]

theorem Synced.foldl_act (h : Synced config requested system) {actions : List Action}
    (hturns : CallsInTurn config system actions) :
    Synced config (lastRequested requested actions)
      (actions.foldl (ClientSystem.act config) system) := by
  induction actions generalizing system requested with
  | nil => exact h
  | cons action actions ih =>
      rw [lastRequested_cons]
      exact ih (h.act hturns.1) hturns.2

end Invariant

/-- Nothing is left to write on the connection, and no call is in progress. -/
structure Drained (system : ClientSystem) (connection : Connection) : Prop where
  connected : system.connection = some connection
  idle : system.caller = .idle
  initial_sent : connection.initialCommands = []
  taken_sent : connection.taken = none
  queue_empty : system.control = some []

/-- Once a connection has written everything, it has subscribed to what the last call asked
for. -/
theorem subscriptions_converge (config : SubscriptionPlannerConfig) (assetIds : List String)
    (actions : List Action) (connection : Connection)
    (hturns : CallsInTurn config (.new assetIds) actions)
    (hdrained : Drained (actions.foldl (ClientSystem.act config) (.new assetIds)) connection) :
    connection.sent.foldl applyCommand ∅ =
      (assignedAssetIdsForConfig (Std.TreeSet.ofList (lastRequested assetIds actions))
        config).toFinset := by
  obtain ⟨hconnected, hidle, hinitial, htaken, hqueue⟩ := hdrained
  have hsynced := (@synced_new config assetIds).foldl_act hturns
  obtain ⟨-, -, hreplay⟩ := hsynced.connection _ hconnected
  rw [← hsynced.caller.requested (by simp [hidle])]
  simpa [assigned, Connection.commands, queued, hidle, hinitial, htaken, hqueue, Caller.owed]
    using hreplay

/-- The first command of a swap is lost with the connection, and the second one is
written after the connection made next has subscribed to everything. -/
def swapAcrossReconnect : List Action :=
  [.run, .connect, .sendInitial true, .reconfigureAssets ["asset2", "asset3"], .writeDesired,
    .lookUpControl, .enqueue, .receiveControl, .sendTaken false, .connect, .enqueue, .enqueue,
    .sendInitial true, .receiveControl, .sendTaken true]

def reconnected : Connection :=
  { initialCommands := []
    taken := none
    sent :=
      [{ operation := .subscribe, assetIds := ["asset2", "asset3"], shardIndex := 0
         pacingMs := 0 },
        { operation := .subscribe, assetIds := ["asset3"], shardIndex := 0, pacingMs := 0 }] }

theorem callsInTurn_swapAcrossReconnect :
    CallsInTurn .default (.new ["asset1", "asset2"]) swapAcrossReconnect := by
  refine ⟨?_, ?_, ?_, fun _ => rfl, ?_, ?_, ?_, ?_, ?_, ?_, ?_, ?_, ?_, ?_, ?_, trivial⟩
  all_goals exact fun hcall => absurd rfl hcall

theorem subscriptions_converge_swapped :
    lastRequested ["asset1", "asset2"] swapAcrossReconnect = ["asset2", "asset3"] ∧
      reconnected.sent.foldl applyCommand ∅ = {"asset2", "asset3"} := by
  refine ⟨rfl, (subscriptions_converge .default ["asset1", "asset2"] swapAcrossReconnect
    reconnected callsInTurn_swapAcrossReconnect ⟨?_, ?_, ?_, ?_, ?_⟩).trans ?_⟩
  · decide +kernel
  · rfl
  · rfl
  · rfl
  · decide +kernel
  · decide +kernel

end Rtt.SubscriptionProtocol
