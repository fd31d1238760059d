import Craq.Coordserver.Store
import Craq.Runtime.Ledger

/-! # What an operation does to the shared snapshot

Every operation submits one runtime command, writes one heartbeat, acknowledges one delivery or
leaves runtime state and queued refreshes alone.  The facts about histories rest on this list.
-/

namespace Craq.Coordserver

open Lib
open Coordinator (ClusterState EventKind ReconfigurationPolicy)
open Craq.Runtime (Command EvaluatedCommand NodeLivenessState State cloneState evaluateCommand)
open Storage (NodeStatus)

/-! ## The commands that operations submit -/

/-- `op.Submits cfg observed cmd mutation`: built from the load `observed`, the operation submits
`cmd` and then applies `mutation`. -/
inductive Operation.Submits (cfg : ServerConfig) (observed : HASnapshot) :
    Operation → Command → Mutation → Prop where
  | bootstrap (cmd : Command) : Submits cfg observed (.bootstrap cmd) cmd .bootstrap
  | membership {cmd : Command} {expectedEvent : EventKind} {reconfigure : Runtime.ReconfigureCommand}
      (kind : cmd.kind = .reconfigure) (payload : cmd.reconfigure = some reconfigure)
      (events : reconfigure.events.map (·.kind) = [expectedEvent]) :
      Submits cfg observed (.membership cmd expectedEvent) cmd .membership
  | ready {nodeID : String} {slot : Nat} {commandID : String} {attempt : Nat}
      {reduction : ReplicaProgressReduction}
      (reduced : reduceReplicaReadyProgress (slotProgressViewFromState observed.state slot) nodeID
        commandID attempt = .ok reduction)
      (proceeds : reduction.duplicateCompleted = false) :
      Submits cfg observed (.replicaReady nodeID slot commandID attempt)
        (progressCommand observed reduction.progressCommandID .replicaBecameActive nodeID slot)
        (.ready slot (readyRefreshState (slotProgressViewFromState observed.state slot) reduction))
  | removed {nodeID : String} {slot : Nat} {commandID : String} {attempt : Nat}
      {reduction : ReplicaProgressReduction}
      (reduced : reduceReplicaRemovedProgress (slotProgressViewFromState observed.state slot) nodeID
        commandID attempt = .ok reduction)
      (proceeds : reduction.duplicateCompleted = false) :
      Submits cfg observed (.replicaRemoved nodeID slot commandID attempt)
        (progressCommand observed reduction.progressCommandID .replicaRemoved nodeID slot)
        (.removed slot)
  | register (reg : NodeRegistration) (policy : ReconfigurationPolicy) (attempt : Nat) :
      Submits cfg observed (.registerNode reg policy attempt)
        (registerCommand observed reg policy attempt) .membership
  | reconcile (policy : ReconfigurationPolicy) :
      Submits cfg observed (.reconcile policy) (reconcileCommand observed policy) .reconcile
  | liveness (nodeID : String) (state : NodeLivenessState) (evaluatedAtUnixNano : Int)
      (deadActionFired : Bool) :
      Submits cfg observed (.livenessTransition nodeID state evaluatedAtUnixNano deadActionFired)
        (livenessCommand cfg observed nodeID state evaluatedAtUnixNano deadActionFired) .liveness

/-! ## Effects -/

inductive Effect (cfg : ServerConfig) (observed base : HASnapshot) :
    Operation → HASnapshot → Prop where
  | submitted {op : Operation} {cmd : Command} {mutation : Mutation} {evaluated : EvaluatedCommand}
      {next : HASnapshot} (submits : op.Submits cfg observed cmd mutation)
      (evaluates : evaluateCommand base.state cmd = .ok evaluated)
      (state : next.state = evaluated.nextState)
      (refresh : next.activePeerRefresh = mutation.activePeerRefresh base evaluated) :
      Effect cfg observed base op next
  | heartbeat {status : NodeStatus} {observedAtUnixNano : Int} {next : HASnapshot}
      (alive : base.state.cluster.isDead status.nodeID = false)
      (state : next.state =
        heartbeatState cfg (cloneState base.state) status observedAtUnixNano)
      (refresh : next.activePeerRefresh = base.activePeerRefresh) :
      Effect cfg observed base (.heartbeat status observedAtUnixNano) next
  | delivered {entry : OutboxEntry} {evaluated : EvaluatedCommand} {next : HASnapshot}
      (evaluates : evaluateCommand base.state (outboxAckCommand base.state.version entry.id) =
        .ok evaluated)
      (state : next.state = evaluated.nextState)
      (refresh : next.activePeerRefresh = base.activePeerRefresh) :
      Effect cfg observed base (.acknowledge entry) next
  | refreshed {entry : OutboxEntry} {queued : ActivePeerRefreshState} {next : HASnapshot}
      (found : base.activePeerRefresh[entry.slot]? = some queued)
      (state : next.state = cloneState base.state)
      (refresh : next.activePeerRefresh = acknowledgeRefresh (cloneHASnapshot base) entry queued) :
      Effect cfg observed base (.acknowledge entry) next
  | quiet {op : Operation} {next : HASnapshot} (state : next.state = cloneState base.state)
      (refresh : next.activePeerRefresh = base.activePeerRefresh) : Effect cfg observed base op next

variable {cfg : ServerConfig} {epoch : Nat} {observed base next : HASnapshot}

theorem map_some_eq_ok {x : Except Error HASnapshot} (h : x.map some = .ok (some next)) :
    x = .ok next := by
  cases x with
  | error e => cases h
  | ok value =>
    cases h
    rfl

theorem applyHARuntimeCommand_ok {cmd : Command} {mutation : Mutation}
    (h : applyHARuntimeCommand cfg epoch base cmd mutation = .ok next) :
    ∃ evaluated, evaluateCommand base.state cmd = .ok evaluated ∧
      next.state = evaluated.nextState ∧
      next.activePeerRefresh = mutation.activePeerRefresh base evaluated := by
  rw [applyHARuntimeCommand] at h
  obtain ⟨evaluated, hEvaluated, h⟩ := bind_eq_ok.mp h
  cases h
  refine ⟨evaluated, ok_of_mapError hEvaluated, rfl, ?_⟩
  cases mutation <;> rfl

theorem Operation.Submits.effect {op : Operation} {cmd : Command} {mutation : Mutation}
    (hSubmits : op.Submits cfg observed cmd mutation)
    (h : applyHARuntimeCommand cfg epoch base cmd mutation = .ok next) :
    Effect cfg observed base op next := by
  obtain ⟨evaluated, hEvaluated, hState, hRefresh⟩ := applyHARuntimeCommand_ok h
  exact .submitted hSubmits hEvaluated hState hRefresh

theorem applyHAMembershipMutation_ok {cmd : Command} {expectedEvent : EventKind}
    (h : applyHAMembershipMutation cfg epoch base cmd expectedEvent = .ok next) :
    ∃ reconfigure, cmd.kind = .reconfigure ∧ cmd.reconfigure = some reconfigure ∧
      reconfigure.events.map (·.kind) = [expectedEvent] ∧
      applyHARuntimeCommand cfg epoch base cmd .membership = .ok next := by
  rw [applyHAMembershipMutation.eq_def] at h
  split at h
  · rename_i reconfigure hKind hPayload
    split at h
    · exact ⟨reconfigure, hKind, hPayload, ‹_›, h⟩
    · cases h
  · cases h

theorem ackHAOutboxEntry_effect {entry : OutboxEntry}
    (h : ackHAOutboxEntry epoch base entry = .ok next) :
    Effect cfg observed base (.acknowledge entry) next := by
  simp only [ackHAOutboxEntry] at h
  split at h
  · cases h
    exact .quiet rfl rfl
  split at h
  · obtain ⟨evaluated, hEvaluated, h⟩ := bind_eq_ok.mp h
    cases h
    exact .delivered (ok_of_mapError hEvaluated) rfl rfl
  split at h
  · split at h
    · cases h
      exact .quiet rfl rfl
    · rename_i queued hQueued
      cases h
      exact .refreshed hQueued rfl rfl
  · cases h
    exact .quiet rfl rfl

theorem Operation.run_effect {op : Operation} (h : op.run cfg epoch observed base = .ok (some next)) :
    Effect cfg observed base op next := by
  cases op with
  | bootstrap cmd => exact (Submits.bootstrap cmd).effect (map_some_eq_ok h)
  | membership cmd expectedEvent =>
    obtain ⟨reconfigure, hKind, hPayload, hEvents, hRun⟩ :=
      applyHAMembershipMutation_ok (map_some_eq_ok h)
    exact (Submits.membership hKind hPayload hEvents).effect hRun
  | replicaReady nodeID slot commandID attempt =>
    obtain ⟨reduction, hReduced, h⟩ := bind_eq_ok.mp h
    split at h
    · cases h
    · rename_i hProceeds
      exact (Submits.ready hReduced (by simpa using hProceeds)).effect (map_some_eq_ok h)
  | replicaRemoved nodeID slot commandID attempt =>
    obtain ⟨reduction, hReduced, h⟩ := bind_eq_ok.mp h
    split at h
    · cases h
    · rename_i hProceeds
      exact (Submits.removed hReduced (by simpa using hProceeds)).effect (map_some_eq_ok h)
  | registerNode reg policy attempt =>
    simp only [run, applyHARegisterNode] at h
    split at h
    · cases h
    · obtain ⟨-, -, -, -, hRun⟩ := applyHAMembershipMutation_ok (map_some_eq_ok h)
      exact (Submits.register reg policy attempt).effect hRun
  | reconcile policy => exact (Submits.reconcile policy).effect (map_some_eq_ok h)
  | livenessTransition nodeID state evaluatedAtUnixNano deadActionFired =>
    exact (Submits.liveness nodeID state evaluatedAtUnixNano deadActionFired).effect
      (map_some_eq_ok h)
  | heartbeat status observedAtUnixNano =>
    have hBeat := map_some_eq_ok h
    rw [applyHAHeartbeat] at hBeat
    obtain ⟨hKnown, hBeat⟩ := ite_error_eq_ok.mp hBeat
    cases hBeat
    push Not at hKnown
    exact .heartbeat (by simpa using hKnown.2) rfl rfl
  | recoveryReport report knownClient =>
    simp only [run, applyHARecoveryReport] at h
    obtain ⟨-, h⟩ := ite_error_eq_ok.mp h
    split at h
    · cases h
    · obtain ⟨added, -, h⟩ := bind_eq_ok.mp h
      cases h
      exact .quiet rfl rfl
  | acknowledge entry => exact ackHAOutboxEntry_effect (map_some_eq_ok h)
  | stepHA =>
    simp only [run, rewriteSnapshotEpoch] at h
    split at h
    · cases h
    · split at h
      · cases h
        exact .quiet rfl rfl
      · cases h

end Craq.Coordserver
