import Craq.Coordinator.Reconcile
import Craq.Storage.Assignment

/-! # The coordinator runtime's data

The runtime keeps one versioned state and, for every command it has applied, a record of the
state that command produced.  `View` is the state without that table of records, so a record is a
view together with its command and plan.  Times are integers in nanoseconds.
-/

namespace Craq.Runtime

open Coordinator (ClusterState Config Event Node ReconfigurationPlan ReconfigurationPolicy quoted)
open Storage (NodeStatus ReplicaAssignment)

inductive Sentinel where
  | invalidCommand
  | versionMismatch
  | commandConflict
  | alreadyInitialized
  | notInitialized
  | recovery
deriving DecidableEq, Repr

def Sentinel.text : Sentinel → String
  | .invalidCommand => "invalid coordinator runtime command"
  | .versionMismatch => "coordinator runtime version mismatch"
  | .commandConflict => "coordinator runtime command conflict"
  | .alreadyInitialized => "coordinator runtime already initialized"
  | .notInitialized => "coordinator runtime not initialized"
  | .recovery => "coordinator runtime recovery failed"

inductive Error where
  | bare (kind : Sentinel)
  | sentinel (kind : Sentinel) (detail : String)
  | planner (inner : Coordinator.Error)
  | wrapped (context : String) (inner : Error)
deriving DecidableEq, Repr

def Error.text : Error → String
  | .bare kind => kind.text
  | .sentinel kind detail => kind.text ++ ": " ++ detail
  | .planner inner => inner.text
  | .wrapped context inner => "err in " ++ context ++ ": " ++ inner.text

/-! ## Work the runtime hands out -/

inductive PendingKind where
  | ready
  | removed
deriving DecidableEq, Repr

structure PendingWork where
  slot : Nat
  nodeID : String
  kind : PendingKind
  slotVersion : Nat
  commandID : String := ""
deriving DecidableEq, Repr

inductive OutboxCommandKind where
  | addReplicaAsTail
  | markReplicaLeaving
  | updateChainPeers
deriving DecidableEq, Repr

def OutboxCommandKind.text : OutboxCommandKind → String
  | .addReplicaAsTail => "add_replica_as_tail"
  | .markReplicaLeaving => "mark_replica_leaving"
  | .updateChainPeers => "update_chain_peers"

structure OutboxEntry where
  id : String
  slot : Nat
  nodeID : String
  kind : OutboxCommandKind
  commandID : String
  assignment : ReplicaAssignment := {}
deriving DecidableEq, Repr

inductive CompletedProgressKind where
  | ready
  | removed
deriving DecidableEq, Repr

structure CompletedProgressRecord where
  nodeID : String
  kind : CompletedProgressKind
  slotVersion : Nat
deriving DecidableEq, Repr

inductive NodeLivenessState where
  | unset
  | healthy
  | suspect
  | dead
deriving DecidableEq, Repr

def NodeLivenessState.text : NodeLivenessState → String
  | .unset => ""
  | .healthy => "healthy"
  | .suspect => "suspect"
  | .dead => "dead"

structure NodeLivenessRecord where
  lastHeartbeatUnixNano : Int := 0
  updatedAtUnixNano : Int := 0
  state : NodeLivenessState := .unset
  lastStatus : NodeStatus := {}
  deadActionFired : Bool := false
  suspectTransitionsUnixNano : List Int := []
deriving DecidableEq, Repr

/-! ## Commands -/

inductive CommandKind where
  | bootstrap
  | reconfigure
  | progress
  | nodeReady
  | heartbeat
  | liveness
  | acknowledgeOutbox
  | other (name : String)
deriving DecidableEq, Repr

structure BootstrapCommand where
  config : Config
  nodes : List Node
  policy : ReconfigurationPolicy
deriving DecidableEq

structure ReconfigureCommand where
  events : List Event
  policy : ReconfigurationPolicy
deriving DecidableEq

structure ProgressCommand where
  event : Event
deriving DecidableEq

/-- The payload of a node-ready and of a heartbeat command: both observe a node's status. -/
structure StatusCommand where
  status : NodeStatus
  observedAtUnixNano : Int
  flapWindowNanos : Int
deriving DecidableEq

structure LivenessCommand where
  nodeID : String
  state : NodeLivenessState
  evaluatedAtUnixNano : Int
  deadActionFired : Bool
  flapWindowNanos : Int
deriving DecidableEq

structure AcknowledgeOutboxCommand where
  entryID : String := ""
  entryIDs : List String := []
deriving DecidableEq

structure Command where
  id : String
  expectedVersion : Nat
  kind : CommandKind
  bootstrap : Option BootstrapCommand := none
  reconfigure : Option ReconfigureCommand := none
  progress : Option ProgressCommand := none
  nodeReady : Option StatusCommand := none
  heartbeat : Option StatusCommand := none
  liveness : Option LivenessCommand := none
  acknowledgeOutbox : Option AcknowledgeOutboxCommand := none
deriving DecidableEq

/-! ## State -/

structure View where
  version : Nat
  lastLogIndex : Nat
  cluster : ClusterState
  slotVersions : Std.ExtTreeMap Nat Nat
  completedProgressBySlot : Std.ExtTreeMap Nat (List CompletedProgressRecord)
  nodeLivenessByID : Std.ExtTreeMap String NodeLivenessRecord
  pendingBySlot : Std.ExtTreeMap Nat PendingWork
  outbox : List OutboxEntry
  lastPolicy : ReconfigurationPolicy
deriving DecidableEq

structure AppliedCommand extends View where
  command : Command
  plan : Option ReconfigurationPlan
deriving DecidableEq

structure State extends View where
  appliedCommands : Std.ExtTreeMap String AppliedCommand
deriving DecidableEq

def zeroCluster : ClusterState :=
  { chains := [], nodesByID := ∅, nodeHealthByID := ∅, readyNodeIDs := ∅, drainingNodeIDs := ∅,
    nodeOrder := [], slotCount := 0, replicationFactor := 0 }

def zeroState : State :=
  { version := 0, lastLogIndex := 0, cluster := zeroCluster, slotVersions := ∅,
    completedProgressBySlot := ∅, nodeLivenessByID := ∅, pendingBySlot := ∅, outbox := [],
    lastPolicy := ⟨0⟩, appliedCommands := ∅ }

def View.isInitialized (view : View) : Bool := 0 < view.cluster.slotCount

/-! ## Clones

A clone copies a value, except that `cloneClusterState` drops the ready marks that are false. -/

def cloneClusterState (cluster : ClusterState) : ClusterState :=
  { cluster with readyNodeIDs := cluster.readyNodeIDs.filter fun _ ready => ready }

def clonePlan (plan : ReconfigurationPlan) : ReconfigurationPlan :=
  { plan with updatedState := cloneClusterState plan.updatedState }

def View.clone (view : View) : View := { view with cluster := cloneClusterState view.cluster }

def cloneAppliedCommand (applied : AppliedCommand) : AppliedCommand :=
  { toView := applied.toView.clone, command := applied.command,
    plan := applied.plan.map clonePlan }

def cloneState (state : State) : State :=
  { toView := state.toView.clone,
    appliedCommands := state.appliedCommands.map fun _ applied => cloneAppliedCommand applied }

end Craq.Runtime
