import Mathlib

/-! # The planner's data

Cluster state, membership and progress events, and the plan the reconfiguration planner returns.
Go maps are extensional tree maps and a missing key reads as the zero value where the planner
reads one; slots are naturals, while the integers that the planner validates stay integers.
-/

namespace Craq.Coordinator

/-- The errors a caller may test for with `errors.Is`. -/
inductive Sentinel where
  | invalidConfig
  | invalidNode
  | invalidEvent
  | illegalStateTransition
  | placementImpossible
  | brokenChain
deriving DecidableEq, Repr

def Sentinel.text : Sentinel → String
  | .invalidConfig => "invalid coordinator config"
  | .invalidNode => "invalid coordinator node"
  | .invalidEvent => "invalid coordinator event"
  | .illegalStateTransition => "illegal coordinator state transition"
  | .placementImpossible => "placement impossible"
  | .brokenChain => "broken chain"

inductive Error where
  | sentinel (kind : Sentinel) (detail : String)
  | placement (slot replicaPosition : Nat)
  | wrapped (context : String) (inner : Error)
deriving DecidableEq, Repr

def Error.text : Error → String
  | .sentinel kind detail => kind.text ++ ": " ++ detail
  | .placement slot position =>
    s!"coordinator: no eligible node for slot {slot} replica {position}"
  | .wrapped context inner => "err in " ++ context ++ ": " ++ inner.text

/-- The `%q` verb on a string without characters that need escaping. -/
def quoted (s : String) : String := "\"" ++ s ++ "\""

structure Config where
  slotCount : Int
  replicationFactor : Int
deriving DecidableEq, Repr

structure Node where
  id : String
  rpcAddress : String
  failureDomains : Std.ExtTreeMap String String
deriving DecidableEq

inductive ReplicaState where
  | joining
  | active
  | leaving
deriving DecidableEq, Repr

structure Replica where
  nodeID : String
  state : ReplicaState
deriving DecidableEq, Repr

structure Chain where
  slot : Nat
  replicas : List Replica
deriving DecidableEq, Repr

inductive NodeHealth where
  | alive
  | dead
deriving DecidableEq, Repr

structure ClusterState where
  chains : List Chain
  nodesByID : Std.ExtTreeMap String Node
  nodeHealthByID : Std.ExtTreeMap String NodeHealth
  readyNodeIDs : Std.ExtTreeMap String Bool
  drainingNodeIDs : Std.ExtTreeMap String Bool
  nodeOrder : List String
  slotCount : Int
  replicationFactor : Int
deriving DecidableEq

inductive EventKind where
  | registerNode
  | addNode
  | beginDrainNode
  | markNodeDead
  | replicaBecameActive
  | replicaRemoved
  | other (name : String)
deriving DecidableEq, Repr

def EventKind.text : EventKind → String
  | .registerNode => "register_node"
  | .addNode => "add_node"
  | .beginDrainNode => "begin_drain_node"
  | .markNodeDead => "mark_node_dead"
  | .replicaBecameActive => "replica_became_active"
  | .replicaRemoved => "replica_removed"
  | .other name => name

structure Event where
  kind : EventKind
  node : Node
  nodeID : String
  slot : Int
deriving DecidableEq

structure ReconfigurationPolicy where
  maxChangedChains : Int
deriving DecidableEq, Repr

inductive StepKind where
  | appendTail
  | markLeaving
deriving DecidableEq, Repr

structure ReconfigurationStep where
  kind : StepKind
  slot : Nat
  nodeID : String
  replacedNodeID : String
deriving DecidableEq, Repr

structure SlotPlan where
  slot : Nat
  before : Chain
  after : Chain
  steps : List ReconfigurationStep
deriving DecidableEq, Repr

structure ReconfigurationPlan where
  updatedState : ClusterState
  unassignedNodeIDs : List String
  changedSlots : List SlotPlan
deriving DecidableEq

structure AssignmentCounts where
  headCount : Int := 0
  tailCount : Int := 0
  replicaCount : Int := 0
deriving DecidableEq, Repr

/-! ## Reading the state -/

def ClusterState.isAlive (state : ClusterState) (nodeID : String) : Bool :=
  state.nodeHealthByID[nodeID]? = some .alive

def ClusterState.isDead (state : ClusterState) (nodeID : String) : Bool :=
  state.nodeHealthByID[nodeID]? = some .dead

def ClusterState.isReady (state : ClusterState) (nodeID : String) : Bool :=
  state.readyNodeIDs[nodeID]?.getD false

def ClusterState.isDraining (state : ClusterState) (nodeID : String) : Bool :=
  state.drainingNodeIDs[nodeID]?.getD false

def ClusterState.chainAt (state : ClusterState) (slot : Nat) : Chain :=
  state.chains[slot]?.getD ⟨slot, []⟩

def ClusterState.setReplicas (state : ClusterState) (slot : Nat) (replicas : List Replica) :
    ClusterState :=
  { state with chains := state.chains.modify slot fun chain => { chain with replicas } }

def replicaIDs (replicas : List Replica) : List String := replicas.map (·.nodeID)

def activeReplicaIDs (chain : Chain) : List String :=
  replicaIDs (chain.replicas.filter (·.state = .active))

end Craq.Coordinator
