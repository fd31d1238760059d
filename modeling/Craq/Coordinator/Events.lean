import Craq.Coordinator.Placement

/-! # Validating a cluster state and applying one event

Membership events (register, add, drain, dead) and progress events (a joining replica became
active, a replica was removed).  An event touches either the node tables or one chain.
-/

namespace Craq.Coordinator

/-! ## The working copy of the planner -/

/-- The pass of `cloneAndValidateState` over the node order: it fills in missing health entries. -/
def checkNodeOrder (nodesByID : Std.ExtTreeMap String Node) :
    List String → List String → Std.ExtTreeMap String NodeHealth →
      Except Error (Std.ExtTreeMap String NodeHealth)
  | [], _, health => .ok health
  | id :: rest, seen, health =>
    if id ∉ nodesByID then
      .error (.sentinel .invalidConfig s!"node order references unknown node {quoted id}")
    else if id ∈ seen then
      .error (.sentinel .invalidConfig s!"duplicate node order entry {quoted id}")
    else checkNodeOrder nodesByID rest (id :: seen) (health.insertIfNew id .alive)

def checkChainNodes (nodesByID : Std.ExtTreeMap String Node) : List String → Except Error Unit
  | [] => .ok ()
  | nodeID :: rest =>
    if nodeID ∉ nodesByID then
      .error (.sentinel .invalidConfig s!"chain references unknown node {quoted nodeID}")
    else checkChainNodes nodesByID rest

def renumberChains (chains : List Chain) : List Chain :=
  chains.mapIdx fun slot chain => ⟨slot, chain.replicas⟩

def cloneAndValidateState (state : ClusterState) : Except Error ClusterState := do
  validateConfig ⟨state.slotCount, state.replicationFactor⟩
  if (state.chains.length : Int) ≠ state.slotCount then
    .error (.sentinel .invalidConfig
      s!"chain count {state.chains.length} does not match slot count {state.slotCount}")
  else do
    let nodeOrder := if state.nodeOrder.isEmpty then state.nodesByID.keys else state.nodeOrder
    let ordered ← checkNodeOrder state.nodesByID nodeOrder [] state.nodeHealthByID
    let health := state.nodesByID.keys.foldl (fun health id => health.insertIfNew id .alive) ordered
    checkChainNodes state.nodesByID (state.chains.flatMap fun chain => replicaIDs chain.replicas)
    .ok { state with
          chains := renumberChains state.chains
          nodeHealthByID := health
          readyNodeIDs := state.readyNodeIDs.filter fun _ ready => ready
          drainingNodeIDs := state.drainingNodeIDs.filter fun _ draining => draining
          nodeOrder }

/-! ## Membership events -/

def addNode (state : ClusterState) (node : Node) (ready : Bool) : Except Error ClusterState := do
  let normalized ← normalizeNodes [node]
  let normalizedNode := normalized.nodes.headD zeroNode
  let nodeID := normalized.nodeOrder.headD ""
  match state.nodesByID[nodeID]? with
  | some existing =>
    if state.isDead nodeID then
      .error (.sentinel .invalidEvent s!"node {quoted nodeID} is permanently tombstoned")
    else if nodeIdentityConflict existing normalizedNode then
      .error (.sentinel .invalidEvent
        s!"node {quoted nodeID} already exists with conflicting identity")
    else if ready then .ok { state with readyNodeIDs := state.readyNodeIDs.insert nodeID true }
    else .ok state
  | none =>
    .ok { state with
          nodesByID := state.nodesByID.insert nodeID (normalized.nodesByID[nodeID]?.getD zeroNode)
          nodeHealthByID := state.nodeHealthByID.insert nodeID .alive
          readyNodeIDs :=
            if ready then state.readyNodeIDs.insert nodeID true else state.readyNodeIDs.erase nodeID
          nodeOrder := state.nodeOrder ++ [nodeID]
          drainingNodeIDs := state.drainingNodeIDs.erase normalizedNode.id }

def beginDrainNode (state : ClusterState) (nodeID : String) : Except Error ClusterState :=
  if nodeID = "" then
    .error (.sentinel .invalidEvent "node ID must not be empty")
  else if nodeID ∉ state.nodesByID then
    .error (.sentinel .invalidEvent s!"unknown node {quoted nodeID}")
  else if state.isDead nodeID then
    .error (.sentinel .invalidEvent s!"cannot drain dead node {quoted nodeID}")
  else .ok { state with drainingNodeIDs := state.drainingNodeIDs.insert nodeID true }

def markNodeDead (state : ClusterState) (nodeID : String) : Except Error ClusterState :=
  if nodeID = "" then
    .error (.sentinel .invalidEvent "node ID must not be empty")
  else if nodeID ∉ state.nodesByID then
    .error (.sentinel .invalidEvent s!"unknown node {quoted nodeID}")
  else .ok { state with
             nodeHealthByID := state.nodeHealthByID.insert nodeID .dead
             readyNodeIDs := state.readyNodeIDs.erase nodeID
             drainingNodeIDs := state.drainingNodeIDs.erase nodeID }

/-! ## Progress events -/

def findReplicaIndex (chain : Chain) (nodeID : String) : Option Nat :=
  chain.replicas.findIdx? (·.nodeID = nodeID)

def countReplicasForNode (state : ClusterState) (nodeID : String) : Nat :=
  (state.chains.map fun chain => chain.replicas.countP (·.nodeID = nodeID)).sum

def activateReplica (state : ClusterState) (slot : Nat) (index : Nat) : ClusterState :=
  state.setReplicas slot
    ((state.chainAt slot).replicas.modify index fun replica => { replica with state := .active })

/-- What `replica_removed` does to the replica at `index`.  The drain mark is cleared only for a
node that carries none, so the last branch changes nothing. -/
def removeReplica (state : ClusterState) (slot : Nat) (index : Nat) (nodeID : String) :
    ClusterState :=
  let removed := state.setReplicas slot ((state.chainAt slot).replicas.eraseIdx index)
  if !state.isDraining nodeID && !state.isDead nodeID && countReplicasForNode removed nodeID = 0 then
    { removed with drainingNodeIDs := removed.drainingNodeIDs.erase nodeID }
  else removed

def applyProgressEvent (state : ClusterState) (event : Event) : Except Error ClusterState :=
  if event.slot < 0 ∨ state.slotCount ≤ event.slot then
    .error (.sentinel .invalidEvent s!"invalid slot {event.slot}")
  else if event.nodeID = "" then
    .error (.sentinel .invalidEvent "node ID must not be empty")
  else
    let slot := event.slot.toNat
    let chain := state.chainAt slot
    match findReplicaIndex chain event.nodeID with
    | none =>
      .error (.sentinel .illegalStateTransition
        s!"slot {event.slot} does not contain node {quoted event.nodeID}")
    | some index =>
      let replicaState := (chain.replicas[index]?.map (·.state)).getD .active
      match event.kind with
      | .replicaBecameActive =>
        if replicaState ≠ .joining then
          .error (.sentinel .illegalStateTransition
            s!"node {quoted event.nodeID} in slot {event.slot} is not joining")
        else .ok (activateReplica state slot index)
      | .replicaRemoved =>
        if replicaState ≠ .leaving ∧ ¬state.isDead event.nodeID then
          .error (.sentinel .illegalStateTransition
            s!"node {quoted event.nodeID} in slot {event.slot} is not removable")
        else .ok (removeReplica state slot index event.nodeID)
      | kind =>
        .error (.sentinel .invalidEvent s!"unsupported progress event {quoted kind.text}")

def applyEvent (state : ClusterState) (event : Event) : Except Error ClusterState :=
  match event.kind with
  | .registerNode => addNode state event.node false
  | .addNode => addNode state event.node true
  | .beginDrainNode => beginDrainNode state event.nodeID
  | .markNodeDead => markNodeDead state event.nodeID
  | .replicaBecameActive | .replicaRemoved => applyProgressEvent state event
  | .other name => .error (.sentinel .invalidEvent s!"unsupported event {quoted name}")

def applyProgress (state : ClusterState) (event : Event) : Except Error ClusterState := do
  let working ← (cloneAndValidateState state).mapError (.wrapped "cloneAndValidateState")
  if event.kind ≠ .replicaBecameActive ∧ event.kind ≠ .replicaRemoved then
    .error (.sentinel .invalidEvent s!"unsupported progress event {quoted event.kind.text}")
  else (applyProgressEvent working event).mapError (.wrapped "applyProgressEvent")

end Craq.Coordinator
