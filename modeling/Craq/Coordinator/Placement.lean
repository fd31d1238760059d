import Craq.Coordinator.Types

/-! # Steady-state placement

Validation of node identities and the greedy construction of one chain per slot: each position
takes the eligible node with the fewest tails, heads and replicas, ties broken by node ID.
-/

namespace Craq.Coordinator

def isSpace (c : Char) : Bool :=
  (9 ≤ c.toNat && c.toNat ≤ 13) || c.toNat = 0x20 || c.toNat = 0x85 || c.toNat = 0xA0 ||
    c.toNat = 0x1680 || (0x2000 ≤ c.toNat && c.toNat ≤ 0x200A) || c.toNat = 0x2028 ||
    c.toNat = 0x2029 || c.toNat = 0x202F || c.toNat = 0x205F || c.toNat = 0x3000

def trimSpace (s : String) : String :=
  String.ofList ((s.toList.dropWhile isSpace).reverse.dropWhile isSpace).reverse

def validateConfig (cfg : Config) : Except Error Unit :=
  if cfg.slotCount ≤ 0 then
    .error (.sentinel .invalidConfig "slot count must be > 0")
  else if cfg.replicationFactor ≤ 0 then
    .error (.sentinel .invalidConfig "replication factor must be > 0")
  else .ok ()

/-! ## Node identities -/

-- Go visits the map in a random order; the first offending key decides the text only.
def checkFailureDomains (nodeID : String) : List (String × String) → Except Error Unit
  | [] => .ok ()
  | (key, value) :: rest =>
    if trimSpace key = "" then
      .error (.sentinel .invalidNode s!"node {quoted nodeID} has empty failure-domain key")
    else if trimSpace value = "" then
      .error (.sentinel .invalidNode
        s!"node {quoted nodeID} has empty failure-domain value for key {quoted key}")
    else checkFailureDomains nodeID rest

structure NormalizedNodes where
  nodes : List Node
  nodesByID : Std.ExtTreeMap String Node
  nodeOrder : List String

def normalizeNode (node : Node) : Node :=
  { id := node.id, rpcAddress := trimSpace node.rpcAddress, failureDomains := node.failureDomains }

def normalizeNodesFrom (acc : NormalizedNodes) : List Node → Except Error NormalizedNodes
  | [] => .ok acc
  | node :: rest =>
    if node.id = "" then
      .error (.sentinel .invalidNode "node ID must not be empty")
    else if node.id ∈ acc.nodesByID then
      .error (.sentinel .invalidNode s!"duplicate node ID {quoted node.id}")
    else do
      checkFailureDomains node.id node.failureDomains.toList
      normalizeNodesFrom
        { nodes := acc.nodes ++ [normalizeNode node]
          nodesByID := acc.nodesByID.insert node.id (normalizeNode node)
          nodeOrder := acc.nodeOrder ++ [node.id] } rest

def normalizeNodes (nodes : List Node) : Except Error NormalizedNodes :=
  if nodes.isEmpty then
    .error (.sentinel .invalidConfig "node list must not be empty")
  else normalizeNodesFrom ⟨[], ∅, []⟩ nodes

def nodeIdentityConflict (left right : Node) : Bool :=
  left.id ≠ right.id ||
  (left.rpcAddress ≠ "" && right.rpcAddress ≠ "" && left.rpcAddress ≠ right.rpcAddress) ||
  left.failureDomains.toList.any (fun (key, leftValue) =>
    match right.failureDomains[key]? with
    | some rightValue => leftValue ≠ rightValue
    | none => false) ||
  right.failureDomains.toList.any (fun (key, rightValue) =>
    match left.failureDomains[key]? with
    | some leftValue => leftValue ≠ rightValue
    | none => false)

/-! ## Candidate selection -/

def hasFailureDomainConflict (candidate existing : Node) : Bool :=
  candidate.failureDomains.toList.any fun (key, candidateValue) =>
    existing.failureDomains[key]? = some candidateValue

/-- The zero value of a node that the map does not hold. -/
def zeroNode : Node := ⟨"", "", ∅⟩

def isEligible (candidate : Node) (chain : Chain) (nodesByID : Std.ExtTreeMap String Node) : Bool :=
  chain.replicas.all fun replica =>
    replica.nodeID ≠ candidate.id &&
    !hasFailureDomainConflict candidate (nodesByID[replica.nodeID]?.getD zeroNode)

abbrev Counts := Std.ExtTreeMap String AssignmentCounts

def countsOf (counts : Counts) (nodeID : String) : AssignmentCounts :=
  counts[nodeID]?.getD {}

def compareNodes (a b : Node) (counts : Counts) : Ordering :=
  let aCounts := countsOf counts a.id
  let bCounts := countsOf counts b.id
  (compare aCounts.tailCount bCounts.tailCount).then <|
  (compare aCounts.headCount bCounts.headCount).then <|
  (compare aCounts.replicaCount bCounts.replicaCount).then <|
  compare a.id b.id

def selectReplicaCandidate (nodes : List Node) (chain : Chain)
    (nodesByID : Std.ExtTreeMap String Node) (counts : Counts) : Option Node :=
  nodes.foldl (fun best node =>
    if !isEligible node chain nodesByID then best
    else match best with
      | none => some node
      | some current => if compareNodes node current counts = .lt then some node else best) none

def appendReplicaWithState (chain : Chain) (nodeID : String) (state : ReplicaState)
    (counts : Counts) : Chain × Counts :=
  let appended := { chain with replicas := chain.replicas ++ [⟨nodeID, state⟩] }
  match chain.replicas.getLast? with
  | none =>
    let nodeCounts := countsOf counts nodeID
    (appended, counts.insert nodeID
      { headCount := nodeCounts.headCount + 1
        tailCount := nodeCounts.tailCount + 1
        replicaCount := nodeCounts.replicaCount + 1 })
  | some previousTail =>
    let previousCounts := countsOf counts previousTail.nodeID
    let counts := counts.insert previousTail.nodeID
      { previousCounts with tailCount := previousCounts.tailCount - 1 }
    let nodeCounts := countsOf counts nodeID
    (appended, counts.insert nodeID
      { nodeCounts with
        tailCount := nodeCounts.tailCount + 1
        replicaCount := nodeCounts.replicaCount + 1 })

/-! ## One chain per slot -/

/-- The positions still to fill, counted down; `position` is the one being filled. -/
def fillChain (nodes : List Node) (nodesByID : Std.ExtTreeMap String Node) (slot : Nat) :
    Nat → Nat → Chain → Counts → Except Error Chain
  | 0, _, chain, _ => .ok chain
  | missing + 1, position, chain, counts =>
    match selectReplicaCandidate nodes chain nodesByID counts with
    | none => .error (.placement slot position)
    | some candidate =>
      let (chain, counts) := appendReplicaWithState chain candidate.id .active counts
      fillChain nodes nodesByID slot missing (position + 1) chain counts

def rebalanceSteadyStateChain (slot : Nat) (chain : Chain) : Chain :=
  if chain.replicas.length ≤ 1 then chain
  else
    let nodeIDs := (replicaIDs chain.replicas).insertionSort (· ≤ ·)
    let offset := slot % nodeIDs.length
    let rotated := nodeIDs.drop offset ++ nodeIDs.take offset
    { chain with replicas := rotated.map fun nodeID => ⟨nodeID, .active⟩ }

def recordChainAssignmentCounts (counts : Counts) (chain : Chain) : Counts :=
  chain.replicas.zipIdx.foldl (fun counts (replica, i) =>
    let nodeCounts := countsOf counts replica.nodeID
    counts.insert replica.nodeID
      { headCount := if i = 0 then nodeCounts.headCount + 1 else nodeCounts.headCount
        tailCount :=
          if i + 1 = chain.replicas.length then nodeCounts.tailCount + 1 else nodeCounts.tailCount
        replicaCount := nodeCounts.replicaCount + 1 }) counts

def buildChainsFrom (replicationFactor : Nat) (nodes : List Node)
    (nodesByID : Std.ExtTreeMap String Node) :
    List Nat → Counts → List Chain → Except Error (List Chain)
  | [], _, chains => .ok chains
  | slot :: rest, counts, chains => do
    let tentative ← fillChain nodes nodesByID slot replicationFactor 0 ⟨slot, []⟩ counts
    let chain :=
      if nodes.length = replicationFactor then rebalanceSteadyStateChain slot tentative
      else tentative
    buildChainsFrom replicationFactor nodes nodesByID rest
      (recordChainAssignmentCounts counts chain) (chains ++ [chain])

def buildSteadyStateChains (slotCount replicationFactor : Int) (nodes : List Node)
    (nodesByID : Std.ExtTreeMap String Node) : Except Error (List Chain) :=
  buildChainsFrom replicationFactor.toNat nodes nodesByID (List.range slotCount.toNat) ∅ []

def emptyChains (slotCount : Int) : List Chain :=
  (List.range slotCount.toNat).map fun slot => ⟨slot, []⟩

def emptyPlacement (cfg : Config) : ClusterState :=
  { chains := emptyChains cfg.slotCount, nodesByID := ∅, nodeHealthByID := ∅
    readyNodeIDs := ∅, drainingNodeIDs := ∅, nodeOrder := []
    slotCount := cfg.slotCount, replicationFactor := cfg.replicationFactor }

def steadyPlacement (cfg : Config) (normalized : NormalizedNodes) (chains : List Chain) :
    ClusterState :=
  { chains
    nodesByID := normalized.nodesByID
    nodeHealthByID := normalized.nodes.foldl (fun health node => health.insert node.id .alive) ∅
    readyNodeIDs := normalized.nodes.foldl (fun ready node => ready.insert node.id true) ∅
    drainingNodeIDs := ∅
    nodeOrder := normalized.nodeOrder
    slotCount := cfg.slotCount
    replicationFactor := cfg.replicationFactor }

def buildInitialPlacement (cfg : Config) (nodes : List Node) : Except Error ClusterState := do
  (validateConfig cfg).mapError (.wrapped "validateConfig")
  if nodes.isEmpty then .ok (emptyPlacement cfg)
  else do
    let normalized ← (normalizeNodes nodes).mapError (.wrapped "normalizeNodes")
    if cfg.replicationFactor > normalized.nodes.length then
      .error (.sentinel .invalidConfig
        s!"replication factor {cfg.replicationFactor} exceeds node count {normalized.nodes.length}")
    else do
      let chains ← (buildSteadyStateChains cfg.slotCount cfg.replicationFactor normalized.nodes
        normalized.nodesByID).mapError (.wrapped "buildSteadyStateChains")
      .ok (steadyPlacement cfg normalized chains)

end Craq.Coordinator
