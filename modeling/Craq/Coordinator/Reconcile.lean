import Craq.Coordinator.Events

/-! # Reconciliation

The passes that drive every chain towards the desired placement, in the order the planner runs
them: dead repair, drain finalization, join finalization, missing replicas, drain replacements and
join rebalancing.  A pass looks at one slot and rewrites at most the replicas of its chain.
-/

namespace Craq.Coordinator

/-! ## Queries on a chain -/

def chainContainsDeadReplica (state : ClusterState) (chain : Chain) : Bool :=
  chain.replicas.any fun replica => state.isDead replica.nodeID

def activeReplicaIDsExcludingDraining (state : ClusterState) (chain : Chain) : List String :=
  replicaIDs (chain.replicas.filter fun replica =>
    replica.state = .active && !state.isDraining replica.nodeID)

def activeReplicaIDsWithDrain (state : ClusterState) (chain : Chain) : List String :=
  replicaIDs (chain.replicas.filter fun replica =>
    replica.state = .active && state.isDraining replica.nodeID)

def hasJoiningReplica (chain : Chain) : Bool := chain.replicas.any (·.state = .joining)

def hasLeavingReplica (chain : Chain) : Bool := chain.replicas.any (·.state = .leaving)

def hasPendingReplicaState (chain : Chain) : Bool :=
  hasJoiningReplica chain || hasLeavingReplica chain

def firstActiveDrainingReplicaID (state : ClusterState) (chain : Chain) : String :=
  (activeReplicaIDsWithDrain state chain).headD ""

def lastActiveReplicaID (chain : Chain) : Option String := (activeReplicaIDs chain).getLast?

/-- The loop of `extraNode`: the empty string stands for "none found yet". -/
def extraNodeFrom (target : List String) : List String → String → Option String
  | [], extra => if extra = "" then none else some extra
  | nodeID :: rest, extra =>
    if nodeID ∈ target then extraNodeFrom target rest extra
    else if extra ≠ "" then none
    else extraNodeFrom target rest nodeID

def extraNode (current target : List String) : Option String := extraNodeFrom target current ""

-- Both loops of the source are the loop of `extraNode`, once in each direction.
def oneMemberReplacement (current target : List String) : Option (String × String) := do
  let added ← extraNode target current
  let removed ← extraNode current target
  some (added, removed)

def disjointChain (left right : List String) : Bool := left.all (· ∉ right)

def sameRelativeOrderWithout (current : List String) (removed : String) (target : List String)
    (added : String) : Bool :=
  current.filter (· ≠ removed) = target.filter (· ≠ added)

def sameRelativeOrderForJoinFinalization (current : List String) (removed newNode : String)
    (target : List String) : Bool :=
  current.filter (fun nodeID => nodeID ≠ removed && nodeID ≠ newNode) =
    target.filter (· ≠ newNode)

/-! ## Candidates -/

def orderedNodes (state : ClusterState) (included : String → Bool) : List Node :=
  state.nodeOrder.filterMap fun nodeID =>
    if included nodeID then state.nodesByID[nodeID]? else none

def ClusterState.placeable (state : ClusterState) (nodeID : String) : Bool :=
  state.isAlive nodeID && state.isReady nodeID && !state.isDraining nodeID

def deriveAssignmentCounts (state : ClusterState) : Counts :=
  state.chains.foldl (fun counts chain =>
    let alive := chain.replicas.zipIdx.filter fun (replica, _) => !state.isDead replica.nodeID
    let lastAliveIndex := alive.getLast?.map (·.2)
    alive.foldl (fun counts (replica, i) =>
      let nodeCounts := countsOf counts replica.nodeID
      counts.insert replica.nodeID
        { headCount := if i = 0 then nodeCounts.headCount + 1 else nodeCounts.headCount
          tailCount :=
            if lastAliveIndex = some i then nodeCounts.tailCount + 1 else nodeCounts.tailCount
          replicaCount := nodeCounts.replicaCount + 1 }) counts) ∅

def selectTailRepairCandidate (state : ClusterState) (chain : Chain) : Option Node :=
  selectReplicaCandidate (orderedNodes state state.placeable) chain state.nodesByID
    (deriveAssignmentCounts state)

/-- `none` when fewer placeable nodes than replicas are left. -/
def buildDesiredPlacementFromState (state : ClusterState) : Except Error (Option (List Chain)) :=
  let eligibleNodes := orderedNodes state state.placeable
  if (eligibleNodes.length : Int) < state.replicationFactor then .ok none
  else do
    let nodesByID := eligibleNodes.foldl (fun nodesByID node => nodesByID.insert node.id node) ∅
    let chains ← buildSteadyStateChains state.slotCount state.replicationFactor eligibleNodes
      nodesByID
    .ok (some chains)

/-! ## The passes -/

/-- What a pass over one slot yields: the new state and, where the chain changed, the slot's plan. -/
abbrev PassResult := ClusterState × Option SlotPlan

def changeChain (state : ClusterState) (slot : Nat) (replicas : List Replica)
    (steps : List ReconfigurationStep) : PassResult :=
  let updated := state.setReplicas slot replicas
  (updated, some { slot, before := state.chainAt slot, after := updated.chainAt slot, steps })

/-- The candidates the repair loop appends while `missing` replicas are wanted. -/
def appendRepairs (slot : Nat) :
    Nat → ClusterState → List ReconfigurationStep → ClusterState × List ReconfigurationStep
  | 0, state, steps => (state, steps)
  | missing + 1, state, steps =>
    match selectTailRepairCandidate state (state.chainAt slot) with
    | none => (state, steps)
    | some candidate =>
      appendRepairs slot missing
        (state.setReplicas slot ((state.chainAt slot).replicas ++ [⟨candidate.id, .joining⟩]))
        (steps ++ [⟨.appendTail, slot, candidate.id, ""⟩])

def repairDeadReplicas (state : ClusterState) (slot : Nat) : Except Error PassResult :=
  let before := state.chainAt slot
  if !chainContainsDeadReplica state before then .ok (state, none)
  else
    let survivors := before.replicas.filter fun replica => !state.isDead replica.nodeID
    if survivors.countP (·.state = .active) = 0 then
      .error (.sentinel .brokenChain s!"slot {slot} has no active anchor after dead-node removal")
    else
      let (repaired, steps) :=
        appendRepairs slot (state.replicationFactor.toNat - survivors.length)
          (state.setReplicas slot survivors) []
      let after := repaired.chainAt slot
      .ok (repaired, if before = after then none else some { slot, before, after, steps })

def finalizeDrainReplacement (state : ClusterState) (slot : Nat) : PassResult :=
  let chain := state.chainAt slot
  if hasJoiningReplica chain then (state, none)
  else
    let drainingActiveIDs := activeReplicaIDsWithDrain state chain
    if drainingActiveIDs.isEmpty then (state, none)
    else
      let targetActives := activeReplicaIDsExcludingDraining state chain
      if (targetActives.length : Int) ≠ state.replicationFactor then (state, none)
      else
        changeChain state slot
          (targetActives.map (⟨·, .active⟩) ++ drainingActiveIDs.map (⟨·, .leaving⟩))
          (drainingActiveIDs.map (⟨.markLeaving, slot, ·, ""⟩))

def finalizeJoinRebalance (desired : Chain) (state : ClusterState) (slot : Nat) : PassResult :=
  let chain := state.chainAt slot
  if hasJoiningReplica chain || hasLeavingReplica chain then (state, none)
  else if firstActiveDrainingReplicaID state chain ≠ "" then (state, none)
  else
    let currentActives := activeReplicaIDs chain
    let desiredActives := replicaIDs desired.replicas
    if (currentActives.length : Int) ≠ state.replicationFactor + 1 then (state, none)
    else match extraNode currentActives desiredActives, lastActiveReplicaID chain with
      | some extraNodeID, some newNodeID =>
        if newNodeID = extraNodeID ∨ newNodeID ∉ desiredActives ∨
            !sameRelativeOrderForJoinFinalization currentActives extraNodeID newNodeID desiredActives
        then (state, none)
        else
          changeChain state slot
            (desiredActives.map (⟨·, .active⟩) ++ [⟨extraNodeID, .leaving⟩])
            [⟨.markLeaving, slot, extraNodeID, ""⟩]
      | _, _ => (state, none)

def appendMissingDesiredReplicas (desired : Chain) (state : ClusterState) (slot : Nat) : PassResult :=
  let chain := state.chainAt slot
  if hasPendingReplicaState chain then (state, none)
  else if state.replicationFactor ≤ chain.replicas.length then (state, none)
  else
    let currentIDs := replicaIDs chain.replicas
    let desiredIDs := replicaIDs desired.replicas
    if !currentIDs.isPrefixOf desiredIDs then (state, none)
    else match desiredIDs[currentIDs.length]? with
      | none => (state, none)
      | some nextNodeID =>
        if !state.placeable nextNodeID ∨ nextNodeID ∈ currentIDs then (state, none)
        else
          let replacedNodeID :=
            if state.replicationFactor ≤ desiredIDs.length then
              desiredIDs.getD (state.replicationFactor.toNat - 1) ""
            else ""
          changeChain state slot (chain.replicas ++ [⟨nextNodeID, .joining⟩])
            [⟨.appendTail, slot, nextNodeID, replacedNodeID⟩]

def appendDrainReplacement (state : ClusterState) (slot : Nat) : Except Error PassResult :=
  let chain := state.chainAt slot
  if hasPendingReplicaState chain then .ok (state, none)
  else
    let replacedNodeID := firstActiveDrainingReplicaID state chain
    if replacedNodeID = "" then .ok (state, none)
    else match selectTailRepairCandidate state chain with
      | none => .error (.placement slot chain.replicas.length)
      | some candidate =>
        .ok (changeChain state slot (chain.replicas ++ [⟨candidate.id, .joining⟩])
          [⟨.appendTail, slot, candidate.id, replacedNodeID⟩])

def appendJoinRebalance (desired : Chain) (state : ClusterState) (slot : Nat) :
    Except Error PassResult :=
  let chain := state.chainAt slot
  if hasPendingReplicaState chain then .ok (state, none)
  else if firstActiveDrainingReplicaID state chain ≠ "" then .ok (state, none)
  else if chainContainsDeadReplica state chain then .ok (state, none)
  else
    let currentActives := activeReplicaIDs chain
    let desiredActives := replicaIDs desired.replicas
    if (currentActives.length : Int) ≠ state.replicationFactor ∨
        (desiredActives.length : Int) ≠ state.replicationFactor then .ok (state, none)
    else match oneMemberReplacement currentActives desiredActives with
      | none =>
        if disjointChain currentActives desiredActives then
          .error (.sentinel .brokenChain s!"slot {slot} would require a fully disjoint remap")
        else .ok (state, none)
      | some (addedNodeID, removedNodeID) =>
        if !sameRelativeOrderWithout currentActives removedNodeID desiredActives addedNodeID then
          .ok (state, none)
        else
          .ok (changeChain state slot (chain.replicas ++ [⟨addedNodeID, .joining⟩])
            [⟨.appendTail, slot, addedNodeID, removedNodeID⟩])

/-! ## One reconcile -/

/-- Run `pass` over `slots` while `remaining` is not zero; a negative budget never runs out. -/
def sweep (pass : ClusterState → Nat → Except Error PassResult) :
    Int → List Nat → ClusterState → Except Error (ClusterState × List SlotPlan)
  | _, [], state => .ok (state, [])
  | remaining, slot :: rest, state =>
    if remaining = 0 then .ok (state, [])
    else do
      let (state, changed) ← pass state slot
      match changed with
      | none => sweep pass remaining rest state
      | some slotPlan =>
        let (state, changedSlots) ←
          sweep pass (if 0 < remaining then remaining - 1 else remaining) rest state
        .ok (state, slotPlan :: changedSlots)

def remainingChangedChainBudget (policy : ReconfigurationPolicy) (alreadyChanged : Nat) : Int :=
  if policy.maxChangedChains ≤ 0 then -1
  else if policy.maxChangedChains - alreadyChanged < 0 then 0
  else policy.maxChangedChains - alreadyChanged

def appendPrioritySlots (state : ClusterState) : List Nat :=
  (state.chains.map (·.slot)).insertionSort fun left right =>
    (state.chainAt left).replicas.length < (state.chainAt right).replicas.length ∨
    ((state.chainAt left).replicas.length = (state.chainAt right).replicas.length ∧ left ≤ right)

def desiredAt (desired : List Chain) (slot : Nat) : Chain := desired[slot]?.getD ⟨slot, []⟩

def finishTransitions (state : ClusterState) :
    Except Error (ClusterState × Option (List Chain) × List SlotPlan) := do
  let slots := List.range state.slotCount.toNat
  let (state, repaired) ← sweep repairDeadReplicas (-1) slots state
  let (state, drained) ← sweep (fun s i => .ok (finalizeDrainReplacement s i)) (-1) slots state
  let desired ← buildDesiredPlacementFromState state
  match desired with
  | none => .ok (state, none, repaired ++ drained)
  | some chains =>
    let (state, joined) ←
      sweep (fun s i => .ok (finalizeJoinRebalance (desiredAt chains i) s i)) (-1) slots state
    .ok (state, some chains, repaired ++ drained ++ joined)

def fillMissing (policy : ReconfigurationPolicy) (desired : Option (List Chain))
    (state : ClusterState) : Except Error (ClusterState × List SlotPlan) :=
  match desired with
  | none => .ok (state, [])
  | some chains =>
    sweep (fun s i => .ok (appendMissingDesiredReplicas (desiredAt chains i) s i))
      (remainingChangedChainBudget policy 0) (appendPrioritySlots state) state

def startTransitions (policy : ReconfigurationPolicy) (desired : Option (List Chain))
    (state : ClusterState) : Except Error (ClusterState × List SlotPlan) := do
  let slots := List.range state.slotCount.toNat
  let (state, replaced) ← sweep appendDrainReplacement (-1) slots state
  match desired with
  | none => .ok (state, replaced)
  | some chains =>
    if policy.maxChangedChains ≤ 0 then .ok (state, replaced)
    else do
      let (state, rebalanced) ←
        sweep (fun s i => appendJoinRebalance (desiredAt chains i) s i) policy.maxChangedChains
          slots state
      .ok (state, replaced ++ rebalanced)

def reconcileState (state : ClusterState) (policy : ReconfigurationPolicy) :
    Except Error (ClusterState × List SlotPlan) := do
  let (state, desired, finished) ← finishTransitions state
  if !finished.isEmpty then .ok (state, finished)
  else do
    let (state, filled) ← fillMissing policy desired state
    if !filled.isEmpty then .ok (state, filled)
    else startTransitions policy desired state

/-! ## Planning -/

def collectUnassignedNodeIDs (state : ClusterState) : List String :=
  let assigned := state.chains.flatMap fun chain => replicaIDs chain.replicas
  state.nodeOrder.filter fun nodeID => state.placeable nodeID && nodeID ∉ assigned

def reconcileEvents (policy : ReconfigurationPolicy) :
    List Event → ClusterState → Except Error (ClusterState × List SlotPlan)
  | [], state => .ok (state, [])
  | event :: rest, state => do
    let state ← (applyEvent state event).mapError (.wrapped "applyEvent")
    let (state, slotPlans) ← (reconcileState state policy).mapError (.wrapped "reconcileState")
    let (state, later) ← reconcileEvents policy rest state
    .ok (state, slotPlans ++ later)

/-- Without events the planner still reconciles once. -/
def reconcileAll (policy : ReconfigurationPolicy) (events : List Event) (working : ClusterState) :
    Except Error (ClusterState × List SlotPlan) :=
  if events.isEmpty then (reconcileState working policy).mapError (.wrapped "reconcileState")
  else reconcileEvents policy events working

def planReconfiguration (state : ClusterState) (events : List Event)
    (policy : ReconfigurationPolicy) : Except Error ReconfigurationPlan :=
  if policy.maxChangedChains < 0 then
    .error (.sentinel .invalidConfig "max changed chains must be >= 0")
  else do
    let working ← (cloneAndValidateState state).mapError (.wrapped "cloneAndValidateState")
    let (working, changedSlots) ← reconcileAll policy events working
    .ok { updatedState := working
          unassignedNodeIDs := collectUnassignedNodeIDs working
          changedSlots }

end Craq.Coordinator
