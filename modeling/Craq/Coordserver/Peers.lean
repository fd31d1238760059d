import Craq.Coordserver.Snapshot

/-! # Two builders of assignments

The runtime builds the assignments of its outbox, the coordinator server those of the peer
refreshes and of recoveries.  They agree on the place of a replica in its chain.  Only the server
tells a replica which node is the tail, and a replica that is not told cannot resolve a linearizable
read of a key with writes under way.
-/

namespace Craq.Coordserver

open Coordinator (Chain Node activeReplicaIDs replicaIDs)

def BuildersAgree (chain : Chain) (nodesByID : Std.ExtTreeMap String Node) (nodeID : String)
    (chainVersion : Nat) : Prop :=
  ∃ assignment, Runtime.assignmentForNode chain nodesByID nodeID chainVersion = .ok assignment ∧
    assignmentForNode chain nodesByID nodeID chainVersion = .ok assignment

theorem assignmentForNode_eq (chain : Chain) (nodesByID : Std.ExtTreeMap String Node)
    (nodeID : String) (chainVersion : Nat) :
    assignmentForNode chain nodesByID nodeID chainVersion =
      ((Runtime.assignmentForNode chain nodesByID nodeID chainVersion).mapError
        (.sentinel .stateMismatch)).map fun assignment =>
          if tailNodeID chain = "" then assignment
          else { assignment with
            peers := { assignment.peers with
              tailNodeID := tailNodeID chain
              tailTarget := Runtime.rpcAddressOf nodesByID (tailNodeID chain) } } := by
  rw [assignmentForNode, Runtime.assignmentForNode]
  cases chain.replicas.findIdx? (·.nodeID = nodeID) with
  | none => rfl
  | some position =>
    by_cases hTail : tailNodeID chain = ""
    · simp only [Except.mapError, Except.map, if_pos hTail]
      rfl
    · simp only [Except.mapError, Except.map, if_neg hTail]
      rfl

theorem runtime_assignment {chain : Chain} {nodeID : String}
    (hMember : nodeID ∈ replicaIDs chain.replicas) (nodesByID : Std.ExtTreeMap String Node)
    (chainVersion : Nat) :
    ∃ assignment, Runtime.assignmentForNode chain nodesByID nodeID chainVersion = .ok assignment ∧
      assignment.peers.tailNodeID = "" ∧ assignment.peers.tailTarget = "" := by
  obtain ⟨replica, hReplica, hName⟩ := List.mem_map.mp hMember
  have hFound : (chain.replicas.findIdx? (·.nodeID = nodeID)).isSome := by
    rw [List.findIdx?_isSome, List.any_eq_true]
    exact ⟨replica, hReplica, decide_eq_true hName⟩
  obtain ⟨position, hPosition⟩ := Option.isSome_iff_exists.mp hFound
  simp only [Runtime.assignmentForNode, hPosition]
  refine ⟨_, rfl, ?_, ?_⟩
  · dsimp only
    split <;> split <;> rfl
  · dsimp only
    split <;> split <;> rfl

theorem tailNodeID_eq_empty_iff (chain : Chain) :
    tailNodeID chain = "" ↔ (activeReplicaIDs chain).getLast?.getD "" = "" ∧
      (replicaIDs chain.replicas).getLast?.getD "" = "" := by
  rw [tailNodeID, replicaIDs, List.getLast?_map]
  constructor
  · intro h
    split at h
    · exact ⟨‹_›, h⟩
    · contradiction
  · rintro ⟨hActive, hLast⟩
    rw [if_pos hActive]
    exact hLast

/-- The two builders give a member of a chain the same assignment exactly if neither the last
active replica nor the last replica of the chain has a name. -/
theorem builders_agree_iff {chain : Chain} {nodeID : String}
    (hMember : nodeID ∈ replicaIDs chain.replicas) (nodesByID : Std.ExtTreeMap String Node)
    (chainVersion : Nat) :
    BuildersAgree chain nodesByID nodeID chainVersion ↔
      (activeReplicaIDs chain).getLast?.getD "" = "" ∧
        (replicaIDs chain.replicas).getLast?.getD "" = "" := by
  obtain ⟨built, hBuilt, hTail, -⟩ := runtime_assignment hMember nodesByID chainVersion
  rw [← tailNodeID_eq_empty_iff]
  constructor
  · rintro ⟨assignment, hRuntime, hServer⟩
    rw [hBuilt] at hRuntime
    cases hRuntime
    by_contra hNamed
    rw [assignmentForNode_eq, hBuilt] at hServer
    have hSame : (tailNodeID chain) = built.peers.tailNodeID := by
      simp only [Except.mapError, Except.map, hNamed, if_false, Except.ok.injEq] at hServer
      exact congrArg (fun assignment => assignment.peers.tailNodeID) hServer
    exact hNamed (hSame.trans hTail)
  · intro hUnnamed
    refine ⟨built, hBuilt, ?_⟩
    rw [assignmentForNode_eq, hBuilt]
    simp [Except.mapError, Except.map, hUnnamed]

/-! ## A chain of two -/

def servingTwo : Chain := ⟨0, [⟨"a", .active⟩, ⟨"b", .active⟩]⟩

def unnamedOne : Chain := ⟨0, [⟨"", .active⟩]⟩

theorem unnamedOne_agrees : BuildersAgree unnamedOne ∅ "" 1 :=
  (builders_agree_iff (by decide) ∅ 1).mpr (by decide)

/-- The runtime tells the head of a chain of two its successor; the server also names the tail. -/
theorem tail_unnamed_in_outbox :
    Runtime.assignmentForNode servingTwo ∅ "a" 1 =
        .ok { chainVersion := 1, role := .head, peers := { successorNodeID := "b" } } ∧
      assignmentForNode servingTwo ∅ "a" 1 =
        .ok { chainVersion := 1, role := .head
              peers := { successorNodeID := "b", tailNodeID := "b" } } ∧
      ¬BuildersAgree servingTwo ∅ "a" 1 := by
  refine ⟨by decide +kernel, by decide +kernel, ?_⟩
  rintro ⟨assignment, hRuntime, hServer⟩
  have hDiffer : Runtime.assignmentForNode servingTwo ∅ "a" 1 ≠
      (assignmentForNode servingTwo ∅ "a" 1).mapError fun _ => "" := by
    decide +kernel
  rw [hRuntime, hServer] at hDiffer
  exact hDiffer rfl

end Craq.Coordserver
