import Mathlib

/-! # What a storage node is told and what it reports

The assignment of a replica in its chain, and the reports a node sends to the coordinator.  A Go
string type is an inductive type whose `unset` is the zero value.
-/

namespace Craq.Storage

inductive ReplicaRole where
  | unset
  | single
  | head
  | middle
  | tail
deriving DecidableEq, Repr

inductive ReplicaState where
  | unset
  | pending
  | catchingUp
  | active
  | leaving
  | removed
  | recovered
deriving DecidableEq, Repr

structure ChainPeers where
  predecessorNodeID : String := ""
  predecessorTarget : String := ""
  successorNodeID : String := ""
  successorTarget : String := ""
  tailNodeID : String := ""
  tailTarget : String := ""
deriving DecidableEq, Repr

structure ReplicaAssignment where
  slot : Nat := 0
  chainVersion : Nat := 0
  role : ReplicaRole := .unset
  peers : ChainPeers := {}
deriving DecidableEq, Repr

structure NodeStatus where
  nodeID : String := ""
  replicaCount : Int := 0
  activeCount : Int := 0
  catchingUpCount : Int := 0
  leavingCount : Int := 0
deriving DecidableEq, Repr

structure RecoveredReplica where
  assignment : ReplicaAssignment
  lastKnownState : ReplicaState
  highestCommittedSequence : Nat
  hasCommittedData : Bool
deriving DecidableEq, Repr

structure NodeRecoveryReport where
  nodeID : String
  replicas : List RecoveredReplica
deriving DecidableEq, Repr

end Craq.Storage
