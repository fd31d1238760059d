import Craq.Coordserver.Engine

/-! # Histories of the shared snapshot

Several coordinators work on one store.  Each loads a snapshot, runs an operation on it and saves
the result; a save is accepted only while the stored version is the one the coordinator loaded.
-/

namespace Craq.Coordserver

open Coordinator (EventKind ReconfigurationPolicy)
open Craq.Runtime (Command NodeLivenessState evaluateCommand)
open Storage (NodeRecoveryReport NodeStatus)

/-! ## Acknowledging a delivered command -/

def fnv64a (bytes : List UInt8) : UInt64 :=
  bytes.foldl (fun hash byte => (hash ^^^ byte.toUInt64) * 1099511628211) 14695981039346656037

def outboxAckCommandID (expectedVersion : Nat) (entryIDs : List String) : String :=
  let normalized := entryIDs.insertionSort (· ≤ ·)
  let hash := fnv64a (normalized.flatMap fun entryID => entryID.toUTF8.toList ++ [0])
  let digits := String.ofList (Nat.toDigits 16 hash.toNat)
  s!"server-ack-outbox-v{expectedVersion}-n{normalized.length}-h{digits}"

def outboxAckCommand (expectedVersion : Nat) (entryID : String) : Command :=
  { id := outboxAckCommandID expectedVersion [entryID], expectedVersion,
    kind := .acknowledgeOutbox, acknowledgeOutbox := some { entryIDs := [entryID] } }

def clearUnavailable (snapshot : HASnapshot) (nodeID : String) (slot : Nat) :
    Std.ExtTreeMap String (Std.ExtTreeMap Nat Bool) :=
  match snapshot.unavailableReplicas[nodeID]? with
  | none => snapshot.unavailableReplicas
  | some slots =>
    if (slots.erase slot).isEmpty then snapshot.unavailableReplicas.erase nodeID
    else snapshot.unavailableReplicas.insert nodeID (slots.erase slot)

def acknowledgeRefresh (snapshot : HASnapshot) (entry : OutboxEntry)
    (refresh : ActivePeerRefreshState) : Std.ExtTreeMap Nat ActivePeerRefreshState :=
  match refreshStateWithDefaultRemainingNodes snapshot.state entry.slot refresh with
  | none => snapshot.activePeerRefresh
  | some active =>
    let remaining := active.remainingNodeIDs.erase entry.nodeID
    if active.remainingNodeIDs.isEmpty then snapshot.activePeerRefresh
    else if remaining.isEmpty then snapshot.activePeerRefresh.erase entry.slot
    else snapshot.activePeerRefresh.insert entry.slot { active with remainingNodeIDs := remaining }

def ackHAOutboxEntry (epoch : Nat) (snapshot : HASnapshot) (entry : OutboxEntry) :
    Except Error HASnapshot :=
  let next := cloneHASnapshot snapshot
  if isRecoveryOutboxKind entry.kind then
    let cleared : HASnapshot :=
      { next with
        outbox := next.outbox.filter (·.id ≠ entry.id)
        unavailableReplicas := clearUnavailable next entry.nodeID entry.slot }
    .ok { cleared with outbox := rebuildHAOutbox cleared epoch }
  else if snapshot.state.outbox.any (·.id = entry.id) then do
    let evaluated ← (evaluateCommand snapshot.state
      (outboxAckCommand snapshot.state.version entry.id)).mapError .runtime
    return refreshDerived snapshot { next with state := evaluated.nextState } epoch
  else if entry.kind = .updateChainPeers then
    match next.activePeerRefresh[entry.slot]? with
    | none => .ok next
    | some refresh => .ok (refreshDerived snapshot
        { next with activePeerRefresh := acknowledgeRefresh next entry refresh } epoch)
  else .ok (refreshDerived snapshot next epoch)

/-- A new leader puts its epoch on the commands it inherits. -/
def rewriteSnapshotEpoch (snapshot : HASnapshot) (epoch : Nat) : Option HASnapshot :=
  if snapshot.outbox.any (·.epoch ≠ epoch) then
    some { cloneHASnapshot snapshot with outbox := snapshot.outbox.map ({ · with epoch }) }
  else none

/-! ## Operations and histories -/

inductive Operation where
  | bootstrap (cmd : Command)
  | membership (cmd : Command) (expectedEvent : EventKind)
  | replicaReady (nodeID : String) (slot : Nat) (commandID : String) (attempt : Nat)
  | replicaRemoved (nodeID : String) (slot : Nat) (commandID : String) (attempt : Nat)
  | registerNode (reg : NodeRegistration) (policy : ReconfigurationPolicy) (attempt : Nat)
  | reconcile (policy : ReconfigurationPolicy)
  | livenessTransition (nodeID : String) (state : NodeLivenessState) (evaluatedAtUnixNano : Int)
      (deadActionFired : Bool)
  | heartbeat (status : NodeStatus) (observedAtUnixNano : Int)
  | recoveryReport (report : NodeRecoveryReport) (knownClient : Bool)
  | acknowledge (entry : OutboxEntry)
  | stepHA

/-- The snapshot an operation hands to the store, `none` where it saves nothing. -/
def Operation.run (cfg : ServerConfig) (epoch : Nat) (observed snapshot : HASnapshot) :
    Operation → Except Error (Option HASnapshot)
  | .bootstrap cmd => (applyHARuntimeCommand cfg epoch snapshot cmd .bootstrap).map some
  | .membership cmd expectedEvent =>
    (applyHAMembershipMutation cfg epoch snapshot cmd expectedEvent).map some
  | .replicaReady nodeID slot commandID attempt =>
    applyHAReplicaReady cfg epoch observed snapshot nodeID slot commandID attempt
  | .replicaRemoved nodeID slot commandID attempt =>
    applyHAReplicaRemoved cfg epoch observed snapshot nodeID slot commandID attempt
  | .registerNode reg policy attempt =>
    applyHARegisterNode cfg epoch observed snapshot reg policy attempt
  | .reconcile policy => (applyHAReconcile cfg epoch observed snapshot policy).map some
  | .livenessTransition nodeID state evaluatedAtUnixNano deadActionFired =>
    (applyHALivenessTransition cfg epoch observed snapshot nodeID state evaluatedAtUnixNano
      deadActionFired).map some
  | .heartbeat status observedAtUnixNano =>
    (applyHAHeartbeat cfg epoch snapshot status observedAtUnixNano).map some
  | .recoveryReport report knownClient => applyHARecoveryReport epoch snapshot report knownClient
  | .acknowledge entry => (ackHAOutboxEntry epoch snapshot entry).map some
  | .stepHA => .ok (if epoch = 0 then none else rewriteSnapshotEpoch snapshot epoch)

def savedSnapshot (base next : HASnapshot) : HASnapshot :=
  { cloneHASnapshot next with snapshotVersion := base.snapshotVersion + 1 }

/-- `HistoryUnder allowed cfg current older`: a store that was empty now holds `current`, after
`older`, newest first, through operations that were allowed on the snapshots they worked on.  A
coordinator may still work on any snapshot it loaded earlier. -/
inductive HistoryUnder (allowed : HASnapshot → HASnapshot → Operation → Prop) (cfg : ServerConfig) :
    HASnapshot → List HASnapshot → Prop where
  | empty : HistoryUnder allowed cfg zeroHASnapshot []
  | save {current observed base next : HASnapshot} {older : List HASnapshot}
      (history : HistoryUnder allowed cfg current older)
      (op : Operation) (epoch : Nat)
      (loaded : observed ∈ current :: older ∧ base ∈ current :: older)
      (meets : allowed observed base op)
      (run : op.run cfg epoch (cloneHASnapshot observed) (cloneHASnapshot base) = .ok (some next))
      (accepted : base.snapshotVersion = current.snapshotVersion) :
      HistoryUnder allowed cfg (savedSnapshot base next) (current :: older)

abbrev History (cfg : ServerConfig) : HASnapshot → List HASnapshot → Prop :=
  HistoryUnder (fun _ _ _ => True) cfg

end Craq.Coordserver
