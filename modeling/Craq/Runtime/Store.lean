import Craq.Lib.Run
import Craq.Runtime.Evaluate

/-! # The runtime and its store

The runtime writes every fresh command to a log before it adopts the state the command produces.
`Checkpoint` saves the state without its table of records and drops the log up to it; `Open` starts
from the saved state and replays the rest of the log.  Each method of the runtime takes the commands
of one kind, so a command's kind says which method receives it.
-/

namespace Craq.Runtime

open Coordinator (ClusterState ReconfigurationPlan quoted)

set_option linter.dupNamespace false

/-! ## The store -/

structure LogRecord where
  index : Nat
  command : Command
deriving DecidableEq

structure Store where
  checkpoint : Option State := none
  wal : List LogRecord := []
deriving DecidableEq

def Store.loadLatestCheckpoint (store : Store) : Option State := store.checkpoint.map cloneState

def Store.loadWAL (store : Store) (afterIndex : Nat) : List LogRecord :=
  store.wal.filter fun record => afterIndex < record.index

def Store.appendWAL (store : Store) (record : LogRecord) : Store :=
  { store with wal := store.wal ++ [record] }

def Store.saveCheckpoint (store : Store) (checkpoint : State) : Store :=
  { store with checkpoint := some (cloneState checkpoint) }

def Store.truncateWAL (store : Store) (throughIndex : Nat) : Store :=
  { store with wal := store.wal.filter fun record => throughIndex < record.index }

/-! ## Opening a runtime -/

def replayRecord (state : State) (record : LogRecord) : Except Error State := do
  let execution ← (executeCommand state record.command).mapError fun err =>
    .sentinel .recovery s!"replay command {quoted record.command.id}: {err.text}"
  match execution with
  | .duplicate _ =>
    .error (.sentinel .recovery
      s!"duplicate command {quoted record.command.id} present in WAL replay")
  | .fresh cluster plan =>
    .ok (nextStateForApplied state record.index record.command cluster plan)

def replayRecords : Nat → State → List LogRecord → Except Error State
  | _, state, [] => .ok state
  | expectedIndex, state, record :: records =>
    if record.index ≠ expectedIndex + 1 then
      .error (.sentinel .recovery s!"unexpected WAL index {record.index} after {expectedIndex}")
    else do
      let next ← (replayRecord state record).mapError (.wrapped "r.replayRecord")
      replayRecords record.index next records

def Store.openedFrom (store : Store) : State :=
  (store.loadLatestCheckpoint.map cloneState).getD zeroState

def openState (store : Store) : Except Error State :=
  replayRecords store.openedFrom.lastLogIndex store.openedFrom
    (store.loadWAL store.openedFrom.lastLogIndex)

structure Runtime where
  store : Store
  state : State
deriving DecidableEq

def openRuntime (store : Store) : Except Error Runtime :=
  (openState store).map fun state => { store, state }

/-! ## Commands -/

/-- What a method returns.  Only `Reconfigure` returns a plan. -/
structure Answer where
  plan : Option ReconfigurationPlan
  state : State
deriving DecidableEq

inductive Outcome where
  | answered (answer : Answer)
  | rejected (err : Error)
  | appendFailed
deriving DecidableEq

def executeContext : CommandKind → String
  | .bootstrap => "r.executeBootstrap"
  | .reconfigure => "r.executeReconfigure"
  | .progress => "r.executeProgress"
  | .nodeReady => "r.executeNodeReady"
  | .heartbeat => "r.executeHeartbeat"
  | .liveness => "r.executeLiveness"
  | .acknowledgeOutbox => "r.executeAcknowledgeOutbox"
  | .other _ => "r.executeCommand"

/-- The cluster a method commits: some take the executed one, the others the runtime's own. -/
def committedCluster (state : State) (kind : CommandKind) (executed : ClusterState) : ClusterState :=
  match kind with
  | .bootstrap | .reconfigure | .progress | .other _ => executed
  | .nodeReady | .heartbeat | .liveness | .acknowledgeOutbox => state.cluster

def committedPlan (kind : CommandKind) (plan : Option ReconfigurationPlan) :
    Option ReconfigurationPlan :=
  if kind = .reconfigure then plan else none

namespace Runtime

def answerDuplicate (runtime : Runtime) (cmd : Command) (applied : AppliedCommand) : Answer where
  plan := committedPlan cmd.kind (applied.plan.map clonePlan)
  state := snapshotForApplied runtime.state applied

/-- Execute a command and log it.  `appended` says whether the append goes through: the state is
adopted only after it. -/
def execute (runtime : Runtime) (cmd : Command) (appended : Bool) : Runtime × Outcome :=
  match executeCommand runtime.state cmd with
  | .error err => (runtime, .rejected (.wrapped (executeContext cmd.kind) err))
  | .ok (.duplicate applied) => (runtime, .answered (runtime.answerDuplicate cmd applied))
  | .ok (.fresh cluster plan) =>
    let index := runtime.state.lastLogIndex + 1
    let next := nextStateForApplied runtime.state index cmd
      (committedCluster runtime.state cmd.kind cluster) (committedPlan cmd.kind plan)
    if appended then
      ({ store := runtime.store.appendWAL { index, command := cmd }, state := next },
        .answered { plan := (committedPlan cmd.kind plan).map clonePlan, state := cloneState next })
    else (runtime, .appendFailed)

def outboxEntriesExist (outbox : List OutboxEntry) (entryIDs : List String) : Bool :=
  entryIDs.any fun entryID => outbox.any fun entry => entry.id = entryID

-- `AcknowledgeOutbox` does not log a command that names no entry of the outbox.
def submit (runtime : Runtime) (cmd : Command) (appended : Bool) : Runtime × Outcome :=
  match cmd.kind with
  | .acknowledgeOutbox =>
    match validateCommand runtime.state cmd with
    | .error err => (runtime, .rejected (.wrapped "r.validateCommand" err))
    | .ok (some applied) => (runtime, .answered (runtime.answerDuplicate cmd applied))
    | .ok none =>
      if cmd.acknowledgeOutbox.any fun acknowledged =>
          !outboxEntriesExist runtime.state.outbox (outboxAckEntryIDs acknowledged) then
        (runtime, .answered { plan := none, state := cloneState runtime.state })
      else runtime.execute cmd appended
  | _ => runtime.execute cmd appended

/-! ## Checkpoints and whole runs -/

inductive CheckpointOutcome where
  | saveFailed
  | truncateFailed
  | crashed
  | completed
deriving DecidableEq, Repr

def checkpointState (runtime : Runtime) : State :=
  { cloneState runtime.state with appliedCommands := ∅ }

/-- `Checkpoint`, by how far it gets.  A runtime that crashes after the save is opened again. -/
def checkpoint (runtime : Runtime) : CheckpointOutcome → Option Runtime
  | .saveFailed => some runtime
  | .truncateFailed =>
    some { runtime with store := runtime.store.saveCheckpoint runtime.checkpointState }
  | .crashed => (openRuntime (runtime.store.saveCheckpoint runtime.checkpointState)).toOption
  | .completed =>
    some
      { store := (runtime.store.saveCheckpoint runtime.checkpointState).truncateWAL
          runtime.checkpointState.lastLogIndex
        state := { runtime.state with appliedCommands := ∅ } }

inductive Action where
  | submit (cmd : Command) (appended : Bool)
  | checkpoint (outcome : CheckpointOutcome)
  | reopen

/-- One step of a runtime.  There is no next runtime only where `Open` fails. -/
def step (runtime : Runtime) : Action → Option Runtime
  | .submit cmd appended => some (runtime.submit cmd appended).1
  | .checkpoint outcome => runtime.checkpoint outcome
  | .reopen => (openRuntime runtime.store).toOption

def initial : Runtime := { store := {}, state := zeroState }

def Reached (runtime : Runtime) : Prop := Lib.Reaches step (fun _ _ => True) initial runtime

end Runtime

end Craq.Runtime
