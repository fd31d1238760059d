import Craq.Storage.Agreement
import Craq.Storage.Progress

/-! # The order in which a command is published and persisted

Readers see every record the owner sets at once, before the handler of a command has returned.  Here
the handlers are taken apart into the states they pass through, with whatever the local state store,
the backend and the other nodes answer.  They end in the states of the handlers that are taken as one
step elsewhere, as long as the backend does not fail.
-/

namespace Craq.Storage

open Coordinator (quoted)
open Lib (Reaches run)

/-- What the handler of a command is told from outside. -/
structure Answers where
  upsertReplica : Option Error := none
  ensureBackendReplica : Option Error := none
  installSnapshot : Option Error := none
  setHighestCommittedSequence : Option Error := none
  fetchSnapshot : Except Error (Snapshot × Nat) := .error (.fault "")
  fetchCommittedSequence : Except Error Nat := .error (.fault "")

/-- What a handler has done: the states of the node in their order, the current one last, whether
the local state store has failed it and the error it returns. -/
structure Handled where
  states : List NodeSlot := []
  storeFailed : Bool := false
  outcome : Option Error := none

namespace Handled

def final (handled : Handled) (n : NodeSlot) : NodeSlot :=
  handled.states.getLast?.getD n

def seen (handled : Handled) (states : List NodeSlot) : Handled :=
  { handled with states := states ++ handled.states }

theorem seen_seen (handled : Handled) (first later : List NodeSlot) :
    (handled.seen later).seen first = handled.seen (first ++ later) := by
  simp [seen]

def returns (err : Error) : Handled where
  outcome := some err

/-- How every handler goes on once it has set its record. -/
def persistReplica (n : NodeSlot) (record : ReplicaRecord) (answers : Answers) (rest : List Task) :
    Handled :=
  match answers.upsertReplica with
  | some err =>
    { storeFailed := true
      outcome := some (.wrapped "err in n.persistReplica"
        (.wrapped "err in n.local.UpsertReplica" err)) }
  | none => { states := [n.persistReplica record, (n.persistReplica record).andThen rest] }

def setRecord (n : NodeSlot) (record : ReplicaRecord) (answers : Answers) (rest : List Task) :
    Handled :=
  (persistReplica (n.setRecord record) record answers rest).seen [n.setRecord record]

end Handled

/-! ## The handlers -/

namespace Handlers

variable (n : NodeSlot) (answers : Answers)

def invalidTransition : Error :=
  .sentinel .invalidTransition s!"slot {n.slot} is {quoted n.record.state.name}"

def activateReplicaReady : Handled :=
  if !n.runtime.present then .returns n.unknownSlot
  else if n.record.state = .active then {}
  else if n.record.state ≠ .catchingUp then .returns (invalidTransition n)
  else
    .setRecord n { n.record with state := .active, lastKnownState := .active } answers
      [.drainReadyBuffered]

def markReplicaLeaving : Handled :=
  if !n.runtime.present then .returns n.unknownSlot
  else if n.record.state = .leaving ∨ n.record.state = .removed then {}
  else if n.record.state ≠ .active then .returns (invalidTransition n)
  else .setRecord n { n.record with state := .leaving, lastKnownState := .leaving } answers []

def updateChainPeers (assignment : ReplicaAssignment) : Handled :=
  if !n.runtime.present then .returns n.unknownSlot
  else if n.record.assignment = assignment then {}
  else
    let record := NodeSlot.reassigned n.record assignment
    .setRecord n record answers (NodeSlot.afterUpdate n.record.assignment record)

def resumedFrom (assignment : ReplicaAssignment) : Nat :=
  let committed := n.record.highestCommittedSequence
  let prepared := n.record.highestPreparedDurable
  let peers := assignment.peers
  let tailTarget := peerTransportTarget peers.tailTarget peers.tailNodeID
  if peers.successorNodeID = "" then max committed prepared
  else if peers.tailNodeID ≠ "" ∧ peers.tailNodeID ≠ n.config.nodeID ∧ tailTarget ≠ "" then
    match answers.fetchCommittedSequence with
    | .ok tailCommitted => max committed (min tailCommitted prepared)
    | .error _ => committed
  else committed

def resumeRecoveredReplica (assignment : ReplicaAssignment) : Handled :=
  let record := n.record
  if !n.runtime.present then .returns n.unknownSlot
  else if record.state = .active ∧ record.localDataPresent = true ∧
      record.assignment = assignment then {}
  else if record.state ≠ .recovered then .returns (invalidTransition n)
  else if !record.localDataPresent then
    .returns (.sentinel .stateMismatch s!"slot {n.slot} has no committed data to resume")
  else
    .setRecord n (NodeSlot.resumedRecord record assignment (resumedFrom n answers assignment))
      answers [.ensureUpstreamCommitReplay]

/-- The states a recovering node passes through before it sets its record. -/
def withBackend : NodeSlot :=
  { n with backend := some (n.backend.getD {}) }

def withSnapshot (snapshot : Snapshot) : NodeSlot :=
  let dropped := (withBackend n).dropSlot
  { dropped with
    backend := dropped.backend.map (·.installSnapshot snapshot)
    runtime := { dropped.runtime with committedMetadata := ∅ } }

def withHighest (snapshot : Snapshot) (highest : Nat) : NodeSlot :=
  let installed := withSnapshot n snapshot
  { installed with backend := installed.backend.map (·.setHighestCommittedSequence highest) }

def recoverFrom (assignment : ReplicaAssignment) (snapshot : Snapshot) (highest : Nat) : Handled :=
  match answers.installSnapshot with
  | some err => .returns (.wrapped "err in n.backend.InstallSnapshot" err)
  | none =>
    match answers.setHighestCommittedSequence with
    | some err =>
      (Handled.returns (.wrapped "err in n.backend.SetHighestCommittedSequence" err)).seen
        [withSnapshot n snapshot]
    | none =>
      let record := NodeSlot.rebuiltRecord assignment highest
      let published := (withHighest n snapshot highest).setRecord record
      (Handled.persistReplica published.allowSlot record answers []).seen
        [withSnapshot n snapshot, withHighest n snapshot highest, published, published.allowSlot]

def recoverReplica (assignment : ReplicaAssignment) : Handled :=
  if n.runtime.present = true ∧ n.record.state = .active ∧ n.record.assignment = assignment then {}
  else if n.runtime.present = true ∧ n.record.state ≠ .recovered then
    .returns (invalidTransition n)
  else if n.catchupsExhausted then
    .returns (.backpressure .catchup (-1) n.load.inFlightCatchups n.config.maxConcurrentCatchups)
  else
    match answers.ensureBackendReplica with
    | some err => .returns (.wrapped "err in n.ensureBackendReplica" err)
    | none =>
      match answers.fetchSnapshot with
      | .error err =>
        (Handled.returns (.wrapped "err in n.repl.FetchSnapshot" err)).seen [withBackend n]
      | .ok (snapshot, highest) =>
        (recoverFrom n answers assignment snapshot highest).seen
          [withBackend n, (withBackend n).dropSlot]

end Handlers

/-- The commands that give a replica another state or assignment. -/
inductive ControlCommand where
  | activateReplicaReady
  | markReplicaLeaving
  | updateChainPeers (assignment : ReplicaAssignment)
  | resumeRecoveredReplica (assignment : ReplicaAssignment)
  | recoverReplica (assignment : ReplicaAssignment)
deriving DecidableEq, Repr

def NodeSlot.handleControl (n : NodeSlot) (answers : Answers) : ControlCommand → Handled
  | .activateReplicaReady => Handlers.activateReplicaReady n answers
  | .markReplicaLeaving => Handlers.markReplicaLeaving n answers
  | .updateChainPeers assignment => Handlers.updateChainPeers n answers assignment
  | .resumeRecoveredReplica assignment => Handlers.resumeRecoveredReplica n answers assignment
  | .recoverReplica assignment => Handlers.recoverReplica n answers assignment

/-! ## The states they end in -/

section Final

variable {n : NodeSlot} {answers : Answers}

/-- The handler sets the record where the replica is ready for the command, and does nothing
elsewhere. -/
structure Handled.Decides (handled : Handled) (n : NodeSlot) (answers : Answers) (ready : Prop)
    (record : ReplicaRecord) (rest : List Task) : Prop where
  sets : ready → handled = .setRecord n record answers rest
  leaves : ¬ready → ∃ outcome, handled = { outcome }

theorem Handled.setRecord_final {record : ReplicaRecord} {rest : List Task}
    (hstore : n.load.localWriteFails = answers.upsertReplica.isSome) :
    (Handled.setRecord n record answers rest).final n =
      (n.setRecord record).persistThen record rest := by
  have same : (n.setRecord record).load = n.load := rfl
  rw [Handled.setRecord, Handled.persistReplica, NodeSlot.persistThen, same, hstore]
  cases answers.upsertReplica <;> rfl

theorem Handled.Decides.final {handled : Handled} {ready : Prop} [Decidable ready]
    {record : ReplicaRecord} {rest : List Task} (h : handled.Decides n answers ready record rest)
    (hstore : n.load.localWriteFails = answers.upsertReplica.isSome) :
    handled.final n = if ready then (n.setRecord record).persistThen record rest else n := by
  by_cases hready : ready
  · rw [if_pos hready, h.sets hready, Handled.setRecord_final hstore]
  · obtain ⟨outcome, rfl⟩ := h.leaves hready
    rw [if_neg hready]
    rfl

namespace Handlers

theorem activateReplicaReady_decides :
    (activateReplicaReady n answers).Decides n answers
      (n.runtime.present = true ∧ n.record.state = .catchingUp)
      { n.record with state := .active, lastKnownState := .active } [.drainReadyBuffered] := by
  rw [activateReplicaReady]
  constructor
  · rintro ⟨hpresent, hstate⟩
    simp [hpresent, hstate]
  · intro hready
    repeat' split
    all_goals first | exact ⟨_, rfl⟩ | grind

theorem markReplicaLeaving_decides :
    (markReplicaLeaving n answers).Decides n answers
      (n.runtime.present = true ∧ n.record.state = .active)
      { n.record with state := .leaving, lastKnownState := .leaving } [] := by
  rw [markReplicaLeaving]
  constructor
  · rintro ⟨hpresent, hstate⟩
    simp [hpresent, hstate]
  · intro hready
    repeat' split
    all_goals first | exact ⟨_, rfl⟩ | grind

theorem updateChainPeers_decides (assignment : ReplicaAssignment) :
    (updateChainPeers n answers assignment).Decides n answers
      (n.runtime.present = true ∧ n.record.assignment ≠ assignment)
      (NodeSlot.reassigned n.record assignment)
      (NodeSlot.afterUpdate n.record.assignment (NodeSlot.reassigned n.record assignment)) := by
  rw [updateChainPeers]
  constructor
  · rintro ⟨hpresent, hother⟩
    simp [hpresent, hother]
  · intro hready
    repeat' split
    all_goals first | exact ⟨_, rfl⟩ | grind

theorem resumeRecoveredReplica_decides (assignment : ReplicaAssignment) :
    (resumeRecoveredReplica n answers assignment).Decides n answers
      (n.runtime.present = true ∧ n.record.state = .recovered ∧ n.record.localDataPresent = true)
      (NodeSlot.resumedRecord n.record assignment (resumedFrom n answers assignment))
      [.ensureUpstreamCommitReplay] := by
  rw [resumeRecoveredReplica]
  constructor
  · rintro ⟨hpresent, hstate, hdata⟩
    simp [hpresent, hstate, hdata]
  · intro hready
    repeat' split
    all_goals first | exact ⟨_, rfl⟩ | grind

-- The one-step handler also ends the activation that the command completes.
theorem activateReplicaReady_final
    (hstore : n.load.localWriteFails = answers.upsertReplica.isSome)
    (hreported : n.activation = .reported) :
    n.activateReplicaReady =
      (activateReplicaReady { n with activation := .idle } answers).final
        { n with activation := .idle } := by
  have ended := (activateReplicaReady_decides (n := { n with activation := .idle })).final hstore
  rw [ended, NodeSlot.activateReplicaReady, if_neg (not_not.mpr hreported), ← ite_not]
  congr 1
  simp

theorem markReplicaLeaving_final (hstore : n.load.localWriteFails = answers.upsertReplica.isSome) :
    n.markReplicaLeaving = (markReplicaLeaving n answers).final n := by
  rw [markReplicaLeaving_decides.final hstore, NodeSlot.markReplicaLeaving, ← ite_not]
  congr 1
  simp

theorem updateChainPeers_final (assignment : ReplicaAssignment)
    (hstore : n.load.localWriteFails = answers.upsertReplica.isSome) :
    n.updateChainPeers assignment = (updateChainPeers n answers assignment).final n := by
  rw [(updateChainPeers_decides assignment).final hstore, NodeSlot.updateChainPeers, ← ite_not]
  congr 1
  simp

/-- A replica that asks the tail first ends in the same state once it is answered. -/
theorem resumeRecoveredReplica_final (assignment : ReplicaAssignment)
    (hstore : n.load.localWriteFails = answers.upsertReplica.isSome) :
    n.resumeRecoveredReplica assignment = (resumeRecoveredReplica n answers assignment).final n ∨
      (∃ target, n.resumeRecoveredReplica assignment =
        n.andThen [.awaitTail (.resume assignment) target none]) ∧
      n.resumeFetched assignment answers.fetchCommittedSequence.toOption =
        (resumeRecoveredReplica n answers assignment).final n := by
  by_cases hready : n.runtime.present = true ∧ n.record.state = .recovered ∧
      n.record.localDataPresent = true
  · obtain ⟨hpresent, hstate, hdata⟩ := hready
    have handled : (resumeRecoveredReplica n answers assignment).final n =
        n.finishResume assignment (resumedFrom n answers assignment) := by
      rw [(resumeRecoveredReplica_decides assignment).final hstore,
        if_pos ⟨hpresent, hstate, hdata⟩]
      rfl
    rw [handled, NodeSlot.resumeRecoveredReplica, if_neg (by simp [hpresent, hstate, hdata]),
      resumedFrom]
    split
    · exact .inl rfl
    split
    · refine .inr ⟨⟨_, rfl⟩, ?_⟩
      cases answers.fetchCommittedSequence <;> rfl
    · exact .inl rfl
  · refine .inl ?_
    rw [(resumeRecoveredReplica_decides assignment).final hstore, if_neg hready,
      NodeSlot.resumeRecoveredReplica, if_pos (by grind)]

/-- A replica that fetches the snapshot first ends in the same state once it has it. -/
theorem recoverReplica_final (assignment : ReplicaAssignment) (source : String)
    (hstore : n.load.localWriteFails = answers.upsertReplica.isSome)
    (hbackend : answers.ensureBackendReplica = none) (hinstall : answers.installSnapshot = none)
    (hhighest : answers.setHighestCommittedSequence = none) :
    n.recoverReplica assignment source = (recoverReplica n answers assignment).final n ∨
      (∃ target, n.recoverReplica assignment source =
        (withBackend n).andThen [.awaitSnapshot (.recover assignment) target none]) ∧
      (withBackend n).recoverFetched assignment answers.fetchSnapshot.toOption =
        (recoverReplica n answers assignment).final n := by
  rw [NodeSlot.recoverReplica, recoverReplica]
  by_cases hrefused : n.runtime.present = true ∧ n.record.state ≠ .recovered
  · refine .inl ?_
    rw [if_pos (by simpa using hrefused), if_pos hrefused]
    split <;> rfl
  have hother : ¬(n.runtime.present = true ∧ n.record.state = .active ∧
      n.record.assignment = assignment) := by grind
  rw [if_neg (by simpa using hrefused), if_neg hother, if_neg hrefused]
  by_cases hexhausted : n.catchupsExhausted = true
  · rw [if_pos hexhausted, if_pos hexhausted]
    exact .inl rfl
  rw [if_neg hexhausted, if_neg hexhausted, hbackend]
  refine .inr ⟨⟨_, rfl⟩, ?_⟩
  cases answers.fetchSnapshot with
  | error err => rfl
  | ok reply =>
    let published := (withHighest n reply.1 reply.2).setRecord
      (NodeSlot.rebuiltRecord assignment reply.2)
    have same : published.allowSlot.load = n.load := rfl
    have fetched : (withBackend n).recoverFetched assignment (some reply) =
        published.allowSlot.persistThen (NodeSlot.rebuiltRecord assignment reply.2) [] := rfl
    simp only [Except.toOption, fetched, NodeSlot.persistThen, same, hstore, recoverFrom, hinstall,
      hhighest, Handled.persistReplica]
    cases answers.upsertReplica <;> rfl

end Handlers

end Final

/-! ## Persisting first -/

/-- The local state store holds the assignment with the state.  A replica that has come back from a
crash is in a state of its own until it is resumed, and that one is not stored. -/
def NodeSlot.Stores (n : NodeSlot) (state : ReplicaState) (assignment : ReplicaAssignment) : Prop :=
  ∃ stored ∈ n.localState, stored.assignment = assignment ∧
    (state = .recovered ∨ stored.lastKnownState = state)

/-- What readers see of the replica has been persisted. -/
def NodeSlot.PublishesStored (n : NodeSlot) : Prop :=
  n.runtime.present = true → n.Stores n.record.state n.record.assignment

/-- Every state readers see while a command is handled has been persisted, and a command that
could not be persisted fails and leaves the record as it was. -/
structure PersistsFirst (n : NodeSlot) (handled : Handled) : Prop where
  stored : ∀ state ∈ handled.states, state.PublishesStored
  fails : handled.storeFailed = true → handled.outcome ≠ none ∧
    (handled.final n).runtime.present = n.runtime.present ∧ (handled.final n).record = n.record

/-- The state and the assignment a command is about to publish; `none` when the replica refuses it,
has already done it, or something else fails before. -/
def NodeSlot.target (n : NodeSlot) (answers : Answers) :
    ControlCommand → Option (ReplicaState × ReplicaAssignment)
  | .activateReplicaReady =>
    if n.runtime.present = true ∧ n.record.state = .catchingUp then
      some (.active, n.record.assignment)
    else none
  | .markReplicaLeaving =>
    if n.runtime.present = true ∧ n.record.state = .active then
      some (.leaving, n.record.assignment)
    else none
  | .updateChainPeers assignment =>
    if n.runtime.present = true ∧ n.record.assignment ≠ assignment then
      some (n.record.state, assignment)
    else none
  | .resumeRecoveredReplica assignment =>
    if n.runtime.present = true ∧ n.record.state = .recovered ∧ n.record.localDataPresent = true then
      some (.active, assignment)
    else none
  | .recoverReplica assignment =>
    if (n.runtime.present = true → n.record.state = .recovered) ∧ n.catchupsExhausted = false ∧
        answers.ensureBackendReplica = none ∧ answers.fetchSnapshot.isOk = true ∧
        answers.installSnapshot = none ∧ answers.setHighestCommittedSequence = none then
      some (.active, assignment)
    else none

variable {n : NodeSlot} {answers : Answers}

theorem PersistsFirst.nothing (outcome : Option Error) : PersistsFirst n { outcome } :=
  ⟨by simp, nofun⟩

/-- The handler has set its record and comes to the store: it persists first only if what it has
shown was stored before. -/
theorem persistsFirst_persistReplica {shown : List NodeSlot} {current : NodeSlot}
    {record : ReplicaRecord} (rest : List Task) (hshown : shown.getLast? = some current)
    (hpresent : current.runtime.present = true) (hrecord : current.record = record)
    (hknown : record.state = .recovered ∨ record.lastKnownState = record.state)
    (hchanged : n.runtime.present = true → record ≠ n.record) :
    PersistsFirst n ((Handled.persistReplica current record answers rest).seen shown) ↔
      answers.upsertReplica = none ∧ ∀ state ∈ shown, state.PublishesStored := by
  cases hstore : answers.upsertReplica with
  | some err =>
    -- The record stays although it was not persisted.
    simp only [Handled.persistReplica, hstore, Handled.seen, List.append_nil, reduceCtorEq, false_and,
      iff_false]
    intro h
    have ⟨_, held, same⟩ := h.fails rfl
    simp only [Handled.final, hshown, Option.getD_some, hpresent, hrecord] at held same
    exact hchanged held.symm same
  | none =>
    have stored : ∀ rest : List Task,
        ((current.persistReplica record).andThen rest).PublishesStored := by
      intro rest _
      have held : ((current.persistReplica record).andThen rest).record = record := hrecord
      rw [held]
      exact ⟨persistedReplica record, rfl, rfl, hknown⟩
    simp only [Handled.persistReplica, hstore, Handled.seen, true_and]
    constructor
    · intro h state hmem
      exact h.stored state (List.mem_append_left _ hmem)
    · intro h
      refine ⟨?_, nofun⟩
      intro state hmem
      rcases List.mem_append.mp hmem with hmem | hmem
      · exact h state hmem
      · simp only [List.mem_cons, List.not_mem_nil, or_false] at hmem
        rcases hmem with rfl | rfl
        · exact stored []
        · exact stored rest

theorem persistsFirst_setRecord {record : ReplicaRecord} (rest : List Task)
    (hknown : record.state = .recovered ∨ record.lastKnownState = record.state)
    (hchanged : n.runtime.present = true → record ≠ n.record) :
    PersistsFirst n (Handled.setRecord n record answers rest) ↔
      answers.upsertReplica = none ∧ n.Stores record.state record.assignment := by
  have hrecord : (n.setRecord record).record = record := rfl
  rw [Handled.setRecord, persistsFirst_persistReplica rest rfl rfl hrecord hknown hchanged,
    List.forall_mem_singleton]
  have published : (n.setRecord record).PublishesStored ↔
      n.Stores record.state record.assignment :=
    ⟨fun h => h rfl, fun h _ => h⟩
  rw [published]

theorem persistsFirst_iff_target {handled : Handled} {command : ControlCommand}
    (hnone : n.target answers command = none → PersistsFirst n handled)
    (hsome : ∀ target, n.target answers command = some target →
      (PersistsFirst n handled ↔
        answers.upsertReplica = none ∧ n.Stores target.1 target.2)) :
    PersistsFirst n handled ↔ ∀ target ∈ n.target answers command,
      answers.upsertReplica = none ∧ n.Stores target.1 target.2 := by
  cases htarget : n.target answers command with
  | none => simpa using hnone htarget
  | some target => simpa using hsome target htarget

theorem Handled.Decides.persistsFirst {handled : Handled} {ready : Prop} [Decidable ready]
    {record : ReplicaRecord} {rest : List Task} {command : ControlCommand}
    (h : handled.Decides n answers ready record rest)
    (htarget : n.target answers command =
      if ready then some (record.state, record.assignment) else none)
    (hknown : record.state = .recovered ∨ record.lastKnownState = record.state)
    (hchanged : ready → record ≠ n.record) :
    PersistsFirst n handled ↔ ∀ target ∈ n.target answers command,
      answers.upsertReplica = none ∧ n.Stores target.1 target.2 := by
  rw [htarget]
  by_cases hready : ready
  · rw [if_pos hready, h.sets hready, persistsFirst_setRecord rest hknown fun _ => hchanged hready]
    simp
  · obtain ⟨outcome, rfl⟩ := h.leaves hready
    rw [if_neg hready]
    exact iff_of_true (.nothing outcome) nofun

theorem followPredecessor_lastKnownState (old : ReplicaAssignment) (record : ReplicaRecord) :
    (NodeSlot.followPredecessor old record).lastKnownState = record.lastKnownState := by
  simp only [NodeSlot.followPredecessor]
  split <;> rfl

theorem followSuccessor_lastKnownState (old : ReplicaAssignment) (record : ReplicaRecord) :
    (NodeSlot.followSuccessor old record).lastKnownState = record.lastKnownState := by
  simp only [NodeSlot.followSuccessor]
  (repeat' split) <;> rfl

theorem reassigned_lastKnownState (record : ReplicaRecord) (assignment : ReplicaAssignment) :
    (NodeSlot.reassigned record assignment).lastKnownState =
      if record.state = .recovered then record.lastKnownState else record.state := by
  rw [NodeSlot.reassigned, followSuccessor_lastKnownState, followPredecessor_lastKnownState]
  rfl

theorem updateChainPeers_persistsFirst (assignment : ReplicaAssignment) :
    PersistsFirst n (Handlers.updateChainPeers n answers assignment) ↔
      ∀ target ∈ n.target answers (.updateChainPeers assignment),
        answers.upsertReplica = none ∧ n.Stores target.1 target.2 := by
  have hassignment := reassigned_place n.record assignment
  have ⟨hsame, _⟩ := reassigned_counters n.record assignment
  apply (Handlers.updateChainPeers_decides assignment).persistsFirst
  · rw [hsame, hassignment]
    rfl
  · rw [hsame, reassigned_lastKnownState]
    by_cases hrecovered : n.record.state = .recovered
    · exact .inl hrecovered
    · exact .inr (if_neg hrecovered)
  · rintro ⟨-, hother⟩ heq
    exact hother ((congrArg ReplicaRecord.assignment heq).symm.trans hassignment)

theorem NodeSlot.PublishesStored.congr {next : NodeSlot} (h : n.PublishesStored)
    (hpresent : next.runtime.present = n.runtime.present) (hrecord : next.record = n.record)
    (hstored : next.localState = n.localState) : next.PublishesStored := by
  simp only [PublishesStored, Stores, hpresent, hrecord, hstored]
  exact h

theorem PersistsFirst.returns {states : List NodeSlot} (err : Error)
    (h : ∀ state ∈ states, state.PublishesStored) :
    PersistsFirst n ((Handled.returns err).seen states) := by
  refine ⟨?_, nofun⟩
  intro state hmem
  exact h state (by simpa [Handled.seen, Handled.returns] using hmem)

/-- Until the record of the recovery is set, readers see the replica as it was. -/
theorem NodeSlot.PublishesStored.recovering (held : n.PublishesStored) :
    (Handlers.withBackend n).PublishesStored ∧ (Handlers.withBackend n).dropSlot.PublishesStored ∧
      (∀ snapshot, (Handlers.withSnapshot n snapshot).PublishesStored) ∧
      ∀ snapshot highest, (Handlers.withHighest n snapshot highest).PublishesStored :=
  ⟨held.congr rfl rfl rfl, held.congr rfl rfl rfl, fun _ => held.congr rfl rfl rfl,
    fun _ _ => held.congr rfl rfl rfl⟩

section Recover

variable {assignment : ReplicaAssignment} (held : n.PublishesStored)

include held

theorem recoverReplica_refused
    (hnone : n.target answers (.recoverReplica assignment) = none) :
    PersistsFirst n (Handlers.recoverReplica n answers assignment) := by
  obtain ⟨created, dropped, installed, -⟩ := held.recovering
  simp only [NodeSlot.target, ite_eq_right_iff, reduceCtorEq, imp_false] at hnone
  simp only [Handlers.recoverReplica]
  split
  · exact .nothing _
  split
  · exact .nothing _
  split
  · exact .nothing _
  rename_i hstate hexhausted
  split
  · exact .nothing _
  rename_i hbackend
  split
  · exact .returns _ (by simp [created])
  rename_i snapshot highest hfetch
  simp only [Handlers.recoverFrom]
  split
  · exact .returns _ (by simp [created, dropped])
  rename_i hinstall
  split
  · rw [Handled.seen_seen]
    exact .returns _ (by simp [created, dropped, installed])
  rename_i hhighest
  refine absurd ⟨?_, ?_, hbackend, ?_, hinstall, hhighest⟩ hnone
  · intro hpresent
    by_contra hother
    exact hstate ⟨hpresent, hother⟩
  · simpa using hexhausted
  · rw [hfetch]
    rfl

theorem recoverReplica_published {target : ReplicaState × ReplicaAssignment}
    (htarget : n.target answers (.recoverReplica assignment) = some target) :
    PersistsFirst n (Handlers.recoverReplica n answers assignment) ↔
      answers.upsertReplica = none ∧ n.Stores target.1 target.2 := by
  obtain ⟨created, dropped, installed, advanced⟩ := held.recovering
  simp only [NodeSlot.target, Option.ite_none_right_eq_some] at htarget
  obtain ⟨⟨hstate, hexhausted, hbackend, hfetch, hinstall, hhighest⟩, htarget⟩ := htarget
  cases htarget
  obtain ⟨snapshot, highest, hreply⟩ : ∃ snapshot highest,
      answers.fetchSnapshot = .ok (snapshot, highest) := by
    cases hreply : answers.fetchSnapshot with
    | error err => simp [hreply, Except.isOk, Except.toBool] at hfetch
    | ok reply => exact ⟨reply.1, reply.2, rfl⟩
  have hreplay : ¬(n.runtime.present = true ∧ n.record.state = .active ∧
      n.record.assignment = assignment) := by
    rintro ⟨hpresent, hactive, -⟩
    exact absurd ((hstate hpresent).symm.trans hactive) nofun
  have hinvalid : ¬(n.runtime.present = true ∧ n.record.state ≠ .recovered) := by
    rintro ⟨hpresent, hother⟩
    exact hother (hstate hpresent)
  simp only [Handlers.recoverReplica, if_neg hreplay, if_neg hinvalid, hexhausted, hbackend,
    hreply, Handlers.recoverFrom, hinstall, hhighest, Bool.false_eq_true, if_false,
    Handled.seen_seen]
  let published := (Handlers.withHighest n snapshot highest).setRecord
    (NodeSlot.rebuiltRecord assignment highest)
  have hrecord : published.allowSlot.record = NodeSlot.rebuiltRecord assignment highest := rfl
  have changed : n.runtime.present = true →
      NodeSlot.rebuiltRecord assignment highest ≠ n.record := by
    intro hpresent heq
    exact absurd ((congrArg ReplicaRecord.state heq).trans (hstate hpresent)) nofun
  have shows : published.PublishesStored ↔ n.Stores .active assignment :=
    ⟨fun h => h rfl, fun h _ => h⟩
  have allowed : published.allowSlot.PublishesStored ↔ n.Stores .active assignment :=
    ⟨fun h => h rfl, fun h _ => h⟩
  refine (persistsFirst_persistReplica [] rfl rfl hrecord (.inr rfl) changed).trans ?_
  simp only [List.cons_append, List.nil_append, List.forall_mem_cons, List.not_mem_nil,
    false_implies, implies_true, and_true, created, dropped, installed, advanced, true_and]
  exact and_congr_right fun _ => (and_congr shows allowed).trans and_self_iff

end Recover

/-- A command is persisted before it is published exactly when it publishes nothing, or nothing that
the local state store does not hold already. -/
theorem persists_first_iff (command : ControlCommand) (held : n.PublishesStored) :
    PersistsFirst n (n.handleControl answers command) ↔
      ∀ target ∈ n.target answers command,
        answers.upsertReplica = none ∧ n.Stores target.1 target.2 := by
  have other {record : ReplicaRecord} {state : ReplicaState} (held : n.record.state = state)
      (moved : record.state ≠ state) : record ≠ n.record :=
    fun heq => moved ((congrArg ReplicaRecord.state heq).trans held)
  cases command with
  | activateReplicaReady =>
    apply Handlers.activateReplicaReady_decides.persistsFirst rfl (.inr rfl)
    exact fun ready => other ready.2 nofun
  | markReplicaLeaving =>
    apply Handlers.markReplicaLeaving_decides.persistsFirst rfl (.inr rfl)
    exact fun ready => other ready.2 nofun
  | updateChainPeers assignment => exact updateChainPeers_persistsFirst assignment
  | resumeRecoveredReplica assignment =>
    apply (Handlers.resumeRecoveredReplica_decides assignment).persistsFirst rfl (.inr rfl)
    exact fun ready => other ready.2.1 nofun
  | recoverReplica assignment =>
    exact persistsFirst_iff_target (recoverReplica_refused held)
      fun _ => recoverReplica_published held

/-! ## A replica that is activated -/

def joinAndReport : List Action :=
  [.node "a" (.command (.addReplicaAsTail { chainVersion := 1, role := .single })),
    .node "a" (.command .prepareActivation), .node "a" (.readyReported true)]

theorem joinAndReport_runs :
    (run (Cluster.step id) joinAndReport (.initial plainConfig)).isSome = true := by
  decide +kernel

instance (n : NodeSlot) (state : ReplicaState) (assignment : ReplicaAssignment) :
    Decidable (n.Stores state assignment) :=
  inferInstanceAs (Decidable (∃ stored ∈ n.localState, _ ∧ _))

instance (n : NodeSlot) : Decidable n.PublishesStored :=
  inferInstanceAs (Decidable (_ → _))

def activateThenCrash : List Action :=
  joinAndReport ++ [.node "a" (.command .activateReplicaReady), .restart "a"]

theorem activateThenCrash_runs :
    (run (Cluster.step id) activateThenCrash (.initial plainConfig)).isSome = true := by
  decide +kernel

/-- A replica that resumes under the assignment it had before the crash shows what was stored. -/
theorem resume_persists_first :
    ∃ n : NodeSlot, n.record.state = .recovered ∧
      n.target {} (.resumeRecoveredReplica n.record.assignment) =
        some (.active, n.record.assignment) ∧
      PersistsFirst n (n.handleControl {} (.resumeRecoveredReplica n.record.assignment)) := by
  let n := (Option.get _ activateThenCrash_runs).nodes "a"
  have held : n.PublishesStored := by decide +kernel
  refine ⟨n, ?_, ?_, (persists_first_iff _ held).mpr ?_⟩
  · decide +kernel
  · decide +kernel
  · decide +kernel

/-- The activation shows the replica as active while the store still has it as catching up. -/
theorem activation_publishes_first :
    ¬∀ (resolve : String → String) (config : String → NodeConfig) (cluster : Cluster),
      Reaches (Cluster.step resolve) (fun _ _ => True) (.initial config) cluster →
      ∀ (id : String) (answers : Answers) (command : ControlCommand),
        (cluster.nodes id).PublishesStored →
          PersistsFirst (cluster.nodes id) ((cluster.nodes id).handleControl answers command) := by
  intro h
  have reached : Reaches (Cluster.step id) (fun _ _ => True) (.initial plainConfig) _ :=
    .of_isSome joinAndReport_runs
  have first := h id plainConfig _ reached "a" {} .activateReplicaReady (by decide +kernel)
  have stored := first.stored
  revert stored
  decide +kernel

end Craq.Storage
