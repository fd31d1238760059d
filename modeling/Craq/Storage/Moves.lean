import Craq.Storage.Place

/-! # How a replica comes to its place

A node carries the assignment of its replica; an owner that waits for another node may hold one more,
which the replica gets with the reply.  A step brings in no assignment but that of a command the
node accepts, and a crash the one that is stored.  A replica enters the service with one of three
records: it has joined, was rebuilt from a snapshot, or resumes what was reopened.
-/

namespace Craq.Storage

/-- The assignment the replica gets once the owner has waited. -/
def Task.assignment? : Task → Option ReplicaAssignment
  | .awaitSnapshot (.join assignment) _ _ => some assignment
  | .awaitSnapshot (.recover assignment) _ _ => some assignment
  | .awaitTail (.resume assignment) _ _ => some assignment
  | _ => none

theorem Task.Quiet.assignment? {place : Place} {task : Task} (h : task.Quiet place) :
    task.assignment? = none := by
  cases task with
  | awaitSnapshot use target reply =>
    obtain ⟨plan, rfl⟩ := h
    rfl
  | awaitTail use target reply =>
    cases use with
    | read read => rfl
    | resume assignment => exact h.elim
  | _ => rfl

section

-- What has to hold of a recovered replica and the assignment its owner waits with.
variable (fits : Place → ReplicaAssignment → Prop)

/-- The owner waits with an assignment.  Only a replica that is not there or has come back from a
crash waits for one other than its own. -/
def Task.Waits (place : Place) : Task → Prop
  | .awaitSnapshot (.join assignment) _ _ =>
    place.present = true ∧ place.assignment = assignment
  | .awaitSnapshot (.recover assignment) _ _ =>
    place.Settled ∧ (place.present = true → place.state = .recovered) ∧ fits place assignment
  | .awaitTail (.resume assignment) _ _ =>
    place.Settled ∧ place.state = .recovered ∧ fits place assignment
  | _ => False

/-- The owner waits for another node and does nothing else. -/
structure NodeSlot.Waiting (n : NodeSlot) (task : Task) : Prop where
  tasks : n.tasks = [task]
  waits : task.Waits fits n.place
  absent : n.runtime.present = false → n.record = {}
  closing : n.closing = false

inductive NodeSlot.Placed (n : NodeSlot) : Prop where
  | rests (settled : n.place.Settled) (stands : n.Stands n.place)
  | waits (task : Task) (waiting : n.Waiting fits task)

end

variable {fits : Place → ReplicaAssignment → Prop}

def NodeSlot.Carries (n : NodeSlot) (assignment : ReplicaAssignment) : Prop :=
  (n.runtime.present = true ∧ n.record.assignment = assignment) ∨
    ∃ task ∈ n.tasks, task.assignment? = some assignment

/-- The node takes the assignment with the command, or has it from its local state store after a
crash.  Other commands it refuses in its state. -/
def NodeSlot.Adopts (n : NodeSlot) : NodeInput → ReplicaAssignment → Prop
  | .event (.command (.addReplicaAsTail given)), assignment =>
    n.runtime.present = false ∧ given = assignment
  | .event (.command (.updateChainPeers given)), assignment => given = assignment
  | .event (.command (.resumeRecoveredReplica given)), assignment =>
    n.record.state = .recovered ∧ given = assignment
  | .event (.command (.recoverReplica given _)), assignment =>
    (n.runtime.present = true → n.record.state = .recovered) ∧ given = assignment
  | .restart, assignment => ∃ stored ∈ n.localState, stored.assignment = assignment
  | _, _ => False

/-- The replica has a part in its chain. -/
def ReplicaRecord.InService (record : ReplicaRecord) : Prop :=
  record.state = .catchingUp ∨ record.state = .active ∨ record.state = .leaving

/-- The records with which the node begins anew. -/
inductive NodeSlot.Enters (n : NodeSlot) : ReplicaRecord → Prop where
  | removed : n.Enters {}
  | joined (assignment : ReplicaAssignment) (highest : Nat) :
      n.Enters (NodeSlot.joinedRecord assignment highest)
  | rebuilt (assignment : ReplicaAssignment) (highest : Nat) :
      n.Enters (NodeSlot.rebuiltRecord assignment highest)
  | resumed (assignment : ReplicaAssignment) {committed : Nat}
      (recovered : n.record.state = .recovered)
      (grown : n.record.highestCommittedSequence ≤ committed) :
      n.Enters (NodeSlot.resumedRecord n.record assignment committed)

/-- A replica is in service and not to be resumed because it was so before, or it begins anew, with
little to do. -/
def NodeSlot.Entry (n next : NodeSlot) : Prop :=
  next.record.state ≠ .recovered →
    n.record.state ≠ .recovered ∧ (next.record.InService → n.record.InService) ∨
      n.Enters next.record ∧ ∀ task ∈ next.tasks, task = .ensureUpstreamCommitReplay

/-- The node has moved without an assignment from elsewhere than `brought`. -/
structure NodeSlot.Moves (fits : Place → ReplicaAssignment → Prop)
    (brought : ReplicaAssignment → Prop) (n next : NodeSlot) : Prop where
  placed : next.Placed fits
  carries : ∀ assignment, next.Carries assignment → n.Carries assignment ∨ brought assignment
  entry : n.Entry next

namespace NodeSlot

variable {n next : NodeSlot} {brought : ReplicaAssignment → Prop} {assignment : ReplicaAssignment}

theorem Carries.of_quiet {place : Place} (h : n.Carries assignment)
    (htasks : ∀ task ∈ n.tasks, task.Quiet place) :
    n.runtime.present = true ∧ n.record.assignment = assignment := by
  rcases h with h | ⟨task, hmem, htask⟩
  · exact h
  · rw [(htasks task hmem).assignment?] at htask
    cases htask

theorem Carries.congr (h : next.Carries assignment) (hplace : next.place = n.place)
    (htasks : next.tasks = n.tasks) : n.Carries assignment := by
  have hpresent : next.runtime.present = n.runtime.present := congrArg Place.present hplace
  have hassignment : next.record.assignment = n.record.assignment :=
    congrArg Place.assignment hplace
  simp only [Carries, hpresent, hassignment, htasks] at h
  exact h

theorem Entry.of_state (h : next.record.state = n.record.state) : n.Entry next := by
  intro live
  rw [h] at live
  refine .inl ⟨live, fun serves => ?_⟩
  rwa [ReplicaRecord.InService, h] at serves

theorem Moves.of_waiting {task : Task} (waiting : next.Waiting fits task) (entry : n.Entry next)
    (hown : next.runtime.present = true →
      n.Carries next.record.assignment ∨ brought next.record.assignment)
    (htask : ∀ assignment, task.assignment? = some assignment →
      n.Carries assignment ∨ brought assignment) : n.Moves fits brought next where
  placed := .waits task waiting
  carries := by
    rintro assignment (⟨hpresent, rfl⟩ | ⟨held, hmem, hheld⟩)
    · exact hown hpresent
    · rw [waiting.tasks, List.mem_singleton] at hmem
      subst hmem
      exact htask assignment hheld
  entry := entry

theorem Stands.moves (settled : n.place.Settled) (h : next.Stands n.place) :
    n.Moves fits brought next where
  placed := by
    have here := h.here
    refine .rests (here ▸ settled) ?_
    rw [here]
    exact h
  carries := by
    intro assignment held
    have ⟨hpresent, hassignment⟩ := held.of_quiet h.tasks
    have here : next.runtime.present = n.runtime.present := congrArg Place.present h.here
    have same : next.record.assignment = n.record.assignment := congrArg Place.assignment h.here
    exact .inl (.inl ⟨here ▸ hpresent, same ▸ hassignment⟩)
  entry := .of_state (congrArg Place.state h.here)

theorem Placed.beside (h : n.Placed fits) (beside : n.Beside next) : n.Moves fits brought next := by
  cases h with
  | rests settled stands =>
    exact Stands.moves settled (stands.congr beside.place beside.record beside.tasks)
  | waits task waiting =>
    have hpresent : next.runtime.present = n.runtime.present := congrArg Place.present beside.place
    have hclosing : next.closing = n.closing := congrArg Place.closing beside.place
    refine ⟨.waits task ⟨?_, ?_, ?_, ?_⟩, ?_, .of_state (congrArg Place.state beside.place)⟩
    · exact beside.tasks.trans waiting.tasks
    · rw [beside.place]
      exact waiting.waits
    · rw [hpresent, beside.record]
      exact waiting.absent
    · exact hclosing.trans waiting.closing
    · intro assignment held
      exact .inl (held.congr beside.place beside.tasks)

theorem Placed.idle (h : n.Placed fits) (hidle : n.tasks = []) :
    n.place.Settled ∧ n.Stands n.place := by
  cases h with
  | rests settled stands => exact ⟨settled, stands⟩
  | waits task waiting =>
    have := waiting.tasks
    rw [hidle] at this
    cases this

theorem moves_given (entry : n.Entry next) (hpresent : next.runtime.present = true)
    (hstate : next.record.state ≠ .removed) (hclosing : next.closing = false)
    (htasks : ∀ task ∈ next.tasks, task.Quiet next.place)
    (hsource : n.Carries next.record.assignment ∨ brought next.record.assignment) :
    n.Moves fits brought next where
  placed := by
    refine .rests ⟨hstate, ?_⟩ ⟨rfl, ?_, htasks⟩
    · intro h
      exact absurd h (by simp [place, hclosing])
    · intro habsent
      exact absurd habsent (by simp [hpresent])
  carries := by
    intro assignment held
    obtain ⟨-, rfl⟩ := held.of_quiet htasks
    exact hsource
  entry := entry

theorem moves_removed (hpresent : next.runtime.present = false) (hrecord : next.record = {})
    (htasks : next.tasks = []) : n.Moves fits brought next where
  placed := by
    refine .rests ⟨?_, fun _ => hpresent⟩ ⟨rfl, fun _ => hrecord, ?_⟩
    · simp [place, hrecord]
    · simp [htasks]
  carries := by
    rintro assignment (⟨held, -⟩ | ⟨task, hmem, -⟩)
    · exact absurd held (by simp [hpresent])
    · simp [htasks] at hmem
  entry := by
    intro _
    rw [hrecord, htasks]
    exact .inr ⟨.removed, List.forall_mem_nil _⟩

theorem moves_persistThen {record : ReplicaRecord} {rest : List Task}
    (entry : next.record.state = n.record.state ∨ (next.record.InService → n.record.InService) ∧
        n.record.state ≠ .recovered ∨
      n.Enters next.record ∧ ∀ task ∈ rest, task = .ensureUpstreamCommitReplay)
    (hpresent : next.runtime.present = true) (hstate : next.record.state ≠ .removed)
    (hclosing : next.closing = false) (htasks : next.tasks = [])
    (hrest : ∀ task ∈ rest, task.Quiet next.place)
    (hsource : n.Carries next.record.assignment ∨ brought next.record.assignment) :
    n.Moves fits brought (next.persistThen record rest) := by
  have enters {middle : NodeSlot} (same : middle.record = next.record)
      (tasks : ∀ task ∈ middle.tasks, task ∈ rest) : n.Entry middle := by
    rcases entry with kept | ⟨serves, live⟩ | ⟨enters, only⟩
    · exact .of_state (same ▸ kept)
    · exact fun _ => .inl ⟨live, same ▸ serves⟩
    · exact fun _ => .inr ⟨same ▸ enters, fun task hmem => only task (tasks task hmem)⟩
  rw [persistThen]
  split
  · exact moves_given (enters rfl (by simp [htasks])) hpresent hstate hclosing (by simp [htasks])
      hsource
  · have tasks (task : Task) (hmem : task ∈ ((next.persistReplica record).andThen rest).tasks) :
        task ∈ rest := by
      simpa [andThen, persistReplica, htasks] using hmem
    exact moves_given (enters rfl tasks) hpresent hstate hclosing
      (fun task hmem => hrest task (tasks task hmem)) hsource

theorem moves_finishJoin {middle : NodeSlot} (highest : Nat) (hclosing : middle.closing = false)
    (htasks : middle.tasks = []) (hsource : n.Carries assignment ∨ brought assignment) :
    n.Moves fits brought (middle.finishJoin assignment highest) := by
  rw [finishJoin]
  split
  · exact moves_removed rfl rfl htasks
  · refine moves_given ?_ rfl ?_ hclosing ?_ hsource
    · exact fun _ => .inr ⟨.joined assignment highest, by simp [setRecord, persistReplica, htasks]⟩
    · simp [record, setRecord, persistReplica, joinedRecord]
    · simp [setRecord, persistReplica, htasks]

structure Idle (n : NodeSlot) : Prop where
  settled : n.place.Settled
  stands : n.Stands n.place
  tasks : n.tasks = []
  closing : n.closing = false

namespace Idle

theorem unchanged (h : n.Idle) : n.Moves fits brought n :=
  h.stands.moves h.settled

theorem waits {task : Task} (h : n.Idle) (hplace : next.place = n.place)
    (hrecord : next.record = n.record) (htasks : next.tasks = task :: n.tasks)
    (hwaits : task.Waits fits n.place)
    (htask : ∀ assignment, task.assignment? = some assignment → brought assignment) :
    n.Moves fits brought next := by
  have hpresent : next.runtime.present = n.runtime.present := congrArg Place.present hplace
  have hclosing : next.closing = n.closing := congrArg Place.closing hplace
  have waiting : next.Waiting fits task := by
    refine ⟨?_, ?_, ?_, ?_⟩
    · rw [htasks, h.tasks]
    · rw [hplace]
      exact hwaits
    · rw [hpresent, hrecord]
      exact h.stands.absent
    · exact hclosing.trans h.closing
  apply Moves.of_waiting waiting (.of_state (congrArg Place.state hplace))
  · intro held
    exact .inl (.inl ⟨hpresent ▸ held, by rw [hrecord]⟩)
  · intro assignment hassignment
    exact .inr (htask assignment hassignment)

/-! ## Commands -/

theorem addReplicaAsTail (assignment : ReplicaAssignment) (h : n.Idle) :
    n.Moves fits (n.Adopts (.event (.command (.addReplicaAsTail assignment))))
      (n.addReplicaAsTail assignment) := by
  by_cases hpresent : n.runtime.present = true
  · rw [NodeSlot.addReplicaAsTail, if_pos hpresent]
    exact h.unchanged
  have adopted : n.Adopts (.event (.command (.addReplicaAsTail assignment))) assignment :=
    ⟨by simpa using hpresent, rfl⟩
  simp only [NodeSlot.addReplicaAsTail, if_neg hpresent]
  repeat' split
  · exact h.unchanged
  · exact h.unchanged
  · exact moves_finishJoin _ h.closing h.tasks (.inr adopted)
  · apply Moves.of_waiting
    · refine ⟨congrArg _ h.tasks, ⟨rfl, rfl⟩, ?_, h.closing⟩
      simp [andThen, setRecord]
    · intro _
      have empty := h.stands.absent (by simpa using hpresent)
      refine .inl ⟨by simp [empty], fun serves => ?_⟩
      simp [ReplicaRecord.InService, record, andThen, setRecord, joiningRecord] at serves
    · intro _
      exact .inr adopted
    · rintro given hgiven
      cases hgiven
      exact .inr adopted

theorem activateReplicaReady (h : n.Idle) : n.Moves fits brought n.activateReplicaReady := by
  simp only [NodeSlot.activateReplicaReady]
  split
  · exact h.unchanged
  split
  · exact Stands.moves h.settled (h.stands.congr rfl rfl rfl)
  · rename_i hrefused
    simp only [Bool.or_eq_true, Bool.not_eq_true', decide_eq_true_eq, not_or, Bool.not_eq_false,
      not_not] at hrefused
    apply moves_persistThen
    · have caught : n.record.state = .catchingUp := hrefused.2
      exact .inr (.inl ⟨fun _ => .inl caught, by simp [caught]⟩)
    · rfl
    · simp [record, setRecord]
    · exact h.closing
    · exact h.tasks
    · simp [Task.Quiet]
    · exact .inl (.inl ⟨hrefused.1, rfl⟩)

theorem markReplicaLeaving (h : n.Idle) : n.Moves fits brought n.markReplicaLeaving := by
  simp only [NodeSlot.markReplicaLeaving]
  split
  · exact h.unchanged
  · rename_i hrefused
    simp only [Bool.or_eq_true, Bool.not_eq_true', decide_eq_true_eq, not_or, Bool.not_eq_false,
      not_not] at hrefused
    apply moves_persistThen
    · exact .inr (.inl ⟨fun _ => .inr (.inl hrefused.2), by simp [hrefused.2]⟩)
    · rfl
    · simp [record, setRecord]
    · exact h.closing
    · exact h.tasks
    · exact List.forall_mem_nil _
    · exact .inl (.inl ⟨hrefused.1, rfl⟩)

theorem removeReplica (h : n.Idle) : n.Moves fits brought n.removeReplica := by
  simp only [NodeSlot.removeReplica]
  repeat' split
  · exact h.unchanged
  · rename_i hremoved
    exact absurd hremoved h.settled.state
  · exact h.unchanged
  · exact Stands.moves h.settled (h.stands.congr rfl rfl rfl)
  · exact moves_removed rfl rfl h.tasks

theorem dropRecoveredReplica (h : n.Idle) : n.Moves fits brought n.dropRecoveredReplica := by
  simp only [NodeSlot.dropRecoveredReplica]
  split
  · exact h.unchanged
  · exact moves_removed rfl rfl h.tasks

theorem updateChainPeers (assignment : ReplicaAssignment) (h : n.Idle) :
    n.Moves fits (n.Adopts (.event (.command (.updateChainPeers assignment))))
      (n.updateChainPeers assignment) := by
  have hassignment := reassigned_place n.record assignment
  have same := (reassigned_counters n.record assignment).1
  have hstate : (reassigned n.record assignment).state ≠ .removed := same ▸ h.settled.state
  simp only [NodeSlot.updateChainPeers]
  split
  · exact h.unchanged
  have owns : (n.setRecord (reassigned n.record assignment)).place.Owns
      (reassigned n.record assignment) :=
    ⟨rfl, rfl, Bool.noConfusion⟩
  have quiet : ∀ task ∈ afterUpdate n.record.assignment (reassigned n.record assignment),
      task.Quiet (n.setRecord (reassigned n.record assignment)).place := by
    rw [afterUpdate]
    repeat' split
    all_goals simp [Task.Quiet, owns]
  exact moves_persistThen (.inl same) rfl hstate h.closing h.tasks quiet (.inr hassignment.symm)

theorem recoverReplica (assignment : ReplicaAssignment) (sourceNodeID : String) (h : n.Idle)
    (hfits : n.Adopts (.event (.command (.recoverReplica assignment sourceNodeID))) assignment →
      fits n.place assignment) :
    n.Moves fits (n.Adopts (.event (.command (.recoverReplica assignment sourceNodeID))))
      (n.recoverReplica assignment sourceNodeID) := by
  simp only [NodeSlot.recoverReplica]
  split
  · exact h.unchanged
  rename_i hrefused
  split
  · exact h.unchanged
  · have hstate : n.runtime.present = true → n.record.state = .recovered := by
      intro hpresent
      simpa [hpresent] using hrefused
    refine h.waits rfl rfl rfl ⟨h.settled, hstate, hfits ⟨hstate, rfl⟩⟩ ?_
    rintro given hgiven
    cases hgiven
    exact ⟨hstate, rfl⟩

end Idle

theorem moves_finishResume {middle : NodeSlot} {committed : Nat} (same : middle.record = n.record)
    (recovered : n.record.state = .recovered)
    (grown : n.record.highestCommittedSequence ≤ committed) (htasks : middle.tasks = [])
    (hclosing : middle.closing = false) (hsource : n.Carries assignment ∨ brought assignment) :
    n.Moves fits brought (middle.finishResume assignment committed) := by
  apply moves_persistThen
  · refine .inr (.inr ⟨?_, List.forall_mem_singleton.mpr rfl⟩)
    have enters : n.Enters (resumedRecord n.record assignment committed) :=
      .resumed assignment recovered grown
    rwa [← same] at enters
  · rfl
  · simp [record, setRecord, resumedRecord]
  · exact hclosing
  · exact htasks
  · simp [Task.Quiet]
  · exact hsource

theorem Idle.resumeRecoveredReplica (assignment : ReplicaAssignment) (h : n.Idle)
    (hfits : n.Adopts (.event (.command (.resumeRecoveredReplica assignment))) assignment →
      fits n.place assignment) :
    n.Moves fits (n.Adopts (.event (.command (.resumeRecoveredReplica assignment))))
      (n.resumeRecoveredReplica assignment) := by
  simp only [NodeSlot.resumeRecoveredReplica]
  split
  · exact h.unchanged
  rename_i hrefused
  have hstate : n.record.state = .recovered := by
    simp only [Bool.or_eq_true, decide_eq_true_eq, not_or, not_not] at hrefused
    exact hrefused.1.2
  have adopted : n.Adopts (.event (.command (.resumeRecoveredReplica assignment))) assignment :=
    ⟨hstate, rfl⟩
  repeat' split
  · exact moves_finishResume rfl hstate (le_max_left _ _) h.tasks h.closing (.inr adopted)
  · refine h.waits rfl rfl rfl ⟨h.settled, hstate, hfits adopted⟩ ?_
    rintro given hgiven
    cases hgiven
    exact adopted
  · exact moves_finishResume rfl hstate le_rfl h.tasks h.closing (.inr adopted)

theorem Idle.runCommand {command : Command} (h : n.Idle)
    (other : NodeInput.Ordinary (.event (.command command)) = false)
    (hfits : ∀ assignment, n.Adopts (.event (.command command)) assignment →
      fits n.place assignment) :
    n.Moves fits (n.Adopts (.event (.command command))) (n.runCommand command) := by
  cases command with
  | addReplicaAsTail assignment => exact h.addReplicaAsTail assignment
  | prepareActivation => cases other
  | activateReplicaReady => exact h.activateReplicaReady
  | markReplicaLeaving => exact h.markReplicaLeaving
  | removeReplica => exact h.removeReplica
  | updateChainPeers assignment => exact h.updateChainPeers assignment
  | resumeRecoveredReplica assignment => exact h.resumeRecoveredReplica assignment (hfits assignment)
  | recoverReplica assignment sourceNodeID =>
    exact h.recoverReplica assignment sourceNodeID (hfits assignment)
  | dropRecoveredReplica => exact h.dropRecoveredReplica

/-! ## Replies -/

namespace Waiting

variable {target : String} {task : Task} {held : Option (Snapshot × Nat)}

theorem carries (h : n.Waiting fits task) (htask : task.assignment? = some assignment) :
    n.Carries assignment :=
  .inr ⟨task, by simp [h.tasks], htask⟩

theorem joinFetched (reply : Option (Snapshot × Nat))
    (h : n.Waiting fits (.awaitSnapshot (.join assignment) target held)) :
    n.Moves fits brought ({ n with tasks := [] }.joinFetched assignment reply) := by
  cases reply with
  | none => exact moves_removed rfl rfl rfl
  | some reply => exact moves_finishJoin _ h.closing rfl (.inl (h.carries rfl))

theorem popped (h : n.Waiting fits task) : { n with tasks := [] }.Stands n.place :=
  ⟨rfl, h.absent, by simp⟩

theorem recoverFetched (reply : Option (Snapshot × Nat))
    (h : n.Waiting fits (.awaitSnapshot (.recover assignment) target held)) :
    n.Moves fits brought ({ n with tasks := [] }.recoverFetched assignment reply) := by
  cases reply with
  | none => exact h.popped.moves h.waits.1
  | some reply =>
    apply moves_persistThen
    · exact .inr (.inr ⟨.rebuilt assignment reply.2, List.forall_mem_nil _⟩)
    · rfl
    · simp [record, setRecord, allowSlot, rebuiltRecord]
    · exact h.closing
    · rfl
    · exact List.forall_mem_nil _
    · exact .inl (h.carries rfl)

theorem resumeFetched {held : Option Nat} (reply : Option Nat)
    (h : n.Waiting fits (.awaitTail (.resume assignment) target held)) :
    n.Moves fits brought ({ n with tasks := [] }.resumeFetched assignment reply) := by
  have source : n.Carries assignment ∨ brought assignment := .inl (h.carries rfl)
  have recovered := h.waits.2.1
  cases reply with
  | none => exact moves_finishResume rfl recovered le_rfl rfl h.closing source
  | some reply => exact moves_finishResume rfl recovered (le_max_left _ _) rfl h.closing source

theorem snapshotReplied {use : SnapshotUse} (reply : Option (Snapshot × Nat))
    (h : n.Waiting fits (.awaitSnapshot use target held)) :
    n.Moves fits brought ({ n with tasks := [] }.snapshotReplied use reply) := by
  cases use with
  | join assignment => exact h.joinFetched reply
  | activation plan => exact h.waits.elim
  | recover assignment => exact h.recoverFetched reply

theorem tailReplied {use : TailUse} {held : Option Nat} (reply : Option Nat)
    (h : n.Waiting fits (.awaitTail use target held)) :
    n.Moves fits brought ({ n with tasks := [] }.tailReplied use reply) := by
  cases use with
  | read read => exact h.waits.elim
  | resume assignment => exact h.resumeFetched reply

variable (h : n.Waiting fits task)

include h

theorem runReply {succeeded : Bool}
    (hrun : { n with tasks := [] }.runReply succeeded task = some next) :
    n.Moves fits brought next := by
  simp only [NodeSlot.runReply] at hrun
  split at hrun
  · split at hrun
    · obtain ⟨reply, -, rfl⟩ := Option.map_eq_some_iff.mp hrun
      exact h.snapshotReplied _
    · cases hrun
      exact h.snapshotReplied _
  · split at hrun
    · obtain ⟨reply, -, rfl⟩ := Option.map_eq_some_iff.mp hrun
      exact h.tailReplied _
    · cases hrun
      exact h.tailReplied _
  · cases hrun

theorem served {answered : Task} (hwaits : answered.Waits fits n.place)
    (hsame : answered.assignment? = task.assignment?) :
    n.Moves fits brought { n with tasks := [answered] } := by
  have answering : { n with tasks := [answered] }.Waiting fits answered :=
    ⟨rfl, hwaits, h.absent, h.closing⟩
  have entry : n.Entry { n with tasks := [answered] } := .of_state rfl
  apply Moves.of_waiting answering entry
  · intro hpresent
    exact .inl (.inl ⟨hpresent, rfl⟩)
  · intro assignment hassignment
    exact .inl (h.carries (hsame ▸ hassignment))

theorem not_idle : n.tasks ≠ [] := by
  rw [h.tasks]
  exact List.cons_ne_nil _ _

theorem not_whenIdle {started : NodeSlot} : n.whenIdle started ≠ some next := by
  intro hidle
  simp only [NodeSlot.whenIdle, Option.ite_none_right_eq_some] at hidle
  exact h.not_idle hidle.1

theorem not_whenOpen {started : NodeSlot} : n.whenOpen started ≠ some next :=
  fun hopen => h.not_idle (n.idle_of_whenOpen hopen)

/-- An owner that waits takes nothing up but the reply. -/
theorem step {event : NodeEvent} (ordinary : NodeInput.Ordinary (.event event) = true)
    (hstep : n.step event = some next) : n.Moves fits brought next := by
  have placed : n.Placed fits := .waits task h
  cases event with
  | submitWrite req | clientGet call req =>
    simp only [NodeSlot.step, Option.ite_none_left_eq_some] at hstep
    exact absurd hstep.2 h.not_whenOpen
  | releaseClientWrite | drain => exact absurd hstep h.not_whenOpen
  | completion index =>
    obtain ⟨completion, -, hstep⟩ := Option.bind_eq_some_iff.mp hstep
    exact absurd hstep h.not_whenIdle
  | callReturned index err =>
    obtain ⟨call, -, hstep⟩ := Option.bind_eq_some_iff.mp hstep
    exact absurd hstep h.not_whenIdle
  | command command => exact absurd hstep h.not_whenOpen
  | evict => cases ordinary
  | task =>
    simp only [NodeSlot.step, h.tasks] at hstep
    have hwaits := h.waits
    cases task <;> cases hstep <;> exact absurd hwaits (by simp [Task.Waits])
  | replied succeeded =>
    simp only [NodeSlot.step, h.tasks] at hstep
    exact h.runReply hstep
  | flushPrepare err => exact placed.beside (.flushPrepare hstep)
  | flushCommitRange chainVersion count err => exact placed.beside (.flushCommitRange hstep)
  | flushConfirm chainVersion count err => exact placed.beside (.flushConfirm hstep)
  | acceptSubmitted count =>
    cases hstep
    exact placed.beside ⟨rfl, rfl, rfl⟩
  | materialize =>
    cases hstep
    exact placed.beside (.materialize n)
  | setLoad load =>
    cases hstep
    exact placed.beside ⟨rfl, rfl, rfl⟩
  | readyReported accepted =>
    cases hstep
    exact placed.beside (.readyReported n accepted)

theorem take {input : NodeInput} (ordinary : input.Ordinary = true)
    (htake : n.take input = some next) : n.Moves fits brought next := by
  cases input with
  | event event => exact h.step ordinary htake
  | message message => exact absurd htake h.not_whenOpen
  | snapshot reply =>
    have hwaits := h.waits
    simp only [NodeSlot.take, h.tasks] at htake
    split at htake
    · rename_i use source rest htasks
      cases htasks
      cases htake
      cases use <;> exact h.served hwaits rfl
    · cases htake
  | catchup index reply =>
    simp only [NodeSlot.take] at htake
    split at htake
    · cases htake
      exact Placed.beside (.waits task h) ⟨rfl, rfl, rfl⟩
    · cases htake
  | tail committed =>
    have hwaits := h.waits
    simp only [NodeSlot.take, h.tasks] at htake
    split at htake
    · rename_i use source rest htasks
      cases htasks
      cases htake
      cases use <;> exact h.served hwaits rfl
    · cases htake
  | restart => cases ordinary

end Waiting

/-! ## Steps of a node -/

namespace Placed

theorem restart : n.Moves fits (n.Adopts .restart) n.restart := by
  simp only [NodeSlot.restart]
  split
  · exact moves_removed rfl rfl rfl
  · rename_i persisted hlocal
    obtain ⟨hassignment, hstate⟩ := openReplica_place persisted n.backend n.journal
    apply moves_given
    · intro live
      exact absurd hstate live
    · rfl
    · simp [record, hstate]
    · rfl
    · exact List.forall_mem_nil _
    · exact .inr ⟨persisted, hlocal, hassignment.symm⟩

/-- A node gets no assignment but from a command it takes or from its local state store. -/
theorem take {input : NodeInput} (h : n.Placed fits)
    (hfits : ∀ assignment, n.Adopts input assignment → fits n.place assignment)
    (htake : n.take input = some next) : n.Moves fits (n.Adopts input) next := by
  cases ordinary : input.Ordinary with
  | true =>
    cases h with
    | rests settled stands => exact (stands.take ordinary htake).moves settled
    | waits task waiting => exact waiting.take ordinary htake
  | false =>
    cases input with
    | event event =>
      cases event with
      | command command =>
        have hidle := n.idle_of_whenOpen htake
        simp only [NodeSlot.take, NodeSlot.step, NodeSlot.whenOpen, NodeSlot.whenIdle,
          Option.ite_none_left_eq_some, Option.ite_none_right_eq_some, Option.some.injEq,
          Bool.not_eq_true] at htake
        obtain ⟨hclosing, -, rfl⟩ := htake
        obtain ⟨settled, stands⟩ := h.idle hidle
        have idle : n.Idle := ⟨settled, stands, hidle, hclosing⟩
        exact idle.runCommand ordinary hfits
      | evict =>
        simp only [NodeSlot.take, NodeSlot.step, NodeSlot.whenIdle, Option.ite_none_right_eq_some,
          Option.some.injEq] at htake
        obtain ⟨-, -, rfl⟩ := htake
        exact moves_removed rfl rfl rfl
      | _ => cases ordinary
    | restart =>
      cases htake
      exact restart
    | _ => cases ordinary

end Placed

end NodeSlot

/-! ## All nodes -/

namespace Cluster

variable {resolve : String → String} {cluster next : Cluster}

def Adopts (cluster : Cluster) (id : String) : Action → ReplicaAssignment → Prop
  | .node other event, assignment =>
    other = id ∧ (cluster.nodes id).Adopts (.event event) assignment
  | .restart other, assignment => other = id ∧ (cluster.nodes id).Adopts .restart assignment
  | _, _ => False

def Placed (fits : Place → ReplicaAssignment → Prop) (cluster : Cluster) : Prop :=
  ∀ id, (cluster.nodes id).Placed fits

theorem initial_placed (config : String → NodeConfig) : (initial config).Placed fits := by
  intro id
  have moves : ((initial config).nodes id).Moves fits (fun _ => False)
      ((initial config).nodes id) :=
    NodeSlot.moves_removed rfl rfl rfl
  exact moves.placed

theorem move_moves {id : String} {n : NodeSlot} {brought : ReplicaAssignment → Prop}
    (h : cluster.Placed fits) (moved : (cluster.nodes id).Moves fits brought n) (other : String) :
    (cluster.nodes other).Moves fits (fun assignment => id = other ∧ brought assignment)
      ((cluster.move id n).nodes other) := by
  by_cases heq : other = id
  · subst heq
    have sent : n.Beside { n with outbox := [] } := ⟨rfl, rfl, rfl⟩
    simp only [move, Function.update_self]
    have beside : n.Moves fits brought { n with outbox := [] } := moved.placed.beside sent
    refine ⟨beside.placed, ?_, moved.entry⟩
    intro assignment carried
    rcases moved.carries assignment (carried.congr rfl rfl) with held | hbrought
    · exact .inl held
    · exact .inr ⟨trivial, hbrought⟩
  · simp only [move, Function.update_of_ne heq]
    exact ⟨h other, fun _ held => .inl held, .of_state rfl⟩

theorem step_moves {action : Action} (h : cluster.Placed fits)
    (hfits : ∀ id assignment, cluster.Adopts id action assignment →
      fits (cluster.nodes id).place assignment)
    (hstep : cluster.step resolve action = some next) (other : String) :
    (cluster.nodes other).Moves fits (cluster.Adopts other action) (next.nodes other) := by
  rcases step_takes hstep with ⟨-, hnodes⟩ | ⟨id, input, taken, hands, htake, rfl⟩
  · rw [hnodes]
    exact ⟨h other, fun _ held => .inl held, .of_state rfl⟩
  -- Every action but an event of the node and its restart brings nothing.
  have hbrought : ∀ assignment,
      (cluster.nodes id).Adopts input assignment → cluster.Adopts id action assignment := by
    intro assignment adopted
    cases hands with
    | event | restart => exact ⟨rfl, adopted⟩
    | _ => exact adopted.elim
  have moved := (h id).take (fun assignment adopted =>
    hfits id assignment (hbrought assignment adopted)) htake
  have moves := move_moves h moved other
  refine ⟨moves.placed, fun assignment carried => ?_, moves.entry⟩
  rcases moves.carries assignment carried with held | ⟨rfl, adopted⟩
  · exact .inl held
  · exact .inr (hbrought assignment adopted)

end Cluster

end Craq.Storage
