import Craq.Storage.Moves

/-! # Client writes on their way to the owner

`HandleClientPut` and `HandleClientDelete` check a write against the published record of the
replica.  The owner takes the write from its mailbox later and looks at the state and the role of
the replica once more, but not at its chain version.
-/

namespace Craq.Storage

open Lib (Reaches run guarded)

structure ClientWrite where
  expectedChainVersion : Nat
  req : SubmitRequest
deriving DecidableEq, Repr

structure Service where
  cluster : Cluster
  -- Writes that have passed the check of their node and wait for the owner of the slot.
  checked : List (String × ClientWrite) := []
  -- Calls that were answered by the check.
  refused : SequenceMap Error := ∅

inductive ServiceAction where
  | check (id : String) (write : ClientWrite)
  | submit (index : Nat)
  | cluster (action : Action)
deriving DecidableEq

namespace Service

variable {resolve : String → String} {service next : Service}

def initial (config : String → NodeConfig) : Service where
  cluster := .initial config

/-- The writes that still wait at their nodes: a crash takes those of its node with it. -/
def waitingAfter (checked : List (String × ClientWrite)) : Action → List (String × ClientWrite)
  | .restart id => checked.filter (·.1 ≠ id)
  | _ => checked

def submits : Action → Bool
  | .node _ (.submitWrite _) => true
  | _ => false

-- A write reaches an owner only through the check.
def step (resolve : String → String) (service : Service) : ServiceAction → Option Service
  | .check id write =>
    match (service.cluster.nodes id).validateClientWrite write.expectedChainVersion with
    | .error err => some { service with refused := service.refused.insert write.req.call err }
    | .ok () => some { service with checked := service.checked ++ [(id, write)] }
  | .submit index => do
    let waiting ← service.checked[index]?
    let cluster ← service.cluster.step resolve (.node waiting.1 (.submitWrite waiting.2.req))
    return { service with cluster, checked := service.checked.eraseIdx index }
  | .cluster action =>
    if submits action then none
    else
      (service.cluster.step resolve action).map fun cluster =>
        { service with cluster, checked := waitingAfter service.checked action }

theorem waitingAfter_sublist (checked : List (String × ClientWrite)) (action : Action) :
    (waitingAfter checked action).Sublist checked := by
  cases action with
  | restart id => exact List.filter_sublist
  | _ => exact .refl _

/-! ## What a step does -/

/-- A step checks a write, hands one to its owner or leaves all to the cluster. -/
inductive Effect (resolve : String → String) (service next : Service) : ServiceAction → Prop where
  | refused (id : String) (write : ClientWrite) (err : Error)
      (refuses : (service.cluster.nodes id).validateClientWrite write.expectedChainVersion =
        .error err)
      (result : next = { service with refused := service.refused.insert write.req.call err }) :
      Effect resolve service next (.check id write)
  | checked (id : String) (write : ClientWrite)
      (passes : (service.cluster.nodes id).validateClientWrite write.expectedChainVersion = .ok ())
      (result : next = { service with checked := service.checked ++ [(id, write)] }) :
      Effect resolve service next (.check id write)
  | submitted (index : Nat) (id : String) (write : ClientWrite)
      (waiting : service.checked[index]? = some (id, write))
      (moved : service.cluster.step resolve (.node id (.submitWrite write.req)) =
        some next.cluster)
      (left : next.checked = service.checked.eraseIdx index)
      (refused : next.refused = service.refused) :
      Effect resolve service next (.submit index)
  | moved (action : Action) (unsubmitted : submits action = false)
      (moved : service.cluster.step resolve action = some next.cluster)
      (left : next.checked = waitingAfter service.checked action)
      (refused : next.refused = service.refused) :
      Effect resolve service next (.cluster action)

theorem step_effect {action : ServiceAction} (hstep : service.step resolve action = some next) :
    Effect resolve service next action := by
  cases action with
  | check id write =>
    simp only [step] at hstep
    split at hstep
    · rename_i err refuses
      exact .refused id write err refuses (Option.some.inj hstep).symm
    · rename_i passes
      exact .checked id write passes (Option.some.inj hstep).symm
  | submit index =>
    obtain ⟨⟨id, write⟩, waiting, hstep⟩ := Option.bind_eq_some_iff.mp hstep
    obtain ⟨cluster, moved, hstep⟩ := Option.bind_eq_some_iff.mp hstep
    obtain rfl := Option.some.inj hstep
    exact .submitted index id write waiting moved rfl rfl
  | cluster action =>
    simp only [step, Option.ite_none_left_eq_some, Bool.not_eq_true] at hstep
    obtain ⟨unsubmitted, hstep⟩ := hstep
    obtain ⟨cluster, moved, rfl⟩ := Option.map_eq_some_iff.mp hstep
    exact .moved action unsubmitted moved rfl rfl

end Service

/-! ## The version a write is sequenced under -/

def Command.assignment? : Command → Option ReplicaAssignment
  | .addReplicaAsTail assignment => some assignment
  | .updateChainPeers assignment => some assignment
  | .resumeRecoveredReplica assignment => some assignment
  | .recoverReplica assignment _ => some assignment
  | _ => none

variable {n : NodeSlot}

theorem NodeSlot.Adopts.command {event : NodeEvent} {assignment : ReplicaAssignment}
    (h : n.Adopts (.event event) assignment) :
    ∃ command, event = .command command ∧ command.assignment? = some assignment := by
  cases event with
  | command command =>
    refine ⟨command, rfl, ?_⟩
    cases command with
    | addReplicaAsTail given => exact congrArg some h.2
    | updateChainPeers given => exact congrArg some h
    | resumeRecoveredReplica given | recoverReplica given sourceNodeID => exact congrArg some h.2
    | _ => exact h.elim
  | _ => exact h.elim

theorem NodeSlot.Placed.carries_active {fits : Place → ReplicaAssignment → Prop}
    {assignment : ReplicaAssignment} (h : n.Placed fits) (hpresent : n.runtime.present = true)
    (hstate : n.record.state = .active) (carried : n.Carries assignment) :
    n.record.assignment = assignment := by
  rcases carried with ⟨-, heq⟩ | ⟨task, hmem, htask⟩
  · exact heq
  cases h with
  | rests settled stands =>
    rw [(stands.tasks task hmem).assignment?] at htask
    cases htask
  | waits waited waiting =>
    rw [waiting.tasks, List.mem_singleton] at hmem
    subst hmem
    have recovered : n.record.state ≠ .recovered := by simp [hstate]
    have hwaits := waiting.waits
    cases task with
    | awaitSnapshot use target reply =>
      cases use with
      | join given =>
        cases htask
        exact hwaits.2
      | activation plan => cases htask
      | recover given => exact absurd (hwaits.2.1 hpresent) recovered
    | awaitTail use target reply =>
      cases use with
      | read read => cases htask
      | resume given => exact absurd hwaits.2.1 recovered
    | _ => cases htask

/-- The node has an active replica that takes writes under the chain version. -/
structure NodeSlot.Serves (n : NodeSlot) (chainVersion : Nat) : Prop where
  present : n.runtime.present = true
  state : n.record.state = .active
  version : n.record.assignment.chainVersion = chainVersion
  role : n.record.assignment.role = .head ∨ n.record.assignment.role = .single

theorem NodeSlot.validateClientWrite_eq_ok {expectedChainVersion : Nat}
    (h : n.validateClientWrite expectedChainVersion = .ok ()) : n.Serves expectedChainVersion := by
  simp only [NodeSlot.validateClientWrite, Lib.ite_error_eq_ok] at h
  obtain ⟨hpresent, hstate, hversion, hrole, -⟩ := h
  refine ⟨by simpa using hpresent, not_not.mp hstate, not_not.mp hversion, ?_⟩
  by_contra hother
  exact hrole (not_or.mp hother)

/-- The owner looks at the state and the role again, and at whatever version the replica has. -/
theorem NodeSlot.handleSubmitWrite_waiting {req : SubmitRequest} {result : CommitResult}
    (h : (n.handleSubmitWrite req).2 = .waiting result) :
    n.Serves n.record.assignment.chainVersion := by
  rcases n.handleSubmitWrite_cases req with ⟨next, response, -, heq, hresponse⟩ | h
  · rw [heq] at h
    exact absurd h (hresponse result)
  · obtain ⟨current, accepts, -⟩ := h
    have hactive := accepts.active
    simp only [NodeSlot.activeRecord, Lib.ite_error_eq_ok] at hactive
    exact ⟨by simpa using hactive.1, not_not.mp hactive.2.2.1, rfl, accepts.role⟩

namespace Service

section

variable {resolve : String → String} {service next : Service} {id : String} {write : ClientWrite}

/-- While the write waits for its owner, no command reaches its node with an assignment of another
chain version. -/
def Undisturbed (id : String) (write : ClientWrite) (service : Service) : ServiceAction → Prop
  | .cluster (.node other (.command command)) =>
    (id, write) ∈ service.checked → other = id →
      ∀ assignment ∈ command.assignment?, assignment.chainVersion = write.expectedChainVersion
  | _ => True

/-- As long as the write waits, its node holds no assignment of another version. -/
structure Fenced (id : String) (write : ClientWrite) (service : Service) : Prop where
  placed : service.cluster.Placed fun _ _ => True
  version : (id, write) ∈ service.checked → ∀ assignment,
    (service.cluster.nodes id).Carries assignment →
      assignment.chainVersion = write.expectedChainVersion

theorem Fenced.initial (config : String → NodeConfig) : Fenced id write (initial config) where
  placed := Cluster.initial_placed config
  version := nofun

theorem Fenced.moved {action : Action} (h : Fenced id write service)
    (moved : service.cluster.step resolve action = some next.cluster)
    (left : (id, write) ∈ next.checked → (id, write) ∈ service.checked)
    (undisturbed : (id, write) ∈ next.checked → ∀ assignment,
      service.cluster.Adopts id action assignment →
        assignment.chainVersion = write.expectedChainVersion) :
    Fenced id write next := by
  have moves := Cluster.step_moves h.placed (fun _ _ _ => trivial) moved
  refine ⟨fun other => (moves other).placed, ?_⟩
  intro waiting assignment carried
  rcases (moves id).carries assignment carried with held | adopted
  · exact h.version (left waiting) assignment held
  · exact undisturbed waiting assignment adopted

/-- A write that passes the check meets its own version. -/
theorem Fenced.checked {other : String} {passed : ClientWrite} (h : Fenced id write service)
    (passes : (service.cluster.nodes other).validateClientWrite passed.expectedChainVersion =
      .ok ()) :
    Fenced id write { service with checked := service.checked ++ [(other, passed)] } := by
  refine ⟨h.placed, ?_⟩
  intro waiting assignment carried
  rcases List.mem_append.mp waiting with waiting | waiting
  · exact h.version waiting assignment carried
  · obtain ⟨rfl, rfl⟩ := Prod.mk.inj (List.mem_singleton.mp waiting)
    have serves := NodeSlot.validateClientWrite_eq_ok passes
    obtain rfl := (h.placed id).carries_active serves.present serves.state carried
    exact serves.version

theorem Fenced.step {action : ServiceAction} (h : Fenced id write service)
    (undisturbed : Undisturbed id write service action)
    (hstep : service.step resolve action = some next) : Fenced id write next := by
  cases step_effect hstep with
  | refused other passed err refuses result =>
    subst result
    exact ⟨h.placed, h.version⟩
  | checked other passed passes result =>
    subst result
    exact h.checked passes
  | submitted index other taken waiting moved left refused =>
    apply h.moved moved
    · intro hmem
      rw [left] at hmem
      exact List.mem_of_mem_eraseIdx hmem
    · intro _ assignment adopted
      exact adopted.2.elim
  | moved action unsubmitted moved left refused =>
    have held : (id, write) ∈ next.checked → (id, write) ∈ service.checked := fun hmem =>
      (waitingAfter_sublist _ action).mem (left ▸ hmem)
    apply h.moved moved held
    intro waiting assignment adopted
    cases action with
    | node other event =>
      obtain ⟨rfl, adopted⟩ := adopted
      obtain ⟨command, rfl, brought⟩ := adopted.command
      exact undisturbed (held waiting) rfl assignment brought
    | restart other =>
      -- The crash has taken the write with it.
      obtain ⟨rfl, -⟩ := adopted
      rw [left] at waiting
      simp [waitingAfter] at waiting
    | _ => exact adopted.elim

/-- A write that gets a sequence number gets it under the chain version its client expected, unless
a command with another version has overtaken it on the way to the owner. -/
theorem sequenced_under_expected_version {config : String → NodeConfig} {result : CommitResult}
    (hRun : Reaches (step resolve) (Undisturbed id write) (initial config) service)
    (hWaiting : (id, write) ∈ service.checked)
    (hSequenced : ((service.cluster.nodes id).handleSubmitWrite write.req).2 = .waiting result) :
    (service.cluster.nodes id).Serves write.expectedChainVersion := by
  have fenced : Fenced id write service := by
    apply hRun.invariant
    · exact .initial config
    · intro state action next inv undisturbed hstep
      exact inv.step undisturbed hstep
  have serves := NodeSlot.handleSubmitWrite_waiting hSequenced
  have version := fenced.version hWaiting _ (.inl ⟨serves.present, rfl⟩)
  exact ⟨serves.present, serves.state, version, serves.role⟩

end

/-! ## A write that is overtaken -/

def headJoins : List ServiceAction :=
  [.cluster (.node "a" (.command (.addReplicaAsTail headOfTwo))),
    .cluster (.node "a" (.command .prepareActivation)),
    .cluster (.node "a" (.readyReported true)),
    .cluster (.node "a" (.command .activateReplicaReady))] ++
    List.replicate 5 (.cluster (.node "a" .task))

def newTail (chainVersion : Nat) : ReplicaAssignment where
  chainVersion
  role := .head
  peers := { successorNodeID := "c", tailNodeID := "c" }

def retarget (chainVersion : Nat) : List ServiceAction :=
  .cluster (.node "a" (.command (.updateChainPeers (newTail chainVersion)))) ::
    List.replicate 3 (.cluster (.node "a" .task))

def putUnder (expectedChainVersion : Nat) : ClientWrite where
  expectedChainVersion
  req := { call := 0, kind := .put, key := "k", value := "x" }

/-- The write passes the check, and the owner is told of another tail before it takes the write. -/
def checkThenRetarget (chainVersion : Nat) : List ServiceAction :=
  headJoins ++ [.check "a" (putUnder 1)] ++ retarget chainVersion

def submittedAs (sequence : Nat) : CommitResult where
  sequence
  applied := true
  metadata := some { version := 1 }

instance (id : String) (write : ClientWrite) (service : Service) (action : ServiceAction) :
    Decidable (Undisturbed id write service action) := by
  rw [Undisturbed.eq_def]
  split <;> infer_instance

def undisturbedStep : Service → ServiceAction → Option Service :=
  guarded (fun service action => decide (Undisturbed "a" (putUnder 1) service action)) (step id)

theorem sameVersion_runs :
    (run undisturbedStep (checkThenRetarget 1) (initial plainConfig)).isSome = true := by
  decide +kernel

theorem retargeted_head_sequences :
    ∃ (service : Service) (result : CommitResult),
      ((service.cluster.nodes "a").handleSubmitWrite (putUnder 1).req).2 = .waiting result ∧
        (service.cluster.nodes "a").Serves 1 := by
  have reached : Reaches (step id) (Undisturbed "a" (putUnder 1)) (initial plainConfig) _ :=
    .of_checked sameVersion_runs
  have sequenced : (((Option.get _ sameVersion_runs).cluster.nodes "a").handleSubmitWrite
      (putUnder 1).req).2 = .waiting (submittedAs 1) := by
    decide +kernel
  refine ⟨_, _, sequenced, sequenced_under_expected_version reached ?_ sequenced⟩
  decide +kernel

theorem overtaken_runs :
    (run (step id) (checkThenRetarget 2) (initial plainConfig)).isSome = true := by
  decide +kernel

/-- The owner is idle when it takes the write, and the replica has version 2 by then. -/
theorem overtaken_write_sequenced :
    ¬∀ (resolve : String → String) (config : String → NodeConfig) (service : Service) (index : Nat)
      (id : String) (write : ClientWrite) (result : CommitResult),
      Reaches (step resolve) (fun _ _ => True) (initial config) service →
      service.checked[index]? = some (id, write) →
      (service.step resolve (.submit index)).isSome = true →
      ((service.cluster.nodes id).handleSubmitWrite write.req).2 = .waiting result →
        (service.cluster.nodes id).Serves write.expectedChainVersion := by
  intro h
  have reached : Reaches (step id) (fun _ _ => True) (initial plainConfig) _ :=
    .of_isSome overtaken_runs
  have serves := h id plainConfig _ 0 "a" (putUnder 1) (submittedAs 1) reached
    (by decide +kernel) (by decide +kernel) (by decide +kernel)
  have version := serves.version
  revert version
  decide +kernel

end Service

end Craq.Storage
