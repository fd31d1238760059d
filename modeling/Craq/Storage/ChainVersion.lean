import Craq.Storage.Moves

/-! # The chain version a node holds

A node takes the assignment of a peer update whatever its version is, and a recovered replica takes
the one it is resumed or recovered with.  A crash takes it back to the version its local state store
has, which is an older one if the write of the newer one has failed or was not made yet.  As long as
those commands arrive in the order of their versions and no crash meets such a store, the version a
replica holds does not go back.
-/

namespace Craq.Storage

open Lib (Reaches run guarded)

/-- The replica, if there is one, has no higher version than the assignment. -/
def Place.UpTo (place : Place) (assignment : ReplicaAssignment) : Prop :=
  place.present = true → place.assignment.chainVersion ≤ assignment.chainVersion

instance (place : Place) (assignment : ReplicaAssignment) : Decidable (place.UpTo assignment) :=
  inferInstanceAs (Decidable (_ → _))

/-- A replica that stays keeps its chain version or gets a higher one. -/
def NodeSlot.Keeps (n next : NodeSlot) : Prop :=
  next.runtime.present = true → n.place.UpTo next.record.assignment

/-- A command that gives a replica a new assignment does not bring an older one, and a crash finds no
older one in the local state store.  Commands the replica refuses because of its state may be as old
as they like. -/
def NodeSlot.Ordered (n : NodeSlot) : NodeInput → Prop
  | .event (.command (.updateChainPeers assignment)) => n.place.UpTo assignment
  | .event (.command (.resumeRecoveredReplica assignment)) =>
    n.record.state = .recovered → n.place.UpTo assignment
  | .event (.command (.recoverReplica assignment _)) =>
    n.record.state = .recovered → n.place.UpTo assignment
  | .restart => ∀ stored ∈ n.localState, n.place.UpTo stored.assignment
  | _ => True

namespace NodeSlot

variable {n next : NodeSlot} {assignment : ReplicaAssignment}

theorem Ordered.upTo {input : NodeInput} (ordered : n.Ordered input)
    (adopted : n.Adopts input assignment) : n.place.UpTo assignment := by
  rw [NodeSlot.Adopts.eq_def] at adopted
  split at adopted
  · intro hpresent
    exact absurd (adopted.1.symm.trans hpresent) (by decide)
  · cases adopted
    exact ordered
  · obtain ⟨hstate, rfl⟩ := adopted
    exact ordered hstate
  · obtain ⟨hstate, rfl⟩ := adopted
    exact fun hpresent => ordered (hstate hpresent) hpresent
  · obtain ⟨stored, hstored, rfl⟩ := adopted
    exact ordered stored hstored
  · exact adopted.elim

theorem Waiting.upTo {task : Task} (h : n.Waiting Place.UpTo task)
    (htask : task.assignment? = some assignment) : n.place.UpTo assignment := by
  have hwaits := h.waits
  cases task with
  | awaitSnapshot use target reply =>
    cases use with
    | join given =>
      cases htask
      exact fun _ => Nat.le_of_eq (congrArg _ hwaits.2)
    | activation plan => cases htask
    | recover given =>
      cases htask
      exact hwaits.2.2
  | awaitTail use target reply =>
    cases use with
    | read read => cases htask
    | resume given =>
      cases htask
      exact hwaits.2.2
  | _ => cases htask

theorem Placed.upTo (h : n.Placed Place.UpTo) (carried : n.Carries assignment) :
    n.place.UpTo assignment := by
  rcases carried with ⟨-, rfl⟩ | ⟨task, hmem, htask⟩
  · exact fun _ => le_rfl
  · cases h with
    | rests settled stands =>
      rw [(stands.tasks task hmem).assignment?] at htask
      cases htask
    | waits waited waiting =>
      rw [waiting.tasks, List.mem_singleton] at hmem
      subst hmem
      exact waiting.upTo htask

theorem Placed.keeps {brought : ReplicaAssignment → Prop} (h : n.Placed Place.UpTo)
    (moves : n.Moves Place.UpTo brought next)
    (hbrought : ∀ assignment, brought assignment → n.place.UpTo assignment) : n.Keeps next := by
  intro hpresent
  rcases moves.carries _ (.inl ⟨hpresent, rfl⟩) with carried | brought
  · exact h.upTo carried
  · exact hbrought _ brought

end NodeSlot

/-! ## All nodes -/

namespace Cluster

variable {resolve : String → String} {cluster next : Cluster}

/-- The chain version of the assignment the node holds for the slot. -/
def chainVersion (cluster : Cluster) (id : String) : Nat :=
  (cluster.nodes id).record.assignment.chainVersion

def HasReplica (cluster : Cluster) (id : String) : Prop :=
  (cluster.nodes id).runtime.present = true

/-- No node with a replica takes a command with an older assignment than it holds, or crashes with
an older one in its local state store. -/
def Ordered (cluster : Cluster) : Action → Prop
  | .node id event => (cluster.nodes id).Ordered (.event event)
  | .restart id => (cluster.nodes id).Ordered .restart
  | _ => True

theorem Ordered.upTo {action : Action} {id : String} {assignment : ReplicaAssignment}
    (ordered : cluster.Ordered action) (adopted : cluster.Adopts id action assignment) :
    (cluster.nodes id).place.UpTo assignment := by
  cases action with
  | node other event =>
    obtain ⟨rfl, adopted⟩ := adopted
    exact NodeSlot.Ordered.upTo ordered adopted
  | restart other =>
    obtain ⟨rfl, adopted⟩ := adopted
    have ordered : (cluster.nodes other).Ordered .restart := ordered
    exact ordered.upTo adopted
  | _ => exact adopted.elim

theorem step_keeps {action : Action} (h : cluster.Placed Place.UpTo)
    (ordered : cluster.Ordered action) (hstep : cluster.step resolve action = some next)
    (id : String) : (cluster.nodes id).Keeps (next.nodes id) :=
  (h id).keeps (step_moves h (fun _ _ => ordered.upTo) hstep id) fun _ => ordered.upTo

theorem reaches_placed {config : String → NodeConfig}
    (h : Reaches (step resolve) Ordered (.initial config) cluster) :
    cluster.Placed Place.UpTo := by
  refine h.invariant (initial_placed config) ?_
  intro state action next inv ordered hstep other
  exact (step_moves inv (fun _ _ => ordered.upTo) hstep other).placed

/-- From the creation of a replica to its removal its chain version never decreases, as long as no
command brings an older assignment than the one it replaces and no crash finds an older one stored. -/
theorem chainVersion_keeps {config : String → NodeConfig} {later : Cluster} (id : String)
    (hcluster : Reaches (step resolve) Ordered (.initial config) cluster)
    (hlater : Reaches (step resolve)
      (fun state action => state.Ordered action ∧ state.HasReplica id) cluster later)
    (hreplica : later.HasReplica id) : cluster.chainVersion id ≤ later.chainVersion id := by
  induction hlater with
  | refl => exact le_rfl
  | @tail state next action reached allowed hstep ih =>
    have hstate := hcluster.trans (reached.mono fun _ _ allowed => allowed.1)
    have kept := step_keeps (reaches_placed hstate) allowed.1 hstep id
    exact (ih allowed.2).trans (kept hreplica allowed.2)

/-! ## Runs -/

instance (n : NodeSlot) (input : NodeInput) : Decidable (n.Ordered input) := by
  rw [NodeSlot.Ordered.eq_def]
  split <;> infer_instance

instance (cluster : Cluster) (action : Action) : Decidable (cluster.Ordered action) := by
  rw [Ordered.eq_def]
  split <;> infer_instance

instance (cluster : Cluster) (id : String) : Decidable (cluster.HasReplica id) :=
  inferInstanceAs (Decidable (_ = _))

def joinAlone : List Action :=
  [.node "a" (.command (.addReplicaAsTail { chainVersion := 1, role := .single }))]

def headThenResumed : List Action :=
  [.node "a" (.command (.updateChainPeers { headOfTwo with chainVersion := 2 })), .restart "a",
    .node "a" (.command (.resumeRecoveredReplica { headOfTwo with chainVersion := 2 })),
    .node "a" (.replied false)]

/-- A step that brings no older assignment. -/
def orderedStep : Cluster → Action → Option Cluster :=
  guarded (fun cluster action => decide (cluster.Ordered action)) (step id)

/-- Such a step from a state in which the node has a replica. -/
def heldStep : Cluster → Action → Option Cluster :=
  guarded (fun cluster action => decide (cluster.Ordered action ∧ cluster.HasReplica "a")) (step id)

theorem joinAlone_runs : (run orderedStep joinAlone (initial plainConfig)).isSome = true := by
  decide +kernel

theorem headThenResumed_runs :
    (run heldStep headThenResumed ((run orderedStep joinAlone (initial plainConfig)).get
      joinAlone_runs)).isSome = true := by
  decide +kernel

theorem resumed_head_keeps :
    ∃ cluster later : Cluster, cluster.chainVersion "a" = 1 ∧ later.chainVersion "a" = 2 ∧
      cluster.chainVersion "a" ≤ later.chainVersion "a" := by
  have hcluster : Reaches (step id) Ordered (initial plainConfig) _ := .of_checked joinAlone_runs
  have hlater : Reaches (step id)
      (fun state action => state.Ordered action ∧ state.HasReplica "a") _ _ :=
    .of_checked headThenResumed_runs
  refine ⟨_, _, ?_, ?_, chainVersion_keeps "a" hcluster hlater ?_⟩
  · decide +kernel
  · decide +kernel
  · decide +kernel

def joinThenUpdate : List Action :=
  joinAlone ++ [.node "a" (.command (.updateChainPeers { headOfTwo with chainVersion := 2 }))]

def lateUpdate : List Action :=
  [.node "a" (.command (.updateChainPeers { chainVersion := 1, role := .single }))]

theorem joinThenUpdate_runs :
    (run (step id) joinThenUpdate (initial plainConfig)).isSome = true := by
  decide +kernel

def presentStep : Cluster → Action → Option Cluster :=
  guarded (fun cluster _ => decide (cluster.HasReplica "a")) (step id)

theorem lateUpdate_runs :
    (run presentStep lateUpdate ((run (step id) joinThenUpdate (initial plainConfig)).get
      joinThenUpdate_runs)).isSome = true := by
  decide +kernel

/-- A peer update that comes late. -/
theorem late_update_goes_back :
    ¬∀ (resolve : String → String) (config : String → NodeConfig) (cluster later : Cluster)
      (id : String), Reaches (step resolve) (fun _ _ => True) (initial config) cluster →
      Reaches (step resolve) (fun state _ => state.HasReplica id) cluster later →
      later.HasReplica id → cluster.chainVersion id ≤ later.chainVersion id := by
  intro h
  have keeps := h id plainConfig _ _ "a"
    (.of_isSome joinThenUpdate_runs)
    (.of_checked lateUpdate_runs)
    (by decide +kernel)
  revert keeps
  decide +kernel

/-- The replica joins under version 1, and the write that is to persist version 2 fails. -/
def joinThenUnstored : List Action :=
  joinAlone ++ [.node "a" (.setLoad { localWriteFails := true }),
    .node "a" (.command (.updateChainPeers { headOfTwo with chainVersion := 2 }))]

/-- Commands come in the order of their versions; crashes come at any time. -/
def CommandsOrdered (cluster : Cluster) (action : Action) : Prop :=
  action = .restart "a" ∨ cluster.Ordered action

instance (cluster : Cluster) (action : Action) : Decidable (cluster.CommandsOrdered action) :=
  inferInstanceAs (Decidable (_ ∨ _))

theorem joinThenUnstored_runs :
    (run (guarded (fun cluster action => decide (cluster.CommandsOrdered action)) (step id))
      joinThenUnstored (initial plainConfig)).isSome = true := by
  decide +kernel

theorem crashUnstored_runs :
    (run (guarded (fun cluster action => decide (cluster.CommandsOrdered action ∧
      cluster.HasReplica "a")) (step id)) [.restart "a"] ((run _ joinThenUnstored _).get
        joinThenUnstored_runs)).isSome = true := by
  decide +kernel

/-- Commands in order are not enough: the crash takes the replica back to what was stored. -/
theorem unstored_version_goes_back :
    ¬∀ (resolve : String → String) (config : String → NodeConfig) (cluster later : Cluster),
      Reaches (step resolve) CommandsOrdered (initial config) cluster →
      Reaches (step resolve) (fun state action => state.CommandsOrdered action ∧
        state.HasReplica "a") cluster later →
      later.HasReplica "a" → cluster.chainVersion "a" ≤ later.chainVersion "a" := by
  intro h
  have keeps := h id plainConfig _ _
    (.of_checked joinThenUnstored_runs)
    (.of_checked crashUnstored_runs)
    (by decide +kernel)
  revert keeps
  decide +kernel

end Cluster

end Craq.Storage
