import Craq.Coordinator.Path

/-! # What a whole reconcile does

A reconcile changes the chains only, keeps the invariant, removes every dead node, adds no active
replica and never leaves a chain without one that had one.
-/

namespace Craq.Coordinator

open Craq.Lib

/-! ## How chains evolve -/

/-- From `state` to `later` by reconcile passes: only chains change, every node comes from the old
chain or is alive, and no chain gains an active replica or loses its last one. -/
structure Evolves (state later : ClusterState) : Prop where
  tables : later = { state with chains := later.chains }
  origin : ∀ i, ∀ id ∈ later.idsAt i, id ∈ state.idsAt i ∨ state.isAlive id = true
  active_subset : ∀ i, later.activesAt i ⊆ state.activesAt i
  anchored : ∀ i, state.activesAt i ≠ [] → later.activesAt i ≠ []

/-- The passes outside dead repair keep the active replicas of a chain or finish a transition,
which leaves as many as the replication factor. -/
structure Follows (state later : ClusterState) : Prop extends Evolves state later where
  kept : ∀ i, later.activesAt i = state.activesAt i ∨
    ((later.activesAt i).length : Int) = state.replicationFactor

theorem Evolves.refl (state : ClusterState) : Evolves state state :=
  ⟨rfl, fun _ _ hid => .inl hid, fun _ => List.Subset.refl _, fun _ hActive => hActive⟩

theorem Evolves.trans {first second third : ClusterState} (h : Evolves first second)
    (h' : Evolves second third) : Evolves first third where
  tables := by rw [h'.tables, h.tables]
  origin i id hid := by
    rcases h'.origin i id hid with hid | hAlive
    · exact h.origin i id hid
    · exact .inr (tables_isAlive h.tables id ▸ hAlive)
  active_subset i := List.Subset.trans (h'.active_subset i) (h.active_subset i)
  anchored i hActive := h'.anchored i (h.anchored i hActive)

theorem Follows.refl (state : ClusterState) : Follows state state :=
  ⟨Evolves.refl state, fun _ => .inl rfl⟩

theorem Follows.trans {first second third : ClusterState} (h : Follows first second)
    (h' : Follows second third) : Follows first third where
  toEvolves := h.toEvolves.trans h'.toEvolves
  kept i := by
    rcases h'.kept i with hSame | hFull
    · rcases h.kept i with hSame' | hFull'
      · exact .inl (hSame.trans hSame')
      · exact .inr (hSame ▸ hFull')
    · exact .inr (hFull.trans (tables_factor h.tables))

theorem evolves_setReplicas {state : ClusterState} {slot : Nat} {after : List Replica}
    (hOrigin : ∀ id ∈ replicaIDs after, id ∈ state.idsAt slot ∨ state.isAlive id = true)
    (hActive : activeIDs after ⊆ state.activesAt slot)
    (hAnchored : state.activesAt slot ≠ [] → activeIDs after ≠ []) :
    Evolves state (state.setReplicas slot after) where
  tables := rfl
  origin := setReplicas_pointwise state slot after
    (R := fun _ old new => ∀ id ∈ replicaIDs new, id ∈ replicaIDs old ∨ state.isAlive id = true)
    (fun _ _ _ hid => .inl hid) hOrigin
  active_subset := setReplicas_pointwise state slot after
    (R := fun _ old new => activeIDs new ⊆ activeIDs old) (fun _ _ => List.Subset.refl _) hActive
  anchored := setReplicas_pointwise state slot after
    (R := fun _ old new => activeIDs old ≠ [] → activeIDs new ≠ []) (fun _ _ hOld => hOld) hAnchored

/-! ## Along a trace -/

theorem activeIDs_append_joiners (replicas : List Replica) (ids : List String) :
    activeIDs (replicas ++ joiners ids) = activeIDs replicas := by
  simp [activeIDs, joiners, List.filter_append, List.filter_map, Function.comp_def]

theorem activeIDs_append_joining (replicas : List Replica) (nodeID : String) :
    activeIDs (replicas ++ [⟨nodeID, .joining⟩]) = activeIDs replicas :=
  activeIDs_append_joiners replicas [nodeID]

section Change

variable {state : ClusterState} {slot : Nat} {after : List Replica}
  {steps : List ReconfigurationStep}

variable (h : Change state slot after steps)

include h

theorem Change.active_subset : activeIDs after ⊆ state.activesAt slot := by
  cases h with
  | repaired =>
    rw [activeIDs_append_joiners]
    exact ((List.filter_sublist.filter _).map _).subset
  | appended =>
    rw [activeIDs_append_joining]
    exact List.Subset.refl _
  | retired alive joinless perm =>
    rw [activeIDs_active_append_leaving]
    exact fun id hid => perm.subset (List.mem_append_left _ hid)

theorem Change.active_kept (hAlive : chainContainsDeadReplica state (state.chainAt slot) = false) :
    activeIDs after = state.activesAt slot ∨
      ((activeIDs after).length : Int) = state.replicationFactor := by
  cases h with
  | repaired dead =>
    rw [hAlive] at dead
    cases dead
  | appended => exact .inl (activeIDs_append_joining _ _)
  | retired alive joinless perm full =>
    rw [activeIDs_active_append_leaving]
    exact .inr full

theorem Change.anchored (hSound : Sound state)
    (hAlive : chainContainsDeadReplica state (state.chainAt slot) = false)
    (hSome : state.activesAt slot ≠ []) : activeIDs after ≠ [] := by
  have hFactor := hSound.factor
  rcases h.active_kept hAlive with hSame | hFull
  · rwa [hSame]
  · rintro hNone
    rw [hNone, List.length_nil] at hFull
    omega

theorem Change.evolves (hAnchored : state.activesAt slot ≠ [] → activeIDs after ≠ []) :
    Evolves state (state.setReplicas slot after) :=
  evolves_setReplicas
    (fun id hid => (h.origin id hid).imp_right fun hNew => placeable_isAlive hNew.2)
    h.active_subset hAnchored

theorem Change.follows (hSound : Sound state)
    (hAlive : chainContainsDeadReplica state (state.chainAt slot) = false) :
    Follows state (state.setReplicas slot after) :=
  ⟨h.evolves (h.anchored hSound hAlive), setReplicas_pointwise state slot after
    (R := fun _ old new => activeIDs new = activeIDs old ∨
      ((activeIDs new).length : Int) = state.replicationFactor)
    (fun _ _ => .inl rfl) (h.active_kept hAlive)⟩

end Change

section Along

variable {policy : ReconfigurationPolicy} {start later : ClusterState} {plans : List SlotPlan}

theorem Path.follows (hSound : Sound start) (hFree : DeadFree start)
    (h : Path policy start later plans) : Follows start later := by
  induction h with
  | rest => exact .refl start
  | change path inside change domains ih =>
    exact ih.trans (change.follows (path.sound hSound) ((path.deadFree hFree).containsDead _))

/-- A repair leaves an active replica, and every other pass meets chains without dead nodes. -/
theorem Trace.evolves (hSound : Sound start) (h : Trace policy start later plans) :
    Evolves start later := by
  induction h with
  | rest => exact .refl start
  | @edit state plans slot pass aim after steps trace inside alive setting edit ih =>
    have hPath := trace.path hSound
    have hChange := edit.change hSound hPath inside alive setting
    refine ih.trans (hChange.evolves ?_)
    by_cases hPass : pass = .repair
    · subst hPass
      cases edit with
      | repaired dead anchored =>
        intro _
        rw [activeIDs_append_joiners]
        simpa [activeIDs, replicaIDs, List.countP_eq_length_filter] using anchored
    · exact hChange.anchored (hPath.sound hSound) ((alive hPass).containsDead slot)

/-- One reconcile: the invariant holds after it, no chain holds a dead node, and where none did
before, it only starts or finishes transitions. -/
theorem reconcileState_ok (hSound : Sound start)
    (h : reconcileState start policy = .ok (later, plans)) :
    Sound later ∧ Evolves start later ∧ DeadFree later ∧ (DeadFree start → Follows start later) := by
  obtain ⟨hTrace, hFree⟩ := reconcileState_trace hSound h
  have hPath := hTrace.path hSound
  exact ⟨hPath.sound hSound, hTrace.evolves hSound, hFree, fun hStart => hPath.follows hSound hStart⟩

end Along

end Craq.Coordinator
