import Craq.Coordinator.Runs

/-! # The shape of a chain

A chain is meant to be a run of active replicas with only joining or only leaving replicas behind.
Two steps can break that shape.  A replica may be reported active before a joining replica in front
of it, and dead repair may append joining tails behind a leaving replica.  In the runs without such
steps every chain keeps the shape.
-/

namespace Craq.Coordinator

open Craq.Lib

/-- Active replicas first, and behind them only joining or only leaving ones. -/
def WellShaped (replicas : List Replica) : Prop :=
  ∃ actives pending, replicas = actives ++ pending ∧ (∀ replica ∈ actives, replica.state = .active) ∧
    ((∀ replica ∈ pending, replica.state = .joining) ∨ ∀ replica ∈ pending, replica.state = .leaving)

theorem wellShaped_iff (replicas : List Replica) :
    WellShaped replicas ↔
      (∀ replica ∈ replicas.dropWhile (·.state = .active), replica.state = .joining) ∨
        ∀ replica ∈ replicas.dropWhile (·.state = .active), replica.state = .leaving := by
  constructor
  · rintro ⟨actives, pending, rfl, hActives, hPending⟩
    rw [List.dropWhile_append_of_pos (by simpa using hActives)]
    have hSubset := (List.dropWhile_sublist (l := pending) (·.state = .active)).subset
    exact hPending.imp (fun h replica hReplica => h replica (hSubset hReplica))
      fun h replica hReplica => h replica (hSubset hReplica)
  · intro h
    refine ⟨_, _, List.takeWhile_append_dropWhile.symm, ?_, h⟩
    intro replica hReplica
    simpa using List.mem_takeWhile_imp hReplica

instance (replicas : List Replica) : Decidable (WellShaped replicas) :=
  decidable_of_iff' _ (wellShaped_iff replicas)

/-! ## The steps -/

variable {replicas : List Replica}

theorem WellShaped.of_active (h : ∀ replica ∈ replicas, replica.state = .active) :
    WellShaped replicas :=
  ⟨replicas, [], by simp, h, by simp⟩

theorem WellShaped.sublist {kept : List Replica} (h : WellShaped replicas)
    (hKept : kept.Sublist replicas) : WellShaped kept := by
  obtain ⟨actives, pending, rfl, hActives, hPending⟩ := h
  obtain ⟨first, second, rfl, hFirst, hSecond⟩ := List.sublist_append_iff.mp hKept
  refine ⟨first, second, rfl, fun replica hReplica => hActives replica (hFirst.subset hReplica), ?_⟩
  exact hPending.imp (fun h replica hReplica => h replica (hSecond.subset hReplica))
    fun h replica hReplica => h replica (hSecond.subset hReplica)

theorem WellShaped.append_joiners (h : WellShaped replicas)
    (hStays : ∀ replica ∈ replicas, replica.state ≠ .leaving) (ids : List String) :
    WellShaped (replicas ++ joiners ids) := by
  obtain ⟨actives, pending, rfl, hActives, hPending⟩ := h
  refine ⟨actives, pending ++ joiners ids, List.append_assoc .., hActives, .inl ?_⟩
  intro replica hReplica
  rcases List.mem_append.mp hReplica with hOld | hNew
  · rcases hPending with hJoining | hLeaving
    · exact hJoining replica hOld
    · exact absurd (hLeaving replica hOld) (hStays replica (List.mem_append_right _ hOld))
  · obtain ⟨nodeID, -, rfl⟩ := List.mem_map.mp hNew
    rfl

/-- No chain that loses a dead node has both a leaving replica and fewer survivors than the factor
asks for. -/
def LeavingCovered (_ : ReconfigurationPolicy) (state : ClusterState) : Prop :=
  ∀ i < state.chains.length, chainContainsDeadReplica state (state.chainAt i) = true →
    (∃ replica ∈ state.survivors i, replica.state = .leaving) →
    state.replicationFactor ≤ (state.survivors i).length

theorem Change.wellShaped {state : ClusterState} {slot : Nat} {after : List Replica}
    {steps : List ReconfigurationStep} (h : WellShaped (state.chainAt slot).replicas)
    (hCovered : chainContainsDeadReplica state (state.chainAt slot) = true →
      (∃ replica ∈ state.survivors slot, replica.state = .leaving) →
      state.replicationFactor ≤ (state.survivors slot).length)
    (hChange : Change state slot after steps) : WellShaped after := by
  cases hChange with
  | @repaired added dead joins room =>
    have hSurvivors : WellShaped (state.survivors slot) := h.sublist List.filter_sublist
    by_cases hNone : added = []
    · simpa [hNone, joiners] using hSurvivors
    · apply hSurvivors.append_joiners
      intro replica hReplica hLeaving
      have hFull := hCovered dead ⟨replica, hReplica, hLeaving⟩
      have hRoom := room hNone
      have hSome := List.length_pos_iff.mpr hNone
      omega
  | @appended nodeID replaced alive settled joins =>
    have hActive : ∀ replica ∈ (state.chainAt slot).replicas, replica.state = .active :=
      fun _ => active_of_settled (by simp [settled])
    refine WellShaped.append_joiners (.of_active hActive) ?_ [nodeID]
    intro replica hReplica
    rw [hActive replica hReplica]
    decide
  | retired =>
    exact ⟨_, _, rfl, by simp, .inr (by simp)⟩

/-- A replica is reported active only when every replica in front of it is active. -/
def InOrder (state : ClusterState) (event : Event) : Prop :=
  event.kind = .replicaBecameActive →
    ((state.chainAt event.slot.toNat).replicas.find? (·.state ≠ .active)).map (·.nodeID) =
      some event.nodeID

theorem WellShaped.activate (h : WellShaped replicas) (hNodup : (replicaIDs replicas).Nodup)
    {index : Nat} {nodeID : String} (hIndex : replicas[index]? = some ⟨nodeID, .joining⟩)
    (hFirst : (replicas.find? (·.state ≠ .active)).map (·.nodeID) = some nodeID) :
    WellShaped (replicas.modify index fun replica => { replica with state := .active }) := by
  obtain ⟨actives, pending, rfl, hActives, hPending⟩ := h
  have hSkip : actives.find? (·.state ≠ .active) = none := by
    simpa [List.find?_eq_none] using hActives
  rw [List.find?_append, hSkip, Option.none_or] at hFirst
  obtain ⟨first, hFound, hID⟩ := Option.map_eq_some_iff.mp hFirst
  cases pending with
  | nil => cases hFound
  | cons head rest =>
    -- Nothing behind the active replicas is active, so the first of them is the one found.
    have hHead : head.state ≠ .active := by
      rcases hPending with hAll | hAll <;> rw [hAll head List.mem_cons_self] <;> decide
    rw [List.find?_cons_of_pos (by simpa using hHead)] at hFound
    cases hFound
    have hPlace := index_of_nodup hNodup hIndex hID.symm
    rw [hPlace, List.getElem?_append_right le_rfl, Nat.sub_self, List.getElem?_cons_zero] at hIndex
    cases hIndex
    rw [hPlace, modify_middle]
    refine ⟨actives ++ [⟨nodeID, .active⟩], rest, by simp, ?_, .inl ?_⟩
    · intro replica hReplica
      rcases List.mem_append.mp hReplica with hOld | hNew
      · exact hActives replica hOld
      · rw [List.mem_singleton.mp hNew]
    · intro replica hReplica
      rcases hPending with hJoining | hLeaving
      · exact hJoining replica (List.mem_cons_of_mem _ hReplica)
      · have hWrong := hLeaving _ List.mem_cons_self
        cases hWrong

def AllShaped (state : ClusterState) : Prop := ∀ i, WellShaped (state.chainAt i).replicas

theorem AllShaped.applyEvent {state updated : ClusterState} (hSound : Sound state)
    (h : AllShaped state) {event : Event} (hOrder : InOrder state event)
    (hRun : applyEvent state event = .ok updated) : AllShaped updated := by
  refine applyEvent_keeps hSound ?_ (fun _ _ hKept hOld => hOld.sublist hKept) h hRun
  intro index hKind hIndex hShaped
  exact hShaped.activate (hSound.nodup _) hIndex (hOrder hKind)

theorem AllShaped.path {policy : ReconfigurationPolicy} {start later : ClusterState}
    {plans : List SlotPlan} (hSound : Sound start) (h : AllShaped start)
    (hCovered : LeavingCovered policy start) (hPath : Path policy start later plans) :
    AllShaped later := by
  refine hPath.keeps (P := fun _ => WellShaped) hSound h ?_
  intro state slot after steps hState hTables hFirst hShaped hChange _
  refine hChange.wellShaped hShaped fun hDead hLeaving => ?_
  -- A chain that still needs repair is the one the reconcile started from.
  have hSame := hFirst hDead
  have hSurvivors : state.survivors slot = start.survivors slot := by
    simp only [ClusterState.survivors, hSame, tables_isDead hTables]
  have hBound : slot < start.chains.length := by
    apply lt_length_of_replicas_ne_nil
    rintro hNone
    rw [chainContainsDeadReplica, hSame, hNone] at hDead
    cases hDead
  rw [tables_factor hTables, hSurvivors]
  rw [chainContainsDeadReplica, hSame] at hDead
  simp only [tables_isDead hTables] at hDead
  exact hCovered slot hBound hDead (hSurvivors ▸ hLeaving)

/-! ## Whole runs -/

/-- Where replicas are reported active in order and no chain is repaired behind a leaving replica,
every chain is a run of active replicas with only joining or only leaving ones behind. -/
theorem chain_shape {state : ClusterState} (h : ReachableWhile InOrder LeavingCovered state) :
    ∀ chain ∈ state.chains, WellShaped chain.replicas := by
  have hAll : AllShaped state := by
    refine h.invariant ?_ ?_ ?_
    · intro state event updated hSound hState hOrder hRun
      exact hState.applyEvent hSound hOrder hRun
    · intro policy start later plans hSound hStart hCovered hTrace
      exact hStart.path hSound hCovered (hTrace.path hSound)
    · intro cfg nodes state hBuild i
      exact .of_active (buildInitialPlacement_clean hBuild i).active
  intro chain hChain
  obtain ⟨i, rfl⟩ := exists_chainAt hChain
  exact hAll i

/-! ### Two deaths in one chain

The nodes `a` and `b` of a chain of three die one after the other, and `d` and `e` join behind
`c`. -/

def five : List Node := [⟨"a", "", ∅⟩, ⟨"b", "", ∅⟩, ⟨"c", "", ∅⟩, ⟨"d", "", ∅⟩, ⟨"e", "", ∅⟩]

def fivePlacement : ClusterState :=
  (buildInitialPlacement ⟨1, 3⟩ five).toOption.getD (emptyPlacement ⟨1, 3⟩)

def deathOf (nodeID : String) : Event := ⟨.markNodeDead, zeroNode, nodeID, 0⟩

theorem fivePlacement_ok : buildInitialPlacement ⟨1, 3⟩ five = .ok fivePlacement :=
  eq_ok_getD _ (by decide +kernel)

/-- After the first death `d` joins behind the two survivors. -/
theorem first_death_shaped :
    ∃ plan, planReconfiguration fivePlacement [deathOf "a"] ⟨0⟩ = .ok plan ∧
      (plan.updatedState.chainAt 0).replicas =
        [⟨"b", .active⟩, ⟨"c", .active⟩, ⟨"d", .joining⟩] ∧
      ∀ chain ∈ plan.updatedState.chains, WellShaped chain.replicas := by
  have hPass : PlanPasses InOrder LeavingCovered ⟨0⟩ [deathOf "a"] fivePlacement := by
    rw [PlanPasses, if_neg (by decide)]
    refine ⟨fun hKind => absurd hKind (by decide), fun applied hApplied => ⟨?_, ?_⟩⟩
    · rw [eq_ok_getD (x := applyEvent fivePlacement (deathOf "a")) fivePlacement
        (by decide +kernel)] at hApplied
      cases hApplied
      rw [LeavingCovered]
      decide +kernel
    · exact fun _ _ _ => trivial
  have hPlan := eq_ok_getD (x := planReconfiguration fivePlacement [deathOf "a"] ⟨0⟩)
    ⟨fivePlacement, [], []⟩ (by decide +kernel)
  exact ⟨_, hPlan, by decide +kernel, chain_shape (.plan (.initial fivePlacement_ok) hPass hPlan)⟩

/-- The second joining replica is reported active before the first. -/
theorem active_behind_joining :
    ¬∀ state, Reachable state → ∀ chain ∈ state.chains, WellShaped chain.replicas := by
  intro hAll
  have hRun := eq_ok_getD (x := [PlannerStep.planEvent (deathOf "a") ⟨0⟩,
    .planEvent (deathOf "b") ⟨0⟩, .planEvent ⟨.replicaBecameActive, zeroNode, "e", 0⟩ ⟨0⟩].foldlM
      PlannerStep.run fivePlacement) fivePlacement (by decide +kernel)
  have hShaped := hAll _ ((Reachable.initial fivePlacement_ok).steps hRun)
  exact absurd hShaped (by decide +kernel)

end Craq.Coordinator
