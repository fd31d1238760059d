import Craq.Coordinator.Runs

/-! # Plans tell the truth

The plans of a reconcile are read back from the path it takes: the plans of a slot follow each other
from the chain before to the chain after, and each of them says by its steps what has changed.  The
finalization of a drain rebuilds a chain from its active replicas; that no leaving replica gets lost
there rests on an invariant of all reachable states.
-/

namespace Craq.Coordinator

open Craq.Lib

/-- The plans lead from one chain to the other: each starts where the one before it ends. -/
def Linked : Chain → List SlotPlan → Chain → Prop
  | first, [], last => last = first
  | first, slotPlan :: rest, last => slotPlan.before = first ∧ Linked slotPlan.after rest last

instance decidableLinked (first : Chain) (plans : List SlotPlan) (last : Chain) :
    Decidable (Linked first plans last) :=
  match plans with
  | [] => inferInstanceAs (Decidable (last = first))
  | slotPlan :: rest =>
    have := decidableLinked slotPlan.after rest last
    inferInstanceAs (Decidable (slotPlan.before = first ∧ Linked slotPlan.after rest last))

variable {plans : List SlotPlan} {slotPlan : SlotPlan}

theorem Linked.append {first last : Chain} (h : Linked first plans last)
    (hBefore : slotPlan.before = last) : Linked first (plans ++ [slotPlan]) slotPlan.after := by
  induction plans generalizing first with
  | nil => exact ⟨hBefore.trans h, rfl⟩
  | cons head rest ih => exact ⟨h.1, ih h.2⟩

/-- A plan that appends: the survivors in their order, then the nodes of the steps as joining
replicas, all of them new and placeable. -/
structure Appends (state : ClusterState) (slotPlan : SlotPlan) : Prop where
  after : slotPlan.after.replicas =
    (slotPlan.before.replicas.filter fun replica => !state.isDead replica.nodeID) ++
      slotPlan.steps.map fun step => ⟨step.nodeID, .joining⟩
  nodup : (replicaIDs slotPlan.after.replicas).Nodup
  placeable : ∀ step ∈ slotPlan.steps, state.placeable step.nodeID = true

/-- A plan that retires: the same nodes, as many active ones as the factor asks for and then the
nodes of the steps as leaving replicas. -/
structure Retires (state : ClusterState) (slotPlan : SlotPlan) : Prop where
  nodes : (replicaIDs slotPlan.after.replicas).Perm (replicaIDs slotPlan.before.replicas)
  after : ∃ kept : List String, (kept.length : Int) = state.replicationFactor ∧
    slotPlan.after.replicas =
      kept.map (⟨·, .active⟩) ++ slotPlan.steps.map fun step => ⟨step.nodeID, .leaving⟩

/-- The plans account for the way from one state to the other. -/
structure Tells (start later : ClusterState) (plans : List SlotPlan) : Prop where
  linked : ∀ slot, Linked (start.chainAt slot) (plans.filter (·.slot = slot)) (later.chainAt slot)
  appends : ∀ slotPlan ∈ plans, (∀ step ∈ slotPlan.steps, step.kind = .appendTail) →
    Appends later slotPlan
  retires : ∀ slotPlan ∈ plans, slotPlan.steps ≠ [] →
    (∀ step ∈ slotPlan.steps, step.kind = .markLeaving) → Retires later slotPlan

/-! ## No more replicas than wanted stand before a leaving one -/

/-- A chain with a leaving replica has no replica to spare among the others. -/
def Spent (factor : Int) (replicas : List Replica) : Prop :=
  (∃ replica ∈ replicas, replica.state = .leaving) →
    (replicas.countP (·.state ≠ .leaving) : Int) ≤ factor

theorem Spent.sublist {factor : Int} {replicas kept : List Replica} (h : Spent factor replicas)
    (hKept : kept.Sublist replicas) : Spent factor kept := by
  rintro ⟨replica, hReplica, hLeaving⟩
  have hCount := h ⟨replica, hKept.subset hReplica, hLeaving⟩
  have hLe := hKept.countP_le (p := fun replica => decide (replica.state ≠ .leaving))
  omega

variable {state : ClusterState}

theorem Change.spent {slot : Nat} {after : List Replica} {steps : List ReconfigurationStep}
    (h : Spent state.replicationFactor (state.chainAt slot).replicas)
    (hChange : Change state slot after steps) : Spent state.replicationFactor after := by
  cases hChange with
  | @repaired added dead joins room =>
    by_cases hNone : added = []
    · have hSurvivors : Spent state.replicationFactor (state.survivors slot) :=
        h.sublist List.filter_sublist
      simpa [hNone, joiners] using hSurvivors
    · intro _
      have hRoom := room hNone
      have hLe := List.countP_le_length (p := fun replica : Replica => decide (replica.state ≠ .leaving))
        (l := state.survivors slot ++ joiners added)
      simp only [joiners, List.length_append, List.length_map] at hLe ⊢
      omega
  | @appended nodeID replaced alive settled joins =>
    rintro ⟨replica, hReplica, hLeaving⟩
    rcases List.mem_append.mp hReplica with hOld | hNew
    · rw [active_of_settled (by simp [settled]) hOld] at hLeaving
      cases hLeaving
    · rw [List.mem_singleton.mp hNew] at hLeaving
      cases hLeaving
  | @retired kept left alive joinless perm full left_ne =>
    intro _
    have hKept : (kept.map (⟨·, .active⟩ : String → Replica)).countP (·.state ≠ .leaving) =
        kept.length := by
      rw [List.countP_map, List.countP_eq_length.mpr (by simp)]
    have hLeft : (left.map (⟨·, .leaving⟩ : String → Replica)).countP (·.state ≠ .leaving) = 0 := by
      rw [List.countP_map, List.countP_eq_zero.mpr (by simp)]
    rw [List.countP_append, hKept, hLeft]
    omega

def AllSpent (state : ClusterState) : Prop :=
  ∀ i, Spent state.replicationFactor (state.chainAt i).replicas

theorem Spent.modify {factor : Int} {replicas : List Replica} (h : Spent factor replicas)
    {index : Nat} {nodeID : String} (hIndex : replicas[index]? = some ⟨nodeID, .joining⟩) :
    Spent factor (replicas.modify index fun replica => { replica with state := .active }) := by
  rintro ⟨replica, hReplica, hLeaving⟩
  rw [countP_modify_of_eq hIndex rfl]
  refine h ⟨replica, ?_, hLeaving⟩
  obtain ⟨i, hi⟩ := List.getElem?_of_mem hReplica
  rw [List.getElem?_modify] at hi
  obtain ⟨old, hOld, rfl⟩ := Option.map_eq_some_iff.mp hi
  split at hLeaving
  · cases hLeaving
  · rename_i hOther
    rw [if_neg hOther]
    exact List.mem_of_getElem? hOld

theorem AllSpent.applyEvent {updated : ClusterState} (hSound : Sound state) (h : AllSpent state)
    {event : Event} (hRun : applyEvent state event = .ok updated) : AllSpent updated := by
  rw [AllSpent, applyEvent_factor hSound hRun]
  exact applyEvent_keeps hSound (fun _ _ hIndex hOld => hOld.modify hIndex)
    (fun _ _ hKept hOld => hOld.sublist hKept) h hRun

theorem AllSpent.path {policy : ReconfigurationPolicy} {start later : ClusterState}
    (hSound : Sound start) (h : AllSpent start) (hPath : Path policy start later plans) :
    AllSpent later := by
  intro i
  rw [tables_factor hPath.tables]
  refine hPath.keeps (P := fun _ => Spent start.replicationFactor) hSound h ?_ i
  intro state slot after steps _ hTables _ hSlot hChange _
  rw [← tables_factor hTables] at hSlot ⊢
  exact hChange.spent hSlot

theorem Reachable.spent (h : Reachable state) : AllSpent state := by
  refine h.while_true.invariant ?_ ?_ ?_
  · intro state event updated hSound hState _ hRun
    exact hState.applyEvent hSound hRun
  · intro policy start later plans hSound hStart _ hTrace
    exact hStart.path hSound (hTrace.path hSound)
  · rintro cfg nodes state hBuild i ⟨replica, hReplica, hLeaving⟩
    rw [(buildInitialPlacement_clean hBuild i).active replica hReplica] at hLeaving
    cases hLeaving

/-! ## Reading a change back -/

section Change

variable {state : ClusterState} {slot : Nat} {after : List Replica}
  {steps : List ReconfigurationStep}

abbrev planOf (state : ClusterState) (slot : Nat) (after : List Replica)
    (steps : List ReconfigurationStep) : SlotPlan :=
  ⟨slot, state.chainAt slot, { state.chainAt slot with replicas := after }, steps⟩

theorem Change.appends (hSound : Sound state) (h : Change state slot after steps)
    (hKinds : ∀ step ∈ steps, step.kind = .appendTail) :
    Appends state (planOf state slot after steps) := by
  have hNodup := h.nodup hSound
  cases h with
  | @repaired added dead joins room =>
    refine ⟨?_, hNodup, ?_⟩
    · simp [ClusterState.survivors, joiners]
    · intro step hStep
      obtain ⟨id, hid, rfl⟩ := List.mem_map.mp hStep
      exact joins.placeable id hid
  | @appended nodeID replaced alive settled joins =>
    have hAll : (state.chainAt slot).replicas.filter (fun replica => !state.isDead replica.nodeID) =
        (state.chainAt slot).replicas := by
      apply List.filter_eq_self.mpr
      intro replica hReplica
      rw [isDead_of_alive_chain alive (mem_replicaIDs.mpr ⟨replica, hReplica, rfl⟩)]
      rfl
    refine ⟨?_, hNodup, ?_⟩
    · rw [hAll]
      rfl
    · intro step hStep
      rw [List.mem_singleton.mp hStep]
      exact joins.placeable nodeID (by simp)
  | @retired kept left alive joinless perm full left_ne =>
    obtain ⟨id, hid⟩ := List.exists_mem_of_ne_nil left left_ne
    have hWrong := hKinds _ (List.mem_map_of_mem hid)
    cases hWrong

/-- A retired chain had no leaving replica, for the others were more than the factor asks for. -/
theorem Change.retires (hSpent : Spent state.replicationFactor (state.chainAt slot).replicas)
    (h : Change state slot after steps) (hSome : steps ≠ [])
    (hKinds : ∀ step ∈ steps, step.kind = .markLeaving) :
    Retires state (planOf state slot after steps) := by
  cases h with
  | @repaired added dead joins room =>
    obtain ⟨step, hStep⟩ := List.exists_mem_of_ne_nil _ hSome
    have hWrong := hKinds step hStep
    obtain ⟨id, -, rfl⟩ := List.mem_map.mp hStep
    cases hWrong
  | appended =>
    have hWrong := hKinds _ List.mem_cons_self
    cases hWrong
  | @retired kept left alive joinless perm full left_ne =>
    have hSettled : ¬hasPendingReplicaState (state.chainAt slot) = true := by
      intro hPending
      rw [hasPendingReplicaState, joinless, Bool.false_or] at hPending
      obtain ⟨replica, hReplica, hLeaving⟩ := List.any_eq_true.mp hPending
      have hCount := hSpent ⟨replica, hReplica, by simpa using hLeaving⟩
      have hActives : (state.activesAt slot).length ≤
          (state.chainAt slot).replicas.countP (·.state ≠ .leaving) := by
        rw [ClusterState.activesAt, activeReplicaIDs, replicaIDs, List.length_map,
          ← List.countP_eq_length_filter]
        apply List.countP_mono_left
        intro replica _ hActive
        simp only [decide_eq_true_eq] at hActive ⊢
        rw [hActive]
        decide
      have hLength := perm.length_eq
      have hLeft := List.length_pos_iff.mpr left_ne
      rw [List.length_append] at hLength
      omega
    rw [ClusterState.activesAt, activeReplicaIDs_of_settled hSettled] at perm
    refine ⟨?_, kept, full, ?_⟩
    · rw [replicaIDs_retired]
      exact perm
    · simp

end Change

/-! ## Reading a path back -/

theorem Appends.congr {other : ClusterState} (h : Appends state slotPlan)
    (hTables : other = { state with chains := other.chains }) :
    Appends other slotPlan where
  after := by
    simp only [tables_isDead hTables]
    exact h.after
  nodup := h.nodup
  placeable step hStep := (tables_placeable hTables step.nodeID).trans (h.placeable step hStep)

theorem Retires.congr {other : ClusterState} (h : Retires state slotPlan)
    (hTables : other = { state with chains := other.chains }) : Retires other slotPlan := by
  refine ⟨h.nodes, ?_⟩
  rw [tables_factor hTables]
  exact h.after

theorem Path.tells {policy : ReconfigurationPolicy} {start later : ClusterState}
    (hSound : Sound start) (hSpent : AllSpent start) (h : Path policy start later plans) :
    Tells start later plans := by
  induction h with
  | rest => exact ⟨fun _ => rfl, by simp, by simp⟩
  | @change state plans slot after steps path inside change domains ih =>
    have hTables : state.setReplicas slot after =
        { state with chains := (state.setReplicas slot after).chains } := rfl
    refine ⟨?_, ?_, ?_⟩
    · intro i
      rw [List.filter_append]
      by_cases hi : slot = i
      · subst hi
        rw [List.filter_cons_of_pos (by simp), List.filter_nil, setReplicas_chainAt_self _ _ _ inside]
        exact (ih.linked slot).append rfl
      · rw [List.filter_cons_of_neg (by simpa using hi), List.filter_nil, List.append_nil,
          setReplicas_chainAt_of_ne _ _ _ (Ne.symm hi)]
        exact ih.linked i
    · intro slotPlan hPlan hKinds
      rcases List.mem_append.mp hPlan with hOld | hNew
      · exact (ih.appends slotPlan hOld hKinds).congr hTables
      · obtain rfl := List.mem_singleton.mp hNew
        exact (change.appends (path.sound hSound) hKinds).congr hTables
    · intro slotPlan hPlan hSome hKinds
      rcases List.mem_append.mp hPlan with hOld | hNew
      · exact (ih.retires slotPlan hOld hSome hKinds).congr hTables
      · obtain rfl := List.mem_singleton.mp hNew
        exact (change.retires (hSpent.path hSound path slot) hSome hKinds).congr hTables

/-! ## Planner calls -/

/-- The plans of a call with at most one event account for the way from the state that the event
leads to.  The events of membership leave the chains alone, so that there it is the way from the
state the planner is given. -/
theorem plans_tell_truth {state : ClusterState} (h : Reachable state) {events : List Event}
    (hOne : events.length ≤ 1) {policy : ReconfigurationPolicy} {plan : ReconfigurationPlan}
    (hPlan : planReconfiguration state events policy = .ok plan) :
    ∃ working, events.foldlM applyEvent state = .ok working ∧
      ((∀ event ∈ events, event.kind.IsMembership) → working.chains = state.chains) ∧
      Tells working plan.updatedState plan.changedSlots := by
  have hSound := h.sound.1
  obtain ⟨-, hRun⟩ := h.planReconfiguration_ok hPlan
  rw [reconcileAll] at hRun
  cases events with
  | nil =>
    exact ⟨state, rfl, fun _ => rfl,
      (reconcileState_path hSound (ok_of_mapError hRun)).tells hSound h.spent⟩
  | cons event rest =>
    obtain rfl : rest = [] := List.length_eq_zero_iff.mp (Nat.le_zero.mp (Nat.le_of_succ_le_succ hOne))
    obtain ⟨applied, hApply, hRun⟩ := bind_eq_ok.mp hRun
    obtain ⟨⟨reconciled, slotPlans⟩, hReconcile, hRun⟩ := bind_eq_ok.mp hRun
    obtain ⟨⟨last, more⟩, hRest, hRun⟩ := bind_eq_ok.mp hRun
    have hApply := ok_of_mapError hApply
    have hApplied := applyEvent_sound hSound hApply
    cases hRest
    simp only [List.append_nil, Except.ok.injEq, Prod.mk.injEq] at hRun
    rw [← hRun.1, ← hRun.2]
    refine ⟨applied, ?_, ?_, ?_⟩
    · rw [List.foldlM_cons, hApply]
      rfl
    · intro hKinds
      exact (applyEvent_membership hSound (hKinds event List.mem_cons_self) hApply).2
    · exact (reconcileState_path hApplied (ok_of_mapError hReconcile)).tells hApplied
        (h.spent.applyEvent hSound hApply)

/-- The drain of `a` lets `b` join behind it. -/
theorem drain_plan_tells :
    ∃ plan, planReconfiguration soloPlacement [⟨.beginDrainNode, zeroNode, "a", 0⟩] ⟨0⟩ = .ok plan ∧
      plan.changedSlots.length = 1 ∧
      ∃ working, [(⟨.beginDrainNode, zeroNode, "a", 0⟩ : Event)].foldlM applyEvent soloPlacement =
          .ok working ∧
        ((∀ event ∈ [(⟨.beginDrainNode, zeroNode, "a", 0⟩ : Event)], event.kind.IsMembership) →
          working.chains = soloPlacement.chains) ∧
        Tells working plan.updatedState plan.changedSlots := by
  have hPlan := eq_ok_getD
    (x := planReconfiguration soloPlacement [⟨.beginDrainNode, zeroNode, "a", 0⟩] ⟨0⟩)
    ⟨soloPlacement, [], []⟩ (by decide +kernel)
  exact ⟨_, hPlan, by decide +kernel,
    plans_tell_truth soloPlacement_reachable (by decide) hPlan⟩

/-- A report that is planned with changes the chain before the first plan sees it. -/
theorem report_precedes_plans :
    ¬∀ (state : ClusterState) (events : List Event) (policy : ReconfigurationPolicy)
      (plan : ReconfigurationPlan), Reachable state → events.length ≤ 1 →
      planReconfiguration state events policy = .ok plan →
      ∀ slot, Linked (state.chainAt slot) (plan.changedSlots.filter (·.slot = slot))
        (plan.updatedState.chainAt slot) := by
  intro hAll
  have hPlan := eq_ok_getD
    (x := planReconfiguration soloDraining [⟨.replicaBecameActive, zeroNode, "b", 0⟩] ⟨0⟩)
    ⟨soloDraining, [], []⟩ (by decide +kernel)
  have hLinked := hAll _ _ _ _ soloDraining_reachable (by decide) hPlan 0
  exact absurd hLinked (by decide +kernel)

end Craq.Coordinator
