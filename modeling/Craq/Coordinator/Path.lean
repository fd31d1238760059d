import Craq.Coordinator.Rest

/-! # A reconcile as a path of chain changes

There are three ways in which a pass changes a chain: dead replicas are cut out and the chain is
filled up behind, a settled chain gets one joining tail, or replicas beyond the factor are marked
leaving.  A reconcile is a path of such changes, each recorded by a plan, so that facts about plans
and about the chains they lead to are proved once for each kind of change.  The trace beside the path
also says which pass made the change and what it had checked.
-/

namespace Craq.Coordinator

open Craq.Lib

/-! ## Changes -/

/-- What a pass does at a slot: the new replicas and the steps that say so. -/
inductive Change (state : ClusterState) (slot : Nat) :
    List Replica → List ReconfigurationStep → Prop where
  | repaired {added : List String}
      (dead : chainContainsDeadReplica state (state.chainAt slot) = true)
      (joins : Joins state (state.survivors slot) added)
      (room : added ≠ [] →
        ((state.survivors slot).length : Int) + added.length ≤ state.replicationFactor) :
      Change state slot (state.survivors slot ++ joiners added)
        (added.map (⟨.appendTail, slot, ·, ""⟩))
  | appended {nodeID replaced : String}
      (alive : chainContainsDeadReplica state (state.chainAt slot) = false)
      (settled : hasPendingReplicaState (state.chainAt slot) = false)
      (joins : Joins state (state.chainAt slot).replicas [nodeID]) :
      Change state slot ((state.chainAt slot).replicas ++ [⟨nodeID, .joining⟩])
        [⟨.appendTail, slot, nodeID, replaced⟩]
  | retired {kept left : List String}
      (alive : chainContainsDeadReplica state (state.chainAt slot) = false)
      (joinless : hasJoiningReplica (state.chainAt slot) = false)
      (perm : (kept ++ left).Perm (state.activesAt slot))
      (full : (kept.length : Int) = state.replicationFactor)
      (left_ne : left ≠ []) :
      Change state slot (kept.map (⟨·, .active⟩) ++ left.map (⟨·, .leaving⟩))
        (left.map (⟨.markLeaving, slot, ·, ""⟩))

/-- A placement to aim at asks for one node in the place of another. -/
structure Exchange (state : ClusterState) (slot : Nat) (added removed : String) : Prop where
  settled : hasPendingReplicaState (state.chainAt slot) = false
  wanted : ∃ chains, buildDesiredPlacementFromState state = .ok (some chains) ∧
    oneMemberReplacement (state.activesAt slot) (aimAt chains slot) = some (added, removed)

/-- Join rebalancing gives a slot the node that an exchange adds, next to the one it removes. -/
structure Rebalanced (policy : ReconfigurationPolicy) (start : ClusterState) (slot : Nat)
    (after : List Replica) : Prop where
  optional : 0 < policy.maxChangedChains
  exchange : ∃ added removed, Exchange start slot added removed ∧
    after = (start.chainAt slot).replicas ++ [⟨added, .joining⟩]

/-- A change keeps the failure domains of a chain apart. -/
def KeepsApart (state : ClusterState) (slot : Nat) (after : List Replica) : Prop :=
  Apart state.nodesByID (state.idsAt slot) → Apart state.nodesByID (replicaIDs after)

/-- From `start`, changes one after the other, with the plans that record them. -/
inductive Path (policy : ReconfigurationPolicy) (start : ClusterState) :
    ClusterState → List SlotPlan → Prop where
  | rest : Path policy start start []
  | change {state : ClusterState} {plans : List SlotPlan} {slot : Nat} {after : List Replica}
      {steps : List ReconfigurationStep} (path : Path policy start state plans)
      (inside : slot < state.chains.length) (change : Change state slot after steps)
      (domains : KeepsApart state slot after ∨ Rebalanced policy start slot after) :
      Path policy start (state.setReplicas slot after)
        (plans ++ [⟨slot, state.chainAt slot, { state.chainAt slot with replicas := after }, steps⟩])

/-! ## What a change leaves -/

section Change

variable {state : ClusterState} {slot : Nat} {after : List Replica}
  {steps : List ReconfigurationStep}

theorem Change.origin (h : Change state slot after steps) :
    ∀ id ∈ replicaIDs after, id ∈ state.idsAt slot ∨
      (id ∈ state.nodesByID ∧ state.placeable id = true) := by
  intro id hid
  cases h with
  | @repaired added dead joins room =>
    rw [replicaIDs_append, replicaIDs_joiners] at hid
    rcases List.mem_append.mp hid with hid | hid
    · exact .inl ((survivors_sublist state slot).subset hid)
    · exact .inr ⟨joins.known id hid, joins.placeable id hid⟩
  | @appended nodeID replaced alive settled joins =>
    rw [replicaIDs_append] at hid
    rcases List.mem_append.mp hid with hid | hid
    · exact .inl hid
    · exact .inr ⟨joins.known id hid, joins.placeable id hid⟩
  | @retired kept left alive joinless perm full left_ne =>
    rw [replicaIDs_retired] at hid
    exact .inl (activeIDs_subset _ (perm.mem_iff.mp hid))

theorem Change.nodup (hSound : Sound state) (h : Change state slot after steps) :
    (replicaIDs after).Nodup := by
  cases h with
  | @repaired added dead joins room =>
    rw [replicaIDs_append, replicaIDs_joiners]
    exact joins.nodup ((hSound.nodup slot).sublist (survivors_sublist state slot))
  | @appended nodeID replaced alive settled joins =>
    rw [replicaIDs_append]
    exact joins.nodup (hSound.nodup slot)
  | @retired kept left alive joinless perm full left_ne =>
    rw [replicaIDs_retired]
    exact perm.nodup_iff.mpr (nodup_filter_ids hSound slot _)

theorem Change.sound (hSound : Sound state) (h : Change state slot after steps) :
    Sound (state.setReplicas slot after) := by
  refine hSound.setReplicas (h.nodup hSound) ?_
  intro id hid
  rcases h.origin id hid with hOld | ⟨hKnown, -⟩
  · exact hSound.known slot id hOld
  · exact hKnown

theorem isDead_of_alive_chain (h : chainContainsDeadReplica state (state.chainAt slot) = false)
    {id : String} (hid : id ∈ state.idsAt slot) : state.isDead id = false := by
  obtain ⟨replica, hReplica, rfl⟩ := mem_replicaIDs.mp hid
  simp only [chainContainsDeadReplica, List.any_eq_false, Bool.not_eq_true] at h
  exact h replica hReplica

variable (h : Change state slot after steps)

include h

theorem Change.alive : ∀ id ∈ replicaIDs after, state.isDead id = false := by
  intro id hid
  rcases h.origin id hid with hOld | ⟨-, hPlaceable⟩
  · cases h with
    | repaired dead joins => exact alive_of_repaired joins id hid
    | appended alive | retired alive => exact isDead_of_alive_chain alive hOld
  · exact isDead_of_isAlive (placeable_isAlive hPlaceable)

theorem Change.alive_at {i : Nat} (hOld : ∀ id ∈ state.idsAt i, state.isDead id = false) :
    ∀ id ∈ (state.setReplicas slot after).idsAt i, state.isDead id = false :=
  setReplicas_pointwise state slot after
    (R := fun _ old new => (∀ id ∈ replicaIDs old, state.isDead id = false) →
      ∀ id ∈ replicaIDs new, state.isDead id = false) (fun _ _ hOld => hOld) (fun _ => h.alive) i hOld

theorem Change.deadFree (hFree : DeadFree state) : DeadFree (state.setReplicas slot after) :=
  fun i => h.alive_at (hFree i)

theorem Change.pending (hFree : DeadFree state) (chain : Chain) :
    hasPendingReplicaState { chain with replicas := after } = true := by
  cases h with
  | repaired dead joins room =>
    rw [hFree.containsDead] at dead
    cases dead
  | appended alive settled joins =>
    simp [hasPendingReplicaState, hasJoiningReplica]
  | @retired kept left alive joinless perm full left_ne =>
    obtain ⟨nodeID, hNode⟩ := List.exists_mem_of_ne_nil left left_ne
    simp only [hasPendingReplicaState, hasLeavingReplica, Bool.or_eq_true, List.any_eq_true,
      decide_eq_true_eq]
    exact .inr ⟨⟨nodeID, .leaving⟩, by simp [hNode], rfl⟩

end Change

/-! ## Along a path -/

def Untouched (start state : ClusterState) : Prop :=
  ∀ i, hasPendingReplicaState (state.chainAt i) = false → state.chainAt i = start.chainAt i

section Along

variable {policy : ReconfigurationPolicy} {start later : ClusterState} {plans : List SlotPlan}

theorem Path.tables (h : Path policy start later plans) :
    later = { start with chains := later.chains } := by
  induction h with
  | rest => rfl
  | change _ _ _ _ ih =>
    rw [ClusterState.setReplicas, ih]

theorem Path.sound (hSound : Sound start) (h : Path policy start later plans) : Sound later := by
  induction h with
  | rest => exact hSound
  | change _ _ change _ ih => exact change.sound ih

theorem Path.length (h : Path policy start later plans) :
    later.chains.length = start.chains.length := by
  induction h with
  | rest => rfl
  | change _ _ _ _ ih => rw [setReplicas_length, ih]

theorem Path.unrepaired (h : Path policy start later plans) {i : Nat}
    (hDead : chainContainsDeadReplica later (later.chainAt i) = true) :
    later.chainAt i = start.chainAt i := by
  induction h with
  | rest => rfl
  | @change state plans slot after steps path inside change domains ih =>
    by_cases hi : i = slot
    · subst hi
      rw [setReplicas_chainAt_self _ _ _ inside] at hDead
      obtain ⟨replica, hReplica, hDead⟩ := List.any_eq_true.mp hDead
      have hAlive := change.alive _ (mem_replicaIDs.mpr ⟨replica, hReplica, rfl⟩)
      rw [setReplicas_isDead, hAlive] at hDead
      cases hDead
    · rw [setReplicas_chainAt_of_ne _ _ _ hi] at hDead ⊢
      exact ih hDead

/-- What every change preserves at its slot holds at every slot of the chains that a path leads
to. -/
theorem Path.keeps (hSound : Sound start) {P : Nat → List Replica → Prop}
    (hStart : ∀ i, P i (start.chainAt i).replicas)
    (hChange : ∀ state slot after steps, Sound state →
      state = { start with chains := state.chains } →
      (chainContainsDeadReplica state (state.chainAt slot) = true →
        state.chainAt slot = start.chainAt slot) →
      P slot (state.chainAt slot).replicas → Change state slot after steps →
      KeepsApart state slot after ∨ Rebalanced policy start slot after → P slot after)
    (h : Path policy start later plans) : ∀ i, P i (later.chainAt i).replicas := by
  induction h with
  | rest => exact hStart
  | @change state plans slot after steps path inside change domains ih =>
    intro i
    have hNew := hChange state slot after steps (path.sound hSound) path.tables path.unrepaired
      (ih slot) change domains
    by_cases hi : i = slot
    · subst hi
      rw [setReplicas_chainAt_self _ _ _ inside]
      exact hNew
    · rw [setReplicas_chainAt_of_ne _ _ _ hi]
      exact ih i

theorem Path.eq_of_nil (h : Path policy start later []) : later = start := by
  generalize hNone : ([] : List SlotPlan) = plans at h
  cases h with
  | rest => rfl
  | change => simp at hNone

theorem Path.deadFree (hFree : DeadFree start) (h : Path policy start later plans) :
    DeadFree later := by
  induction h with
  | rest => exact hFree
  | change _ _ change _ ih => exact change.deadFree ih

theorem Path.untouched (hFree : DeadFree start) (h : Path policy start later plans) :
    Untouched start later := by
  induction h with
  | rest => exact fun _ _ => rfl
  | @change state plans slot after steps path inside change domains ih =>
    intro i hSettled
    by_cases hi : i = slot
    · subst hi
      rw [setReplicas_chainAt_self _ _ _ inside, change.pending (path.deadFree hFree)] at hSettled
      cases hSettled
    · rw [setReplicas_chainAt_of_ne _ _ _ hi] at hSettled ⊢
      exact ih i hSettled

end Along

/-! ## The edits of the passes are changes -/

theorem draining_perm (state : ClusterState) (chain : Chain) :
    (activeReplicaIDsExcludingDraining state chain ++ activeReplicaIDsWithDrain state chain).Perm
      (activeReplicaIDs chain) := by
  have hSplit := List.filter_append_perm (fun replica => !state.isDraining replica.nodeID)
    (chain.replicas.filter (·.state = .active))
  rw [List.filter_filter, List.filter_filter] at hSplit
  have hMap := hSplit.map (·.nodeID)
  rw [List.map_append] at hMap
  refine List.Perm.trans (List.Perm.of_eq ?_) hMap
  simp only [activeReplicaIDsExcludingDraining, activeReplicaIDsWithDrain, replicaIDs, Bool.not_not,
    Bool.and_comm]

theorem extra_perm {current desired : List String} {extra : String} (hCurrent : current.Nodup)
    (hDesired : desired.Nodup) (hLength : current.length = desired.length + 1)
    (hExtra : current.filter (· ∉ desired) = [extra]) : (desired ++ [extra]).Perm current := by
  have hSubset := desired_subset_of_extra hCurrent hLength hExtra
  have hMem := List.mem_filter.mp (hExtra ▸ List.mem_singleton_self extra)
  have hNodup : (desired ++ [extra]).Nodup :=
    List.nodup_append_comm.mp (List.nodup_cons.mpr ⟨by simpa using hMem.2, hDesired⟩)
  refine (hNodup.subperm ?_).perm_of_length_le (by simp [hLength])
  exact List.append_subset.mpr ⟨hSubset, by simpa using hMem.1⟩

variable {state later : ClusterState} {plans : List SlotPlan}

theorem KeepsApart.of_perm {slot : Nat} {kept left : List String}
    (h : (kept ++ left).Perm (state.activesAt slot)) :
    KeepsApart state slot (kept.map (⟨·, .active⟩) ++ left.map (⟨·, .leaving⟩)) := by
  intro hOld
  rw [replicaIDs_retired]
  exact hOld.subset (fun id hid => activeIDs_subset _ (h.mem_iff.mp hid))

/-- What a reconcile has established before a pass visits a slot, and the chain that it aims at. -/
inductive Setting (policy : ReconfigurationPolicy) (start : ClusterState) (slot : Nat) :
    Pass → List String → Prop where
  | repair : Setting policy start slot .repair []
  | drain : Setting policy start slot .drain []
  | join {chains : List Chain} (aims : buildDesiredPlacementFromState start = .ok (some chains)) :
      Setting policy start slot .join (aimAt chains slot)
  | fill {chains : List Chain} (aims : buildDesiredPlacementFromState start = .ok (some chains)) :
      Setting policy start slot .fill (aimAt chains slot)
  | replace (free : DeadFree start) (idle : ∀ i, (finalizeDrainReplacement start i).2 = none) :
      Setting policy start slot .replace []
  | exchange {chains : List Chain} (free : DeadFree start) (optional : 0 < policy.maxChangedChains)
      (aims : buildDesiredPlacementFromState start = .ok (some chains)) :
      Setting policy start slot .exchange (aimAt chains slot)

/-- From `start`, the edits of the passes one after the other, with the plans that record them. -/
inductive Trace (policy : ReconfigurationPolicy) (start : ClusterState) :
    ClusterState → List SlotPlan → Prop where
  | rest : Trace policy start start []
  | edit {state : ClusterState} {plans : List SlotPlan} {slot : Nat} {pass : Pass}
      {aim : List String} {after : List Replica} {steps : List ReconfigurationStep}
      (trace : Trace policy start state plans) (inside : slot < state.chains.length)
      (alive : pass ≠ .repair → DeadFree state) (setting : Setting policy start slot pass aim)
      (edit : Edit state slot aim pass after steps) :
      Trace policy start (state.setReplicas slot after)
        (plans ++ [⟨slot, state.chainAt slot, { state.chainAt slot with replicas := after }, steps⟩])

section Edit

variable {policy : ReconfigurationPolicy} {start state : ClusterState} {plans : List SlotPlan}
  {slot : Nat} {pass : Pass} {aim : List String} {after : List Replica}
  {steps : List ReconfigurationStep}

variable (hSound : Sound start)

include hSound

/-- The chain that the join finalization retires a replica of. -/
theorem joined_perm (hPath : Path policy start state plans) (hSlot : slot < state.chains.length)
    {chains : List Chain} (hAims : buildDesiredPlacementFromState start = .ok (some chains))
    {extra : String} (hSpare : ((state.activesAt slot).length : Int) = state.replicationFactor + 1)
    (hFound : extraNode (state.activesAt slot) (aimAt chains slot) = some extra) :
    (aimAt chains slot ++ [extra]).Perm (state.activesAt slot) ∧
      ((aimAt chains slot).length : Int) = state.replicationFactor := by
  have hState := hPath.sound hSound
  have hCount := hSound.count
  have hLength := hPath.length
  have hDesired := (buildDesiredPlacement_ok hSound hAims slot (by omega)).of_tables hPath.tables
  have hFull : ((aimAt chains slot).length : Int) = state.replicationFactor := hDesired.full
  have hFilter := extraNode_some
    (fun hMem => hState.named_of_mem (activeIDs_subset _ hMem)) hFound
  exact ⟨extra_perm (nodup_filter_ids hState slot _) hDesired.nodup (by omega) hFilter, hFull⟩

theorem exchanged_joins (hPath : Path policy start state plans) {chains : List Chain}
    (hAims : buildDesiredPlacementFromState start = .ok (some chains)) {added removed : String}
    (hSettled : hasPendingReplicaState (state.chainAt slot) = false)
    (hReplacement : oneMemberReplacement (state.activesAt slot) (aimAt chains slot) =
      some (added, removed)) : Joins state (state.chainAt slot).replicas [added] := by
  have hState := hPath.sound hSound
  have hKnown : ∀ id ∈ aimAt chains slot, _ := fun id => buildDesiredPlacement_mem hState
    ((buildDesired_tables hPath.tables).trans hAims)
  obtain ⟨hWanted, hOut⟩ := oneMemberReplacement_some
    (fun hMem => hState.named (hKnown _ hMem).1) hReplacement
  rw [ClusterState.activesAt, activeReplicaIDs_of_settled (by simp [hSettled])] at hOut
  exact .single (hKnown added hWanted) hOut

theorem Edit.change (hPath : Path policy start state plans) (hSlot : slot < state.chains.length)
    (hAlive : pass ≠ .repair → DeadFree state) (hSetting : Setting policy start slot pass aim)
    (h : Edit state slot aim pass after steps) : Change state slot after steps := by
  have hState := hPath.sound hSound
  cases h with
  | @repaired added dead anchored joins apart room =>
    refine .repaired dead joins fun hAdded => ?_
    have hSome := List.length_pos_iff.mpr hAdded
    omega
  | drained joinless draining full =>
    exact .retired ((hAlive (by simp)).containsDead slot) joinless (draining_perm state _) full draining
  | joined settled steady spare found =>
    cases hSetting with
    | join aims =>
      obtain ⟨hPerm, hFull⟩ := joined_perm hSound hPath hSlot aims spare found
      have hJoinless := settled
      rw [hasPendingReplicaState, Bool.or_eq_false_iff] at hJoinless
      exact .retired ((hAlive (by simp)).containsDead slot) hJoinless.1 hPerm hFull (by simp)
  | filled settled short begins wanted fresh =>
    cases hSetting with
    | fill aims =>
      have hMem := buildDesiredPlacement_mem hState ((buildDesired_tables hPath.tables).trans aims)
        wanted
      exact .appended ((hAlive (by simp)).containsDead slot) settled (.single hMem fresh)
  | replaced settled draining selected =>
    exact .appended ((hAlive (by simp)).containsDead slot) settled
      (selected_joins hState rfl selected).1
  | exchanged settled steady full replacement =>
    cases hSetting with
    | exchange free optional aims =>
      exact .appended ((hAlive (by simp)).containsDead slot) settled
        (exchanged_joins hSound hPath aims settled replacement)

theorem Edit.domains (hPath : Path policy start state plans) (hSlot : slot < state.chains.length)
    (hSetting : Setting policy start slot pass aim) (h : Edit state slot aim pass after steps) :
    KeepsApart state slot after ∨ Rebalanced policy start slot after := by
  have hState := hPath.sound hSound
  cases h with
  | repaired dead anchored joins apart room =>
    left
    intro hOld
    rw [replicaIDs_append, replicaIDs_joiners]
    exact apart (hOld.subset (survivors_sublist state slot).subset)
  | drained joinless draining full => exact .inl (.of_perm (draining_perm state _))
  | joined settled steady spare found =>
    cases hSetting with
    | join aims => exact .inl (.of_perm (joined_perm hSound hPath hSlot aims spare found).1)
  | filled settled short begins wanted fresh =>
    cases hSetting with
    | fill aims =>
      left
      intro _
      rw [replicaIDs_append]
      exact (aimAt_apart hState ((buildDesired_tables hPath.tables).trans aims) slot).subset
        (List.append_subset.mpr ⟨begins.subset, List.cons_subset.mpr ⟨wanted, List.nil_subset _⟩⟩)
  | replaced settled draining selected =>
    left
    intro hOld
    rw [replicaIDs_append]
    exact (selected_joins hState rfl selected).2 hOld
  | @exchanged added removed settled steady full replacement =>
    cases hSetting with
    | @exchange chains free optional aims =>
      -- The pass meets the chain as it was when the reconcile began.
      have hSame := hPath.untouched free slot settled
      rw [hSame] at settled ⊢
      rw [ClusterState.activesAt, hSame] at replacement
      exact .inr ⟨optional, added, removed, ⟨settled, chains, aims, replacement⟩, rfl⟩

end Edit

theorem Trace.path {policy : ReconfigurationPolicy} {start : ClusterState} (hSound : Sound start)
    (h : Trace policy start later plans) : Path policy start later plans := by
  induction h with
  | rest => exact .rest
  | edit trace inside alive setting edit ih =>
    exact ih.change inside (edit.change hSound ih inside alive setting)
      (edit.domains hSound ih inside setting)

/-! ## Sweeps -/

variable {pass : ClusterState → Nat → Except Error PassResult} {slots : List Nat} {remaining : Int}

/-- What every visit of a sweep preserves together with the slots seen and the plans gathered so far.
An unbounded sweep sees every slot. -/
theorem sweep_visits {P : List Nat → ClusterState → List SlotPlan → Prop}
    (hPass : ∀ seen state slot updated changed plans, slot ∈ slots → P seen state plans →
      pass state slot = .ok (updated, changed) → P (slot :: seen) updated (plans ++ changed.toList))
    (seen : List Nat) {more : List SlotPlan} (hState : P seen state plans)
    (h : sweep pass remaining slots state = .ok (later, more)) :
    ∃ visited, seen ⊆ visited ∧ (remaining < 0 → slots ⊆ visited) ∧
      P visited later (plans ++ more) := by
  induction slots generalizing remaining seen state plans more with
  | nil =>
    cases h
    exact ⟨seen, List.Subset.refl _, fun _ => List.nil_subset _, by rwa [List.append_nil]⟩
  | cons slot rest ih =>
    rw [sweep] at h
    split at h
    · rename_i hZero
      cases h
      exact ⟨seen, List.Subset.refl _, fun hNeg => by omega, by rwa [List.append_nil]⟩
    obtain ⟨⟨next, changed⟩, hRun, h⟩ := bind_eq_ok.mp h
    have hNext := hPass seen state slot next changed plans List.mem_cons_self hState hRun
    have hRest := fun seen state slot updated changed plans hSlot =>
      hPass seen state slot updated changed plans (List.mem_cons_of_mem _ hSlot)
    cases changed with
    | none =>
      rw [Option.toList_none, List.append_nil] at hNext
      obtain ⟨visited, hSeen, hAll, hLater⟩ := ih hRest _ hNext h
      obtain ⟨hSlot, hSeen⟩ := List.cons_subset.mp hSeen
      exact ⟨visited, hSeen, fun hNeg => List.cons_subset.mpr ⟨hSlot, hAll hNeg⟩, hLater⟩
    | some slotPlan =>
      obtain ⟨⟨final, others⟩, hSweep, h⟩ := bind_eq_ok.mp h
      cases h
      obtain ⟨visited, hSeen, hAll, hLater⟩ := ih hRest _ hNext hSweep
      obtain ⟨hSlot, hSeen⟩ := List.cons_subset.mp hSeen
      rw [List.append_cons]
      refine ⟨visited, hSeen, fun hNeg => List.cons_subset.mpr ⟨hSlot, hAll ?_⟩, hLater⟩
      split <;> omega

theorem sweep_gathers {P : ClusterState → List SlotPlan → Prop}
    (hPass : ∀ state slot updated changed plans, slot ∈ slots → P state plans →
      pass state slot = .ok (updated, changed) → P updated (plans ++ changed.toList))
    {more : List SlotPlan} (hState : P state plans)
    (h : sweep pass remaining slots state = .ok (later, more)) : P later (plans ++ more) := by
  obtain ⟨visited, -, -, hLater⟩ := sweep_visits (P := fun _ => P) (fun _ => hPass) [] hState h
  exact hLater

theorem sweep_induction {P : ClusterState → Prop}
    (hPass : ∀ state slot updated changed, slot ∈ slots → P state →
      pass state slot = .ok (updated, changed) → P updated) (hState : P state)
    (h : sweep pass remaining slots state = .ok (later, plans)) : P later := by
  obtain ⟨visited, -, -, hLater⟩ := @sweep_visits state later [] pass slots remaining
    (fun _ state _ => P state)
    (fun _ state slot updated changed _ => hPass state slot updated changed) [] plans hState h
  exact hLater

section Reconcile

variable {policy : ReconfigurationPolicy} {start state later : ClusterState}
  {plans more : List SlotPlan}

theorem Trace.visit (h : Trace policy start state plans) {slot : Nat} {pass : Pass}
    {aim : List String} (hSlot : slot < state.chains.length)
    (hAlive : pass ≠ .repair → DeadFree state) (hSetting : Setting policy start slot pass aim)
    {updated : ClusterState} {changed : Option SlotPlan}
    (hEdits : Edits state slot aim pass (updated, changed)) :
    Trace policy start updated (plans ++ changed.toList) := by
  rcases hEdits with hNone | ⟨after, steps, hMade, hEdit⟩
  · cases hNone
    simpa using h
  · rw [changeChain, setReplicas_chainAt_self _ _ _ hSlot] at hMade
    cases hMade
    exact h.edit hSlot hAlive hSetting hEdit

variable (hSound : Sound start)

include hSound

theorem Path.inside (h : Path policy start state plans) {slot : Nat}
    (hSlot : slot < start.slotCount.toNat) : slot < state.chains.length := by
  have hCount := hSound.count
  rw [h.length]
  omega

theorem Trace.sweep {pass : Pass} {aim : Nat → List String}
    {run : ClusterState → Nat → Except Error PassResult}
    (hRun : ∀ state slot result, run state slot = .ok result →
      Edits state slot (aim slot) pass result)
    (hSetting : ∀ slot, Setting policy start slot pass (aim slot))
    (hSlots : ∀ slot ∈ slots, slot < start.slotCount.toNat) (h : Trace policy start state plans)
    (hFree : DeadFree state) (hSweep : sweep run remaining slots state = .ok (later, more)) :
    Trace policy start later (plans ++ more) ∧ DeadFree later := by
  refine sweep_gathers (P := fun state plans => Trace policy start state plans ∧ DeadFree state) ?_
    ⟨h, hFree⟩ hSweep
  rintro state slot updated changed plans hSlot ⟨hTrace, hFree⟩ hStep
  have hPath := hTrace.path hSound
  have hInside := hPath.inside hSound (hSlots slot hSlot)
  have hEdits := hRun state slot _ hStep
  refine ⟨hTrace.visit hInside (fun _ => hFree) (hSetting slot) hEdits, ?_⟩
  rcases hEdits with hNone | ⟨after, steps, hMade, hEdit⟩
  · cases hNone
    exact hFree
  · cases hMade
    exact (hEdit.change hSound hPath hInside (fun _ => hFree) (hSetting slot)).deadFree hFree

theorem repair_sweep
    (h : sweep repairDeadReplicas (-1) (List.range start.slotCount.toNat) start =
      .ok (later, plans)) : Trace policy start later plans ∧ DeadFree later := by
  let Keeps := fun (seen : List Nat) state plans => Trace policy start state plans ∧
    ∀ i ∈ seen, ∀ id ∈ ClusterState.idsAt state i, state.isDead id = false
  have hVisit : ∀ seen state slot updated changed plans,
      slot ∈ List.range start.slotCount.toNat → Keeps seen state plans →
      repairDeadReplicas state slot = .ok (updated, changed) →
      Keeps (slot :: seen) updated (plans ++ changed.toList) := by
    rintro seen state slot updated changed plans hSlot ⟨hTrace, hAlive⟩ hRun
    have hPath := hTrace.path hSound
    have hState := hPath.sound hSound
    have hInside := hPath.inside hSound (List.mem_range.mp hSlot)
    rcases repairDeadReplicas_edits hState hInside [] hRun with
      ⟨hNone, hFound⟩ | ⟨after, steps, hMade, hEdit⟩
    · cases hNone
      refine ⟨by simpa using hTrace, List.forall_mem_cons.mpr ⟨?_, hAlive⟩⟩
      exact fun id => isDead_of_alive_chain hFound
    · refine ⟨hTrace.visit hInside (absurd rfl) .repair (.inr ⟨after, steps, hMade, hEdit⟩), ?_⟩
      have hChange := hEdit.change hSound hPath hInside (absurd rfl) .repair
      cases hMade
      refine List.forall_mem_cons.mpr ⟨?_, fun i hi => hChange.alive_at (hAlive i hi)⟩
      rw [ClusterState.idsAt, setReplicas_chainAt_self _ _ _ hInside]
      exact hChange.alive
  obtain ⟨visited, -, hAll, hTrace, hAlive⟩ := sweep_visits hVisit [] ⟨.rest, List.forall_mem_nil _⟩ h
  refine ⟨hTrace, fun i => ?_⟩
  rcases Nat.lt_or_ge i start.slotCount.toNat with hi | hi
  · exact hAlive i (hAll (by decide) (List.mem_range.mpr hi))
  · have hCount := hSound.count
    have hLength := (hTrace.path hSound).length
    have hOut : ¬i < later.chains.length := by omega
    simp [ClusterState.chainAt, hOut, replicaIDs]

theorem drain_sweep (h : Trace policy start state plans) (hFree : DeadFree state)
    (hRun : sweep (fun s i => .ok (finalizeDrainReplacement s i)) (-1)
      (List.range start.slotCount.toNat) state = .ok (later, more)) :
    Trace policy start later (plans ++ more) ∧ DeadFree later := by
  refine h.sweep hSound (fun state slot result hRun => ?_) (fun _ => .drain)
    (fun slot => List.mem_range.mp) hFree hRun
  cases hRun
  exact finalizeDrainReplacement_edits state slot []

variable {desired : Option (List Chain)}

theorem finishTransitions_trace (h : finishTransitions start = .ok (later, desired, plans)) :
    Trace policy start later plans ∧ DeadFree later ∧
      buildDesiredPlacementFromState start = .ok desired := by
  obtain ⟨⟨repaired, repairs⟩, hRepair, h⟩ := bind_eq_ok.mp h
  obtain ⟨⟨drained, drains⟩, hDrain, h⟩ := bind_eq_ok.mp h
  obtain ⟨target, hTarget, h⟩ := bind_eq_ok.mp h
  obtain ⟨hRepaired, hRepairedFree⟩ : Trace policy start repaired repairs ∧ _ :=
    repair_sweep hSound hRepair
  obtain ⟨hDrained, hFree⟩ := drain_sweep hSound hRepaired hRepairedFree hDrain
  rw [buildDesired_tables (hDrained.path hSound).tables] at hTarget
  cases target with
  | none =>
    cases h
    exact ⟨hDrained, hFree, hTarget⟩
  | some chains =>
    obtain ⟨⟨joined, joins⟩, hJoin, h⟩ := bind_eq_ok.mp h
    cases h
    obtain ⟨hJoined, hJoinedFree⟩ := hDrained.sweep hSound
      (fun state slot result hRun => by
        cases hRun
        exact finalizeJoinRebalance_edits (desiredAt chains slot) state slot)
      (fun _ => .join hTarget) (fun slot => List.mem_range.mp) hFree hJoin
    exact ⟨hJoined, hJoinedFree, hTarget⟩

theorem fillMissing_trace (hFree : DeadFree start)
    (hAims : buildDesiredPlacementFromState start = .ok desired)
    (h : fillMissing policy desired start = .ok (later, plans)) :
    Trace policy start later plans := by
  cases desired with
  | none =>
    cases h
    exact .rest
  | some chains =>
    refine (Trace.rest.sweep hSound (fun state slot result hRun => ?_) (fun _ => .fill hAims)
      (fun slot => mem_appendPrioritySlots hSound) hFree h).1
    cases hRun
    exact appendMissingDesiredReplicas_edits (desiredAt chains slot) state slot

theorem startTransitions_trace (hFree : DeadFree start)
    (hIdle : ∀ i, (finalizeDrainReplacement start i).2 = none)
    (hAims : buildDesiredPlacementFromState start = .ok desired)
    (h : startTransitions policy desired start = .ok (later, plans)) :
    Trace policy start later plans := by
  obtain ⟨⟨replaced, replacements⟩, hReplace, h⟩ := bind_eq_ok.mp h
  have hStart : Trace policy start start [] := .rest
  obtain ⟨hReplaced, hReplacedFree⟩ := hStart.sweep hSound
    (fun state slot result hRun => appendDrainReplacement_edits [] hRun)
    (fun _ => .replace hFree hIdle) (fun slot => List.mem_range.mp) hFree hReplace
  rw [List.nil_append] at hReplaced
  cases desired with
  | none =>
    cases h
    exact hReplaced
  | some chains =>
    dsimp only at h
    split at h
    · cases h
      exact hReplaced
    rename_i hPolicy
    obtain ⟨⟨rebalanced, joins⟩, hJoin, h⟩ := bind_eq_ok.mp h
    cases h
    exact (hReplaced.sweep hSound (fun state slot result hRun => appendJoinRebalance_edits hRun)
      (fun _ => .exchange hFree (not_le.mp hPolicy) hAims) (fun slot => List.mem_range.mp) hReplacedFree
      hJoin).1

theorem NothingToFinish.idle (h : NothingToFinish start desired) (i : Nat) :
    (finalizeDrainReplacement start i).2 = none := by
  rcases Nat.lt_or_ge i start.slotCount.toNat with hi | hi
  · rw [h.drain i hi]
  · have hCount := hSound.count
    have hOut : ¬i < start.chains.length := by omega
    simp [finalizeDrainReplacement, ClusterState.chainAt, hOut, hasJoiningReplica,
      activeReplicaIDsWithDrain, replicaIDs]

theorem reconcileState_trace (hRun : reconcileState start policy = .ok (later, plans)) :
    Trace policy start later plans ∧ DeadFree later := by
  obtain ⟨⟨finished, desired, finals⟩, hFinish, h⟩ := bind_eq_ok.mp hRun
  obtain ⟨hFinished, hFree, hAims⟩ : Trace policy start finished finals ∧ _ :=
    finishTransitions_trace hSound hFinish
  dsimp only at h
  split at h
  · cases h
    exact ⟨hFinished, hFree⟩
  rename_i hNone
  obtain rfl : finals = [] := by simpa using hNone
  obtain rfl := (hFinished.path hSound).eq_of_nil
  have hDone : ∀ {later plans}, Trace policy finished later plans →
      Trace policy finished later plans ∧ DeadFree later :=
    fun hTrace => ⟨hTrace, (hTrace.path hSound).deadFree hFree⟩
  obtain ⟨⟨filled, fills⟩, hFill, hRest⟩ := bind_eq_ok.mp h
  have hFilled := fillMissing_trace hSound hFree hAims hFill
  dsimp only at hRest
  split at hRest
  · cases hRest
    exact hDone hFilled
  rename_i hNone
  obtain rfl : fills = [] := by simpa using hNone
  obtain rfl := (hFilled.path hSound).eq_of_nil
  have hNothing := ((finishTransitions_eq_nil_iff hFree).mp hFinish).2.2
  exact hDone (startTransitions_trace hSound hFree (hNothing.idle hSound) hAims hRest)

theorem reconcileState_path (hRun : reconcileState start policy = .ok (later, plans)) :
    Path policy start later plans :=
  (reconcileState_trace hSound hRun).1.path hSound

end Reconcile

end Craq.Coordinator
