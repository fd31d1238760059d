import Craq.Coordinator.Changed
import Craq.Runtime.Replay

/-! # Chains and pending work

What a freshly executed command does to the chains of the cluster, and why a pending activation
always concerns a replica that joins behind every active one.
-/

namespace Craq.Runtime

open Lib
open Coordinator (AwaitsTail ClusterState DeadFree ReconfigurationPlan Sound SlotPlan lastAfter)

/-! ## Fresh commands -/

theorem evaluateCommand_fresh {state : State} (hNormal : cloneState state = state) {cmd : Command}
    (hNone : state.appliedCommands[cmd.id]? = none) {evaluated : EvaluatedCommand}
    (h : evaluateCommand state cmd = .ok evaluated) :
    cmd.expectedVersion = state.version ∧ ∃ cluster plan, Executed state cmd cluster plan ∧
      evaluated.plan = plan.map clonePlan ∧ evaluated.nextState =
        nextStateForApplied state (state.lastLogIndex + 1) cmd cluster plan := by
  rw [evaluateCommand, hNormal] at h
  obtain ⟨execution, hExecution, h⟩ := bind_eq_ok.mp h
  cases execution with
  | duplicate applied =>
    rw [executeCommand] at hExecution
    obtain ⟨found, hFound, hExecution⟩ := bind_eq_ok.mp hExecution
    obtain ⟨-, -, ⟨recorded, hRecorded, -⟩ | ⟨-, rfl⟩⟩ := validateCommand_ok (ok_of_mapError hFound)
    · rw [hNone] at hRecorded
      cases hRecorded
    · obtain ⟨_, -, hExecution⟩ := bind_eq_ok.mp hExecution
      cases hExecution
  | fresh cluster plan =>
    cases h
    obtain ⟨hValid, hFresh⟩ := executeCommand_fresh_iff.mp hExecution
    obtain ⟨-, -, -, hVersion⟩ := validateCommand_none_iff.mp hValid
    exact ⟨hVersion, cluster, plan, executeFresh_executed hFresh, rfl, rfl⟩

/-! ## The invariant -/

/-- Before the bootstrap there is no chain; after it the planner's invariant holds. -/
def Placed (cluster : ClusterState) : Prop :=
  (Sound cluster ∧ DeadFree cluster) ∨ (¬0 < cluster.slotCount ∧ cluster.chains = [])

structure View.Regular (view : View) : Prop where
  placed : Placed view.cluster
  awaits : ∀ (slot : Nat) (pending : PendingWork), view.pendingBySlot[slot]? = some pending →
    pending.kind = .ready → AwaitsTail (view.cluster.chainAt slot) pending.nodeID

theorem zeroState_regular : zeroState.Regular where
  placed := .inr ⟨by decide, rfl⟩
  awaits := by simp [zeroState]

theorem Placed.sound {view : View} (h : Placed view.cluster) (hInit : view.isInitialized = true) :
    Sound view.cluster ∧ DeadFree view.cluster := by
  rcases h with hSound | ⟨hZero, -⟩
  · exact hSound
  · rw [View.isInitialized, decide_eq_true_eq] at hInit
    exact absurd hInit hZero

variable {cluster : ClusterState}

theorem sound_clone (h : Sound cluster) :
    Sound (cloneClusterState cluster) where
  __ := h
  deadNotReady id hDead hMem := by
    rw [cloneClusterState, Std.ExtTreeMap.mem_iff_isSome_getElem?, getElem?_filter_value] at hMem
    refine h.deadNotReady id hDead (Std.ExtTreeMap.mem_iff_isSome_getElem?.mpr ?_)
    obtain ⟨mark, hMark⟩ := Option.isSome_iff_exists.mp hMem
    exact Option.isSome_iff_exists.mpr ⟨mark, (Option.filter_eq_some_iff.mp hMark).1⟩

theorem Placed.clone (h : Placed cluster) : Placed (cloneClusterState cluster) := by
  rcases h with ⟨hSound, hFree⟩ | hNone
  · exact .inl ⟨sound_clone hSound, hFree⟩
  · exact .inr hNone

theorem Placed.markReady (h : Placed cluster) (nodeID : String) :
    Placed (markReady cluster nodeID) := by
  rw [Runtime.markReady]
  split
  · exact h
  · rename_i hAlive
    rcases h with ⟨hSound, hFree⟩ | hNone
    · exact .inl ⟨hSound.markReady (by simpa using hAlive), hFree⟩
    · exact .inr hNone

theorem markReady_chains (cluster : ClusterState) (nodeID : String) :
    (markReady cluster nodeID).chains = cluster.chains := by
  rw [markReady]
  split <;> rfl

theorem nextClusterState_chains (cluster : ClusterState) (cmd : Command) :
    (nextClusterState cluster cmd).chains = cluster.chains := by
  rw [nextClusterState]
  split
  · cases cmd.nodeReady with
    | none => rfl
    | some ready => exact markReady_chains ..
  · cases cmd.heartbeat with
    | none => rfl
    | some beat => exact markReady_chains ..
  · rfl

theorem Placed.next (h : Placed cluster) (cmd : Command) :
    Placed (nextClusterState (cloneClusterState cluster) cmd) := by
  rw [nextClusterState]
  split
  · cases cmd.nodeReady with
    | none => exact h.clone
    | some ready => exact h.clone.markReady _
  · cases cmd.heartbeat with
    | none => exact h.clone
    | some beat => exact h.clone.markReady _
  · exact h.clone

theorem nextView_chainAt (view : View) (logIndex : Nat) (cmd : Command) (cluster : ClusterState)
    (plan : Option ReconfigurationPlan) (slot : Nat) :
    (nextView view logIndex cmd cluster plan).cluster.chainAt slot = cluster.chainAt slot :=
  Coordinator.chainAt_congr ((nextClusterState_chains _ cmd).trans rfl) slot

/-! ## Pending activations -/

theorem pendingOfSlotPlan_ready {slotVersions : Std.ExtTreeMap Nat Nat} {slotPlan : SlotPlan}
    {pending : PendingWork} (hShape : slotPlan.Shaped)
    (h : pendingOfSlotPlan slotVersions slotPlan = some pending) (hReady : pending.kind = .ready) :
    AwaitsTail slotPlan.after pending.nodeID := by
  simp only [pendingOfSlotPlan] at h
  split at h
  · split at h
    · cases h
    rename_i hNamed
    cases h
    -- The step that names the node is the first one: every step of the plan appends.
    cases hSteps : slotPlan.steps with
    | nil => simp [firstStepNodeID, hSteps] at hNamed
    | cons step rest =>
      have hKind : step.kind = .appendTail := by
        by_contra hOther
        cases hShape with
        | appends kept kinds => exact hOther (kinds step (by simp [hSteps]))
        | retires kept hSome kinds =>
          refine hNamed ?_
          have hNone : slotPlan.steps.find? (·.kind = .appendTail) = none := by
            rw [List.find?_eq_none]
            intro other hMem
            simp [kinds other hMem]
          rw [firstStepNodeID, hNone]
          rfl
      have hFirst : firstStepNodeID (step :: rest) .appendTail = step.nodeID := by
        simp [firstStepNodeID, hKind]
      rw [hFirst]
      exact hShape.awaitsTail hSteps hKind
  split at h
  · split at h
    · cases h
    · cases h
      cases hReady
  · cases h

/-- The pending work and the chain of a slot come from the same plan, the last one of the slot. -/
theorem pendingFromPlan_awaits {slotVersions : Std.ExtTreeMap Nat Nat} {plan : ReconfigurationPlan}
    (hShape : ∀ slotPlan ∈ plan.changedSlots, slotPlan.Shaped)
    {current : Std.ExtTreeMap Nat PendingWork} {slot : Nat} {chain : Coordinator.Chain}
    (hCurrent : ∀ pending : PendingWork, current[slot]? = some pending → pending.kind = .ready →
      AwaitsTail chain pending.nodeID) {pending : PendingWork}
    (h : (pendingFromPlan current slotVersions plan)[slot]? = some pending)
    (hReady : pending.kind = .ready) :
    AwaitsTail (lastAfter slot chain plan.changedSlots) pending.nodeID := by
  rw [pendingFromPlan] at h
  generalize plan.changedSlots = plans at hShape h
  induction plans generalizing current chain with
  | nil => exact hCurrent pending h hReady
  | cons slotPlan rest ih =>
    rw [List.foldl_cons] at h
    rw [lastAfter, List.foldl_cons]
    refine ih ?_ (fun other hOther => hShape other (List.mem_cons_of_mem _ hOther)) h
    intro found hFound hKind
    split
    · rename_i hSlot
      cases hPlan : pendingOfSlotPlan slotVersions slotPlan with
      | none => simp [hPlan, hSlot] at hFound
      | some work =>
        simp only [hPlan, Option.elim_some, hSlot, Std.ExtTreeMap.getElem?_insert_self,
          Option.some.injEq] at hFound
        subst hFound
        exact pendingOfSlotPlan_ready (hShape slotPlan List.mem_cons_self) hPlan hKind
    · rename_i hSlot
      refine hCurrent found ?_ hKind
      rw [← hFound]
      cases pendingOfSlotPlan slotVersions slotPlan with
      | none => simp [getElem?_erase_ite, hSlot]
      | some work => simp [getElem?_insert_ite, getElem?_erase_ite, hSlot]

/-- A reconfiguration carries membership events only. -/
def Command.Orderly (cmd : Command) : Prop :=
  cmd.kind = .reconfigure → ∀ reconfigure, cmd.reconfigure = some reconfigure →
    ∀ event ∈ reconfigure.events, event.kind.IsMembership

theorem View.Regular.next {state : State} (h : state.Regular) (hNormal : cloneState state = state)
    {cmd : Command} (hOrderly : cmd.Orderly) {plan : Option ReconfigurationPlan}
    (hExecuted : Executed state cmd cluster plan) (logIndex : Nat) :
    (nextView state.toView logIndex cmd cluster plan).Regular := by
  have hCluster : cloneClusterState state.cluster = state.cluster :=
    congrArg (fun s : State => s.cluster) hNormal
  refine ⟨?_, ?_⟩
  · refine Placed.next ?_ cmd
    cases hExecuted with
    | placed _ _ _ built => exact Placed.clone (.inl (Coordinator.buildInitialPlacement_ok built))
    | planned _ _ initialized plans =>
      obtain ⟨hSound, hFree⟩ := h.placed.sound initialized
      rw [hCluster] at plans
      exact Placed.clone (.inl (Coordinator.planReconfiguration_sound hSound hFree plans))
    | progressed _ _ initialized applied =>
      obtain ⟨hSound, hFree⟩ := h.placed.sound initialized
      rw [hCluster] at applied
      exact Placed.clone (.inl (Coordinator.applyProgress_sound hSound hFree applied))
    | kept _ => exact h.placed.clone
  · intro slot pending hPending hReady
    rw [nextView_chainAt]
    cases hExecuted with
    | placed kind => simp [nextView, nextPending, kind] at hPending
    | planned kind hPayload initialized plans =>
      rw [hCluster] at plans
      have hExplains := Coordinator.planReconfiguration_explains (h.placed.sound initialized).1
        (hOrderly kind _ hPayload) plans
      simp only [nextView, nextPending, kind, Option.elim_some] at hPending
      have hAwaits := pendingFromPlan_awaits (fun slotPlan hMem => (hExplains.after slotPlan hMem).1)
        (h.awaits slot) hPending hReady
      rw [← hExplains.chain] at hAwaits
      exact hAwaits
    | @progressed progress updated kind hPayload initialized applied =>
      simp only [nextView, nextPending, kind, hPayload, Option.elim_some,
        getElem?_erase_ite] at hPending
      split at hPending
      · cases hPending
      rename_i hSlot
      rw [hCluster] at applied
      have hSame := Coordinator.applyProgress_chainAt_of_ne (h.placed.sound initialized).1 applied
        (Ne.symm hSlot)
      have hAwaits := h.awaits slot pending hPending hReady
      rw [← hSame] at hAwaits
      exact hAwaits
    | kept kind =>
      have hSame : nextPending state.pendingBySlot
          (nextSlotVersions state.slotVersions cmd.kind (cloneClusterState state.cluster) none) cmd
          none = state.pendingBySlot := by
        simp only [List.mem_cons, List.not_mem_nil, or_false] at kind
        rcases kind with kind | kind | kind | kind <;> simp [nextPending, kind]
      rw [nextView, hSame] at hPending
      exact h.awaits slot pending hPending hReady

end Craq.Runtime
