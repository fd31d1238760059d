import Craq.Runtime.Pending

/-! # Transitions that are waited for

The runtime waits for one report at a slot.  A plan that leaves a second transition in a chain, or
that repairs a chain without steps while a transition is under way, leaves a replica that no report
is waited for.  Where every plan starts from chains that need at most one transition, every
transition is waited for until it ends.
-/

namespace Craq.Runtime

open Lib
open Coordinator (Chain Change ClusterState DeadFree Path ReconfigurationPlan ReconfigurationPolicy
  ReconfigurationStep Replica SlotPlan Sound activeIDs chainContainsDeadReplica joiners)

set_option linter.dupNamespace false

def unsettled (replicas : List Replica) : List Replica :=
  replicas.filter (·.state ≠ .active)

/-- If any replica of the chain joins or leaves, then the work waits for one of them. -/
def Awaited (chain : Chain) (pending : Option PendingWork) : Prop :=
  unsettled chain.replicas ≠ [] →
    ∃ work, pending = some work ∧ ⟨work.nodeID, work.kind.awaited⟩ ∈ chain.replicas

/-- No replica joins or leaves but the one the work waits for. -/
def Tracked (chain : Chain) (pending : Option PendingWork) : Prop :=
  unsettled chain.replicas = [] ∨
    ∃ work, pending = some work ∧ unsettled chain.replicas = [⟨work.nodeID, work.kind.awaited⟩]

theorem Tracked.awaited {chain : Chain} {pending : Option PendingWork} (h : Tracked chain pending) :
    Awaited chain pending := by
  intro hSome
  rcases h with hNone | ⟨work, hWork, hOne⟩
  · exact absurd hNone hSome
  · refine ⟨work, hWork, List.mem_of_mem_filter (p := (·.state ≠ .active)) ?_⟩
    rw [unsettled] at hOne
    rw [hOne]
    exact List.mem_singleton_self _

theorem unsettled_eq_nil_iff {replicas : List Replica} :
    unsettled replicas = [] ↔ ∀ replica ∈ replicas, replica.state = .active := by
  simp [unsettled, List.filter_eq_nil_iff]

theorem unsettled_append (first second : List Replica) :
    unsettled (first ++ second) = unsettled first ++ unsettled second :=
  List.filter_append ..

theorem unsettled_settled {replicas : List Replica} {index : Nat} {replica only : Replica}
    (hOne : unsettled replicas = [only]) (hIndex : replicas[index]? = some replica)
    (hState : replica.state ≠ .active) :
    unsettled (replicas.modify index fun replica => { replica with state := .active }) = [] ∧
      unsettled (replicas.eraseIdx index) = [] := by
  obtain ⟨before, behind, rfl, rfl⟩ : ∃ before behind,
      replicas = before ++ replica :: behind ∧ index = before.length := by
    obtain ⟨hLt, hGet⟩ := List.getElem?_eq_some_iff.mp hIndex
    refine ⟨replicas.take index, replicas.drop (index + 1), ?_, ?_⟩
    · rw [← hGet, List.getElem_cons_drop, List.take_append_drop]
    · rw [List.length_take]
      omega
  have hReplica : unsettled [replica] = [replica] := by
    simp [unsettled, hState]
  rw [List.append_cons, unsettled_append, unsettled_append, hReplica] at hOne
  have hLength := congrArg List.length hOne
  simp only [List.length_append, List.length_singleton] at hLength
  have hBefore : unsettled before = [] := List.eq_nil_of_length_eq_zero (by omega)
  have hBehind : unsettled behind = [] := List.eq_nil_of_length_eq_zero (by omega)
  constructor
  · rw [Coordinator.modify_middle, List.append_cons, unsettled_append, unsettled_append, hBefore,
      hBehind]
    simp [unsettled]
  · rw [List.eraseIdx_append_of_length_le le_rfl, unsettled_append, hBefore]
    simpa using hBehind

/-! ## One plan -/

/-- The chains of a cluster need at most one transition each: a chain with dead replicas has only
active ones beside them and misses at most one, and no chain has more than one active replica too
many. -/
structure Manageable (start : ClusterState) : Prop where
  repairs : ∀ slot, chainContainsDeadReplica start (start.chainAt slot) = true →
    unsettled (start.survivors slot) = [] ∧
      start.replicationFactor ≤ (start.survivors slot).length + 1
  surplus : ∀ slot,
    ((activeIDs (start.survivors slot)).length : Int) ≤ start.replicationFactor + 1

theorem survivors_of_alive {state : ClusterState} {slot : Nat}
    (h : chainContainsDeadReplica state (state.chainAt slot) = false) :
    state.survivors slot = (state.chainAt slot).replicas := by
  rw [ClusterState.survivors, List.filter_eq_self]
  intro replica hReplica
  rw [Coordinator.isDead_of_alive_chain h (Coordinator.mem_replicaIDs.mpr ⟨replica, hReplica, rfl⟩)]
  rfl

theorem pendingOfSlotPlan_appended (slotVersions : Std.ExtTreeMap Nat Nat) (slot : Nat)
    (before after : Chain) {nodeID : String} (replaced : String) (hNamed : nodeID ≠ "") :
    pendingOfSlotPlan slotVersions ⟨slot, before, after, [⟨.appendTail, slot, nodeID, replaced⟩]⟩ =
      some ⟨slot, nodeID, .ready, slotVersions[slot]?.getD 0, ""⟩ := by
  have hKinds : [Coordinator.StepKind.appendTail].eraseDups = [.appendTail] := rfl
  simp [pendingOfSlotPlan, distinctStepKinds, firstStepNodeID, hNamed, hKinds]

theorem pendingOfSlotPlan_retired (slotVersions : Std.ExtTreeMap Nat Nat) (slot : Nat)
    (before after : Chain) {nodeID : String} (hNamed : nodeID ≠ "") :
    pendingOfSlotPlan slotVersions ⟨slot, before, after, [⟨.markLeaving, slot, nodeID, ""⟩]⟩ =
      some ⟨slot, nodeID, .removed, slotVersions[slot]?.getD 0, ""⟩ := by
  have hKinds : [Coordinator.StepKind.markLeaving].eraseDups = [.markLeaving] := rfl
  simp [pendingOfSlotPlan, distinctStepKinds, firstStepNodeID, hNamed, hKinds]

section Change

variable {state : ClusterState} {slot : Nat} {after : List Replica}
  {steps : List ReconfigurationStep}

theorem Change.tracked (h : Change state slot after steps) (hSound : Sound state)
    (hRepairs : chainContainsDeadReplica state (state.chainAt slot) = true →
      unsettled (state.survivors slot) = [] ∧
        state.replicationFactor ≤ (state.survivors slot).length + 1)
    (hSurplus : chainContainsDeadReplica state (state.chainAt slot) = false →
      ((state.activesAt slot).length : Int) ≤ state.replicationFactor + 1)
    (slotVersions : Std.ExtTreeMap Nat Nat) (before chain : Chain) :
    Tracked { chain with replicas := after } (pendingOfSlotPlan slotVersions
      ⟨slot, before, { chain with replicas := after }, steps⟩) := by
  have hNamed : ∀ id ∈ state.nodesByID, id ≠ "" := by
    rintro _ hid rfl
    exact hSound.named hid
  cases h with
  | @repaired added dead joins room =>
    obtain ⟨hSettled, hMissing⟩ := hRepairs dead
    rcases added with _ | ⟨nodeID, _ | ⟨second, rest⟩⟩
    · left
      rw [joiners, List.map_nil, List.append_nil]
      exact hSettled
    · right
      refine ⟨_, pendingOfSlotPlan_appended _ _ _ _ _ (hNamed nodeID (joins.known _ (by simp))), ?_⟩
      rw [unsettled_append, hSettled]
      rfl
    · have hRoom := room (by simp)
      simp only [List.length_cons] at hRoom
      omega
  | @appended nodeID replaced alive settled joins =>
    right
    refine ⟨_, pendingOfSlotPlan_appended _ _ _ _ _ (hNamed nodeID (joins.known _ (by simp))), ?_⟩
    have hSettled : unsettled (state.chainAt slot).replicas = [] := by
      rw [unsettled_eq_nil_iff]
      simp only [Coordinator.hasPendingReplicaState, Coordinator.hasJoiningReplica,
        Coordinator.hasLeavingReplica, Bool.or_eq_false_iff, List.any_eq_false,
        decide_eq_true_eq] at settled
      intro replica hReplica
      have hJoining := settled.1 replica hReplica
      have hLeaving := settled.2 replica hReplica
      cases hState : replica.state with
      | joining => exact absurd hState hJoining
      | active => rfl
      | leaving => exact absurd hState hLeaving
    rw [unsettled_append, hSettled]
    rfl
  | @retired kept left alive joinless perm full left_ne =>
    right
    have hLength := perm.length_eq
    have hActives := hSurplus alive
    rw [List.length_append] at hLength
    rcases left with _ | ⟨nodeID, _ | ⟨second, rest⟩⟩
    · exact absurd rfl left_ne
    · have hActive : nodeID ∈ state.activesAt slot := perm.mem_iff.mp (by simp)
      refine ⟨_, pendingOfSlotPlan_retired _ _ _ _
        (hNamed nodeID (hSound.known slot _ (Coordinator.activeIDs_subset _ hActive))), ?_⟩
      have hKept : unsettled (kept.map (⟨·, .active⟩)) = [] := by
        simp [unsettled]
      rw [unsettled_append, hKept]
      rfl
    · simp only [List.length_cons] at hLength
      omega

theorem Change.actives_le (h : Change state slot after steps)
    (hSurplus : ((activeIDs (state.survivors slot)).length : Int) ≤ state.replicationFactor + 1) :
    ((activeIDs after).length : Int) ≤ state.replicationFactor + 1 := by
  cases h with
  | @repaired added dead joins room =>
    have hSame : activeIDs (state.survivors slot ++ joiners added) =
        activeIDs (state.survivors slot) := by
      simp [activeIDs, joiners, List.filter_map, Function.comp_def]
    rw [hSame]
    exact hSurplus
  | @appended nodeID replaced alive settled joins =>
    rw [Coordinator.activeIDs_append_joining, ← survivors_of_alive alive]
    exact hSurplus
  | @retired kept left alive joinless perm full left_ne =>
    rw [Coordinator.activeIDs_active_append_leaving]
    omega

end Change

theorem survivors_of_tables {start state : ClusterState}
    (h : state = { start with chains := state.chains }) {slot : Nat}
    (hChain : state.chainAt slot = start.chainAt slot) :
    state.survivors slot = start.survivors slot := by
  rw [ClusterState.survivors, ClusterState.survivors, hChain]
  congr 1
  funext replica
  rw [Coordinator.tables_isDead h]

theorem Path.tracked {policy : ReconfigurationPolicy} {start later : ClusterState}
    {plans : List SlotPlan} (h : Path policy start later plans) (hSound : Sound start)
    (hManageable : Manageable start) (slotVersions : Std.ExtTreeMap Nat Nat)
    {current : Std.ExtTreeMap Nat PendingWork}
    (hStart : ∀ slot, Tracked (start.chainAt slot) current[slot]?) :
    ∀ slot, Tracked (later.chainAt slot) (plans.foldl (pendingStep slotVersions) current)[slot]? ∧
      ((activeIDs (later.survivors slot)).length : Int) ≤ start.replicationFactor + 1 := by
  induction h with
  | rest => exact fun slot => ⟨hStart slot, hManageable.surplus slot⟩
  | @change state plans slot after steps path inside change domains ih =>
    have hFactor := Coordinator.tables_factor path.tables
    intro i
    rw [List.foldl_append, List.foldl_cons, List.foldl_nil, pendingStep_getElem?]
    by_cases hi : i = slot
    · subst hi
      rw [Coordinator.setReplicas_chainAt_self _ _ _ inside, if_pos rfl]
      have hSurplus := (ih i).2
      rw [← hFactor] at hSurplus
      constructor
      · refine Change.tracked change (path.sound hSound) ?_ ?_ slotVersions _ _
        · intro hDead
          have hSame := path.unrepaired hDead
          rw [survivors_of_tables path.tables hSame, hFactor]
          refine hManageable.repairs i ?_
          rw [← hSame, ← Coordinator.tables_containsDead path.tables]
          exact hDead
        · intro hAlive
          rw [survivors_of_alive hAlive] at hSurplus
          exact hSurplus
      · have hAlive : chainContainsDeadReplica (state.setReplicas i after)
            ((state.setReplicas i after).chainAt i) = false := by
          rw [Coordinator.setReplicas_chainAt_self _ _ _ inside, chainContainsDeadReplica,
            List.any_eq_false]
          intro replica hReplica
          rw [Coordinator.setReplicas_isDead,
            change.alive _ (Coordinator.mem_replicaIDs.mpr ⟨replica, hReplica, rfl⟩)]
          exact Bool.false_ne_true
        rw [survivors_of_alive hAlive, Coordinator.setReplicas_chainAt_self _ _ _ inside, ← hFactor]
        exact Change.actives_le change hSurplus
    · rw [Coordinator.setReplicas_chainAt_of_ne _ _ _ hi, if_neg (Ne.symm hi)]
      have hKept : (state.setReplicas slot after).survivors i = state.survivors i := by
        rw [ClusterState.survivors, Coordinator.setReplicas_chainAt_of_ne _ _ _ hi]
        rfl
      rw [hKept]
      exact ih i

/-! ## One command -/

def View.Tracked (view : View) : Prop :=
  ∀ slot, Runtime.Tracked (view.cluster.chainAt slot) view.pendingBySlot[slot]?

/-- A reconfiguration reconciles from manageable chains. -/
def Command.Manages (cluster : ClusterState) (cmd : Command) : Prop :=
  cmd.kind = .reconfigure → ∀ reconfigure, cmd.reconfigure = some reconfigure →
    ∀ start, Coordinator.planStart cluster reconfigure.events = .ok start → Manageable start

theorem applyProgress_settles {state updated : ClusterState} (hSound : Sound state)
    (hFree : DeadFree state) {event : Coordinator.Event}
    (h : Coordinator.applyProgress state event = .ok updated) {pending : Option PendingWork}
    (hTracked : Tracked (state.chainAt event.slot.toNat) pending) :
    unsettled (updated.chainAt event.slot.toNat).replicas = [] := by
  obtain ⟨working, hWorking, h⟩ := bind_eq_ok.mp h
  rw [ite_error_eq_ok] at h
  replace hWorking := ok_of_mapError hWorking
  have hChains := Coordinator.cloneAndValidateState_chains hSound hWorking
  obtain ⟨-, hSame⟩ := Coordinator.cloneAndValidateState_ok hSound hWorking
  obtain ⟨-, index, replica, hIndex, hID, hCases⟩ :=
    Coordinator.applyProgressEvent_cases (ok_of_mapError h.2)
  have hInside : event.slot.toNat < working.chains.length := by
    apply Coordinator.lt_length_of_replicas_ne_nil
    intro hNone
    rw [hNone] at hIndex
    simp at hIndex
  rw [Coordinator.chainAt_congr hChains] at hIndex
  have hMoving : replica.state ≠ .active := by
    rcases hCases with ⟨-, hJoining, -⟩ | ⟨-, hLeaving | hDead, -⟩
    · rw [hJoining]
      decide
    · rw [hLeaving]
      decide
    · have hAlive := hFree event.slot.toNat event.nodeID
        (Coordinator.mem_replicaIDs.mpr ⟨replica, List.mem_of_getElem? hIndex, hID⟩)
      rw [hSame.isDead, hAlive] at hDead
      cases hDead
  rcases hTracked with hNone | ⟨work, -, hOne⟩
  · exact absurd (unsettled_eq_nil_iff.mp hNone replica (List.mem_of_getElem? hIndex)) hMoving
  obtain ⟨hActivated, hRemoved⟩ := unsettled_settled hOne hIndex hMoving
  rcases hCases with ⟨-, -, rfl⟩ | ⟨-, -, rfl⟩
  · rw [Coordinator.activateReplica, Coordinator.setReplicas_chainAt_self _ _ _ hInside,
      Coordinator.chainAt_congr hChains]
    exact hActivated
  · rw [Coordinator.chainAt_congr (Coordinator.removeReplica_chains ..),
      Coordinator.setReplicas_chainAt_self _ _ _ hInside, Coordinator.chainAt_congr hChains]
    exact hRemoved

theorem View.Tracked.next {state : State} (h : state.Tracked) (hRegular : state.Regular)
    (hNormal : cloneState state = state) {cmd : Command} (hSingle : cmd.Single)
    (hManages : cmd.Manages state.cluster) {cluster : ClusterState}
    {plan : Option ReconfigurationPlan} (hExecuted : Executed state cmd cluster plan)
    (logIndex : Nat) : (nextView state.toView logIndex cmd cluster plan).Tracked := by
  have hCluster : cloneClusterState state.cluster = state.cluster :=
    congrArg (fun s : State => s.cluster) hNormal
  intro slot
  rw [nextView_chainAt]
  cases hExecuted with
  | placed kind payload uninitialized built =>
    left
    have hClean := Coordinator.buildInitialPlacement_clean built slot
    exact unsettled_eq_nil_iff.mpr hClean.active
  | @planned reconfigure original kind payload initialized plans =>
    rw [hCluster] at plans
    obtain ⟨hLength, hEvents⟩ := hSingle kind _ payload
    have hSound := (hRegular.placed.sound initialized).1
    obtain ⟨start, hStart, hStartSound, hPath⟩ :=
      Coordinator.planReconfiguration_path hSound hLength plans
    have hChain := Coordinator.chainAt_congr (Coordinator.planStart_chains hSound hEvents hStart)
    have hTracked : ∀ slot, Runtime.Tracked (start.chainAt slot) state.pendingBySlot[slot]? := by
      intro slot
      rw [hChain]
      exact h slot
    simp only [nextView, nextPending, kind, Option.elim_some]
    exact (Path.tracked hPath hStartSound (hManages kind _ payload start hStart) _ hTracked slot).1
  | @progressed progress updated kind payload initialized applied =>
    obtain ⟨hSound, hFree⟩ := hRegular.placed.sound initialized
    rw [hCluster] at applied
    by_cases hSlot : slot = progress.event.slot.toNat
    · subst hSlot
      have hSettled := applyProgress_settles hSound hFree applied (h _)
      exact .inl hSettled
    · have hSame := Coordinator.applyProgress_chainAt_of_ne hSound applied hSlot
      simp only [nextView, nextPending, kind, payload, Option.elim_some, getElem?_erase_ite,
        if_neg (Ne.symm hSlot)]
      rw [show (cloneClusterState updated).chainAt slot = _ from hSame]
      exact h slot
  | kept kind =>
    rw [hCluster]
    have hSame : (nextView state.toView logIndex cmd (cloneClusterState state.cluster)
        none).pendingBySlot = state.pendingBySlot := by
      simp only [List.mem_cons, List.not_mem_nil, or_false] at kind
      rcases kind with kind | kind | kind | kind <;> simp only [nextView, nextPending, kind]
    rw [hCluster] at hSame
    rw [hSame]
    exact h slot

/-! ## Whole runs -/

/-- Single events, each reconciled from manageable chains. -/
def Runtime.Manages (runtime : Runtime) : Runtime.Action → Prop
  | .submit cmd _ => cmd.Single ∧ cmd.Manages runtime.state.cluster
  | .checkpoint _ => True
  | .reopen => True

theorem Runtime.Manages.single {runtime : Runtime} {action : Runtime.Action}
    (h : runtime.Manages action) : runtime.SingleEvents action := by
  cases action with
  | submit => exact h.1
  | checkpoint | reopen => trivial

/-- Where every reconfiguration starts from manageable chains, some report is waited for at every
slot with a transition under way. -/
theorem transitions_awaited {runtime : Runtime}
    (h : Reaches Runtime.step Runtime.Manages Runtime.initial runtime) (slot : Nat) :
    Awaited (runtime.state.cluster.chainAt slot) runtime.state.pendingBySlot[slot]? := by
  let Kept := fun runtime : Runtime => runtime.Orderly ∧ runtime.state.Tracked
  have hKept : Kept runtime := by
    apply h.invariant
    · refine ⟨Runtime.initial_orderly, ?_⟩
      intro slot
      exact .inl (by simp [Runtime.initial, zeroState, zeroCluster, ClusterState.chainAt, unsettled])
    · rintro current action next ⟨hOrderly, hTracked⟩ hManages hStep
      refine ⟨hOrderly.step hManages.single hStep, ?_⟩
      rcases hOrderly.durable.step_view hStep with
        hView | ⟨cmd, appended, cluster, plan, rfl, hExecuted, hView⟩
      · rw [hView]
        exact hTracked
      · rw [hView]
        exact hTracked.next hOrderly.regular hOrderly.durable.ledger.normal hManages.1 hManages.2
          hExecuted _
  exact (hKept.2 slot).awaited

/-! ## A replica that is waited for, and one that is not -/

/-- The slots beyond the last chain are all alike. -/
theorem manageable_iff (start : ClusterState) :
    Manageable start ↔ ∀ slot ≤ start.chains.length,
      (chainContainsDeadReplica start (start.chainAt slot) = true →
        unsettled (start.survivors slot) = [] ∧
          start.replicationFactor ≤ (start.survivors slot).length + 1) ∧
        ((activeIDs (start.survivors slot)).length : Int) ≤ start.replicationFactor + 1 := by
  constructor
  · exact fun h slot _ => ⟨h.repairs slot, h.surplus slot⟩
  · intro h
    have hOut : ∀ slot, start.chains.length ≤ slot → start.chainAt slot = ⟨slot, []⟩ := by
      intro slot hSlot
      simp [ClusterState.chainAt, hSlot]
    have hFactor := (h _ le_rfl).2
    rw [ClusterState.survivors, hOut _ le_rfl] at hFactor
    constructor
    · intro slot hDead
      rcases Nat.lt_or_ge start.chains.length slot with hSlot | hSlot
      · rw [hOut slot hSlot.le] at hDead
        cases hDead
      · exact (h slot hSlot).1 hDead
    · intro slot
      rcases Nat.lt_or_ge start.chains.length slot with hSlot | hSlot
      · rw [ClusterState.survivors, hOut slot hSlot.le]
        exact hFactor
      · exact (h slot hSlot).2

instance : DecidablePred Manageable :=
  fun start => decidable_of_iff _ (manageable_iff start).symm

instance : DecidablePred Command.Single := fun cmd =>
  inferInstanceAs (Decidable (cmd.kind = .reconfigure → ∀ reconfigure ∈ cmd.reconfigure,
    reconfigure.events.length ≤ 1 ∧ ∀ event ∈ reconfigure.events,
      event.kind = .registerNode ∨ event.kind = .addNode ∨ event.kind = .beginDrainNode ∨
        event.kind = .markNodeDead))

instance (cluster : ClusterState) : DecidablePred (Command.Manages cluster) := fun cmd =>
  decidable_of_iff (cmd.kind = .reconfigure → ∀ reconfigure ∈ cmd.reconfigure,
      ∀ start ∈ (Coordinator.planStart cluster reconfigure.events).toOption, Manageable start)
    (by simp only [Command.Manages, Option.mem_def, toOption_eq_some])

instance (runtime : Runtime) : DecidablePred runtime.Manages
  | .submit cmd _ => inferInstanceAs (Decidable (cmd.Single ∧ cmd.Manages runtime.state.cluster))
  | .checkpoint _ => .isTrue trivial
  | .reopen => .isTrue trivial

theorem deadReplaced_awaited :
    deadReplaced.state.cluster.chainAt 0 = ⟨0, [⟨"a", .active⟩, ⟨"c", .joining⟩]⟩ ∧
      Awaited (deadReplaced.state.cluster.chainAt 0) deadReplaced.state.pendingBySlot[0]? := by
  refine ⟨by decide +kernel, transitions_awaited ?_ 0⟩
  have hRun : (run (guarded (fun runtime action => decide (runtime.Manages action)) Runtime.step)
      replaceDead Runtime.initial) =
      some deadReplaced := by decide +kernel
  exact .of_guarded_run (fun _ _ => of_decide_eq_true) hRun

def drainThenDie : List Runtime.Action :=
  [startCluster 2 ["a", "b"], reconfigureAt 1 [addNodeEvent "c"],
    reconfigureAt 2 [nodeEvent .beginDrainNode "b"],
    reconfigureAt 3 [nodeEvent .markNodeDead "b"]]

theorem drainThenDie_runs : (run Runtime.step drainThenDie Runtime.initial).isSome = true := by
  decide +kernel

def drainedDead : Runtime := (run Runtime.step drainThenDie Runtime.initial).get drainThenDie_runs

theorem drainedDead_reached :
    Reaches Runtime.step Runtime.SingleEvents Runtime.initial drainedDead := by
  refine .of_run ?_ (Option.some_get drainThenDie_runs).symm
  intro action hAction runtime
  have hMembership : ∀ event ∈ [addNodeEvent "c", nodeEvent .beginDrainNode "b",
      nodeEvent .markNodeDead "b"], event.kind.IsMembership := by
    simp [addNodeEvent, nodeEvent, Coordinator.EventKind.IsMembership]
  simp only [drainThenDie, List.mem_cons, List.not_mem_nil, or_false] at hAction
  rcases hAction with rfl | rfl | rfl | rfl
  · rintro ⟨⟩
  · exact reconfigureAt_single le_rfl (by simpa using hMembership _ (by simp)) runtime
  · exact reconfigureAt_single le_rfl (by simpa using hMembership _ (by simp)) runtime
  · exact reconfigureAt_single le_rfl (by simpa using hMembership _ (by simp)) runtime

/-- The replacement joins and no report of it is waited for, now and after another reconcile. -/
theorem replacement_forgotten :
    Reaches Runtime.step Runtime.SingleEvents Runtime.initial drainedDead ∧
      ⟨"c", .joining⟩ ∈ (drainedDead.state.cluster.chainAt 0).replicas ∧
      drainedDead.state.pendingBySlot[0]? = none ∧
      ((drainedDead.step (reconfigureAt 4 [])).map fun later =>
        (later.state.version, later.state.cluster.chainAt 0, later.state.pendingBySlot[0]?)) =
        some (5, drainedDead.state.cluster.chainAt 0, none) ∧
      ¬Awaited (drainedDead.state.cluster.chainAt 0) drainedDead.state.pendingBySlot[0]? := by
  have hNone : drainedDead.state.pendingBySlot[0]? = none := by decide +kernel
  refine ⟨drainedDead_reached, by decide +kernel, hNone, by decide +kernel, ?_⟩
  intro hAwaited
  obtain ⟨work, hWork, -⟩ := hAwaited (by decide +kernel)
  rw [hNone] at hWork
  cases hWork

end Craq.Runtime
