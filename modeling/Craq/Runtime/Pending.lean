import Craq.Coordinator.Single
import Craq.Runtime.Outbox

/-! # Pending work and commands match the chains

Pending work, queued commands and slot versions are kept beside the chains and rebuilt from plans,
reports and acknowledgements.  Whatever commands were applied, the work names a replica that is in
the transition it waits for, a command names a replica in the state the command is for, and both
carry the version of their slot.
-/

namespace Craq.Runtime

open Lib
open Coordinator (Chain ClusterState Path ReconfigurationPlan ReconfigurationPolicy Replica SlotPlan
  Sound StepsOnce lastAfter)

set_option linter.dupNamespace false

/-! ## The last plan of a slot -/

/-- The plan is the last one of its slot. -/
def LastOf (slotPlan : SlotPlan) (plans : List SlotPlan) : Prop :=
  ∃ earlier later, plans = earlier ++ slotPlan :: later ∧ slotPlan.slot ∉ later.map (·.slot)

variable {slot : Nat} {plans : List SlotPlan} {slotPlan : SlotPlan}

theorem exists_lastOf (h : slot ∈ plans.map (·.slot)) :
    ∃ slotPlan, slotPlan.slot = slot ∧ LastOf slotPlan plans := by
  induction plans with
  | nil => cases h
  | cons first rest ih =>
    by_cases hRest : slot ∈ rest.map (·.slot)
    · obtain ⟨slotPlan, hSlot, earlier, later, hPlans, hLast⟩ := ih hRest
      exact ⟨slotPlan, hSlot, first :: earlier, later, by rw [hPlans, List.cons_append], hLast⟩
    · have hFirst : first.slot = slot := by
        rcases List.mem_cons.mp h with hEq | hMem
        · exact hEq.symm
        · exact absurd hMem hRest
      exact ⟨first, hFirst, [], rest, rfl, hFirst ▸ hRest⟩

theorem LastOf.mem (h : LastOf slotPlan plans) : slotPlan ∈ plans := by
  obtain ⟨earlier, later, rfl, -⟩ := h
  simp

theorem LastOf.lastAfter (h : LastOf slotPlan plans) (chain : Chain) :
    lastAfter slotPlan.slot chain plans = slotPlan.after := by
  obtain ⟨earlier, later, rfl, hLast⟩ := h
  rw [Coordinator.lastAfter_append, Coordinator.lastAfter, List.foldl_cons, if_pos rfl]
  exact Coordinator.lastAfter_of_not_mem hLast _

theorem lastOf_of_steps (hOnce : StepsOnce plans) (h : slotPlan ∈ plans)
    (hSteps : slotPlan.steps ≠ []) : LastOf slotPlan plans := by
  obtain ⟨earlier, later, rfl⟩ := List.append_of_mem h
  refine ⟨earlier, later, rfl, ?_⟩
  intro hSlot
  obtain ⟨other, hOther, hEq⟩ := List.mem_map.mp hSlot
  have hPairs := (List.pairwise_append.mp hOnce).2.1
  exact hSteps ((List.pairwise_cons.mp hPairs).1 other hOther hEq.symm)

/-! ## What a plan makes of the pending work and of the versions -/

def pendingStep (slotVersions : Std.ExtTreeMap Nat Nat) (current : Std.ExtTreeMap Nat PendingWork)
    (slotPlan : SlotPlan) : Std.ExtTreeMap Nat PendingWork :=
  let cleared := current.erase slotPlan.slot
  (pendingOfSlotPlan slotVersions slotPlan).elim cleared (cleared.insert slotPlan.slot)

theorem pendingStep_getElem? (slotVersions : Std.ExtTreeMap Nat Nat)
    (current : Std.ExtTreeMap Nat PendingWork) (slotPlan : SlotPlan) (slot : Nat) :
    (pendingStep slotVersions current slotPlan)[slot]? =
      if slotPlan.slot = slot then pendingOfSlotPlan slotVersions slotPlan else current[slot]? := by
  rw [pendingStep]
  cases pendingOfSlotPlan slotVersions slotPlan with
  | none =>
    rw [Option.elim_none, getElem?_erase_ite]
  | some work =>
    rw [Option.elim_some, getElem?_insert_ite, getElem?_erase_ite]
    split <;> rfl

theorem pendingFromPlan_eq (current : Std.ExtTreeMap Nat PendingWork)
    (slotVersions : Std.ExtTreeMap Nat Nat) (plan : ReconfigurationPlan) :
    pendingFromPlan current slotVersions plan =
      plan.changedSlots.foldl (pendingStep slotVersions) current := rfl

variable {slotVersions : Std.ExtTreeMap Nat Nat}

theorem pendingSteps_of_not_mem (h : slot ∉ plans.map (·.slot))
    (current : Std.ExtTreeMap Nat PendingWork) :
    (plans.foldl (pendingStep slotVersions) current)[slot]? = current[slot]? := by
  induction plans generalizing current with
  | nil => rfl
  | cons first rest ih =>
    simp only [List.map_cons, List.mem_cons, not_or] at h
    rw [List.foldl_cons, ih h.2, pendingStep_getElem?, if_neg (Ne.symm h.1)]

theorem LastOf.pending (h : LastOf slotPlan plans) (slotVersions : Std.ExtTreeMap Nat Nat)
    (current : Std.ExtTreeMap Nat PendingWork) :
    (plans.foldl (pendingStep slotVersions) current)[slotPlan.slot]? =
      pendingOfSlotPlan slotVersions slotPlan := by
  obtain ⟨earlier, later, rfl, hLast⟩ := h
  rw [List.foldl_append, List.foldl_cons, pendingSteps_of_not_mem hLast, pendingStep_getElem?,
    if_pos rfl]

def View.versionOf (view : View) (slot : Nat) : Nat := view.slotVersions[slot]?.getD 0

theorem bumped_getElem? (current next : Std.ExtTreeMap Nat Nat) (slots : List Nat) (slot : Nat) :
    (slots.foldl (fun next slot => next.insert slot (current[slot]?.getD 0 + 1)) next)[slot]? =
      if slot ∈ slots then some (current[slot]?.getD 0 + 1) else next[slot]? := by
  induction slots generalizing next with
  | nil => rfl
  | cons first rest ih =>
    rw [List.foldl_cons, ih, getElem?_insert_ite]
    by_cases hRest : slot ∈ rest
    · rw [if_pos hRest, if_pos (List.mem_cons_of_mem _ hRest)]
    · rw [if_neg hRest]
      by_cases hFirst : first = slot
      · subst hFirst
        rw [if_pos rfl, if_pos List.mem_cons_self]
      · rw [if_neg hFirst, if_neg]
        simp only [List.mem_cons, not_or]
        exact ⟨Ne.symm hFirst, hRest⟩

theorem nextSlotVersions_reconfigure (current : Std.ExtTreeMap Nat Nat) (cluster : ClusterState)
    (plan : ReconfigurationPlan) (slot : Nat) :
    (nextSlotVersions current .reconfigure cluster (some plan))[slot]?.getD 0 =
      if slot ∈ plan.changedSlots.map (·.slot) then current[slot]?.getD 0 + 1
      else current[slot]?.getD 0 := by
  simp only [nextSlotVersions, Option.elim_some, bumped_getElem?]
  split <;> rfl

/-! ## Work and commands that stand -/

/-- The state of the replica that pending work waits for. -/
def PendingKind.awaited : PendingKind → Coordinator.ReplicaState
  | .ready => .joining
  | .removed => .leaving

/-- The state of the replica that a command is for. -/
def OutboxCommandKind.addressed : OutboxCommandKind → Coordinator.ReplicaState
  | .addReplicaAsTail => .joining
  | .updateChainPeers => .active
  | .markReplicaLeaving => .leaving

def PendingWork.Stands (chain : Chain) (version : Nat) (work : PendingWork) : Prop :=
  ⟨work.nodeID, work.kind.awaited⟩ ∈ chain.replicas ∧ work.slotVersion = version

-- The order to leave is the one command without an assignment.
def OutboxEntry.Stands (chain : Chain) (version : Nat) (entry : OutboxEntry) : Prop :=
  ⟨entry.nodeID, entry.kind.addressed⟩ ∈ chain.replicas ∧
    (entry.kind ≠ .markReplicaLeaving → entry.assignment.chainVersion = version)

structure View.Consistent (view : View) : Prop where
  versions : ∀ slot ∈ view.slotVersions, slot < view.cluster.chains.length
  pending : ∀ (slot : Nat) (work : PendingWork), view.pendingBySlot[slot]? = some work →
    work.slot = slot ∧ work.Stands (view.cluster.chainAt slot) (view.versionOf slot)
  outbox : ∀ entry ∈ view.outbox,
    entry.Stands (view.cluster.chainAt entry.slot) (view.versionOf entry.slot)

theorem firstStepNodeID_mem {steps : List Coordinator.ReconfigurationStep}
    {kind : Coordinator.StepKind} (h : firstStepNodeID steps kind ≠ "") :
    ∃ step ∈ steps, step.kind = kind ∧ step.nodeID = firstStepNodeID steps kind := by
  cases hFound : steps.find? (·.kind = kind) with
  | none => simp [firstStepNodeID, hFound] at h
  | some step =>
    have hKind := List.find?_some hFound
    refine ⟨step, List.mem_of_find?_eq_some hFound, by simpa using hKind, ?_⟩
    simp [firstStepNodeID, hFound]

theorem replica_of_step (hShape : slotPlan.Shaped) {step : Coordinator.ReconfigurationStep}
    (hStep : step ∈ slotPlan.steps) :
    (step.kind = .appendTail → ⟨step.nodeID, .joining⟩ ∈ slotPlan.after.replicas) ∧
      (step.kind = .markLeaving → ⟨step.nodeID, .leaving⟩ ∈ slotPlan.after.replicas) := by
  cases hShape with
  | appends kept kinds after =>
    rw [kinds step hStep, after]
    refine ⟨fun _ => List.mem_append_right _ (List.mem_map.mpr ⟨step, hStep, rfl⟩), ?_⟩
    rintro ⟨⟩
  | retires kept some kinds after =>
    rw [kinds step hStep, after]
    refine ⟨?_, fun _ => List.mem_append_right _ (List.mem_map.mpr ⟨step, hStep, rfl⟩)⟩
    rintro ⟨⟩

theorem pendingOfSlotPlan_stands {work : PendingWork} (hShape : slotPlan.Shaped)
    (h : pendingOfSlotPlan slotVersions slotPlan = some work) :
    work.slot = slotPlan.slot ∧
      work.Stands slotPlan.after (slotVersions[slotPlan.slot]?.getD 0) := by
  simp only [pendingOfSlotPlan] at h
  split at h
  · split at h
    · cases h
    rename_i hNamed
    cases h
    obtain ⟨step, hStep, hKind, hNode⟩ := firstStepNodeID_mem hNamed
    have hJoining := (replica_of_step hShape hStep).1 hKind
    rw [hNode] at hJoining
    exact ⟨rfl, hJoining, rfl⟩
  split at h
  · split at h
    · cases h
    rename_i hNamed
    cases h
    obtain ⟨step, hStep, hKind, hNode⟩ := firstStepNodeID_mem hNamed
    have hLeaving := (replica_of_step hShape hStep).2 hKind
    rw [hNode] at hLeaving
    exact ⟨rfl, hLeaving, rfl⟩
  · cases h

variable {nodesByID : Std.ExtTreeMap String Coordinator.Node} {version : Nat}

theorem assignmentForNode_chainVersion {chain : Chain} {nodeID : String} {chainVersion : Nat}
    {assignment : Storage.ReplicaAssignment}
    (h : assignmentForNode chain nodesByID nodeID chainVersion = .ok assignment) :
    assignment.chainVersion = chainVersion := by
  rw [assignmentForNode] at h
  split at h
  · cases h
  · cases h
    rfl

theorem updateEntry_chainVersion {chainVersion : Nat} {serving : Chain} {nodeID : String}
    {entry : OutboxEntry}
    (h : updateEntry version slot chainVersion serving nodesByID nodeID = some entry) :
    entry.assignment.chainVersion = chainVersion := by
  rw [updateEntry] at h
  cases hBuilt : assignmentForNode serving nodesByID nodeID chainVersion with
  | error err =>
    rw [hBuilt] at h
    cases h
  | ok assignment =>
    rw [hBuilt] at h
    cases h
    exact assignmentForNode_chainVersion hBuilt

theorem outboxOfSlotPlan_stands (hShape : slotPlan.Shaped) {entry : OutboxEntry}
    (h : entry ∈ outboxOfSlotPlan version slotVersions nodesByID slotPlan) :
    entry.Stands slotPlan.after (slotVersions[slotPlan.slot]?.getD 0) := by
  simp only [outboxOfSlotPlan] at h
  split at h
  · split at h
    · cases h
    rename_i hNamed
    split at h
    · cases h
    rename_i assignment hAssignment
    obtain rfl := List.mem_singleton.mp h
    obtain ⟨step, hStep, hKind, hNode⟩ := firstStepNodeID_mem hNamed
    have hJoining := (replica_of_step hShape hStep).1 hKind
    rw [hNode] at hJoining
    exact ⟨hJoining, fun _ => assignmentForNode_chainVersion hAssignment⟩
  split at h
  · split at h
    · cases h
    rename_i hNamed
    rcases List.mem_append.mp h with hUpdate | hLeave
    · obtain ⟨nodeID, hActive, hEntry⟩ := List.mem_filterMap.mp hUpdate
      obtain ⟨-, rfl, hKind⟩ := updateEntry_some hEntry
      obtain ⟨replica, hReplica, hID⟩ := List.mem_map.mp hActive
      rw [List.mem_filter, activeServingChain, List.mem_filter] at hReplica
      obtain ⟨⟨hMem, hState⟩, -⟩ := hReplica
      refine ⟨?_, fun _ => updateEntry_chainVersion hEntry⟩
      rw [hKind, ← hID, OutboxCommandKind.addressed, ← of_decide_eq_true hState]
      exact hMem
    · obtain rfl := List.mem_singleton.mp hLeave
      obtain ⟨step, hStep, hKind, hNode⟩ := firstStepNodeID_mem hNamed
      have hLeaving := (replica_of_step hShape hStep).2 hKind
      rw [hNode] at hLeaving
      exact ⟨hLeaving, fun hOther => absurd rfl hOther⟩
  · cases h

/-! ## One command -/

/-- A reconfiguration carries at most one event, and only a membership event. -/
def Command.Single (cmd : Command) : Prop :=
  cmd.kind = .reconfigure → ∀ reconfigure, cmd.reconfigure = some reconfigure →
    reconfigure.events.length ≤ 1 ∧ ∀ event ∈ reconfigure.events, event.kind.IsMembership

variable {cmd : Command}

theorem Command.Single.orderly (h : cmd.Single) : cmd.Orderly :=
  fun hKind reconfigure hPayload => (h hKind reconfigure hPayload).2

theorem nextView_versionOf {state : State} {cluster : ClusterState}
    {plan : Option ReconfigurationPlan} (hKind : cmd.kind ≠ .bootstrap)
    (hOther : cmd.kind ≠ .reconfigure) (logIndex slot : Nat) :
    (nextView state.toView logIndex cmd cluster plan).versionOf slot = state.versionOf slot := by
  simp only [View.versionOf, nextView]
  cases hName : cmd.kind <;> simp_all [nextSlotVersions]

theorem View.Consistent.planned {view next : View} {later : ClusterState}
    {plan : ReconfigurationPlan} (h : view.Consistent)
    (hExplains : Coordinator.Explains view.cluster later plan.changedSlots)
    (hOnce : StepsOnce plan.changedSlots)
    (hInside : ∀ slot ∈ plan.changedSlots.map (·.slot), slot < view.cluster.chains.length)
    (hChains : next.cluster.chains = later.chains)
    (hVersions : ∀ slot, next.slotVersions[slot]? =
      if slot ∈ plan.changedSlots.map (·.slot) then some (view.versionOf slot + 1)
      else view.slotVersions[slot]?)
    (hPending : next.pendingBySlot = pendingFromPlan view.pendingBySlot next.slotVersions plan)
    (hOutbox : ∃ version nodesByID, next.outbox =
      view.outbox.filter (·.slot ∉ plan.changedSlots.map (·.slot)) ++
        plannedEntries version next.slotVersions nodesByID plan) : next.Consistent := by
  have hChain := Coordinator.chainAt_congr hChains
  have hLast : ∀ slotPlan, LastOf slotPlan plan.changedSlots →
      next.cluster.chainAt slotPlan.slot = slotPlan.after := by
    intro slotPlan hLast
    rw [hChain, hExplains.chain, hLast.lastAfter]
  have hSame : ∀ slot ∉ plan.changedSlots.map (·.slot),
      next.cluster.chainAt slot = view.cluster.chainAt slot ∧
        next.versionOf slot = view.versionOf slot := by
    intro slot hSlot
    rw [hChain, hExplains.chainAt_of_not_mem hSlot, View.versionOf, hVersions, if_neg hSlot]
    exact ⟨rfl, rfl⟩
  constructor
  · intro slot hSlot
    rw [hChains, hExplains.length]
    rw [Std.ExtTreeMap.mem_iff_isSome_getElem?, hVersions] at hSlot
    split at hSlot
    · exact hInside slot ‹_›
    · exact h.versions slot (Std.ExtTreeMap.mem_iff_isSome_getElem?.mpr hSlot)
  · intro slot work hWork
    rw [hPending, pendingFromPlan_eq] at hWork
    by_cases hChanged : slot ∈ plan.changedSlots.map (·.slot)
    · obtain ⟨slotPlan, rfl, hPlan⟩ := exists_lastOf hChanged
      rw [hPlan.pending] at hWork
      rw [hLast slotPlan hPlan]
      exact pendingOfSlotPlan_stands (hExplains.after slotPlan hPlan.mem).1 hWork
    · rw [pendingSteps_of_not_mem hChanged] at hWork
      rw [(hSame slot hChanged).1, (hSame slot hChanged).2]
      exact h.pending slot work hWork
  · intro entry hEntry
    obtain ⟨version, nodesByID, hEntries⟩ := hOutbox
    rw [hEntries] at hEntry
    rcases List.mem_append.mp hEntry with hOld | hNew
    · obtain ⟨hMem, hKept⟩ := List.mem_filter.mp hOld
      have hChanged := of_decide_eq_true hKept
      rw [(hSame entry.slot hChanged).1, (hSame entry.slot hChanged).2]
      exact h.outbox entry hMem
    · obtain ⟨slotPlan, hPlan, hMade⟩ := List.mem_flatMap.mp hNew
      have hPlanned := outboxOfSlotPlan_planned hMade
      rw [hPlanned.2, hLast slotPlan (lastOf_of_steps hOnce hPlan hPlanned.1)]
      exact outboxOfSlotPlan_stands (hExplains.after slotPlan hPlan).1 hMade

/-- A command that leaves the chains and versions of all slots but one, and whatever it drops of
that slot's work and commands. -/
theorem View.Consistent.dropped {view next : View} (h : view.Consistent)
    (hLength : next.cluster.chains.length = view.cluster.chains.length)
    (hVersions : next.slotVersions = view.slotVersions)
    (hPending : ∀ (slot : Nat) (work : PendingWork), next.pendingBySlot[slot]? = some work →
      view.pendingBySlot[slot]? = some work ∧
        next.cluster.chainAt slot = view.cluster.chainAt slot)
    (hOutbox : ∀ entry ∈ next.outbox, entry ∈ view.outbox ∧
      next.cluster.chainAt entry.slot = view.cluster.chainAt entry.slot) : next.Consistent := by
  have hVersion : ∀ slot, next.versionOf slot = view.versionOf slot := by
    intro slot
    rw [View.versionOf, hVersions, View.versionOf]
  constructor
  · rw [hVersions, hLength]
    exact h.versions
  · intro slot work hWork
    obtain ⟨hOld, hChain⟩ := hPending slot work hWork
    rw [hChain, hVersion]
    exact h.pending slot work hOld
  · intro entry hEntry
    obtain ⟨hOld, hChain⟩ := hOutbox entry hEntry
    rw [hChain, hVersion]
    exact h.outbox entry hOld

theorem nextView_chains (view : View) (logIndex : Nat) (cmd : Command) (cluster : ClusterState)
    (plan : Option ReconfigurationPlan) :
    (nextView view logIndex cmd cluster plan).cluster.chains = cluster.chains :=
  nextClusterState_chains _ cmd

theorem View.Consistent.next {state : State} (h : state.Consistent) (hRegular : state.Regular)
    (hNormal : cloneState state = state) (hSingle : cmd.Single) {cluster : ClusterState}
    {plan : Option ReconfigurationPlan} (hExecuted : Executed state cmd cluster plan)
    (logIndex : Nat) : (nextView state.toView logIndex cmd cluster plan).Consistent := by
  have hCluster : cloneClusterState state.cluster = state.cluster :=
    congrArg (fun s : State => s.cluster) hNormal
  cases hExecuted with
  | placed kind payload uninitialized built =>
    constructor
    · intro slot hSlot
      rw [nextView_chains]
      have hSound := (Coordinator.buildInitialPlacement_ok built).1
      simp only [nextView, kind, nextSlotVersions, Std.ExtTreeMap.mem_iff_isSome_getElem?,
        bumped_getElem?, cloneClusterState] at hSlot
      split at hSlot
      · rename_i hMem
        obtain ⟨chain, hChain, rfl⟩ := List.mem_map.mp hMem
        obtain ⟨i, hi, hGet⟩ := List.mem_iff_getElem.mp hChain
        have hIndex := hSound.slot i chain (by rw [← hGet, List.getElem?_eq_getElem hi])
        rw [hIndex]
        exact hi
      · simp at hSlot
    · intro slot work hWork
      simp [nextView, nextPending, kind] at hWork
    · intro entry hEntry
      simp [nextView, nextOutbox, kind] at hEntry
  | @planned reconfigure original kind payload initialized plans =>
    rw [hCluster] at plans
    obtain ⟨hLength, hEvents⟩ := hSingle kind _ payload
    have hSound := (hRegular.placed.sound initialized).1
    obtain ⟨start, hStart, -, hPath⟩ :=
      Coordinator.planReconfiguration_path hSound hLength plans
    have hChains := Coordinator.planStart_chains hSound hEvents hStart
    refine h.planned (Coordinator.planReconfiguration_explains hSound hEvents plans)
      (Coordinator.planReconfiguration_stepsOnce hSound hLength plans) ?_
      (nextView_chains state.toView logIndex cmd _ _) ?_ ?_ ?_
    · rw [← hChains]
      exact hPath.slots_lt
    · intro slot
      simp only [nextView, kind, nextSlotVersions, Option.elim_some, bumped_getElem?]
      rfl
    · simp only [nextView, kind, nextPending, Option.elim_some]
      rfl
    · simp only [nextView, kind, nextOutbox, Option.elim_some]
      exact ⟨_, _, rfl⟩
  | @progressed progress updated kind payload initialized applied =>
    rw [hCluster] at applied
    have hSound := (hRegular.placed.sound initialized).1
    have hChain : ∀ slot, slot ≠ progress.event.slot.toNat →
        (nextView state.toView logIndex cmd (cloneClusterState updated) none).cluster.chainAt slot =
          state.cluster.chainAt slot := by
      intro slot hSlot
      rw [nextView_chainAt]
      have hOther := Coordinator.applyProgress_chainAt_of_ne hSound applied hSlot
      exact hOther
    refine h.dropped ?_ ?_ ?_ ?_
    · rw [nextView_chains]
      have hLength := Coordinator.applyProgress_length hSound applied
      exact hLength
    · simp only [nextView, kind, nextSlotVersions]
    · intro slot work hWork
      simp only [nextView, nextPending, kind, payload, Option.elim_some,
        getElem?_erase_ite] at hWork
      split at hWork
      · cases hWork
      · rename_i hSlot
        exact ⟨hWork, hChain slot (Ne.symm hSlot)⟩
    · intro entry hEntry
      simp only [nextView, nextOutbox, kind, payload, Option.elim_some, List.mem_filter,
        decide_eq_true_eq] at hEntry
      exact ⟨hEntry.1, hChain entry.slot hEntry.2⟩
  | kept kind =>
    have hChain : ∀ slot,
        (nextView state.toView logIndex cmd (cloneClusterState state.cluster) none).cluster.chainAt
          slot = state.cluster.chainAt slot := by
      intro slot
      rw [nextView_chainAt, hCluster]
    have hOutbox := fun entry => @nextView_outbox entry state hNormal cmd _ _ (.kept kind) logIndex
    simp only [List.mem_cons, List.not_mem_nil, or_false] at kind
    refine h.dropped ?_ ?_ ?_ ?_
    · rw [nextView_chains, hCluster]
    · rcases kind with kind | kind | kind | kind <;> simp only [nextView, kind, nextSlotVersions]
    · intro slot work hWork
      refine ⟨?_, hChain slot⟩
      rcases kind with kind | kind | kind | kind <;>
        simpa only [nextView, nextPending, kind] using hWork
    · intro entry hEntry
      refine ⟨?_, hChain entry.slot⟩
      rcases hOutbox entry hEntry with hOld | ⟨_, _, _, _, hNone, -⟩
      · exact hOld
      · cases hNone

/-! ## Whole runs -/

variable {runtime later : Runtime} {action : Runtime.Action}

/-- What a step does to the view: nothing, unless a fresh command is executed and logged. -/
theorem Runtime.Durable.step_view (h : runtime.Durable) (hStep : runtime.step action = some later) :
    later.state.toView = runtime.state.toView ∨
      ∃ cmd appended cluster plan, action = .submit cmd appended ∧
        Executed runtime.state cmd cluster plan ∧ later.state.toView =
          nextView runtime.state.toView (runtime.state.lastLogIndex + 1) cmd cluster plan := by
  obtain ⟨recovered, hOpen, hRecalls⟩ := h.recovers
  cases action with
  | submit cmd appended =>
    cases hStep
    rcases runtime.submit_cases cmd appended with hSame | ⟨cluster, plan, -, hFresh, hResult⟩
    · left
      rw [hSame]
    · right
      refine ⟨cmd, appended, cluster, plan, rfl, executeFresh_executed hFresh, ?_⟩
      rw [hResult]
      rfl
  | checkpoint outcome =>
    left
    cases outcome with
    | saveFailed | truncateFailed =>
      cases hStep
      rfl
    | crashed =>
      obtain ⟨reopened, hReopened, rfl⟩ := openRuntime_toOption.mp hStep
      have hSaved := h.openState_saved (List.Subset.refl runtime.store.wal)
      cases hSaved.symm.trans hReopened
      exact h.emptied.view
    | completed =>
      cases hStep
      rfl
  | reopen =>
    left
    obtain ⟨reopened, hReopened, rfl⟩ := openRuntime_toOption.mp hStep
    rw [hOpen] at hReopened
    cases hReopened
    exact hRecalls.view

/-- The reconfigurations of a run carry single membership events, or none. -/
def Runtime.SingleEvents (_ : Runtime) : Runtime.Action → Prop
  | .submit cmd _ => cmd.Single
  | .checkpoint _ => True
  | .reopen => True

/-- What the commands of such a run keep. -/
structure Runtime.Orderly (runtime : Runtime) : Prop where
  durable : runtime.Durable
  regular : runtime.state.Regular
  consistent : runtime.state.Consistent

theorem Runtime.initial_orderly : Runtime.initial.Orderly where
  durable := Runtime.initial_durable
  regular := zeroState_regular
  consistent := ⟨by simp [Runtime.initial, zeroState], by simp [Runtime.initial, zeroState],
    by simp [Runtime.initial, zeroState]⟩

theorem Runtime.Orderly.step (h : runtime.Orderly) (hSingle : runtime.SingleEvents action)
    (hStep : runtime.step action = some later) : later.Orderly := by
  have hNormal := h.durable.ledger.normal
  refine ⟨h.durable.step hStep, ?_, ?_⟩
  · rcases h.durable.step_view hStep with hView | ⟨cmd, appended, cluster, plan, rfl, hExecuted, hView⟩
    · rw [hView]
      exact h.regular
    · rw [hView]
      exact h.regular.next hNormal (Command.Single.orderly hSingle) hExecuted _
  · rcases h.durable.step_view hStep with hView | ⟨cmd, appended, cluster, plan, rfl, hExecuted, hView⟩
    · rw [hView]
      exact h.consistent
    · rw [hView]
      exact h.consistent.next h.regular hNormal hSingle hExecuted _

theorem Runtime.orderly_of_reaches
    (h : Reaches Runtime.step Runtime.SingleEvents Runtime.initial runtime) : runtime.Orderly :=
  h.invariant Runtime.initial_orderly fun _ _ _ hOrderly hSingle hStep => hOrderly.step hSingle hStep

/-- How the versions of the slots go on from one view to the next. -/
structure VersionsFollow (view later : View) (action : Runtime.Action) : Prop where
  grow : ∀ slot, view.versionOf slot ≤ later.versionOf slot
  reconfigured : ∀ cmd appended, action = .submit cmd appended → cmd.kind = .reconfigure →
    ∀ slot, later.versionOf slot =
      if later.cluster.chainAt slot = view.cluster.chainAt slot then view.versionOf slot
      else view.versionOf slot + 1
  kept : (∀ cmd appended, action = .submit cmd appended →
      cmd.kind ≠ .bootstrap ∧ cmd.kind ≠ .reconfigure) →
    ∀ slot, later.versionOf slot = view.versionOf slot

theorem Runtime.Orderly.uninitialized (h : runtime.Orderly)
    (hNone : runtime.state.isInitialized = false) (slot : Nat) :
    runtime.state.versionOf slot = 0 := by
  rw [View.isInitialized, decide_eq_false_iff_not] at hNone
  have hChains : runtime.state.cluster.chains.length = 0 := by
    rcases h.regular.placed with ⟨hSound, -⟩ | ⟨-, hEmpty⟩
    · have hCount := hSound.count
      omega
    · rw [hEmpty]
      rfl
  have hOut : slot ∉ runtime.state.slotVersions := by
    intro hMem
    have hSlot := h.consistent.versions slot hMem
    omega
  rw [View.versionOf, Std.ExtTreeMap.getElem?_eq_none hOut]
  rfl

theorem Runtime.Orderly.versionsFollow (h : runtime.Orderly) (hSingle : runtime.SingleEvents action)
    (hStep : runtime.step action = some later) :
    VersionsFollow runtime.state.toView later.state.toView action := by
  rcases h.durable.step_view hStep with hView | ⟨cmd, appended, cluster, plan, rfl, hExecuted, hView⟩
  · rw [hView]
    refine ⟨fun _ => le_rfl, ?_, fun _ _ => rfl⟩
    intro cmd appended _ _ slot
    rw [if_pos rfl]
  rw [hView]
  have hCluster : cloneClusterState runtime.state.cluster = runtime.state.cluster :=
    congrArg (fun s : State => s.cluster) h.durable.ledger.normal
  -- All commands but two leave the versions alone.
  have hOthers : cmd.kind ≠ .bootstrap → cmd.kind ≠ .reconfigure →
      VersionsFollow runtime.state.toView (nextView runtime.state.toView
        (runtime.state.lastLogIndex + 1) cmd cluster plan) (.submit cmd appended) := by
    intro hBootstrap hReconfigure
    have hSame := fun slot => @nextView_versionOf cmd runtime.state cluster plan hBootstrap
      hReconfigure (runtime.state.lastLogIndex + 1) slot
    refine ⟨fun slot => (hSame slot).ge, ?_, fun _ => hSame⟩
    rintro _ _ ⟨⟩ hKind
    exact absurd hKind hReconfigure
  cases hExecuted with
  | placed kind payload uninitialized built =>
    refine ⟨?_, ?_, ?_⟩
    · intro slot
      rw [h.uninitialized uninitialized]
      exact Nat.zero_le _
    · rintro _ _ ⟨⟩ hKind
      rw [kind] at hKind
      cases hKind
    · intro hNeither
      exact absurd kind (hNeither cmd appended rfl).1
  | @planned reconfigure original kind payload initialized plans =>
    rw [hCluster] at plans
    obtain ⟨hLength, hEvents⟩ := hSingle kind _ payload
    have hSound := (h.regular.placed.sound initialized).1
    obtain ⟨start, hStart, -, hPath⟩ :=
      Coordinator.planReconfiguration_path hSound hLength plans
    have hChain := Coordinator.chainAt_congr
      (Coordinator.planStart_chains hSound hEvents hStart)
    have hVersion : ∀ slot, (nextView runtime.state.toView (runtime.state.lastLogIndex + 1) cmd
        (cloneClusterState original.updatedState) (some (clonePlan original))).versionOf slot =
          if original.updatedState.chainAt slot = runtime.state.cluster.chainAt slot then
            runtime.state.versionOf slot
          else runtime.state.versionOf slot + 1 := by
      intro slot
      have hListed := hPath.mem_slots_iff slot
      rw [hChain] at hListed
      simp only [View.versionOf, nextView, kind, nextSlotVersions_reconfigure]
      by_cases hSame : original.updatedState.chainAt slot = runtime.state.cluster.chainAt slot
      · rw [if_pos hSame]
        exact if_neg fun hMem => hListed.mp hMem hSame
      · rw [if_neg hSame]
        exact if_pos (hListed.mpr hSame)
    refine ⟨?_, ?_, ?_⟩
    · intro slot
      rw [hVersion]
      split <;> omega
    · intro _ _ _ _ slot
      rw [hVersion, nextView_chainAt]
      rfl
    · intro hNeither
      exact absurd kind (hNeither cmd appended rfl).2
  | progressed kind payload initialized applied =>
    apply hOthers <;> rw [kind] <;> decide
  | kept kind =>
    simp only [List.mem_cons, List.not_mem_nil, or_false] at kind
    apply hOthers <;> rcases kind with kind | kind | kind | kind <;> rw [kind] <;> decide

/-- In every state that reconciles, single membership events, reports, acknowledgements and
heartbeats lead to, the pending work and the queued commands stand, and the versions follow the
chains from there on. -/
theorem pending_and_outbox_stand {runtime : Runtime}
    (h : Reaches Runtime.step Runtime.SingleEvents Runtime.initial runtime) :
    runtime.state.Consistent ∧ ∀ action later, runtime.SingleEvents action →
      runtime.step action = some later →
      VersionsFollow runtime.state.toView later.state.toView action := by
  have hOrderly := Runtime.orderly_of_reaches h
  exact ⟨hOrderly.consistent, fun _ _ => hOrderly.versionsFollow⟩

/-! ## A dead replica is replaced -/

def startCluster (factor : Int) (nodeIDs : List String) : Runtime.Action :=
  .submit
    { id := "start", expectedVersion := 0, kind := .bootstrap
      bootstrap := some
        { config := ⟨1, factor⟩, nodes := nodeIDs.map (⟨·, "", ∅⟩), policy := ⟨1⟩ } } true

def reconfigureAt (version : Nat) (events : List Coordinator.Event) : Runtime.Action :=
  .submit
    { id := s!"reconfigure-{version}", expectedVersion := version, kind := .reconfigure
      reconfigure := some { events, policy := ⟨1⟩ } } true

def nodeEvent (kind : Coordinator.EventKind) (nodeID : String) : Coordinator.Event :=
  ⟨kind, zeroNode, nodeID, 0⟩

def addNodeEvent (nodeID : String) : Coordinator.Event :=
  ⟨.addNode, ⟨nodeID, "", ∅⟩, "", 0⟩

theorem reconfigureAt_single {events : List Coordinator.Event} (hLength : events.length ≤ 1)
    (hEvents : ∀ event ∈ events, event.kind.IsMembership) (runtime : Runtime) :
    runtime.SingleEvents (reconfigureAt version events) := by
  intro _ reconfigure hPayload
  cases hPayload
  exact ⟨hLength, hEvents⟩

def replaceDead : List Runtime.Action :=
  [startCluster 2 ["a", "b"], reconfigureAt 1 [addNodeEvent "c"],
    reconfigureAt 2 [nodeEvent .markNodeDead "b"]]

theorem replaceDead_runs : (run Runtime.step replaceDead Runtime.initial).isSome = true := by
  decide +kernel

def deadReplaced : Runtime := (run Runtime.step replaceDead Runtime.initial).get replaceDead_runs

theorem deadReplaced_reached :
    Reaches Runtime.step Runtime.SingleEvents Runtime.initial deadReplaced := by
  refine .of_run ?_ (Option.some_get replaceDead_runs).symm
  intro action hAction runtime
  simp only [replaceDead, List.mem_cons, List.not_mem_nil, or_false] at hAction
  rcases hAction with rfl | rfl | rfl
  · rintro ⟨⟩
  · exact reconfigureAt_single (by decide) (by simp [addNodeEvent, Coordinator.EventKind.IsMembership])
      runtime
  · exact reconfigureAt_single (by decide) (by simp [nodeEvent, Coordinator.EventKind.IsMembership])
      runtime

theorem deadReplaced_stands :
    deadReplaced.state.pendingBySlot[0]? = some ⟨0, "c", .ready, 2, ""⟩ ∧
      deadReplaced.state.outbox.map (fun entry => (entry.nodeID, entry.kind)) =
        [("c", .addReplicaAsTail)] ∧
      deadReplaced.state.Consistent ∧ ∀ action later, deadReplaced.SingleEvents action →
        deadReplaced.step action = some later →
        VersionsFollow deadReplaced.state.toView later.state.toView action :=
  ⟨by decide +kernel, by decide +kernel, pending_and_outbox_stand deadReplaced_reached⟩

end Craq.Runtime
