import Craq.Coordinator.Copy

/-! # What the plans of the changed slots say

A plan lists the slots it changes.  The chains of all other slots stay as they were, the last plan
of a slot holds the chain the slot ends with, and every plan either appends joining tails or marks
replicas leaving.
-/

namespace Craq.Coordinator

open Craq.Lib

/-- The chain of a slot once the plans have been carried out one after the other. -/
def lastAfter (slot : Nat) (chain : Chain) (plans : List SlotPlan) : Chain :=
  plans.foldl (fun chain slotPlan => if slotPlan.slot = slot then slotPlan.after else chain) chain

theorem lastAfter_append (slot : Nat) (chain : Chain) (plans more : List SlotPlan) :
    lastAfter slot chain (plans ++ more) = lastAfter slot (lastAfter slot chain plans) more :=
  List.foldl_append ..

variable {slot : Nat} {plans : List SlotPlan} {state start later : ClusterState}
  {policy : ReconfigurationPolicy}

theorem lastAfter_of_not_mem (h : slot ∉ plans.map (·.slot)) (chain : Chain) :
    lastAfter slot chain plans = chain := by
  induction plans generalizing chain with
  | nil => rfl
  | cons slotPlan rest ih =>
    simp only [List.map_cons, List.mem_cons, not_or] at h
    rw [lastAfter, List.foldl_cons, if_neg (Ne.symm h.1)]
    exact ih h.2 chain

/-- A plan appends the nodes of its steps as joining tails, or keeps active replicas and marks the
nodes of its steps leaving. -/
inductive SlotPlan.Shaped (slotPlan : SlotPlan) : Prop where
  | appends (kept : List Replica) (kinds : ∀ step ∈ slotPlan.steps, step.kind = .appendTail)
      (after : slotPlan.after.replicas =
        kept ++ slotPlan.steps.map fun step => ⟨step.nodeID, .joining⟩)
  | retires (kept : List String) (some : slotPlan.steps ≠ [])
      (kinds : ∀ step ∈ slotPlan.steps, step.kind = .markLeaving)
      (after : slotPlan.after.replicas = kept.map (⟨·, .active⟩) ++
        slotPlan.steps.map fun step => ⟨step.nodeID, .leaving⟩)

/-- The plans account for every change from `state` to `later`. -/
structure Explains (state later : ClusterState) (plans : List SlotPlan) : Prop where
  length : later.chains.length = state.chains.length
  chain : ∀ slot, later.chainAt slot = lastAfter slot (state.chainAt slot) plans
  slot : ∀ slot, (later.chainAt slot).slot = (state.chainAt slot).slot
  after : ∀ slotPlan ∈ plans, slotPlan.Shaped ∧
    slotPlan.after.slot = (state.chainAt slotPlan.slot).slot

namespace Explains

variable {state middle later : ClusterState} {plans more : List SlotPlan}

theorem refl (state : ClusterState) : Explains state state [] :=
  ⟨rfl, fun _ => rfl, fun _ => rfl, by simp⟩

theorem trans (h : Explains state middle plans) (h' : Explains middle later more) :
    Explains state later (plans ++ more) where
  length := h'.length.trans h.length
  chain slot := by rw [h'.chain, h.chain, lastAfter_append]
  slot slot := (h'.slot slot).trans (h.slot slot)
  after := by
    refine List.forall_mem_append.mpr ⟨h.after, ?_⟩
    intro slotPlan hPlan
    obtain ⟨hShape, hSlot⟩ := h'.after slotPlan hPlan
    exact ⟨hShape, hSlot.trans (h.slot slotPlan.slot)⟩

theorem chainAt_of_not_mem (h : Explains state later plans) (hSlot : slot ∉ plans.map (·.slot)) :
    later.chainAt slot = state.chainAt slot := by
  rw [h.chain, lastAfter_of_not_mem hSlot]

theorem of_setReplicas {replicas : List Replica} {slotPlan : SlotPlan}
    (hSlot : slotPlan.slot = slot)
    (hAfter : slotPlan.after = (state.setReplicas slot replicas).chainAt slot)
    (hShape : slotPlan.Shaped) : Explains state (state.setReplicas slot replicas) [slotPlan] := by
  have hField : ∀ i, ((state.setReplicas slot replicas).chainAt i).slot = (state.chainAt i).slot := by
    intro i
    by_cases hi : i = slot
    · subst hi
      by_cases hBound : i < state.chains.length
      · rw [setReplicas_chainAt_self state i replicas hBound]
      · rw [setReplicas_of_length_le state i replicas (by omega)]
    · rw [setReplicas_chainAt_of_ne state slot replicas hi]
  refine ⟨setReplicas_length .., ?_, hField, ?_⟩
  · intro i
    rw [lastAfter, List.foldl_cons, List.foldl_nil, hSlot]
    by_cases hi : slot = i
    · subst hi
      rw [if_pos rfl, hAfter]
    · rw [if_neg hi, setReplicas_chainAt_of_ne state slot replicas (Ne.symm hi)]
  · intro other hOther
    rw [List.mem_singleton.mp hOther, hSlot, hAfter]
    exact ⟨hShape, hField slot⟩

end Explains

theorem Change.shaped {after : List Replica} {steps : List ReconfigurationStep}
    (h : Change state slot after steps) (before chain : Chain) :
    SlotPlan.Shaped ⟨slot, before, { chain with replicas := after }, steps⟩ := by
  cases h with
  | @repaired added dead joins room =>
    exact .appends (state.survivors slot) (by simp) (by simp [joiners, Function.comp_def])
  | appended alive settled joins => exact .appends (state.chainAt slot).replicas (by simp) rfl
  | @retired kept left alive joinless perm full left_ne =>
    exact .retires kept (by simpa using left_ne) (by simp) (by simp [Function.comp_def])

theorem Path.explains (h : Path policy start later plans) : Explains start later plans := by
  induction h with
  | rest => exact .refl start
  | change path inside change domains ih =>
    exact ih.trans (.of_setReplicas rfl (setReplicas_chainAt_self _ _ _ inside).symm
      (change.shaped _ _))

/-! ## Plans -/

/-- The events of a membership command: they change the node tables and leave the chains alone. -/
def EventKind.IsMembership (kind : EventKind) : Prop :=
  kind = .registerNode ∨ kind = .addNode ∨ kind = .beginDrainNode ∨ kind = .markNodeDead

variable {updated : ClusterState} {event : Event} {events : List Event} {plan : ReconfigurationPlan}

theorem applyEvent_membership (hSound : Sound state) (hKind : event.kind.IsMembership)
    (h : applyEvent state event = .ok updated) : Sound updated ∧ updated.chains = state.chains := by
  rcases applyEvent_ok hSound h with hProgress | ⟨hUpdated, hChains, -⟩
  · simp only [applyEvent] at h
    rcases hKind with hKind | hKind | hKind | hKind <;> simp only [hKind] at h
    · exact ⟨hProgress.sound, (addNode_ok hSound h).2.1⟩
    · exact ⟨hProgress.sound, (addNode_ok hSound h).2.1⟩
    · rw [beginDrainNode, ite_error_eq_ok, ite_error_eq_ok, ite_error_eq_ok] at h
      cases h.2.2.2
      exact ⟨hProgress.sound, rfl⟩
    · rw [markNodeDead, ite_error_eq_ok, ite_error_eq_ok] at h
      cases h.2.2
      exact ⟨hProgress.sound, rfl⟩
  · exact ⟨hUpdated, hChains⟩

theorem chainAt_congr {other : ClusterState} (h : other.chains = state.chains) (slot : Nat) :
    other.chainAt slot = state.chainAt slot := by
  simp only [ClusterState.chainAt, h]

theorem Explains.of_chains {copy : ClusterState} (hChains : copy.chains = state.chains)
    (h : Explains copy later plans) : Explains state later plans := by
  have hAt := chainAt_congr hChains
  obtain ⟨hLength, hChain, hSlot, hAfter⟩ := h
  simp only [hAt] at hChain hSlot hAfter
  exact ⟨hLength.trans (congrArg _ hChains), hChain, hSlot, hAfter⟩

theorem reconcileEvents_explains (hEvents : ∀ event ∈ events, event.kind.IsMembership)
    (hSound : Sound state) (h : reconcileEvents policy events state = .ok (later, plans)) :
    Explains state later plans := by
  induction events generalizing state later plans with
  | nil =>
    cases h
    exact .refl state
  | cons event rest ih =>
    obtain ⟨changed, hChanged, h⟩ := bind_eq_ok.mp h
    obtain ⟨⟨reconciled, reconciles⟩, hReconciled, h⟩ := bind_eq_ok.mp h
    obtain ⟨⟨final, more⟩, hRest, h⟩ := bind_eq_ok.mp h
    cases h
    obtain ⟨hSound', hChains⟩ := applyEvent_membership hSound (hEvents event List.mem_cons_self)
      (ok_of_mapError hChanged)
    have hReconciled := ok_of_mapError hReconciled
    have hFirst := Explains.of_chains hChains (reconcileState_path hSound' hReconciled).explains
    refine hFirst.trans (ih (fun e he => hEvents e (List.mem_cons_of_mem _ he)) ?_ hRest)
    exact (reconcileState_ok hSound' hReconciled).1

theorem cloneAndValidateState_chains {copy : ClusterState} (hSound : Sound state)
    (h : cloneAndValidateState state = .ok copy) : copy.chains = state.chains := by
  obtain ⟨_, -, h⟩ := bind_eq_ok.mp h
  rw [ite_error_eq_ok] at h
  obtain ⟨ordered, -, h⟩ := bind_eq_ok.mp h.2
  obtain ⟨_, -, h⟩ := bind_eq_ok.mp h
  cases h
  exact renumberChains_of_slots hSound.slot

/-- The plan of a reconcile or of a membership command accounts for every change of a chain. -/
theorem planReconfiguration_explains (hSound : Sound state)
    (hEvents : ∀ event ∈ events, event.kind.IsMembership)
    (h : planReconfiguration state events policy = .ok plan) :
    Explains state plan.updatedState plan.changedSlots := by
  obtain ⟨-, working, hWorking, hAll⟩ := planReconfiguration_eq_ok h
  obtain ⟨hCopy, -⟩ := cloneAndValidateState_ok hSound hWorking
  refine Explains.of_chains (cloneAndValidateState_chains hSound hWorking) ?_
  rw [reconcileAll] at hAll
  split at hAll
  · exact (reconcileState_path hCopy (ok_of_mapError hAll)).explains
  · exact reconcileEvents_explains hEvents hCopy hAll

/-! ## Plans for one event -/

def planStart (state : ClusterState) (events : List Event) : Except Error ClusterState := do
  let working ← cloneAndValidateState state
  match events with
  | [] => .ok working
  | event :: _ => applyEvent working event

theorem planReconfiguration_path (hSound : Sound state) (hLength : events.length ≤ 1)
    (h : planReconfiguration state events policy = .ok plan) :
    ∃ start, planStart state events = .ok start ∧ Sound start ∧
      Path policy start plan.updatedState plan.changedSlots := by
  obtain ⟨-, working, hWorking, hAll⟩ := planReconfiguration_eq_ok h
  obtain ⟨hCopy, -⟩ := cloneAndValidateState_ok hSound hWorking
  rcases events with _ | ⟨event, _ | ⟨second, rest⟩⟩
  · exact ⟨working, bind_eq_ok.mpr ⟨working, hWorking, rfl⟩, hCopy,
      reconcileState_path hCopy (ok_of_mapError hAll)⟩
  · obtain ⟨applied, hApplied, hAll⟩ := bind_eq_ok.mp hAll
    obtain ⟨⟨reconciled, reconciles⟩, hReconciled, hAll⟩ := bind_eq_ok.mp hAll
    obtain ⟨hUpdated, hChanged⟩ := Prod.mk.inj (Except.ok.inj hAll)
    replace hApplied := ok_of_mapError hApplied
    have hSoundApplied := applyEvent_sound hCopy hApplied
    refine ⟨applied, bind_eq_ok.mpr ⟨working, hWorking, hApplied⟩, hSoundApplied, ?_⟩
    rw [← hUpdated, ← hChanged, List.append_nil]
    exact reconcileState_path hSoundApplied (ok_of_mapError hReconciled)
  · simp only [List.length_cons] at hLength
    omega

theorem planStart_chains (hSound : Sound state)
    (hEvents : ∀ event ∈ events, event.kind.IsMembership) (h : planStart state events = .ok start) :
    start.chains = state.chains := by
  obtain ⟨working, hWorking, h⟩ := bind_eq_ok.mp h
  have hChains := cloneAndValidateState_chains hSound hWorking
  cases events with
  | nil =>
    cases h
    exact hChains
  | cons event rest =>
    obtain ⟨hCopy, -⟩ := cloneAndValidateState_ok hSound hWorking
    have hKind := hEvents event List.mem_cons_self
    exact (applyEvent_membership hCopy hKind h).2.trans hChains

/-! ## Chains with no replica to spare

A finalization takes a replica out of service only where more are active than the replication
factor asks for. -/

/-- Chains with at most as many active replicas as the replication factor keep them. -/
structure KeepsShort (state later : ClusterState) : Prop where
  factor : later.replicationFactor = state.replicationFactor
  actives : ∀ slot, ((state.activesAt slot).length : Int) ≤ state.replicationFactor →
    later.activesAt slot = state.activesAt slot

theorem KeepsShort.refl (state : ClusterState) : KeepsShort state state := ⟨rfl, fun _ _ => rfl⟩

theorem KeepsShort.trans {middle : ClusterState} (h : KeepsShort state middle)
    (h' : KeepsShort middle later) : KeepsShort state later where
  factor := h'.factor.trans h.factor
  actives slot hSlot := by
    have hMiddle := h.actives slot hSlot
    rw [h'.actives slot (by rwa [hMiddle, h.factor]), hMiddle]

theorem KeepsShort.setReplicas {replicas : List Replica}
    (h : ((state.activesAt slot).length : Int) ≤ state.replicationFactor →
      activeIDs replicas = state.activesAt slot) :
    KeepsShort state (state.setReplicas slot replicas) := by
  refine ⟨rfl, fun i hShort => ?_⟩
  by_cases hi : i = slot
  · subst hi
    exact setReplicas_pointwise state i replicas
      (R := fun j old new => j = i → activeIDs new = activeIDs old) (fun _ _ _ => rfl)
      (fun _ => h hShort) i rfl
  · simp only [ClusterState.activesAt, setReplicas_chainAt_of_ne state slot replicas hi]

theorem Path.keepsShort (hFree : DeadFree start) (h : Path policy start later plans) :
    KeepsShort start later := by
  induction h with
  | rest => exact .refl start
  | @change state plans slot after steps path inside change domains ih =>
    refine ih.trans (.setReplicas fun hShort => ?_)
    cases change with
    | repaired dead =>
      rw [(path.deadFree hFree).containsDead slot] at dead
      cases dead
    | appended => exact activeIDs_append_joining _ _
    | @retired kept left alive joinless perm full left_ne =>
      have hLength := perm.length_eq
      have hSome := List.length_pos_iff.mpr left_ne
      rw [List.length_append] at hLength
      omega

/-- A reconcile without events takes no replica of a chain out of service that has none to spare. -/
theorem planReconfiguration_keepsShort (hSound : Sound state) (hFree : DeadFree state)
    (h : planReconfiguration state [] policy = .ok plan) : KeepsShort state plan.updatedState := by
  obtain ⟨-, working, hWorking, hAll⟩ := planReconfiguration_eq_ok h
  obtain ⟨hCopy, hSame⟩ := cloneAndValidateState_ok hSound hWorking
  obtain ⟨hFactor, hActives⟩ :=
    (reconcileState_path hCopy (ok_of_mapError hAll)).keepsShort (hSame.deadFree hFree)
  have hAt : ∀ slot, working.activesAt slot = state.activesAt slot := by
    intro slot
    simp only [ClusterState.activesAt, activeReplicaIDs, hSame.replicas]
  simp only [hAt, hSame.factor] at hActives
  exact ⟨hFactor.trans hSame.factor, hActives⟩

/-! ## Progress reports -/

/-- The chain holds the joining node, and no replica behind it is active. -/
def AwaitsTail (chain : Chain) (nodeID : String) : Prop :=
  ∃ before behind, chain.replicas = before ++ ⟨nodeID, .joining⟩ :: behind ∧
    ∀ replica ∈ behind, replica.state ≠ .active

theorem SlotPlan.Shaped.awaitsTail {slotPlan : SlotPlan} (h : slotPlan.Shaped)
    {step : ReconfigurationStep} {rest : List ReconfigurationStep}
    (hSteps : slotPlan.steps = step :: rest) (hKind : step.kind = .appendTail) :
    AwaitsTail slotPlan.after step.nodeID := by
  cases h with
  | appends kept kinds after =>
    refine ⟨kept, rest.map fun step => ⟨step.nodeID, .joining⟩, ?_, by simp⟩
    rw [after, hSteps, List.map_cons]
  | retires kept hSome kinds after =>
    have hLeaving := kinds step (by simp [hSteps])
    rw [hKind] at hLeaving
    cases hLeaving

theorem modify_middle {α : Type} (before : List α) (item : α) (behind : List α) (f : α → α) :
    (before ++ item :: behind).modify before.length f = before ++ f item :: behind := by
  induction before with
  | nil => rfl
  | cons first rest ih => simp [ih]

theorem activeIDs_modify_joining {before behind : List Replica} {nodeID : String}
    (hBehind : ∀ replica ∈ behind, replica.state ≠ .active) :
    activeIDs ((before ++ ⟨nodeID, .joining⟩ :: behind).modify before.length
        fun replica => { replica with state := .active }) =
      activeIDs (before ++ ⟨nodeID, .joining⟩ :: behind) ++ [nodeID] := by
  have hNone : behind.filter (·.state = .active) = [] := by
    simpa [List.filter_eq_nil_iff] using hBehind
  rw [modify_middle]
  simp [activeIDs, replicaIDs, hNone]

theorem index_of_nodup {before behind : List Replica} {joined replica : Replica} {index : Nat}
    (hNodup : (replicaIDs (before ++ joined :: behind)).Nodup)
    (hIndex : (before ++ joined :: behind)[index]? = some replica)
    (hID : replica.nodeID = joined.nodeID) : index = before.length := by
  have hHere : (replicaIDs (before ++ joined :: behind))[before.length]? = some joined.nodeID := by
    simp [replicaIDs]
  have hThere : (replicaIDs (before ++ joined :: behind))[index]? = some joined.nodeID := by
    rw [replicaIDs, List.getElem?_map, hIndex, Option.map_some, hID]
  obtain ⟨hBound, -⟩ := List.getElem?_eq_some_iff.mp hThere
  exact (List.getElem?_inj hBound hNodup).mp (hThere.trans hHere.symm)

theorem removeReplica_chains (state : ClusterState) (slot index : Nat) (nodeID : String) :
    (removeReplica state slot index nodeID).chains =
      (state.setReplicas slot ((state.chainAt slot).replicas.eraseIdx index)).chains := by
  simp only [removeReplica]
  split <;> rfl

variable (hSound : Sound state)

include hSound

theorem applyProgress_cases (h : applyProgress state event = .ok updated) :
    ∃ working, working.chains = state.chains ∧ applyProgressEvent working event = .ok updated := by
  obtain ⟨working, hWorking, h⟩ := bind_eq_ok.mp h
  rw [ite_error_eq_ok] at h
  exact ⟨working, cloneAndValidateState_chains hSound (ok_of_mapError hWorking),
    ok_of_mapError h.2⟩

theorem applyProgress_chainAt_of_ne (h : applyProgress state event = .ok updated)
    (hSlot : slot ≠ event.slot.toNat) : updated.chainAt slot = state.chainAt slot := by
  obtain ⟨working, hChains, hRun⟩ := applyProgress_cases hSound h
  rw [← chainAt_congr hChains]
  obtain ⟨-, index, replica, -, -, ⟨-, -, rfl⟩ | ⟨-, -, rfl⟩⟩ := applyProgressEvent_cases hRun
  · exact setReplicas_chainAt_of_ne _ _ _ hSlot
  · rw [chainAt_congr (removeReplica_chains ..), setReplicas_chainAt_of_ne _ _ _ hSlot]

theorem applyProgress_length (h : applyProgress state event = .ok updated) :
    updated.chains.length = state.chains.length := by
  obtain ⟨working, hChains, hRun⟩ := applyProgress_cases hSound h
  rw [← hChains]
  obtain ⟨-, index, replica, -, -, ⟨-, -, rfl⟩ | ⟨-, -, rfl⟩⟩ := applyProgressEvent_cases hRun
  · exact setReplicas_length ..
  · rw [removeReplica_chains, setReplicas_length]

theorem applyProgress_activates (h : applyProgress state event = .ok updated)
    (hKind : event.kind = .replicaBecameActive)
    (hAwaits : AwaitsTail (state.chainAt event.slot.toNat) event.nodeID) :
    updated.activesAt event.slot.toNat = state.activesAt event.slot.toNat ++ [event.nodeID] := by
  obtain ⟨working, hChains, hRun⟩ := applyProgress_cases hSound h
  have hAt := chainAt_congr hChains event.slot.toNat
  obtain ⟨before, behind, hReplicas, hBehind⟩ := hAwaits
  obtain ⟨-, index, replica, hIndex, hID, ⟨-, -, rfl⟩ | ⟨hOther, -, -⟩⟩ :=
    applyProgressEvent_cases hRun
  · rw [hAt, hReplicas] at hIndex
    have hNodup := hSound.nodup event.slot.toNat
    rw [ClusterState.idsAt, hReplicas] at hNodup
    have hBound : event.slot.toNat < working.chains.length :=
      lt_length_of_replicas_ne_nil (by rw [hAt, hReplicas]; simp)
    have hActive : activeIDs ((state.chainAt event.slot.toNat).replicas.modify index
        fun replica => { replica with state := .active }) =
        state.activesAt event.slot.toNat ++ [event.nodeID] := by
      rw [index_of_nodup hNodup hIndex hID, ClusterState.activesAt, activeReplicaIDs, hReplicas]
      exact activeIDs_modify_joining hBehind
    rw [ClusterState.activesAt, activateReplica, setReplicas_chainAt_self _ _ _ hBound, hAt]
    exact hActive
  · rw [hKind] at hOther
    cases hOther

end Craq.Coordinator
