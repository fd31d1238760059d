import Craq.Coordinator.Once
import Craq.Runtime.Chains

/-! # Entries of the runtime outbox

The entries of a plan are for the slots that take steps, and a fresh command keeps entries and adds
those of its plan.
-/

namespace Craq.Runtime

open Lib
open Coordinator (Chain ClusterState Node ReconfigurationPlan SlotPlan StepsOnce)
open Storage (ReplicaAssignment)

/-! ## The commands of one plan -/

variable {entry : OutboxEntry}

theorem updateEntry_some {version slot chainVersion : Nat} {serving : Chain}
    {nodesByID : Std.ExtTreeMap String Node} {nodeID : String}
    (h : updateEntry version slot chainVersion serving nodesByID nodeID = some entry) :
    entry.slot = slot ∧ entry.nodeID = nodeID ∧ entry.kind = .updateChainPeers := by
  obtain ⟨assignment, -, rfl⟩ := Option.map_eq_some_iff.mp h
  exact ⟨rfl, rfl, rfl⟩

theorem outboxOfSlotPlan_planned {version : Nat} {slotVersions : Std.ExtTreeMap Nat Nat}
    {nodesByID : Std.ExtTreeMap String Node} {slotPlan : SlotPlan}
    (h : entry ∈ outboxOfSlotPlan version slotVersions nodesByID slotPlan) :
    slotPlan.steps ≠ [] ∧ entry.slot = slotPlan.slot := by
  constructor
  · intro hNone
    simp [outboxOfSlotPlan, distinctStepKinds, hNone] at h
  simp only [outboxOfSlotPlan] at h
  split at h
  · split at h
    · cases h
    split at h
    · cases h
    · cases List.mem_singleton.mp h
      rfl
  split at h
  · split at h
    · cases h
    rcases List.mem_append.mp h with hUpdate | hLeave
    · obtain ⟨nodeID, -, hEntry⟩ := List.mem_filterMap.mp hUpdate
      exact (updateEntry_some hEntry).1
    · cases List.mem_singleton.mp hLeave
      rfl
  · cases h

def plannedEntries (version : Nat) (slotVersions : Std.ExtTreeMap Nat Nat)
    (nodesByID : Std.ExtTreeMap String Node) (plan : ReconfigurationPlan) : List OutboxEntry :=
  plan.changedSlots.flatMap (outboxOfSlotPlan version slotVersions nodesByID)

/-! ## The outbox of the next view -/

theorem nextView_outbox {state : State} (hNormal : cloneState state = state) {cmd : Command}
    {cluster : ClusterState} {plan : Option ReconfigurationPlan}
    (h : Executed state cmd cluster plan) (logIndex : Nat)
    (hEntry : entry ∈ (nextView state.toView logIndex cmd cluster plan).outbox) :
    entry ∈ state.outbox ∨ ∃ reconfigure planned, cmd.kind = .reconfigure ∧
      cmd.reconfigure = some reconfigure ∧ plan = some planned ∧
      (∃ original, Coordinator.planReconfiguration state.cluster reconfigure.events
        reconfigure.policy = .ok original ∧ planned = clonePlan original) ∧
      entry ∈ plannedEntries (state.version + 1)
        (nextSlotVersions state.slotVersions cmd.kind cluster plan) cluster.nodesByID planned := by
  have hCluster : cloneClusterState state.cluster = state.cluster :=
    congrArg (fun s : State => s.cluster) hNormal
  cases h with
  | placed kind => simp [nextView, nextOutbox, kind] at hEntry
  | @planned reconfigure original kind payload _ plans =>
    simp only [nextView, nextOutbox, kind, Option.elim_some, outboxFromPlan] at hEntry
    rcases List.mem_append.mp hEntry with hKept | hNew
    · exact .inl (List.filter_sublist.subset hKept)
    · rw [hCluster] at plans
      refine .inr ⟨reconfigure, clonePlan original, kind, payload, rfl, ⟨original, plans, rfl⟩, ?_⟩
      rw [kind]
      exact hNew
  | progressed kind payload =>
    simp only [nextView, nextOutbox, kind, payload, Option.elim_some] at hEntry
    exact .inl (List.filter_sublist.subset hEntry)
  | kept kind =>
    simp only [List.mem_cons, List.not_mem_nil, or_false] at kind
    rcases kind with kind | kind | kind | kind <;>
      simp only [nextView, nextOutbox, kind] at hEntry
    · exact .inl hEntry
    · exact .inl hEntry
    · exact .inl hEntry
    · left
      cases hPayload : cmd.acknowledgeOutbox with
      | none => simpa [hPayload] using hEntry
      | some acknowledged =>
        rw [hPayload] at hEntry
        exact List.filter_sublist.subset hEntry

end Craq.Runtime
