import Craq.Lib.Except
import Craq.Lib.Map
import Craq.Runtime.Evaluate

/-! # The table of applied commands

What the runtime's table of records promises about the state it belongs to.  The records carry
distinct versions up to the state's own, and the record of the state's version, if it is still
there, holds the state itself except for what heartbeats write without a command.
-/

namespace Craq.Runtime

open Lib
open Coordinator (ClusterState ReconfigurationPlan)

/-! ## Clones are idempotent -/

theorem cloneClusterState_clone (cluster : ClusterState) :
    cloneClusterState (cloneClusterState cluster) = cloneClusterState cluster := by
  simp only [cloneClusterState]
  congr 1
  ext nodeID ready
  simp

theorem View.clone_clone (view : View) : view.clone.clone = view.clone := by
  simp only [View.clone, cloneClusterState_clone]

theorem clonePlan_clone (plan : ReconfigurationPlan) :
    clonePlan (clonePlan plan) = clonePlan plan := by
  simp only [clonePlan, cloneClusterState_clone]

theorem cloneAppliedCommand_clone (applied : AppliedCommand) :
    cloneAppliedCommand (cloneAppliedCommand applied) = cloneAppliedCommand applied := by
  simp only [cloneAppliedCommand, View.clone_clone, Option.map_map, Function.comp_def,
    clonePlan_clone]

theorem cloneState_clone (state : State) : cloneState (cloneState state) = cloneState state := by
  simp only [cloneState, View.clone_clone]
  congr 1
  ext id applied
  simp [Std.ExtTreeMap.getElem?_map, cloneAppliedCommand_clone]

/-! ## What a successful evaluation has done -/

theorem requireNonEmpty_ok {text detail : String} (h : requireNonEmpty text detail = .ok ()) :
    text ≠ "" := by
  unfold requireNonEmpty at h
  exact (ite_error_eq_ok.mp h).1

variable {state : State} {cmd : Command} {applied : AppliedCommand}

theorem validateCommand_ok {found : Option AppliedCommand}
    (h : validateCommand state cmd = .ok found) :
    cmd.id ≠ "" ∧ validateCommandPayload cmd = .ok () ∧
      ((∃ applied, state.appliedCommands[cmd.id]? = some applied ∧ applied.command = cmd ∧
          found = some (cloneAppliedCommand applied)) ∨
        (state.appliedCommands[cmd.id]? = none ∧ found = none)) := by
  unfold validateCommand at h
  obtain ⟨_, hID, h⟩ := bind_eq_ok.mp h
  obtain ⟨_, hPayload, h⟩ := bind_eq_ok.mp h
  refine ⟨requireNonEmpty_ok hID, ok_of_mapError hPayload, ?_⟩
  split at h
  case h_1 applied hApplied =>
    left
    split at h
    · cases h
      exact ⟨applied, hApplied, ‹_›, rfl⟩
    · cases h
  case h_2 hNone =>
    right
    split at h
    · cases h
      exact ⟨hNone, rfl⟩
    · cases h

theorem evaluateCommand_ok {evaluated : EvaluatedCommand}
    (h : evaluateCommand state cmd = .ok evaluated) :
    cmd.id ≠ "" ∧ validateCommandPayload cmd = .ok () ∧
      ((∃ applied, (cloneState state).appliedCommands[cmd.id]? = some applied ∧
          applied.command = cmd ∧
          evaluated.nextState = snapshotForApplied (cloneState state) (cloneAppliedCommand applied)) ∨
        ((cloneState state).appliedCommands[cmd.id]? = none ∧ ∃ cluster plan,
          evaluated.nextState =
            nextStateForApplied (cloneState state) (state.lastLogIndex + 1) cmd cluster plan)) := by
  unfold evaluateCommand at h
  obtain ⟨execution, hExecution, h⟩ := bind_eq_ok.mp h
  unfold executeCommand at hExecution
  obtain ⟨found, hFound, hExecution⟩ := bind_eq_ok.mp hExecution
  obtain ⟨hID, hPayload, hCases⟩ := validateCommand_ok (ok_of_mapError hFound)
  refine ⟨hID, hPayload, ?_⟩
  rcases hCases with ⟨applied, hApplied, hSame, rfl⟩ | ⟨hNone, rfl⟩
  · cases hExecution
    cases h
    exact .inl ⟨applied, hApplied, hSame, by rw [cloneAppliedCommand_clone]⟩
  · obtain ⟨⟨cluster, plan⟩, _, hExecution⟩ := bind_eq_ok.mp hExecution
    cases hExecution
    cases h
    exact .inr ⟨hNone, cluster, plan, rfl⟩

/-- What executing a fresh command yields, by the kind of the command. -/
inductive Executed (state : State) (cmd : Command) :
    ClusterState → Option ReconfigurationPlan → Prop where
  | placed {bootstrap : BootstrapCommand} {cluster : ClusterState} (kind : cmd.kind = .bootstrap)
      (payload : cmd.bootstrap = some bootstrap) (uninitialized : state.isInitialized = false)
      (built : Coordinator.buildInitialPlacement bootstrap.config bootstrap.nodes = .ok cluster) :
      Executed state cmd (cloneClusterState cluster) none
  | planned {reconfigure : ReconfigureCommand} {plan : ReconfigurationPlan}
      (kind : cmd.kind = .reconfigure) (payload : cmd.reconfigure = some reconfigure)
      (initialized : state.isInitialized = true)
      (plans : Coordinator.planReconfiguration (cloneClusterState state.cluster)
        reconfigure.events reconfigure.policy = .ok plan) :
      Executed state cmd (cloneClusterState plan.updatedState) (some (clonePlan plan))
  | progressed {progress : ProgressCommand} {cluster : ClusterState} (kind : cmd.kind = .progress)
      (payload : cmd.progress = some progress) (initialized : state.isInitialized = true)
      (applied : Coordinator.applyProgress (cloneClusterState state.cluster) progress.event =
        .ok cluster) :
      Executed state cmd (cloneClusterState cluster) none
  | kept (kind : cmd.kind ∈ [.nodeReady, .heartbeat, .liveness, .acknowledgeOutbox]) :
      Executed state cmd (cloneClusterState state.cluster) none

theorem payload_ok {α : Type} {value : Option α} {found : α} (h : payload value = .ok found) :
    value = some found := by
  cases value with
  | none => cases h
  | some _ =>
    cases h
    rfl

theorem requireInitialized_ok (h : requireInitialized state = .ok ()) :
    state.isInitialized = true := by
  rw [requireInitialized] at h
  split at h
  · assumption
  · cases h

theorem executeFresh_executed {cluster : ClusterState} {plan : Option ReconfigurationPlan}
    (h : executeFresh state cmd = .ok (cluster, plan)) : Executed state cmd cluster plan := by
  cases hKind : cmd.kind with
  | other name => simp [executeFresh, hKind] at h
  | bootstrap =>
    simp only [executeFresh, hKind] at h
    obtain ⟨hFresh, h⟩ := ite_error_eq_ok.mp h
    obtain ⟨bootstrap, hPayload, h⟩ := bind_eq_ok.mp h
    obtain ⟨built, hBuilt, h⟩ := bind_eq_ok.mp h
    cases h
    exact .placed hKind (payload_ok hPayload) (by simpa using hFresh) (ok_of_mapError hBuilt)
  | reconfigure =>
    simp only [executeFresh, hKind] at h
    obtain ⟨_, hInitialized, h⟩ := bind_eq_ok.mp h
    obtain ⟨reconfigure, hPayload, h⟩ := bind_eq_ok.mp h
    obtain ⟨planned, hPlanned, h⟩ := bind_eq_ok.mp h
    cases h
    exact .planned hKind (payload_ok hPayload) (requireInitialized_ok hInitialized)
      (ok_of_mapError hPlanned)
  | progress =>
    simp only [executeFresh, hKind] at h
    obtain ⟨_, hInitialized, h⟩ := bind_eq_ok.mp h
    obtain ⟨progress, hPayload, h⟩ := bind_eq_ok.mp h
    obtain ⟨applied, hApplied, h⟩ := bind_eq_ok.mp h
    cases h
    exact .progressed hKind (payload_ok hPayload) (requireInitialized_ok hInitialized)
      (ok_of_mapError hApplied)
  | nodeReady =>
    simp only [executeFresh, hKind] at h
    obtain ⟨_, -, h⟩ := bind_eq_ok.mp h
    obtain ⟨_, -, h⟩ := bind_eq_ok.mp h
    obtain ⟨_, -, h⟩ := bind_eq_ok.mp h
    cases h
    exact .kept (by simp [hKind])
  | heartbeat =>
    simp only [executeFresh, hKind] at h
    cases h
    exact .kept (by simp [hKind])
  | liveness =>
    simp only [executeFresh, hKind] at h
    obtain ⟨_, -, h⟩ := bind_eq_ok.mp h
    obtain ⟨_, -, h⟩ := bind_eq_ok.mp h
    cases h
    exact .kept (by simp [hKind])
  | acknowledgeOutbox =>
    simp only [executeFresh, hKind] at h
    obtain ⟨_, -, h⟩ := bind_eq_ok.mp h
    cases h
    exact .kept (by simp [hKind])

theorem evaluateCommand_duplicate (hID : applied.command.id ≠ "")
    (hPayload : validateCommandPayload applied.command = .ok ())
    (hApplied : (cloneState state).appliedCommands[applied.command.id]? = some applied) :
    ∃ evaluated, evaluateCommand state applied.command = .ok evaluated ∧
      evaluated.nextState = snapshotForApplied (cloneState state) (cloneAppliedCommand applied) := by
  have hValid : validateCommand (cloneState state) applied.command =
      .ok (some (cloneAppliedCommand applied)) := by
    simp only [validateCommand, requireNonEmpty, hID, if_false, hPayload, hApplied, if_true]
    rfl
  refine ⟨_, by simp only [evaluateCommand, executeCommand, hValid]; rfl, ?_⟩
  rw [cloneAppliedCommand_clone]

/-! ## The invariant -/

/-- `recorded` is `current` up to the liveness records and the ready marks. -/
def View.AgreesExceptLiveness (recorded current : View) : Prop :=
  { recorded with
    nodeLivenessByID := current.nodeLivenessByID
    cluster := { recorded.cluster with readyNodeIDs := current.cluster.readyNodeIDs } } = current

structure Ledger (state : State) : Prop where
  normal : cloneState state = state
  keyed : ∀ (id : String) (applied : AppliedCommand), state.appliedCommands[id]? = some applied →
    applied.command.id = id ∧ id ≠ "" ∧ validateCommandPayload applied.command = .ok ()
  bounded : ∀ (id : String) (applied : AppliedCommand), state.appliedCommands[id]? = some applied →
    applied.version ≤ state.version
  distinct : ∀ (id other : String) (applied existing : AppliedCommand),
    state.appliedCommands[id]? = some applied → state.appliedCommands[other]? = some existing →
      applied.version = existing.version → id = other
  tip : ∀ (id : String) (applied : AppliedCommand), state.appliedCommands[id]? = some applied →
    applied.version = state.version → applied.toView.AgreesExceptLiveness state.toView

theorem zeroState_ledger : Ledger zeroState where
  normal := by decide +kernel
  keyed := by simp [zeroState]
  bounded := by simp [zeroState]
  distinct := by simp [zeroState]
  tip := by simp [zeroState]

variable {id : String}

theorem Ledger.clone_applied (h : Ledger state)
    (hApplied : state.appliedCommands[id]? = some applied) :
    cloneAppliedCommand applied = applied := by
  have hSelf : (cloneState state).appliedCommands[id]? = some applied := by rw [h.normal, hApplied]
  simpa [cloneState, Std.ExtTreeMap.getElem?_map, hApplied] using hSelf

/-- Answering a duplicate goes back to the recorded view and forgets all later records. -/
theorem Ledger.snapshotForApplied_eq (h : Ledger state)
    (hApplied : state.appliedCommands[id]? = some applied) :
    cloneState (snapshotForApplied state applied) =
      ⟨applied.toView, state.appliedCommands.filter fun _ existing =>
        existing.version ≤ applied.version⟩ := by
  have hView : applied.toView.clone = applied.toView :=
    congrArg AppliedCommand.toView (h.clone_applied hApplied)
  simp only [cloneState, snapshotForApplied, hView]
  congr 1
  ext other existing
  simp only [Std.ExtTreeMap.getElem?_map, getElem?_filter_value, Option.map_map]
  cases hOther : state.appliedCommands[other]? with
  | none => simp
  | some found =>
    have hFound := h.clone_applied hOther
    rcases Nat.lt_or_ge applied.version found.version with hLater | hLe
    · simp only [Option.filter_some, Nat.not_le.mpr hLater, decide_false, Bool.false_eq_true,
        if_false, Option.map_none]
    · simp only [Option.filter_some, hLe, decide_true, if_true, Option.map_some,
        Function.comp_apply, hFound]

theorem View.AgreesExceptLiveness.refl (view : View) : view.AgreesExceptLiveness view := by
  rfl

theorem Ledger.duplicate (h : Ledger state) (hApplied : state.appliedCommands[id]? = some applied) :
    Ledger (cloneState (snapshotForApplied state applied)) := by
  have hKept : ∀ (other : String) (existing : AppliedCommand),
      (cloneState (snapshotForApplied state applied)).appliedCommands[other]? = some existing →
        state.appliedCommands[other]? = some existing ∧ existing.version ≤ applied.version := by
    intro other existing hOther
    rw [h.snapshotForApplied_eq hApplied, getElem?_filter_value_eq_some] at hOther
    exact ⟨hOther.1, of_decide_eq_true hOther.2⟩
  have hView : (cloneState (snapshotForApplied state applied)).toView = applied.toView := by
    rw [h.snapshotForApplied_eq hApplied]
  constructor
  case normal => exact cloneState_clone _
  case keyed =>
    intro other existing hOther
    exact h.keyed other existing (hKept other existing hOther).1
  case bounded =>
    intro other existing hOther
    rw [hView]
    exact (hKept other existing hOther).2
  case distinct =>
    intro first second left right hFirst hSecond hVersion
    exact h.distinct first second left right (hKept first left hFirst).1
      (hKept second right hSecond).1 hVersion
  case tip =>
    intro other existing hOther hVersion
    rw [hView] at hVersion ⊢
    obtain ⟨hExisting, -⟩ := hKept other existing hOther
    obtain rfl : other = id := h.distinct other id existing applied hExisting hApplied hVersion
    obtain rfl : existing = applied := Option.some.inj (hExisting.symm.trans hApplied)
    exact .refl _

theorem Ledger.fresh (h : Ledger state) (hID : cmd.id ≠ "")
    (hPayload : validateCommandPayload cmd = .ok ()) (hNone : state.appliedCommands[cmd.id]? = none)
    (logIndex : Nat) (cluster : ClusterState) (plan : Option ReconfigurationPlan) :
    Ledger (cloneState (nextStateForApplied state logIndex cmd cluster plan)) := by
  let next := nextView state.toView logIndex cmd cluster plan
  have hEntry : ∀ (id : String) (applied : AppliedCommand),
      (cloneState (nextStateForApplied state logIndex cmd cluster plan)).appliedCommands[id]? =
        some applied →
      (id = cmd.id ∧ applied.command = cmd ∧ applied.toView = next.clone) ∨
        (id ≠ cmd.id ∧ state.appliedCommands[id]? = some applied) := by
    intro id applied hApplied
    simp only [cloneState, nextStateForApplied, Std.ExtTreeMap.getElem?_map,
      Std.ExtTreeMap.getElem?_insert, Std.LawfulEqCmp.compare_eq_iff_eq] at hApplied
    split at hApplied
    · rename_i hEq
      simp only [Option.map_some, Option.some.injEq] at hApplied
      subst hApplied
      exact .inl ⟨hEq.symm, rfl, View.clone_clone next⟩
    · rename_i hNe
      obtain ⟨existing, hExisting, rfl⟩ := Option.map_eq_some_iff.mp hApplied
      exact .inr ⟨fun hEq => hNe hEq.symm, by rw [h.clone_applied hExisting, hExisting]⟩
  have hOld : ∀ (id : String) (applied : AppliedCommand), state.appliedCommands[id]? = some applied →
      applied.version < next.version := by
    intro id applied hApplied
    exact Nat.lt_succ_of_le (h.bounded id applied hApplied)
  have hVersion : (cloneState (nextStateForApplied state logIndex cmd cluster plan)).version =
      next.version := rfl
  constructor
  case normal => exact cloneState_clone _
  case keyed =>
    intro id applied hApplied
    rcases hEntry id applied hApplied with ⟨rfl, rfl, -⟩ | ⟨-, hState⟩
    · exact ⟨rfl, hID, hPayload⟩
    · exact h.keyed id applied hState
  case bounded =>
    intro id applied hApplied
    rcases hEntry id applied hApplied with ⟨rfl, -, hView⟩ | ⟨-, hState⟩
    · rw [hView]
      exact le_rfl
    · rw [hVersion]
      exact (hOld id applied hState).le
  case distinct =>
    intro id other applied existing hApplied hExisting hSame
    rcases hEntry id applied hApplied with ⟨hLeft, -, hView⟩ | ⟨-, hState⟩ <;>
      rcases hEntry other existing hExisting with ⟨hRight, -, hView'⟩ | ⟨-, hState'⟩
    · rw [hLeft, hRight]
    · have hLt := hOld other existing hState'
      rw [← hSame, hView] at hLt
      exact absurd hLt (lt_irrefl _)
    · have hLt := hOld id applied hState
      rw [hSame, hView'] at hLt
      exact absurd hLt (lt_irrefl _)
    · exact h.distinct id other applied existing hState hState' hSame
  case tip =>
    intro id applied hApplied hSame
    rcases hEntry id applied hApplied with ⟨rfl, -, hView⟩ | ⟨-, hState⟩
    · rw [hView]
      exact .refl _
    · exact absurd hSame (hOld id applied hState).ne

theorem Ledger.evaluate (h : Ledger state) {evaluated : EvaluatedCommand}
    (hRun : evaluateCommand state cmd = .ok evaluated) :
    Ledger (cloneState evaluated.nextState) := by
  obtain ⟨hID, hPayload, hCases⟩ := evaluateCommand_ok hRun
  rw [h.normal] at hCases
  rcases hCases with ⟨applied, hApplied, -, hNext⟩ | ⟨hNone, cluster, plan, hNext⟩
  · rw [hNext, h.clone_applied hApplied]
    exact h.duplicate hApplied
  · rw [hNext]
    exact h.fresh hID hPayload hNone _ cluster plan

theorem Ledger.relive {later : State} (h : Ledger state) (hNormal : cloneState later = later)
    (hTable : later.appliedCommands = state.appliedCommands)
    (hView : state.toView.AgreesExceptLiveness later.toView) : Ledger later := by
  have hVersion : later.version = state.version := by rw [← hView]
  constructor
  case normal => exact hNormal
  case keyed => rw [hTable]; exact h.keyed
  case bounded => rw [hTable, hVersion]; exact h.bounded
  case distinct => rw [hTable]; exact h.distinct
  case tip =>
    rw [hTable, hVersion]
    intro id applied hApplied hSame
    have hTip := h.tip id applied hApplied hSame
    unfold View.AgreesExceptLiveness at hTip hView ⊢
    rw [← hView, ← hTip]

end Craq.Runtime
