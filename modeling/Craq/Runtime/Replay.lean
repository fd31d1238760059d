import Craq.Runtime.Ledger
import Craq.Runtime.Store

/-! # Reopening a runtime

Replaying the log from the last saved state gives the view of the running runtime, whatever mix of
commands, checkpoints and crashes led there.  The replay may have forgotten records that the running
table still holds, but only those of commands older than the saved state.
-/

namespace Craq.Runtime

open Lib
open Coordinator (ClusterState ReconfigurationPlan)

set_option linter.dupNamespace false

/-! ## A produced state is its own clone -/

theorem markReady_clone (cluster : ClusterState) (nodeID : String) :
    cloneClusterState (markReady (cloneClusterState cluster) nodeID) =
      markReady (cloneClusterState cluster) nodeID := by
  rw [markReady]
  split
  · exact cloneClusterState_clone cluster
  · simp only [cloneClusterState]
    congr 1
    ext id ready
    simp only [getElem?_filter_value, getElem?_insert_ite]
    split
    · simp
    · simp only [Option.filter_filter, Bool.and_self]

theorem nextClusterState_clone (cluster : ClusterState) (cmd : Command) :
    cloneClusterState (nextClusterState (cloneClusterState cluster) cmd) =
      nextClusterState (cloneClusterState cluster) cmd := by
  rw [nextClusterState]
  split
  case h_1 =>
    cases cmd.nodeReady with
    | none => exact cloneClusterState_clone cluster
    | some ready => exact markReady_clone cluster ready.status.nodeID
  case h_2 =>
    cases cmd.heartbeat with
    | none => exact cloneClusterState_clone cluster
    | some beat => exact markReady_clone cluster beat.status.nodeID
  case h_3 => exact cloneClusterState_clone cluster

theorem nextView_clone (view : View) (logIndex : Nat) (cmd : Command) (cluster : ClusterState)
    (plan : Option ReconfigurationPlan) :
    (nextView view logIndex cmd cluster plan).clone = nextView view logIndex cmd cluster plan := by
  simp only [nextView, View.clone, nextClusterState_clone]

variable {state : State}

theorem Ledger.next_normal (h : Ledger state) (logIndex : Nat) (cmd : Command)
    (cluster : ClusterState) (plan : Option ReconfigurationPlan) :
    cloneState (nextStateForApplied state logIndex cmd cluster plan) =
      nextStateForApplied state logIndex cmd cluster plan := by
  simp only [cloneState, nextStateForApplied, nextView_clone]
  congr 1
  ext id applied
  simp only [Std.ExtTreeMap.getElem?_map, getElem?_insert_ite]
  split
  · simp only [Option.map_some, cloneAppliedCommand, nextView_clone, Option.map_map,
      Function.comp_def, clonePlan_clone]
  · cases hFound : state.appliedCommands[id]? with
    | none => rfl
    | some found => simp only [Option.map_some, h.clone_applied hFound]

/-- Executing a command does not look at the table of records. -/
theorem executeFresh_congr {other : State} (hView : state.toView = other.toView) (cmd : Command) :
    executeFresh state cmd = executeFresh other cmd := by
  obtain ⟨view, table⟩ := state
  obtain ⟨view', table'⟩ := other
  obtain rfl : view = view' := hView
  rfl

theorem requireNonEmpty_of_ne {text : String} (h : text ≠ "") (detail : String) :
    requireNonEmpty text detail = .ok () := by
  rw [requireNonEmpty, if_neg h]

variable {cmd : Command} {cluster : ClusterState} {plan : Option ReconfigurationPlan}

theorem validateCommand_none_iff :
    validateCommand state cmd = .ok none ↔
      cmd.id ≠ "" ∧ validateCommandPayload cmd = .ok () ∧ state.appliedCommands[cmd.id]? = none ∧
        cmd.expectedVersion = state.version := by
  constructor
  · intro h
    obtain ⟨hID, hPayload, ⟨_, _, _, hSome⟩ | ⟨hNone, -⟩⟩ := validateCommand_ok h
    · cases hSome
    · refine ⟨hID, hPayload, hNone, ?_⟩
      rw [validateCommand, requireNonEmpty_of_ne hID, hPayload, hNone] at h
      by_contra hVersion
      simp only [if_neg hVersion] at h
      cases h
  · rintro ⟨hID, hPayload, hNone, hVersion⟩
    rw [validateCommand, requireNonEmpty_of_ne hID, hPayload, hNone]
    simp only [if_pos hVersion]
    rfl

theorem executeCommand_fresh_iff :
    executeCommand state cmd = .ok (.fresh cluster plan) ↔
      validateCommand state cmd = .ok none ∧ executeFresh state cmd = .ok (cluster, plan) := by
  constructor
  · intro h
    rw [executeCommand] at h
    obtain ⟨found, hFound, h⟩ := bind_eq_ok.mp h
    cases found with
    | some applied => cases h
    | none =>
      obtain ⟨⟨executed, planned⟩, hFresh, h⟩ := bind_eq_ok.mp h
      cases h
      exact ⟨ok_of_mapError hFound, hFresh⟩
  · rintro ⟨hValid, hFresh⟩
    simp only [executeCommand, hValid, hFresh]
    rfl

/-- What a method commits is what the command's execution yields.  The methods that commit the
runtime's own cluster execute commands that only copy it. -/
theorem executeFresh_commits (h : executeFresh state cmd = .ok (cluster, plan)) :
    committedPlan cmd.kind plan = plan ∧
      (committedCluster state cmd.kind cluster = cluster ∨
        cmd.kind ∈ [.nodeReady, .heartbeat, .liveness, .acknowledgeOutbox] ∧
          committedCluster state cmd.kind cluster = state.cluster ∧
          cluster = cloneClusterState state.cluster) := by
  cases executeFresh_executed h with
  | placed kind | planned kind | progressed kind => simp [committedPlan, committedCluster, kind]
  | kept kind =>
    refine ⟨?_, .inr ⟨kind, ?_, rfl⟩⟩ <;>
    · simp only [List.mem_cons, List.not_mem_nil, or_false] at kind
      rcases kind with kind | kind | kind | kind <;> simp [committedPlan, committedCluster, kind]

theorem nextStateForApplied_committed (h : executeFresh state cmd = .ok (cluster, plan))
    (logIndex : Nat) :
    nextStateForApplied state logIndex cmd (committedCluster state cmd.kind cluster) plan =
      nextStateForApplied state logIndex cmd cluster plan := by
  obtain ⟨-, hSame | ⟨hKind, hOwn, rfl⟩⟩ := executeFresh_commits h
  · rw [hSame]
  · rw [hOwn]
    -- These kinds read no more of the cluster than its clone keeps.
    simp only [List.mem_cons, List.not_mem_nil, or_false] at hKind
    rcases hKind with hKind | hKind | hKind | hKind <;>
      simp only [nextStateForApplied, nextView, nextSlotVersions, nextOutbox, hKind,
        cloneClusterState_clone]

/-! ## What a submitted command does -/

namespace Runtime

/-- The runtime after a fresh command has been logged. -/
def logged (runtime : Runtime) (cmd : Command) (cluster : ClusterState)
    (plan : Option ReconfigurationPlan) : Runtime where
  store := runtime.store.appendWAL { index := runtime.state.lastLogIndex + 1, command := cmd }
  state := nextStateForApplied runtime.state (runtime.state.lastLogIndex + 1) cmd cluster plan

/-- The command is fresh, logged, and answered with the state it made. -/
def Logs (runtime : Runtime) (cmd : Command) (result : Runtime × Outcome) : Prop :=
  ∃ cluster plan, validateCommand runtime.state cmd = .ok none ∧
    executeFresh runtime.state cmd = .ok (cluster, plan) ∧
    result = (runtime.logged cmd cluster plan,
      .answered { plan := plan.map clonePlan,
                  state := cloneState (runtime.logged cmd cluster plan).state })

theorem execute_cases (runtime : Runtime) (cmd : Command) (appended : Bool) :
    (runtime.execute cmd appended).1 = runtime ∨ runtime.Logs cmd (runtime.execute cmd appended) := by
  rw [execute]
  split
  · exact .inl rfl
  · exact .inl rfl
  · rename_i cluster plan hExecuted
    obtain ⟨hValid, hFresh⟩ := executeCommand_fresh_iff.mp hExecuted
    cases appended with
    | false => exact .inl rfl
    | true =>
      refine .inr ⟨cluster, plan, hValid, hFresh, ?_⟩
      simp only [if_true, (executeFresh_commits hFresh).1, nextStateForApplied_committed hFresh,
        logged]

theorem submit_cases (runtime : Runtime) (cmd : Command) (appended : Bool) :
    (runtime.submit cmd appended).1 = runtime ∨ runtime.Logs cmd (runtime.submit cmd appended) := by
  rw [submit]
  split
  · split
    · exact .inl rfl
    · exact .inl rfl
    · split
      · exact .inl rfl
      · exact runtime.execute_cases cmd appended
  · exact runtime.execute_cases cmd appended

end Runtime

/-! ## Replaying a log -/

variable {record : LogRecord} {store : Store}

theorem replayRecord_fresh (hValid : validateCommand state record.command = .ok none)
    (hFresh : executeFresh state record.command = .ok (cluster, plan)) :
    replayRecord state record =
      .ok (nextStateForApplied state record.index record.command cluster plan) := by
  simp only [replayRecord, executeCommand_fresh_iff.mpr ⟨hValid, hFresh⟩]
  rfl

theorem replayRecord_lastLogIndex {next : State} (h : replayRecord state record = .ok next) :
    next.lastLogIndex = record.index := by
  rw [replayRecord] at h
  obtain ⟨execution, -, h⟩ := bind_eq_ok.mp h
  cases execution with
  | duplicate applied => cases h
  | fresh cluster plan =>
    cases h
    rfl

theorem replayRecords_le {last : State} {records : List LogRecord}
    (h : replayRecords state.lastLogIndex state records = .ok last) :
    state.lastLogIndex ≤ last.lastLogIndex := by
  induction records generalizing state with
  | nil =>
    cases h
    exact le_rfl
  | cons record records ih =>
    rw [replayRecords] at h
    obtain ⟨hIndex, h⟩ := ite_error_eq_ok.mp h
    obtain ⟨next, hNext, h⟩ := bind_eq_ok.mp h
    have hLast := replayRecord_lastLogIndex (ok_of_mapError hNext)
    rw [← hLast] at h
    have := ih h
    omega

theorem replayRecords_append {middle last : State} {records : List LogRecord}
    (h : replayRecords state.lastLogIndex state records = .ok middle)
    (hIndex : record.index = middle.lastLogIndex + 1)
    (hRecord : replayRecord middle record = .ok last) :
    replayRecords state.lastLogIndex state (records ++ [record]) = .ok last := by
  induction records generalizing state with
  | nil =>
    cases h
    simp only [List.nil_append, replayRecords, hIndex, ne_eq, not_true_eq_false, if_false, hRecord]
    rfl
  | cons first records ih =>
    rw [replayRecords] at h
    obtain ⟨hFirst, h⟩ := ite_error_eq_ok.mp h
    obtain ⟨next, hNext, h⟩ := bind_eq_ok.mp h
    have hNextIndex := replayRecord_lastLogIndex (ok_of_mapError hNext)
    rw [← hNextIndex] at h
    have hRest := ih h
    rw [List.cons_append, replayRecords, if_neg hFirst, hNext]
    rwa [hNextIndex] at hRest

theorem openState_appendWAL {recovered next : State} (hOpen : openState store = .ok recovered)
    (hIndex : record.index = recovered.lastLogIndex + 1)
    (hRecord : replayRecord recovered record = .ok next) :
    openState (store.appendWAL record) = .ok next := by
  have hLe : store.openedFrom.lastLogIndex ≤ recovered.lastLogIndex := replayRecords_le hOpen
  have hLoad : (store.appendWAL record).loadWAL store.openedFrom.lastLogIndex =
      store.loadWAL store.openedFrom.lastLogIndex ++ [record] := by
    have hAfter : store.openedFrom.lastLogIndex < record.index := by omega
    simp [Store.loadWAL, Store.appendWAL, List.filter_append, hAfter]
  have hReplay := replayRecords_append hOpen hIndex hRecord
  rw [← hLoad] at hReplay
  exact hReplay

theorem openRuntime_toOption {runtime : Runtime} :
    (openRuntime store).toOption = some runtime ↔
      ∃ recovered, openState store = .ok recovered ∧ { store, state := recovered } = runtime := by
  rw [openRuntime]
  cases openState store with
  | error err | ok recovered => simp [Except.map, Except.toOption]

theorem openState_saved {saved : State} (hSaved : store.checkpoint = some (cloneState saved))
    (hNormal : cloneState saved = saved)
    (hLog : ∀ record ∈ store.wal, record.index ≤ saved.lastLogIndex) :
    openState store = .ok saved := by
  have hFrom : store.openedFrom = saved := by
    simp only [Store.openedFrom, Store.loadLatestCheckpoint, hSaved, hNormal, Option.map_some,
      Option.getD_some]
  have hLoad : store.loadWAL saved.lastLogIndex = [] := by
    apply List.filter_eq_nil_iff.mpr
    intro record hRecord
    have := hLog record hRecord
    simp only [decide_eq_true_eq]
    omega
  rw [openState, hFrom, hLoad, replayRecords]

/-! ## What a reopened runtime recalls -/

/-- `recovered` has the view of `state` and none but its records. -/
structure Recalls (recovered state : State) : Prop where
  view : recovered.toView = state.toView
  table : ∀ (id : String) (applied : AppliedCommand),
    recovered.appliedCommands[id]? = some applied → state.appliedCommands[id]? = some applied

namespace Recalls

theorem refl (state : State) : Recalls state state := ⟨rfl, fun _ _ h => h⟩

variable {recovered state : State}

variable (h : Recalls recovered state)

include h

theorem absent {id : String} (hNone : state.appliedCommands[id]? = none) :
    recovered.appliedCommands[id]? = none := by
  cases hFound : recovered.appliedCommands[id]? with
  | none => rfl
  | some applied =>
    rw [h.table id applied hFound] at hNone
    cases hNone

theorem fresh (hValid : validateCommand state cmd = .ok none) :
    validateCommand recovered cmd = .ok none := by
  obtain ⟨hID, hPayload, hNone, hVersion⟩ := validateCommand_none_iff.mp hValid
  apply validateCommand_none_iff.mpr
  exact ⟨hID, hPayload, h.absent hNone, by rw [h.view, hVersion]⟩

theorem next (logIndex : Nat) (cmd : Command) (cluster : ClusterState)
    (plan : Option ReconfigurationPlan) :
    Recalls (nextStateForApplied recovered logIndex cmd cluster plan)
      (nextStateForApplied state logIndex cmd cluster plan) := by
  constructor
  · simp only [nextStateForApplied, h.view]
  · intro id applied hApplied
    simp only [nextStateForApplied, getElem?_insert_ite, h.view] at hApplied ⊢
    split at hApplied
    · rename_i hEq
      rw [if_pos hEq, hApplied]
    · rename_i hNe
      rw [if_neg hNe]
      exact h.table id applied hApplied

theorem ledger (hLedger : Ledger state) : Ledger recovered := by
  constructor
  case normal =>
    have hView : recovered.toView.clone = recovered.toView := by
      rw [h.view]
      exact congrArg State.toView hLedger.normal
    obtain ⟨view, table⟩ := recovered
    simp only [cloneState]
    congr 1
    ext id applied
    rw [Std.ExtTreeMap.getElem?_map]
    cases hFound : table[id]? with
    | none => rfl
    | some found => rw [Option.map_some, hLedger.clone_applied (h.table id found hFound)]
  case keyed => exact fun id applied hApplied => hLedger.keyed id applied (h.table id applied hApplied)
  case bounded =>
    intro id applied hApplied
    rw [h.view]
    exact hLedger.bounded id applied (h.table id applied hApplied)
  case distinct =>
    intro id other applied existing hApplied hExisting
    exact hLedger.distinct id other applied existing (h.table id applied hApplied)
      (h.table other existing hExisting)
  case tip =>
    intro id applied hApplied
    rw [h.view]
    exact hLedger.tip id applied (h.table id applied hApplied)

end Recalls

namespace Runtime

/-- Opening the store gives what the running runtime has, up to records of older commands. -/
structure Durable (runtime : Runtime) : Prop where
  ledger : Ledger runtime.state
  written : ∀ record ∈ runtime.store.wal, record.index ≤ runtime.state.lastLogIndex
  recovers : ∃ recovered, openState runtime.store = .ok recovered ∧
    Recalls recovered runtime.state

theorem initial_durable : initial.Durable where
  ledger := zeroState_ledger
  written := by simp [initial]
  recovers := ⟨zeroState, rfl, .refl zeroState⟩

variable {runtime : Runtime}

theorem openState_logged {recovered : State} (hOpen : openState runtime.store = .ok recovered)
    (hRecalls : Recalls recovered runtime.state)
    (hValid : validateCommand runtime.state cmd = .ok none)
    (hFresh : executeFresh runtime.state cmd = .ok (cluster, plan)) :
    openState (runtime.logged cmd cluster plan).store =
      .ok (nextStateForApplied recovered (runtime.state.lastLogIndex + 1) cmd cluster plan) := by
  apply openState_appendWAL hOpen
  · simp only [hRecalls.view]
  · apply replayRecord_fresh (hRecalls.fresh hValid)
    rw [executeFresh_congr hRecalls.view, hFresh]

namespace Durable

variable {runtime : Runtime}

variable (h : runtime.Durable)

include h

theorem logged (hValid : validateCommand runtime.state cmd = .ok none)
    (hFresh : executeFresh runtime.state cmd = .ok (cluster, plan)) :
    (runtime.logged cmd cluster plan).Durable := by
  constructor
  case ledger =>
    obtain ⟨hID, hPayload, hNone, -⟩ := validateCommand_none_iff.mp hValid
    have hNext := h.ledger.fresh hID hPayload hNone (runtime.state.lastLogIndex + 1) cluster plan
    rwa [h.ledger.next_normal] at hNext
  case written =>
    intro record hRecord
    change record.index ≤ runtime.state.lastLogIndex + 1
    rcases List.mem_append.mp hRecord with hOld | hNew
    · have := h.written record hOld
      omega
    · obtain rfl := List.mem_singleton.mp hNew
      exact le_rfl
  case recovers =>
    obtain ⟨recovered, hOpen, hRecalls⟩ := h.recovers
    exact ⟨_, openState_logged hOpen hRecalls hValid hFresh, hRecalls.next _ cmd cluster plan⟩

theorem reopened {recovered : State} (hOpen : openState runtime.store = .ok recovered) :
    Durable { store := runtime.store, state := recovered } := by
  obtain ⟨other, hOther, hRecalls⟩ := h.recovers
  obtain rfl : other = recovered := Except.ok.inj (hOther.symm.trans hOpen)
  constructor
  case ledger => exact hRecalls.ledger h.ledger
  case written =>
    rw [hRecalls.view]
    exact h.written
  case recovers => exact ⟨other, hOpen, .refl other⟩

theorem checkpointState_eq :
    runtime.checkpointState = { runtime.state with appliedCommands := ∅ } := by
  rw [checkpointState, h.ledger.normal]

theorem emptied : Recalls runtime.checkpointState runtime.state := by
  rw [h.checkpointState_eq]
  exact ⟨rfl, by simp⟩

theorem openState_saved {wal : List LogRecord} (hLog : wal ⊆ runtime.store.wal) :
    openState { runtime.store.saveCheckpoint runtime.checkpointState with wal } =
      .ok runtime.checkpointState := by
  apply Runtime.openState_saved rfl (h.emptied.ledger h.ledger).normal
  intro record hRecord
  rw [h.emptied.view]
  exact h.written record (hLog hRecord)

theorem saved {wal : List LogRecord} (hLog : wal ⊆ runtime.store.wal) :
    Durable { runtime with
      store := { runtime.store.saveCheckpoint runtime.checkpointState with wal } } where
  ledger := h.ledger
  written := fun record hRecord => h.written record (hLog hRecord)
  recovers := ⟨runtime.checkpointState, h.openState_saved hLog, h.emptied⟩

theorem checkpoint {outcome : CheckpointOutcome} {later : Runtime}
    (hStep : runtime.checkpoint outcome = some later) : later.Durable := by
  cases outcome with
  | saveFailed =>
    cases hStep
    exact h
  | truncateFailed =>
    cases hStep
    exact h.saved (List.Subset.refl _)
  | crashed =>
    obtain ⟨recovered, hOpen, rfl⟩ := openRuntime_toOption.mp hStep
    exact (h.saved (List.Subset.refl _)).reopened hOpen
  | completed =>
    cases hStep
    have hKept : (runtime.store.truncateWAL runtime.checkpointState.lastLogIndex).wal ⊆
        runtime.store.wal := List.filter_sublist.subset
    rw [← h.checkpointState_eq]
    exact (h.saved hKept).reopened (h.openState_saved hKept)

theorem submit (cmd : Command) (appended : Bool) : (runtime.submit cmd appended).1.Durable := by
  rcases runtime.submit_cases cmd appended with hSame | ⟨cluster, plan, hValid, hFresh, hResult⟩
  · rw [hSame]
    exact h
  · rw [hResult]
    exact h.logged hValid hFresh

theorem step {action : Action} {later : Runtime} (hStep : runtime.step action = some later) :
    later.Durable := by
  cases action with
  | submit cmd appended =>
    cases hStep
    exact h.submit cmd appended
  | checkpoint outcome => exact h.checkpoint hStep
  | reopen =>
    obtain ⟨recovered, hOpen, rfl⟩ := openRuntime_toOption.mp hStep
    exact h.reopened hOpen

end Durable

theorem Reached.durable (h : runtime.Reached) : runtime.Durable :=
  h.invariant initial_durable fun _ _ _ hDurable _ hStep => hDurable.step hStep

/-! ## Stores that open with the running table -/

/-- The store opens with the running state, its table included. -/
def Exact (runtime : Runtime) : Prop := openState runtime.store = .ok runtime.state

theorem Exact.submit (h : runtime.Exact) (cmd : Command) (appended : Bool) :
    (runtime.submit cmd appended).1.Exact := by
  rcases runtime.submit_cases cmd appended with hSame | ⟨cluster, plan, hValid, hFresh, hResult⟩
  · rw [hSame]
    exact h
  · rw [hResult]
    exact openState_logged h (.refl _) hValid hFresh

variable {last : Runtime}

section Keeps

variable {P : State → Prop} {first : Runtime}
  (hKeep : ∀ (state : State) (logIndex : Nat) (cmd : Command) (cluster : ClusterState)
    (plan : Option ReconfigurationPlan), validateCommand state cmd = .ok none → P state →
    P (nextStateForApplied state logIndex cmd cluster plan))

include hKeep

end Keeps

/-- Later commands leave the records up to a version alone. -/
def SameUpTo (version : Nat) (table : Std.ExtTreeMap String AppliedCommand) (state : State) : Prop :=
  version ≤ state.version ∧ ∀ (id : String) (existing : AppliedCommand), existing.version ≤ version →
    (state.appliedCommands[id]? = some existing ↔ table[id]? = some existing)

theorem SameUpTo.next {version : Nat} {table : Std.ExtTreeMap String AppliedCommand}
    (h : SameUpTo version table state) (logIndex : Nat) (cluster : ClusterState)
    (plan : Option ReconfigurationPlan) (hValid : validateCommand state cmd = .ok none) :
    SameUpTo version table (nextStateForApplied state logIndex cmd cluster plan) := by
  obtain ⟨hVersion, hTable⟩ := h
  have hNext : (nextStateForApplied state logIndex cmd cluster plan).version = state.version + 1 := rfl
  refine ⟨by omega, fun id existing hExisting => ?_⟩
  rw [← hTable id existing hExisting]
  simp only [nextStateForApplied, getElem?_insert_ite]
  split
  · rename_i hEq
    subst hEq
    rw [(validateCommand_none_iff.mp hValid).2.2.1]
    simp only [Option.some.injEq, reduceCtorEq, iff_false]
    rintro rfl
    have hNewer : state.version + 1 ≤ version := hExisting
    omega
  · rfl

theorem SameUpTo.filter {version : Nat} {table : Std.ExtTreeMap String AppliedCommand}
    (h : SameUpTo version table state) :
    state.appliedCommands.filter (fun _ existing => existing.version ≤ version) =
      table.filter (fun _ existing => existing.version ≤ version) := by
  ext id existing
  simp only [getElem?_filter_value_eq_some, decide_eq_true_eq]
  constructor
  · rintro ⟨hFound, hLe⟩
    exact ⟨(h.2 id existing hLe).mp hFound, hLe⟩
  · rintro ⟨hFound, hLe⟩
    exact ⟨(h.2 id existing hLe).mpr hFound, hLe⟩

def bootCommand : Command :=
  { id := "boot", expectedVersion := 0, kind := .bootstrap
    bootstrap := some { config := ⟨1, 1⟩, nodes := [⟨"a", "", ∅⟩], policy := ⟨0⟩ } }

def beatCommand : Command :=
  { id := "beat", expectedVersion := 1, kind := .heartbeat
    heartbeat := some
      { status := { nodeID := "a" }, observedAtUnixNano := 1, flapWindowNanos := 0 } }

def booted : Runtime := (initial.submit bootCommand true).1

def beatAndCrash : List Action := [.submit beatCommand false, .submit beatCommand true, .reopen]

def bootedLater : Runtime := (Lib.run step beatAndCrash booted).getD initial

/-- Whatever fails and however often the runtime is opened again, every record stands under the ID of
its command and at a version of its own that the state has reached. -/
theorem records_apart {runtime : Runtime} (h : runtime.Reached) {id other : String}
    {applied existing : AppliedCommand} (hApplied : runtime.state.appliedCommands[id]? = some applied)
    (hExisting : runtime.state.appliedCommands[other]? = some existing) :
    applied.command.id = id ∧ applied.version ≤ runtime.state.version ∧
      (applied.version = existing.version → id = other) := by
  have hLedger := h.durable.ledger
  exact ⟨(hLedger.keyed id applied hApplied).1, hLedger.bounded id applied hApplied,
    hLedger.distinct id other applied existing hApplied hExisting⟩

theorem boot_and_beat_apart : ∃ boot beat, bootedLater.state.appliedCommands["boot"]? = some boot ∧
    bootedLater.state.appliedCommands["beat"]? = some beat ∧ boot.version ≠ beat.version := by
  have hSteps :
      Lib.run step (.submit bootCommand true :: beatAndCrash) initial = some bootedLater := by
    decide +kernel
  have hBoth : (bootedLater.state.appliedCommands["boot"]?).isSome = true ∧
      (bootedLater.state.appliedCommands["beat"]?).isSome = true := by
    decide +kernel
  obtain ⟨boot, hBoot⟩ := Option.isSome_iff_exists.mp hBoth.1
  obtain ⟨beat, hBeat⟩ := Option.isSome_iff_exists.mp hBoth.2
  refine ⟨boot, beat, hBoot, hBeat, fun hSame => ?_⟩
  have hSameID := (records_apart (.of_run (fun _ _ _ => trivial) hSteps) hBoot hBeat).2.2 hSame
  exact absurd hSameID (by decide)

end Runtime

end Craq.Runtime
