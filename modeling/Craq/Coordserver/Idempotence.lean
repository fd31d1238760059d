import Craq.Coordserver.Effects

/-! # Resubmitting a command to the shared snapshot

The engine saves whatever state the evaluation of a command returns, and a duplicate is evaluated
to the state its record holds.  Resubmission therefore leaves the saved state alone exactly when
that record still describes it.
-/

namespace Craq.Coordserver

open Lib
open Coordinator (ClusterState)
open Craq.Runtime (AppliedCommand Command EvaluatedCommand Ledger State cloneState evaluateCommand)
open Storage (NodeStatus)

/-! ## What an operation does to the runtime state -/

/-- An operation evaluates one command, writes one heartbeat, or leaves the state as it is. -/
inductive StateEffect (cfg : ServerConfig) (state : State) : State → Prop where
  | evaluated {cmd : Command} {evaluated : EvaluatedCommand}
      (h : evaluateCommand state cmd = .ok evaluated) : StateEffect cfg state evaluated.nextState
  | heartbeat (status : NodeStatus) (observedAtUnixNano : Int) :
      StateEffect cfg state (heartbeatState cfg (cloneState state) status observedAtUnixNano)
  | same : StateEffect cfg state (cloneState state)

variable {cfg : ServerConfig} {epoch : Nat} {observed snapshot next : HASnapshot} {op : Operation}

theorem Effect.onState (h : Effect cfg observed snapshot op next) :
    StateEffect cfg snapshot.state next.state := by
  cases h with
  | submitted _ evaluates state _ =>
    rw [state]
    exact .evaluated evaluates
  | heartbeat _ state _ =>
    rw [state]
    exact .heartbeat _ _
  | delivered evaluates state _ =>
    rw [state]
    exact .evaluated evaluates
  | refreshed _ state _ | quiet state _ =>
    rw [state]
    exact .same

/-! ## The ledger along a history -/

theorem filter_insert_true {ready : Std.ExtTreeMap String Bool} (nodeID : String)
    (h : (ready.filter fun _ mark => mark) = ready) :
    ((ready.insert nodeID true).filter fun _ mark => mark) = ready.insert nodeID true := by
  ext other mark
  rw [getElem?_filter_value_eq_some, Std.ExtTreeMap.getElem?_insert]
  split
  · simp only [Option.some.injEq]
    exact ⟨fun hMark => hMark.1, fun hMark => ⟨hMark, hMark.symm⟩⟩
  · have hKept : (ready.filter fun _ mark => mark)[other]? = some mark ↔
        ready[other]? = some mark ∧ mark = true := getElem?_filter_value_eq_some
    rw [← hKept, h]

theorem heartbeatState_normal {state : State} (h : cloneState state = state) (status : NodeStatus)
    (observedAtUnixNano : Int) :
    cloneState (heartbeatState cfg state status observedAtUnixNano) =
      heartbeatState cfg state status observedAtUnixNano := by
  have hReady : (state.cluster.readyNodeIDs.filter fun _ mark => mark) =
      state.cluster.readyNodeIDs := congrArg (fun s : State => s.cluster.readyNodeIDs) h
  have hTable := congrArg State.appliedCommands h
  simp only [cloneState, Runtime.View.clone, Runtime.cloneClusterState, heartbeatState] at hTable ⊢
  rw [hTable]
  split
  · rw [hReady]
  · rw [filter_insert_true status.nodeID hReady]

theorem StateEffect.ledger {state later : State} (hEffect : StateEffect cfg state later)
    (h : Ledger state) : Ledger (cloneState later) := by
  cases hEffect with
  | evaluated hRun => exact h.evaluate hRun
  | heartbeat status observedAtUnixNano =>
    rw [h.normal, heartbeatState_normal h.normal]
    exact h.relive (heartbeatState_normal h.normal status observedAtUnixNano) rfl rfl
  | same => rwa [h.normal, h.normal]

variable {allowed : HASnapshot → HASnapshot → Operation → Prop} {current : HASnapshot}
  {older : List HASnapshot}

theorem HistoryUnder.version_lt (h : HistoryUnder allowed cfg current older) :
    ∀ old ∈ older, old.snapshotVersion < current.snapshotVersion := by
  induction h with
  | empty => simp
  | @save current observed base next older history op epoch loaded _ run accepted ih =>
    have hVersion : (savedSnapshot base next).snapshotVersion = current.snapshotVersion + 1 := by
      rw [← accepted]
      rfl
    rw [hVersion]
    rintro old (_ | ⟨_, hOld⟩)
    · exact Nat.lt_succ_self _
    · exact Nat.lt_succ_of_lt (ih old hOld)

/-- The version check lets through only work on the snapshot that is still stored. -/
theorem HistoryUnder.accepted_eq (h : HistoryUnder allowed cfg current older) {base : HASnapshot}
    (hLoaded : base ∈ current :: older) (hAccepted : base.snapshotVersion = current.snapshotVersion) :
    base = current := by
  rcases List.mem_cons.mp hLoaded with rfl | hOld
  · rfl
  · exact absurd hAccepted (h.version_lt base hOld).ne

theorem HistoryUnder.ledger (h : HistoryUnder allowed cfg current older) : Ledger current.state := by
  induction h with
  | empty => exact Runtime.zeroState_ledger
  | save history op epoch loaded _ run accepted ih =>
    obtain rfl := history.accepted_eq loaded.2 accepted
    have hEffect := (Operation.run_effect run).onState
    simp only [cloneHASnapshot, ih.normal] at hEffect
    exact hEffect.ledger ih

/-! ## Resubmission -/

theorem resubmit_ok (hHistory : History cfg current older) {id : String} {applied : AppliedCommand}
    (hApplied : current.state.appliedCommands[id]? = some applied) (epoch : Nat)
    (mutation : Mutation) :
    ∃ next, applyHARuntimeCommand cfg epoch (cloneHASnapshot current) applied.command mutation =
        .ok next ∧
      (savedSnapshot current next).state =
        ⟨applied.toView, current.state.appliedCommands.filter fun _ existing =>
          existing.version ≤ applied.version⟩ := by
  have hLedger := hHistory.ledger
  obtain ⟨rfl, hID, hPayload⟩ := hLedger.keyed id applied hApplied
  have hLoaded : (cloneHASnapshot current).state = current.state := hLedger.normal
  have hRecorded : (cloneState (cloneHASnapshot current).state).appliedCommands[applied.command.id]? =
      some applied := by
    rw [hLoaded, hLedger.normal, hApplied]
  obtain ⟨evaluated, hEvaluated, hNext⟩ := Runtime.evaluateCommand_duplicate hID hPayload hRecorded
  rw [hLoaded, hLedger.normal, hLedger.clone_applied hApplied] at hNext
  refine ⟨_, by simp only [applyHARuntimeCommand, hEvaluated]; rfl, ?_⟩
  exact (congrArg cloneState hNext).trans (hLedger.snapshotForApplied_eq hApplied)

/-- Resubmitting a recorded command leaves the saved runtime state unchanged exactly when the
command is the last one applied and no heartbeat has changed a liveness record or a ready mark
since it was recorded. -/
theorem resubmit_unchanged_iff (hHistory : History cfg current older) {id : String}
    {applied : AppliedCommand} (hApplied : current.state.appliedCommands[id]? = some applied)
    (epoch : Nat) (mutation : Mutation) :
    ∃ next, applyHARuntimeCommand cfg epoch (cloneHASnapshot current) applied.command mutation =
        .ok next ∧
      ((savedSnapshot current next).state = current.state ↔
        applied.version = current.state.version ∧
          applied.nodeLivenessByID = current.state.nodeLivenessByID ∧
          applied.cluster.readyNodeIDs = current.state.cluster.readyNodeIDs) := by
  obtain ⟨next, hRun, hSaved⟩ := resubmit_ok hHistory hApplied epoch mutation
  have hLedger := hHistory.ledger
  refine ⟨next, hRun, ?_⟩
  rw [hSaved]
  constructor
  · intro hSame
    have hView : applied.toView = current.state.toView := congrArg State.toView hSame
    rw [hView]
    exact ⟨rfl, rfl, rfl⟩
  · rintro ⟨hVersion, hLiveness, hReady⟩
    have hTip := hLedger.tip id applied hApplied hVersion
    have hView : applied.toView = current.state.toView := by
      rw [← hTip, ← hLiveness, ← hReady]
    -- Every record is as old as this one, so the filter keeps the whole table.
    have hTable : (current.state.appliedCommands.filter fun _ existing =>
        existing.version ≤ applied.version) = current.state.appliedCommands := by
      ext other existing
      rw [getElem?_filter_value_eq_some]
      refine ⟨fun h => h.1, fun h => ⟨h, ?_⟩⟩
      rw [hVersion]
      exact decide_eq_true (hLedger.bounded other existing h)
    rw [hTable, hView]

/-! ## A retried membership command -/

/-- The snapshot that a coordinator working alone saves. -/
def Operation.commit (op : Operation) (cfg : ServerConfig) (epoch : Nat) (snapshot : HASnapshot) :
    Option HASnapshot :=
  match op.run cfg epoch (cloneHASnapshot snapshot) (cloneHASnapshot snapshot) with
  | .ok (some next) => some (savedSnapshot snapshot next)
  | _ => none

theorem Operation.commit_eq_some {saved : HASnapshot} (h : op.commit cfg epoch current = some saved) :
    ∃ next, op.run cfg epoch (cloneHASnapshot current) (cloneHASnapshot current) = .ok (some next) ∧
      saved = savedSnapshot current next := by
  rw [commit] at h
  split at h
  · rename_i next hRun
    cases h
    exact ⟨next, hRun, rfl⟩
  · cases h

def quietConfig : ServerConfig := { startupMaxChangedChains := 0, flapWindowNanos := 0 }

def plainNode (id : String) : Coordinator.Node :=
  { id, rpcAddress := "", failureDomains := ∅ }

def bootstrapA : Command :=
  { id := "bootstrap", expectedVersion := 0, kind := .bootstrap,
    bootstrap := some { config := ⟨1, 1⟩, nodes := [plainNode "a"], policy := ⟨0⟩ } }

def addCommand (nodeID : String) (expectedVersion : Nat) : Command :=
  { id := "add-" ++ nodeID, expectedVersion, kind := .reconfigure,
    reconfigure := some { policy := ⟨0⟩, events := [⟨.addNode, plainNode nodeID, "", 0⟩] } }

def commitAlone (snapshot : HASnapshot) (op : Operation) : HASnapshot :=
  (op.commit quietConfig 1 snapshot).getD snapshot

def afterBootstrap : HASnapshot := commitAlone zeroHASnapshot (.bootstrap bootstrapA)

def afterAddB : HASnapshot := commitAlone afterBootstrap (.membership (addCommand "b" 1) .addNode)

def afterAddC : HASnapshot := commitAlone afterAddB (.membership (addCommand "c" 2) .addNode)

theorem HistoryUnder.commitAlone (h : HistoryUnder allowed quietConfig current older)
    (hMeets : allowed current current op) (hSome : (op.commit quietConfig 1 current).isSome) :
    HistoryUnder allowed quietConfig (commitAlone current op) (current :: older) := by
  obtain ⟨saved, hSaved⟩ := Option.isSome_iff_exists.mp hSome
  rw [Coordserver.commitAlone, hSaved]
  obtain ⟨next, hRun, rfl⟩ := Operation.commit_eq_some hSaved
  exact h.save op 1 ⟨List.mem_cons_self, List.mem_cons_self⟩ hMeets hRun rfl

theorem afterAddB_history :
    History quietConfig afterAddB [afterBootstrap, zeroHASnapshot] := by
  refine HistoryUnder.commitAlone (HistoryUnder.commitAlone .empty trivial ?_) trivial ?_
  · decide +kernel
  · decide +kernel

theorem afterAddC_history :
    History quietConfig afterAddC [afterAddB, afterBootstrap, zeroHASnapshot] :=
  afterAddB_history.commitAlone trivial (by decide +kernel)

/-- Retried at the tip of the history, the command changes nothing. -/
theorem retried_add_at_tip :
    ∃ applied next, afterAddB.state.appliedCommands["add-b"]? = some applied ∧
      applyHARuntimeCommand quietConfig 1 (cloneHASnapshot afterAddB) applied.command .membership =
        .ok next ∧
      (savedSnapshot afterAddB next).state = afterAddB.state := by
  have hSome : afterAddB.state.appliedCommands["add-b"]?.isSome := by decide +kernel
  have hTip : afterAddB.state.appliedCommands["add-b"]?.all (fun applied =>
      applied.version = afterAddB.state.version ∧
        applied.nodeLivenessByID = afterAddB.state.nodeLivenessByID ∧
        applied.cluster.readyNodeIDs = afterAddB.state.cluster.readyNodeIDs) := by
    decide +kernel
  obtain ⟨applied, hApplied⟩ := Option.isSome_iff_exists.mp hSome
  rw [hApplied] at hTip
  obtain ⟨next, hRun, hIff⟩ := resubmit_unchanged_iff afterAddB_history hApplied 1 .membership
  exact ⟨applied, next, hApplied, hRun, hIff.mpr (of_decide_eq_true hTip)⟩

/-- Retried after one more command, the same command takes the saved state back to version 2 and
drops the node that was added in between. -/
theorem retried_add_rolls_back :
    History quietConfig afterAddC [afterAddB, afterBootstrap, zeroHASnapshot] ∧
      afterAddC.state.appliedCommands["add-b"]?.map (·.command) = some (addCommand "b" 1) ∧
      ∃ next, applyHARuntimeCommand quietConfig 1 (cloneHASnapshot afterAddC) (addCommand "b" 1)
          .membership = .ok next ∧
        (savedSnapshot afterAddC next).state ≠ afterAddC.state ∧
        afterAddC.state.version = 3 ∧ (savedSnapshot afterAddC next).state.version = 2 ∧
        afterAddC.state.lastLogIndex = 3 ∧ (savedSnapshot afterAddC next).state.lastLogIndex = 2 ∧
        afterAddC.state.cluster.nodeOrder = ["a", "b", "c"] ∧
        (savedSnapshot afterAddC next).state.cluster.nodeOrder = ["a", "b"] := by
  refine ⟨afterAddC_history, by decide +kernel, _, eq_ok_getD afterAddC (by decide +kernel), ?_⟩
  decide +kernel

end Craq.Coordserver
