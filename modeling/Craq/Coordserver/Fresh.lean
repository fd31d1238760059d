import Craq.Coordserver.Idempotence
import Craq.Runtime.Chains

/-! # Histories without resubmitted commands

As long as no command is submitted under an ID that is already on record, the runtime version tells
snapshots apart: two loads with the same version hold the same chains and the same pending work.
-/

namespace Craq.Coordserver

open Lib
open Craq.Runtime (Command Ledger State View cloneState evaluateCommand)
open Storage (NodeStatus)

variable {allowed : HASnapshot → HASnapshot → Operation → Prop} {cfg : ServerConfig}
  {current : HASnapshot} {older : List HASnapshot}

theorem HistoryUnder.history (h : HistoryUnder allowed cfg current older) :
    History cfg current older := by
  induction h with
  | empty => exact .empty
  | save _ op epoch loaded _ run accepted ih => exact ih.save op epoch loaded trivial run accepted

theorem HistoryUnder.ledger_of_mem (h : HistoryUnder allowed cfg current older) :
    ∀ loaded ∈ current :: older, Ledger loaded.state := by
  induction h with
  | empty =>
    intro loaded hLoaded
    rw [List.mem_singleton.mp hLoaded]
    exact Runtime.zeroState_ledger
  | @save current observed base next older history op epoch loaded meets run accepted ih =>
    intro old hOld
    rcases List.mem_cons.mp hOld with rfl | hOld
    · exact (history.save op epoch loaded meets run accepted).ledger
    · exact ih old hOld

theorem cloneHASnapshot_eq {snapshot : HASnapshot} (h : Ledger snapshot.state) :
    cloneHASnapshot snapshot = snapshot := by
  rw [cloneHASnapshot, h.normal]

/-- The operations of the server's interface: a bootstrap submits a bootstrap command, and a
membership operation one of the four membership events. -/
def Operation.Regular : Operation → Prop
  | .bootstrap cmd => cmd.kind = .bootstrap
  | .membership _ expectedEvent => expectedEvent.IsMembership
  | _ => True

/-- The operation submits no runtime command under an ID that is on record. -/
def Operation.Fresh (cfg : ServerConfig) (observed base : HASnapshot) (op : Operation) : Prop :=
  (∀ cmd mutation, op.Submits cfg observed cmd mutation →
    base.state.appliedCommands[cmd.id]? = none) ∧
  ∀ entry, op = .acknowledge entry →
    base.state.appliedCommands[outboxAckCommandID base.state.version [entry.id]]? = none

theorem Operation.Submits.orderly {op : Operation} {observed : HASnapshot} {cmd : Command}
    {mutation : Mutation} (h : op.Submits cfg observed cmd mutation) (hRegular : op.Regular) :
    cmd.Orderly := by
  cases h with
  | bootstrap =>
    intro hKind
    rw [show cmd.kind = .bootstrap from hRegular] at hKind
    cases hKind
  | @membership _ expectedEvent reconfigure _ payload events =>
    intro _ other hPayload event hEvent
    rw [payload, Option.some.injEq] at hPayload
    subst hPayload
    have hKind := List.mem_map_of_mem (f := (·.kind)) hEvent
    rw [events, List.mem_singleton] at hKind
    rw [hKind]
    exact hRegular
  | ready | removed | liveness => intro hKind; cases hKind
  | register reg policy attempt =>
    rintro - reconfigure ⟨⟩ event hEvent
    rw [List.mem_singleton.mp hEvent]
    exact .inl rfl
  | reconcile policy =>
    rintro - reconfigure ⟨⟩ event hEvent
    cases hEvent

/-! ## Effects on the runtime state -/

theorem outboxAckCommand_orderly (version : Nat) (entryID : String) :
    (outboxAckCommand version entryID).Orderly := by
  intro hKind
  cases hKind

/-- One fresh operation: the next version, or the same view up to the liveness records. -/
inductive Advance (state later : State) : Prop where
  | executed {cmd : Command} {cluster : Coordinator.ClusterState}
      {plan : Option Coordinator.ReconfigurationPlan} (orderly : cmd.Orderly)
      (executes : Runtime.Executed state cmd cluster plan)
      (view : later.toView =
        Runtime.nextView state.toView (state.lastLogIndex + 1) cmd cluster plan)
  | relived (view : state.toView.AgreesExceptLiveness later.toView)
      (placed : Runtime.Placed state.cluster → Runtime.Placed later.cluster)

theorem advance_of_fresh {state later : State} (hLedger : Ledger state) {cmd : Command}
    (hOrderly : cmd.Orderly) (hNone : state.appliedCommands[cmd.id]? = none)
    {evaluated : Runtime.EvaluatedCommand} (h : evaluateCommand state cmd = .ok evaluated)
    (hLater : later = cloneState evaluated.nextState) : Advance state later := by
  obtain ⟨-, cluster, plan, hExecuted, -, hNext⟩ :=
    Runtime.evaluateCommand_fresh hLedger.normal hNone h
  refine .executed hOrderly hExecuted ?_
  rw [hLater, hNext, hLedger.next_normal]
  rfl

theorem heartbeatState_placed {state : State} {status : NodeStatus} (observedAtUnixNano : Int)
    (hAlive : state.cluster.isDead status.nodeID = false) (h : Runtime.Placed state.cluster) :
    Runtime.Placed (heartbeatState cfg state status observedAtUnixNano).cluster := by
  rcases h with ⟨hSound, hFree⟩ | hNone
  · left
    refine ⟨?_, hFree⟩
    simp only [heartbeatState]
    split
    · exact hSound
    · exact hSound.markReady hAlive
  · exact .inr hNone

theorem Effect.advance {observed base next : HASnapshot} {op : Operation}
    (h : Effect cfg observed base op next) (hLedger : Ledger base.state) (hRegular : op.Regular)
    (hFresh : op.Fresh cfg observed base) : Advance base.state (cloneState next.state) := by
  cases h with
  | submitted submits evaluates state _ =>
    exact advance_of_fresh hLedger (submits.orderly hRegular) (hFresh.1 _ _ submits) evaluates
      (congrArg cloneState state)
  | @heartbeat status observedAtUnixNano _ alive state _ =>
    rw [hLedger.normal] at state
    rw [state, heartbeatState_normal hLedger.normal]
    exact .relived rfl (heartbeatState_placed observedAtUnixNano alive)
  | delivered evaluates state _ =>
    exact advance_of_fresh hLedger (outboxAckCommand_orderly _ _) (hFresh.2 _ rfl) evaluates
      (congrArg cloneState state)
  | refreshed _ state _ | quiet state _ =>
    rw [state, hLedger.normal, hLedger.normal]
    exact .relived rfl id

theorem agrees_pendingBySlot {recorded view : View} (h : recorded.AgreesExceptLiveness view) :
    recorded.pendingBySlot = view.pendingBySlot := by
  rw [← h]

theorem agrees_chains {recorded view : View} (h : recorded.AgreesExceptLiveness view) :
    recorded.cluster.chains = view.cluster.chains := by
  rw [← h]

theorem Advance.regular {state later : State} (h : Advance state later)
    (hNormal : cloneState state = state) (hRegular : state.Regular) : later.Regular := by
  cases h with
  | executed orderly executes view =>
    rw [view]
    exact hRegular.next hNormal orderly executes _
  | relived view placed =>
    refine ⟨placed hRegular.placed, ?_⟩
    rw [← agrees_pendingBySlot view]
    intro slot pending hPending hReady
    rw [← Coordinator.chainAt_congr (agrees_chains view)]
    exact hRegular.awaits slot pending hPending hReady

theorem agrees_trans {first second third : View} (h : first.AgreesExceptLiveness second)
    (h' : second.AgreesExceptLiveness third) : first.AgreesExceptLiveness third := by
  rw [View.AgreesExceptLiveness] at h h' ⊢
  rw [← h', ← h]

/-! ## Versions tell loads apart -/

/-- Where `older` holds a load of the current version, it agrees with the current one. -/
structure Versioned (current : HASnapshot) (older : List HASnapshot) : Prop where
  le : ∀ old ∈ older, old.state.version ≤ current.state.version
  agrees : ∀ old ∈ older, old.state.version = current.state.version →
    old.state.toView.AgreesExceptLiveness current.state.toView

theorem Versioned.save {next : HASnapshot} (h : Versioned current older)
    (hAdvance : Advance current.state next.state) : Versioned next (current :: older) := by
  have hAll : ∀ old ∈ current :: older, old.state.version ≤ current.state.version ∧
      (old.state.version = current.state.version →
        old.state.toView.AgreesExceptLiveness current.state.toView) := by
    rintro old (_ | ⟨_, hOld⟩)
    · exact ⟨le_rfl, fun _ => rfl⟩
    · exact ⟨h.le old hOld, h.agrees old hOld⟩
  cases hAdvance with
  | executed _ _ view =>
    have hVersion : next.state.version = current.state.version + 1 := congrArg View.version view
    refine ⟨fun old hOld => ?_, fun old hOld hSame => ?_⟩
    · have := (hAll old hOld).1
      omega
    · have := (hAll old hOld).1
      omega
  | relived view _ =>
    have hVersion : current.state.version = next.state.version := by rw [← view]
    refine ⟨fun old hOld => ?_, fun old hOld hSame => ?_⟩
    · rw [← hVersion]
      exact (hAll old hOld).1
    · exact agrees_trans ((hAll old hOld).2 (hSame.trans hVersion.symm)) view

/-- The operations of the interface, each with fresh commands. -/
def Operation.Proper (cfg : ServerConfig) (observed base : HASnapshot) (op : Operation) : Prop :=
  op.Regular ∧ op.Fresh cfg observed base

theorem HistoryUnder.versioned
    (hAllowed : ∀ observed base op, allowed observed base op → op.Proper cfg observed base)
    (h : HistoryUnder allowed cfg current older) :
    Versioned current older ∧ current.state.Regular := by
  induction h with
  | empty => exact ⟨⟨by simp, by simp⟩, Runtime.zeroState_regular⟩
  | @save current observed base next older history op epoch loaded meets run accepted ih =>
    obtain rfl := history.accepted_eq loaded.2 accepted
    have hLedger := history.ledger
    obtain ⟨hRegular, hFresh⟩ := hAllowed _ _ _ meets
    rw [cloneHASnapshot_eq hLedger,
      cloneHASnapshot_eq (history.ledger_of_mem observed loaded.1)] at run
    have hAdvance := (Operation.run_effect run).advance hLedger hRegular hFresh
    exact ⟨ih.1.save hAdvance, hAdvance.regular hLedger.normal ih.2⟩

end Craq.Coordserver
