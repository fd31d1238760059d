import Craq.Lib.Run
import Craq.Storage.Record

/-! # Accepting coordinator epochs

Every control command first passes `acceptCoordinatorEpoch`.  The check, the store write and the
update of the node's memory are separate steps: the lock is released in between, and the store
overwrites what it holds.  A call is known by its number, and `accepted` is the history of the
epochs let through, oldest first.
-/

namespace Craq.Storage

open Lib

inductive AcceptStage where
  | checked
  | persisted
deriving DecidableEq, Repr

structure AcceptCall where
  number : Nat
  epoch : Nat
  stage : AcceptStage
deriving DecidableEq, Repr

structure EpochNode where
  highestAcceptedCoordinatorEpoch : Nat
  persistedEpoch : Nat
  calls : List AcceptCall := []
  accepted : List Nat := []
deriving DecidableEq, Repr

/-- The check under the lock: accepted at once (`true`), to be stored first (`false`) or refused. -/
def checkCoordinatorEpoch (current epoch : Nat) : Except Error Bool :=
  if epoch = 0 ∨ epoch = current then .ok true
  else if epoch < current then
    .error (.sentinel .writeRejected
      s!"coordinator epoch {epoch} regresses highest accepted epoch {current}")
  else .ok false

inductive EpochAction where
  | check (number epoch : Nat)
  | persist (number : Nat) (stored : Bool)
  | publish (number : Nat)
  | restart
deriving DecidableEq, Repr

namespace EpochNode

def opened (epoch : Nat) : EpochNode :=
  { highestAcceptedCoordinatorEpoch := epoch, persistedEpoch := epoch }

def call? (node : EpochNode) (number : Nat) (stage : AcceptStage) : Option AcceptCall :=
  node.calls.find? fun call => call.number = number ∧ call.stage = stage

-- A store write that fails leaves the store as it was, and its command is refused.
def step (node : EpochNode) : EpochAction → Option EpochNode
  | .check number epoch =>
    match checkCoordinatorEpoch node.highestAcceptedCoordinatorEpoch epoch with
    | .ok true => some { node with accepted := node.accepted ++ [epoch] }
    | .ok false => some { node with calls := ⟨number, epoch, .checked⟩ :: node.calls }
    | .error _ => some node
  | .persist number stored =>
    (node.call? number .checked).map fun call =>
      if stored then
        { node with
          persistedEpoch := call.epoch
          calls := { call with stage := .persisted } :: node.calls.erase call }
      else { node with calls := node.calls.erase call }
  | .publish number =>
    (node.call? number .persisted).map fun call =>
      { node with
        highestAcceptedCoordinatorEpoch :=
          if call.epoch > node.highestAcceptedCoordinatorEpoch then call.epoch
          else node.highestAcceptedCoordinatorEpoch
        calls := node.calls.erase call
        accepted := node.accepted ++ [call.epoch] }
  | .restart =>
    some { node with highestAcceptedCoordinatorEpoch := node.persistedEpoch, calls := [] }

/-- No epoch that has been let through is later undercut by a smaller one, zero apart. -/
def Fenced (accepted : List Nat) : Prop :=
  accepted.Pairwise fun earlier later => later = 0 ∨ earlier ≤ later

/-- A command whose epoch is above the highest accepted one is checked only while every command
still being accepted carries the same epoch. -/
def ChecksAlone (node : EpochNode) : EpochAction → Prop
  | .check _ epoch =>
    node.highestAcceptedCoordinatorEpoch < epoch → ∀ call ∈ node.calls, call.epoch = epoch
  | _ => True

instance (node : EpochNode) (action : EpochAction) : Decidable (node.ChecksAlone action) :=
  match action with
  | .check _ epoch => inferInstanceAs (Decidable
      (node.highestAcceptedCoordinatorEpoch < epoch → ∀ call ∈ node.calls, call.epoch = epoch))
  | .persist _ _ => .isTrue trivial
  | .publish _ => .isTrue trivial
  | .restart => .isTrue trivial

theorem Fenced.snoc {accepted : List Nat} (h : Fenced accepted) {epoch : Nat}
    (hLast : epoch = 0 ∨ ∀ earlier ∈ accepted, earlier ≤ epoch) : Fenced (accepted ++ [epoch]) := by
  apply List.pairwise_append.mpr
  refine ⟨h, List.pairwise_singleton _ _, ?_⟩
  intro earlier hEarlier later hLater
  obtain rfl := List.mem_singleton.mp hLater
  rcases hLast with hZero | hAll
  · exact .inl hZero
  · exact .inr (hAll earlier hEarlier)

theorem call?_some {node : EpochNode} {number : Nat} {stage : AcceptStage} {call : AcceptCall}
    (h : node.call? number stage = some call) : call ∈ node.calls ∧ call.stage = stage := by
  have hFound := List.find?_some h
  simp only [decide_eq_true_eq] at hFound
  exact ⟨List.mem_of_find?_eq_some h, hFound.2⟩

/-! ## One epoch in flight at a time -/

/-- The commands in flight carry one epoch, not below the stored one.  The stored epoch is in memory
too, unless a command that has stored it has yet to say so. -/
structure OneInFlight (node : EpochNode) : Prop where
  history : Fenced node.accepted
  remembered : ∀ epoch ∈ node.accepted, epoch ≤ node.highestAcceptedCoordinatorEpoch
  stored : node.highestAcceptedCoordinatorEpoch ≤ node.persistedEpoch
  above : ∀ call ∈ node.calls, node.persistedEpoch ≤ call.epoch
  same : ∀ call ∈ node.calls, ∀ other ∈ node.calls, call.epoch = other.epoch
  written : ∀ call ∈ node.calls, call.stage = .persisted → call.epoch = node.persistedEpoch
  published : node.persistedEpoch = node.highestAcceptedCoordinatorEpoch ∨
    ∃ call ∈ node.calls, call.stage = .persisted

theorem opened_oneInFlight (epoch : Nat) : (opened epoch).OneInFlight where
  history := .nil
  remembered := by simp [opened]
  stored := le_rfl
  above := by simp [opened]
  same := by simp [opened]
  written := by simp [opened]
  published := .inl rfl

namespace OneInFlight

variable {node : EpochNode}

variable (h : node.OneInFlight)

include h

/-- An epoch above the highest accepted one is above the stored one, where the check is alone. -/
theorem persisted_le {epoch : Nat} (hAbove : node.highestAcceptedCoordinatorEpoch < epoch)
    (hAlone : ∀ call ∈ node.calls, call.epoch = epoch) : node.persistedEpoch ≤ epoch := by
  rcases h.published with hSame | ⟨call, hCall, -⟩
  · omega
  · have := h.above call hCall
    have := hAlone call hCall
    omega

variable {number : Nat} {later : EpochNode}

theorem check {epoch : Nat} (hAlone : node.ChecksAlone (.check number epoch))
    (hStep : node.step (.check number epoch) = some later) :
    later.OneInFlight ∧ node.persistedEpoch ≤ later.persistedEpoch := by
  simp only [step, checkCoordinatorEpoch] at hStep
  split at hStep
  case h_1 hAtOnce =>
    have hEpoch : epoch = 0 ∨ epoch = node.highestAcceptedCoordinatorEpoch := by
      by_contra hNot
      rw [if_neg hNot] at hAtOnce
      split at hAtOnce <;> cases hAtOnce
    cases hStep
    refine ⟨{ h with history := ?_, remembered := ?_ }, le_rfl⟩
    · apply h.history.snoc
      rcases hEpoch with hZero | rfl
      · exact .inl hZero
      · exact .inr h.remembered
    · intro accepted hAccepted
      rcases List.mem_append.mp hAccepted with hOld | hNew
      · exact h.remembered accepted hOld
      · obtain rfl := List.mem_singleton.mp hNew
        change accepted ≤ node.highestAcceptedCoordinatorEpoch
        omega
  case h_2 hLater =>
    have hAbove : node.highestAcceptedCoordinatorEpoch < epoch := by
      split at hLater
      · cases hLater
      · split at hLater
        · cases hLater
        · omega
    have hSame := hAlone hAbove
    cases hStep
    refine ⟨{ h with above := ?_, same := ?_, written := ?_, published := ?_ }, le_rfl⟩
    · intro call hCall
      rcases List.mem_cons.mp hCall with rfl | hOld
      · exact h.persisted_le hAbove hSame
      · exact h.above call hOld
    · intro call hCall other hOther
      rcases List.mem_cons.mp hCall with rfl | hCall <;> rcases List.mem_cons.mp hOther with rfl | hOther
      · rfl
      · exact (hSame other hOther).symm
      · exact hSame call hCall
      · exact h.same call hCall other hOther
    · intro call hCall hStage
      rcases List.mem_cons.mp hCall with rfl | hOld
      · cases hStage
      · exact h.written call hOld hStage
    · rcases h.published with hPublished | ⟨call, hCall, hStage⟩
      · exact .inl hPublished
      · exact .inr ⟨call, List.mem_cons_of_mem _ hCall, hStage⟩
  case h_3 =>
    cases hStep
    exact ⟨h, le_rfl⟩

theorem persist {stored : Bool} (hStep : node.step (.persist number stored) = some later) :
    later.OneInFlight ∧ node.persistedEpoch ≤ later.persistedEpoch := by
  simp only [step, Option.map_eq_some_iff] at hStep
  obtain ⟨call, hCall, rfl⟩ := hStep
  obtain ⟨hMem, hStage⟩ := call?_some hCall
  cases stored with
  | true =>
    have hLe := h.above call hMem
    refine ⟨{ h with stored := ?_, above := ?_, same := ?_, written := ?_, published := ?_ }, hLe⟩
    · exact h.stored.trans hLe
    · intro other hOther
      rcases List.mem_cons.mp hOther with rfl | hOld
      · exact le_rfl
      · exact (h.same call hMem other (List.mem_of_mem_erase hOld)).le
    · intro first hFirst second hSecond
      have hEpoch : ∀ other ∈ { call with stage := .persisted } :: node.calls.erase call,
          other.epoch = call.epoch := by
        intro other hOther
        rcases List.mem_cons.mp hOther with rfl | hOld
        · rfl
        · exact h.same other (List.mem_of_mem_erase hOld) call hMem
      rw [hEpoch first hFirst, hEpoch second hSecond]
    · intro other hOther _
      rcases List.mem_cons.mp hOther with rfl | hOld
      · rfl
      · exact h.same other (List.mem_of_mem_erase hOld) call hMem
    · exact .inr ⟨_, List.mem_cons_self, rfl⟩
  | false =>
    refine ⟨{ h with above := ?_, same := ?_, written := ?_, published := ?_ }, le_rfl⟩
    · exact fun other hOther => h.above other (List.mem_of_mem_erase hOther)
    · exact fun first hFirst second hSecond =>
        h.same first (List.mem_of_mem_erase hFirst) second (List.mem_of_mem_erase hSecond)
    · exact fun other hOther => h.written other (List.mem_of_mem_erase hOther)
    · rcases h.published with hPublished | ⟨other, hOther, hOtherStage⟩
      · exact .inl hPublished
      · have hNe : other ≠ call := by
          rintro rfl
          rw [hStage] at hOtherStage
          cases hOtherStage
        exact .inr ⟨other, (List.mem_erase_of_ne hNe).mpr hOther, hOtherStage⟩

theorem publish (hStep : node.step (.publish number) = some later) :
    later.OneInFlight ∧ node.persistedEpoch ≤ later.persistedEpoch := by
  simp only [step, Option.map_eq_some_iff] at hStep
  obtain ⟨call, hCall, rfl⟩ := hStep
  obtain ⟨hMem, hStage⟩ := call?_some hCall
  have hWritten := h.written call hMem hStage
  have hStored := h.stored
  -- The command says what it has stored, so memory catches up with the store.
  have hCaughtUp : (if call.epoch > node.highestAcceptedCoordinatorEpoch then call.epoch
      else node.highestAcceptedCoordinatorEpoch) = node.persistedEpoch := by
    split <;> omega
  rw [hCaughtUp]
  refine ⟨?_, le_rfl⟩
  constructor
  case history =>
    apply h.history.snoc
    right
    intro earlier hEarlier
    have := h.remembered earlier hEarlier
    omega
  case remembered =>
    intro epoch hEpoch
    change epoch ≤ node.persistedEpoch
    rcases List.mem_append.mp hEpoch with hOld | hNew
    · exact (h.remembered epoch hOld).trans hStored
    · obtain rfl := List.mem_singleton.mp hNew
      exact hWritten.le
  case stored => exact le_rfl
  case above => exact fun other hOther => h.above other (List.mem_of_mem_erase hOther)
  case same =>
    exact fun first hFirst second hSecond =>
      h.same first (List.mem_of_mem_erase hFirst) second (List.mem_of_mem_erase hSecond)
  case written => exact fun other hOther => h.written other (List.mem_of_mem_erase hOther)
  case published => exact .inl rfl

theorem restart (hStep : node.step .restart = some later) :
    later.OneInFlight ∧ node.persistedEpoch ≤ later.persistedEpoch := by
  cases hStep
  refine ⟨?_, le_rfl⟩
  constructor
  case history => exact h.history
  case remembered => exact fun epoch hEpoch => (h.remembered epoch hEpoch).trans h.stored
  case stored => exact le_rfl
  case above => exact fun call hCall => absurd hCall List.not_mem_nil
  case same => exact fun call hCall => absurd hCall List.not_mem_nil
  case written => exact fun call hCall => absurd hCall List.not_mem_nil
  case published => exact .inl rfl

theorem step {action : EpochAction} (hAlone : node.ChecksAlone action)
    (hStep : node.step action = some later) :
    later.OneInFlight ∧ node.persistedEpoch ≤ later.persistedEpoch := by
  cases action with
  | check number epoch => exact h.check hAlone hStep
  | persist number stored => exact h.persist hStep
  | publish number => exact h.publish hStep
  | restart => exact h.restart hStep

theorem run (hRun : Reaches EpochNode.step ChecksAlone node later) :
    later.OneInFlight ∧ node.persistedEpoch ≤ later.persistedEpoch := by
  induction hRun with
  | refl => exact ⟨h, le_rfl⟩
  | tail _ hAlone hStep ih =>
    obtain ⟨hNext, hMore⟩ := ih.1.step hAlone hStep
    exact ⟨hNext, ih.2.trans hMore⟩

end OneInFlight

/-- Where commands with different new epochs are never in flight together, no command is let through
after one with a higher epoch, and the stored epoch never decreases. -/
theorem epochs_fenced (epoch : Nat) {node later : EpochNode}
    (hNode : Reaches step ChecksAlone (opened epoch) node)
    (hLater : Reaches step ChecksAlone node later) :
    Fenced later.accepted ∧ node.persistedEpoch ≤ later.persistedEpoch := by
  have hInv := ((opened_oneInFlight epoch).run hNode).1.run hLater
  exact ⟨hInv.1.history, hInv.2⟩

/-- A step that is taken only where the check is alone. -/
def aloneStep : EpochNode → EpochAction → Option EpochNode :=
  guarded (fun node action => decide (node.ChecksAlone action)) step

/-- A command with epoch 7 is let through after one with epoch 5, and stays on record in a restart. -/
theorem successive_epochs_fenced :
    Reaches step ChecksAlone (opened 0) ⟨5, 5, [], [5]⟩ ∧
      Reaches step ChecksAlone ⟨5, 5, [], [5]⟩ ⟨7, 7, [], [5, 7, 7]⟩ ∧
      Fenced [5, 7, 7] ∧ 5 ≤ 7 := by
  have hFive : run aloneStep [.check 1 5, .persist 1 true, .publish 1] (opened 0) =
      some ⟨5, 5, [], [5]⟩ := by decide
  have hSeven : run aloneStep
      [.check 2 7, .persist 2 true, .publish 2, .restart, .check 3 5, .check 4 7]
      ⟨5, 5, [], [5]⟩ = some ⟨7, 7, [], [5, 7, 7]⟩ := by decide
  have hNode : Reaches step ChecksAlone (opened 0) ⟨5, 5, [], [5]⟩ :=
    .of_guarded_run (fun _ _ => of_decide_eq_true) hFive
  have hLater : Reaches step ChecksAlone ⟨5, 5, [], [5]⟩ ⟨7, 7, [], [5, 7, 7]⟩ :=
    .of_guarded_run (fun _ _ => of_decide_eq_true) hSeven
  exact ⟨hNode, hLater, epochs_fenced 0 hNode hLater⟩

/-- Commands with the epochs 5 and 7 both pass the check; 7 is stored and let through first. -/
theorem lower_epoch_undercuts :
    ¬ ∀ (epoch : Nat) (node later : EpochNode), Reaches step (fun _ _ => True) (opened epoch) node →
      Reaches step (fun _ _ => True) node later →
      Fenced later.accepted ∧ node.persistedEpoch ≤ later.persistedEpoch := by
  intro hAll
  have hNode : run step [.check 1 5, .check 2 7, .persist 2 true, .publish 2] (opened 0) =
      some ⟨7, 7, [⟨1, 5, .checked⟩], [7]⟩ := rfl
  have hLater : run step [.persist 1 true, .publish 1] ⟨7, 7, [⟨1, 5, .checked⟩], [7]⟩ =
      some ⟨7, 5, [], [7, 5]⟩ := rfl
  obtain ⟨-, hStored⟩ := hAll 0 _ _ (.of_run (fun _ _ _ => trivial) hNode)
    (.of_run (fun _ _ _ => trivial) hLater)
  exact absurd hStored (by decide)

end EpochNode

end Craq.Storage
