import Craq.Storage.Lifecycle
import Craq.Storage.Prepared

/-! # The order of the watermarks

The watermarks of a replica are in order as long as it has entered the service with nothing above its
committed sequence under way.
-/

namespace Craq.Storage

open Lib (Reaches run guarded)

/-! ## Credits -/

/-- What a client of the flow control asks for. -/
inductive CreditKind where
  | forward
  | commit
  | commitAdvance
  | other
deriving DecidableEq, Repr

/-- A subtraction of unsigned numbers that does not wrap around. -/
def subtract? (left right : Nat) : Option Nat :=
  if right ≤ left then some (left - right) else none

namespace NodeSlot

def slotPrepareWindow : Int := 32

def slotCommitTokenWindow : Int := 16

/-- What is left of a window when the messages in flight are taken off it. -/
def windowRemaining (window : Int) (available : Int) (inFlight : Nat) : Int :=
  min (window - inFlight) available

/-- The messages a neighbour may still send, or none where a subtraction wraps around. -/
def replicationAvailableCredit (n : NodeSlot) (kind : CreditKind) : Option Int :=
  let record := n.record
  if !n.runtime.present || n.runtime.progressionGap then some 0
  else do
    let available : Int := n.config.maxBufferedReplicaMessagesPerSlot -
      reduceTotalBufferedMessages record
    let available ← match kind with
      | .forward => do
        let last ← subtract? record.nextSequence 1
        let inFlight ← subtract? last record.highestPreparedDurable
        pure (windowRemaining slotPrepareWindow available inFlight)
      | .commit => do
        let inFlight ← subtract? record.highestCommitTokenReceived record.highestCommittedSequence
        pure (windowRemaining slotCommitTokenWindow available inFlight)
      | .commitAdvance => pure (if n.runtime.upstreamCommitInFlight then 0 else min available 1)
      | .other => pure available
    let available :=
      if n.config.maxBufferedReplicaMessagesPerNode > 0 then
        min ((n.config.maxBufferedReplicaMessagesPerNode : Int) - n.load.bufferedReplicaMessages)
          available
      else available
    pure (max available 0)

end NodeSlot

namespace ReplicaRecord.Ordered

theorem credit {n : NodeSlot} (h : n.record.Ordered) (kind : CreditKind) :
    (n.replicationAvailableCredit kind).isSome = true := by
  have hnext := h.next
  have first : subtract? n.record.nextSequence 1 = some (n.record.nextSequence - 1) :=
    if_pos (by omega)
  have forwards : subtract? (n.record.nextSequence - 1) n.record.highestPreparedDurable =
      some (n.record.nextSequence - 1 - n.record.highestPreparedDurable) := if_pos (by omega)
  have commits : subtract? n.record.highestCommitTokenReceived n.record.highestCommittedSequence =
      some (n.record.highestCommitTokenReceived - n.record.highestCommittedSequence) :=
    if_pos h.token
  rw [NodeSlot.replicationAvailableCredit]
  dsimp only
  split
  · rfl
  · cases kind <;> simp [first, forwards, commits]

theorem commitSequences {limit count : Nat} {progress : NodeSlot.CommitProgress}
    (h : ∀ sequence, progress.record.highestCommittedSequence < sequence →
      sequence ≤ progress.record.highestCommittedSequence + count →
        sequence ≤ progress.record.highestPreparedDurable ∧
          progress.record.preparedEntries[sequence]? ≠ none) :
    (NodeSlot.commitSequences limit count progress).2 = true := by
  induction count generalizing progress with
  | zero => rfl
  | succ count ih =>
    obtain ⟨hprepared, hentry⟩ := h (progress.record.highestCommittedSequence + 1) (by omega) (by omega)
    obtain ⟨operation, hoperation⟩ := Option.ne_none_iff_exists'.mp hentry
    have ready : reduceCommittableOperation progress.record
        (progress.record.highestCommittedSequence + 1) = .ok operation := by
      rw [reduceCommittableOperation, if_neg (by omega), hoperation]
    rw [NodeSlot.commitSequences]
    cases hnext : NodeSlot.commitNext limit progress with
    | none => simp [NodeSlot.commitNext, ready] at hnext
    | some next =>
      obtain ⟨through, hcommitted, _⟩ := commitNext_through hnext
      apply ih
      intro sequence hlow hhigh
      rw [through.prepared, through.entries]
      exact h sequence (by omega) (by omega)

theorem commitLoop {n : NodeSlot} (h : n.record.Ordered) (sequence : Nat) :
    (n.commitLoop (n.clampWatermark sequence)).2 = true := by
  apply commitSequences
  intro place hlow hhigh
  dsimp only at hlow hhigh ⊢
  have hclamped : n.clampWatermark sequence ≤ n.record.highestPreparedDurable := Nat.min_le_right _ _
  have hprepared : place ≤ n.record.highestPreparedDurable := by omega
  obtain ⟨operation, hentry, -⟩ := h.covered place hlow (hprepared.trans_lt h.next)
  refine ⟨hprepared, ?_⟩
  rw [hentry]
  exact Option.some_ne_none operation

end ReplicaRecord.Ordered

/-! ## Runs -/

/-- The sequences that are under way beside the record: those of the appends the journal was asked
for or has reported, of what the materializer holds or has reported, and of the commits that the
predecessor is asked to confirm. -/
def Core.underWay (c : Core) : List Nat :=
  (c.prepares ++ c.submitted ++ c.materializing).map (·.operation.sequence) ++
    c.prepared.map (·.sequence) ++ c.materialized ++ c.asked

instance (record : ReplicaRecord) : Decidable record.InService :=
  inferInstanceAs (Decidable (_ ∨ _ ∨ _))

theorem ReplicaRecord.not_inService_empty : ¬ ReplicaRecord.InService {} := by
  decide

/-- A replica does not enter the service with something above its committed sequence under way. -/
def NodeSlot.EntersClean (n : NodeSlot) (input : NodeInput) : Prop :=
  ∀ next ∈ n.take input, next.record.InService → ¬ n.record.InService →
    ∀ sequence ∈ next.core.underWay, sequence ≤ next.record.highestCommittedSequence

instance (n : NodeSlot) (input : NodeInput) : Decidable (n.EntersClean input) :=
  inferInstanceAs (Decidable (∀ next ∈ n.take input, next.record.InService →
    ¬ n.record.InService → ∀ sequence ∈ next.core.underWay,
      sequence ≤ next.record.highestCommittedSequence))

namespace NodeSlot

variable {n next : NodeSlot} {input : NodeInput} {record : ReplicaRecord}

theorem Enters.ordered (h : n.Enters record) (serves : record.InService)
    (resumable : n.record.Resumable) :
    record.state ≠ .pending ∧ record.Ordered ∧ record.Named ∧ record.Alone ∧
      record.nextSequence = record.highestCommittedSequence + 1 := by
  cases h with
  | removed => exact absurd serves ReplicaRecord.not_inService_empty
  | joined assignment highest =>
    refine ⟨by rintro ⟨⟩, .joined assignment highest, ?_, fun _ => le_rfl, rfl⟩
    intro sequence operation hentry
    simp [NodeSlot.joinedRecord] at hentry
  | rebuilt assignment highest =>
    refine ⟨by rintro ⟨⟩, .rebuilt assignment highest, ?_, fun _ => le_rfl, rfl⟩
    intro sequence operation hentry
    simp [NodeSlot.rebuiltRecord, NodeSlot.joinedRecord] at hentry
  | resumed assignment recovered grown =>
    have reopened := resumable recovered
    exact ⟨by rintro ⟨⟩, .resumed _ (reopened.materialized.trans grown), reopened.named,
      fun _ => le_rfl, rfl⟩

theorem Placed.present {fits : Place → ReplicaAssignment → Prop} (h : n.Placed fits)
    (serves : n.record.InService) : n.runtime.present = true := by
  by_contra habsent
  have absent : n.runtime.present = false := Bool.eq_false_iff.mpr habsent
  have empty : n.record = {} := by
    cases h with
    | rests settled stands => exact stands.absent absent
    | waits task waiting => exact waiting.absent absent
  exact absurd (empty ▸ serves) ReplicaRecord.not_inService_empty

theorem Enters.watermarked (enters : n.Enters next.record) (resumable : n.record.Resumable)
    (serves : next.record.InService) (present : next.runtime.present = true)
    (tasks : ∀ task ∈ next.tasks, task = .ensureUpstreamCommitReplay)
    (clean : ∀ sequence ∈ next.core.underWay, sequence ≤ next.record.highestCommittedSequence) :
    next.core.Watermarked := by
  obtain ⟨settled, ordered, named, alone, given⟩ := enters.ordered serves resumable
  have carries : next.core.Carries ReplicaRecord.Alone := carries_of_tasks alone tasks
  have below {sequence : Nat} (hmem : sequence ∈ next.core.underWay) :
      sequence < next.record.nextSequence := by
    rw [given]
    exact Nat.lt_succ_of_le (clean sequence hmem)
  have activates : ∀ answer ∈ next.core.answers, answer.1.Activates := by
    refine List.forall_mem_append.mpr ⟨?_, RemoteCall.answers_activate next.calls⟩
    refine List.forall_mem_flatMap.mpr fun task hmem => ?_
    rw [tasks task hmem]
    exact List.forall_mem_nil _
  have waits : ∀ awaited ∈ next.core.awaits, awaited.1.Activates := by
    refine List.forall_mem_flatMap.mpr fun task hmem => ?_
    rw [tasks task hmem]
    exact List.forall_mem_nil _
  refine ⟨present, settled, ordered, named, alone, carries.copies, carries.ready, ?_, ?_, ?_, ?_, ?_,
    ?_, waits, activates⟩
  · exact fun commit hmem => below (by simp [Core.underWay]; grind)
  · exact fun operation hmem => below (by simp [Core.underWay]; grind)
  · exact fun commit hmem => clean _ (by simp [Core.underWay]; grind)
  · exact fun commit hmem => clean _ (by simp [Core.underWay]; grind)
  · exact fun height hmem => clean _ (by simp [Core.underWay]; grind)
  · exact fun sequence hmem => clean _ (by simp [Core.underWay]; grind)

/-- What is left after an input that ends the service of a replica, if it does. -/
theorem take_departs (departs : input.Stays = false) (htake : n.take input = some next) :
    ¬ next.record.InService ∨ next.core = n.core ∨ next.core = n.core.drop := by
  cases input with
  | restart =>
    cases htake
    rcases n.restart_state with empty | recovered
    · exact .inl (empty ▸ ReplicaRecord.not_inService_empty)
    · exact .inl (by simp [ReplicaRecord.InService, recovered])
  | event event =>
    cases event with
    | evict =>
      simp only [take, step, whenIdle, Option.ite_none_right_eq_some, Option.some.injEq] at htake
      obtain ⟨-, -, rfl⟩ := htake
      exact .inl ReplicaRecord.not_inService_empty
    | command command =>
      simp only [take, step, whenOpen, whenIdle, Option.ite_none_left_eq_some,
        Option.ite_none_right_eq_some, Option.some.injEq] at htake
      obtain ⟨-, -, rfl⟩ := htake
      cases command with
      | removeReplica =>
        simp only [runCommand, removeReplica]
        repeat' split
        · exact .inr (.inl rfl)
        · exact .inl ReplicaRecord.not_inService_empty
        · exact .inr (.inl rfl)
        · exact .inr (.inr rfl)
        · exact .inl ReplicaRecord.not_inService_empty
      | dropRecoveredReplica =>
        simp only [runCommand, dropRecoveredReplica]
        split
        · exact .inr (.inl rfl)
        · exact .inl ReplicaRecord.not_inService_empty
      | _ => cases departs
    | _ => cases departs
  | _ => cases departs

/-- The watermarks of a replica in service are in order. -/
structure InOrder (n : NodeSlot) : Prop where
  lives : n.Lives
  watermarked : n.record.InService → n.core.Watermarked

theorem InOrder.keeps (h : n.InOrder) (serves : n.record.InService) :
    n.core.Carries ReplicaRecord.Keeps := by
  refine h.lives.keeps fun recovered => ?_
  simp [ReplicaRecord.InService, recovered] at serves

theorem InOrder.take (h : n.InOrder) (clean : n.EntersClean input)
    (htake : n.take input = some next) : next.InOrder where
  lives := h.lives.take htake
  watermarked := by
    intro serves
    by_cases served : n.record.InService
    · have start := h.watermarked served
      cases stays : input.Stays with
      | true => exact (take_watermarked stays htake start (h.keeps served)).1
      | false =>
        rcases take_departs stays htake with gone | same | dropped
        · exact absurd serves gone
        · exact same ▸ start
        · rw [dropped]
          exact { start with materializing := List.forall_mem_nil _ }
    · have live : next.record.state ≠ .recovered := by
        intro recovered
        simp [ReplicaRecord.InService, recovered] at serves
      rcases (h.lives.moves htake).entry live with ⟨-, before⟩ | ⟨enters, tasks⟩
      · exact absurd (before serves) served
      · exact enters.watermarked h.lives.resumable.record serves
          ((h.lives.take htake).placed.present serves) tasks (clean next htake serves served)

end NodeSlot

theorem reaches_inOrder {config : NodeConfig} {n : NodeSlot}
    (h : Reaches NodeSlot.take NodeSlot.EntersClean { config } n) : n.InOrder := by
  apply h.invariant
  · exact ⟨.fresh config, fun serves => absurd serves ReplicaRecord.not_inService_empty⟩
  · exact fun _ _ _ inOrder clean htake => inOrder.take clean htake

/-- In every run in which replicas enter the service clean, the watermarks of a replica in service are
in order, no credit wraps around, and no operation is missing when a watermark is applied. -/
theorem watermarks_ordered {config : NodeConfig} {n : NodeSlot}
    (h : Reaches NodeSlot.take NodeSlot.EntersClean { config } n) (serves : n.record.InService) :
    n.record.Ordered ∧ (∀ kind, (n.replicationAvailableCredit kind).isSome = true) ∧
      ∀ sequence, (n.commitLoop (n.clampWatermark sequence)).2 = true := by
  have ordered : n.record.Ordered := ((reaches_inOrder h).watermarked serves).ordered
  exact ⟨ordered, ordered.credit, ordered.commitLoop⟩

/-- As long as a replica stays in service, its committed sequence and the next sequence it gives out
never go back. -/
theorem sequences_never_recede {config : NodeConfig} {n later : NodeSlot}
    (h : Reaches NodeSlot.take NodeSlot.EntersClean { config } n) (serves : n.record.InService)
    (hlater : Reaches NodeSlot.take (fun _ input => input.Stays = true) n later) :
    n.record.Grows later.record := by
  have inOrder := reaches_inOrder h
  let Kept := fun later : NodeSlot => (later.core.Watermarked ∧
    later.core.Carries ReplicaRecord.Keeps) ∧ n.record.Grows later.record
  have kept : Kept later := by
    apply hlater.invariant
    · exact ⟨⟨inOrder.watermarked serves, inOrder.keeps serves⟩, le_rfl, le_rfl⟩
    · rintro state input next ⟨⟨start, keeps⟩, grown⟩ stays htake
      obtain ⟨watermarked, more⟩ := NodeSlot.take_watermarked stays htake start keeps
      have carried := keeps.take ReplicaRecord.keeps_stable (NodeInput.Stays.continues stays)
        (fun _ => NodeSlot.keeps_takesForward keeps.record) htake
      exact ⟨⟨watermarked, carried⟩, grown.committed.trans more.committed,
        grown.sequence.trans more.sequence⟩
  exact kept.2

/-! ## A write after a crash, and a report from before it -/

/-- The only replica of a slot commits two writes, its node crashes, and the replica resumes. -/
def resumeAlone : List NodeInput :=
  openAlone ++ appendBoth ++ [.restart, .event (.command (.resumeRecoveredReplica alone))] ++
    proceed 1

def writeThird : List NodeInput :=
  [.event (.submitWrite { call := 2, kind := .put, key := "c", value := "u" }),
    .event (.flushPrepare none)]

def cleanStep : NodeSlot → NodeInput → Option NodeSlot :=
  guarded (fun n input => decide (n.EntersClean input)) NodeSlot.take

theorem resumeAlone_runs :
    (run cleanStep resumeAlone { config := plainConfig "c" }).isSome = true := by
  decide +kernel

def resumedAlone : NodeSlot :=
  (run cleanStep resumeAlone { config := plainConfig "c" }).get resumeAlone_runs

theorem resumedAlone_reached :
    Reaches NodeSlot.take NodeSlot.EntersClean { config := plainConfig "c" } resumedAlone :=
  .of_checked resumeAlone_runs

theorem writeThird_runs : (run cleanStep writeThird resumedAlone).isSome = true := by
  decide +kernel

theorem writeThird_ordered : ∃ n : NodeSlot, n.record.highestCommittedSequence = 2 ∧
    n.record.nextSequence = 4 ∧ n.record.Ordered := by
  have reached := resumedAlone_reached.trans
    (.of_checked writeThird_runs)
  refine ⟨_, ?_, ?_, (watermarks_ordered reached ?_).1⟩
  · decide +kernel
  · decide +kernel
  · decide +kernel

theorem writeThird_stays : ∀ input ∈ writeThird, input.Stays = true := by
  decide

theorem writeThird_proceeds : (run NodeSlot.take writeThird resumedAlone).isSome = true := by
  decide +kernel

theorem writeThird_grows : ∃ n : NodeSlot, resumedAlone.record.nextSequence = 3 ∧
    n.record.nextSequence = 4 ∧ resumedAlone.record.Grows n.record := by
  refine ⟨_, ?_, ?_, sequences_never_recede resumedAlone_reached ?_
    (.of_run (fun input hmem _ => writeThird_stays input hmem) (Option.some_get writeThird_proceeds).symm)⟩
  · decide +kernel
  · decide +kernel
  · decide +kernel

/-- A tail has prepared its first operation when its node crashes.  It is recovered from its
predecessor, which has not committed that operation, while the materializer still reports it for the
replica that was reopened; then the predecessor sends the operation once more. -/
def recoverBehind : List NodeInput :=
  stageOne ++ [.event (.flushPrepare none), .restart,
    .event (.command (.recoverReplica (tailAfter "b" 2) "b")), .event .materialize,
    .snapshot (∅, 0), .event (.replied true)] ++
    receive (forwardFrom "b" 2 (putOperation 1 "v")) ++ [.event (.completion 0)]

theorem recoverBehind_runs :
    (run NodeSlot.take recoverBehind { config := plainConfig "c" }).isSome = true := by
  decide +kernel

/-- The report prunes the operation although the recovered replica has not committed it. -/
theorem stale_report_prunes :
    ¬∀ (config : NodeConfig) (n : NodeSlot),
      Reaches NodeSlot.take (fun _ _ => True) { config } n → n.record.Serving →
        n.record.Ordered := by
  intro h
  let n := (run NodeSlot.take recoverBehind { config := plainConfig "c" }).get recoverBehind_runs
  have ordered : n.record.Ordered := h _ n
    (.of_isSome recoverBehind_runs)
    (.inl (by decide +kernel))
  have committed : n.record.highestCommittedSequence = 0 := by decide +kernel
  have next : n.record.nextSequence = 2 := by decide +kernel
  obtain ⟨operation, hentry, -⟩ := ordered.covered 1 (by omega) (by omega)
  have missing : n.record.preparedEntries[1]? = none := by decide +kernel
  exact absurd (missing.symm.trans hentry) nofun

end Craq.Storage
