import Craq.Storage.Agreement
import Craq.Storage.Frame

/-! # Forwards that are sent again

A replica keeps every forward it has staged, and after the commit a bounded history of them.  A
forward of a sequence it already has is compared with the one it keeps: it is ignored when it brings
the same operation from the same node, and refused otherwise.
-/

namespace Craq.Storage

open Lib (Reaches run)

/-! ## What is kept of the forwards -/

/-- The forward that a replica keeps of a sequence: staged, or committed and still retained. -/
def heldForward (record : ReplicaRecord) (sequence : Nat) : Option ForwardWriteRequest :=
  match record.stagedForwards[sequence]? with
  | some staged => some staged
  | none => record.recentCommittedForwards[sequence]?

theorem heldForward_eq_some {record : ReplicaRecord} {sequence : Nat} {held : ForwardWriteRequest} :
    heldForward record sequence = some held ↔
      record.stagedForwards[sequence]? = some held ∨
        record.stagedForwards[sequence]? = none ∧
          record.recentCommittedForwards[sequence]? = some held := by
  rw [heldForward]
  split <;> simp_all

/-- Forwards are kept under their own sequences, and none that is kept is also buffered.  A replica
that has not crashed is never waiting to be resumed. -/
structure ReplicaRecord.Keeps (record : ReplicaRecord) : Prop where
  live : record.state ≠ .recovered
  staged : ∀ (sequence : Nat) (held : ForwardWriteRequest),
    record.stagedForwards[sequence]? = some held →
      held.operation.sequence = sequence ∧ sequence < record.nextSequence ∧
        record.bufferedForwards[sequence]? = none
  recent : ∀ (sequence : Nat) (held : ForwardWriteRequest),
    record.recentCommittedForwards[sequence]? = some held →
      held.operation.sequence = sequence ∧ sequence < record.nextSequence ∧
        record.bufferedForwards[sequence]? = none

namespace ReplicaRecord.Keeps

variable {record next : ReplicaRecord}

theorem of_empty (live : record.state ≠ .recovered) (staged : record.stagedForwards = ∅)
    (recent : record.recentCommittedForwards = ∅) : record.Keeps := by
  refine ⟨live, ?_, ?_⟩
  · simp [staged]
  · simp [recent]

theorem not_staged (h : record.Keeps) {sequence : Nat} (hle : record.nextSequence ≤ sequence) :
    record.stagedForwards[sequence]? = none := by
  by_contra hstaged
  obtain ⟨held, hheld⟩ := Option.ne_none_iff_exists'.mp hstaged
  have := (h.staged sequence held hheld).2.1
  omega

theorem of_kept (h : record.Keeps) (state : next.state = record.state)
    (hnext : record.nextSequence ≤ next.nextSequence)
    (staged : ∀ (sequence : Nat) (held : ForwardWriteRequest),
      next.stagedForwards[sequence]? = some held →
        ∃ before, record.stagedForwards[sequence]? = some before ∧
          before.operation = held.operation)
    (recent : next.recentCommittedForwards = record.recentCommittedForwards)
    (buffered : ∀ sequence : Nat, record.bufferedForwards[sequence]? = none →
      next.bufferedForwards[sequence]? = none) : next.Keeps := by
  refine ⟨state ▸ h.live, ?_, ?_⟩
  · intro sequence held hheld
    obtain ⟨before, hbefore, heq⟩ := staged sequence held hheld
    have ⟨hsequence, hlt, hbuffered⟩ := h.staged sequence before hbefore
    exact ⟨heq ▸ hsequence, hlt.trans_le hnext, buffered sequence hbuffered⟩
  · intro sequence held hheld
    have ⟨hsequence, hlt, hbuffered⟩ := h.recent sequence held (recent ▸ hheld)
    exact ⟨hsequence, hlt.trans_le hnext, buffered sequence hbuffered⟩

theorem congr (h : record.Keeps) (state : next.state = record.state)
    (hnext : record.nextSequence ≤ next.nextSequence)
    (staged : next.stagedForwards = record.stagedForwards)
    (recent : next.recentCommittedForwards = record.recentCommittedForwards)
    (buffered : next.bufferedForwards = record.bufferedForwards) : next.Keeps := by
  refine h.of_kept state hnext ?_ recent ?_
  · intro sequence held hheld
    exact ⟨held, staged ▸ hheld, rfl⟩
  · intro sequence hnone
    rwa [buffered]

theorem held (h : record.Keeps) {sequence : Nat} {held : ForwardWriteRequest}
    (hheld : heldForward record sequence = some held) :
    held.operation.sequence = sequence ∧ sequence < record.nextSequence ∧
      record.bufferedForwards[sequence]? = none := by
  rcases heldForward_eq_some.mp hheld with hstaged | ⟨-, hrecent⟩
  · exact h.staged sequence held hstaged
  · exact h.recent sequence held hrecent

end ReplicaRecord.Keeps

/-! ## A forward of a sequence that is kept -/

section Held

variable {record : ReplicaRecord} {sequence : Nat} {held req : ForwardWriteRequest}
  {limits : BufferLimits}

theorem ReplicaRecord.Keeps.expectedForwardSource (h : record.Keeps)
    (hheld : heldForward record sequence = some held) :
    expectedForwardSource record sequence = (held.fromNodeID, held.chainVersion) := by
  have ⟨_, _, hbuffered⟩ := h.held hheld
  rw [Storage.expectedForwardSource]
  rcases heldForward_eq_some.mp hheld with hstaged | ⟨hnone, hrecent⟩
  · rw [hstaged]
  · rw [hnone, hbuffered, hrecent]

theorem reduceHandlePastForward_held (hheld : heldForward record req.operation.sequence = some held) :
    reduceHandlePastForward record req = .ok () ↔ acceptsRepeatedForward record held req = true := by
  rw [reduceHandlePastForward]
  rcases heldForward_eq_some.mp hheld with hstaged | ⟨hnone, hrecent⟩
  · rw [hstaged]
    dsimp only
    split <;> simp_all
  · rw [hnone, hrecent]
    dsimp only
    split <;> simp_all

/-- A forward of a kept sequence is ignored exactly when its source and its operation pass. -/
theorem ReplicaRecord.Keeps.reduceForwardWrite_held (h : record.Keeps)
    (hheld : heldForward record req.operation.sequence = some held) :
    reduceForwardWrite record req limits = .ok ⟨record, .ignore⟩ ↔
      validateForwardSource record req = .ok () ∧ acceptsRepeatedForward record held req = true := by
  have ⟨_, hlt, _⟩ := h.held hheld
  rw [← reduceHandlePastForward_held hheld, reduceForwardWrite]
  constructor
  · intro hok
    obtain ⟨_, hvalid, hok⟩ := Lib.bind_eq_ok.mp hok
    rw [if_pos hlt] at hok
    obtain ⟨_, hpast, _⟩ := Lib.bind_eq_ok.mp hok
    exact ⟨hvalid, hpast⟩
  · rintro ⟨hvalid, hpast⟩
    refine Lib.bind_eq_ok.mpr ⟨(), hvalid, ?_⟩
    rw [if_pos hlt]
    exact Lib.bind_eq_ok.mpr ⟨(), hpast, rfl⟩

/-- What is not ignored is refused: a kept sequence is never staged or buffered again. -/
theorem ReplicaRecord.Keeps.reduceForwardWrite_cases (h : record.Keeps) (limits : BufferLimits)
    (hheld : heldForward record req.operation.sequence = some held) :
    reduceForwardWrite record req limits = .ok ⟨record, .ignore⟩ ∨
      ∃ err, reduceForwardWrite record req limits = .error err := by
  have ⟨_, hlt, _⟩ := h.held hheld
  cases hreduced : reduceForwardWrite record req limits with
  | error err => exact .inr ⟨err, rfl⟩
  | ok reduction =>
    rw [reduceForwardWrite] at hreduced
    obtain ⟨_, _, hreduced⟩ := Lib.bind_eq_ok.mp hreduced
    rw [if_pos hlt] at hreduced
    obtain ⟨_, _, hreduced⟩ := Lib.bind_eq_ok.mp hreduced
    cases hreduced
    exact .inl rfl

theorem acceptsRepeatedForward_operation (h : acceptsRepeatedForward record held req = true) :
    req.operation = held.operation := by
  simp only [acceptsRepeatedForward, sameForwardRequest, sameForwardRequestIgnoringChain,
    Bool.or_eq_true, Bool.and_eq_true, decide_eq_true_eq] at h
  rcases h with h | h
  · exact h.2.2.symm
  · exact h.1.1.2.symm

/-- The forward comes from the predecessor the replica now has, under the chain version it now
has. -/
def ReplicaRecord.FromPredecessor (record : ReplicaRecord) (req : ForwardWriteRequest) : Prop :=
  req.fromNodeID = record.assignment.peers.predecessorNodeID ∧
    req.chainVersion = record.assignment.chainVersion

/-- The predecessor may send a kept operation again, and no other operation passes for it. -/
structure ReplicaRecord.Repeats (record : ReplicaRecord) (sequence : Nat)
    (held : ForwardWriteRequest) : Prop where
  same : ∀ (req : ForwardWriteRequest) (limits : BufferLimits), req.operation = held.operation →
    record.FromPredecessor req → reduceForwardWrite record req limits = .ok ⟨record, .ignore⟩
  other : ∀ (req : ForwardWriteRequest) (limits : BufferLimits),
    req.operation.sequence = sequence → req.operation ≠ held.operation →
      ∃ err, reduceForwardWrite record req limits = .error err

theorem ReplicaRecord.Keeps.refuses (h : record.Keeps)
    (hheld : heldForward record req.operation.sequence = some held)
    (hother : req.operation ≠ held.operation) :
    ∃ err, reduceForwardWrite record req limits = .error err := by
  rcases h.reduceForwardWrite_cases limits hheld with hignored | hrefused
  · have passes := (h.reduceForwardWrite_held hheld).mp hignored
    exact absurd (acceptsRepeatedForward_operation passes.2) hother
  · exact hrefused

theorem ReplicaRecord.Keeps.validateForwardSource_held (h : record.Keeps)
    (hheld : heldForward record req.operation.sequence = some held)
    (hfrom : record.FromPredecessor req) :
    validateForwardSource record req = .ok () ↔
      held.fromNodeID = record.assignment.peers.predecessorNodeID ∧ held.fromNodeID ≠ "" := by
  simp only [validateForwardSource, h.expectedForwardSource hheld, Lib.ite_error_eq_ok, hfrom.1,
    hfrom.2]
  constructor
  · rintro ⟨hsource, -⟩
    simp only [not_or, not_not] at hsource
    exact ⟨hsource.2, hsource.1⟩
  · rintro ⟨hsource, hnonempty⟩
    refine ⟨?_, ?_⟩
    · rw [not_or, not_not]
      exact ⟨hnonempty, hsource⟩
    · split <;> simp

theorem ReplicaRecord.Keeps.repeats_iff (h : record.Keeps)
    (hheld : heldForward record sequence = some held) :
    record.Repeats sequence held ↔
      held.fromNodeID = record.assignment.peers.predecessorNodeID ∧ held.fromNodeID ≠ "" := by
  have ⟨hsequence, _, _⟩ := h.held hheld
  constructor
  · intro repeats
    let again : ForwardWriteRequest :=
      { operation := held.operation
        fromNodeID := record.assignment.peers.predecessorNodeID
        chainVersion := record.assignment.chainVersion }
    have hagain : heldForward record again.operation.sequence = some held := by
      rw [show again.operation.sequence = sequence from hsequence]
      exact hheld
    have ignored := repeats.same again ⟨0, 0, 0⟩ rfl ⟨rfl, rfl⟩
    have passes := (h.reduceForwardWrite_held hagain).mp ignored
    exact (h.validateForwardSource_held hagain ⟨rfl, rfl⟩).mp passes.1
  · intro hsource
    refine ⟨?_, ?_⟩
    · intro req limits hop hfrom
      have hkept : heldForward record req.operation.sequence = some held := by
        rw [hop, hsequence]
        exact hheld
      refine (h.reduceForwardWrite_held hkept).mpr ⟨?_, ?_⟩
      · exact (h.validateForwardSource_held hkept hfrom).mpr hsource
      · simp [acceptsRepeatedForward, sameForwardRequestIgnoringChain, hop, hfrom.1, hfrom.2,
          hsource.1]
    · rintro req limits rfl hother
      exact h.refuses hheld hother

end Held

/-! ## What the replica does with its forwards -/

theorem evictOldest_getElem? {limit : Nat} (order : List Nat)
    (entries : SequenceMap ForwardWriteRequest) {sequence : Nat} {held : ForwardWriteRequest}
    (h : (evictOldest limit order entries).2[sequence]? = some held) :
    entries[sequence]? = some held := by
  induction order generalizing entries with
  | nil => exact h
  | cons oldest order ih =>
    rw [evictOldest] at h
    split at h
    · have kept := ih _ h
      rw [Lib.getElem?_erase_ite] at kept
      split at kept
      · cases kept
      · exact kept
    · exact h

/-- What a commit does to the forwards: one of them may move to the history. -/
structure ReplicaRecord.Retains (record next : ReplicaRecord) : Prop where
  state : next.state = record.state
  sequence : next.nextSequence = record.nextSequence
  buffered : next.bufferedForwards = record.bufferedForwards
  staged : ∀ (sequence : Nat) (held : ForwardWriteRequest),
    next.stagedForwards[sequence]? = some held → record.stagedForwards[sequence]? = some held
  recent : ∀ (sequence : Nat) (held : ForwardWriteRequest),
    next.recentCommittedForwards[sequence]? = some held →
      record.recentCommittedForwards[sequence]? = some held ∨
        ∃ place : Nat, record.stagedForwards[place]? = some held ∧
          held.operation.sequence = sequence

namespace ReplicaRecord.Retains

variable {record middle next : ReplicaRecord}

theorem refl (record : ReplicaRecord) : record.Retains record :=
  ⟨rfl, rfl, rfl, fun _ _ hheld => hheld, fun _ _ hheld => .inl hheld⟩

theorem trans (first : record.Retains middle) (second : middle.Retains next) :
    record.Retains next where
  state := second.state.trans first.state
  sequence := second.sequence.trans first.sequence
  buffered := second.buffered.trans first.buffered
  staged := fun sequence held hheld => first.staged sequence held (second.staged sequence held hheld)
  recent := by
    intro sequence held hheld
    rcases second.recent sequence held hheld with hrecent | ⟨place, hstaged, hsequence⟩
    · exact first.recent sequence held hrecent
    · exact .inr ⟨place, first.staged place held hstaged, hsequence⟩

theorem of_same (state : next.state = record.state)
    (sequence : next.nextSequence = record.nextSequence)
    (buffered : next.bufferedForwards = record.bufferedForwards)
    (staged : next.stagedForwards = record.stagedForwards)
    (recent : next.recentCommittedForwards = record.recentCommittedForwards) :
    record.Retains next where
  state := state
  sequence := sequence
  buffered := buffered
  staged := fun _ _ hheld => staged ▸ hheld
  recent := fun _ _ hheld => .inl (recent ▸ hheld)

end ReplicaRecord.Retains

variable (record : ReplicaRecord)

theorem reduceRemoveDirtyEntry_retains (key : String) (sequence : Nat) :
    record.Retains (reduceRemoveDirtyEntry record key sequence) := by
  simp only [reduceRemoveDirtyEntry]
  (repeat' split) <;> exact .of_same rfl rfl rfl rfl rfl

theorem reduceApplyCommittedSequence_retains (operation : WriteOperation) (sequence limit : Nat) :
    record.Retains (reduceApplyCommittedSequence record operation sequence limit) := by
  simp only [reduceApplyCommittedSequence]
  refine .trans ?_ (reduceRemoveDirtyEntry_retains ..)
  split
  · rename_i staged hstaged
    refine ⟨rfl, rfl, rfl, ?_, ?_⟩
    · intro other held hheld
      have hkept : (record.stagedForwards.erase sequence)[other]? = some held := hheld
      rw [Lib.getElem?_erase_ite] at hkept
      split at hkept
      · cases hkept
      · exact hkept
    · intro other held hheld
      have hkept := evictOldest_getElem? _ _ hheld
      rw [Lib.getElem?_insert_ite] at hkept
      split at hkept
      · rename_i heq
        cases hkept
        exact .inr ⟨sequence, hstaged, heq⟩
      · exact .inl hkept
  · exact .of_same rfl rfl rfl rfl rfl

theorem reduceRecordCommitApplied_retains (req : CommitWriteRequest) (limit : Nat) :
    record.Retains (reduceRecordCommitApplied record req limit) :=
  .of_same rfl rfl rfl rfl rfl

theorem recordWithCommittedOverlay_retains (operation : WriteOperation) :
    record.Retains (recordWithCommittedOverlay record operation) :=
  .of_same rfl rfl rfl rfl rfl

theorem commitNext_retains {limit : Nat} {progress next : NodeSlot.CommitProgress}
    (h : NodeSlot.commitNext limit progress = some next) :
    progress.record.Retains next.record := by
  simp only [NodeSlot.commitNext] at h
  split at h
  · cases h
  · cases h
    refine .trans ?_ (recordWithCommittedOverlay_retains _ _)
    split
    · exact .trans (reduceApplyCommittedSequence_retains ..) (reduceRecordCommitApplied_retains ..)
    · exact reduceApplyCommittedSequence_retains ..

theorem NodeSlot.CommitsTo.retains {record changed : ReplicaRecord}
    (h : NodeSlot.CommitsTo record changed) : record.Retains changed := by
  induction h with
  | refl => exact .refl _
  | tail _ hnext ih => exact ih.trans (commitNext_retains hnext)

theorem reduceSyncedPredecessorState_forwards (highest : Nat) :
    let synced := NodeSlot.reduceSyncedPredecessorState record highest
    synced.nextSequence = max record.nextSequence (highest + 1) ∧
      synced.stagedForwards =
        record.stagedForwards.filter (fun sequence _ => !decide (sequence ≤ highest)) ∧
      synced.recentCommittedForwards = record.recentCommittedForwards ∧
      synced.bufferedForwards =
        record.bufferedForwards.filter (fun sequence _ => !decide (sequence ≤ highest)) ∧
      synced.state = record.state := by
  dsimp only
  rw [NodeSlot.reduceSyncedPredecessorState, NodeSlot.rebuildDirtyEntries,
    foldl_reduceAddDirtyEntry_eq]
  exact ⟨rfl, rfl, rfl, rfl, rfl⟩

namespace ReplicaRecord.Keeps

variable {record next : ReplicaRecord} {req : ForwardWriteRequest} {limits : BufferLimits}

theorem retains (h : record.Keeps) (hretains : record.Retains next) : next.Keeps := by
  refine ⟨hretains.state ▸ h.live, ?_, ?_⟩
  · intro sequence held hheld
    rw [hretains.sequence, hretains.buffered]
    exact h.staged sequence held (hretains.staged sequence held hheld)
  · intro sequence held hheld
    rw [hretains.sequence, hretains.buffered]
    rcases hretains.recent sequence held hheld with hrecent | ⟨place, hstaged, hsequence⟩
    · exact h.recent sequence held hrecent
    · have ⟨hplace, hlt, hbuffered⟩ := h.staged place held hstaged
      obtain rfl : place = sequence := hplace.symm.trans hsequence
      exact ⟨hplace, hlt, hbuffered⟩

theorem bufferFutureForward (h : record.Keeps)
    (hsequence : record.nextSequence ≤ req.operation.sequence)
    (hok : reduceBufferFutureForward record req limits = .ok next) : next.Keeps := by
  rw [reduceBufferFutureForward] at hok
  split at hok
  · split at hok
    · cases hok
      exact h
    · cases hok
  · obtain ⟨_, _, hnext⟩ := Lib.bind_eq_ok.mp hok
    cases hnext
    -- What is kept has a smaller sequence than the one that is buffered.
    have missed : ∀ sequence : Nat, sequence < record.nextSequence →
        record.bufferedForwards[sequence]? = none →
        (record.bufferedForwards.insert req.operation.sequence req)[sequence]? = none := by
      intro sequence hlt hnone
      rw [Lib.getElem?_insert_ite, if_neg (by omega)]
      exact hnone
    refine ⟨h.live, ?_, ?_⟩
    · intro sequence held hheld
      have ⟨hplace, hlt, hbuffered⟩ := h.staged sequence held hheld
      exact ⟨hplace, hlt, missed sequence hlt hbuffered⟩
    · intro sequence held hheld
      have ⟨hplace, hlt, hbuffered⟩ := h.recent sequence held hheld
      exact ⟨hplace, hlt, missed sequence hlt hbuffered⟩

theorem stageForward (h : record.Keeps) (hsequence : req.operation.sequence = record.nextSequence) :
    (reduceStageForward record req).Keeps := by
  have dropped : ∀ sequence : Nat, record.bufferedForwards[sequence]? = none →
      (record.bufferedForwards.erase req.operation.sequence)[sequence]? = none := by
    intro sequence hnone
    rw [Lib.getElem?_erase_ite]
    split
    · rfl
    · exact hnone
  rw [reduceStageForward]
  dsimp only
  split
  · exact h.of_kept rfl le_rfl (fun _ held hheld => ⟨held, hheld, rfl⟩) rfl dropped
  · refine ⟨h.live, ?_, ?_⟩
    · intro sequence held hheld
      have hstaged : (record.stagedForwards.insert req.operation.sequence req)[sequence]? =
          some held := hheld
      rw [Lib.getElem?_insert_ite] at hstaged
      split at hstaged
      · rename_i heq
        cases hstaged
        refine ⟨heq, ?_, ?_⟩
        · have hle : sequence ≤ record.nextSequence := (heq.symm.trans hsequence).le
          exact Nat.lt_succ_of_le hle
        · exact heq ▸ Std.ExtTreeMap.getElem?_erase_self
      · have ⟨hplace, hlt, hbuffered⟩ := h.staged sequence held hstaged
        exact ⟨hplace, Nat.lt_succ_of_lt hlt, dropped sequence hbuffered⟩
    · intro sequence held hheld
      have ⟨hplace, hlt, hbuffered⟩ := h.recent sequence held hheld
      exact ⟨hplace, Nat.lt_succ_of_lt hlt, dropped sequence hbuffered⟩

theorem forwardWrite {reduction : Reduction} (h : record.Keeps)
    (hok : reduceForwardWrite record req limits = .ok reduction) : reduction.record.Keeps := by
  rw [reduceForwardWrite] at hok
  obtain ⟨_, _, hok⟩ := Lib.bind_eq_ok.mp hok
  split at hok
  · obtain ⟨_, _, hok⟩ := Lib.bind_eq_ok.mp hok
    cases hok
    exact h
  · split at hok
    · obtain ⟨next, hnext, hok⟩ := Lib.bind_eq_ok.mp hok
      cases hok
      exact h.bufferFutureForward (by omega) hnext
    · cases hok
      exact h.stageForward (by omega)

theorem synced (h : record.Keeps) (highest : Nat) :
    (NodeSlot.reduceSyncedPredecessorState record highest).Keeps := by
  have ⟨hnext, staged, recent, buffered, state⟩ :=
    reduceSyncedPredecessorState_forwards record highest
  refine h.of_kept state (hnext ▸ le_max_left _ _) ?_ recent ?_
  · intro sequence held hheld
    rw [staged, Std.ExtTreeMap.getElem?_filter'] at hheld
    exact ⟨held, (Option.filter_eq_some_iff.mp hheld).1, rfl⟩
  · intro sequence hnone
    rw [buffered, Std.ExtTreeMap.getElem?_filter', hnone]
    rfl

theorem retargetForwards_eq_none {forwards : SequenceMap ForwardWriteRequest} {sequence : Nat}
    (h : forwards[sequence]? = none) :
    (NodeSlot.retargetForwards record forwards)[sequence]? = none := by
  rw [NodeSlot.retargetForwards, Std.ExtTreeMap.getElem?_map, Std.ExtTreeMap.getElem?_filter', h]
  rfl

theorem reassigned (h : record.Keeps) (assignment : ReplicaAssignment) :
    (NodeSlot.reassigned record assignment).Keeps := by
  have placed : (NodeSlot.withAssignment record assignment).Keeps := h.congr rfl le_rfl rfl rfl rfl
  have followed : (NodeSlot.followPredecessor record.assignment
      (NodeSlot.withAssignment record assignment)).Keeps := by
    rw [NodeSlot.followPredecessor]
    split
    · refine placed.of_kept rfl le_rfl ?_ rfl ?_
      · intro sequence held hheld
        exact retargetForwards_operation hheld
      · intro sequence hnone
        exact retargetForwards_eq_none hnone
    · exact placed
  rw [NodeSlot.reassigned, NodeSlot.followSuccessor]
  dsimp only
  repeat' split
  · exact followed
  · exact followed.congr rfl le_rfl rfl rfl rfl
  · exact followed.congr rfl le_rfl rfl rfl rfl

end ReplicaRecord.Keeps

/-! ## Runs -/

theorem ReplicaRecord.keeps_stable : ReplicaRecord.Stable ReplicaRecord.Keeps where
  empty := .of_empty nofun rfl rfl
  live := fun h => h.live
  confirmed := fun _ h => h.congr rfl le_rfl rfl rfl rfl
  advanced := fun _ h => h.congr rfl le_rfl rfl rfl rfl
  prepared := fun _ h => h.congr rfl le_rfl rfl rfl rfl
  committed := fun h hnext => h.retains (commitNext_retains hnext)
  interrupted := by
    intro record changed _ commits hchanged
    have retains := commits.retains
    exact hchanged.congr retains.state.symm retains.sequence.le rfl rfl retains.buffered.symm
  pruned := fun _ h => h.congr rfl le_rfl rfl rfl rfl
  released := fun _ h => h.congr rfl le_rfl rfl rfl rfl
  restated := fun _ h hstate => ⟨hstate, h.staged, h.recent⟩
  submitted := fun h _ => h.congr rfl (Nat.le_succ _) rfl rfl rfl
  synced := fun highest h => h.synced highest
  joining := fun _ => .of_empty nofun rfl rfl
  joined := fun _ _ => .of_empty nofun rfl rfl
  rebuilt := fun _ _ => .of_empty nofun rfl rfl
  reassigned := fun assignment h => h.reassigned assignment

theorem NodeSlot.keeps_takesForward {n : NodeSlot} (h : n.record.Keeps) :
    n.TakesForward ReplicaRecord.Keeps where
  aside := fun _ _ _ hsequence hok => h.bufferFutureForward hsequence.ge hok
  reduced := fun _ hok => h.forwardWrite hok

theorem reaches_keeps {config : NodeConfig} {n : NodeSlot}
    (h : Reaches NodeSlot.take (fun _ input => input.Continues = true) { config } n) :
    n.core.Carries ReplicaRecord.Keeps := by
  apply h.invariant
  · exact .fresh ReplicaRecord.keeps_stable config
  · intro state input next hstate hinput hstep
    exact hstate.take ReplicaRecord.keeps_stable hinput
      (fun _ => NodeSlot.keeps_takesForward hstate.record) hstep

/-- The predecessor of a replica may send a kept operation again exactly when the operation had come
from that same node. -/
theorem kept_forward_repeats {config : NodeConfig} {n : NodeSlot} {sequence : Nat}
    {held : ForwardWriteRequest}
    (h : Reaches NodeSlot.take (fun _ input => input.Continues = true) { config } n)
    (hheld : heldForward n.record sequence = some held) :
    n.record.Repeats sequence held ↔
      held.fromNodeID = n.record.assignment.peers.predecessorNodeID ∧ held.fromNodeID ≠ "" :=
  (reaches_keeps h).record.repeats_iff hheld

/-! ## A tail whose predecessor changes -/

def tailAfter (predecessor : String) (chainVersion : Nat) : ReplicaAssignment where
  chainVersion
  role := .tail
  peers := { predecessorNodeID := predecessor, tailNodeID := "c" }

def putOperation (sequence : Nat) (value : String) : WriteOperation where
  slot := 0
  sequence
  kind := .put
  key := "k"
  value
  metadata := { version := sequence }

def forwardFrom (sender : String) (chainVersion : Nat) (operation : WriteOperation) :
    ForwardWriteRequest where
  operation
  fromNodeID := sender
  chainVersion

def receive (req : ForwardWriteRequest) : List NodeInput :=
  [.message (.forward "c" req), .event .task]

def joinBehind : List NodeInput :=
  [.event (.command (.addReplicaAsTail (tailAfter "b" 1))), .snapshot (∅, 0), .event (.replied true)]

def stageOne : List NodeInput :=
  joinBehind ++ receive (forwardFrom "b" 1 (putOperation 1 "v"))

theorem stageOne_runs :
    (run NodeSlot.take stageOne { config := plainConfig "c" }).isSome = true := by
  decide +kernel

theorem stageOne_continues : ∀ input ∈ stageOne, input.Continues = true := by
  decide

def stagedOne : NodeSlot :=
  (run NodeSlot.take stageOne { config := plainConfig "c" }).get stageOne_runs

/-- The same node sends the staged operation once more. -/
theorem stagedOne_repeats :
    heldForward stagedOne.record 1 = some (forwardFrom "b" 1 (putOperation 1 "v")) ∧
      stagedOne.record.Repeats 1 (forwardFrom "b" 1 (putOperation 1 "v")) := by
  have reached : Reaches NodeSlot.take (fun _ input => input.Continues = true)
      { config := plainConfig "c" } stagedOne :=
    .of_run (fun input hmem _ => stageOne_continues input hmem) (Option.some_get stageOne_runs).symm
  have hheld : heldForward stagedOne.record 1 = some (forwardFrom "b" 1 (putOperation 1 "v")) := by
    decide +kernel
  refine ⟨hheld, (kept_forward_repeats reached hheld).mpr ?_⟩
  decide +kernel

def loseB : List NodeInput :=
  stageOne ++ [.event (.command (.updateChainPeers (tailAfter "a" 2)))]

theorem loseB_runs :
    (run NodeSlot.take loseB { config := plainConfig "c" }).isSome = true := by
  decide +kernel

theorem loseB_continues : ∀ input ∈ loseB, input.Continues = true := by
  decide

def lostB : NodeSlot :=
  (run NodeSlot.take loseB { config := plainConfig "c" }).get loseB_runs

def Reduction.refusedBy (sentinel : Sentinel) : Except Error Reduction → Bool
  | .error err => err.is sentinel
  | .ok _ => false

/-- The new predecessor sends the operation the replica has staged and is refused. -/
theorem new_predecessor_refused :
    Reaches NodeSlot.take (fun _ input => input.Continues = true)
        { config := plainConfig "c" } lostB ∧
      heldForward lostB.record 1 = some (forwardFrom "b" 1 (putOperation 1 "v")) ∧
      lostB.record.FromPredecessor (forwardFrom "a" 2 (putOperation 1 "v")) ∧
      Reduction.refusedBy .peerMismatch (reduceForwardWrite lostB.record
        (forwardFrom "a" 2 (putOperation 1 "v")) lostB.bufferLimits) = true ∧
      ¬ lostB.record.Repeats 1 (forwardFrom "b" 1 (putOperation 1 "v")) := by
  have refused : Reduction.refusedBy .peerMismatch (reduceForwardWrite lostB.record
      (forwardFrom "a" 2 (putOperation 1 "v")) lostB.bufferLimits) = true := by
    decide +kernel
  have sent : lostB.record.FromPredecessor (forwardFrom "a" 2 (putOperation 1 "v")) := by
    rw [ReplicaRecord.FromPredecessor]
    decide +kernel
  refine ⟨?_, ?_, sent, refused, ?_⟩
  · exact .of_run (fun input hmem _ => loseB_continues input hmem)
      (Option.some_get loseB_runs).symm
  · decide +kernel
  · intro repeats
    have ignored := repeats.same (forwardFrom "a" 2 (putOperation 1 "v")) lostB.bufferLimits rfl sent
    rw [ignored] at refused
    cases refused

end Craq.Storage
