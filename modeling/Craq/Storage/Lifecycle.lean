import Craq.Storage.Moves

/-! # The life of a replica, crashes included

A replica that was reopened keeps no forward until it is resumed, and one that begins anew keeps none
either.  From there on it keeps forwards under their own sequences.  So in no run at all does a
replica keep a forward of a sequence that it has yet to give out.
-/

namespace Craq.Storage

open Lib (Reaches)

/-! ## Recovered replicas -/

/-- The record of a replica that was reopened and has not been resumed. -/
structure ReplicaRecord.Reopened (record : ReplicaRecord) : Prop where
  materialized : record.materializedCommittedSequence ≤ record.highestCommittedSequence
  named : record.Named
  staged : ∀ sequence : Nat, record.stagedForwards[sequence]? = none
  recent : ∀ sequence : Nat, record.recentCommittedForwards[sequence]? = none
  buffered : ∀ sequence : Nat, record.bufferedForwards[sequence]? = none

/-- If the record waits to be resumed, it is as it was reopened. -/
def ReplicaRecord.Resumable (record : ReplicaRecord) : Prop :=
  record.state = .recovered → record.Reopened

namespace ReplicaRecord.Reopened

variable {record next : ReplicaRecord}

variable (h : record.Reopened)

include h

theorem retains (retains : record.Retains next)
    (materialized : next.materializedCommittedSequence ≤ next.highestCommittedSequence)
    (entries : next.preparedEntries = record.preparedEntries) : next.Reopened where
  materialized := materialized
  named := by rw [Named, entries]; exact h.named
  staged := by
    intro sequence
    refine Option.eq_none_iff_forall_ne_some.mpr fun held hheld => ?_
    exact Option.some_ne_none held ((retains.staged sequence held hheld).symm.trans (h.staged sequence))
  recent := by
    intro sequence
    refine Option.eq_none_iff_forall_ne_some.mpr fun held hheld => ?_
    rcases retains.recent sequence held hheld with hrecent | ⟨place, hstaged, -⟩
    · exact Option.some_ne_none _ (hrecent.symm.trans (h.recent sequence))
    · exact Option.some_ne_none _ (hstaged.symm.trans (h.staged place))
  buffered := by rw [retains.buffered]; exact h.buffered

theorem pruned (highest : Nat) :
    (recordPruneMaterializedOverlay record highest).Reopened where
  materialized := min_le_right _ _
  named := by
    intro sequence operation hentry
    rw [recordPruneMaterializedOverlay, Std.ExtTreeMap.getElem?_filter'] at hentry
    exact h.named sequence operation (Option.filter_eq_some_iff.mp hentry).1
  staged := h.staged
  recent := h.recent
  buffered := h.buffered

theorem synced (highest : Nat) :
    (NodeSlot.reduceSyncedPredecessorState record highest).Reopened := by
  obtain ⟨-, -, entries, -, -, -, committed, -⟩ :=
    reduceSyncedPredecessorState_counters record highest
  obtain ⟨-, staged, recent, buffered, -⟩ := reduceSyncedPredecessorState_forwards record highest
  have materialized := reduceSyncedPredecessorState_materialized record highest
  refine ⟨(materialized.trans committed.symm).le, ?_, ?_, ?_, ?_⟩
  · rw [Named, entries]
    exact h.named
  · intro sequence
    rw [staged, Std.ExtTreeMap.getElem?_filter', h.staged]
    rfl
  · rw [recent]
    exact h.recent
  · intro sequence
    rw [buffered, Std.ExtTreeMap.getElem?_filter', h.buffered]
    rfl

theorem reassigned (assignment : ReplicaAssignment) :
    (NodeSlot.reassigned record assignment).Reopened := by
  have placed : (NodeSlot.withAssignment record assignment).Reopened := { h with }
  have followed : (NodeSlot.followPredecessor record.assignment
      (NodeSlot.withAssignment record assignment)).Reopened := by
    rw [NodeSlot.followPredecessor]
    split
    · exact { placed with
        staged := fun sequence => Keeps.retargetForwards_eq_none (placed.staged sequence)
        buffered := fun sequence => Keeps.retargetForwards_eq_none (placed.buffered sequence) }
    · exact placed
  rw [NodeSlot.reassigned, NodeSlot.followSuccessor]
  dsimp only
  repeat' split
  · exact followed
  · exact { followed with }
  · exact { followed with }

theorem replayed (entry : JournalRecord) : (replayJournalRecord record entry).Reopened := by
  have inserted : ∀ operation : WriteOperation, ∀ (sequence : Nat) (held : WriteOperation),
      (record.preparedEntries.insert operation.sequence operation)[sequence]? = some held →
        held.sequence = sequence := by
    intro operation sequence held hheld
    rw [Lib.getElem?_insert_ite] at hheld
    split at hheld
    · rename_i hplace
      cases hheld
      exact hplace
    · exact h.named sequence held hheld
  have replayed : (replayEntry record entry.entry).Reopened := by
    cases entry.entry with
    | prepare operation => exact { h with named := inserted operation }
    | commitWatermark sequence | headCommitRange sequence =>
      rw [replayEntry]
      split
      · rename_i hgrows
        exact { h with materialized := h.materialized.trans hgrows.le }
      · exact h
    | upstreamConfirm sequence => exact { h with }
    | legacyCommit operation confirmed =>
      exact { h with
        materialized := h.materialized.trans (le_max_left _ _), named := inserted operation }
  rw [replayJournalRecord]
  split
  · exact h
  · exact { replayed with }

theorem overlaid (operations : List WriteOperation) :
    (operations.foldl recordWithCommittedOverlay record).Reopened := by
  rw [foldl_recordWithCommittedOverlay_eq]
  exact { h with }

end ReplicaRecord.Reopened

/-- A replica is reopened with nothing but the journal has of it. -/
theorem openReplica_reopened (persisted : PersistedReplica) (backend : Option ReplicaData)
    (journal : List JournalRecord) : (openReplica persisted backend journal).record.Reopened := by
  have opened : (persistedRecord persisted backend).Reopened := by
    cases backend with
    | none => exact ⟨Nat.zero_le _, by simp [ReplicaRecord.Named, persistedRecord],
        fun _ => rfl, fun _ => rfl, fun _ => rfl⟩
    | some data => exact ⟨le_rfl, by simp [ReplicaRecord.Named, persistedRecord],
        fun _ => rfl, fun _ => rfl, fun _ => rfl⟩
  have replayed : (journal.foldl replayJournalRecord (persistedRecord persisted backend)).Reopened := by
    generalize persistedRecord persisted backend = record at opened
    induction journal generalizing record with
    | nil => exact opened
    | cons entry journal ih => exact ih _ (opened.replayed entry)
  refine ReplicaRecord.Reopened.overlaid ?_ _
  rw [commitPreparedTail]
  split
  · exact { replayed with
      materialized := replayed.materialized.trans (le_lastConsecutivePrepared _ _ _) }
  · exact replayed

theorem ReplicaRecord.resumable_framed : ReplicaRecord.Framed ReplicaRecord.Resumable where
  empty := nofun
  confirmed := fun _ h recovered => { h recovered with }
  advanced := fun _ h recovered => { h recovered with }
  prepared := fun _ h recovered => { h recovered with }
  committed := by
    intro limit progress next h hnext recovered
    obtain ⟨through, hcommitted, -⟩ := commitNext_through hnext
    have reopened := h (through.state.symm.trans recovered)
    refine reopened.retains (commitNext_retains hnext) ?_ through.entries
    rw [through.materialized, hcommitted]
    exact Nat.le_succ_of_le reopened.materialized
  interrupted := by
    intro record changed h commits hchanged recovered
    have reopened := hchanged (commits.retains.state.trans recovered)
    exact { h recovered with staged := reopened.staged, recent := reopened.recent }
  pruned := fun highest h recovered => (h recovered).pruned highest
  released := fun _ h recovered => { h recovered with }
  restated := fun _ _ live recovered => absurd recovered live
  synced := by
    intro record highest h recovered
    obtain ⟨-, state, -⟩ := reduceSyncedPredecessorState_counters record highest
    exact (h (state.symm.trans recovered)).synced highest
  joining := fun _ => nofun
  joined := fun _ _ => nofun
  rebuilt := fun _ _ => nofun
  reassigned := by
    intro record assignment h recovered
    obtain ⟨state, -⟩ := reassigned_counters record assignment
    exact (h (state.symm.trans recovered)).reassigned assignment

theorem NodeSlot.resumable_takesWrite (n : NodeSlot) (input : NodeInput) :
    n.TakesWrite ReplicaRecord.Resumable input := by
  intro req current taken accepts recovered
  have active := accepts.active
  simp only [NodeSlot.activeRecord, Lib.ite_error_eq_ok] at active
  have recovered : n.record.state = .recovered := recovered
  simp [recovered] at active

/-- A recovered replica takes no forward, and it has none that it could drain. -/
theorem NodeSlot.resumable_takesForward {n : NodeSlot} (h : n.record.Resumable) :
    n.TakesForward ReplicaRecord.Resumable where
  aside := by
    intro req buffered due serving aside hsequence hok recovered
    obtain ⟨forwards, rfl⟩ := reduceBufferFutureForward_eq hok
    exact absurd recovered serving.live
  reduced := by
    intro req reduced action feeds hok recovered
    have recovered := (reduceForwardWrite_samePlace hok).state.symm.trans recovered
    cases feeds with
    | received due serving taken => exact absurd recovered serving.live
    | drained due buffered => exact absurd (((h recovered).buffered _).symm.trans buffered) nofun

/-! ## Whole runs -/

structure NodeSlot.Lives (n : NodeSlot) : Prop where
  placed : n.Placed fun _ _ => True
  resumable : n.core.Holds ReplicaRecord.Resumable
  keeps : n.record.state ≠ .recovered → n.core.Carries ReplicaRecord.Keeps

namespace NodeSlot

variable {n next : NodeSlot}

theorem Enters.keeps {record : ReplicaRecord} (h : n.Enters record) (resumable : n.record.Resumable) :
    record.Keeps := by
  cases h with
  | removed | joined assignment highest | rebuilt assignment highest =>
    exact .of_empty nofun rfl rfl
  | resumed assignment recovered grown =>
    have reopened := resumable recovered
    refine ⟨nofun, ?_, ?_⟩
    · intro sequence held hheld
      exact absurd ((reopened.staged sequence).symm.trans hheld) nofun
    · intro sequence held hheld
      exact absurd ((reopened.recent sequence).symm.trans hheld) nofun

/-- An owner with nothing to do but to confirm its commits has taken no record along. -/
theorem carries_of_tasks {P : ReplicaRecord → Prop} (record : P n.record)
    (tasks : ∀ task ∈ n.tasks, task = .ensureUpstreamCommitReplay) : n.core.Carries P := by
  have empty {A : Type} (f : Task → List A) (hnone : f .ensureUpstreamCommitReplay = []) :
      n.tasks.flatMap f = [] := by
    refine List.flatMap_eq_nil_iff.mpr fun task hmem => ?_
    rw [tasks task hmem, hnone]
  refine ⟨record, ?_, ?_, empty Task.resumes rfl⟩
  · have copies : n.core.copies = [] := empty Task.copies rfl
    rw [copies]
    exact List.forall_mem_nil _
  · have ready : n.core.ready = [] := empty Task.ready rfl
    rw [ready]
    exact List.forall_mem_nil _

theorem restart_state (n : NodeSlot) : n.restart.record = {} ∨ n.restart.record.state = .recovered := by
  rw [restart]
  cases n.localState with
  | none => exact .inl rfl
  | some persisted => exact .inr (openReplica_place persisted n.backend n.journal).2

theorem restart_resumable (n : NodeSlot) : n.restart.core.Holds ReplicaRecord.Resumable := by
  rw [restart]
  cases n.localState with
  | none => exact ⟨by rintro ⟨⟩, List.forall_mem_nil _, List.forall_mem_nil _⟩
  | some persisted =>
    exact ⟨fun _ => openReplica_reopened persisted n.backend n.journal, List.forall_mem_nil _,
      List.forall_mem_nil _⟩

theorem Lives.fresh (config : NodeConfig) : ({ config } : NodeSlot).Lives where
  placed := by
    have moves : ({ config } : NodeSlot).Moves (fun _ _ => True) (fun _ => False) { config } :=
      moves_removed rfl rfl rfl
    exact moves.placed
  resumable := ⟨nofun, List.forall_mem_nil _, List.forall_mem_nil _⟩
  keeps := fun _ => .fresh ReplicaRecord.keeps_stable config

theorem Lives.moves {input : NodeInput} (h : n.Lives) (htake : n.take input = some next) :
    n.Moves (fun _ _ => True) (n.Adopts input) next :=
  h.placed.take (fun _ _ => trivial) htake

theorem Lives.take {input : NodeInput} (h : n.Lives) (htake : n.take input = some next) :
    next.Lives where
  placed := (h.moves htake).placed
  resumable := by
    refine n.take_keeps htake h.resumable fun held move => ?_
    refine .effect ReplicaRecord.resumable_framed (n.resumable_takesWrite input)
      (fun _ => resumable_takesForward h.resumable.record) (fun _ _ _ _ => nofun)
      (fun _ => n.restart_resumable) h.resumable held move
  keeps := by
    intro live
    rcases (h.moves htake).entry live with ⟨before, -⟩ | ⟨enters, tasks⟩
    · by_cases restarts : input = .restart
      · subst restarts
        cases htake
        rcases n.restart_state with empty | recovered
        · refine carries_of_tasks (empty ▸ .of_empty nofun rfl rfl) ?_
          rw [restart]
          cases n.localState <;> exact List.forall_mem_nil _
        · exact absurd recovered live
      · have continues : input.Continues = true := by
          cases input with
          | restart => exact absurd rfl restarts
          | _ => rfl
        exact (h.keeps before).take ReplicaRecord.keeps_stable continues
          (fun _ => keeps_takesForward (h.keeps before).record) htake
    · exact carries_of_tasks (enters.keeps h.resumable.record) tasks

end NodeSlot

theorem reaches_lives {config : NodeConfig} {n : NodeSlot} {allowed : NodeSlot → NodeInput → Prop}
    (h : Reaches NodeSlot.take allowed { config } n) : n.Lives :=
  h.invariant (.fresh config) fun _ _ _ lives _ htake => lives.take htake

end Craq.Storage
