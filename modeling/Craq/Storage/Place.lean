import Craq.Storage.Prepared

/-! # The place of a replica in its chain

The assignment a node holds for its slot changes only in the handlers of the coordinator's commands.
Everything else the owner does leaves the assignment and the state as they are.
-/

namespace Craq.Storage

open Lib (Reaches run guarded)

/-! ## Records -/

/-- The record is of the same place in the chain and in the same state. -/
structure ReplicaRecord.SamePlace (record next : ReplicaRecord) : Prop where
  assignment : next.assignment = record.assignment
  state : next.state = record.state

namespace ReplicaRecord.SamePlace

variable {record middle next : ReplicaRecord}

theorem refl (record : ReplicaRecord) : record.SamePlace record := ⟨rfl, rfl⟩

theorem trans (first : record.SamePlace middle) (second : middle.SamePlace next) :
    record.SamePlace next :=
  ⟨second.assignment.trans first.assignment, second.state.trans first.state⟩

end ReplicaRecord.SamePlace

theorem reduceForwardWrite_samePlace {record reduced : ReplicaRecord} {req : ForwardWriteRequest}
    {limits : BufferLimits} {action : ReducerAction}
    (h : reduceForwardWrite record req limits = .ok ⟨reduced, action⟩) :
    record.SamePlace reduced := by
  rcases reduceForwardWrite_cases h with ⟨-, rfl⟩ | ⟨-, -, hok⟩ | ⟨-, -, rfl⟩
  · exact .refl _
  · obtain ⟨buffered, rfl⟩ := reduceBufferFutureForward_eq hok
    exact ⟨rfl, rfl⟩
  · have ⟨assignment, state, _⟩ := reduceStageForward_counters record req
    exact ⟨assignment, state⟩

theorem replayEntry_samePlace (record : ReplicaRecord) (entry : JournalEntry) :
    record.SamePlace (replayEntry record entry) := by
  cases entry with
  | upstreamConfirm sequence | prepare operation => exact ⟨rfl, rfl⟩
  | commitWatermark sequence | headCommitRange sequence =>
    simp only [replayEntry]
    split <;> exact ⟨rfl, rfl⟩
  | legacyCommit operation confirmed => exact ⟨rfl, rfl⟩

theorem replayJournal_samePlace (journal : List JournalRecord) (record : ReplicaRecord) :
    record.SamePlace (journal.foldl replayJournalRecord record) := by
  induction journal generalizing record with
  | nil => exact .refl _
  | cons entry journal ih =>
    have replayed : record.SamePlace (replayJournalRecord record entry) := by
      simp only [replayJournalRecord]
      split
      · exact .refl _
      · have := replayEntry_samePlace record entry.entry
        exact ⟨this.assignment, this.state⟩
    exact replayed.trans (ih _)

theorem commitPreparedTail_samePlace (record : ReplicaRecord) :
    record.SamePlace (commitPreparedTail record) := by
  simp only [commitPreparedTail]
  split <;> exact ⟨rfl, rfl⟩

theorem persistedRecord_place (persisted : PersistedReplica) (backend : Option ReplicaData) :
    (persistedRecord persisted backend).assignment = persisted.assignment ∧
      (persistedRecord persisted backend).state = .recovered := by
  cases backend <;> exact ⟨rfl, rfl⟩

theorem openReplica_place (persisted : PersistedReplica) (backend : Option ReplicaData)
    (journal : List JournalRecord) :
    (openReplica persisted backend journal).record.assignment = persisted.assignment ∧
      (openReplica persisted backend journal).record.state = .recovered := by
  have replayed := replayJournal_samePlace journal (persistedRecord persisted backend)
  have committed := replayed.trans (commitPreparedTail_samePlace _)
  have held := persistedRecord_place persisted backend
  rw [openReplica, recoverJournaledReplicaState, foldl_recordWithCommittedOverlay_eq]
  exact ⟨committed.assignment.trans held.1, committed.state.trans held.2⟩

/-! ## Places -/

/-- What a node knows of its place: whether it has a replica, the assignment and the state of the
replica, and whether its owner is about to end. -/
structure Place where
  present : Bool
  assignment : ReplicaAssignment
  state : ReplicaState
  closing : Bool

def NodeSlot.place (n : NodeSlot) : Place where
  present := n.runtime.present
  assignment := n.record.assignment
  state := n.record.state
  closing := n.closing

/-- No replica is kept as removed, and an owner ends only without one. -/
structure Place.Settled (place : Place) : Prop where
  state : place.state ≠ .removed
  closing : place.closing = true → place.present = false

/-- A record the owner has taken along is of the place. -/
structure Place.Owns (place : Place) (record : ReplicaRecord) : Prop where
  assignment : record.assignment = place.assignment
  state : record.state = place.state
  absent : place.present = false → record = {}

/-- A task that gives the replica no new place. -/
def Task.Quiet (place : Place) : Task → Prop
  | .submitCommitWatermarkReady record => place.Owns record
  | .gapRepaired record => place.Owns record
  | .advanceAfterGapCheck record => place.Owns record
  | .awaitSnapshot use _ _ => use.Activates
  | .awaitTail (.resume _) _ _ => False
  | _ => True

/-- The node is at the place and has nothing to do that would change it. -/
structure NodeSlot.Stands (place : Place) (n : NodeSlot) : Prop where
  here : n.place = place
  absent : n.runtime.present = false → n.record = {}
  tasks : ∀ task ∈ n.tasks, task.Quiet place

theorem NodeSlot.Stands.congr {place : Place} {n next : NodeSlot} (h : n.Stands place)
    (here : next.place = n.place) (record : next.record = n.record)
    (tasks : next.tasks = n.tasks) : next.Stands place where
  here := here.trans h.here
  absent := by
    intro habsent
    have : next.runtime.present = n.runtime.present := congrArg Place.present here
    rw [record]
    exact h.absent (this ▸ habsent)
  tasks := tasks ▸ h.tasks

/-! ## What the owner does by itself -/

def Core.place (c : Core) : Place where
  present := c.present
  assignment := c.record.assignment
  state := c.record.state
  closing := c.closing

/-- The data is that of a replica at the place, and nothing is on its way that would change it. -/
structure Core.Stands (place : Place) (c : Core) : Prop where
  here : c.place = place
  absent : c.present = false → c.record = {}
  copied : ∀ record ∈ c.copies, place.Owns record
  ready : ∀ record ∈ c.ready, place.Owns record
  awaits : ∀ awaited ∈ c.awaits, awaited.1.Activates
  answers : ∀ answer ∈ c.answers, answer.1.Activates
  resumes : c.resumes = []

theorem Task.quiet_iff {place : Place} {task : Task} :
    task.Quiet place ↔ (∀ record ∈ task.copies, place.Owns record) ∧
      (∀ record ∈ task.ready, place.Owns record) ∧ (∀ awaited ∈ task.awaits, awaited.1.Activates) ∧
      (∀ answer ∈ task.answers, answer.1.Activates) ∧ task.resumes = [] := by
  cases task with
  | awaitSnapshot use source reply =>
    cases reply <;> simp [Quiet, copies, ready, awaits, answers, resumes]
  | awaitTail use source reply =>
    cases use <;> simp [Quiet, copies, ready, awaits, answers, resumes]
  | _ => simp [Quiet, copies, ready, awaits, answers, resumes]

/-- A call to another node brings no snapshot but one to catch up with. -/
theorem RemoteCall.answers_activate (calls : List RemoteCall) :
    ∀ answer ∈ calls.flatMap RemoteCall.answers, answer.1.Activates := by
  intro answer hmem
  obtain ⟨call, -, hanswer⟩ := List.mem_flatMap.mp hmem
  cases call with
  | catchup plan reply =>
    cases reply with
    | none => cases hanswer
    | some reply => exact ⟨plan, congrArg Prod.fst (List.mem_singleton.mp hanswer)⟩
  | _ => cases hanswer

theorem NodeSlot.stands_iff {place : Place} {n : NodeSlot} :
    n.Stands place ↔ n.core.Stands place := by
  have calls := RemoteCall.answers_activate n.calls
  constructor
  · intro h
    have quiet := fun task hmem => Task.quiet_iff.mp (h.tasks task hmem)
    refine ⟨h.here, h.absent, ?_, ?_, ?_, List.forall_mem_append.mpr ⟨?_, calls⟩, ?_⟩
    · exact List.forall_mem_flatMap.mpr fun task hmem => (quiet task hmem).1
    · exact List.forall_mem_flatMap.mpr fun task hmem => (quiet task hmem).2.1
    · exact List.forall_mem_flatMap.mpr fun task hmem => (quiet task hmem).2.2.1
    · exact List.forall_mem_flatMap.mpr fun task hmem => (quiet task hmem).2.2.2.1
    · exact List.flatMap_eq_nil_iff.mpr fun task hmem => (quiet task hmem).2.2.2.2
  · intro h
    refine ⟨h.here, h.absent, fun task hmem => Task.quiet_iff.mpr ⟨?_, ?_, ?_, ?_, ?_⟩⟩
    · exact List.forall_mem_flatMap.mp h.copied task hmem
    · exact List.forall_mem_flatMap.mp h.ready task hmem
    · exact List.forall_mem_flatMap.mp h.awaits task hmem
    · exact List.forall_mem_flatMap.mp (List.forall_mem_append.mp h.answers).1 task hmem
    · exact List.flatMap_eq_nil_iff.mp h.resumes task hmem

/-- Everything but a crash, the end of the owner and the commands that give a replica a place. -/
def NodeInput.Ordinary : NodeInput → Bool
  | .restart => false
  | .event .evict => false
  | .event (.command .prepareActivation) => true
  | .event (.command _) => false
  | _ => true

namespace Core.Stands

variable {place : Place} {n : NodeSlot} {input : NodeInput} {c d : Core}

theorem present_eq (h : c.Stands place) : place.present = c.present :=
  h.here ▸ rfl

theorem owns (h : c.Stands place) : place.Owns c.record := by
  rw [← h.here]
  exact ⟨rfl, rfl, h.absent⟩

theorem set (h : c.Stands place) {record : ReplicaRecord} (present : c.present = true)
    (same : c.record.SamePlace record) : (c.set record).Stands place where
  here := by
    rw [← h.here]
    simp only [Core.place, Core.set, present, same.assignment, same.state]
  absent := nofun
  copied := h.copied
  ready := h.ready
  awaits := h.awaits
  answers := h.answers
  resumes := h.resumes

theorem congr (h : c.Stands place) (here : d.place = c.place) (record : d.record = c.record)
    (copies : d.copies = c.copies) (ready : d.ready = c.ready) (awaits : d.awaits = c.awaits)
    (answers : d.answers = c.answers) (resumes : d.resumes = c.resumes) : d.Stands place where
  here := here.trans h.here
  absent := by
    have : d.present = c.present := congrArg Place.present here
    rw [this, record]
    exact h.absent
  copied := copies ▸ h.copied
  ready := ready ▸ h.ready
  awaits := awaits ▸ h.awaits
  answers := answers ▸ h.answers
  resumes := resumes ▸ h.resumes

theorem present_of_serving (h : c.Stands place) (serving : c.record.Serving) :
    c.present = true := by
  by_contra habsent
  rw [h.absent (Bool.eq_false_iff.mpr habsent)] at serving
  rcases serving with hstate | hstate <;> cases hstate

theorem present_of_feeds (h : n.core.Stands place) {req : ForwardWriteRequest}
    (feeds : n.Feeds req) : n.core.present = true := by
  cases feeds with
  | received due serving taken => exact h.present_of_serving serving
  | drained due buffered =>
    by_contra habsent
    have empty : n.record = {} := h.absent (Bool.eq_false_iff.mpr habsent)
    rw [empty] at buffered
    simp at buffered

/-- The place is kept by whatever an ordinary input does. -/
theorem effect (ordinary : input.Ordinary = true) (start : n.core.Stands place)
    (h : c.Stands place) (effect : Effect n input c d) : d.Stands place := by
  have same_present : c.present = n.core.present := h.present_eq.symm.trans start.present_eq
  cases effect with
  | carry copied submitted worked awaited answered resumed called =>
    refine ⟨h.here, h.absent, ?_, ?_, fun use hmem => h.awaits use (awaited hmem),
      fun answer hmem => h.answers answer (answered hmem), ?_⟩
    · intro copy hmem
      rcases copied copy hmem with hheld | rfl
      · exact h.copied copy hheld
      · exact h.owns
    · intro copy hmem
      rcases submitted copy hmem with hheld | ⟨rfl, -⟩ | ⟨hheld, -⟩
      · exact h.ready copy hheld
      · exact h.owns
      · exact h.copied copy hheld
    · exact List.sublist_nil.mp (h.resumes ▸ resumed)
  | await asks awaited =>
    refine ⟨h.here, h.absent, h.copied, h.ready, ?_, h.answers, h.resumes⟩
    intro use hmem
    rcases List.mem_cons.mp (awaited hmem) with rfl | hheld
    · rw [NodeSlot.Asks.eq_def] at asks
      split at asks
      · cases ordinary
      · exact ⟨_, asks.1⟩
      · cases ordinary
      · cases asks
    · exact h.awaits use hheld
  | answer served answered =>
    refine ⟨h.here, h.absent, h.copied, h.ready, h.awaits, ?_, h.resumes⟩
    intro answer hmem
    rcases List.mem_cons.mp (answered hmem) with rfl | hheld
    · rcases served.awaited with hactivates | ⟨source, hawaited⟩
      · exact hactivates
      · exact start.awaits _ hawaited
    · exact h.answers answer hheld
  | confirmHead present first => exact h.set present ⟨rfl, rfl⟩
  | commit same present positive token durable committed =>
    obtain ⟨through, _⟩ := confirmedAtHead_through committed
    exact (h.set present ⟨through.assignment, through.state⟩).congr rfl rfl rfl rfl rfl rfl rfl
  | interrupt same present durable stopped =>
    refine ⟨h.here, ?_, h.copied, h.ready, h.awaits, h.answers, h.resumes⟩
    intro habsent
    exact Bool.noConfusion (present.symm.trans habsent)
  | raise submitted last behind =>
    have owned := h.ready _ submitted
    have present : c.present = true := by
      by_contra habsent
      have absent : place.present = false := h.present_eq.trans (Bool.eq_false_iff.mpr habsent)
      rw [owned.absent absent] at behind
      cases behind
    have own := h.owns
    exact h.set present ⟨owned.assignment.trans own.assignment.symm,
      owned.state.trans own.state.symm⟩
  | prepare present reported => exact h.set present ⟨rfl, rfl⟩
  | advance taken due serving valid => exact h.set (h.present_of_serving serving) ⟨rfl, rfl⟩
  | prune present applied => exact h.set present ⟨rfl, rfl⟩
  | submit taken accepts same =>
    have active := accepts.active
    simp only [NodeSlot.activeRecord, Lib.ite_error_eq_ok] at active
    have present : n.runtime.present = true := by simpa using active.1
    refine h.set (same_present.trans present) ?_
    rw [same]
    exact ⟨rfl, rfl⟩
  | release present => exact h.set present ⟨rfl, rfl⟩
  | putAside taken due same serving aside sequence ok =>
    obtain ⟨buffered, rfl⟩ := reduceBufferFutureForward_eq ok
    exact h.set (h.present_of_serving serving) ⟨rfl, rfl⟩
  | buffer taken feeds same ok =>
    exact h.set (same_present.trans (start.present_of_feeds feeds))
      (reduceForwardWrite_samePlace ok)
  | stage taken feeds same ok =>
    have moved := h.set (same_present.trans (start.present_of_feeds feeds))
      (reduceForwardWrite_samePlace ok)
    exact moved.congr rfl rfl rfl rfl rfl rfl rfl
  | confirm taken returned present same behind before => exact h.set present ⟨rfl, rfl⟩
  | sync answered same present version node target ahead stored =>
    rename_i plan snapshot highest
    obtain ⟨assignment, state, _⟩ := reduceSyncedPredecessorState_counters c.record highest
    have moved := h.set present ⟨assignment, state⟩
    exact moved.congr rfl rfl rfl rfl rfl rfl rfl
  | create taken | found taken => rw [taken] at ordinary; cases ordinary
  | join answered =>
    obtain ⟨plan, hplan⟩ := start.answers _ (NodeSlot.delivered_mem answered)
    cases hplan
  | abandon due =>
    rcases due with ⟨source, reply, due⟩ | ⟨taken, -⟩
    · obtain ⟨plan, hplan⟩ := start.awaits _ (NodeSlot.mem_awaits due)
      cases hplan
    · rw [taken] at ordinary
      cases ordinary
  | restate present next taken => rcases taken with rfl | rfl <;> cases ordinary
  | reassign taken => rw [taken] at ordinary; cases ordinary
  | resume resumes recovered same =>
    rcases recovered with - | hresumed
    · rw [NodeSlot.resumption.eq_def] at resumes
      split at resumes
      · cases ordinary
      · split at resumes
        · rename_i given source reply rest htasks
          have : given ∈ n.core.resumes := by
            simp [NodeSlot.core, NodeSlot.coreWith, htasks, Task.resumes]
          rw [start.resumes] at this
          cases this
        · cases resumes
      · cases resumes
    · rw [start.resumes] at hresumed
      cases hresumed
  | awaitTail taken => rw [taken] at ordinary; cases ordinary
  | remove taken => rcases taken with rfl | rfl <;> cases ordinary
  | vanish taken | evict taken => rw [taken] at ordinary; cases ordinary
  | rebuild answered =>
    obtain ⟨plan, hplan⟩ := start.answers _ (NodeSlot.delivered_mem answered)
    cases hplan
  | flush taken first reported worked => exact start.congr rfl rfl rfl rfl rfl rfl rfl
  | materialize =>
    rcases c.materialize_cases with hsame | hdropped | ⟨_, _, _, _, -, -, -, htaken⟩
    · rw [hsame]
      exact h
    · rw [hdropped]
      exact h.congr rfl rfl rfl rfl rfl rfl rfl
    · rw [htaken]
      exact h.congr rfl rfl rfl rfl rfl rfl rfl
  | restart taken => rw [taken] at ordinary; cases ordinary
  | _ => exact h.congr rfl rfl rfl rfl rfl rfl rfl

end Core.Stands

theorem NodeSlot.Stands.take {place : Place} {n next : NodeSlot} {input : NodeInput}
    (h : n.Stands place) (ordinary : input.Ordinary = true)
    (htake : n.take input = some next) : next.Stands place := by
  have start := NodeSlot.stands_iff.mp h
  refine NodeSlot.stands_iff.mpr (n.take_keeps htake start ?_)
  exact fun stands effect => Core.Stands.effect ordinary start stands effect

/-! ## What runs beside the owner -/

/-- A step of the journal, the materializer or the coordinator that the owner does not notice. -/
structure NodeSlot.Beside (n next : NodeSlot) : Prop where
  place : next.place = n.place
  record : next.record = n.record
  tasks : next.tasks = n.tasks

namespace NodeSlot.Beside

variable {n next : NodeSlot}

theorem flushPrepare {err : Option Error} (hflush : n.flushPrepare err = some next) :
    n.Beside next := by
  simp only [NodeSlot.flushPrepare] at hflush
  split at hflush
  · cases hflush
  · cases hflush
    exact ⟨rfl, rfl, rfl⟩

theorem flushCommitRange {chainVersion count : Nat} {err : Option Error}
    (hflush : n.flushCommitRange chainVersion count err = some next) : n.Beside next := by
  simp only [NodeSlot.flushCommitRange] at hflush
  split at hflush
  · cases hflush
  split at hflush <;> cases hflush <;> exact ⟨rfl, rfl, rfl⟩

theorem flushConfirm {chainVersion count : Nat} {err : Option Error}
    (hflush : n.flushConfirm chainVersion count err = some next) : n.Beside next := by
  simp only [NodeSlot.flushConfirm] at hflush
  split at hflush
  · cases hflush
  · cases hflush
    exact ⟨rfl, rfl, rfl⟩

theorem materialize (n : NodeSlot) : n.Beside n.materialize := by
  simp only [NodeSlot.materialize]
  (repeat' split) <;> exact ⟨rfl, rfl, rfl⟩

theorem readyReported (n : NodeSlot) (accepted : Bool) : n.Beside (n.readyReported accepted) := by
  simp only [NodeSlot.readyReported]
  split <;> exact ⟨rfl, rfl, rfl⟩

end NodeSlot.Beside

end Craq.Storage
