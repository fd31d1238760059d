import Craq.Storage.Feed
import Craq.Storage.Serving

/-! # What the prepared watermark promises

A replica counts an operation as prepared once the journal reports that its record is appended, and
raises the watermark to the highest one reported.  Every operation up to the watermark is to be in
the journal or in the backend.
-/

namespace Craq.Storage

open Lib (Reaches run guarded)

/-! ## Durable operations -/

namespace Core

def applied (c : Core) : Nat :=
  c.backend.elim 0 (·.highestCommitted)

/-- The backend holds the sequence, or the journal holds the operation the replica has under it. -/
def Durable (c : Core) (sequence : Nat) : Prop :=
  sequence ≤ c.applied ∨ ∃ operation ∈ c.record.preparedEntries[sequence]?,
    ∃ entry ∈ c.journal, entry.entry = .prepare operation

instance (c : Core) (sequence : Nat) : Decidable (c.Durable sequence) :=
  inferInstanceAs (Decidable (_ ∨ ∃ operation ∈ c.record.preparedEntries[sequence]?,
    ∃ entry ∈ c.journal, entry.entry = .prepare operation))

/-- Everything up to the watermark is durable, and nothing above it is committed or has been
acknowledged to the predecessor. -/
structure Honest (c : Core) : Prop where
  durable : ∀ sequence ≤ c.record.highestPreparedDurable, c.Durable sequence
  committed : c.record.highestCommittedSequence ≤ c.record.highestPreparedDurable
  acknowledged : ∀ sequence ∈ c.acks, sequence ≤ c.record.highestPreparedDurable

/-- What is durable in one state is durable in the other. -/
structure Preserves (c d : Core) : Prop where
  applied : c.applied ≤ d.applied
  entries : ∀ (sequence : Nat) (operation : WriteOperation),
    c.record.preparedEntries[sequence]? = some operation →
      sequence ≤ d.applied ∨ d.record.preparedEntries[sequence]? = some operation
  journal : c.journal ⊆ d.journal

theorem Preserves.durable {c d : Core} (h : c.Preserves d) {sequence : Nat}
    (held : c.Durable sequence) : d.Durable sequence := by
  rcases held with happlied | ⟨operation, hentry, entry, hmem, hprepare⟩
  · exact .inl (happlied.trans h.applied)
  · rcases h.entries sequence operation hentry with happlied | hkept
    · exact .inl happlied
    · exact .inr ⟨operation, hkept, entry, h.journal hmem, hprepare⟩

def Intends (c : Core) (operation : WriteOperation) : Prop :=
  operation.sequence ≤ c.applied ∨
    c.record.preparedEntries[operation.sequence]? = some operation

theorem Preserves.intends {c d : Core} (h : c.Preserves d) {operation : WriteOperation}
    (held : c.Intends operation) : d.Intends operation := by
  rcases held with happlied | hentry
  · exact .inl (happlied.trans h.applied)
  · exact h.entries _ operation hentry

end Core

/-! ## Appends in order -/

/-- An operation is appended to the journal only when all those before it are durable. -/
def NodeSlot.AppendsInOrder (n : NodeSlot) (input : NodeInput) : Prop :=
  input = .event (.flushPrepare none) → ∀ commit ∈ n.core.prepares.head?,
    ∀ sequence < commit.operation.sequence, n.core.Durable sequence

instance (n : NodeSlot) (input : NodeInput) : Decidable (n.AppendsInOrder input) :=
  inferInstanceAs (Decidable (input = .event (.flushPrepare none) →
    ∀ commit ∈ n.core.prepares.head?, ∀ sequence < commit.operation.sequence,
      n.core.Durable sequence))

/-- The replica has just been given a snapshot, and nothing else is under way. -/
structure NodeSlot.Begins (n : NodeSlot) : Prop where
  present : n.runtime.present = true
  stored : n.backend.isSome = true
  record : ∃ assignment, n.record = NodeSlot.joinedRecord assignment n.core.applied ∨
    n.record = NodeSlot.rebuiltRecord assignment n.core.applied
  prepares : n.prepares = []
  completions : n.completions = []
  submitted : n.submitted = []
  materializing : n.materializing = []
  tasks : n.tasks = []
  calls : n.calls = []
  outbox : n.outbox = []

/-! ## The invariant -/

/-- What the backend and the journal hold of a replica in service. -/
structure Core.InOrder (c : Core) : Prop where
  stored : c.backend.isSome = true
  keyed : c.record.Keyed
  durable : ∀ sequence ≤ c.record.highestPreparedDurable, c.Durable sequence
  applied : c.applied ≤ c.record.highestCommittedSequence
  intended : ∀ commit ∈ c.prepares, c.Intends commit.operation
  reported : ∀ operation ∈ c.prepared, ∀ sequence ≤ operation.sequence, c.Durable sequence
  materialized : ∀ height ∈ c.materialized, height ≤ c.applied
  acknowledged : ∀ sequence ∈ c.acks, sequence ≤ c.record.highestCommittedSequence

namespace NodeSlot.Begins

variable {n : NodeSlot}

theorem counters (h : n.Begins) : n.record.preparedEntries = ∅ ∧
    n.record.highestPreparedDurable = n.core.applied ∧
      n.record.highestCommittedSequence = n.core.applied := by
  obtain ⟨assignment, hjoined | hrebuilt⟩ := h.record
  · rw [hjoined]
    exact ⟨rfl, rfl, rfl⟩
  · rw [hrebuilt]
    exact ⟨rfl, rfl, rfl⟩

theorem inOrder (h : n.Begins) : n.core.InOrder := by
  obtain ⟨entries, prepared, committed⟩ := h.counters
  refine ⟨h.stored, ?_, fun sequence hle => .inl (hle.trans prepared.le), committed.ge, ?_, ?_, ?_,
    ?_⟩
  · intro sequence operation hentry
    change n.record.preparedEntries[sequence]? = _ at hentry
    simp [entries] at hentry
  all_goals simp [core, coreWith, h.prepares, h.completions, h.outbox]

theorem watermarked (h : n.Begins) : n.core.Watermarked := by
  have record : n.record.state ≠ .pending ∧ n.record.Ordered ∧ n.record.Alone := by
    obtain ⟨assignment, hjoined | hrebuilt⟩ := h.record
    · rw [hjoined]
      exact ⟨nofun, .joined _ _, fun _ => le_rfl⟩
    · rw [hrebuilt]
      exact ⟨nofun, .rebuilt _ _, fun _ => le_rfl⟩
  obtain ⟨settled, ordered, alone⟩ := record
  refine ⟨h.present, settled, ordered, ?_, alone, ?_, ?_, ?_, ?_, ?_, ?_, ?_, ?_, ?_, ?_⟩
  · intro sequence operation hentry
    change n.record.preparedEntries[sequence]? = _ at hentry
    simp [h.counters.1] at hentry
  all_goals simp [core, coreWith, h.prepares, h.completions, h.submitted, h.materializing, h.tasks,
    h.calls]

theorem keeps (h : n.Begins) : n.core.Carries ReplicaRecord.Keeps := by
  have keeps : n.record.Keeps := by
    obtain ⟨assignment, hjoined | hrebuilt⟩ := h.record
    · rw [hjoined]
      exact ReplicaRecord.keeps_stable.joined _ _
    · rw [hrebuilt]
      exact ReplicaRecord.keeps_stable.rebuilt _ _
  refine ⟨keeps, ?_, ?_, ?_⟩
  all_goals simp [core, coreWith, h.tasks]

end NodeSlot.Begins

namespace Core.InOrder

variable {n : NodeSlot} {input : NodeInput} {c d : Core}

section

variable (h : c.InOrder)

include h

theorem honest (ordered : c.record.Ordered) : c.Honest where
  durable := h.durable
  committed := ordered.prepared
  acknowledged := fun sequence hmem => (h.acknowledged sequence hmem).trans ordered.prepared

variable {record : ReplicaRecord} {operation : WriteOperation}

/-- A change after which everything durable is still durable. -/
theorem preserve (preserves : c.Preserves (c.set record)) (keyed : record.Keyed)
    (prepared : record.highestPreparedDurable ≤ c.record.highestPreparedDurable)
    (raised : c.record.highestCommittedSequence ≤ record.highestCommittedSequence) :
    (c.set record).InOrder where
  stored := h.stored
  keyed := keyed
  durable := fun sequence hle => preserves.durable (h.durable sequence (hle.trans prepared))
  applied := h.applied.trans raised
  intended := fun commit hmem => preserves.intends (h.intended commit hmem)
  reported := fun operation hmem sequence hle =>
    preserves.durable (h.reported operation hmem sequence hle)
  materialized := h.materialized
  acknowledged := fun sequence hmem => (h.acknowledged sequence hmem).trans raised

theorem set (entries : record.preparedEntries = c.record.preparedEntries)
    (sequence : record.nextSequence = c.record.nextSequence)
    (prepared : record.highestPreparedDurable = c.record.highestPreparedDurable)
    (raised : c.record.highestCommittedSequence ≤ record.highestCommittedSequence) :
    (c.set record).InOrder := by
  refine h.preserve ⟨le_rfl, fun _ _ hentry => .inr (entries ▸ hentry), List.Subset.refl _⟩ ?_
    prepared.le raised
  rw [ReplicaRecord.Keyed, entries, sequence]
  exact h.keyed

theorem prepare (reported : operation ∈ c.prepared) :
    (c.set (NodeSlot.preparedRecord c.record operation)).InOrder := by
  have preserves : c.Preserves (c.set (NodeSlot.preparedRecord c.record operation)) :=
    ⟨le_rfl, fun _ _ hentry => .inr hentry, List.Subset.refl _⟩
  refine { h with durable := ?_ }
  intro sequence hle
  rcases le_max_iff.mp hle with hheld | hnew
  · exact preserves.durable (h.durable sequence hheld)
  · exact preserves.durable (h.reported operation reported sequence hnew)

theorem prune {highest : Nat} (applied : highest ∈ c.materialized) :
    (c.set (recordPruneMaterializedOverlay c.record highest)).InOrder := by
  have kept : ∀ sequence : Nat,
      (recordPruneMaterializedOverlay c.record highest).preparedEntries[sequence]? =
        c.record.preparedEntries[sequence]?.filter fun _ => !decide (sequence ≤ highest) := by
    intro sequence
    rw [recordPruneMaterializedOverlay, Std.ExtTreeMap.getElem?_filter']
  refine h.preserve ⟨le_rfl, ?_, List.Subset.refl _⟩ ?_ le_rfl le_rfl
  · intro sequence operation hentry
    by_cases hpruned : sequence ≤ highest
    · exact .inl (hpruned.trans (h.materialized highest applied))
    · right
      refine (kept sequence).trans ?_
      simpa [hentry] using hpruned
  · intro sequence operation hentry
    have hheld := (kept sequence).symm.trans hentry
    exact h.keyed sequence operation (Option.filter_eq_some_iff.mp hheld).1

theorem extend (given' : c.record.Extends record operation) :
    (c.set record).InOrder ∧ (c.set record).Intends operation := by
  have looked : ∀ place : Nat, record.preparedEntries[place]? =
      if operation.sequence = place then some operation else c.record.preparedEntries[place]? := by
    intro place
    rw [given'.entries]
    exact Lib.getElem?_insert_ite ..
  have hgiven := given'.given
  have hnext := given'.sequence
  refine ⟨h.preserve ⟨le_rfl, ?_, List.Subset.refl _⟩ ?_ given'.prepared.le given'.committed.ge,
    .inr ((looked _).trans (if_pos rfl))⟩
  · intro place held hheld
    have hlt := (h.keyed place held hheld).2
    exact .inr ((looked place).trans ((if_neg (by omega)).trans hheld))
  · intro place held hheld
    rw [looked] at hheld
    split at hheld
    · rename_i hplace
      cases hheld
      exact ⟨hplace, by omega⟩
    · obtain ⟨hsame, hlt⟩ := h.keyed place held hheld
      exact ⟨hsame, by omega⟩

theorem ask (intends : c.Intends operation) (record : ReplicaRecord) :
    (c.ask operation record).InOrder := by
  refine { h with intended := ?_ }
  intro commit hmem
  rcases List.mem_append.mp hmem with hheld | hnew
  · exact h.intended commit hheld
  · rw [List.mem_singleton.mp hnew]
    exact intends

theorem sync {snapshot : Snapshot} {highest : Nat}
    (ahead : c.record.highestCommittedSequence < highest) : (c.sync snapshot highest).InOrder := by
  obtain ⟨-, -, entries, sequence, prepared, -, committed, -⟩ :=
    reduceSyncedPredecessorState_counters c.record highest
  obtain ⟨data, hdata⟩ := Option.isSome_iff_exists.mp h.stored
  have hbackend : (c.sync snapshot highest).backend =
      some ((data.installSnapshot snapshot).setHighestCommittedSequence highest) := by
    change Option.map _ c.backend = _
    rw [hdata]
    rfl
  have happlied : (c.sync snapshot highest).applied = highest := by
    rw [Core.applied, hbackend]
    rfl
  have hrecord : (c.sync snapshot highest).record =
      NodeSlot.reduceSyncedPredecessorState c.record highest := rfl
  have hgrown : c.applied ≤ (c.sync snapshot highest).applied :=
    (h.applied.trans ahead.le).trans happlied.ge
  have preserves : c.Preserves (c.sync snapshot highest) :=
    ⟨hgrown, fun _ _ hheld => .inr (by rw [hrecord, entries]; exact hheld), List.Subset.refl _⟩
  constructor
  case stored => rw [hbackend]; rfl
  case keyed =>
    intro place held hheld
    rw [hrecord, entries] at hheld
    obtain ⟨hsame, hlt⟩ := h.keyed place held hheld
    rw [hrecord, sequence]
    exact ⟨hsame, lt_max_of_lt_left hlt⟩
  case durable =>
    intro place hle
    rw [hrecord, prepared] at hle
    exact .inl (hle.trans happlied.ge)
  case applied => rw [happlied, hrecord, committed]
  case intended => exact fun commit hmem => preserves.intends (h.intended commit hmem)
  case reported =>
    exact fun operation hmem place hle => preserves.durable (h.reported operation hmem place hle)
  case materialized => exact fun height hmem => (h.materialized height hmem).trans hgrown
  case acknowledged =>
    intro place hmem
    rw [hrecord, committed]
    exact (h.acknowledged place hmem).trans ahead.le

theorem flush {commit : DurableCommit} {rest : List DurableCommit} {prepared : List WriteOperation}
    {working : Bool} (first : c.prepares = commit :: rest)
    (earlier : ∀ sequence < commit.operation.sequence, c.Durable sequence)
    (reported : prepared ⊆ commit.operation :: c.prepared) :
    Core.InOrder { c with
      prepares := rest
      journal := c.journal ++ [journalRecordFromPrepare commit]
      prepared
      working } := by
  have preserves : c.Preserves { c with
      prepares := rest
      journal := c.journal ++ [journalRecordFromPrepare commit]
      prepared
      working } :=
    ⟨le_rfl, fun _ _ hentry => .inr hentry, List.subset_append_left _ _⟩
  have intended := h.intended
  rw [first] at intended
  have ⟨hfirst, hrest⟩ := List.forall_mem_cons.mp intended
  refine { h with
    durable := fun sequence hle => preserves.durable (h.durable sequence hle)
    intended := fun later hmem => preserves.intends (hrest later hmem)
    reported := ?_ }
  intro operation hmem sequence hle
  rcases List.mem_cons.mp (reported hmem) with rfl | hheld
  · rcases Nat.lt_or_eq_of_le hle with hlt | rfl
    · exact preserves.durable (earlier sequence hlt)
    · rcases hfirst with happlied | hentry
      · exact .inl happlied
      · exact .inr ⟨commit.operation, hentry, _, List.mem_append_right _ List.mem_cons_self, rfl⟩
  · exact preserves.durable (h.reported operation hheld sequence hle)

theorem materialize
    (submitted : ∀ commit ∈ c.materializing,
    commit.operation.sequence ≤ c.record.highestCommittedSequence) : c.materialize.InOrder := by
  rcases c.materialize_cases with hsame | hdropped |
    ⟨data, commits, taken, next, hdata, held, takes, htaken⟩
  · rw [hsame]
    exact h
  · rw [hdropped]
    exact { h with }
  rw [htaken]
  have stored : c.applied = data.highestCommitted := by rw [Core.applied, hdata]; rfl
  -- The batch ends with an operation that the replica has committed.
  have bound : next.highestCommitted ≤ c.record.highestCommittedSequence := by
    by_cases hgrew : data.highestCommitted < next.highestCommitted
    · obtain ⟨last, hmem, hlast⟩ := takes.follow.exists_eq hgrew takes.height.le
      rw [← hlast]
      exact submitted last (held (takes.sublist.subset hmem))
    · have := h.applied
      omega
  have grown : data.highestCommitted ≤ next.highestCommitted := by
    have := takes.height
    omega
  have preserves : c.Preserves { c with
      backend := some next
      materializing := []
      materialized := c.materialized ++ [NodeSlot.highestOperation commits] } :=
    ⟨stored ▸ grown, fun _ _ hentry => .inr hentry, List.Subset.refl _⟩
  refine { h with
    stored := rfl
    durable := fun sequence hle => preserves.durable (h.durable sequence hle)
    applied := bound
    intended := fun commit hmem => preserves.intends (h.intended commit hmem)
    reported := fun operation hmem sequence hle =>
      preserves.durable (h.reported operation hmem sequence hle)
    materialized := ?_ }
  intro place hmem
  rcases List.mem_append.mp hmem with hheld | hnew
  · exact (h.materialized place hheld).trans preserves.applied
  · rw [List.mem_singleton.mp hnew]
    exact highestOperation_le takes.bound

end

/-- The moves of a replica that stays in service. -/
theorem effect (stays : input.Stays = true) (ordered : n.AppendsInOrder input)
    (start : n.core.Watermarked ∧ n.core.InOrder) (keeps : n.core.Carries ReplicaRecord.Keeps)
    (serves : c.Watermarked ∧ c.Carries ReplicaRecord.Keeps) (h : c.InOrder)
    (move : Effect n input c d) : d.InOrder := by
  have after := Core.Watermarked.effect stays start.1 keeps serves move
  obtain ⟨serves, kept⟩ := serves
  cases move with
  | carry | exchange | await | answer | awaitTail | interrupt | lookup | accept => exact { h with }
  | forget reported applied worked =>
    exact { h with
      reported := fun operation hmem => h.reported operation (reported hmem)
      materialized := fun height hmem => h.materialized height (applied hmem) }
  | confirmHead | advance | release | confirm | restate => exact h.set rfl rfl rfl le_rfl
  | acknowledge present =>
    refine { h with acknowledged := ?_ }
    intro sequence hmem
    rcases List.mem_append.mp hmem with hheld | hnew
    · exact h.acknowledged sequence hheld
    · exact (List.mem_singleton.mp hnew).le
  | commit same present positive token durable committed =>
    obtain ⟨through, height⟩ := confirmedAtHead_through committed
    have raised := (Nat.le_add_right _ _).trans_eq height.symm
    exact { h.set through.entries through.sequence through.prepared raised with }
  | prepare present reported => exact h.prepare reported
  | prune present applied => exact h.prune applied
  | submit taken accepts same =>
    rename_i req current
    rw [← same]
    exact (h.extend (.submitted c.record (n.submittedOperation c.record req current) req.call rfl)).1
  | ask taken accepts same =>
    refine h.ask (.inr ?_) _
    rw [same]
    exact Std.ExtTreeMap.getElem?_insert_self
  | putAside taken due same serving aside sequence ok =>
    obtain ⟨buffered, rfl⟩ := reduceBufferFutureForward_eq ok
    exact h.set rfl rfl rfl le_rfl
  | buffer taken feeds same ok =>
    rcases reduceForwardWrite_cases ok with ⟨haction, -⟩ | ⟨-, -, hok⟩ | ⟨haction, -⟩
    · cases haction
    · obtain ⟨buffered, rfl⟩ := reduceBufferFutureForward_eq hok
      exact h.set rfl rfl rfl le_rfl
    · cases haction
  | stage taken feeds same ok =>
    obtain ⟨extended, intends⟩ := h.extend (kept.record.extends ok)
    exact extended.ask intends _
  | sync answered same present version node target ahead stored => exact h.sync ahead
  | reassign taken same present other =>
    obtain ⟨-, entries, sequence, prepared, committed⟩ := reassigned_counters c.record _
    exact h.set entries sequence prepared committed.ge
  | startRebuild taken =>
    obtain ⟨data, hdata⟩ := Option.isSome_iff_exists.mp h.stored
    have same : some (c.backend.getD {}) = c.backend := by
      rw [hdata]
      rfl
    rw [same]
    exact h
  | flush taken first reported worked =>
    refine start.2.flush first ?_ reported
    exact ordered taken _ (by rw [first]; rfl)
  | flushFailed first worked =>
    refine { h with intended := ?_ }
    intro commit hmem
    exact h.intended commit (first ▸ List.mem_cons_of_mem _ hmem)
  | note noted =>
    rename_i entry
    have preserves : c.Preserves { c with journal := c.journal ++ [entry] } :=
      ⟨le_rfl, fun _ _ hentry => .inr hentry, List.subset_append_left _ _⟩
    exact { h with
      durable := fun sequence hle => preserves.durable (h.durable sequence hle)
      reported := fun operation hmem sequence hle =>
        preserves.durable (h.reported operation hmem sequence hle) }
  | materialize => exact h.materialize serves.materializing
  -- A replica in service makes none of the other moves.
  | drop missing => exact absurd (missing ▸ h.stored) (by decide)
  | raise submitted last behind => exact absurd behind (serves.ready _ submitted last).not_gt
  | create => exact absurd rfl after.settled
  | found taken same => exact absurd (congrArg ReplicaRecord.state same) serves.settled
  | abandon | remove | vanish | evict => cases after.present
  | join answered | rebuild answered =>
    obtain ⟨plan, hplan⟩ := start.1.answers _ (NodeSlot.delivered_mem answered)
    cases hplan
  | resume resumes recovered same =>
    rcases recovered with ⟨hrecovered, -⟩ | hresumed
    · exact absurd hrecovered kept.record.live
    · rw [keeps.resumes] at hresumed
      cases hresumed
  | restart taken =>
    rw [taken] at stays
    cases stays

end Core.InOrder

/-! ## Runs -/

/-- As long as the operations reach the journal in order, everything up to the prepared watermark is
durable, and nothing above it is committed or acknowledged. -/
theorem prepared_watermark_honest {first n : NodeSlot} (hfirst : first.Begins)
    (h : Reaches NodeSlot.take (fun n input => input.Stays = true ∧ n.AppendsInOrder input)
      first n) : n.core.Honest := by
  let Good := fun c : Core => (c.Watermarked ∧ c.Carries ReplicaRecord.Keeps) ∧ c.InOrder
  let Kept := fun n : NodeSlot => Good n.core
  have kept : Kept n := by
    apply h.invariant
    · exact ⟨⟨hfirst.watermarked, hfirst.keeps⟩, hfirst.inOrder⟩
    rintro n input next ⟨⟨serves, keeps⟩, inOrder⟩ ⟨stays, ordered⟩ htake
    have start : Good n.core := ⟨⟨serves, keeps⟩, inOrder⟩
    refine n.take_keeps htake start ?_
    rintro c d ⟨held, inOrder'⟩ move
    refine ⟨⟨.effect stays serves keeps held move, ?_⟩,
      .effect stays ordered ⟨serves, inOrder⟩ keeps held inOrder' move⟩
    exact .effect ReplicaRecord.keeps_stable (NodeInput.Stays.continues stays)
      (fun _ => NodeSlot.keeps_takesForward keeps.record) keeps held.2 move
  exact kept.2.honest kept.1.1.ordered

/-! ## Two writes and a disk that fails once -/

def openedAlone : NodeSlot where
  config := plainConfig "c"
  runtime := { present := true, record := NodeSlot.rebuiltRecord alone 0 }
  backend := some {}

theorem openedAlone_begins : openedAlone.Begins where
  present := rfl
  stored := rfl
  record := ⟨alone, .inr rfl⟩
  prepares := rfl
  completions := rfl
  submitted := rfl
  materializing := rfl
  tasks := rfl
  calls := rfl
  outbox := rfl

def writeTwo : List NodeInput :=
  [.event (.submitWrite { call := 0, kind := .put, key := "a", value := "v" }),
    .event (.submitWrite { call := 1, kind := .put, key := "b", value := "w" })]

def appendBoth : List NodeInput :=
  writeTwo ++ [.event (.flushPrepare none), .event (.flushPrepare none), .event (.completion 1)] ++
    proceed 2 ++ [.event (.flushCommitRange 1 1 none), .event (.completion 1)] ++ proceed 7

def NodeSlot.appends (n : NodeSlot) (input : NodeInput) : Bool :=
  input.Stays && decide (n.AppendsInOrder input)

theorem NodeSlot.allowed_of_appends (n : NodeSlot) (input : NodeInput)
    (h : n.appends input = true) : input.Stays = true ∧ n.AppendsInOrder input := by
  simpa [NodeSlot.appends] using h

theorem appendBoth_runs :
    (run (guarded NodeSlot.appends NodeSlot.take) appendBoth openedAlone).isSome = true := by
  decide +kernel

theorem appendBoth_honest : ∃ n : NodeSlot, openedAlone.Begins ∧
    n.record.highestCommittedSequence = 2 ∧ n.core.Honest := by
  refine ⟨(run (guarded NodeSlot.appends NodeSlot.take) appendBoth openedAlone).get appendBoth_runs,
    openedAlone_begins, ?_, ?_⟩
  · decide +kernel
  · exact prepared_watermark_honest openedAlone_begins
      (.of_guarded_run NodeSlot.allowed_of_appends (Option.some_get appendBoth_runs).symm)

def appendSecond : List NodeInput :=
  writeTwo ++ [.event (.flushPrepare (some (.fault "disk"))), .event (.flushPrepare none),
    .event (.completion 0)] ++ proceed 1 ++ [.event (.completion 0)] ++ proceed 2 ++
    [.event (.flushCommitRange 1 1 none), .event (.completion 0)] ++ proceed 7

theorem appendSecond_runs : (run NodeSlot.take appendSecond openedAlone).isSome = true := by
  decide +kernel

theorem appendSecond_stays : ∀ input ∈ appendSecond, input.Stays = true := by
  decide

def appendedSecond : NodeSlot :=
  (run NodeSlot.take appendSecond openedAlone).get appendSecond_runs

/-- Both writes are counted as prepared and committed, and the first one is nowhere. -/
theorem failed_append_committed :
    openedAlone.Begins ∧
      Reaches NodeSlot.take (fun _ input => input.Stays = true) openedAlone appendedSecond ∧
      appendedSecond.record.highestPreparedDurable = 2 ∧
      appendedSecond.record.highestCommittedSequence = 2 ∧
      ¬ appendedSecond.core.Durable 1 ∧ ¬ appendedSecond.core.Honest := by
  have prepared : appendedSecond.record.highestPreparedDurable = 2 := by decide +kernel
  have lost : ¬ appendedSecond.core.Durable 1 := by decide +kernel
  refine ⟨openedAlone_begins, ?_, prepared, ?_, lost, ?_⟩
  · exact .of_run (fun input hmem _ => appendSecond_stays input hmem)
      (Option.some_get appendSecond_runs).symm
  · decide +kernel
  · intro honest
    apply lost
    apply honest.durable
    change 1 ≤ appendedSecond.record.highestPreparedDurable
    omega

end Craq.Storage
