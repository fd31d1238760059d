import Craq.Backend.InMemory
import Craq.Lib.Except

/-! # Materialization

Committed operations are handed to a backend later and in batches, perhaps more than once.  A filter
drops what the backend has already; a gap fails the whole batch.  Whatever the batches were, the
data of a slot is its log up to the highest sequence; but a gap in one slot keeps back all others.
-/

namespace Craq.Backend

open Lib
open Storage (Error Snapshot)

/-! ## The filter -/

def DurableCommit.slot (commit : DurableCommit) : Int64 :=
  commit.operation.slot

def DurableCommit.sequence (commit : DurableCommit) : UInt64 :=
  commit.operation.sequence

namespace InMemoryBackend

variable (backend : InMemoryBackend)

/-- The highest sequence of a slot that the filter has let through, or else the backend's. -/
def expectedSequence (expected : Std.ExtTreeMap Int64 UInt64) (slot : Int64) :
    Except Error UInt64 :=
  match expected[slot]? with
  | some highest => .ok highest
  | none => (backend.replica slot).map (·.highestCommitted)

def filterFrom : Std.ExtTreeMap Int64 UInt64 → List DurableCommit →
    Except Error (List DurableCommit)
  | _, [] => .ok []
  | expected, commit :: commits =>
    match backend.expectedSequence expected commit.slot with
    | .error err => .error err
    | .ok highest =>
      if commit.sequence ≤ highest then filterFrom expected commits
      else if commit.sequence ≠ highest + 1 then
        .error (unexpectedSequence commit.slot (highest + 1) commit.sequence)
      else (filterFrom (expected.insert commit.slot commit.sequence) commits).map (commit :: ·)

def filterMaterializedCommits (commits : List DurableCommit) : Except Error (List DurableCommit) :=
  backend.filterFrom ∅ commits

def applyMaterializedBatch (commits : List DurableCommit) :
    InMemoryBackend × Except Error Reply :=
  match backend.filterMaterializedCommits commits with
  | .error err => (backend, .error err)
  | .ok filtered => backend.applyCommittedBatch filtered

end InMemoryBackend

/-! ## Commits that advance a backend -/

def DurableCommit.applyTo (commit : DurableCommit) (replica : ReplicaData) : ReplicaData :=
  replica.commit commit.sequence commit.upstreamConfirmedSequence commit.operation.staged

inductive Advances : InMemoryBackend → List DurableCommit → InMemoryBackend → Prop where
  | nil (backend : InMemoryBackend) : Advances backend [] backend
  | cons {backend final : InMemoryBackend} {replica : ReplicaData} {commit : DurableCommit}
      {commits : List DurableCommit} :
      backend[commit.slot]? = some replica → replica.highestCommitted < commit.sequence →
      commit.sequence = replica.highestCommitted + 1 →
      Advances (backend.insert commit.slot (commit.applyTo replica)) commits final →
      Advances backend (commit :: commits) final

variable {backend : InMemoryBackend} {commits : List DurableCommit}

theorem Advances.applied {final : InMemoryBackend} (h : Advances backend commits final) :
    backend.applyCommittedBatch commits = (final, .ok .done) := by
  induction h with
  | nil => rfl
  | @cons backend final replica commit commits hReplica hLater hNext _ ih =>
    have hCommit : backend.applyCommit commit =
        .ok (backend.insert commit.slot (commit.applyTo replica)) := by
      simp only [InMemoryBackend.applyCommit, InMemoryBackend.replica]
      rw [show backend[commit.operation.slot]? = some replica from hReplica]
      exact if_neg (not_not.mpr hNext)
    rw [InMemoryBackend.applyCommittedBatch, hCommit]
    exact ih

namespace InMemoryBackend

variable {backend : InMemoryBackend}

/-- Where the filter has counted as far as another backend is, what it lets through advances that
backend. -/
theorem filterFrom_advances {expected : Std.ExtTreeMap Int64 UInt64} {filtered : List DurableCommit}
    (current : InMemoryBackend)
    (hCurrent : ∀ slot highest, backend.expectedSequence expected slot = .ok highest →
      ∃ replica, current[slot]? = some replica ∧ replica.highestCommitted = highest)
    (h : backend.filterFrom expected commits = .ok filtered) :
    ∃ final, Advances current filtered final := by
  induction commits generalizing expected filtered current with
  | nil =>
    cases h
    exact ⟨current, .nil current⟩
  | cons commit commits ih =>
    rw [filterFrom] at h
    split at h
    case h_1 => cases h
    case h_2 highest hHighest =>
      split at h
      case isTrue => exact ih current hCurrent h
      case isFalse hLater =>
        split at h
        case isTrue => cases h
        case isFalse hNext =>
          obtain ⟨rest, hRest, rfl⟩ := map_eq_ok.mp h
          obtain ⟨replica, hReplica, rfl⟩ := hCurrent commit.slot highest hHighest
          have hAdvanced : ∀ slot highest, backend.expectedSequence
              (expected.insert commit.slot commit.sequence) slot = .ok highest →
              ∃ later, (current.insert commit.slot (commit.applyTo replica))[slot]? = some later ∧
                later.highestCommitted = highest := by
            intro slot highest hSlot
            rw [expectedSequence, getElem?_insert_ite] at hSlot
            rw [getElem?_insert_ite]
            by_cases hSame : commit.slot = slot
            · rw [if_pos hSame] at hSlot ⊢
              cases hSlot
              exact ⟨_, rfl, rfl⟩
            · rw [if_neg hSame] at hSlot ⊢
              exact hCurrent slot highest hSlot
          obtain ⟨final, hFinal⟩ := ih _ hAdvanced hRest
          exact ⟨final, .cons hReplica (UInt64.not_le.mp hLater) (not_not.mp hNext) hFinal⟩

theorem expectedSequence_empty {slot : Int64} {highest : UInt64}
    (h : backend.expectedSequence ∅ slot = .ok highest) :
    ∃ replica, backend[slot]? = some replica ∧ replica.highestCommitted = highest := by
  rw [expectedSequence, Std.ExtTreeMap.getElem?_empty, replica] at h
  cases hReplica : backend[slot]? with
  | none =>
    rw [hReplica] at h
    cases h
  | some replica =>
    rw [hReplica] at h
    exact ⟨replica, rfl, Except.ok.inj h⟩

/-- A batch is refused as a whole or applied as far as it is new. -/
theorem applyMaterializedBatch_spec (backend : InMemoryBackend) (commits : List DurableCommit) :
    (∃ err, backend.filterMaterializedCommits commits = .error err ∧
        backend.applyMaterializedBatch commits = (backend, .error err)) ∨
      ∃ filtered final, backend.filterMaterializedCommits commits = .ok filtered ∧
        Advances backend filtered final ∧
        backend.applyMaterializedBatch commits = (final, .ok .done) := by
  rw [applyMaterializedBatch]
  cases hFilter : backend.filterMaterializedCommits commits with
  | error err => exact .inl ⟨err, rfl, rfl⟩
  | ok filtered =>
    obtain ⟨final, hFinal⟩ :=
      filterFrom_advances backend (fun _ _ => expectedSequence_empty) hFilter
    exact .inr ⟨filtered, final, rfl, hFinal, hFinal.applied⟩

theorem mem_of_filterFrom {expected : Std.ExtTreeMap Int64 UInt64} {filtered : List DurableCommit}
    (h : backend.filterFrom expected commits = .ok filtered) :
    ∀ commit ∈ filtered, commit ∈ commits := by
  induction commits generalizing expected filtered with
  | nil =>
    cases h
    exact nofun
  | cons commit commits ih =>
    rw [filterFrom] at h
    split at h
    case h_1 => cases h
    case h_2 =>
      split at h
      case isTrue => exact fun other hOther => List.mem_cons_of_mem commit (ih h other hOther)
      case isFalse =>
        split at h
        case isTrue => cases h
        case isFalse =>
          obtain ⟨rest, hRest, rfl⟩ := map_eq_ok.mp h
          exact fun other hOther => List.mem_cons.mpr ((List.mem_cons.mp hOther).imp_right
            (ih hRest other))

end InMemoryBackend

/-! ## The data is a part of the log -/

def StagedOperation.apply (data : Snapshot) (operation : StagedOperation) : Snapshot :=
  match operation.kind with
  | .put => data.insert operation.key ⟨operation.value, operation.metadata⟩
  | .delete => data.erase operation.key

/-- The data after the operations of the log from `start + 1` to `finish`. -/
def dataUpTo (log : Nat → StagedOperation) (data : Snapshot) (start finish : Nat) : Snapshot :=
  ((List.range' (start + 1) (finish - start)).map log).foldl StagedOperation.apply data

theorem dataUpTo_trans (log : Nat → StagedOperation) (data : Snapshot) {start middle finish : Nat}
    (first : start ≤ middle) (second : middle ≤ finish) :
    dataUpTo log (dataUpTo log data start middle) middle finish =
      dataUpTo log data start finish := by
  rw [dataUpTo, dataUpTo, dataUpTo, ← List.foldl_append, ← List.map_append]
  have hRange := @List.range'_append_1 (start + 1) (middle - start) (finish - middle)
  rw [show start + 1 + (middle - start) = middle + 1 by omega,
    show middle - start + (finish - middle) = finish - start by omega] at hRange
  rw [hRange]

def Extends (log : Int64 → Nat → StagedOperation) (before after : InMemoryBackend) : Prop :=
  ∀ slot,
    (before[slot]? = none → after[slot]? = none) ∧
    ∀ replica, before[slot]? = some replica → ∃ later, after[slot]? = some later ∧
      replica.highestCommitted.toNat ≤ later.highestCommitted.toNat ∧
      later.committed = dataUpTo (log slot) replica.committed replica.highestCommitted.toNat
        later.highestCommitted.toNat

def DurableCommit.Follows (log : Int64 → Nat → StagedOperation) (commit : DurableCommit) : Prop :=
  commit.operation.staged = log commit.slot commit.sequence.toNat

section Prefix

variable {log : Int64 → Nat → StagedOperation} {first second third : InMemoryBackend}

theorem Extends.refl (log : Int64 → Nat → StagedOperation) (backend : InMemoryBackend) :
    Extends log backend backend := by
  refine fun slot => ⟨id, fun replica hReplica => ⟨replica, hReplica, le_rfl, ?_⟩⟩
  rw [dataUpTo, Nat.sub_self]
  rfl

theorem Extends.trans (h : Extends log first second) (next : Extends log second third) :
    Extends log first third := by
  refine fun slot => ⟨fun hNone => (next slot).1 ((h slot).1 hNone), fun replica hReplica => ?_⟩
  obtain ⟨middle, hMiddle, hFirst, hData⟩ := (h slot).2 replica hReplica
  obtain ⟨later, hLater, hSecond, hMore⟩ := (next slot).2 middle hMiddle
  refine ⟨later, hLater, hFirst.trans hSecond, ?_⟩
  rw [hMore, hData, dataUpTo_trans _ _ hFirst hSecond]

theorem Extends.commit {replica : ReplicaData} {commit : DurableCommit}
    (hReplica : backend[commit.slot]? = some replica)
    (hLater : replica.highestCommitted < commit.sequence)
    (hNext : commit.sequence = replica.highestCommitted + 1) (hLog : commit.Follows log) :
    Extends log backend (backend.insert commit.slot (commit.applyTo replica)) := by
  -- The next sequence is larger, so adding one has not wrapped around.
  have hSequence : commit.sequence.toNat = replica.highestCommitted.toNat + 1 := by
    have hLess := UInt64.lt_iff_toNat_lt.mp hLater
    rw [hNext, UInt64.toNat_add] at hLess ⊢
    rw [UInt64.toNat_one] at hLess ⊢
    omega
  intro slot
  rw [getElem?_insert_ite]
  by_cases hSlot : commit.slot = slot
  · cases hSlot
    rw [if_pos rfl]
    refine ⟨fun hNone => ?_, fun other hOther => ?_⟩
    · rw [hNone] at hReplica
      cases hReplica
    · cases hReplica.symm.trans hOther
      refine ⟨_, rfl, hSequence ▸ Nat.le_succ _, ?_⟩
      rw [DurableCommit.Follows] at hLog
      change StagedOperation.apply replica.committed commit.operation.staged =
        dataUpTo (log commit.slot) replica.committed replica.highestCommitted.toNat
          commit.sequence.toNat
      rw [hLog, hSequence, dataUpTo, Nat.add_sub_cancel_left]
      rfl
  · rw [if_neg hSlot]
    exact Extends.refl log backend slot

theorem Advances.extends {final : InMemoryBackend} (h : Advances backend commits final)
    (hLog : ∀ commit ∈ commits, commit.Follows log) : Extends log backend final := by
  induction h with
  | nil => exact .refl log _
  | cons hReplica hLater hNext _ ih =>
    have ⟨hFirst, hRest⟩ := List.forall_mem_cons.mp hLog
    exact (Extends.commit hReplica hLater hNext hFirst).trans (ih hRest)

end Prefix

def materialized (backend : InMemoryBackend) (batches : List (List DurableCommit)) :
    InMemoryBackend :=
  batches.foldl (fun backend commits => (backend.applyMaterializedBatch commits).1) backend

theorem materialized_extends {log : Int64 → Nat → StagedOperation}
    {batches : List (List DurableCommit)}
    (hLog : ∀ commits ∈ batches, ∀ commit ∈ commits, commit.Follows log) :
    Extends log backend (materialized backend batches) := by
  induction batches generalizing backend with
  | nil => exact .refl log backend
  | cons commits batches ih =>
    have ⟨hFirst, hRest⟩ := List.forall_mem_cons.mp hLog
    refine Extends.trans ?_ (ih hRest)
    dsimp only
    obtain ⟨err, -, hBatch⟩ | ⟨filtered, final, hFilter, hAdvances, hBatch⟩ :=
      backend.applyMaterializedBatch_spec commits
    · rw [hBatch]
      exact .refl log backend
    · rw [hBatch]
      exact hAdvances.extends fun commit hCommit =>
        hFirst commit (InMemoryBackend.mem_of_filterFrom hFilter commit hCommit)

/-- Batches that repeat, overlap and fail leave in each slot exactly its log applied in order: to
the data from which the batches started, and from any point in between on, with a highest sequence that
never falls. -/
theorem materialization_prefix_exact (log : Int64 → Nat → StagedOperation)
    (backend : InMemoryBackend) (earlier later : List (List DurableCommit))
    (hLog : ∀ commits ∈ earlier ++ later, ∀ commit ∈ commits, commit.Follows log) :
    Extends log backend (materialized backend (earlier ++ later)) ∧
      Extends log (materialized backend earlier) (materialized backend (earlier ++ later)) := by
  refine ⟨materialized_extends hLog, ?_⟩
  have hSplit : materialized backend (earlier ++ later) =
      materialized (materialized backend earlier) later := List.foldl_append
  rw [hSplit]
  exact materialized_extends fun commits hCommits =>
    hLog commits (List.mem_append_right earlier hCommits)

def logged (sequence : UInt64) : StagedOperation :=
  ⟨.put, "k", toString sequence, ⟨sequence.toNat, 0, 0⟩⟩

def commitAt (slot : Int64) (sequence : UInt64) : DurableCommit :=
  ⟨⟨slot, sequence, .put, "k", toString sequence, ⟨sequence.toNat, 0, 0⟩⟩, sequence⟩

/-- Overlapping batches, one of them with a gap, over a slot that starts at sequence 1. -/
theorem materialization_prefix_exact_overlap :
    let start : InMemoryBackend := (∅ : InMemoryBackend).insert 7 { highestCommitted := 1 }
    let batches := [[commitAt 7 2, commitAt 7 3], [commitAt 7 9], [commitAt 7 3, commitAt 7 4]]
    Extends (fun _ sequence => logged (.ofNat sequence)) start (materialized start batches) ∧
      (materialized start batches)[(7 : Int64)]?.map (·.highestCommitted) = some 4 := by
  refine ⟨(materialization_prefix_exact _ _ [] _ ?_).1, by decide +kernel⟩
  simp only [List.nil_append, List.forall_mem_cons, List.not_mem_nil, false_imp_iff, implies_true,
    and_true, DurableCommit.Follows]
  exact ⟨⟨rfl, rfl⟩, rfl, rfl, rfl⟩

/-! ## The flush of a materializer -/

def ofSlot (slot : Int64) (commits : List DurableCommit) : List DurableCommit :=
  commits.filter (·.slot = slot)

/-- Of the commits of one slot those that go on from a highest sequence; nothing where there is a
gap or no replica. -/
def continuation : Option UInt64 → List DurableCommit → Option (List DurableCommit)
  | _, [] => some []
  | none, _ :: _ => none
  | some highest, commit :: commits =>
    if commit.sequence ≤ highest then continuation (some highest) commits
    else if commit.sequence ≠ highest + 1 then none
    else (continuation (some commit.sequence) commits).map (commit :: ·)

theorem ofSlot_cons (slot : Int64) (commit : DurableCommit) (commits : List DurableCommit) :
    ofSlot slot (commit :: commits) =
      if commit.slot = slot then commit :: ofSlot slot commits else ofSlot slot commits := by
  rw [ofSlot, List.filter_cons]
  simp only [decide_eq_true_eq, ofSlot]

namespace InMemoryBackend

variable (backend : InMemoryBackend)

/-- The filter looks at each slot on its own, but fails for all of them. -/
theorem filterFrom_continuation (expected : Std.ExtTreeMap Int64 UInt64)
    (commits : List DurableCommit) :
    (∃ filtered, backend.filterFrom expected commits = .ok filtered ∧
        ∀ slot, continuation (backend.expectedSequence expected slot).toOption
          (ofSlot slot commits) = some (ofSlot slot filtered)) ∨
      ∃ err slot, backend.filterFrom expected commits = .error err ∧
        continuation (backend.expectedSequence expected slot).toOption
          (ofSlot slot commits) = none := by
  induction commits generalizing expected with
  | nil =>
    refine .inl ⟨[], rfl, fun slot => ?_⟩
    cases backend.expectedSequence expected slot <;> rfl
  | cons commit commits ih =>
    have hSelf : ofSlot commit.slot (commit :: commits) = commit :: ofSlot commit.slot commits := by
      rw [ofSlot_cons, if_pos rfl]
    rw [filterFrom]
    cases hHighest : backend.expectedSequence expected commit.slot with
    | error err =>
      refine .inr ⟨err, commit.slot, rfl, ?_⟩
      rw [hHighest, hSelf]
      rfl
    | ok highest =>
      dsimp only
      split
      case isTrue hOld =>
        have hSame : ∀ slot, continuation (backend.expectedSequence expected slot).toOption
            (ofSlot slot (commit :: commits)) =
              continuation (backend.expectedSequence expected slot).toOption
                (ofSlot slot commits) := by
          intro slot
          rw [ofSlot_cons]
          split
          case isTrue hSlot =>
            rw [← hSlot, hHighest]
            exact if_pos hOld
          case isFalse => rfl
        simp only [hSame]
        exact ih expected
      case isFalse hLater =>
        split
        case isTrue hGap =>
          refine .inr ⟨_, commit.slot, rfl, ?_⟩
          rw [hHighest, hSelf]
          exact (if_neg hLater).trans (if_pos hGap)
        case isFalse hNext =>
          -- The slot goes on from the commit, the others from where they were.
          have hStep : ∀ slot, continuation (backend.expectedSequence expected slot).toOption
              (ofSlot slot (commit :: commits)) =
                (continuation (backend.expectedSequence
                  (expected.insert commit.slot commit.sequence) slot).toOption
                    (ofSlot slot commits)).map
                  (if commit.slot = slot then (commit :: ·) else id) := by
            intro slot
            by_cases hSlot : commit.slot = slot
            · cases hSlot
              rw [hSelf, hHighest, if_pos rfl]
              simp only [expectedSequence, getElem?_insert_ite, if_true]
              exact (if_neg hLater).trans (if_neg hNext)
            · rw [ofSlot_cons, if_neg hSlot, if_neg hSlot, Option.map_id, id]
              simp only [expectedSequence, getElem?_insert_ite, if_neg hSlot]
          obtain ⟨filtered, hFilter, hSlots⟩ | ⟨err, slot, hFilter, hSlot⟩ :=
            ih (expected.insert commit.slot commit.sequence)
          · refine .inl ⟨commit :: filtered, by rw [hFilter]; rfl, fun slot => ?_⟩
            rw [hStep, hSlots, ofSlot_cons]
            split <;> rfl
          · refine .inr ⟨err, slot, by rw [hFilter]; rfl, ?_⟩
            rw [hStep, hSlot]
            rfl

theorem expectedSequence_toOption (slot : Int64) :
    (backend.expectedSequence ∅ slot).toOption = backend.highest slot := by
  rw [expectedSequence, Std.ExtTreeMap.getElem?_empty, replica, highest]
  cases backend[slot]? <;> rfl

def applied (commits : List DurableCommit) : List DurableCommit :=
  ((backend.filterMaterializedCommits commits).toOption).getD []

/-- A slot's commits are applied as they continue it if those of every slot do, and not at all
otherwise. -/
theorem ofSlot_applied (commits : List DurableCommit) :
    (∀ slot, continuation (backend.highest slot) (ofSlot slot commits) =
        some (ofSlot slot (backend.applied commits))) ∨
      (∃ slot, continuation (backend.highest slot) (ofSlot slot commits) = none) ∧
        backend.applied commits = [] := by
  simp only [← expectedSequence_toOption, applied, filterMaterializedCommits]
  obtain ⟨filtered, hFilter, hSlots⟩ | ⟨err, slot, hFilter, hSlot⟩ :=
    backend.filterFrom_continuation ∅ commits
  · rw [hFilter]
    exact .inl hSlots
  · rw [hFilter]
    exact .inr ⟨⟨slot, hSlot⟩, rfl⟩

end InMemoryBackend

/-- What an advance does to a slot is what the slot's own commits do to its replica. -/
theorem Advances.replica {final : InMemoryBackend} (h : Advances backend commits final)
    (slot : Int64) :
    final[slot]? = backend[slot]?.map fun replica =>
      (ofSlot slot commits).foldl (fun replica commit => commit.applyTo replica) replica := by
  induction h with
  | nil => exact Option.map_id'.symm
  | @cons backend final replica commit commits hReplica _ _ _ ih =>
    rw [ih, ofSlot_cons, getElem?_insert_ite]
    split
    case isTrue hSlot =>
      rw [← hSlot, hReplica]
      rfl
    case isFalse => rfl

structure PendingCommit where
  commit : DurableCommit
  chainVersion : UInt64

/-- The pending commits of a materializer, the slots it drops, and whether its timer is armed. -/
structure Materializer where
  pending : List PendingCommit := []
  suppressed : Std.ExtTreeMap Int64 Unit := ∅
  timer : Bool := false

/-- The backend of the node and the chain version of each replica it has published. -/
structure Node where
  backend : InMemoryBackend
  published : Int64 → Option UInt64

namespace Materializer

variable (materializer : Materializer) (node : Node)

def shouldMaterializeCommit (pending : PendingCommit) : Bool :=
  node.published pending.commit.slot == some pending.chainVersion

def wanted : List DurableCommit :=
  (materializer.pending.filter fun pending =>
    !materializer.suppressed.contains pending.commit.slot &&
      shouldMaterializeCommit node pending).map (·.commit)

/-- The materializer and the backend after a flush, and whether it succeeded.  A call of the backend
may fail, to read a highest sequence or to write the batch; then nothing of the batch is applied. -/
def flush (failure : Option Error := none) : Materializer × InMemoryBackend × Bool :=
  let wanted := materializer.wanted node
  let materializer := { materializer with timer := false }
  if wanted = [] then ({ materializer with pending := [] }, node.backend, true)
  else if failure.isSome then (materializer, node.backend, false)
  else
    match node.backend.applyMaterializedBatch wanted with
    | (backend, .error _) => (materializer, backend, false)
    | (backend, .ok _) => ({ materializer with pending := [] }, backend, true)

theorem flush_backend :
    (materializer.flush node).2.1 =
      (node.backend.applyMaterializedBatch (materializer.wanted node)).1 := by
  rw [flush]
  dsimp only
  split
  case isTrue hNone =>
    rw [hNone]
    rfl
  case isFalse =>
    rw [if_neg (by decide)]
    obtain ⟨err, -, hBatch⟩ | ⟨filtered, final, -, -, hBatch⟩ :=
      node.backend.applyMaterializedBatch_spec (materializer.wanted node) <;> rw [hBatch]

/-- What is pending for a slot, wanted or not, and goes on from the backend's sequence. -/
def continues (slot : Int64) : Option (List DurableCommit) :=
  continuation (node.backend.highest slot)
    (ofSlot slot (materializer.pending.map (·.commit)))

/-- The same of the commits the flush hands to the backend. -/
def continuesWanted (slot : Int64) : Option (List DurableCommit) :=
  continuation (node.backend.highest slot) (ofSlot slot (materializer.wanted node))

end Materializer

theorem continuation_eq_nil_iff {highest : Option UInt64} :
    continuation highest commits = some [] ↔
      ∀ commit ∈ commits, ∃ reached, highest = some reached ∧ commit.sequence ≤ reached := by
  induction commits with
  | nil => exact iff_of_true rfl nofun
  | cons commit commits ih =>
    rw [List.forall_mem_cons]
    cases highest with
    | none => simp [continuation]
    | some highest =>
      rw [continuation, ← ih]
      by_cases hOld : commit.sequence ≤ highest
      · simp [hOld]
      · rw [if_neg hOld]
        refine iff_of_false ?_ fun h => hOld (by simpa using h.1)
        split <;> simp

theorem Materializer.ofSlot_wanted_subset (materializer : Materializer) (node : Node)
    (slot : Int64) :
    ofSlot slot (materializer.wanted node) ⊆ ofSlot slot (materializer.pending.map (·.commit)) :=
  ((List.filter_sublist.map _).filter _).subset

/-- A flush applies to each slot that its pending commits continue all that is new of them just when
either every slot's wanted commits continue it and nothing new is unwanted, or no such slot has
anything new. -/
theorem flush_applies_iff (materializer : Materializer) (node : Node) :
    let applied := node.backend.applied (materializer.wanted node)
    (∀ slot, (materializer.flush node).2.1[slot]? = node.backend[slot]?.map fun replica =>
        (ofSlot slot applied).foldl (fun replica commit => commit.applyTo replica) replica) ∧
      ((∀ slot fresh, materializer.continues node slot = some fresh → ofSlot slot applied = fresh) ↔
        ((∀ slot, (materializer.continuesWanted node slot).isSome) ∧
            ∀ slot fresh, materializer.continues node slot = some fresh →
              materializer.continuesWanted node slot = some fresh) ∨
          ∀ slot fresh, materializer.continues node slot = some fresh → fresh = []) := by
  intro applied
  constructor
  · intro slot
    rw [materializer.flush_backend node]
    obtain ⟨err, hFilter, hBatch⟩ | ⟨filtered, final, hFilter, hAdvances, hBatch⟩ :=
      node.backend.applyMaterializedBatch_spec (materializer.wanted node)
    · have hNone : applied = [] := by
        simp only [applied, InMemoryBackend.applied, hFilter]
        rfl
      rw [hBatch, hNone]
      exact Option.map_id'.symm
    · have hSome : applied = filtered := by
        simp only [applied, InMemoryBackend.applied, hFilter]
        rfl
      rw [hBatch, hSome]
      exact hAdvances.replica slot
  · obtain hAll | ⟨⟨gap, hGap⟩, hNone⟩ :=
      node.backend.ofSlot_applied (materializer.wanted node)
    · -- Every slot is continued, so what is applied is what is new of the wanted commits.
      have hNothing : (∀ slot fresh, materializer.continues node slot = some fresh → fresh = []) →
          ∀ slot fresh, materializer.continues node slot = some fresh →
            materializer.continuesWanted node slot = some fresh := by
        intro hNew slot fresh hFresh
        cases hNew slot fresh hFresh
        exact continuation_eq_nil_iff.mpr fun commit hCommit =>
          continuation_eq_nil_iff.mp hFresh commit
            (materializer.ofSlot_wanted_subset node slot hCommit)
      constructor
      · intro hApplied
        refine .inl ⟨fun slot => ?_, fun slot fresh hFresh => ?_⟩
        · rw [Materializer.continuesWanted, hAll slot]
          rfl
        · rw [Materializer.continuesWanted, hAll slot]
          exact congrArg some (hApplied slot fresh hFresh)
      · intro hWanted slot fresh hFresh
        have hSlot := (hWanted.elim And.right hNothing) slot fresh hFresh
        rw [Materializer.continuesWanted, hAll slot] at hSlot
        exact Option.some.inj hSlot
    · have hApplied : ∀ slot, ofSlot slot applied = [] := by
        intro slot
        rw [show applied = [] from hNone]
        rfl
      constructor
      · exact fun hNew => .inr fun slot fresh hFresh =>
          (hNew slot fresh hFresh).symm.trans (hApplied slot)
      · rintro (⟨hWanted, -⟩ | hNew) slot fresh hFresh
        · have := hWanted gap
          rw [Materializer.continuesWanted, hGap] at this
          cases this
        · rw [hApplied slot, hNew slot fresh hFresh]

/-- A gap in slot 2 keeps back the next commit of slot 1. -/
theorem gap_blocks_other_slot :
    let node : Node :=
      { backend := (((∅ : InMemoryBackend).insert 1 {}).insert 2 {})
        published := fun _ => some 1 }
    let materializer : Materializer := { pending := [⟨commitAt 1 1, 1⟩, ⟨commitAt 2 5, 1⟩] }
    materializer.continues node 1 = some [commitAt 1 1] ∧
      node.backend.applied (materializer.wanted node) = [] ∧
      ((materializer.flush node).2.1[(1 : Int64)]?.map (·.highestCommitted)) = some 0 ∧
      ¬∀ slot fresh, materializer.continues node slot = some fresh →
        ofSlot slot (node.backend.applied (materializer.wanted node)) = fresh := by
  intro node materializer
  have hContinues : materializer.continues node 1 = some [commitAt 1 1] := by decide +kernel
  have hApplied : node.backend.applied (materializer.wanted node) = [] := by decide +kernel
  refine ⟨hContinues, hApplied, by decide +kernel, fun hAll => ?_⟩
  have := hAll 1 _ hContinues
  rw [hApplied] at this
  cases this

end Craq.Backend
