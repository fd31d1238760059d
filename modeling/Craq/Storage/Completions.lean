import Craq.Storage.Batching

/-! # The completions of a flush

A flush completes the canceled intents of its batch when it looks at their contexts and, after the
append, the intents of the whole batch.  The completions are exact unless a canceled intent shares
the batch with one that is not.
-/

namespace Craq.Storage

/-! ## The marks of a batch -/

theorem popMarks_append (remainingOps remainingBytes : Int) (count : Nat)
    (entries : List PendingMark) :
    (popMarks remainingOps remainingBytes count entries).1 ++
      (popMarks remainingOps remainingBytes count entries).2 = entries := by
  induction entries generalizing count with
  | nil => rfl
  | cons entry entries ih =>
    rw [popMarks]
    split
    · rfl
    · split
      · rfl
      · exact congrArg (entry :: ·) (ih (count + 1))

theorem popMarkBatch_append (remainingOps remainingBytes : Int) (allow : Bool)
    (entries : List PendingMark) :
    (popMarkBatch remainingOps remainingBytes allow entries).1 ++
      (popMarkBatch remainingOps remainingBytes allow entries).2 = entries := by
  rw [popMarkBatch]
  split
  · rfl
  · exact popMarks_append remainingOps remainingBytes 0 entries

theorem popHeadRanges_perm (limitOps remainingBytes count : Nat) (entries : List PendingMark) :
    ((popHeadRanges limitOps remainingBytes count entries).1 ++
      (popHeadRanges limitOps remainingBytes count entries).2).Perm entries := by
  induction entries generalizing count with
  | nil => exact .refl _
  | cons entry entries ih =>
    rw [popHeadRanges]
    split
    · exact List.perm_middle.trans ((ih count).cons entry)
    · exact (ih (count + 1)).cons entry

/-- An entry stands for its intents: they are for the same chain and not beyond its sequence. -/
structure PendingMark.Sound (entry : PendingMark) : Prop where
  nonempty : entry.intents ≠ []
  key_eq : ∀ intent ∈ entry.intents, intent.key = entry.key
  le : ∀ intent ∈ entry.intents, intent.sequence ≤ entry.sequence

theorem MarkIntent.pending_sound (intent : MarkIntent) : intent.pending.Sound where
  nonempty := List.cons_ne_nil _ _
  key_eq other hOther := by cases List.mem_singleton.mp hOther; rfl
  le other hOther := by cases List.mem_singleton.mp hOther; exact le_rfl

theorem PendingMark.Sound.join {entry : PendingMark} (h : entry.Sound) {intent : MarkIntent}
    (hKey : entry.key = intent.key) : (entry.join intent).Sound := by
  have hIntents : (entry.join intent).intents = entry.intents ++ [intent] := rfl
  have hEntry : (entry.join intent).key = entry.key ∧
      (entry.join intent).sequence = max entry.sequence intent.sequence := by
    rw [PendingMark.join]
    split
    case isTrue hLarger =>
      refine ⟨?_, (max_eq_right hLarger.le).symm⟩
      simp only [PendingMark.key, MarkIntent.key, MarkKey.mk.injEq] at hKey ⊢
      exact ⟨trivial, hKey.2.1.symm, hKey.2.2.symm⟩
    case isFalse hSmaller => exact ⟨rfl, (max_eq_left (not_lt.mp hSmaller)).symm⟩
  refine ⟨by rw [hIntents]; simp, fun other hOther => ?_, fun other hOther => ?_⟩ <;>
    rw [hIntents] at hOther <;> rcases List.mem_append.mp hOther with hOther | hOther
  · exact (h.key_eq other hOther).trans hEntry.1.symm
  · rw [List.mem_singleton.mp hOther, hEntry.1, hKey]
  · rw [hEntry.2]
    exact (h.le other hOther).trans (le_max_left _ _)
  · rw [List.mem_singleton.mp hOther, hEntry.2]
    exact le_max_right _ _

theorem enqueuePendingMark_sound {entries : List PendingMark}
    (h : ∀ entry ∈ entries, entry.Sound) (intent : MarkIntent) :
    ∀ entry ∈ enqueuePendingMark entries intent, entry.Sound := by
  induction entries with
  | nil =>
    rw [enqueuePendingMark]
    exact List.forall_mem_singleton.mpr intent.pending_sound
  | cons entry entries ih =>
    have ⟨hEntry, hRest⟩ := List.forall_mem_cons.mp h
    rw [enqueuePendingMark]
    split
    case isTrue hKey => exact List.forall_mem_cons.mpr ⟨hEntry.join hKey, hRest⟩
    case isFalse => exact List.forall_mem_cons.mpr ⟨hEntry, ih hRest⟩

namespace Shard

def marks (shard : Shard) : List PendingMark :=
  shard.watermarks ++ shard.confirms

def Sound (shard : Shard) : Prop :=
  ∀ entry ∈ shard.marks, entry.Sound

variable {shard : Shard} (config : JournalConfig)

theorem batch_marks (shard : Shard) :
    ((shard.priorityBatch config).1 ++ (shard.watermarkBatch config).1 ++
      (shard.confirmBatch config).1 ++ (shard.unbatched config).marks).Perm shard.marks := by
  have hPriority : ((shard.priorityBatch config).1 ++ (shard.priorityBatch config).2).Perm
      shard.watermarks := popHeadRanges_perm _ _ _ _
  have hWatermarks : (shard.watermarkBatch config).1 ++ (shard.watermarkBatch config).2 =
      (shard.priorityBatch config).2 := popMarkBatch_append _ _ _ _
  have hConfirms : (shard.confirmBatch config).1 ++ (shard.confirmBatch config).2 =
      shard.confirms := popMarkBatch_append _ _ _ _
  refine List.Perm.trans ?_ (hPriority.append_right shard.confirms)
  rw [← hWatermarks, ← hConfirms, marks, unbatched]
  simp only [List.append_assoc]
  refine (List.Perm.append_left _ (List.Perm.append_left _ ?_))
  simp only [← List.append_assoc]
  exact List.perm_append_comm.append_right _

theorem mem_batch_mark {entry : PendingMark} (h : BatchItem.mark entry ∈ shard.batch config) :
    entry ∈ shard.marks := by
  apply (shard.batch_marks config).subset
  simp only [batch, List.mem_append, List.mem_map, BatchItem.mark.injEq, exists_eq_right,
    reduceCtorEq, and_false, exists_false, or_false] at h
  exact List.mem_append_left _ (by simpa only [List.mem_append] using h)

theorem Sound.flush (h : shard.Sound) (canceled : Cancellations) (appendErr : Option Error) :
    (shard.flush config canceled appendErr).1.Sound := by
  obtain ⟨prepared, committed, hShard⟩ := flush_shard config shard canceled appendErr
  rw [hShard]
  intro entry hEntry
  exact h entry ((shard.batch_marks config).subset (List.mem_append_right _ hEntry))

end Shard

theorem ShardRun.after_sound (config : JournalConfig) (events : List ShardEvent) :
    (ShardRun.after config events).shard.Sound := by
  suffices hRun : ∀ run : ShardRun, run.shard.Sound →
      (events.foldl (ShardRun.step config) run).shard.Sound from hRun {} nofun
  intro run hSound
  induction events generalizing run with
  | nil => exact hSound
  | cons event events ih =>
    refine ih _ ?_
    have ⟨hWatermarks, hConfirms⟩ := List.forall_mem_append.mp hSound
    cases event with
    | submit submission =>
      cases submission with
      | prepare intent => exact hSound
      | watermark intent =>
        exact List.forall_mem_append.mpr ⟨enqueuePendingMark_sound hWatermarks intent, hConfirms⟩
      | confirm intent =>
        exact List.forall_mem_append.mpr ⟨hWatermarks, enqueuePendingMark_sound hConfirms intent⟩
    | flush canceled appendErr => exact Shard.Sound.flush config hSound canceled appendErr

/-! ## High-water marks -/

theorem getD_raiseHigh (high : Std.ExtTreeMap Nat Nat) (raise : Option (Nat × Nat)) (slot : Nat)
    (h : (raiseHigh high raise).getD slot 0 ≠ high.getD slot 0) :
    raise = some (slot, (raiseHigh high raise).getD slot 0) := by
  cases raise with
  | none => exact (h rfl).elim
  | some raise =>
    rw [raiseHigh] at h ⊢
    split at h
    case isFalse => exact (h rfl).elim
    case isTrue hLarger =>
      rw [Lib.getD_insert_ite] at h
      split at h
      case isFalse => exact (h rfl).elim
      case isTrue hSlot =>
        rw [if_pos hLarger, Lib.getD_insert_ite, if_pos hSlot, ← hSlot]

theorem exists_raised (mark : BatchItem → Option (Nat × Nat)) (items : List BatchItem)
    (high : Std.ExtTreeMap Nat Nat) (slot : Nat)
    (h : (items.foldl (fun high item => raiseHigh high (mark item)) high).getD slot 0 ≠
      high.getD slot 0) :
    ∃ item ∈ items, mark item = some (slot,
      (items.foldl (fun high item => raiseHigh high (mark item)) high).getD slot 0) := by
  induction items generalizing high with
  | nil => exact (h rfl).elim
  | cons item items ih =>
    rw [List.foldl_cons] at h ⊢
    by_cases hLater : (items.foldl (fun high item => raiseHigh high (mark item))
        (raiseHigh high (mark item))).getD slot 0 = (raiseHigh high (mark item)).getD slot 0
    · rw [hLater] at h ⊢
      exact ⟨item, List.mem_cons_self, getD_raiseHigh high (mark item) slot h⟩
    · obtain ⟨later, hMem, hMark⟩ := ih (raiseHigh high (mark item)) hLater
      exact ⟨later, List.mem_cons_of_mem item hMem, hMark⟩

/-! ## Exact completions -/

def Flushed.handed (flushed : Flushed) : List Intent :=
  flushed.items.flatMap BatchItem.intents

def MarkType.entry (sequence : Nat) : MarkType → JournalEntry
  | .commitWatermark => .commitWatermark sequence
  | .headCommitRange => .headCommitRange sequence
  | .upstreamConfirm => .upstreamConfirm sequence

/-- The record is of the intent's slot and chain version and reaches its sequence. -/
def ShardRecord.Covers (record : ShardRecord) : Intent → Prop
  | .prepare intent => record = ⟨intent.slot, journalRecordFromPrepare intent.prepare⟩
  | .mark intent => record.slot = intent.assignment.slot ∧
      record.record.chainVersion = intent.assignment.chainVersion ∧
      ∃ sequence ≥ intent.sequence, record.record.entry = intent.recordType.entry sequence

def ShardRecord.Prepares (record : ShardRecord) (slot sequence : Nat) : Prop :=
  record.slot = slot ∧
    ∃ operation, record.record.entry = .prepare operation ∧ operation.sequence = sequence

def ShardRecord.Commits (record : ShardRecord) (slot sequence : Nat) : Prop :=
  record.slot = slot ∧ (record.record.entry = .commitWatermark sequence ∨
    record.record.entry = .headCommitRange sequence)

/-- What a flush hands to its intents and to the high-water marks is what it has appended. -/
structure FlushExact (before after : Shard) (flushed : Flushed) (appendErr : Option Error) :
    Prop where
  once : (flushed.completions.map Prod.fst).Perm flushed.handed
  success : ∀ intent, (intent, none) ∈ flushed.completions →
    appendErr = none ∧ ∃ record ∈ flushed.records, record.Covers intent
  prepared : ∀ slot, after.prepareHigh.getD slot 0 ≠ before.prepareHigh.getD slot 0 →
    appendErr = none ∧
      ∃ record ∈ flushed.records, record.Prepares slot (after.prepareHigh.getD slot 0)
  committed : ∀ slot, after.highWater.getD slot 0 ≠ before.highWater.getD slot 0 →
    appendErr = none ∧
      ∃ record ∈ flushed.records, record.Commits slot (after.highWater.getD slot 0)

section Batch

variable {items : List BatchItem} {canceled : Cancellations}

theorem canceledCompletions_fst (items : List BatchItem) (canceled : Cancellations) :
    (items.flatMap (BatchItem.canceledCompletions canceled)).map Prod.fst =
      (items.flatMap BatchItem.intents).filter fun intent => (canceled intent).isSome := by
  rw [List.map_flatMap, List.filter_flatMap]
  refine List.flatMap_congr fun item _ => ?_
  rw [BatchItem.canceledCompletions, List.map_map]
  exact List.map_id _

theorem completions_fst (items : List BatchItem) (appendErr : Option Error) :
    (items.flatMap fun item => item.intents.map (·, appendErr)).map Prod.fst =
      items.flatMap BatchItem.intents := by
  rw [List.map_flatMap]
  refine List.flatMap_congr fun item _ => ?_
  rw [List.map_map]
  exact List.map_id _

theorem records_eq_nil_iff :
    items.filterMap (BatchItem.record? canceled) = [] ↔
      ∀ intent ∈ items.flatMap BatchItem.intents, (canceled intent).isSome := by
  simp only [List.filterMap_eq_nil_iff, BatchItem.record?, ite_eq_left_iff, reduceCtorEq, imp_false,
    not_not, List.all_eq_true, List.mem_flatMap, forall_exists_index, and_imp]
  exact ⟨fun h intent item hItem hIntent => h item hItem intent hIntent,
    fun h item hItem intent hIntent => h intent item hItem hIntent⟩

variable {item : BatchItem}

theorem mem_records (hItem : item ∈ items) {intent : Intent} (hIntent : intent ∈ item.intents)
    (hKept : canceled intent = none) :
    item.record ∈ items.filterMap (BatchItem.record? canceled) := by
  refine List.mem_filterMap.mpr ⟨item, hItem, if_neg fun hAll => ?_⟩
  have := List.all_eq_true.mp hAll intent hIntent
  rw [hKept] at this
  cases this

theorem BatchItem.record_covers (hSound : ∀ entry, item = .mark entry → entry.Sound)
    {intent : Intent} (hIntent : intent ∈ item.intents) : item.record.Covers intent := by
  cases item with
  | prepare prepared =>
    cases List.mem_singleton.mp hIntent
    rfl
  | mark entry =>
    obtain ⟨mark, hMark, rfl⟩ := List.mem_map.mp hIntent
    have hKey := (hSound entry rfl).key_eq mark hMark
    simp only [MarkIntent.key, PendingMark.key, MarkKey.mk.injEq] at hKey
    refine ⟨hKey.2.1.symm, ?_, entry.sequence, (hSound entry rfl).le mark hMark, ?_⟩
    · rw [hKey.2.2, BatchItem.record]
      cases entry.recordType <;> rfl
    · rw [hKey.1, BatchItem.record]
      cases entry.recordType <;> rfl

theorem BatchItem.intents_ne_nil (hSound : ∀ entry, item = .mark entry → entry.Sound) :
    item.intents ≠ [] := by
  cases item with
  | prepare => exact List.cons_ne_nil _ _
  | mark entry => exact fun hNone => (hSound entry rfl).nonempty (List.map_eq_nil_iff.mp hNone)

end Batch

theorem BatchItem.record_prepares {item : BatchItem} {slot sequence : Nat}
    (h : item.prepared? = some (slot, sequence)) : item.record.Prepares slot sequence := by
  cases item with
  | mark => cases h
  | prepare intent =>
    obtain ⟨hSlot, hSequence⟩ := Prod.mk.inj (Option.some.inj h)
    exact ⟨hSlot, _, rfl, hSequence⟩

theorem BatchItem.record_commits {item : BatchItem} {slot sequence : Nat}
    (h : item.committed? = some (slot, sequence)) : item.record.Commits slot sequence := by
  cases item with
  | prepare => cases h
  | mark entry =>
    rw [BatchItem.committed?] at h
    rw [BatchItem.record]
    cases hType : entry.recordType with
    | upstreamConfirm =>
      rw [hType] at h
      cases h
    | commitWatermark =>
      rw [hType] at h
      obtain ⟨hSlot, hSequence⟩ := Prod.mk.inj (Option.some.inj h)
      exact ⟨hSlot, .inl (congrArg JournalEntry.commitWatermark hSequence)⟩
    | headCommitRange =>
      rw [hType] at h
      obtain ⟨hSlot, hSequence⟩ := Prod.mk.inj (Option.some.inj h)
      exact ⟨hSlot, .inr (congrArg JournalEntry.headCommitRange hSequence)⟩

namespace Shard

variable (config : JournalConfig) {shard : Shard} {canceled : Cancellations}
  {appendErr : Option Error}

theorem handed_flush (shard : Shard) (canceled : Cancellations) (appendErr : Option Error) :
    (shard.flush config canceled appendErr).2.handed =
      (shard.batch config).flatMap BatchItem.intents := by
  rw [Flushed.handed, flush_items]

theorem flush_exact_of_nothing
    (hRecords : (shard.batch config).filterMap (BatchItem.record? canceled) = []) :
    FlushExact shard (shard.flush config canceled appendErr).1
      (shard.flush config canceled appendErr).2 appendErr := by
  have hFlush : shard.flush config canceled appendErr = (shard.unbatched config,
      { items := shard.batch config
        completions := (shard.batch config).flatMap (BatchItem.canceledCompletions canceled) }) :=
    if_pos hRecords
  rw [hFlush]
  refine ⟨?_, ?_, fun slot hRaised => (hRaised rfl).elim, fun slot hRaised => (hRaised rfl).elim⟩
  · rw [canceledCompletions_fst, List.filter_eq_self.mpr (records_eq_nil_iff.mp hRecords)]
    exact .refl _
  · intro intent hNone
    obtain ⟨item, hItem, hNone⟩ := List.mem_flatMap.mp hNone
    obtain ⟨other, hOther, hEq⟩ := List.mem_map.mp hNone
    have hCanceled := (List.mem_filter.mp hOther).2
    rw [(Prod.mk.inj hEq).2] at hCanceled
    cases hCanceled

theorem flush_of_records
    (hRecords : (shard.batch config).filterMap (BatchItem.record? canceled) ≠ []) :
    shard.flush config canceled appendErr =
      (match appendErr with
        | some _ => shard.unbatched config
        | none => (shard.unbatched config).settle (shard.batch config),
      { items := shard.batch config
        records := (shard.batch config).filterMap (BatchItem.record? canceled)
        completions := (shard.batch config).flatMap (BatchItem.canceledCompletions canceled) ++
          (shard.batch config).flatMap fun item => item.intents.map (·, appendErr) }) := by
  refine (if_neg hRecords).trans ?_
  cases appendErr <;> rfl

/-- After an append a canceled intent is completed once more, with the batch. -/
theorem kept_of_once
    (hRecords : (shard.batch config).filterMap (BatchItem.record? canceled) ≠ [])
    (hOnce : ((shard.flush config canceled appendErr).2.completions.map Prod.fst).Perm
      (shard.flush config canceled appendErr).2.handed) :
    ∀ intent ∈ (shard.batch config).flatMap BatchItem.intents, canceled intent = none := by
  intro intent hIntent
  have hLength := hOnce.length_eq
  rw [handed_flush, flush_of_records config hRecords, List.map_append, canceledCompletions_fst,
    completions_fst, List.length_append] at hLength
  have hNone := List.length_eq_zero_iff.mp (Nat.add_eq_right.mp hLength)
  exact Option.not_isSome_iff_eq_none.mp (List.filter_eq_nil_iff.mp hNone intent hIntent)

theorem flush_exact_of_kept (hSound : shard.Sound)
    (hRecords : (shard.batch config).filterMap (BatchItem.record? canceled) ≠ [])
    (hKept : ∀ intent ∈ (shard.batch config).flatMap BatchItem.intents, canceled intent = none) :
    FlushExact shard (shard.flush config canceled appendErr).1
      (shard.flush config canceled appendErr).2 appendErr := by
  have hItems : ∀ item ∈ shard.batch config, ∀ entry, item = .mark entry → entry.Sound := by
    rintro item hItem entry rfl
    exact hSound entry (mem_batch_mark config hItem)
  have hRecord : ∀ item ∈ shard.batch config,
      item.record ∈ (shard.batch config).filterMap (BatchItem.record? canceled) := by
    intro item hItem
    obtain ⟨intent, hIntent⟩ := List.exists_mem_of_ne_nil _
      (BatchItem.intents_ne_nil (hItems item hItem))
    exact mem_records hItem hIntent (hKept intent (List.mem_flatMap.mpr ⟨item, hItem, hIntent⟩))
  have hDropped : (shard.batch config).flatMap (BatchItem.canceledCompletions canceled) = [] := by
    rw [← List.map_eq_nil_iff, canceledCompletions_fst, List.filter_eq_nil_iff]
    intro intent hIntent
    rw [hKept intent hIntent]
    exact Bool.false_ne_true
  rw [flush_of_records config hRecords, hDropped, List.nil_append]
  refine ⟨?_, fun intent hNone => ?_, fun slot hRaised => ?_, fun slot hRaised => ?_⟩
  · rw [completions_fst]
    exact .refl _
  · obtain ⟨item, hItem, hNone⟩ := List.mem_flatMap.mp hNone
    obtain ⟨other, hOther, hEq⟩ := List.mem_map.mp hNone
    cases hEq
    exact ⟨rfl, item.record, hRecord item hItem,
      BatchItem.record_covers (hItems item hItem) hOther⟩
  · cases appendErr with
    | some => exact (hRaised rfl).elim
    | none =>
      obtain ⟨item, hItem, hMark⟩ := exists_raised BatchItem.prepared? _ _ slot hRaised
      exact ⟨rfl, item.record, hRecord item hItem, BatchItem.record_prepares hMark⟩
  · cases appendErr with
    | some => exact (hRaised rfl).elim
    | none =>
      obtain ⟨item, hItem, hMark⟩ := exists_raised BatchItem.committed? _ _ slot hRaised
      exact ⟨rfl, item.record, hRecord item hItem, BatchItem.record_commits hMark⟩

end Shard

/-- The completions of a flush are exact just when none of the intents it selects is canceled or all
of them are, so that nothing is appended. -/
theorem flush_exact_iff (config : JournalConfig) (events : List ShardEvent)
    (canceled : Cancellations) (appendErr : Option Error) :
    let shard := (ShardRun.after config events).shard
    let result := shard.flush config canceled appendErr
    FlushExact shard result.1 result.2 appendErr ↔
      (∀ intent ∈ result.2.handed, canceled intent = none) ∨
        ∀ intent ∈ result.2.handed, (canceled intent).isSome := by
  intro shard result
  rw [show result.2.handed = _ from Shard.handed_flush config shard canceled appendErr]
  by_cases hRecords : (shard.batch config).filterMap (BatchItem.record? canceled) = []
  · exact iff_of_true (Shard.flush_exact_of_nothing config hRecords)
      (.inr (records_eq_nil_iff.mp hRecords))
  · rw [or_iff_left (mt records_eq_nil_iff.mpr hRecords)]
    exact ⟨fun hExact => Shard.kept_of_once config hRecords hExact.once,
      Shard.flush_exact_of_kept config (ShardRun.after_sound config events) hRecords⟩

def putIntent (call slot sequence : Nat) : JournalPrepareIntent where
  call := call
  prepare :=
    { operation :=
        { slot, sequence, kind := .put, key := "k", value := "v"
          metadata := { version := 1, createdAt := 0, updatedAt := 0 } }
      persisted :=
        { assignment := { slot, chainVersion := 1 }
          lastKnownState := .active
          highestCommittedSequence := 0
          highestUpstreamConfirmedSequence := 0
          hasCommittedData := false } }

/-- The context of one of two prepares is canceled: it is completed with the error and then with
success, and its slot is marked as prepared, though only the other record was appended. -/
theorem canceled_completed_twice :
    let shard := (ShardRun.after {}
      [.submit (.prepare (putIntent 0 1 5)), .submit (.prepare (putIntent 1 2 7))]).shard
    let canceled : Cancellations := fun intent =>
      if intent = .prepare (putIntent 0 1 5) then some (.sentinel .canceled "") else none
    let result := shard.flush {} canceled none
    result.2.completions =
        [(.prepare (putIntent 0 1 5), some (.sentinel .canceled "")),
          (.prepare (putIntent 0 1 5), none), (.prepare (putIntent 1 2 7), none)] ∧
      result.2.records.map ShardRecord.slot = [2] ∧
      result.1.prepareHigh.getD 1 0 = 5 ∧
      ¬FlushExact shard result.1 result.2 none := by
  intro shard canceled result
  have hTwice : result.2.completions =
      [(.prepare (putIntent 0 1 5), some (.sentinel .canceled "")),
        (.prepare (putIntent 0 1 5), none), (.prepare (putIntent 1 2 7), none)] := by
    decide +kernel
  have hHanded : result.2.handed = [.prepare (putIntent 0 1 5), .prepare (putIntent 1 2 7)] := by
    decide +kernel
  refine ⟨hTwice, by decide +kernel, by decide +kernel, fun hExact => ?_⟩
  have hLength := hExact.once.length_eq
  rw [hTwice, hHanded] at hLength
  cases hLength

end Craq.Storage
