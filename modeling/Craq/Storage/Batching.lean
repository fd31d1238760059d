import Craq.Storage.Shard

/-! # The batches of a shard

What the selection of prepares takes it takes from the fronts of the queues, one after the other,
and it ends with empty queues or a full batch.  Over a run of the shard every prepare that was submitted
has been selected or waits, each slot's in the order of submission.
-/

namespace Craq.Storage

/-! ## Taking from the queues -/

namespace PrepareQueue

variable {queue final : PrepareQueue} {slot : Nat} {intent : JournalPrepareIntent}
  {later taken : List JournalPrepareIntent}

def queued (queue : PrepareQueue) : List JournalPrepareIntent :=
  queue.order.flatMap queue.waiting

/-- The queues, the order and the totals belong together. -/
structure Consistent (queue : PrepareQueue) : Prop where
  listed : Lib.Listed queue.order queue.waiting
  slots : ∀ slot, ∀ intent ∈ queue.waiting slot, intent.slot = slot
  count_eq : queue.count = queue.queued.length
  bytes_eq : queue.bytes = (queue.queued.map JournalPrepareIntent.bytes).sum

/-- The queue without the intent at the front of a slot's queue. -/
def takeFront (queue : PrepareQueue) (slot : Nat) (intent : JournalPrepareIntent)
    (later : List JournalPrepareIntent) : PrepareQueue :=
  { queue.pop slot intent later with order := Lib.listLeft queue.order slot later }

/-- The intents are taken from the fronts of the queues, one after the other. -/
inductive Drains : PrepareQueue → List JournalPrepareIntent → PrepareQueue → Prop where
  | nil (queue : PrepareQueue) : Drains queue [] queue
  | cons {queue final : PrepareQueue} {slot : Nat} {intent : JournalPrepareIntent}
      {later taken : List JournalPrepareIntent} :
      queue.waiting slot = intent :: later →
      Drains (queue.takeFront slot intent later) taken final → Drains queue (intent :: taken) final

theorem waiting_enqueue (queue : PrepareQueue) (intent : JournalPrepareIntent) :
    (enqueuePendingPrepare queue intent).waiting =
      Function.update queue.waiting intent.slot (queue.waiting intent.slot ++ [intent]) := by
  funext other
  rw [waiting, enqueuePendingPrepare, Lib.getD_insert_ite, Function.update_apply]
  simp only [eq_comm, waiting]

theorem waiting_pop (queue : PrepareQueue) (slot : Nat) (intent : JournalPrepareIntent)
    (later : List JournalPrepareIntent) :
    (queue.pop slot intent later).waiting = Function.update queue.waiting slot later := by
  funext other
  rw [waiting, pop, Function.update_apply]
  by_cases hLast : later = []
  · simp only [hLast, if_true, Lib.getD_erase_ite, eq_comm, waiting]
  · simp only [hLast, if_false, Lib.getD_insert_ite, eq_comm, waiting]

theorem Consistent.empty : Consistent {} where
  listed := by
    have hWaiting : ({} : PrepareQueue).waiting = fun _ => [] := by
      funext slot
      exact Std.ExtTreeMap.getD_empty
    rw [hWaiting]
    exact .nil
  slots slot intent hIntent := by simp [waiting] at hIntent
  count_eq := rfl
  bytes_eq := rfl

theorem Consistent.enqueue (h : queue.Consistent) (intent : JournalPrepareIntent) :
    (enqueuePendingPrepare queue intent).Consistent := by
  have hPerm : (enqueuePendingPrepare queue intent).queued.Perm (queue.queued ++ [intent]) := by
    rw [queued, waiting_enqueue]
    exact h.listed.joined_perm
  refine ⟨?_, fun slot other hOther => ?_, ?_, ?_⟩
  · rw [waiting_enqueue]
    exact h.listed.joined
  · rw [waiting_enqueue, Function.update_apply] at hOther
    split at hOther
    case isTrue hSlot =>
      rcases List.mem_append.mp hOther with hOther | hOther
      · exact (h.slots _ other hOther).trans hSlot.symm
      · rw [List.mem_singleton.mp hOther, hSlot]
    case isFalse => exact h.slots slot other hOther
  · rw [hPerm.length_eq, List.length_append, ← h.count_eq]
    rfl
  · rw [(hPerm.map JournalPrepareIntent.bytes).sum_eq, List.map_append, List.sum_append,
      ← h.bytes_eq]
    rfl

theorem Consistent.takeFront_perm (h : queue.Consistent)
    (hFront : queue.waiting slot = intent :: later) :
    queue.queued.Perm (intent :: (queue.takeFront slot intent later).queued) := by
  have hWaiting : (queue.takeFront slot intent later).waiting =
      Function.update queue.waiting slot later := waiting_pop queue slot intent later
  rw [queued, queued, hWaiting]
  exact h.listed.left_perm hFront

theorem Consistent.takeFront (h : queue.Consistent)
    (hFront : queue.waiting slot = intent :: later) :
    (queue.takeFront slot intent later).Consistent := by
  have hPerm := h.takeFront_perm hFront
  have hWaiting : (queue.takeFront slot intent later).waiting =
      Function.update queue.waiting slot later := waiting_pop queue slot intent later
  refine ⟨?_, fun other waits hWaits => ?_, ?_, ?_⟩
  · rw [hWaiting]
    exact h.listed.left hFront
  · rw [hWaiting, Function.update_apply] at hWaits
    split at hWaits
    case isTrue hSlot =>
      rw [hSlot]
      exact h.slots slot waits (by rw [hFront]; exact List.mem_cons_of_mem intent hWaits)
    case isFalse => exact h.slots other waits hWaits
  · have hCount := h.count_eq
    rw [hPerm.length_eq, List.length_cons] at hCount
    exact Nat.sub_eq_of_eq_add hCount
  · have hBytes := h.bytes_eq
    rw [(hPerm.map JournalPrepareIntent.bytes).sum_eq, List.map_cons, List.sum_cons] at hBytes
    exact Nat.sub_eq_of_eq_add (hBytes.trans (Nat.add_comm _ _))

namespace Drains

theorem trans {middle : PrepareQueue} {more : List JournalPrepareIntent}
    (first : Drains queue taken middle) (second : Drains middle more final) :
    Drains queue (taken ++ more) final := by
  induction first with
  | nil => exact second
  | cons hFront _ ih => exact .cons hFront (ih second)

variable (h : Drains queue taken final)

include h

theorem consistent (hQueue : queue.Consistent) : final.Consistent := by
  induction h with
  | nil => exact hQueue
  | cons hFront _ ih => exact ih (hQueue.takeFront hFront)

theorem perm (hQueue : queue.Consistent) : queue.queued.Perm (taken ++ final.queued) := by
  induction h with
  | nil => exact .refl _
  | cons hFront _ ih =>
    exact (hQueue.takeFront_perm hFront).trans ((ih (hQueue.takeFront hFront)).cons _)

theorem waiting_eq (hQueue : queue.Consistent) (slot : Nat) :
    queue.waiting slot = taken.filter (·.slot = slot) ++ final.waiting slot := by
  induction h with
  | nil => rfl
  | @cons queue final place intent later taken hFront _ ih =>
    have hRest := ih (hQueue.takeFront hFront)
    have hSlot : intent.slot = place :=
      hQueue.slots place intent (by rw [hFront]; exact List.mem_cons_self)
    have hWaiting : (queue.takeFront place intent later).waiting slot =
        Function.update queue.waiting place later slot := by
      rw [← waiting_pop queue place intent later]
      rfl
    rw [hWaiting, Function.update_apply] at hRest
    by_cases hPlace : slot = place
    · cases hPlace
      rw [if_pos rfl] at hRest
      rw [List.filter_cons_of_pos (by simpa using hSlot), hFront, hRest, List.cons_append]
    · rw [if_neg hPlace] at hRest
      rw [List.filter_cons_of_neg (by simpa [hSlot] using Ne.symm hPlace), hRest]

end Drains

end PrepareQueue

/-! ## The selection of prepares -/

/-- A batch that has reached a limit, or that the next intent of some queue does not fit into. -/
def PrepareBatch.Full (config : JournalConfig) (batch : PrepareBatch) (queue : PrepareQueue) :
    Prop :=
  config.batchMaxOps ≤ batch.count ∨ config.batchMaxBytes ≤ batch.bytes ∨
    ∃ intent ∈ queue.queued, config.batchMaxBytes < batch.bytes + intent.bytes

/-- A selection takes the intents from the queues and puts them into the batch. -/
structure Selects (queue : PrepareQueue) (batch : PrepareBatch) (taken : List JournalPrepareIntent)
    (final : PrepareQueue) (filled : PrepareBatch) : Prop where
  drains : PrepareQueue.Drains queue taken final
  items : filled.items = batch.items ++ taken
  bytes : filled.bytes = batch.bytes + (taken.map JournalPrepareIntent.bytes).sum

namespace Selects

variable {queue middle final : PrepareQueue} {batch filled more : PrepareBatch}
  {taken rest : List JournalPrepareIntent}

theorem refl (queue : PrepareQueue) (batch : PrepareBatch) : Selects queue batch [] queue batch :=
  ⟨.nil queue, (List.append_nil _).symm, rfl⟩

theorem trans (first : Selects queue batch taken middle filled)
    (second : Selects middle filled rest final more) :
    Selects queue batch (taken ++ rest) final more where
  drains := first.drains.trans second.drains
  items := by rw [second.items, first.items, List.append_assoc]
  bytes := by rw [second.bytes, first.bytes, List.map_append, List.sum_append, Nat.add_assoc]

theorem count (h : Selects queue batch taken final filled) :
    filled.count = batch.count + taken.length := by
  rw [PrepareBatch.count, h.items, List.length_append]
  rfl

end Selects

section Selection

variable (config : JournalConfig)

/-- What a pass over the slots `rest` of the order `nextOrder ++ rest` leads to. -/
structure PrepareRound.Spec (queue : PrepareQueue) (batch : PrepareBatch) (rest : List Nat)
    (madeProgress : Bool) (round : PrepareRound) (taken : List JournalPrepareIntent) : Prop where
  selects : Selects queue batch taken round.queue round.batch
  progress : taken ≠ [] → round.madeProgress = true
  full : round.stopped = true → round.batch.Full config round.queue
  kept : madeProgress = true → round.madeProgress = true
  moves : rest ≠ [] → batch.count = 0 ∨ round.stopped = false → taken ≠ []

theorem popPrepareRound_spec (rest nextOrder : List Nat) (queue : PrepareQueue)
    (batch : PrepareBatch) (madeProgress : Bool)
    (h : { queue with order := nextOrder ++ rest }.Consistent) :
    ∃ taken, PrepareRound.Spec config { queue with order := nextOrder ++ rest } batch rest
      madeProgress (popPrepareRound config rest nextOrder queue batch madeProgress) taken := by
  induction rest generalizing nextOrder queue batch madeProgress with
  | nil =>
    rw [popPrepareRound, List.append_nil]
    exact ⟨[], .refl _ batch, fun hTaken => (hTaken rfl).elim, nofun, id,
      fun hRest => (hRest rfl).elim⟩
  | cons slot rest ih =>
    have hWaits : queue.waiting slot ≠ [] :=
      (h.listed.mem_iff slot).mp (List.mem_append_right nextOrder List.mem_cons_self)
    rw [popPrepareRound]
    cases hFront : queue.waiting slot with
    | nil => exact absurd hFront hWaits
    | cons intent later =>
      -- The order without the slot, or with the slot where it was.
      have hOrder : Lib.listLeft (nextOrder ++ slot :: rest) slot later =
          (if later = [] then nextOrder else nextOrder ++ [slot]) ++ rest := by
        rw [Lib.listLeft]
        split
        · exact Lib.erase_middle h.listed.nodup
        · exact (List.append_cons nextOrder slot rest)
      have hTake : Selects { queue with order := nextOrder ++ slot :: rest } batch [intent]
          { queue.pop slot intent later with
            order := (if later = [] then nextOrder else nextOrder ++ [slot]) ++ rest }
          (batch.push intent) := by
        refine ⟨.cons hFront ?_, rfl, rfl⟩
        rw [PrepareQueue.takeFront, hOrder]
        exact .nil _
      dsimp only
      split
      case isTrue hTooLarge =>
        have hMem : intent ∈ ({ queue with order := nextOrder ++ slot :: rest } :
            PrepareQueue).queued :=
          List.mem_flatMap.mpr ⟨slot, List.mem_append_right _ List.mem_cons_self,
            hFront ▸ List.mem_cons_self⟩
        refine ⟨[], .refl _ batch, fun hTaken => (hTaken rfl).elim,
          fun _ => .inr (.inr ⟨intent, hMem, hTooLarge.2⟩), id, fun _ hMoves => ?_⟩
        rcases hMoves with hEmpty | hMoves
        · exact absurd hEmpty hTooLarge.1.ne'
        · cases hMoves
      case isFalse =>
        split
        case isTrue hFull =>
          exact ⟨[intent], hTake, fun _ => rfl, fun _ => hFull.imp_right .inl, fun _ => rfl,
            fun _ _ => List.cons_ne_nil _ _⟩
        case isFalse =>
          obtain ⟨taken, hSpec⟩ := ih _ (queue.pop slot intent later) (batch.push intent) true
            (hTake.drains.consistent h)
          exact ⟨intent :: taken, hTake.trans hSpec.selects, fun _ => hSpec.kept rfl, hSpec.full,
            fun _ => hSpec.kept rfl, fun _ _ => List.cons_ne_nil _ _⟩

theorem popPrepareRounds_spec (passes : Nat) (queue : PrepareQueue) (batch : PrepareBatch)
    (h : queue.Consistent) (hPasses : config.batchMaxOps ≤ passes + batch.count) :
    ∃ taken, Selects queue batch taken (popPrepareRounds config passes queue batch).1
        (popPrepareRounds config passes queue batch).2 ∧
      ((popPrepareRounds config passes queue batch).1.order = [] ∨
        (popPrepareRounds config passes queue batch).2.Full config
          (popPrepareRounds config passes queue batch).1) ∧
      (queue.order ≠ [] → batch.count = 0 → batch.bytes = 0 → taken ≠ []) := by
  induction passes generalizing queue batch with
  | zero =>
    have hFull : config.batchMaxOps ≤ batch.count := hPasses.trans_eq (Nat.zero_add _)
    refine ⟨[], .refl queue batch, .inr (.inl hFull), fun _ hEmpty => ?_⟩
    have := config.batchMaxOps_pos
    omega
  | succ passes ih =>
    rw [popPrepareRounds]
    split
    case isFalse hStop =>
      refine ⟨[], .refl queue batch, ?_, fun hOrder hEmpty hBytes => (hStop ⟨hOrder, ?_, ?_⟩).elim⟩
      · by_cases hOrder : queue.order = []
        · exact .inl hOrder
        · simp only [ne_eq, hOrder, not_false_eq_true, true_and, not_and_or, not_lt] at hStop
          exact .inr (hStop.imp_right .inl)
      · rw [hEmpty]
        exact config.batchMaxOps_pos
      · rw [hBytes]
        exact config.batchMaxBytes_pos
    case isTrue hRoom =>
      obtain ⟨taken, hSpec⟩ := popPrepareRound_spec config queue.order [] queue batch false h
      dsimp only
      split
      case isTrue hEnd =>
        refine ⟨taken, hSpec.selects, .inr ?_,
          fun hOrder hEmpty _ => hSpec.moves hOrder (.inl hEmpty)⟩
        rw [Bool.or_eq_true, Bool.not_eq_true'] at hEnd
        by_cases hStopped : (popPrepareRound config queue.order [] queue batch false).stopped = true
        · exact hSpec.full hStopped
        · have hTaken := hSpec.moves hRoom.1 (.inr (Bool.eq_false_iff.mpr hStopped))
          rw [hSpec.progress hTaken] at hEnd
          rcases hEnd with hEnd | hEnd
          · exact absurd hEnd hStopped
          · cases hEnd
      case isFalse hOn =>
        rw [Bool.or_eq_true, not_or, Bool.not_eq_true] at hOn
        have hTaken := hSpec.moves hRoom.1 (.inr hOn.1)
        have hMore : config.batchMaxOps ≤
            passes + (popPrepareRound config queue.order [] queue batch false).batch.count := by
          have := List.length_pos_iff.mpr hTaken
          rw [hSpec.selects.count]
          omega
        obtain ⟨rest, hRest, hEnd, -⟩ := ih _ _ (hSpec.selects.drains.consistent h) hMore
        refine ⟨taken ++ rest, hSpec.selects.trans hRest, hEnd, fun _ _ _ hNone => hTaken ?_⟩
        exact (List.append_eq_nil_iff.mp hNone).1

/-- The selection takes its batch from the fronts of the queues, at least one intent if there is
any, and goes on until nothing is left or the batch is full. -/
theorem popPrepareBatch_spec {queue : PrepareQueue} (h : queue.Consistent) :
    Selects queue {} (popPrepareBatch config queue).2.items (popPrepareBatch config queue).1
        (popPrepareBatch config queue).2 ∧
      ((popPrepareBatch config queue).1.queued = [] ∨
        (popPrepareBatch config queue).2.Full config (popPrepareBatch config queue).1) ∧
      (queue.count ≠ 0 → (popPrepareBatch config queue).2.items ≠ []) := by
  rw [popPrepareBatch]
  split
  case isTrue hNone =>
    have hQueued : queue.queued = [] := by
      rcases hNone with hCount | hOrder
      · exact List.length_eq_zero_iff.mp (h.count_eq ▸ hCount)
      · rw [PrepareQueue.queued, hOrder, List.flatMap_nil]
    refine ⟨.refl queue {}, .inl hQueued, fun hCount => (hCount ?_).elim⟩
    rw [h.count_eq, hQueued, List.length_nil]
  case isFalse hSome =>
    obtain ⟨hCount, hOrder⟩ := not_or.mp hSome
    obtain ⟨taken, hSelects, hEnd, hTaken⟩ :=
      popPrepareRounds_spec config config.batchMaxOps queue {} h (Nat.le_add_right _ _)
    have hItems := hSelects.items
    rw [List.nil_append] at hItems
    rw [hItems]
    refine ⟨hSelects, hEnd.imp_left fun hNone => ?_, fun _ => hTaken hOrder rfl rfl⟩
    rw [PrepareQueue.queued, hNone, List.flatMap_nil]

end Selection

/-! ## Runs of a shard -/

inductive ShardEvent where
  | submit (submission : Submission)
  | flush (canceled : Cancellations) (appendErr : Option Error)

def BatchItem.prepare? : BatchItem → Option JournalPrepareIntent
  | .prepare intent => some intent
  | .mark _ => none

def Submission.prepare? : Submission → Option JournalPrepareIntent
  | .prepare intent => some intent
  | .watermark _ | .confirm _ => none

/-- A shard with the prepares that were submitted to it and those its flushes selected. -/
structure ShardRun where
  shard : Shard := {}
  submitted : List JournalPrepareIntent := []
  selected : List JournalPrepareIntent := []

namespace ShardRun

variable (config : JournalConfig) (run : ShardRun)

def step : ShardEvent → ShardRun
  | .submit submission =>
    { run with
      shard := run.shard.enqueue submission
      submitted := run.submitted ++ submission.prepare?.toList }
  | .flush canceled appendErr =>
    { run with
      shard := (run.shard.flush config canceled appendErr).1
      selected := run.selected ++
        (run.shard.flush config canceled appendErr).2.items.filterMap BatchItem.prepare? }

def after (events : List ShardEvent) : ShardRun :=
  events.foldl (step config) {}

end ShardRun

section Flush

variable (config : JournalConfig) (shard : Shard) (canceled : Cancellations)
  (appendErr : Option Error)

theorem flush_shard :
    ∃ prepared committed, (shard.flush config canceled appendErr).1 =
      { shard.unbatched config with prepareHigh := prepared, highWater := committed } := by
  rw [Shard.flush]
  dsimp only
  split
  · exact ⟨_, _, rfl⟩
  · cases appendErr <;> exact ⟨_, _, rfl⟩

theorem flush_items :
    (shard.flush config canceled appendErr).2.items = shard.batch config := by
  rw [Shard.flush]
  dsimp only
  split
  · rfl
  · cases appendErr <;> rfl

theorem flush_prepares :
    (shard.flush config canceled appendErr).1.prepares =
      (popPrepareBatch config shard.prepares).1 := by
  obtain ⟨prepared, committed, hShard⟩ := flush_shard config shard canceled appendErr
  rw [hShard]
  rfl

theorem flush_selected :
    (shard.flush config canceled appendErr).2.items.filterMap BatchItem.prepare? =
      (popPrepareBatch config shard.prepares).2.items := by
  have hMarks (entries : List PendingMark) :
      (entries.map BatchItem.mark).filterMap BatchItem.prepare? = [] := by
    rw [List.filterMap_map, List.filterMap_eq_nil_iff]
    exact fun _ _ => rfl
  have hPrepares (intents : List JournalPrepareIntent) :
      (intents.map BatchItem.prepare).filterMap BatchItem.prepare? = intents := by
    rw [List.filterMap_map]
    exact List.filterMap_some
  rw [flush_items, Shard.batch]
  simp only [List.filterMap_append, hMarks, hPrepares, List.nil_append, List.append_nil]
  rfl

end Flush

namespace ShardRun

variable (config : JournalConfig) {run : ShardRun}

/-- Every submitted prepare has been selected or waits, those of a slot in their order. -/
structure Exact (run : ShardRun) : Prop where
  consistent : run.shard.prepares.Consistent
  perm : (run.selected ++ run.shard.prepares.queued).Perm run.submitted
  inOrder : ∀ slot, run.selected.filter (·.slot = slot) ++ run.shard.prepares.waiting slot =
    run.submitted.filter (·.slot = slot)

theorem Exact.empty : Exact {} where
  consistent := .empty
  perm := .refl _
  inOrder slot := by simp [PrepareQueue.waiting]

variable (h : run.Exact)

include h

theorem Exact.prepare (intent : JournalPrepareIntent) :
    (run.step config (.submit (.prepare intent))).Exact where
  consistent := h.consistent.enqueue intent
  perm := by
    have hQueued : (enqueuePendingPrepare run.shard.prepares intent).queued.Perm
        (run.shard.prepares.queued ++ [intent]) := by
      rw [PrepareQueue.queued, PrepareQueue.waiting_enqueue]
      exact h.consistent.listed.joined_perm
    refine (hQueued.append_left run.selected).trans ?_
    rw [← List.append_assoc]
    exact h.perm.append_right [intent]
  inOrder slot := by
    have hSlot := h.inOrder slot
    change run.selected.filter _ ++ (enqueuePendingPrepare run.shard.prepares intent).waiting slot =
      (run.submitted ++ [intent]).filter _
    rw [PrepareQueue.waiting_enqueue, Function.update_apply, List.filter_append, ← hSlot]
    by_cases hIntent : slot = intent.slot
    · simp [hIntent, List.append_assoc]
    · simp [hIntent, Ne.symm hIntent]

theorem Exact.mark {submission : Submission} (hMark : submission.prepare? = none)
    (hPrepares : (run.shard.enqueue submission).prepares = run.shard.prepares) :
    (run.step config (.submit submission)).Exact := by
  have hSubmitted : run.submitted ++ submission.prepare?.toList = run.submitted := by
    rw [hMark]
    exact List.append_nil _
  refine ⟨?_, ?_, fun slot => ?_⟩
  · rw [step, hPrepares]
    exact h.consistent
  · simp only [step, hPrepares, hSubmitted]
    exact h.perm
  · simp only [step, hPrepares, hSubmitted]
    exact h.inOrder slot

theorem Exact.flush (canceled : Cancellations) (appendErr : Option Error) :
    (run.step config (.flush canceled appendErr)).Exact := by
  obtain ⟨hSelects, -, -⟩ := popPrepareBatch_spec config h.consistent
  refine ⟨?_, ?_, fun slot => ?_⟩
  · rw [step, flush_prepares]
    exact hSelects.drains.consistent h.consistent
  · simp only [step, flush_prepares, flush_selected]
    rw [List.append_assoc]
    exact (((hSelects.drains.perm h.consistent).symm).append_left _).trans h.perm
  · simp only [step, flush_prepares, flush_selected]
    rw [List.filter_append, List.append_assoc, ← hSelects.drains.waiting_eq h.consistent slot]
    exact h.inOrder slot

theorem Exact.step (event : ShardEvent) : (run.step config event).Exact := by
  cases event with
  | submit submission =>
    cases submission with
    | prepare intent => exact h.prepare config intent
    | watermark intent | confirm intent => exact h.mark config rfl rfl
  | flush canceled appendErr => exact h.flush config canceled appendErr

theorem Exact.foldl (events : List ShardEvent) :
    (events.foldl (ShardRun.step config) run).Exact := by
  induction events generalizing run with
  | nil => exact h
  | cons event events ih => exact ih (h.step config event)

/-- As many flushes as prepares are pending leave none. -/
theorem Exact.flushes (flushes : List (Cancellations × Option Error))
    (hCount : run.shard.prepares.count ≤ flushes.length) :
    ((flushes.map fun outcome => ShardEvent.flush outcome.1 outcome.2).foldl
        (ShardRun.step config) run).shard.prepares.queued = [] ∧
      ((flushes.map fun outcome => ShardEvent.flush outcome.1 outcome.2).foldl
        (ShardRun.step config) run).submitted = run.submitted := by
  induction flushes generalizing run with
  | nil =>
    rw [h.consistent.count_eq] at hCount
    exact ⟨List.length_eq_zero_iff.mp (Nat.le_zero.mp hCount), rfl⟩
  | cons outcome flushes ih =>
    have hNext := h.flush config outcome.1 outcome.2
    refine ih hNext ?_
    obtain ⟨hSelects, -, hSome⟩ := popPrepareBatch_spec config h.consistent
    have hLength := (hSelects.drains.perm h.consistent).length_eq
    rw [List.length_append, ← h.consistent.count_eq] at hLength
    rw [hNext.consistent.count_eq, ShardRun.step, flush_prepares]
    rw [List.length_cons] at hCount
    by_cases hZero : run.shard.prepares.count = 0
    · omega
    · have := List.length_pos_iff.mpr (hSome hZero)
      omega

end ShardRun

/-- Over every run of a shard the prepares that were submitted are those selected and those still
queued, each once and slot by slot in the order of submission; the totals are those of the queued
ones; a flush selects one of them if there is any, and as many flushes as there are prepares
pending have selected all. -/
theorem batching_exact (config : JournalConfig) (events : List ShardEvent) :
    let run := ShardRun.after config events
    (∀ slot, run.selected.filter (·.slot = slot) ++ run.shard.prepares.waiting slot =
        run.submitted.filter (·.slot = slot)) ∧
      (run.selected ++ run.shard.prepares.queued).Perm run.submitted ∧
      run.shard.prepares.count = run.shard.prepares.queued.length ∧
      run.shard.prepares.bytes = (run.shard.prepares.queued.map JournalPrepareIntent.bytes).sum ∧
      (∀ canceled appendErr, run.shard.prepares.queued ≠ [] →
        (run.shard.flush config canceled appendErr).2.items.filterMap BatchItem.prepare? ≠ []) ∧
      ∀ flushes : List (Cancellations × Option Error),
        run.shard.prepares.count ≤ flushes.length →
        let final := ShardRun.after config
          (events ++ flushes.map fun outcome => .flush outcome.1 outcome.2)
        final.selected.Perm run.submitted ∧
          ∀ slot, final.selected.filter (·.slot = slot) = run.submitted.filter (·.slot = slot) := by
  have hRun : (ShardRun.after config events).Exact := ShardRun.Exact.empty.foldl config events
  refine ⟨hRun.inOrder, hRun.perm, hRun.consistent.count_eq, hRun.consistent.bytes_eq,
    fun canceled appendErr hQueued => ?_, fun flushes hCount => ?_⟩
  · rw [flush_selected]
    refine (popPrepareBatch_spec config hRun.consistent).2.2 fun hZero => hQueued ?_
    exact List.length_eq_zero_iff.mp (hRun.consistent.count_eq ▸ hZero)
  · obtain ⟨hQueued, hSubmitted⟩ := hRun.flushes config flushes hCount
    have hFinal : (ShardRun.after config
        (events ++ flushes.map fun outcome => .flush outcome.1 outcome.2)).Exact :=
      ShardRun.Exact.empty.foldl config _
    have hSplit : ShardRun.after config
        (events ++ flushes.map fun outcome => .flush outcome.1 outcome.2) =
          (flushes.map fun outcome => ShardEvent.flush outcome.1 outcome.2).foldl
            (ShardRun.step config) (ShardRun.after config events) := List.foldl_append
    rw [← hSplit] at hQueued hSubmitted
    refine ⟨?_, fun slot => ?_⟩
    · have hPerm := hFinal.perm
      rwa [hQueued, List.append_nil, hSubmitted] at hPerm
    · have hSlot := hFinal.inOrder slot
      have hEmpty : (ShardRun.after config (events ++
          flushes.map fun outcome => .flush outcome.1 outcome.2)).shard.prepares.waiting slot =
            [] := by
        by_contra hWaits
        have hListed := (hFinal.consistent.listed.mem_iff slot).mpr hWaits
        exact hWaits (List.flatMap_eq_nil_iff.mp hQueued slot hListed)
      rwa [hEmpty, List.append_nil, hSubmitted] at hSlot

end Craq.Storage
