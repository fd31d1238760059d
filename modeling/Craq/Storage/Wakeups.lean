import Craq.Backend.Materializer
import Craq.Lib.Run
import Craq.Storage.Completions

/-! # When the storage loops wait

A loop that waits with something pending and no timer is woken by nothing of its own.  The loop of a
journal shard stops its timer for a flush and does not arm it again for what the flush leaves; the
materializer does not arm it again after a full batch has failed.  As long as a batch has room for
what is pending, and full batches are applied, neither loop sleeps on work.
-/

namespace Craq.Storage

open Lib (Reaches run)

/-! ## A flush with room for everything -/

theorem popMarks_all {remainingOps remainingBytes : Int} {count : Nat} {entries : List PendingMark}
    (hOps : ((count + entries.length : Nat) : Int) ≤ remainingOps)
    (hBytes : ((count + entries.length : Nat) : Int) * 64 ≤ remainingBytes) :
    popMarks remainingOps remainingBytes count entries = (entries, []) := by
  induction entries generalizing count with
  | nil => rfl
  | cons entry entries ih =>
    rw [List.length_cons] at hOps hBytes
    rw [popMarks, if_neg (by omega)]
    split
    case isTrue hFull =>
      have hNone : entries = [] := List.length_eq_zero_iff.mp (by omega)
      rw [hNone]
    case isFalse => rw [ih (by omega) (by omega)]

namespace Shard

variable {shard : Shard} (config : JournalConfig)

def depth (shard : Shard) : Nat :=
  shard.prepares.count + shard.watermarks.length + shard.confirms.length

def Fits (shard : Shard) : Prop :=
  shard.depth ≤ config.batchMaxOps ∧
    shard.prepares.bytes + (shard.watermarks.length + shard.confirms.length) * 64 ≤
      config.batchMaxBytes

variable (h : shard.prepares.Consistent)

include h

theorem prepareBatch_all (hFits : shard.Fits config) :
    (shard.prepareBatch config).1.queued = [] ∧
      (shard.prepareBatch config).2.count = shard.prepares.count ∧
      (shard.prepareBatch config).2.bytes = shard.prepares.bytes := by
  obtain ⟨hSelects, hEnd, -⟩ := popPrepareBatch_spec config h
  have hPerm := hSelects.drains.perm h
  have hCount := h.count_eq
  have hBytes := h.bytes_eq
  have hTaken : (popPrepareBatch config shard.prepares).2.bytes = _ :=
    hSelects.bytes.trans (Nat.zero_add _)
  rw [hPerm.length_eq, List.length_append] at hCount
  rw [(hPerm.map JournalPrepareIntent.bytes).sum_eq, List.map_append, List.sum_append] at hBytes
  have hNone : (popPrepareBatch config shard.prepares).1.queued = [] := by
    by_contra hLeft
    obtain ⟨left, hLeft⟩ := List.exists_mem_of_ne_nil _ hLeft
    have hPositive : 128 ≤ left.bytes := Nat.le_add_left 128 _
    have hOne := List.le_sum_of_mem (List.mem_map_of_mem (f := JournalPrepareIntent.bytes) hLeft)
    have hLength := List.length_pos_of_mem hLeft
    obtain ⟨hOps, hRoom⟩ := hFits
    simp only [depth] at hOps
    rcases hEnd with hEnd | hFull | hFull | ⟨intent, hIntent, hFull⟩
    · rw [hEnd] at hLeft
      cases hLeft
    · simp only [PrepareBatch.count] at hFull
      omega
    · omega
    · have hThis := List.le_sum_of_mem
        (List.mem_map_of_mem (f := JournalPrepareIntent.bytes) hIntent)
      omega
  rw [hNone] at hCount hBytes
  refine ⟨hNone, hCount.symm, ?_⟩
  change (popPrepareBatch config shard.prepares).2.bytes = _
  rw [hTaken, hBytes]
  rfl

theorem popMarksAfter_all (hFits : shard.Fits config) {marks : Nat} {entries : List PendingMark}
    (hMarks : (shard.priorityBatch config).1.length + marks + entries.length ≤
      shard.watermarks.length + shard.confirms.length) :
    shard.popMarksAfter config marks entries = (entries, []) := by
  obtain ⟨-, hCount, hBytes⟩ := prepareBatch_all config h hFits
  obtain ⟨hOps, hRoom⟩ := hFits
  rw [depth] at hOps
  rw [popMarksAfter, popMarkBatch, remainingOps, remainingBytes, hCount, hBytes]
  cases entries with
  | nil => split <;> rfl
  | cons entry entries =>
    rw [List.length_cons] at hMarks
    have hAllow : (decide (shard.prepares.count = 0 ∨ (config.batchMaxOps : Int) -
        (shard.priorityBatch config).1.length - shard.prepares.count - marks > 0)) = true :=
      decide_eq_true (.inr (by omega))
    rw [hAllow, if_neg (by simp only [Bool.not_true, Bool.false_eq_true, false_or]; omega)]
    refine popMarks_all ?_ ?_ <;> rw [List.length_cons] <;> omega

theorem flush_depth (hFits : shard.Fits config) (canceled : Cancellations)
    (appendErr : Option Error) : (shard.flush config canceled appendErr).1.depth = 0 := by
  obtain ⟨prepared, committed, hShard⟩ := flush_shard config shard canceled appendErr
  obtain ⟨hSelects, -⟩ := popPrepareBatch_spec config h
  have hPrepares : (shard.prepareBatch config).1.count = 0 := by
    have hFinal := hSelects.drains.consistent h
    exact hFinal.count_eq.trans (List.length_eq_zero_iff.mpr (prepareBatch_all config h hFits).1)
  have hPriority : (shard.priorityBatch config).1.length + (shard.priorityBatch config).2.length =
      shard.watermarks.length := by
    rw [← List.length_append]
    exact (popHeadRanges_perm _ _ _ _).length_eq
  have hWatermarks : shard.watermarkBatch config = ((shard.priorityBatch config).2, []) :=
    popMarksAfter_all config h hFits (by omega)
  have hConfirms : shard.confirmBatch config = (shard.confirms, []) := by
    refine popMarksAfter_all config h hFits ?_
    rw [hWatermarks]
    exact Nat.add_le_add_right hPriority.le _
  rw [hShard]
  simp only [depth, unbatched, hPrepares, hWatermarks, hConfirms, List.length_nil]

end Shard

/-! ## The loop of a shard -/

inductive Channel where
  | prepare
  | watermark
  | confirm
deriving DecidableEq

def Submission.channel : Submission → Channel
  | .prepare _ => .prepare
  | .watermark _ => .watermark
  | .confirm _ => .confirm

/-- A shard and the submissions in its channels, in the order of their arrival. -/
structure ShardLoop where
  shard : Shard := {}
  channels : List Submission := []

/-- A received intent finds the channels as they are, with `early` in them when they are looked at
again and `late` as well at the last look. -/
inductive LoopEvent where
  | submit (submission : Submission)
  | receive (channel : Channel) (early late : List Submission) (canceled : Cancellations)
      (appendErr : Option Error)
  | fire (canceled : Cancellations) (appendErr : Option Error)

namespace ShardLoop

variable (config : JournalConfig) (loop : ShardLoop)

def receive (submission : Submission) (left early late : List Submission)
    (canceled : Cancellations) (appendErr : Option Error) : ShardLoop :=
  let shard := loop.shard.enqueue submission
  let shard := if left.length + shard.depth = 1 then { shard with timer := true } else shard
  let channels := left ++ early ++ late
  if ((left ++ early).length + shard.depth > 1 ∧ channels = []) ∨
      shard.prepares.count ≥ config.batchMaxOps ∨ shard.prepares.bytes ≥ config.batchMaxBytes then
    { shard := (shard.flush config canceled appendErr).1, channels }
  else { shard, channels }

def step : LoopEvent → Option ShardLoop
  | .submit submission => some { loop with channels := loop.channels ++ [submission] }
  | .receive channel early late canceled appendErr =>
    (loop.channels.find? (·.channel = channel)).map fun submission =>
      loop.receive config submission (loop.channels.eraseP (·.channel = channel)) early late
        canceled appendErr
  | .fire canceled appendErr =>
    if loop.shard.timer then
      some { loop with shard := (loop.shard.flush config canceled appendErr).1 }
    else none

/-- When the channels are drained, a batch has room for all that is pending. -/
def Room : LoopEvent → Prop
  | .submit _ => True
  | .receive channel _ _ _ _ => loop.channels.eraseP (·.channel = channel) = [] →
      ∀ submission, loop.channels.find? (·.channel = channel) = some submission →
        (loop.shard.enqueue submission).Fits config
  | .fire _ _ => loop.channels = [] → loop.shard.Fits config

/-- The loop does not wait with something pending and no timer. -/
structure Awake : Prop where
  consistent : loop.shard.prepares.Consistent
  armed : loop.channels = [] → loop.shard.depth ≠ 0 → loop.shard.timer = true

variable {loop}

theorem awake_flush {shard : Shard} {channels : List Submission}
    (h : shard.prepares.Consistent) (hFits : channels = [] → shard.Fits config)
    (canceled : Cancellations) (appendErr : Option Error) :
    Awake { shard := (shard.flush config canceled appendErr).1, channels } where
  consistent := by
    rw [flush_prepares]
    exact (popPrepareBatch_spec config h).1.drains.consistent h
  armed hEmpty hDepth :=
    absurd (Shard.flush_depth config h (hFits hEmpty) canceled appendErr) hDepth

theorem Awake.receive (h : loop.Awake) {submission : Submission} {left early late : List Submission}
    (hFits : left = [] → (loop.shard.enqueue submission).Fits config) (canceled : Cancellations)
    (appendErr : Option Error) :
    (loop.receive config submission left early late canceled appendErr).Awake := by
  have hConsistent : (loop.shard.enqueue submission).prepares.Consistent := by
    cases submission with
    | prepare intent => exact h.consistent.enqueue intent
    | watermark | confirm => exact h.consistent
  generalize hShard : (if left.length + (loop.shard.enqueue submission).depth = 1 then
    { loop.shard.enqueue submission with timer := true } else loop.shard.enqueue submission) = shard
  have hPrepares : shard.prepares.Consistent := by
    rw [← hShard]
    split <;> exact hConsistent
  have hRoom : left ++ early ++ late = [] → shard.Fits config := by
    intro hEmpty
    have hLeft := (List.append_eq_nil_iff.mp (List.append_eq_nil_iff.mp hEmpty).1).1
    rw [← hShard]
    split <;> exact hFits hLeft
  rw [ShardLoop.receive, hShard]
  split
  case isTrue => exact awake_flush config hPrepares hRoom canceled appendErr
  case isFalse hOn =>
    refine ⟨hPrepares, fun hEmpty hDepth => ?_⟩
    -- With empty channels there was no flush, so this is the only one pending.
    have hLengths : (left ++ early).length = 0 ∧ left.length = 0 := by
      have := congrArg List.length hEmpty
      simp only [List.length_append, List.length_nil] at this ⊢
      omega
    have hOne : shard.depth = 1 := by
      have : ¬((left ++ early).length + shard.depth > 1) := fun hMore => hOn (.inl ⟨hMore, hEmpty⟩)
      change shard.depth ≠ 0 at hDepth
      omega
    have hSame : (loop.shard.enqueue submission).depth = shard.depth := by
      rw [← hShard]
      split <;> rfl
    rw [← hShard, if_pos (by omega)]

theorem Awake.step (h : loop.Awake) {event : LoopEvent} {next : ShardLoop}
    (hRoom : loop.Room config event) (hStep : loop.step config event = some next) : next.Awake := by
  cases event with
  | submit submission =>
    cases hStep
    exact ⟨h.consistent, fun hEmpty => absurd hEmpty (by simp)⟩
  | receive channel early late canceled appendErr =>
    obtain ⟨submission, hFound, rfl⟩ := Option.map_eq_some_iff.mp hStep
    exact h.receive config (fun hLeft => hRoom hLeft submission hFound) canceled appendErr
  | fire canceled appendErr =>
    obtain ⟨-, hNext⟩ := Option.ite_none_right_eq_some.mp hStep
    cases hNext
    exact awake_flush config h.consistent hRoom canceled appendErr

end ShardLoop

end Craq.Storage

namespace Craq.Backend

open Lib (Reaches run)

/-! ## The loop of a materializer -/

def defaultMaterializeBatchMaxOps : Nat := 128

inductive MaterializerEvent where
  | control (slot : Int64) (allow : Bool)
  | submit (commits : List PendingCommit) (node : Node) (failure : Option Storage.Error)
  | fire (node : Node) (failure : Option Storage.Error)

namespace Materializer

variable (materializer : Materializer)

def started (backlog : List PendingCommit) : Materializer where
  pending := backlog
  timer := !backlog.isEmpty

/-- The commits join unless their slot is dropped, and the timer is armed if it is not. -/
def join (commits : List PendingCommit) : Materializer :=
  let pending := materializer.pending ++
    commits.filter fun pending => !materializer.suppressed.contains pending.commit.slot
  { materializer with pending, timer := materializer.timer || !pending.isEmpty }

def step : MaterializerEvent → Option Materializer
  | .control slot true =>
    some { materializer with suppressed := materializer.suppressed.erase slot }
  | .control slot false =>
    some { materializer with
      suppressed := materializer.suppressed.insert slot ()
      pending := materializer.pending.filter (·.commit.slot ≠ slot) }
  | .submit commits node failure =>
    let joined := materializer.join commits
    if joined.pending.length ≥ defaultMaterializeBatchMaxOps then some (joined.flush node failure).1
    else some joined
  | .fire node failure =>
    if materializer.timer then
      let flushed := (materializer.flush node failure).1
      some { flushed with
        timer := !(materializer.flush node failure).2.2 && !flushed.pending.isEmpty }
    else none

/-- The commits of a full batch continue the backend's sequence in every slot, and no call of the
backend fails. -/
def Ready : MaterializerEvent → Prop
  | .control _ _ | .fire _ _ => True
  | .submit commits node failure =>
    (materializer.join commits).pending.length ≥ defaultMaterializeBatchMaxOps →
      failure = none ∧ ∀ slot, ((materializer.join commits).continuesWanted node slot).isSome

theorem flush_cases (node : Node) (failure : Option Storage.Error) :
    (materializer.flush node failure).2.2 = false ∧
        (failure ≠ none ∨ ∃ slot, materializer.continuesWanted node slot = none) ∨
      (materializer.flush node failure).2.2 = true ∧
        (materializer.flush node failure).1.pending = [] := by
  rw [flush]
  dsimp only
  split
  case isTrue => exact .inr ⟨rfl, rfl⟩
  case isFalse =>
    by_cases hFailure : failure = none
    case neg =>
      rw [if_pos (Option.isSome_iff_ne_none.mpr hFailure)]
      exact .inl ⟨rfl, .inl hFailure⟩
    rw [hFailure, if_neg (by decide)]
    obtain ⟨err, hFilter, hBatch⟩ | ⟨filtered, final, -, -, hBatch⟩ :=
      node.backend.applyMaterializedBatch_spec (materializer.wanted node)
    · rw [hBatch]
      obtain ⟨filtered, hOk, -⟩ | ⟨-, slot, -, hSlot⟩ :=
        node.backend.filterFrom_continuation ∅ (materializer.wanted node)
      · cases hFilter.symm.trans hOk
      · rw [InMemoryBackend.expectedSequence_toOption] at hSlot
        exact .inl ⟨rfl, .inr ⟨slot, hSlot⟩⟩
    · rw [hBatch]
      exact .inr ⟨rfl, rfl⟩

variable {materializer}

theorem armed_step (h : materializer.pending ≠ [] → materializer.timer = true)
    {event : MaterializerEvent} {next : Materializer} (hReady : materializer.Ready event)
    (hStep : materializer.step event = some next) : next.pending ≠ [] → next.timer = true := by
  cases event with
  | control slot allow =>
    cases allow <;> cases hStep
    · exact fun hPending => h fun hNone => hPending (by simp [hNone])
    · exact h
  | submit commits node failure =>
    rw [step] at hStep
    split at hStep
    case isTrue hFull =>
      cases hStep
      obtain ⟨hDone, hContinues⟩ := hReady hFull
      obtain ⟨-, hFailed | ⟨slot, hSlot⟩⟩ | ⟨-, hNone⟩ :=
        (materializer.join commits).flush_cases node failure
      · exact absurd hDone hFailed
      · have := hContinues slot
        rw [hSlot] at this
        cases this
      · exact fun hPending => absurd hNone hPending
    case isFalse =>
      cases hStep
      intro hPending
      refine Bool.or_eq_true_iff.mpr (.inr ?_)
      rw [Bool.not_eq_true', List.isEmpty_eq_false_iff]
      exact hPending
  | fire node failure =>
    obtain ⟨-, hNext⟩ := Option.ite_none_right_eq_some.mp hStep
    cases hNext
    intro hPending
    obtain ⟨hFailed, -⟩ | ⟨-, hNone⟩ := materializer.flush_cases node failure
    · rw [hFailed]
      simpa using hPending
    · exact absurd hNone hPending

end Materializer

/-! ## Both loops -/

open Storage in
/-- While a batch has room for what is pending whenever the channels are drained, a shard's loop
never waits with something pending and no timer; while full batches continue every slot's sequence and
are written, neither does a materializer. -/
theorem loops_awake (config : JournalConfig) :
    (∀ loop, Reaches (ShardLoop.step config) (ShardLoop.Room config) {} loop →
        loop.channels = [] → loop.shard.depth ≠ 0 → loop.shard.timer = true) ∧
      ∀ backlog materializer,
        Reaches Materializer.step Materializer.Ready (Materializer.started backlog) materializer →
        materializer.pending ≠ [] → materializer.timer = true := by
  constructor
  · intro loop hReaches
    have hStart : ShardLoop.Awake {} := ⟨.empty, fun _ hDepth => absurd rfl hDepth⟩
    exact (hReaches.invariant hStart fun _ _ _ h hRoom hStep => h.step config hRoom hStep).armed
  · intro backlog materializer hReaches
    have hArmed : (fun reached : Materializer => reached.pending ≠ [] → reached.timer = true)
        materializer := hReaches.invariant
      (fun hPending => by simpa [Materializer.started] using hPending)
      fun _ _ _ h hReady hStep => Materializer.armed_step h hReady hStep
    exact hArmed

def emptySlot : Node where
  backend := (∅ : InMemoryBackend).insert 1 {}
  published := fun _ => some 1

def failedFire : List MaterializerEvent :=
  [.submit [⟨commitAt 1 1, 1⟩] emptySlot none, .fire emptySlot (some (.fault "disk full"))]

open Storage in
/-- A shard that has received one prepare, and a materializer whose write has failed. -/
theorem loops_awake_one :
    let event : LoopEvent := .receive .prepare [] [] (fun _ => none) none
    let loop := (ShardLoop.step {} ⟨{}, [.prepare (putIntent 0 1 1)]⟩ event).getD {}
    (loop.channels = [] ∧ loop.shard.depth = 1 ∧ loop.shard.timer = true) ∧
      ∃ materializer, run Materializer.step failedFire (.started []) = some materializer ∧
        materializer.pending ≠ [] ∧ materializer.timer = true := by
  intro event loop
  have hRoom : ShardLoop.Room {} ⟨{}, [.prepare (putIntent 0 1 1)]⟩ event := by
    rintro - submission hFound
    cases hFound
    exact ⟨by decide +kernel, by decide +kernel⟩
  have hSubmit : ShardLoop.Room {} {} (.submit (.prepare (putIntent 0 1 1))) := trivial
  have hReaches : Reaches (ShardLoop.step {}) (ShardLoop.Room {}) {} loop :=
    .tail (.tail .refl hSubmit rfl) hRoom rfl
  refine ⟨⟨rfl, by decide +kernel, (loops_awake {}).1 loop hReaches rfl (by decide +kernel)⟩, ?_⟩
  have hFew : Materializer.Ready (.started [])
      (.submit [⟨commitAt 1 1, 1⟩] emptySlot none) := fun hFull => absurd hFull (by decide)
  have hFire : (Materializer.join (.started []) [⟨commitAt 1 1, 1⟩]).Ready
      (.fire emptySlot (some (.fault "disk full"))) := trivial
  have hSteps : Reaches Materializer.step Materializer.Ready (.started []) _ :=
    .tail (.tail .refl hFew rfl) hFire rfl
  exact ⟨_, rfl, by decide +kernel, (loops_awake {}).2 [] _ hSteps (by decide +kernel)⟩

open Storage in
/-- A watermark is pending and the channel brings 64 prepares: the flush takes the prepares, leaves
the watermark and no timer. -/
def prepareBurst : List LoopEvent :=
  [.submit (.watermark ⟨0, .commitWatermark, { slot := 1, chainVersion := 1 }, 1⟩),
    .receive .watermark [] [] (fun _ => none) none] ++
  List.replicate 64 (.submit (.prepare (putIntent 1 1 2))) ++
  List.replicate 64 (.receive .prepare [] [] (fun _ => none) none)

open Storage in
/-- The shard's loop sleeps on a watermark, and the materializer on a full batch: on one with a gap,
and on one that could not be written. -/
theorem loops_sleep :
    (run (ShardLoop.step {}) prepareBurst {}).map (fun loop =>
        (loop.channels.length, loop.shard.depth, loop.shard.timer)) = some (0, 1, false) ∧
      (run Materializer.step
        [.submit (List.replicate 128 ⟨commitAt 1 5, 1⟩) emptySlot none] (.started [])).map
        (fun materializer => (materializer.pending.length, materializer.timer)) =
          some (128, false) ∧
      (run Materializer.step
        [.submit ((List.range 128).map fun index => ⟨commitAt 1 (.ofNat (index + 1)), 1⟩) emptySlot
          (some (.fault "disk full"))] (.started [])).map
        (fun materializer => (materializer.pending.length, materializer.timer)) =
          some (128, false) := by
  refine ⟨?_, ?_, ?_⟩ <;> decide +kernel

end Craq.Backend
