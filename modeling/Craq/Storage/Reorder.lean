import Craq.Storage.Lifecycle

/-! # Forwards in any order

The network may delay and repeat the forwards of the predecessor.  What comes too early is buffered
until its turn has come, and what comes twice is recognised.  However the forwards of a range arrive,
the replica ends up with all of them staged.  This rests on what holds in every run: a replica keeps
no forward of a sequence that it has yet to give out.
-/

namespace Craq.Storage

open Lib (Reaches run)

/-! ## Deliveries -/

/-- A forward that reaches the replica, and how many messages the node buffers for other slots. -/
structure Delivery where
  req : ForwardWriteRequest
  elsewhere : Nat := 0

def ReplicaRecord.bufferLimits (perSlotLimit perNodeLimit elsewhere : Nat)
    (record : ReplicaRecord) : BufferLimits where
  perSlotLimit
  perNodeLimit
  nodeBufferedNow := elsewhere + reduceTotalBufferedMessages record

/-- As long as the next sequence is buffered it is staged; a forward that is refused ends this. -/
def drainBuffered (limits : ReplicaRecord → BufferLimits) : Nat → ReplicaRecord → ReplicaRecord
  | 0, record => record
  | bound + 1, record =>
    match record.bufferedForwards[record.nextSequence]? with
    | none => record
    | some req =>
      match reduceForwardWrite record req (limits record) with
      | .ok { record := next, action := .apply } => drainBuffered limits bound next
      | _ => record

def deliverForward (perSlotLimit perNodeLimit : Nat) (record : ReplicaRecord)
    (delivery : Delivery) : Except Error ReplicaRecord := do
  let limits := ReplicaRecord.bufferLimits perSlotLimit perNodeLimit delivery.elsewhere
  let reduction ← reduceForwardWrite record delivery.req (limits record)
  return drainBuffered limits reduction.record.bufferedForwards.size reduction.record

def deliverForwards (perSlotLimit perNodeLimit : Nat) (record : ReplicaRecord)
    (deliveries : List Delivery) : Except Error ReplicaRecord :=
  deliveries.foldlM (deliverForward perSlotLimit perNodeLimit) record

def ReplicaRecord.forwardOf (record : ReplicaRecord) (operation : WriteOperation) :
    ForwardWriteRequest where
  operation
  fromNodeID := record.assignment.peers.predecessorNodeID
  chainVersion := record.assignment.chainVersion

def ReplicaRecord.Clear (record : ReplicaRecord) (count : Nat) : Prop :=
  ∀ sequence, record.nextSequence ≤ sequence → sequence < record.nextSequence + count →
    record.stagedForwards[sequence]? = none ∧ record.recentCommittedForwards[sequence]? = none

theorem ReplicaRecord.Keeps.clear {record : ReplicaRecord} (h : record.Keeps) (count : Nat) :
    record.Clear count := by
  intro sequence hlow _
  refine ⟨Option.eq_none_iff_forall_ne_some.mpr ?_, Option.eq_none_iff_forall_ne_some.mpr ?_⟩
  · intro held hheld
    exact absurd (h.staged sequence held hheld).2.1 hlow.not_gt
  · intro held hheld
    exact absurd (h.recent sequence held hheld).2.1 hlow.not_gt

/-- In no run does a replica keep a forward of a sequence it has yet to give out. -/
theorem NodeSlot.Lives.clear {n : NodeSlot} (h : n.Lives) (count : Nat) : n.record.Clear count := by
  by_cases recovered : n.record.state = .recovered
  · have reopened := h.resumable.record recovered
    exact fun sequence _ _ => ⟨reopened.staged sequence, reopened.recent sequence⟩
  · exact (h.keeps recovered).record.clear count

/-- The replica has a predecessor and nothing is buffered; the `count` operations of the next
sequences fit into the buffers. -/
structure ReplicaRecord.Awaits (record : ReplicaRecord) (operations : Nat → WriteOperation)
    (count perSlotLimit : Nat) : Prop where
  predecessor : record.assignment.peers.predecessorNodeID ≠ ""
  forwards : record.bufferedForwards = ∅
  commits : record.bufferedCommits = ∅
  sequence : ∀ place, record.nextSequence ≤ place → place < record.nextSequence + count →
    (operations place).sequence = place
  limit : count ≤ perSlotLimit

/-- The deliveries are forwards of the operations, each of them at least once. -/
structure ReplicaRecord.Delivers (record : ReplicaRecord) (operations : Nat → WriteOperation)
    (count perNodeLimit : Nat) (deliveries : List Delivery) : Prop where
  sent : ∀ delivery ∈ deliveries, ∃ place, record.nextSequence ≤ place ∧
    place < record.nextSequence + count ∧ delivery.req = record.forwardOf (operations place)
  complete : ∀ place, record.nextSequence ≤ place → place < record.nextSequence + count →
    ∃ delivery ∈ deliveries, delivery.req = record.forwardOf (operations place)
  limit : 0 < perNodeLimit → ∀ delivery ∈ deliveries, delivery.elsewhere + count ≤ perNodeLimit

/-! ## The invariant -/

/-- The forwards of the sequences `seen` have arrived at the record `first`: those without a gap
before them are staged, and the others are buffered. -/
structure ReplicaRecord.Reassembles (first : ReplicaRecord) (operations : Nat → WriteOperation)
    (count : Nat) (seen : Finset Nat) (record : ReplicaRecord) : Prop where
  assignment : record.assignment = first.assignment
  recent : record.recentCommittedForwards = first.recentCommittedForwards
  commits : record.bufferedCommits = ∅
  low : first.nextSequence ≤ record.nextSequence
  high : record.nextSequence ≤ first.nextSequence + count
  inside : ∀ place ∈ seen, first.nextSequence ≤ place ∧ place < first.nextSequence + count
  given : ∀ place, first.nextSequence ≤ place → place < record.nextSequence → place ∈ seen
  staged : ∀ place : Nat, record.stagedForwards[place]? =
    if first.nextSequence ≤ place ∧ place < record.nextSequence then
      some (first.forwardOf (operations place))
    else first.stagedForwards[place]?
  prepared : ∀ place : Nat, record.preparedEntries[place]? =
    if first.nextSequence ≤ place ∧ place < record.nextSequence then some (operations place)
    else first.preparedEntries[place]?
  buffered : ∀ place : Nat, record.bufferedForwards[place]? =
    if record.nextSequence ≤ place ∧ place ∈ seen then some (first.forwardOf (operations place))
    else none

namespace ReplicaRecord.Reassembles

variable {first record next : ReplicaRecord} {operations : Nat → WriteOperation}
  {count perSlotLimit : Nat} {seen : Finset Nat} {place : Nat}

theorem start (awaits : first.Awaits operations count perSlotLimit) :
    first.Reassembles operations count ∅ first where
  assignment := rfl
  recent := rfl
  commits := awaits.commits
  low := le_rfl
  high := Nat.le_add_right _ _
  inside := by simp
  given := by intro place hlow hhigh; omega
  staged := by
    intro place
    rw [if_neg (by omega)]
  prepared := by
    intro place
    rw [if_neg (by omega)]
  buffered := by simp [awaits.forwards]

variable (h : first.Reassembles operations count seen record)

include h

theorem extend (hhigh : record.nextSequence < first.nextSequence + count)
    (assignment : next.assignment = record.assignment)
    (recent : next.recentCommittedForwards = record.recentCommittedForwards)
    (commits : next.bufferedCommits = record.bufferedCommits)
    (sequence : next.nextSequence = record.nextSequence + 1)
    (staged : next.stagedForwards = record.stagedForwards.insert record.nextSequence
      (first.forwardOf (operations record.nextSequence)))
    (prepared : next.preparedEntries = record.preparedEntries.insert record.nextSequence
      (operations record.nextSequence))
    (buffered : next.bufferedForwards = record.bufferedForwards.erase record.nextSequence) :
    first.Reassembles operations count (insert record.nextSequence seen) next := by
  have low := h.low
  have before : ∀ place, record.nextSequence ≠ place →
      (first.nextSequence ≤ place ∧ place < next.nextSequence ↔
        first.nextSequence ≤ place ∧ place < record.nextSequence) := by
    omega
  constructor
  case assignment => exact assignment.trans h.assignment
  case recent => exact recent.trans h.recent
  case commits => exact commits.trans h.commits
  case low => omega
  case high => omega
  case inside =>
    intro place hmem
    rcases Finset.mem_insert.mp hmem with rfl | hheld
    · exact ⟨low, hhigh⟩
    · exact h.inside place hheld
  case given =>
    intro place hlow hlt
    rw [sequence] at hlt
    rcases Nat.lt_succ_iff_lt_or_eq.mp hlt with hbefore | rfl
    · exact Finset.mem_insert_of_mem (h.given place hlow hbefore)
    · exact Finset.mem_insert_self _ _
  case staged =>
    intro place
    rw [staged, Lib.getElem?_insert_ite, h.staged]
    by_cases hplace : record.nextSequence = place
    · rw [if_pos hplace, if_pos (by omega), hplace]
    · rw [if_neg hplace, if_congr (before place hplace) rfl rfl]
  case prepared =>
    intro place
    rw [prepared, Lib.getElem?_insert_ite, h.prepared]
    by_cases hplace : record.nextSequence = place
    · rw [if_pos hplace, if_pos (by omega), hplace]
    · rw [if_neg hplace, if_congr (before place hplace) rfl rfl]
  case buffered =>
    intro place
    rw [buffered, Lib.getElem?_erase_ite, h.buffered]
    by_cases hplace : record.nextSequence = place
    · rw [if_pos hplace, if_neg (by omega)]
    · have later : record.nextSequence ≤ place ↔ next.nextSequence ≤ place := by omega
      have same : place ∈ seen ↔ place ∈ insert record.nextSequence seen := by
        rw [Finset.mem_insert, or_iff_right (Ne.symm hplace)]
      rw [if_neg hplace, if_congr (and_congr later same) rfl rfl]

theorem size_lt (hlow : record.nextSequence < place) (hhigh : place < first.nextSequence + count)
    (hnew : place ∉ seen) : reduceTotalBufferedMessages record < count := by
  have keys : record.bufferedForwards.keys ⊆
      (List.range' first.nextSequence count).erase place := by
    intro key hkey
    rw [Std.ExtTreeMap.mem_keys, Std.ExtTreeMap.mem_iff_isSome_getElem?, h.buffered] at hkey
    have hseen : key ∈ seen := by
      by_contra hmissing
      rw [if_neg fun hboth => hmissing hboth.2] at hkey
      cases hkey
    have hplace : key ≠ place := fun heq => hnew (heq ▸ hseen)
    have hinside := h.inside key hseen
    rw [List.mem_erase_of_ne hplace, List.mem_range'_1]
    exact hinside
  have hmem : place ∈ List.range' first.nextSequence count := by
    rw [List.mem_range'_1]
    have := h.low
    omega
  have hlength := (Std.ExtTreeMap.nodup_keys.subperm keys).length_le
  rw [Std.ExtTreeMap.length_keys, List.length_erase_of_mem hmem, List.length_range'] at hlength
  rw [reduceTotalBufferedMessages, h.commits, Std.ExtTreeMap.size_empty]
  have := h.low
  omega

theorem append (hlow : record.nextSequence < place) (hhigh : place < first.nextSequence + count) :
    first.Reassembles operations count (insert place seen) { record with
      bufferedForwards :=
        record.bufferedForwards.insert place (first.forwardOf (operations place)) } := by
  refine { h with inside := ?_, given := ?_, buffered := ?_ }
  · intro other hmem
    rcases Finset.mem_insert.mp hmem with rfl | hheld
    · exact ⟨h.low.trans hlow.le, hhigh⟩
    · exact h.inside other hheld
  · intro other hfirst hlt
    exact Finset.mem_insert_of_mem (h.given other hfirst hlt)
  · intro other
    rw [Lib.getElem?_insert_ite, h.buffered]
    by_cases hplace : place = other
    · subst hplace
      rw [if_pos rfl, if_pos ⟨hlow.le, Finset.mem_insert_self _ _⟩]
    · have same : other ∈ seen ↔ other ∈ insert place seen := by
        rw [Finset.mem_insert, or_iff_right (Ne.symm hplace)]
      rw [if_neg hplace, if_congr (and_congr_right fun _ => same) rfl rfl]

variable (clear : first.Clear count) (awaits : first.Awaits operations count perSlotLimit)

include clear awaits

theorem valid (hlow : first.nextSequence ≤ place) (hhigh : place < first.nextSequence + count) :
    validateForwardSource record (first.forwardOf (operations place)) = .ok () := by
  have sequence := awaits.sequence place hlow hhigh
  have expected : expectedForwardSource record place =
      (first.assignment.peers.predecessorNodeID, first.assignment.chainVersion) := by
    have ⟨hstaged, hrecent⟩ := clear place hlow hhigh
    rw [expectedForwardSource, h.staged, h.buffered, h.recent, h.assignment, hstaged, hrecent]
    split_ifs <;> rfl
  rw [validateForwardSource]
  simp only [ReplicaRecord.forwardOf, sequence, expected, awaits.predecessor, ne_eq,
    not_true_eq_false, or_self, if_false]

theorem stage (hhigh : record.nextSequence < first.nextSequence + count) (limits : BufferLimits) :
    ∃ next, reduceForwardWrite record (first.forwardOf (operations record.nextSequence)) limits =
        .ok ⟨next, .apply⟩ ∧
      next.bufferedForwards = record.bufferedForwards.erase record.nextSequence ∧
      first.Reassembles operations count (insert record.nextSequence seen) next := by
  have valid := h.valid clear awaits h.low hhigh
  have sequence : (first.forwardOf (operations record.nextSequence)).operation.sequence =
      record.nextSequence := awaits.sequence record.nextSequence h.low hhigh
  have unstaged : record.stagedForwards[record.nextSequence]? = none := by
    rw [h.staged, if_neg (by omega)]
    exact (clear record.nextSequence h.low hhigh).1
  have hnew : record.stagedForwards.contains record.nextSequence = false := by
    rw [Std.ExtTreeMap.contains_eq_isSome_getElem?, unstaged]
    rfl
  refine ⟨reduceStageForward record (first.forwardOf (operations record.nextSequence)), ?_, ?_⟩
  · rw [reduceForwardWrite, valid, sequence]
    simp only [lt_irrefl, if_false]
    rfl
  · rw [reduceStageForward, sequence]
    dsimp only
    rw [hnew]
    exact ⟨rfl, h.extend hhigh rfl rfl rfl rfl rfl rfl rfl⟩

/-- What is buffered is drained as far as there is no gap. -/
theorem drain (limits : ReplicaRecord → BufferLimits) {bound : Nat}
    (enough : record.bufferedForwards.size ≤ bound) :
    first.Reassembles operations count seen (drainBuffered limits bound record) ∧
      (drainBuffered limits bound record).nextSequence ∉ seen := by
  induction bound generalizing record with
  | zero =>
    refine ⟨h, ?_⟩
    intro hseen
    have buffered := h.buffered record.nextSequence
    rw [if_pos ⟨le_rfl, hseen⟩] at buffered
    have empty := Std.ExtTreeMap.eq_empty_iff_size_eq_zero.mpr (Nat.le_zero.mp enough)
    simp [empty] at buffered
  | succ bound ih =>
    rw [drainBuffered, h.buffered]
    by_cases hseen : record.nextSequence ∈ seen
    · obtain ⟨next, hnext, erased, reassembles⟩ :=
        h.stage clear awaits (h.inside _ hseen).2 (limits record)
      rw [if_pos ⟨le_rfl, hseen⟩]
      dsimp only
      rw [hnext]
      dsimp only
      rw [Finset.insert_eq_of_mem hseen] at reassembles
      refine ih reassembles ?_
      have held : record.bufferedForwards.contains record.nextSequence = true := by
        rw [Std.ExtTreeMap.contains_eq_isSome_getElem?, h.buffered, if_pos ⟨le_rfl, hseen⟩]
        rfl
      rw [erased, Std.ExtTreeMap.size_erase, if_pos held]
      omega
    · rw [if_neg fun hboth => hseen hboth.2]
      exact ⟨h, hseen⟩

theorem buffer (hlow : record.nextSequence < place) (hhigh : place < first.nextSequence + count)
    {limits : BufferLimits} (slot : count ≤ limits.perSlotLimit)
    (node : limits.perNodeLimit > 0 → reduceTotalBufferedMessages record < count →
      limits.nodeBufferedNow < limits.perNodeLimit) :
    ∃ next, reduceForwardWrite record (first.forwardOf (operations place)) limits =
        .ok ⟨next, .buffer⟩ ∧
      first.Reassembles operations count (insert place seen) next := by
  have valid := h.valid clear awaits (h.low.trans hlow.le) hhigh
  have sequence : (first.forwardOf (operations place)).operation.sequence = place :=
    awaits.sequence place (h.low.trans hlow.le) hhigh
  have buffered : ∃ next,
      reduceBufferFutureForward record (first.forwardOf (operations place)) limits = .ok next ∧
        first.Reassembles operations count (insert place seen) next := by
    rw [reduceBufferFutureForward, sequence, h.buffered]
    by_cases hseen : place ∈ seen
    · rw [if_pos ⟨hlow.le, hseen⟩]
      refine ⟨record, by simp [sameForwardRequest], ?_⟩
      rwa [Finset.insert_eq_of_mem hseen]
    · rw [if_neg fun hboth => hseen hboth.2]
      have room := h.size_lt hlow hhigh hseen
      have allowed : checkBufferLimits record (first.forwardOf (operations place)).operation.slot
          limits = .ok () := by
        rw [checkBufferLimits, if_neg (by omega), if_neg]
        rintro ⟨hpositive, hfull⟩
        have := node hpositive room
        omega
      dsimp only
      rw [allowed]
      exact ⟨_, rfl, h.append hlow hhigh⟩
  obtain ⟨next, hnext, reassembles⟩ := buffered
  refine ⟨next, ?_, reassembles⟩
  rw [reduceForwardWrite, valid, hnext, sequence]
  rw [if_neg hlow.not_gt, if_pos hlow]
  rfl

theorem ignore (hlow : first.nextSequence ≤ place) (hlt : place < record.nextSequence)
    (limits : BufferLimits) :
    reduceForwardWrite record (first.forwardOf (operations place)) limits =
      .ok ⟨record, .ignore⟩ := by
  have hhigh := hlt.trans_le h.high
  have valid := h.valid clear awaits hlow hhigh
  have sequence : (first.forwardOf (operations place)).operation.sequence = place :=
    awaits.sequence place hlow hhigh
  have handled : reduceHandlePastForward record (first.forwardOf (operations place)) = .ok () := by
    rw [reduceHandlePastForward, sequence, h.staged, if_pos ⟨hlow, hlt⟩]
    simp [acceptsRepeatedForward, sameForwardRequest]
  rw [reduceForwardWrite, valid, sequence, handled]
  simp only [hlt, if_true]
  rfl

/-- One delivery, with the draining it may start. -/
theorem deliver {perNodeLimit : Nat} {delivery : Delivery} (hlow : first.nextSequence ≤ place)
    (hhigh : place < first.nextSequence + count)
    (sent : delivery.req = first.forwardOf (operations place))
    (node : 0 < perNodeLimit → delivery.elsewhere + count ≤ perNodeLimit) :
    ∃ next, deliverForward perSlotLimit perNodeLimit record delivery = .ok next ∧
      first.Reassembles operations count (insert place seen) next ∧
      next.nextSequence ∉ insert place seen := by
  have reduced : ∃ reduction, reduceForwardWrite record delivery.req
        (record.bufferLimits perSlotLimit perNodeLimit delivery.elsewhere) = .ok reduction ∧
      first.Reassembles operations count (insert place seen) reduction.record := by
    rw [sent]
    rcases lt_trichotomy place record.nextSequence with hpast | rfl | hfuture
    · refine ⟨_, h.ignore clear awaits hlow hpast _, ?_⟩
      rwa [Finset.insert_eq_of_mem (h.given place hlow hpast)]
    · obtain ⟨next, hnext, -, reassembles⟩ := h.stage clear awaits hhigh _
      exact ⟨_, hnext, reassembles⟩
    · have room : perNodeLimit > 0 → reduceTotalBufferedMessages record < count →
          delivery.elsewhere + reduceTotalBufferedMessages record < perNodeLimit := by
        intro hpositive hroom
        have := node hpositive
        omega
      have slot : count ≤ (record.bufferLimits perSlotLimit perNodeLimit
        delivery.elsewhere).perSlotLimit := awaits.limit
      obtain ⟨next, hnext, reassembles⟩ := h.buffer clear awaits hfuture hhigh slot room
      exact ⟨_, hnext, reassembles⟩
  obtain ⟨reduction, hreduction, reassembles⟩ := reduced
  rw [deliverForward, hreduction]
  exact ⟨_, rfl, reassembles.drain clear awaits _ le_rfl⟩

theorem deliverAll {perNodeLimit : Nat} (settled : record.nextSequence ∉ seen)
    (deliveries : List Delivery)
    (sent : ∀ delivery ∈ deliveries, ∃ place, first.nextSequence ≤ place ∧
      place < first.nextSequence + count ∧ delivery.req = first.forwardOf (operations place))
    (node : 0 < perNodeLimit → ∀ delivery ∈ deliveries, delivery.elsewhere + count ≤ perNodeLimit) :
    ∃ next all, deliverForwards perSlotLimit perNodeLimit record deliveries = .ok next ∧
      first.Reassembles operations count all next ∧ next.nextSequence ∉ all ∧ seen ⊆ all ∧
      ∀ delivery ∈ deliveries, ∃ place ∈ all, delivery.req = first.forwardOf (operations place) := by
  induction deliveries generalizing record seen with
  | nil => exact ⟨record, seen, rfl, h, settled, Finset.Subset.refl _, List.forall_mem_nil _⟩
  | cons delivery deliveries ih =>
    have ⟨⟨place, hlow, hhigh, hsent⟩, hrest⟩ := List.forall_mem_cons.mp sent
    obtain ⟨next, hnext, reassembles, hsettled⟩ := h.deliver clear awaits hlow hhigh hsent
      fun hpositive => node hpositive delivery List.mem_cons_self
    obtain ⟨last, all, hlast, hall, hmissing, hsubset, hseen⟩ := ih reassembles hsettled hrest
      fun hpositive later hmem => node hpositive later (List.mem_cons_of_mem _ hmem)
    refine ⟨last, all, ?_, hall, hmissing, (Finset.subset_insert _ _).trans hsubset, ?_⟩
    · rw [deliverForwards, List.foldlM_cons, hnext]
      exact hlast
    · refine List.forall_mem_cons.mpr ⟨⟨place, ?_, hsent⟩, hseen⟩
      exact hsubset (Finset.mem_insert_self _ _)

end ReplicaRecord.Reassembles

/-- Whatever has happened to a replica, however the forwards of the next sequences arrive, none of
them is refused, all are staged in the end, and nothing stays buffered. -/
theorem forwards_in_any_order {config : NodeConfig} {n : NodeSlot}
    (reached : Reaches NodeSlot.take (fun _ _ => True) { config } n)
    {operations : Nat → WriteOperation} {count perSlotLimit perNodeLimit : Nat}
    {deliveries : List Delivery} (awaits : n.record.Awaits operations count perSlotLimit)
    (delivers : n.record.Delivers operations count perNodeLimit deliveries) :
    ∃ last, deliverForwards perSlotLimit perNodeLimit n.record deliveries = .ok last ∧
      last.nextSequence = n.record.nextSequence + count ∧
      (∀ place : Nat, last.stagedForwards[place]? =
        if n.record.nextSequence ≤ place ∧ place < n.record.nextSequence + count then
          some (n.record.forwardOf (operations place))
        else n.record.stagedForwards[place]?) ∧
      (∀ place : Nat, last.preparedEntries[place]? =
        if n.record.nextSequence ≤ place ∧ place < n.record.nextSequence + count then
          some (operations place)
        else n.record.preparedEntries[place]?) ∧
      last.bufferedForwards = ∅ ∧ last.bufferedCommits = ∅ := by
  have clear := (reaches_lives reached).clear count
  generalize n.record = record at *
  have start : record.Reassembles operations count ∅ record := .start awaits
  obtain ⟨last, all, hlast, reassembles, hmissing, -, hseen⟩ := start.deliverAll clear awaits
    (Finset.notMem_empty _) deliveries delivers.sent delivers.limit
  have arrived : ∀ place, record.nextSequence ≤ place → place < record.nextSequence + count →
      place ∈ all := by
    intro place hlow hhigh
    obtain ⟨delivery, hmem, hreq⟩ := delivers.complete place hlow hhigh
    obtain ⟨other, hother, hsame⟩ := hseen delivery hmem
    have ⟨hlow', hhigh'⟩ := reassembles.inside other hother
    have heq : operations place = operations other :=
      congrArg ForwardWriteRequest.operation (hreq.symm.trans hsame)
    have hplace := awaits.sequence place hlow hhigh
    rw [heq, awaits.sequence other hlow' hhigh'] at hplace
    exact hplace ▸ hother
  have hnext : last.nextSequence = record.nextSequence + count := by
    by_contra hne
    exact hmissing (arrived _ reassembles.low (lt_of_le_of_ne reassembles.high hne))
  refine ⟨last, hlast, hnext, ?_, ?_, ?_, reassembles.commits⟩
  · rw [← hnext]
    exact reassembles.staged
  · rw [← hnext]
    exact reassembles.prepared
  · apply Std.ExtTreeMap.ext_getElem?
    intro place
    rw [reassembles.buffered, if_neg]
    · simp
    · rintro ⟨hle, hmem⟩
      have := reassembles.inside place hmem
      omega

/-! ## Three forwards after a join -/

theorem joinBehind_runs :
    (run NodeSlot.take joinBehind { config := plainConfig "c" }).isSome = true := by
  decide +kernel

def joinedBehind : NodeSlot :=
  (run NodeSlot.take joinBehind { config := plainConfig "c" }).get joinBehind_runs

def putAt (sequence : Nat) : WriteOperation :=
  putOperation sequence "v"

def forwardAt (sequence : Nat) : Delivery where
  req := joinedBehind.record.forwardOf (putAt sequence)

theorem joinedBehind_awaits : joinedBehind.record.Awaits putAt 3 4 where
  predecessor := by decide +kernel
  forwards := Std.ExtTreeMap.eq_empty_iff_size_eq_zero.mpr (by decide +kernel)
  commits := Std.ExtTreeMap.eq_empty_iff_size_eq_zero.mpr (by decide +kernel)
  sequence := fun _ _ _ => rfl
  limit := by decide

theorem forwards_swapped_and_repeated :
    ∃ last, deliverForwards 4 0 joinedBehind.record
        [forwardAt 3, forwardAt 1, forwardAt 1, forwardAt 2] = .ok last ∧
      last.nextSequence = 4 ∧ last.bufferedForwards = ∅ := by
  have first : joinedBehind.record.nextSequence = 1 := by decide +kernel
  have delivers : joinedBehind.record.Delivers putAt 3 0
      [forwardAt 3, forwardAt 1, forwardAt 1, forwardAt 2] := by
    refine ⟨?_, ?_, nofun⟩
    · simp only [List.forall_mem_cons]
      refine ⟨⟨3, by omega, by omega, rfl⟩, ⟨1, by omega, by omega, rfl⟩,
        ⟨1, by omega, by omega, rfl⟩, ⟨2, by omega, by omega, rfl⟩, List.forall_mem_nil _⟩
    · intro place hlow hhigh
      rw [first] at hlow hhigh
      refine ⟨forwardAt place, ?_, rfl⟩
      interval_cases place <;> simp
  obtain ⟨last, hlast, hnext, -, -, hbuffered, -⟩ := forwards_in_any_order
    (.of_isSome joinBehind_runs) joinedBehind_awaits
    delivers
  exact ⟨last, hlast, hnext.trans (congrArg (· + 3) first), hbuffered⟩

end Craq.Storage
