import Craq.Coordinator.Repair

/-! # Taking a dead node out of its chains

The repair of the chains that held the node succeeds whenever each of them keeps an active replica.
The reconcile around it recomputes the placement of every slot and, when there was nothing to
repair, starts drains and joins, and each of these may fail on its own.
-/

namespace Craq.Coordinator

open Craq.Lib

/-! ## Sweeps of passes that look at their own slot -/

/-- `state` differs from `start` in other chains than that of `slot` only. -/
structure SameAt (start : ClusterState) (slot : Nat) (state : ClusterState) : Prop where
  tables : state = { start with chains := state.chains }
  chain : state.chainAt slot = start.chainAt slot

/-- Whether the pass fails depends on its own slot alone, and so does what it changes. -/
structure LocalPass (pass : ClusterState → Nat → Except Error PassResult) (start : ClusterState)
    (fails : Nat → Bool) : Prop where
  failing : ∀ state slot, SameAt start slot state → fails slot = true →
    ∃ err, pass state slot = .error err
  working : ∀ state slot, SameAt start slot state → fails slot = false →
    ∃ after plan, pass state slot = .ok (state.setReplicas slot after, plan)

/-- Whether the pass uses up budget depends on its own slot alone. -/
def LocalCost (pass : ClusterState → Nat → Except Error PassResult) (start : ClusterState)
    (changes : Nat → Bool) : Prop :=
  ∀ state slot updated plan, SameAt start slot state → pass state slot = .ok (updated, plan) →
    plan.isSome = changes slot

variable {state : ClusterState} {slot : Nat}

theorem SameAt.setReplicas {start : ClusterState} {other : Nat} {after : List Replica}
    (h : SameAt start slot state) (hNe : slot ≠ other) :
    SameAt start slot (state.setReplicas other after) := by
  refine ⟨?_, (setReplicas_chainAt_of_ne _ _ _ hNe).trans h.chain⟩
  rw [ClusterState.setReplicas, h.tables]

theorem sweep_cons_ok {pass : ClusterState → Nat → Except Error PassResult} {remaining : Int}
    (hRemaining : remaining ≠ 0) {rest : List Nat} {next : ClusterState} {plan : Option SlotPlan}
    (hRun : pass state slot = .ok (next, plan)) :
    (∃ result, sweep pass remaining (slot :: rest) state = .ok result) ↔
      ∃ result, sweep pass
        (if 0 < remaining ∧ plan.isSome = true then remaining - 1 else remaining) rest next =
          .ok result := by
  rw [sweep, if_neg hRemaining, hRun]
  cases plan with
  | none =>
    simp only [Option.isSome_none, Bool.false_eq_true, and_false, if_false]
    rfl
  | some slotPlan =>
    simp only [Option.isSome_some, and_true]
    constructor
    · rintro ⟨result, h⟩
      obtain ⟨outcome, hFirst, h⟩ := bind_eq_ok.mp h
      cases hFirst
      obtain ⟨later, hRest, -⟩ := bind_eq_ok.mp h
      exact ⟨later, hRest⟩
    · rintro ⟨⟨later, plans⟩, hRest⟩
      exact ⟨(later, slotPlan :: plans), bind_eq_ok.mpr ⟨_, rfl, bind_eq_ok.mpr ⟨_, hRest, rfl⟩⟩⟩

/-- A sweep gets through unless its budget still lasts at a slot where the pass fails. -/
theorem sweep_ok_iff {pass : ClusterState → Nat → Except Error PassResult} {start : ClusterState}
    {fails : Nat → Bool} (changes : Nat → Bool) (hPass : LocalPass pass start fails)
    {slots : List Nat} (hNodup : slots.Nodup) {remaining : Int}
    (hCost : remaining < 0 ∨ LocalCost pass start changes)
    (hSame : ∀ i ∈ slots, SameAt start i state) :
    (∃ result, sweep pass remaining slots state = .ok result) ↔
      ∀ before i after, slots = before ++ i :: after → fails i = true →
        0 ≤ remaining ∧ remaining ≤ before.countP changes := by
  induction slots generalizing remaining state with
  | nil => simp [sweep]
  | cons slot rest ih =>
    obtain ⟨hOut, hNodup⟩ := List.nodup_cons.mp hNodup
    rw [List.forall_mem_cons] at hSame
    -- the splits of the list: at its head, or further on
    have hSplit : (∀ before i after, slot :: rest = before ++ i :: after → fails i = true →
          0 ≤ remaining ∧ remaining ≤ before.countP changes) ↔
        (fails slot = true → remaining = 0) ∧ ∀ before i after, rest = before ++ i :: after →
          fails i = true → 0 ≤ remaining ∧ remaining ≤ (slot :: before).countP changes := by
      constructor
      · intro h
        refine ⟨fun hFails => ?_, fun before i after hRest =>
          h (slot :: before) i after (by rw [hRest, List.cons_append])⟩
        have hHead := h [] slot rest rfl hFails
        rw [List.countP_nil, Nat.cast_zero] at hHead
        omega
      · rintro ⟨hHead, hTail⟩ before i after hList hFails
        cases before with
        | nil =>
          injection hList with hEq _
          subst hEq
          rw [hHead hFails]
          simp
        | cons first before =>
          injection hList with hEq hRest
          subst hEq
          exact hTail before i after hRest hFails
    rw [hSplit]
    by_cases hZero : remaining = 0
    · subst hZero
      rw [sweep, if_pos rfl]
      exact ⟨fun _ => ⟨fun _ => rfl, fun before _ _ _ _ => ⟨le_rfl, by positivity⟩⟩,
        fun _ => ⟨_, rfl⟩⟩
    cases hFails : fails slot with
    | true =>
      obtain ⟨err, hRun⟩ := hPass.failing state slot hSame.1 hFails
      rw [sweep, if_neg hZero, hRun]
      refine ⟨?_, fun h => absurd (h.1 rfl) hZero⟩
      rintro ⟨result, hResult⟩
      cases hResult
    | false =>
      obtain ⟨after, plan, hRun⟩ := hPass.working state slot hSame.1 hFails
      have hNext : ∀ i ∈ rest, SameAt start i (state.setReplicas slot after) := fun i hi =>
        (hSame.2 i hi).setReplicas fun hEq => hOut (hEq ▸ hi)
      have hOnward : (if 0 < remaining ∧ plan.isSome = true then remaining - 1 else remaining) < 0 ∨
          LocalCost pass start changes := hCost.imp_left fun hNeg => by
        rw [if_neg (by omega)]
        exact hNeg
      rw [sweep_cons_ok hZero hRun, ih hNodup hOnward hNext]
      simp only [Bool.false_eq_true, false_implies, true_and, List.countP_cons]
      refine forall_congr' fun before => forall_congr' fun i => forall_congr' fun after =>
        imp_congr_right fun _ => imp_congr_right fun _ => ?_
      rcases hCost with hNeg | hCost
      · rw [if_neg (by omega)]
        omega
      · rw [hCost state slot _ plan hSame.1 hRun]
        cases changes slot <;> simp
        split <;> omega

section Range

variable {pass : ClusterState → Nat → Except Error PassResult} {state : ClusterState}
  {fails changes : Nat → Bool} (hPass : LocalPass pass state fails) (count : Nat)

include hPass

theorem sweep_budget_ok_iff (hCost : LocalCost pass state changes) {remaining : Int}
    (hRemaining : 0 ≤ remaining) :
    (∃ result, sweep pass remaining (List.range count) state = .ok result) ↔
      ∀ i < count, fails i = true → remaining ≤ (List.range i).countP changes := by
  rw [sweep_ok_iff changes hPass List.nodup_range (.inr hCost) fun _ _ => ⟨rfl, rfl⟩]
  constructor
  · intro h i hi hFails
    refine (h (List.range i) i (List.range' (i + 1) (count - (i + 1))) ?_ hFails).2
    have hEnd : i :: List.range' (i + 1) (count - (i + 1)) = List.range' (0 + i) (count - i) := by
      rw [Nat.zero_add, ← List.range'_succ]
      congr 1
      omega
    rw [hEnd, List.range_eq_range', List.range_eq_range', List.range'_append_1]
    congr 1
    omega
  · rintro h before i after hList hFails
    have hLength := congrArg List.length hList
    rw [List.length_range, List.length_append, List.length_cons] at hLength
    have hAt : (List.range count)[before.length]? = some i := by
      rw [hList, List.getElem?_append_right le_rfl, Nat.sub_self]
      rfl
    rw [List.getElem?_range (by omega)] at hAt
    injection hAt with hAt
    have hBefore := congrArg (List.take before.length) hList
    rw [List.take_left, List.take_range, Nat.min_eq_left (by omega), hAt] at hBefore
    exact ⟨hRemaining, hBefore ▸ h i (by omega) hFails⟩

theorem sweep_unbounded_ok_iff :
    (∃ result, sweep pass (-1) (List.range count) state = .ok result) ↔
      ∀ i < count, fails i = false := by
  rw [sweep_ok_iff fails hPass List.nodup_range (.inl (by decide))
    fun _ _ => ⟨rfl, rfl⟩]
  constructor
  · intro h i hi
    by_contra hFails
    obtain ⟨before, after, hList⟩ := List.append_of_mem (List.mem_range.mpr hi)
    have hBudget := h before i after hList (by simpa using hFails)
    omega
  · intro h before i after hList hFails
    have hMem : i ∈ List.range count := hList ▸ List.mem_append_right _ List.mem_cons_self
    rw [h i (List.mem_range.mp hMem)] at hFails
    cases hFails

end Range

/-! ## The passes that may fail -/

theorem appendRepairs_eq (slot missing : Nat) (state : ClusterState)
    (steps : List ReconfigurationStep) :
    ∃ replicas, (appendRepairs slot missing state steps).1 = state.setReplicas slot replicas := by
  induction missing generalizing state steps with
  | zero => exact ⟨_, (setReplicas_self state slot).symm⟩
  | succ missing ih =>
    rw [appendRepairs]
    split
    · exact ⟨_, (setReplicas_self state slot).symm⟩
    · obtain ⟨replicas, hRest⟩ := ih (state.setReplicas slot _) _
      exact ⟨replicas, hRest.trans (setReplicas_setReplicas ..)⟩

def repairFails (state : ClusterState) (chain : Chain) : Bool :=
  chainContainsDeadReplica state chain &&
    (chain.replicas.filter fun replica => !state.isDead replica.nodeID).countP
      (·.state = .active) = 0

theorem repairDeadReplicas_eq (h : repairFails state (state.chainAt slot) = false) :
    ∃ after plan, repairDeadReplicas state slot = .ok (state.setReplicas slot after, plan) := by
  unfold repairDeadReplicas
  dsimp only
  by_cases hDead : chainContainsDeadReplica state (state.chainAt slot) = true
  · simp only [repairFails, hDead, Bool.true_and, decide_eq_false_iff_not] at h
    obtain ⟨replicas, hRepaired⟩ := appendRepairs_eq slot (state.replicationFactor.toNat -
      ((state.chainAt slot).replicas.filter fun replica => !state.isDead replica.nodeID).length)
      (state.setReplicas slot
        ((state.chainAt slot).replicas.filter fun replica => !state.isDead replica.nodeID)) []
    rw [setReplicas_setReplicas] at hRepaired
    rw [if_neg (by simp [hDead]), if_neg h, hRepaired]
    exact ⟨_, _, rfl⟩
  · rw [if_pos (by simpa using hDead)]
    exact ⟨_, none, by rw [setReplicas_self]⟩

theorem repairDeadReplicas_error (h : repairFails state (state.chainAt slot) = true) :
    ∃ err, repairDeadReplicas state slot = .error err := by
  simp only [repairFails, Bool.and_eq_true, decide_eq_true_eq] at h
  unfold repairDeadReplicas
  dsimp only
  rw [if_neg (by simp [h.1]), if_pos h.2]
  exact ⟨_, rfl⟩

theorem repairDeadReplicas_local (start : ClusterState) :
    LocalPass repairDeadReplicas start fun i => repairFails start (start.chainAt i) := by
  have hSame : ∀ state slot, SameAt start slot state →
      repairFails state (state.chainAt slot) = repairFails start (start.chainAt slot) := by
    intro state slot h
    have hTables : repairFails state = repairFails start := by rw [h.tables]; rfl
    rw [hTables, h.chain]
  constructor
  · intro state slot h hFails
    exact repairDeadReplicas_error ((hSame state slot h).trans hFails)
  · intro state slot h hFails
    exact repairDeadReplicas_eq ((hSame state slot h).trans hFails)

def awaitsDrain (state : ClusterState) (chain : Chain) : Bool :=
  !hasPendingReplicaState chain && firstActiveDrainingReplicaID state chain ≠ ""

def hasCandidate (state : ClusterState) (chain : Chain) : Bool :=
  (orderedNodes state state.placeable).any (isEligible · chain state.nodesByID)

def drainFails (state : ClusterState) (chain : Chain) : Bool :=
  awaitsDrain state chain && !hasCandidate state chain

theorem selectReplicaCandidate_eq_none_iff {nodes : List Node} {chain : Chain}
    {nodesByID : Std.ExtTreeMap String Node} {counts : Counts} :
    selectReplicaCandidate nodes chain nodesByID counts = none ↔
      nodes.any (isEligible · chain nodesByID) = false := by
  have hFold : ∀ best : Option Node, nodes.foldl (prefer chain nodesByID counts) best = none ↔
      best = none ∧ nodes.any (isEligible · chain nodesByID) = false := by
    induction nodes with
    | nil => simp
    | cons node rest ih =>
      intro best
      rw [List.foldl_cons, ih, List.any_cons, Bool.or_eq_false_iff]
      unfold prefer
      cases hEligible : isEligible node chain nodesByID with
      | false => simp
      | true =>
        cases best with
        | none => simp
        | some current =>
          simp only [Bool.not_true, Bool.false_eq_true, if_false]
          split <;> simp
  exact (hFold none).trans (and_iff_right rfl)

theorem selectTailRepairCandidate_eq_none_iff {chain : Chain} :
    selectTailRepairCandidate state chain = none ↔ hasCandidate state chain = false :=
  selectReplicaCandidate_eq_none_iff

theorem appendDrainReplacement_local (start : ClusterState) :
    LocalPass appendDrainReplacement start fun i => drainFails start (start.chainAt i) := by
  have hSame : ∀ state slot, SameAt start slot state →
      drainFails state (state.chainAt slot) = drainFails start (start.chainAt slot) := by
    intro state slot h
    have hTables : drainFails state = drainFails start := by rw [h.tables]; rfl
    rw [hTables, h.chain]
  constructor
  · intro state slot h hFails
    have hHere := (hSame state slot h).trans hFails
    simp only [drainFails, awaitsDrain, Bool.and_eq_true, Bool.not_eq_true', decide_eq_true_eq]
      at hHere
    rw [appendDrainReplacement, if_neg (by simp [hHere.1.1]), if_neg hHere.1.2,
      selectTailRepairCandidate_eq_none_iff.mpr hHere.2]
    exact ⟨_, rfl⟩
  · intro state slot h hFails
    have hHere := (hSame state slot h).trans hFails
    rw [appendDrainReplacement]
    by_cases hPending : hasPendingReplicaState (state.chainAt slot) = true
    · rw [if_pos hPending]
      exact ⟨_, _, by rw [setReplicas_self]⟩
    rw [if_neg hPending]
    by_cases hFirst : firstActiveDrainingReplicaID state (state.chainAt slot) = ""
    · dsimp only
      rw [if_pos hFirst]
      exact ⟨_, _, by rw [setReplicas_self]⟩
    dsimp only
    rw [if_neg hFirst]
    cases hCandidate : selectTailRepairCandidate state (state.chainAt slot) with
    | none =>
      rw [selectTailRepairCandidate_eq_none_iff] at hCandidate
      simp [drainFails, awaitsDrain, hPending, hFirst, hCandidate] at hHere
    | some candidate => exact ⟨_, _, rfl⟩

/-- Join rebalancing compares the chain with the one the placement gives the slot. -/
def joinOpen (state : ClusterState) (chain desired : Chain) : Bool :=
  !hasPendingReplicaState chain && firstActiveDrainingReplicaID state chain = "" &&
    !chainContainsDeadReplica state chain &&
    ((activeReplicaIDs chain).length : Int) = state.replicationFactor &&
    ((replicaIDs desired.replicas).length : Int) = state.replicationFactor

/-- The chain shares no member with the one it should become, and more than one would change. -/
def joinFails (state : ClusterState) (chain desired : Chain) : Bool :=
  joinOpen state chain desired &&
    (oneMemberReplacement (activeReplicaIDs chain) (replicaIDs desired.replicas)).isNone &&
    disjointChain (activeReplicaIDs chain) (replicaIDs desired.replicas)

def joinChanges (state : ClusterState) (chain desired : Chain) : Bool :=
  joinOpen state chain desired &&
    match oneMemberReplacement (activeReplicaIDs chain) (replicaIDs desired.replicas) with
    | none => false
    | some (added, removed) =>
      sameRelativeOrderWithout (activeReplicaIDs chain) removed (replicaIDs desired.replicas) added

theorem appendJoinRebalance_cases (desired : Chain) (state : ClusterState) (slot : Nat) :
    (joinFails state (state.chainAt slot) desired = true ∧
      ∃ err, appendJoinRebalance desired state slot = .error err) ∨
    (joinFails state (state.chainAt slot) desired = false ∧
      joinChanges state (state.chainAt slot) desired = false ∧
      appendJoinRebalance desired state slot = .ok (state, none)) ∨
    (joinFails state (state.chainAt slot) desired = false ∧
      joinChanges state (state.chainAt slot) desired = true ∧
      ∃ after plan, appendJoinRebalance desired state slot =
        .ok (state.setReplicas slot after, some plan)) := by
  unfold appendJoinRebalance
  dsimp only
  split
  · rename_i hPending
    exact .inr (.inl (by simp [joinFails, joinChanges, joinOpen, hPending]))
  split
  · rename_i hDraining
    exact .inr (.inl (by simp [joinFails, joinChanges, joinOpen, hDraining]))
  split
  · rename_i hDead
    exact .inr (.inl (by simp [joinFails, joinChanges, joinOpen, hDead]))
  split
  · rename_i hLength
    have hShut : joinOpen state (state.chainAt slot) desired = false := by
      simp only [joinOpen, Bool.and_eq_false_iff, decide_eq_false_iff_not]
      tauto
    exact .inr (.inl (by simp [joinFails, joinChanges, hShut]))
  rename_i hPending hDraining hDead hLength
  push Not at hLength
  have hOpen : joinOpen state (state.chainAt slot) desired = true := by
    simp [joinOpen, hPending, not_not.mp hDraining, hDead, hLength]
  split
  · rename_i hNone
    split
    · rename_i hDisjoint
      exact .inl ⟨by simp [joinFails, hOpen, hNone, hDisjoint], _, rfl⟩
    · rename_i hDisjoint
      exact .inr (.inl (by simp [joinFails, joinChanges, hNone, hDisjoint]))
  · rename_i added removed hSome
    split
    · rename_i hOrder
      rw [Bool.not_eq_true'] at hOrder
      exact .inr (.inl (by simp [joinFails, joinChanges, hSome, hOrder]))
    · rename_i hOrder
      exact .inr (.inr ⟨by simp [joinFails, hSome],
        by simpa [joinChanges, hOpen, hSome] using hOrder, _, _, rfl⟩)

section Join

variable (chains : List Chain) (start : ClusterState)

theorem joinFails_sameAt (h : SameAt start slot state) :
    joinFails state (state.chainAt slot) (desiredAt chains slot) =
      joinFails start (start.chainAt slot) (desiredAt chains slot) := by
  have hTables : joinFails state = joinFails start := by rw [h.tables]; rfl
  rw [hTables, h.chain]

theorem joinChanges_sameAt (h : SameAt start slot state) :
    joinChanges state (state.chainAt slot) (desiredAt chains slot) =
      joinChanges start (start.chainAt slot) (desiredAt chains slot) := by
  have hTables : joinChanges state = joinChanges start := by rw [h.tables]; rfl
  rw [hTables, h.chain]

theorem appendJoinRebalance_local :
    LocalPass (fun s i => appendJoinRebalance (desiredAt chains i) s i) start
      fun i => joinFails start (start.chainAt i) (desiredAt chains i) := by
  constructor
  · intro state slot h hFails
    rw [← joinFails_sameAt chains start h] at hFails
    rcases appendJoinRebalance_cases (desiredAt chains slot) state slot with
      ⟨-, hRun⟩ | ⟨hWorks, -⟩ | ⟨hWorks, -⟩
    · exact hRun
    · rw [hFails] at hWorks
      cases hWorks
    · rw [hFails] at hWorks
      cases hWorks
  · intro state slot h hWorks
    rw [← joinFails_sameAt chains start h] at hWorks
    rcases appendJoinRebalance_cases (desiredAt chains slot) state slot with
      ⟨hFails, -⟩ | ⟨-, -, hRun⟩ | ⟨-, -, after, plan, hRun⟩
    · rw [hFails] at hWorks
      cases hWorks
    · exact ⟨_, none, by rw [setReplicas_self]; exact hRun⟩
    · exact ⟨after, some plan, hRun⟩

theorem appendJoinRebalance_cost :
    LocalCost (fun s i => appendJoinRebalance (desiredAt chains i) s i) start
      fun i => joinChanges start (start.chainAt i) (desiredAt chains i) := by
  intro state slot updated plan h hRun
  dsimp only at hRun ⊢
  rw [← joinChanges_sameAt chains start h]
  rcases appendJoinRebalance_cases (desiredAt chains slot) state slot with
    ⟨-, err, hCase⟩ | ⟨-, hIdle, hCase⟩ | ⟨-, hChanges, after, slotPlan, hCase⟩
  · rw [hCase] at hRun
    cases hRun
  · rw [hCase] at hRun
    cases hRun
    rw [hIdle]
    rfl
  · rw [hCase] at hRun
    cases hRun
    rw [hChanges]
    rfl

end Join

/-! ## Starting drains and joins -/

/-- Every chain that waits for a drain replacement can get one, and the join pass runs out of
budget before it meets a chain it would have to replace as a whole. -/
structure Unblocked (state : ClusterState) (policy : ReconfigurationPolicy)
    (desired : Option (List Chain)) : Prop where
  drain : ∀ i < state.slotCount.toNat, drainFails state (state.chainAt i) = false
  join : ∀ chains, desired = some chains → 0 < policy.maxChangedChains →
    ∀ i < state.slotCount.toNat, joinFails state (state.chainAt i) (desiredAt chains i) = true →
      policy.maxChangedChains ≤ (List.range i).countP fun j =>
        joinChanges state (state.chainAt j) (desiredAt chains j)

/-- After the drain pass a chain is the old one, or it waited for a replacement and has one that
joins. -/
structure Drained (state later : ClusterState) : Prop where
  tables : later = { state with chains := later.chains }
  chain : ∀ i, later.chainAt i = state.chainAt i ∨
    (awaitsDrain state (state.chainAt i) = true ∧
      hasPendingReplicaState (later.chainAt i) = true)

theorem appendDrainReplacement_drained {current updated : ClusterState} {plan : Option SlotPlan}
    (h : Drained state current) (hRun : appendDrainReplacement current slot = .ok (updated, plan)) :
    Drained state updated := by
  rcases appendDrainReplacement_edits [] hRun with hNone | ⟨after, steps, hMade, hEdit⟩
  · cases hNone
    exact h
  cases hMade
  cases hEdit with
  | replaced settled draining selected =>
    refine ⟨by rw [ClusterState.setReplicas, h.tables], fun i => ?_⟩
    by_cases hi : i = slot
    · subst hi
      rcases Nat.lt_or_ge i current.chains.length with hInside | hOutside
      · right
        rcases h.chain i with hSame | ⟨-, hPending⟩
        · have hAwaits : awaitsDrain current = awaitsDrain state := by rw [h.tables]; rfl
          rw [← hAwaits, ← hSame, setReplicas_chainAt_self _ _ _ hInside]
          exact ⟨by simp [awaitsDrain, settled, draining],
            by simp [hasPendingReplicaState, hasJoiningReplica]⟩
        · exact Bool.noConfusion (hPending.symm.trans settled)
      · rw [setReplicas_of_length_le _ _ _ hOutside]
        exact h.chain i
    · rw [setReplicas_chainAt_of_ne _ _ _ hi]
      exact h.chain i

/-- The drain pass does not change what the join pass will find. -/
theorem Drained.join_eq {later : ClusterState} (h : Drained state later) (desired : Chain) (i : Nat) :
    joinFails later (later.chainAt i) desired = joinFails state (state.chainAt i) desired ∧
      joinChanges later (later.chainAt i) desired =
        joinChanges state (state.chainAt i) desired := by
  rcases h.chain i with hSame | ⟨hAwaits, hPending⟩
  · have hTables : joinFails later = joinFails state ∧ joinChanges later = joinChanges state := by
      constructor <;> (rw [h.tables]; rfl)
    rw [hTables.1, hTables.2, hSame]
    exact ⟨rfl, rfl⟩
  · simp only [awaitsDrain, Bool.and_eq_true, decide_eq_true_eq] at hAwaits
    have hLater : joinOpen later (later.chainAt i) desired = false := by
      simp [joinOpen, hPending]
    have hState : joinOpen state (state.chainAt i) desired = false := by
      simp [joinOpen, hAwaits.2]
    simp [joinFails, joinChanges, hLater, hState]

theorem startTransitions_ok_iff {policy : ReconfigurationPolicy} {desired : Option (List Chain)} :
    (∃ result, startTransitions policy desired state = .ok result) ↔
      Unblocked state policy desired := by
  have hDrainIff := sweep_unbounded_ok_iff (appendDrainReplacement_local state)
    state.slotCount.toNat
  have hDrained : ∀ replaced plans, sweep appendDrainReplacement (-1)
      (List.range state.slotCount.toNat) state = .ok (replaced, plans) → Drained state replaced :=
    fun replaced plans hSweep => sweep_induction
      (fun s i u p _ hs hRun => appendDrainReplacement_drained hs hRun)
      ⟨rfl, fun _ => .inl rfl⟩ hSweep
  constructor
  · rintro ⟨result, h⟩
    obtain ⟨⟨replaced, replacements⟩, hReplace, h⟩ := bind_eq_ok.mp h
    refine ⟨hDrainIff.mp ⟨_, hReplace⟩, ?_⟩
    rintro chains rfl hBudget
    dsimp only at h
    rw [if_neg (by omega)] at h
    obtain ⟨joined, hJoin, -⟩ := bind_eq_ok.mp h
    have hEq := fun i => (hDrained _ _ hReplace).join_eq (desiredAt chains i) i
    have hOk := (sweep_budget_ok_iff (appendJoinRebalance_local chains replaced) _
      (appendJoinRebalance_cost chains replaced) hBudget.le).mp ⟨_, hJoin⟩
    simpa only [hEq] using hOk
  · rintro ⟨hDrain, hJoin⟩
    obtain ⟨⟨replaced, replacements⟩, hReplace⟩ := hDrainIff.mpr hDrain
    cases desired with
    | none => exact ⟨_, bind_eq_ok.mpr ⟨_, hReplace, rfl⟩⟩
    | some chains =>
      by_cases hBudget : policy.maxChangedChains ≤ 0
      · refine ⟨(replaced, replacements), bind_eq_ok.mpr ⟨_, hReplace, ?_⟩⟩
        dsimp only
        rw [if_pos hBudget]
      · have hEq := fun i => (hDrained _ _ hReplace).join_eq (desiredAt chains i) i
        have hPositive : 0 < policy.maxChangedChains := by omega
        obtain ⟨⟨joined, joins⟩, hSweep⟩ :=
          (sweep_budget_ok_iff (appendJoinRebalance_local chains replaced) state.slotCount.toNat
            (appendJoinRebalance_cost chains replaced) hPositive.le).mpr (by
              simpa only [hEq] using hJoin chains rfl hPositive)
        refine ⟨(joined, replacements ++ joins), bind_eq_ok.mpr ⟨_, hReplace, ?_⟩⟩
        dsimp only
        rw [if_neg hBudget]
        exact bind_eq_ok.mpr ⟨_, hSweep, rfl⟩

/-! ## A reconcile around the repair -/

/-- Given the placement, finishing transitions fails for one reason only: a chain that cannot be
repaired. -/
theorem finishTransitions_ok_iff (hSound : Sound state)
    (hRepairable : ∀ i < state.slotCount.toNat, repairFails state (state.chainAt i) = false) :
    (∃ result, finishTransitions state = .ok result) ↔
      ∃ desired, buildDesiredPlacementFromState state = .ok desired := by
  obtain ⟨⟨repaired, repairs⟩, hRepair⟩ :=
    (sweep_unbounded_ok_iff (repairDeadReplicas_local state) _).mpr hRepairable
  obtain ⟨hRepaired, hFree⟩ : Trace ⟨0⟩ state repaired repairs ∧ _ := repair_sweep hSound hRepair
  obtain ⟨⟨drained, drains⟩, hDrain⟩ := sweep_total finalizeDrainReplacement (-1)
    (List.range state.slotCount.toNat) repaired
  have hBuild := buildDesired_tables
    ((drain_sweep hSound hRepaired hFree hDrain).1.path hSound).tables
  constructor
  · rintro ⟨⟨later, desired, plans⟩, h⟩
    obtain ⟨-, -, hDesired⟩ : Trace ⟨0⟩ state later plans ∧ _ := finishTransitions_trace hSound h
    exact ⟨desired, hDesired⟩
  · rintro ⟨desired, hDesired⟩
    rw [← hBuild] at hDesired
    cases desired with
    | none =>
      exact ⟨_, bind_eq_ok.mpr ⟨_, hRepair, bind_eq_ok.mpr ⟨_, hDrain,
        bind_eq_ok.mpr ⟨_, hDesired, rfl⟩⟩⟩⟩
    | some chains =>
      obtain ⟨⟨joined, joins⟩, hJoin⟩ := sweep_total
        (fun s i => finalizeJoinRebalance (desiredAt chains i) s i) (-1)
        (List.range state.slotCount.toNat) drained
      exact ⟨_, bind_eq_ok.mpr ⟨_, hRepair, bind_eq_ok.mpr ⟨_, hDrain,
        bind_eq_ok.mpr ⟨_, hDesired, bind_eq_ok.mpr ⟨_, hJoin, rfl⟩⟩⟩⟩⟩

/-- A repair counts as a change, so nothing is started in the same reconcile. -/
theorem finishTransitions_ne_nil {later : ClusterState} (hSound : Sound state)
    (hDead : ¬DeadFree state) {desired : Option (List Chain)} {plans : List SlotPlan}
    (h : finishTransitions state = .ok (later, desired, plans)) : plans ≠ [] := by
  rintro rfl
  obtain ⟨hTrace, hFree, -⟩ : Trace ⟨0⟩ state later [] ∧ _ := finishTransitions_trace hSound h
  exact hDead ((hTrace.path hSound).eq_of_nil ▸ hFree)

/-- What lets a reconcile succeed: the placement can be computed, and where nothing is repaired,
finished or filled, drains and joins can be started. -/
def Reconcilable (state : ClusterState) (policy : ReconfigurationPolicy) : Prop :=
  ∃ desired, buildDesiredPlacementFromState state = .ok desired ∧
    (¬DeadFree state ∨ ¬NothingToFinish state desired ∨ ¬NothingToFill state desired ∨
      Unblocked state policy desired)

theorem reconcileState_ok_iff (hSound : Sound state)
    (hRepairable : ∀ i < state.slotCount.toNat, repairFails state (state.chainAt i) = false)
    {policy : ReconfigurationPolicy} :
    (∃ result, reconcileState state policy = .ok result) ↔ Reconcilable state policy := by
  constructor
  · rintro ⟨result, h⟩
    obtain ⟨⟨finished, desired, finals⟩, hFinish, h⟩ := bind_eq_ok.mp h
    obtain ⟨-, -, hDesired⟩ : Trace policy state finished finals ∧ _ :=
      finishTransitions_trace hSound hFinish
    refine ⟨desired, hDesired, ?_⟩
    by_cases hFree : DeadFree state
    · by_cases hFinals : NothingToFinish state desired
      · have hSame := (finishTransitions_eq_nil_iff hFree).mpr ⟨rfl, hDesired, hFinals⟩
        rw [hFinish] at hSame
        cases hSame
        obtain ⟨⟨filled, fills⟩, hFill, h⟩ := bind_eq_ok.mp h
        by_cases hFills : NothingToFill state desired
        · rw [(fillMissing_eq_nil_iff hSound).mpr hFills] at hFill
          cases hFill
          exact .inr (.inr (.inr (startTransitions_ok_iff.mp ⟨result, h⟩)))
        · exact .inr (.inr (.inl hFills))
      · exact .inr (.inl hFinals)
    · exact .inl hFree
  · rintro ⟨desired, hDesired, hCase⟩
    obtain ⟨⟨finished, target, finals⟩, hFinish⟩ :=
      (finishTransitions_ok_iff hSound hRepairable).mpr ⟨desired, hDesired⟩
    obtain ⟨-, -, hTarget⟩ : Trace policy state finished finals ∧ _ :=
      finishTransitions_trace hSound hFinish
    rw [hDesired] at hTarget
    cases hTarget
    cases finals with
    | cons slotPlan rest => exact ⟨_, bind_eq_ok.mpr ⟨_, hFinish, rfl⟩⟩
    | nil =>
      have hFree : DeadFree state := by
        by_contra hDead
        exact finishTransitions_ne_nil hSound hDead hFinish rfl
      obtain ⟨hSame, -, hFinals⟩ := (finishTransitions_eq_nil_iff hFree).mp hFinish
      cases hSame
      obtain ⟨⟨filled, fills⟩, hFill⟩ := fillMissing_total policy desired state
      cases fills with
      | cons slotPlan rest =>
        exact ⟨_, bind_eq_ok.mpr ⟨_, hFinish, bind_eq_ok.mpr ⟨_, hFill, rfl⟩⟩⟩
      | nil =>
        cases fillMissing_silent hFill
        have hFills := (fillMissing_eq_nil_iff hSound).mp hFill
        have hUnblocked : Unblocked state policy desired := by tauto
        obtain ⟨result, hStart⟩ := startTransitions_ok_iff.mpr hUnblocked
        exact ⟨result, bind_eq_ok.mpr ⟨_, hFinish, bind_eq_ok.mpr ⟨_, hFill, hStart⟩⟩⟩

/-! ## The dead node -/

def ClusterState.markedDead (state : ClusterState) (nodeID : String) : ClusterState :=
  { state with
    nodeHealthByID := state.nodeHealthByID.insert nodeID .dead
    readyNodeIDs := state.readyNodeIDs.erase nodeID
    drainingNodeIDs := state.drainingNodeIDs.erase nodeID }

theorem applyEvent_markNodeDead (hSound : Sound state) {event : Event}
    (hKind : event.kind = .markNodeDead) (hKnown : event.nodeID ∈ state.nodesByID) :
    applyEvent state event = .ok (state.markedDead event.nodeID) := by
  have hNamed : event.nodeID ≠ "" := fun hEmpty => hSound.named (hEmpty ▸ hKnown)
  simp only [applyEvent, hKind]
  rw [markNodeDead, if_neg hNamed, if_neg (not_not.mpr hKnown)]
  rfl

theorem markedDead_isDead (state : ClusterState) (nodeID id : String) :
    (state.markedDead nodeID).isDead id = (decide (nodeID = id) || state.isDead id) := by
  simp only [ClusterState.isDead, ClusterState.markedDead, getElem?_insert_ite]
  by_cases hEq : nodeID = id <;> simp [hEq]

theorem markedDead_repairable (hFree : DeadFree state) {nodeID : String}
    (hAnchor : ∀ chain ∈ state.chains, nodeID ∈ replicaIDs chain.replicas →
      ∃ replica ∈ chain.replicas, replica.nodeID ≠ nodeID ∧ replica.state = .active ∧
        state.isDead replica.nodeID = false) (i : Nat) :
    repairFails (state.markedDead nodeID) ((state.markedDead nodeID).chainAt i) = false := by
  have hChainAt : (state.markedDead nodeID).chainAt i = state.chainAt i := rfl
  rw [hChainAt]
  by_contra hFails
  simp only [repairFails, Bool.not_eq_false, Bool.and_eq_true, decide_eq_true_eq,
    chainContainsDeadReplica, List.any_eq_true, List.countP_eq_zero] at hFails
  obtain ⟨⟨dead, hMem, hDead⟩, hNone⟩ := hFails
  have hID : nodeID = dead.nodeID := by
    by_contra hNe
    rw [markedDead_isDead, hFree i _ (mem_replicaIDs.mpr ⟨dead, hMem, rfl⟩)] at hDead
    simp [hNe] at hDead
  have hInside := lt_length_of_replicas_ne_nil (List.ne_nil_of_mem hMem)
  have hChain : state.chainAt i ∈ state.chains := by simp [ClusterState.chainAt, hInside]
  obtain ⟨anchor, hAnchorMem, hNe, hActive, hAlive⟩ :=
    hAnchor _ hChain (mem_replicaIDs.mpr ⟨dead, hMem, hID.symm⟩)
  refine hNone anchor (List.mem_filter.mpr ⟨hAnchorMem, ?_⟩) hActive
  simp [markedDead_isDead, hAlive, Ne.symm hNe]

/-- Recording a node dead succeeds and takes it out of every chain exactly when the reconcile that
comes with it can compute the placement and, with nothing to repair, start what it wants to. -/
theorem markNodeDead_removes_iff {state : ClusterState} (hReachable : Reachable state)
    {event : Event} (hKind : event.kind = .markNodeDead) (hKnown : event.nodeID ∈ state.nodesByID)
    {policy : ReconfigurationPolicy} (hPolicy : 0 ≤ policy.maxChangedChains)
    (hAnchor : ∀ chain ∈ state.chains, event.nodeID ∈ replicaIDs chain.replicas →
      ∃ replica ∈ chain.replicas, replica.nodeID ≠ event.nodeID ∧ replica.state = .active ∧
        state.isDead replica.nodeID = false) :
    (∃ plan, planReconfiguration state [event] policy = .ok plan ∧
        ∀ chain ∈ plan.updatedState.chains, event.nodeID ∉ replicaIDs chain.replicas) ↔
      Reconcilable (state.markedDead event.nodeID) policy := by
  obtain ⟨hSound, hFree⟩ := hReachable.sound
  have hApply := applyEvent_markNodeDead hSound hKind hKnown
  have hMarked : Sound (state.markedDead event.nodeID) := applyEvent_sound hSound hApply
  rw [← reconcileState_ok_iff hMarked fun i _ => markedDead_repairable hFree hAnchor i]
  constructor
  · rintro ⟨plan, hPlan, -⟩
    obtain ⟨-, hRun⟩ := hReachable.planReconfiguration_ok hPlan
    obtain ⟨applied, hApplied, hRun⟩ := bind_eq_ok.mp hRun
    rw [hApply] at hApplied
    cases hApplied
    obtain ⟨result, hReconcile, -⟩ := bind_eq_ok.mp hRun
    exact ⟨result, ok_of_mapError hReconcile⟩
  · rintro ⟨⟨later, plans⟩, hReconcile⟩
    obtain ⟨-, hEvolves, hLaterFree, -⟩ := reconcileState_ok hMarked hReconcile
    have hRun : reconcileAll policy [event] state = .ok (later, plans ++ []) :=
      bind_eq_ok.mpr ⟨_, by rw [hApply]; rfl, bind_eq_ok.mpr ⟨_, by rw [hReconcile]; rfl,
        bind_eq_ok.mpr ⟨_, rfl, rfl⟩⟩⟩
    refine ⟨⟨later, collectUnassignedNodeIDs later, plans ++ []⟩, ?_, ?_⟩
    · rw [planReconfiguration, if_neg (not_lt.mpr hPolicy), hReachable.copy]
      exact bind_eq_ok.mpr ⟨_, rfl, bind_eq_ok.mpr ⟨_, hRun, rfl⟩⟩
    · intro chain hChain hMem
      obtain ⟨i, rfl⟩ := exists_chainAt hChain
      have hAlive := hLaterFree i _ hMem
      rw [tables_isDead hEvolves.tables, markedDead_isDead] at hAlive
      simp at hAlive

theorem killing_c_iff :
    (∃ plan, planReconfiguration pairPlacement [⟨.markNodeDead, zeroNode, "c", 0⟩] ⟨0⟩ = .ok plan ∧
        ∀ chain ∈ plan.updatedState.chains, "c" ∉ replicaIDs chain.replicas) ↔
      Reconcilable (pairPlacement.markedDead "c") ⟨0⟩ := by
  have hKnown : (⟨.markNodeDead, zeroNode, "c", 0⟩ : Event).nodeID ∈ pairPlacement.nodesByID := by
    decide +kernel
  exact markNodeDead_removes_iff pairPlacement_reachable rfl hKnown (by decide) (by decide +kernel)

/-! ### Two racks

The slot is held by `a` in one rack and `b` in the other, and `c` shares the rack of `b`.  Without
`a` two nodes are placeable, as many as the factor asks for, but no chain may hold both. -/

def twoRacks : ClusterState :=
  (buildInitialPlacement ⟨1, 2⟩ [inRack "a" "1", inRack "b" "2", inRack "c" "2"]).toOption.getD
    soloPlacement

theorem twoRacks_reachable : Reachable twoRacks := by
  have hBuild := eq_ok_getD
    (x := buildInitialPlacement ⟨1, 2⟩ [inRack "a" "1", inRack "b" "2", inRack "c" "2"])
    soloPlacement (by decide +kernel)
  exact .initial hBuild

/-- Node `a` cannot be taken out although `b` is an active replica of its only chain. -/
theorem dead_node_stays :
    ¬∀ (state : ClusterState) (event : Event) (policy : ReconfigurationPolicy), Reachable state →
      event.kind = .markNodeDead → event.nodeID ∈ state.nodesByID → 0 ≤ policy.maxChangedChains →
      (∀ chain ∈ state.chains, event.nodeID ∈ replicaIDs chain.replicas →
        ∃ replica ∈ chain.replicas, replica.nodeID ≠ event.nodeID ∧ replica.state = .active ∧
          state.isDead replica.nodeID = false) →
      ∃ plan, planReconfiguration state [event] policy = .ok plan ∧
        ∀ chain ∈ plan.updatedState.chains, event.nodeID ∉ replicaIDs chain.replicas := by
  intro hAll
  obtain ⟨plan, hPlan, -⟩ := hAll twoRacks ⟨.markNodeDead, zeroNode, "a", 0⟩ ⟨0⟩
    twoRacks_reachable rfl (by decide +kernel) (by decide) (by decide +kernel)
  have hFails : (planReconfiguration twoRacks [⟨.markNodeDead, zeroNode, "a", 0⟩]
      ⟨0⟩).toOption = none := by decide +kernel
  rw [hPlan] at hFails
  cases hFails

end Craq.Coordinator
