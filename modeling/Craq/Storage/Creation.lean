import Craq.Storage.Place
import Craq.Storage.Publish

/-! # Adding a replica, call by call

A node adds a replica with several calls to its stores, and undoes the first of them when a later
one fails.  A crash comes between any two of them, and then nothing is undone.  The coordinator
gives the command again; whether it can succeed depends on which calls have taken effect.
-/

namespace Craq.Storage

/-! ## The stores of a slot -/

/-- What a crash leaves of a slot, the journal apart. -/
structure SlotStores where
  backend : Option ReplicaData := none
  localState : Option PersistedReplica := none
deriving DecidableEq

/-- The calls that change the stores; each of them takes effect as a whole. -/
inductive StoreCall where
  | createReplica
  | deleteReplica
  | installSnapshot (snapshot : Snapshot)
  | setHighestCommittedSequence (sequence : Nat)
  | upsertReplica (replica : PersistedReplica)
deriving DecidableEq

namespace SlotStores

def apply (stores : SlotStores) : StoreCall → SlotStores
  | .createReplica => { stores with backend := some {} }
  | .deleteReplica => { stores with backend := none }
  | .installSnapshot snapshot =>
    { stores with backend := stores.backend.map (·.installSnapshot snapshot) }
  | .setHighestCommittedSequence sequence =>
    { stores with backend := stores.backend.map (·.setHighestCommittedSequence sequence) }
  | .upsertReplica replica => { stores with localState := some replica }

def applyAll (stores : SlotStores) (calls : List StoreCall) : SlotStores :=
  calls.foldl apply stores

@[simp]
theorem applyAll_nil (stores : SlotStores) : stores.applyAll [] = stores :=
  rfl

@[simp]
theorem applyAll_cons (stores : SlotStores) (call : StoreCall) (calls : List StoreCall) :
    stores.applyAll (call :: calls) = (stores.apply call).applyAll calls :=
  rfl

theorem applyAll_append (stores : SlotStores) (first later : List StoreCall) :
    stores.applyAll (first ++ later) = (stores.applyAll first).applyAll later :=
  List.foldl_append

end SlotStores

def StoreCall.fills : StoreCall → Bool
  | .installSnapshot _ | .setHighestCommittedSequence _ => true
  | _ => false

theorem SlotStores.applyAll_fills {calls : List StoreCall} (stores : SlotStores)
    (h : ∀ call ∈ calls, call.fills = true) :
    (stores.applyAll calls).backend.isSome = stores.backend.isSome ∧
      (stores.applyAll calls).localState = stores.localState := by
  induction calls generalizing stores with
  | nil => exact ⟨rfl, rfl⟩
  | cons call calls ih =>
    obtain ⟨hcall, hrest⟩ := List.forall_mem_cons.mp h
    obtain ⟨hbackend, hlocal⟩ := ih (stores.apply call) hrest
    rw [applyAll_cons, hbackend, hlocal]
    cases call with
    | installSnapshot snapshot | setHighestCommittedSequence sequence =>
      exact ⟨Option.isSome_map, rfl⟩
    | createReplica | deleteReplica | upsertReplica replica => exact absurd hcall nofun

def NodeSlot.stores (n : NodeSlot) : SlotStores where
  backend := n.backend
  localState := n.localState

def NodeSlot.reopened (n : NodeSlot) (stores : SlotStores) : NodeSlot :=
  NodeSlot.restart { n with backend := stores.backend, localState := stores.localState }

/-! ## The handler -/

/-- What the handler is told from outside; a node that is already there is no answer. -/
structure CreationAnswers extends Answers where
  createReplica : Option Error := none
  deleteReplica : Option Error := none
  loadNode : Option Error := none

/-- What the handler has done: the calls that took effect, the node it leaves and the error it
returns. -/
structure Creation where
  calls : List StoreCall := []
  node : NodeSlot
  outcome : Option Error := none

namespace Handlers

variable (n : NodeSlot) (answers : CreationAnswers) (assignment : ReplicaAssignment)

def replicaExists : Error :=
  .sentinel .replicaExists s!"slot {assignment.slot}"

def createReplica : Option Error :=
  if n.backend.isSome then some (replicaExists assignment) else answers.createReplica

def persistedReplicaMatchesAssignment : Bool :=
  n.localState.any fun replica =>
    decide (replica.assignment = assignment) && decide (replica.lastKnownState ≠ .removed)

-- The owner that runs this has no replica, so none is published.
def waitForReplicaCreationReplay : Bool :=
  answers.loadNode.isNone && persistedReplicaMatchesAssignment n assignment

/-- The replica is taken back; whether that succeeds is not looked at. -/
def rollBack (calls : List StoreCall) (err : Error) : Creation :=
  match answers.deleteReplica with
  | none =>
    { calls := calls ++ [.deleteReplica]
      node := { n.removeRecord with backend := none }
      outcome := some err }
  | some _ => { calls, node := n.removeRecord, outcome := some err }

def persistJoined (calls : List StoreCall) (highest : Nat) : Creation :=
  let joined := NodeSlot.joinedRecord assignment highest
  let published := n.setRecord joined
  match answers.upsertReplica with
  | some err =>
    rollBack published answers calls
      (.wrapped "err in n.persistReplica" (.wrapped "err in n.local.UpsertReplica" err))
  | none =>
    { calls := calls ++ [.upsertReplica (persistedReplica joined)]
      node := published.persistReplica joined }

def joinFrom : Creation :=
  match answers.fetchSnapshot with
  | .error err =>
    rollBack n answers [.createReplica] (.wrapped "err in n.repl.FetchSnapshot" err)
  | .ok (snapshot, highest) =>
    match answers.installSnapshot with
    | some err =>
      rollBack n answers [.createReplica] (.wrapped "err in n.backend.InstallSnapshot" err)
    | none =>
      let installed : NodeSlot :=
        { n with
          backend := n.backend.map (·.installSnapshot snapshot)
          runtime := { n.runtime with committedMetadata := ∅ } }
      match answers.setHighestCommittedSequence with
      | some err =>
        rollBack installed answers [.createReplica, .installSnapshot snapshot]
          (.wrapped "err in n.backend.SetHighestCommittedSequence" err)
      | none =>
        persistJoined
          { installed with
            backend := installed.backend.map (·.setHighestCommittedSequence highest) }
          answers assignment
          [.createReplica, .installSnapshot snapshot, .setHighestCommittedSequence highest] highest

def join : Creation :=
  let joining := { n with backend := some {} }.setRecord (NodeSlot.joiningRecord assignment)
  if assignment.peers.predecessorNodeID = "" then
    persistJoined joining answers assignment [.createReplica] 0
  else joinFrom joining answers assignment

def addReplicaAsTail : Creation :=
  if n.runtime.present then
    if n.record.assignment = assignment ∧ n.record.state ≠ .removed then { node := n }
    else { node := n, outcome := some (replicaExists assignment) }
  else if assignment.peers.predecessorNodeID ≠ "" ∧ n.catchupsExhausted then
    { node := n
      outcome := some (.backpressure .catchup (-1) n.load.inFlightCatchups
        n.config.maxConcurrentCatchups) }
  else
    match createReplica n answers assignment with
    | some err =>
      if err.is .replicaExists ∧ waitForReplicaCreationReplay n answers assignment then { node := n }
      else { node := n, outcome := some (.wrapped "err in n.backend.CreateReplica" err) }
    | none => join n answers assignment

end Handlers

/-- The stores take every call and the predecessor sends its snapshot. -/
structure CreationAnswers.Succeed (answers : CreationAnswers) : Prop where
  createReplica : answers.createReplica = none
  fetchSnapshot : answers.fetchSnapshot.isOk = true
  installSnapshot : answers.installSnapshot = none
  setHighestCommittedSequence : answers.setHighestCommittedSequence = none
  upsertReplica : answers.upsertReplica = none

namespace Handlers

variable {n : NodeSlot} {answers : CreationAnswers} {assignment : ReplicaAssignment}

/-! ### The calls of the handler -/

/-- How the calls that add a replica end: not at all, with the replica taken back, or with the
assignment persisted. -/
inductive Ends (assignment : ReplicaAssignment) : List StoreCall → Prop
  | failed : Ends assignment []
  | takenBack : Ends assignment [.deleteReplica]
  | persisted (replica : PersistedReplica) (h : replica.assignment = assignment) :
    Ends assignment [.upsertReplica replica]

/-- The calls that add a replica: it is created, filled and persisted or taken back. -/
inductive Adds (assignment : ReplicaAssignment) : List StoreCall → Prop
  | refused : Adds assignment []
  | created (filling last : List StoreCall) (fills : ∀ call ∈ filling, call.fills = true)
    (ends : Ends assignment last) : Adds assignment (.createReplica :: (filling ++ last))

theorem rollBack_adds {filling : List StoreCall} (err : Error)
    (fills : ∀ call ∈ filling, call.fills = true) :
    Adds assignment (rollBack n answers (.createReplica :: filling) err).calls := by
  rw [rollBack]
  cases answers.deleteReplica with
  | none => exact .created filling _ fills .takenBack
  | some cause =>
    have kept : Adds assignment (.createReplica :: (filling ++ [])) :=
      .created filling [] fills .failed
    rwa [List.append_nil] at kept

theorem persistJoined_adds {filling : List StoreCall} {highest : Nat}
    (fills : ∀ call ∈ filling, call.fills = true) :
    Adds assignment
      (persistJoined n answers assignment (.createReplica :: filling) highest).calls := by
  rw [persistJoined]
  cases answers.upsertReplica with
  | none => exact .created filling _ fills (.persisted _ rfl)
  | some err => exact rollBack_adds _ fills

theorem joinFrom_adds : Adds assignment (joinFrom n answers assignment).calls := by
  rw [joinFrom.eq_def]
  split
  · exact rollBack_adds _ (List.forall_mem_nil _)
  split
  · exact rollBack_adds _ (List.forall_mem_nil _)
  split
  · exact rollBack_adds _ (by simp [StoreCall.fills])
  · exact persistJoined_adds (by simp [StoreCall.fills])

theorem addReplicaAsTail_adds : Adds assignment (addReplicaAsTail n answers assignment).calls := by
  rw [addReplicaAsTail.eq_def]
  split
  · split <;> exact .refused
  split
  · exact .refused
  split
  · split <;> exact .refused
  rw [join]
  split
  · exact persistJoined_adds (List.forall_mem_nil _)
  · exact joinFrom_adds

/-! ### The node the handler leaves -/

variable {stores : SlotStores}

theorem rollBack_stores {calls : List StoreCall} (err : Error)
    (h : n.stores = stores.applyAll calls) :
    (rollBack n answers calls err).node.stores =
      stores.applyAll (rollBack n answers calls err).calls := by
  rw [rollBack]
  cases answers.deleteReplica with
  | none => rw [SlotStores.applyAll_append, ← h]; rfl
  | some cause => exact h

theorem persistJoined_stores {calls : List StoreCall} (highest : Nat)
    (h : n.stores = stores.applyAll calls) :
    (persistJoined n answers assignment calls highest).node.stores =
      stores.applyAll (persistJoined n answers assignment calls highest).calls := by
  rw [persistJoined]
  cases answers.upsertReplica with
  | none => rw [SlotStores.applyAll_append, ← h]; rfl
  | some err => exact rollBack_stores _ h

theorem joinFrom_stores (h : n.stores = stores.apply .createReplica) :
    (joinFrom n answers assignment).node.stores =
      stores.applyAll (joinFrom n answers assignment).calls := by
  rw [joinFrom.eq_def]
  split
  · exact rollBack_stores _ h
  split
  · exact rollBack_stores _ h
  split
  · refine rollBack_stores _ ?_
    rw [SlotStores.applyAll_cons, ← h]
    rfl
  · refine persistJoined_stores _ ?_
    rw [SlotStores.applyAll_cons, ← h]
    rfl

/-- What the stores hold in the end is what the calls have made of them. -/
theorem addReplicaAsTail_stores :
    (addReplicaAsTail n answers assignment).node.stores =
      n.stores.applyAll (addReplicaAsTail n answers assignment).calls := by
  rw [addReplicaAsTail.eq_def]
  split
  · split <;> rfl
  split
  · rfl
  split
  · split <;> rfl
  rw [join]
  split
  · exact persistJoined_stores _ rfl
  · exact joinFrom_stores rfl

/-- A replica that has to fetch its snapshot first ends in the same state once it has it. -/
theorem addReplicaAsTail_final (hcreate : answers.createReplica = none)
    (hdelete : answers.deleteReplica = none) (hinstall : answers.installSnapshot = none)
    (hhighest : answers.setHighestCommittedSequence = none)
    (hstore : n.load.localWriteFails = answers.upsertReplica.isSome) :
    n.addReplicaAsTail assignment = (addReplicaAsTail n answers assignment).node ∨
      ∃ joining : NodeSlot,
        (∃ target, n.addReplicaAsTail assignment =
          joining.andThen [.awaitSnapshot (.join assignment) target none]) ∧
        joining.joinFetched assignment answers.fetchSnapshot.toOption =
          (addReplicaAsTail n answers assignment).node := by
  rw [NodeSlot.addReplicaAsTail, addReplicaAsTail.eq_def]
  by_cases hpresent : n.runtime.present = true
  · left
    rw [if_pos hpresent, if_pos hpresent]
    split <;> rfl
  rw [if_neg hpresent, if_neg hpresent]
  by_cases hfull : assignment.peers.predecessorNodeID ≠ "" ∧ n.catchupsExhausted = true
  · left
    rw [if_pos (by simpa using hfull), if_pos hfull]
  rw [if_neg (by simpa using hfull), if_neg hfull, createReplica]
  by_cases hbackend : n.backend.isSome = true
  · left
    rw [if_pos hbackend, if_pos hbackend]
    simp only
    split <;> rfl
  rw [if_neg hbackend, if_neg hbackend, hcreate]
  simp only [join]
  have joins (joining : NodeSlot) (calls : List StoreCall) (highest : Nat)
      (same : joining.load = n.load) : joining.finishJoin assignment highest =
        (persistJoined joining answers assignment calls highest).node := by
    have published : (joining.setRecord (NodeSlot.joinedRecord assignment highest)).load = n.load :=
      same
    rw [NodeSlot.finishJoin, persistJoined, published, hstore]
    cases answers.upsertReplica with
    | none => rfl
    | some err => simp only [rollBack, hdelete]; rfl
  by_cases hfirst : assignment.peers.predecessorNodeID = ""
  · left
    rw [if_pos hfirst, if_pos hfirst]
    exact joins _ _ _ rfl
  · right
    rw [if_neg hfirst, if_neg hfirst]
    refine ⟨_, ⟨_, rfl⟩, ?_⟩
    rw [joinFrom.eq_def]
    cases answers.fetchSnapshot with
    | error err => simp only [rollBack, hdelete]; rfl
    | ok reply =>
      simp only [hinstall, hhighest]
      exact joins _ _ _ rfl

end Handlers

/-! ## Giving the command again -/

/-- The node is opened with these stores and given the command again: with every call and the
snapshot granted, it ends with a replica of that assignment and no error. -/
def NodeSlot.AddsAgain (n : NodeSlot) (stores : SlotStores) (assignment : ReplicaAssignment) :
    Prop :=
  ∀ answers : CreationAnswers, answers.Succeed →
    let creation := Handlers.addReplicaAsTail (n.reopened stores) answers assignment
    creation.outcome = none ∧ creation.node.runtime.present = true ∧
      creation.node.record.assignment = assignment

section Reopened

variable (n : NodeSlot) {stores : SlotStores} {assignment : ReplicaAssignment}

theorem reopened_absent (h : stores.localState = none) :
    (n.reopened stores).runtime.present = false ∧ (n.reopened stores).catchupsExhausted = false ∧
      (n.reopened stores).stores = stores := by
  rw [NodeSlot.reopened, NodeSlot.restart]
  simp only [h]
  refine ⟨trivial, ?_, ?_⟩
  · simp only [NodeSlot.catchupsExhausted]
    by_cases hlimit : n.config.maxConcurrentCatchups > 0
    · simp [hlimit.ne']
    · simp [hlimit]
  · rw [NodeSlot.stores, ← h]

theorem reopened_present {stored : PersistedReplica} (h : stores.localState = some stored) :
    (n.reopened stores).runtime.present = true ∧
      (n.reopened stores).record.assignment = stored.assignment ∧
      (n.reopened stores).record.state = .recovered := by
  have place := openReplica_place stored stores.backend n.journal
  rw [NodeSlot.reopened, NodeSlot.restart]
  simp only [h]
  exact ⟨trivial, place.1, place.2⟩

theorem orphan_refuses (hbackend : stores.backend.isSome = true) (hlocal : stores.localState = none)
    (assignment : ReplicaAssignment) (answers : CreationAnswers) :
    (Handlers.addReplicaAsTail (n.reopened stores) answers assignment).outcome =
        some (.wrapped "err in n.backend.CreateReplica" (Handlers.replicaExists assignment)) ∧
      (Handlers.addReplicaAsTail (n.reopened stores) answers assignment).node.stores = stores := by
  obtain ⟨hpresent, hcatchups, hstores⟩ := reopened_absent n hlocal
  have held : (n.reopened stores).backend.isSome = true :=
    (congrArg (fun stores => stores.backend.isSome) hstores).trans hbackend
  have unmatched : Handlers.persistedReplicaMatchesAssignment (n.reopened stores) assignment =
      false := by
    have hnone : (n.reopened stores).localState = none :=
      (congrArg SlotStores.localState hstores).trans hlocal
    rw [Handlers.persistedReplicaMatchesAssignment, hnone]
    rfl
  rw [Handlers.addReplicaAsTail, if_neg (by simp [hpresent]), if_neg (by simp [hcatchups]),
    Handlers.createReplica, if_pos held]
  simp only
  rw [if_neg (by simp [Handlers.waitForReplicaCreationReplay, unmatched])]
  exact ⟨rfl, hstores⟩

theorem persistJoined_joins (answers : CreationAnswers) (calls : List StoreCall)
    {highest : Nat} (hstore : answers.upsertReplica = none) :
    let creation := Handlers.persistJoined n answers assignment calls highest
    creation.outcome = none ∧ creation.node.runtime.present = true ∧
      creation.node.record.assignment = assignment := by
  simp only [Handlers.persistJoined, hstore]
  exact ⟨trivial, rfl, rfl⟩

theorem free_adds (hbackend : stores.backend = none) (hlocal : stores.localState = none) :
    n.AddsAgain stores assignment := by
  intro answers succeed
  obtain ⟨hpresent, hcatchups, hstores⟩ := reopened_absent n hlocal
  have hfree : (n.reopened stores).backend = none :=
    (congrArg SlotStores.backend hstores).trans hbackend
  simp only
  rw [Handlers.addReplicaAsTail, if_neg (by simp [hpresent]), if_neg (by simp [hcatchups]),
    Handlers.createReplica, if_neg (by simp [hfree]), succeed.createReplica]
  simp only [Handlers.join]
  split
  · exact persistJoined_joins _ answers _ succeed.upsertReplica
  · rw [Handlers.joinFrom.eq_def]
    have hfetch := succeed.fetchSnapshot
    cases hreply : answers.fetchSnapshot with
    | error err => simp [hreply, Except.isOk, Except.toBool] at hfetch
    | ok reply =>
      simp only [succeed.installSnapshot, succeed.setHighestCommittedSequence]
      exact persistJoined_joins _ answers _ succeed.upsertReplica

/-- The command given again succeeds exactly on what is either whole or not there at all. -/
theorem addsAgain_iff :
    n.AddsAgain stores assignment ↔
      (∃ stored ∈ stores.localState, stored.assignment = assignment) ∨
        stores.localState = none ∧ stores.backend = none := by
  have granted : CreationAnswers.Succeed { fetchSnapshot := .ok (∅, 0) } :=
    ⟨rfl, rfl, rfl, rfl, rfl⟩
  cases hlocal : stores.localState with
  | some stored =>
    obtain ⟨hpresent, hassignment, hstate⟩ := reopened_present n hlocal
    constructor
    · intro h
      obtain ⟨-, -, hfinal⟩ := h _ granted
      rw [Handlers.addReplicaAsTail, if_pos hpresent] at hfinal
      refine .inl ⟨stored, rfl, ?_⟩
      rw [← hassignment, ← hfinal]
      split <;> rfl
    · rintro (⟨_, ⟨⟩, heq⟩ | ⟨hnone, -⟩)
      · intro answers _
        have kept : (n.reopened stores).record.state ≠ .removed := by
          rw [hstate]
          exact nofun
        simp only
        rw [Handlers.addReplicaAsTail, if_pos hpresent, if_pos ⟨hassignment.trans heq, kept⟩]
        exact ⟨rfl, hpresent, hassignment.trans heq⟩
      · exact absurd hnone nofun
  | none =>
    constructor
    · intro h
      refine .inr ⟨rfl, ?_⟩
      by_contra hbackend
      have refused := (orphan_refuses n (Option.isSome_iff_ne_none.mpr hbackend) hlocal assignment
        { fetchSnapshot := .ok (∅, 0) }).1
      exact absurd (refused.symm.trans (h _ granted).1) nofun
    · rintro (⟨_, hmem, -⟩ | ⟨-, hbackend⟩)
      · exact absurd hmem nofun
      · exact free_adds n hbackend hlocal

end Reopened

/-! ## The calls before a crash -/

namespace Handlers

variable {assignment : ReplicaAssignment} {calls : List StoreCall}

theorem Ends.take (h : Ends assignment calls) (count : Nat) : Ends assignment (calls.take count) := by
  cases count with
  | zero => exact .failed
  | succ count =>
    cases h with
    | failed => exact .failed
    | takenBack => simpa using .takenBack
    | persisted replica heq => simpa using .persisted replica heq

theorem Adds.take (h : Adds assignment calls) (count : Nat) : Adds assignment (calls.take count) := by
  cases count with
  | zero => exact .refused
  | succ count =>
    cases h with
    | refused => exact .refused
    | created filling last fills ends =>
      rw [List.take_succ_cons, List.take_append]
      exact .created _ _ (fun call hmem => fills call (List.mem_of_mem_take hmem)) (ends.take _)

/-- What the calls leave: nothing new, a backend replica without an assignment, nothing of the
backend, or the assignment. -/
theorem Adds.stores (h : Adds assignment calls) (stores : SlotStores) :
    calls = [] ∨
      (stores.applyAll calls).localState = stores.localState ∧
        (stores.applyAll calls).backend.isSome = true ∧ .createReplica ∈ calls ∧
        .deleteReplica ∉ calls ∧ (∀ replica, .upsertReplica replica ∉ calls) ∨
      (stores.applyAll calls).localState = stores.localState ∧
        (stores.applyAll calls).backend = none ∧ .deleteReplica ∈ calls ∧
        (∀ replica, .upsertReplica replica ∉ calls) ∨
      ∃ replica, (stores.applyAll calls).localState = some replica ∧
        replica.assignment = assignment ∧ .upsertReplica replica ∈ calls := by
  cases h with
  | refused => exact .inl rfl
  | created filling last fills ends =>
    right
    have ⟨hbackend, hlocal⟩ := (stores.apply .createReplica).applyAll_fills fills
    have undeleted : StoreCall.deleteReplica ∉ filling := fun hmem => absurd (fills _ hmem) nofun
    have unpersisted (replica : PersistedReplica) : StoreCall.upsertReplica replica ∉ filling :=
      fun hmem => absurd (fills _ hmem) nofun
    rw [SlotStores.applyAll_cons, SlotStores.applyAll_append]
    cases ends with
    | failed => exact .inl ⟨hlocal, hbackend, by simp, by simp [undeleted], by simp [unpersisted]⟩
    | takenBack => exact .inr (.inl ⟨hlocal, rfl, by simp, by simp [unpersisted]⟩)
    | persisted replica heq => exact .inr (.inr ⟨replica, rfl, heq, by simp⟩)

end Handlers

def NodeSlot.callsBefore (n : NodeSlot) (answers : CreationAnswers) (assignment : ReplicaAssignment)
    (crash : Nat) : List StoreCall :=
  (Handlers.addReplicaAsTail n answers assignment).calls.take crash

/-- The command succeeds when it is given again after the crash exactly if the assignment is stored
by then, or if nothing of it is and the backend has no replica either: the crash came before it was
created or after it was taken back. -/
theorem add_again_after_crash_iff (n : NodeSlot) (answers : CreationAnswers)
    (assignment : ReplicaAssignment) (crash : Nat) :
    n.AddsAgain (n.stores.applyAll (n.callsBefore answers assignment crash)) assignment ↔
      (∃ replica, .upsertReplica replica ∈ n.callsBefore answers assignment crash) ∨
        (∃ stored ∈ n.localState, stored.assignment = assignment) ∨
        n.localState = none ∧
          (.deleteReplica ∈ n.callsBefore answers assignment crash ∨
            .createReplica ∉ n.callsBefore answers assignment crash ∧ n.backend = none) := by
  have adds : Handlers.Adds assignment (n.callsBefore answers assignment crash) :=
    Handlers.addReplicaAsTail_adds.take crash
  generalize n.callsBefore answers assignment crash = done at adds
  rw [addsAgain_iff]
  have same : n.stores.localState = n.localState := rfl
  rcases adds.stores n.stores with rfl | ⟨hlocal, hbackend, hcreated, hkept, hunstored⟩ |
    ⟨hlocal, hbackend, hdeleted, hunstored⟩ | ⟨replica, hlocal, heq, hstored⟩
  · simp [NodeSlot.stores]
  · have held : (n.stores.applyAll done).backend ≠ none := Option.isSome_iff_ne_none.mp hbackend
    simp [hlocal, same, held, hcreated, hkept, hunstored]
  · simp [hlocal, same, hbackend, hdeleted, hunstored]
  · simp only [hlocal, reduceCtorEq, false_and, or_false]
    exact ⟨fun _ => .inl ⟨replica, hstored⟩, fun _ => ⟨replica, rfl, heq⟩⟩

/-- The first replica of a chain on a node that has nothing of the slot, with every call granted:
the node crashes right after it has created the backend replica.  From then on it refuses the
command, whatever it is told, and nothing ever changes. -/
theorem crash_after_create_refuses_forever :
    ∃ (n : NodeSlot) (answers : CreationAnswers) (assignment : ReplicaAssignment) (crash : Nat),
      n.runtime.present = false ∧ n.stores = {} ∧ answers.Succeed ∧
      (Handlers.addReplicaAsTail n answers assignment).outcome = none ∧
      ∀ later : CreationAnswers,
        let left := n.stores.applyAll (n.callsBefore answers assignment crash)
        let again := Handlers.addReplicaAsTail (n.reopened left) later assignment
        again.outcome ≠ none ∧ again.node.stores = left := by
  refine ⟨{ config := plainConfig "a" }, { fetchSnapshot := .ok (∅, 0) },
    { chainVersion := 1, role := .single }, 1, rfl, rfl, ⟨rfl, rfl, rfl, rfl, rfl⟩, rfl, ?_⟩
  intro later
  have ⟨refused, kept⟩ := @orphan_refuses { config := plainConfig "a" } { backend := some {} }
    rfl rfl { chainVersion := 1, role := .single } later
  refine ⟨?_, kept⟩
  intro h
  exact absurd (refused.symm.trans h) nofun

end Craq.Storage
