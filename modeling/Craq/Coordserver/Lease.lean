import Craq.Coordserver.Idempotence
import Craq.Lib.Run

/-! # Coordinators that share a store

Any number of coordinators take and renew the lease of one store, load its snapshot, work on what
they have loaded and save.  Their calls interleave freely, clocks may disagree, and the calls of one
coordinator run concurrently as well: reports of storage nodes are handled while the lease is being
renewed.
-/

namespace Craq.Coordserver

open Lib
open Craq.Runtime (Command)
open Storage (NodeRecoveryReport NodeStatus)

/-! ## The in-memory store -/

structure LeaderLease where
  holderID : String
  holderEndpoint : String
  epoch : Nat
  expiresAtUnixNano : Int
deriving DecidableEq, Repr

def zeroLeaderLease : LeaderLease := ⟨"", "", 0, 0⟩

/-- `none` where the store's flags say that nothing has been stored yet. -/
structure InMemoryHAStore where
  lease : Option LeaderLease
  snapshot : Option HASnapshot

namespace InMemoryHAStore

variable (store : InMemoryHAStore)

def current : HASnapshot := store.snapshot.getD zeroHASnapshot

def acquireOrRenew (holderID holderEndpoint : String) (now ttl : Int) :
    InMemoryHAStore × LeaderLease × Bool :=
  match store.lease with
  | none =>
    let lease := ⟨holderID, holderEndpoint, 1, now + ttl⟩
    ({ store with lease := some lease }, lease, true)
  | some held =>
    let currentExpired := held.expiresAtUnixNano ≤ now
    if held.holderID = holderID ∧ ¬currentExpired then
      let lease := { held with holderEndpoint, expiresAtUnixNano := now + ttl }
      ({ store with lease := some lease }, lease, true)
    else if currentExpired then
      let lease := ⟨holderID, holderEndpoint, held.epoch + 1, now + ttl⟩
      ({ store with lease := some lease }, lease, true)
    else (store, held, false)

def saveSnapshot (lease : LeaderLease) (now : Int) (expectedSnapshotVersion : Nat)
    (snapshot : HASnapshot) : Except Error InMemoryHAStore :=
  match store.lease with
  | none => .error (.bare .notLeader)
  | some held =>
    if held.holderID ≠ lease.holderID ∨ held.epoch ≠ lease.epoch ∨ held.expiresAtUnixNano ≤ now then
      .error (.bare .notLeader)
    else if store.current.snapshotVersion ≠ expectedSnapshotVersion then
      .error (.bare .snapshotConflict)
    else .ok { store with
      snapshot := some
        { cloneHASnapshot snapshot with snapshotVersion := expectedSnapshotVersion + 1 } }

end InMemoryHAStore

/-! ## The coordinators -/

/-- What a coordinator remembers of the lease: the last answer of the store. -/
structure Controller where
  lease : LeaderLease
  isLeader : Bool

structure World where
  store : InMemoryHAStore
  /-- The snapshots stored before, newest first. -/
  older : List HASnapshot
  /-- Answers about the lease that have not been taken over yet. -/
  answers : Std.ExtTreeMap String Controller
  controllers : Std.ExtTreeMap String Controller
  /-- Every snapshot a coordinator has loaded. -/
  loads : List (String × HASnapshot)

def World.empty : World := ⟨⟨none, none⟩, [], ∅, ∅, []⟩

def World.controller (w : World) (id : String) : Controller :=
  w.controllers[id]?.getD ⟨zeroLeaderLease, false⟩

inductive Action where
  | acquire (id endpoint : String) (now ttl : Int)
  | setLease (id : String)
  | setNotLeader (id : String)
  | load (id : String)
  /-- The operation was built from the load at `observed` and works on the load at `base`. -/
  | save (id : String) (op : Operation) (epoch observed base : Nat) (now : Int)

/-- What a coordinator saves it saves under the lease it remembers at that moment.  Calls that fail
and operations that save nothing leave the world as it is. -/
def World.save (cfg : ServerConfig) (w : World) (id : String) (op : Operation)
    (epoch : Nat) (observed base : HASnapshot) (now : Int) : Except Error World := do
  let saved ← op.run cfg epoch (cloneHASnapshot observed) (cloneHASnapshot base)
  match saved with
  | none => .ok w
  | some next =>
    let store ← w.store.saveSnapshot (w.controller id).lease now base.snapshotVersion next
    .ok { w with store, older := w.store.current :: w.older }

def World.step (cfg : ServerConfig) (w : World) : Action → Option World
  | .acquire id endpoint now ttl =>
    let acquired := w.store.acquireOrRenew id endpoint now ttl
    some { w with
      store := acquired.1
      answers := w.answers.insert id ⟨acquired.2.1, acquired.2.2⟩ }
  | .setLease id => do
    let answer ← w.answers[id]?
    some { w with controllers := w.controllers.insert id answer }
  | .setNotLeader id =>
    some { w with controllers := w.controllers.insert id { w.controller id with isLeader := false } }
  | .load id => some { w with loads := w.loads ++ [(id, w.store.current)] }
  | .save id op epoch observed base now => do
    let (observer, observed) ← w.loads[observed]?
    let (loader, base) ← w.loads[base]?
    if observer ≠ id ∨ loader ≠ id then none
    else (w.save cfg id op epoch observed base now).toOption

/-! ## Read, modify, write -/

/-- What is done between a load and the save that names its version. -/
inductive Cycle where
  | command (cmd : Command) (mutation : Mutation)
  | heartbeat (status : NodeStatus) (observedAtUnixNano : Int)
  | recoveryReport (report : NodeRecoveryReport) (knownClient : Bool)
  | acknowledge (entry : OutboxEntry)
  | rewriteEpoch

def Cycle.run (cfg : ServerConfig) (epoch : Nat) (snapshot : HASnapshot) :
    Cycle → Except Error (Option HASnapshot)
  | .command cmd mutation => (applyHARuntimeCommand cfg epoch snapshot cmd mutation).map some
  | .heartbeat status observedAtUnixNano =>
    (applyHAHeartbeat cfg epoch snapshot status observedAtUnixNano).map some
  | .recoveryReport report knownClient => applyHARecoveryReport epoch snapshot report knownClient
  | .acknowledge entry => (ackHAOutboxEntry epoch snapshot entry).map some
  | .rewriteEpoch => .ok (if epoch = 0 then none else rewriteSnapshotEpoch snapshot epoch)

/-- The stored snapshots, newest first: each is what one cycle makes of the one before it. -/
inductive Serial (cfg : ServerConfig) : HASnapshot → List HASnapshot → Prop where
  | empty : Serial cfg zeroHASnapshot []
  | cycle {current next : HASnapshot} {older : List HASnapshot} (serial : Serial cfg current older)
      (cycle : Cycle) (epoch : Nat)
      (run : cycle.run cfg epoch (cloneHASnapshot current) = .ok (some next)) :
      Serial cfg (savedSnapshot current next) (current :: older)

section Cycles

variable {cfg : ServerConfig} {epoch : Nat} {observed base next : HASnapshot}

/-- Whatever an operation was built from, what it does to the snapshot it works on is one cycle. -/
theorem Operation.run_cycle {op : Operation} (h : op.run cfg epoch observed base = .ok (some next)) :
    ∃ cycle : Cycle, cycle.run cfg epoch base = .ok (some next) := by
  have hCommand : ∀ {cmd mutation}, applyHARuntimeCommand cfg epoch base cmd mutation = .ok next →
      ∃ cycle : Cycle, cycle.run cfg epoch base = .ok (some next) :=
    fun {cmd mutation} hRun => ⟨.command cmd mutation, map_eq_ok.mpr ⟨next, hRun, rfl⟩⟩
  cases op with
  | bootstrap cmd => exact hCommand (map_some_eq_ok h)
  | membership cmd expectedEvent =>
    obtain ⟨-, -, -, -, hRun⟩ := applyHAMembershipMutation_ok (map_some_eq_ok h)
    exact hCommand hRun
  | replicaReady nodeID slot commandID attempt | replicaRemoved nodeID slot commandID attempt =>
    obtain ⟨reduction, -, h⟩ := bind_eq_ok.mp h
    split at h
    · cases h
    · exact hCommand (map_some_eq_ok h)
  | registerNode reg policy attempt =>
    simp only [run, applyHARegisterNode] at h
    split at h
    · cases h
    · obtain ⟨-, -, -, -, hRun⟩ := applyHAMembershipMutation_ok (map_some_eq_ok h)
      exact hCommand hRun
  | reconcile policy => exact hCommand (map_some_eq_ok h)
  | livenessTransition nodeID state evaluatedAtUnixNano deadActionFired =>
    exact hCommand (map_some_eq_ok h)
  | heartbeat status observedAtUnixNano => exact ⟨.heartbeat status observedAtUnixNano, h⟩
  | recoveryReport report knownClient => exact ⟨.recoveryReport report knownClient, h⟩
  | acknowledge entry => exact ⟨.acknowledge entry, h⟩
  | stepHA => exact ⟨.rewriteEpoch, h⟩

theorem HistoryUnder.serial {allowed : HASnapshot → HASnapshot → Operation → Prop}
    {current : HASnapshot} {older : List HASnapshot} (h : HistoryUnder allowed cfg current older) :
    Serial cfg current older := by
  induction h with
  | empty => exact .empty
  | save history op epoch loaded _ run accepted ih =>
    obtain rfl := history.accepted_eq loaded.2 accepted
    obtain ⟨cycle, hRun⟩ := Operation.run_cycle run
    exact ih.cycle cycle epoch hRun

end Cycles

/-! ## The lease -/

/-- The epoch does not go back, and no other holder gets the same one. -/
def LeaseAdvances (store later : InMemoryHAStore) : Prop :=
  ∀ lease, store.lease = some lease → ∃ next, later.lease = some next ∧ lease.epoch ≤ next.epoch ∧
    (next.holderID ≠ lease.holderID → lease.epoch < next.epoch)

theorem LeaseAdvances.refl (store : InMemoryHAStore) : LeaseAdvances store store :=
  fun lease hLease => ⟨lease, hLease, le_rfl, fun hNe => absurd rfl hNe⟩

theorem LeaseAdvances.trans {store middle later : InMemoryHAStore}
    (h : LeaseAdvances store middle) (h' : LeaseAdvances middle later) :
    LeaseAdvances store later := by
  intro lease hLease
  obtain ⟨next, hNext, hLe, hLt⟩ := h lease hLease
  obtain ⟨last, hLast, hLe', hLt'⟩ := h' next hNext
  refine ⟨last, hLast, hLe.trans hLe', fun hNe => ?_⟩
  by_cases hSame : next.holderID = lease.holderID
  · exact hLe.trans_lt (hLt' (hSame ▸ hNe))
  · exact (hLt hSame).trans_le hLe'

section Store

variable {store : InMemoryHAStore} {holderID holderEndpoint : String} {now ttl : Int}

theorem acquireOrRenew_lease :
    LeaseAdvances store (store.acquireOrRenew holderID holderEndpoint now ttl).1 := by
  intro lease hLease
  simp only [InMemoryHAStore.acquireOrRenew, hLease]
  split
  · exact ⟨_, rfl, le_rfl, fun hNe => absurd rfl hNe⟩
  split
  · exact ⟨_, rfl, Nat.le_succ _, fun _ => Nat.lt_succ_self _⟩
  · exact ⟨lease, hLease, le_rfl, fun hNe => absurd rfl hNe⟩

theorem acquireOrRenew_snapshot :
    (store.acquireOrRenew holderID holderEndpoint now ttl).1.snapshot = store.snapshot := by
  simp only [InMemoryHAStore.acquireOrRenew]
  split
  · rfl
  split
  · rfl
  split
  · rfl
  · rfl

theorem acquireOrRenew_holder
    (h : (store.acquireOrRenew holderID holderEndpoint now ttl).2.2 = true) :
    (store.acquireOrRenew holderID holderEndpoint now ttl).2.1.holderID = holderID := by
  simp only [InMemoryHAStore.acquireOrRenew] at h ⊢
  split
  · rfl
  · rename_i held hHeld
    simp only [hHeld] at h
    split
    · rename_i hSame
      exact hSame.1
    · rename_i hOther
      rw [if_neg hOther] at h
      split
      · rfl
      · rename_i hLive
        rw [if_neg hLive] at h
        cases h

theorem saveSnapshot_ok {lease : LeaderLease} {expected : Nat} {snapshot : HASnapshot}
    {saved : InMemoryHAStore} (h : store.saveSnapshot lease now expected snapshot = .ok saved) :
    (∃ held, store.lease = some held ∧ held.holderID = lease.holderID ∧ held.epoch = lease.epoch) ∧
      store.current.snapshotVersion = expected ∧ saved.lease = store.lease ∧
      saved.snapshot = some
        { cloneHASnapshot snapshot with snapshotVersion := expected + 1 } := by
  rw [InMemoryHAStore.saveSnapshot] at h
  split at h
  · cases h
  · rename_i held hHeld
    rw [ite_error_eq_ok, ite_error_eq_ok] at h
    obtain ⟨hLease, hVersion, h⟩ := h
    simp only [not_or, not_not] at hLease hVersion
    cases h
    exact ⟨⟨held, hHeld, hLease.1, hLease.2.1⟩, hVersion, rfl, rfl⟩

end Store

/-! ## The invariant of a run -/

/-- A controller that thinks it leads remembers a lease of its own. -/
def OwnLeases (controllers : Std.ExtTreeMap String Controller) : Prop :=
  ∀ (id : String) (controller : Controller), controllers[id]? = some controller →
    controller.isLeader = true → controller.lease.holderID = id

theorem OwnLeases.insert {controllers : Std.ExtTreeMap String Controller} (h : OwnLeases controllers)
    {id : String} {controller : Controller}
    (hNew : controller.isLeader = true → controller.lease.holderID = id) :
    OwnLeases (controllers.insert id controller) := by
  intro other found hFound hLeader
  rw [getElem?_insert_ite] at hFound
  split at hFound
  · rename_i hSame
    cases hFound
    exact (hNew hLeader).trans hSame
  · exact h other found hFound hLeader

structure Consistent (cfg : ServerConfig) (w : World) : Prop where
  history : History cfg w.store.current w.older
  loads : ∀ load ∈ w.loads, load.2 ∈ w.store.current :: w.older
  answers : OwnLeases w.answers
  controllers : OwnLeases w.controllers

theorem empty_consistent (cfg : ServerConfig) : Consistent cfg .empty := by
  have hNone : OwnLeases ∅ := by
    intro id controller hFound
    simp at hFound
  exact ⟨.empty, by simp [World.empty], hNone, hNone⟩

section Steps

variable {cfg : ServerConfig} {w next : World}

/-- A save either stores nothing or stores what the operation makes of the snapshot that was
stored, under the lease that was stored. -/
theorem World.save_ok {id : String} {op : Operation} {epoch : Nat} {observed base : HASnapshot}
    {now : Int} (h : w.save cfg id op epoch observed base now = .ok next) :
    next = w ∨ ∃ saved store,
      op.run cfg epoch (cloneHASnapshot observed) (cloneHASnapshot base) = .ok (some saved) ∧
      next = { w with store, older := w.store.current :: w.older } ∧
      (∃ held, w.store.lease = some held ∧ held.holderID = (w.controller id).lease.holderID ∧
        held.epoch = (w.controller id).lease.epoch) ∧
      base.snapshotVersion = w.store.current.snapshotVersion ∧ store.lease = w.store.lease ∧
      store.snapshot = some (savedSnapshot base saved) := by
  obtain ⟨result, hRun, h⟩ := bind_eq_ok.mp h
  cases result with
  | none =>
    cases h
    exact .inl rfl
  | some saved =>
    obtain ⟨store, hStore, h⟩ := bind_eq_ok.mp h
    cases h
    obtain ⟨hHeld, hVersion, hLease, hSnapshot⟩ := saveSnapshot_ok hStore
    exact .inr ⟨saved, store, hRun, rfl, hHeld, hVersion.symm, hLease, hSnapshot⟩

theorem World.step_save {id : String} {op : Operation} {epoch observed base : Nat} {now : Int}
    (h : w.step cfg (.save id op epoch observed base now) = some next) :
    ∃ observed base, (id, observed) ∈ w.loads ∧ (id, base) ∈ w.loads ∧
      w.save cfg id op epoch observed base now = .ok next := by
  obtain ⟨⟨observer, observed⟩, hObserved, h⟩ := Option.bind_eq_some_iff.mp h
  obtain ⟨⟨loader, base⟩, hBase, h⟩ := Option.bind_eq_some_iff.mp h
  dsimp only at h
  split at h
  · cases h
  · rename_i hOwn
    simp only [not_or, not_not] at hOwn
    obtain ⟨rfl, rfl⟩ := hOwn
    refine ⟨observed, base, List.mem_of_getElem? hObserved, List.mem_of_getElem? hBase, ?_⟩
    cases hSave : w.save cfg loader op epoch observed base now with
    | error e =>
      rw [hSave] at h
      cases h
    | ok saved =>
      rw [hSave] at h
      cases h
      rfl

theorem Consistent.step (h : Consistent cfg w) {action : Action}
    (hStep : w.step cfg action = some next) : Consistent cfg next := by
  cases action with
  | acquire id endpoint now ttl =>
    obtain rfl := Option.some.inj hStep
    have hSame : (w.store.acquireOrRenew id endpoint now ttl).1.current = w.store.current := by
      rw [InMemoryHAStore.current, acquireOrRenew_snapshot]
      rfl
    exact ⟨hSame.symm ▸ h.history, hSame.symm ▸ h.loads, h.answers.insert acquireOrRenew_holder,
      h.controllers⟩
  | setLease id =>
    obtain ⟨answer, hAnswer, hStep⟩ := Option.bind_eq_some_iff.mp hStep
    cases hStep
    exact ⟨h.history, h.loads, h.answers, h.controllers.insert (h.answers id answer hAnswer)⟩
  | setNotLeader id =>
    cases hStep
    exact ⟨h.history, h.loads, h.answers, h.controllers.insert (by simp)⟩
  | load id =>
    cases hStep
    refine ⟨h.history, ?_, h.answers, h.controllers⟩
    intro load hLoad
    rcases List.mem_append.mp hLoad with hOld | hNew
    · exact h.loads load hOld
    · rw [List.mem_singleton.mp hNew]
      exact List.mem_cons_self
  | save id op epoch observedAt baseAt now =>
    obtain ⟨observed, base, hObserved, hBase, hSave⟩ := World.step_save hStep
    rcases World.save_ok hSave with rfl | ⟨saved, store, hRun, rfl, -, hVersion, -, hSnapshot⟩
    · exact h
    have hCurrent : store.current = savedSnapshot base saved := by
      rw [InMemoryHAStore.current, hSnapshot]
      rfl
    refine ⟨?_, ?_, h.answers, h.controllers⟩
    · rw [hCurrent]
      exact h.history.save op epoch ⟨h.loads _ hObserved, h.loads _ hBase⟩ trivial hRun hVersion
    · intro load hLoad
      exact List.mem_cons_of_mem _ (h.loads load hLoad)

theorem World.step_lease {action : Action} (hStep : w.step cfg action = some next) :
    LeaseAdvances w.store next.store := by
  cases action with
  | acquire id endpoint now ttl =>
    obtain rfl := Option.some.inj hStep
    exact acquireOrRenew_lease
  | setLease id =>
    obtain ⟨answer, -, hStep⟩ := Option.bind_eq_some_iff.mp hStep
    cases hStep
    exact .refl _
  | setNotLeader id | load id =>
    cases hStep
    exact .refl _
  | save id op epoch observedAt baseAt now =>
    obtain ⟨observed, base, -, -, hSave⟩ := World.step_save hStep
    rcases World.save_ok hSave with rfl | ⟨saved, store, -, rfl, -, -, hLease, -⟩
    · exact .refl _
    · intro lease hHeld
      exact ⟨lease, hLease.trans hHeld, le_rfl, fun hNe => absurd rfl hNe⟩

end Steps

/-! ## Whole runs -/

/-- A coordinator saves only while the lease it remembers is its own. -/
def SavesAsLeader (w : World) : Action → Prop
  | .save id _ _ _ _ _ => (w.controller id).isLeader = true
  | _ => True

instance (w : World) (action : Action) : Decidable (SavesAsLeader w action) :=
  match action with
  | .save id _ _ _ _ _ => inferInstanceAs (Decidable ((w.controller id).isLeader = true))
  | .acquire _ _ _ _ | .setLease _ | .setNotLeader _ | .load _ =>
    inferInstanceAs (Decidable True)

/-- The step stores no snapshot, or it is a save of the holder of the stored lease, under the stored
epoch, and stores what one cycle makes of the snapshot that was stored. -/
def SafeStep (cfg : ServerConfig) (w : World) (action : Action) (next : World) : Prop :=
  next.store.snapshot = w.store.snapshot ∨
    ∃ id op epoch observed base now, action = .save id op epoch observed base now ∧
      (∃ held, w.store.lease = some held ∧ held.holderID = id ∧
        held.epoch = (w.controller id).lease.epoch) ∧
      ∃ (cycle : Cycle) (saved : HASnapshot),
        cycle.run cfg epoch (cloneHASnapshot w.store.current) = .ok (some saved) ∧
        next.store.snapshot = some (savedSnapshot w.store.current saved)

theorem Consistent.safeStep {cfg : ServerConfig} {w next : World} (h : Consistent cfg w)
    {action : Action} (hLeads : SavesAsLeader w action) (hStep : w.step cfg action = some next) :
    SafeStep cfg w action next := by
  cases action with
  | acquire id endpoint now ttl =>
    obtain rfl := Option.some.inj hStep
    exact .inl acquireOrRenew_snapshot
  | setLease id =>
    obtain ⟨answer, -, hStep⟩ := Option.bind_eq_some_iff.mp hStep
    cases hStep
    exact .inl rfl
  | setNotLeader id | load id =>
    cases hStep
    exact .inl rfl
  | save id op epoch observedAt baseAt now =>
    obtain ⟨observed, base, -, hBase, hSave⟩ := World.step_save hStep
    rcases World.save_ok hSave with rfl | ⟨saved, store, hRun, rfl, hHeld, hVersion, -, hSnapshot⟩
    · exact .inl rfl
    obtain ⟨held, hLease, hHolder, hEpoch⟩ := hHeld
    obtain rfl := h.history.accepted_eq (h.loads _ hBase) hVersion
    obtain ⟨cycle, hCycle⟩ := Operation.run_cycle hRun
    refine .inr ⟨id, op, epoch, observedAt, baseAt, now, rfl, ⟨held, hLease, ?_, hEpoch⟩, cycle,
      saved, hCycle, hSnapshot⟩
    -- The lease that was compared is the one the coordinator took for its own.
    cases hFound : w.controllers[id]? with
    | none =>
      rw [SavesAsLeader, World.controller, hFound] at hLeads
      cases hLeads
    | some controller =>
      rw [World.controller, hFound] at hHolder
      rw [SavesAsLeader, World.controller, hFound] at hLeads
      exact hHolder.trans (h.controllers id controller hFound hLeads)

/-- Where coordinators save only while they lead by their own account, no update gets lost: the
lease advances, every save is made by the holder under the stored epoch and works on the snapshot
that is stored, and the stored snapshots are a serial history. -/
theorem no_lost_updates {cfg : ServerConfig} {earlier w : World}
    (hEarlier : Reaches (World.step cfg) SavesAsLeader .empty earlier)
    (hRun : Reaches (World.step cfg) SavesAsLeader earlier w) :
    LeaseAdvances earlier.store w.store ∧
      (∀ action next, SavesAsLeader w action → w.step cfg action = some next →
        SafeStep cfg w action next) ∧
      Serial cfg w.store.current w.older := by
  have hConsistent : Consistent cfg w :=
    (hEarlier.trans hRun).invariant (empty_consistent cfg) fun _ _ _ hState _ hStep =>
      hState.step hStep
  refine ⟨?_, ?_, hConsistent.history.serial⟩
  · apply hRun.invariant
    · exact .refl earlier.store
    · exact fun _ _ _ hState _ hStep => hState.trans (World.step_lease hStep)
  · exact fun action next hLeads hStep => hConsistent.safeStep hLeads hStep

/-! ### A lease that changes hands under a report

The coordinator `b` bootstraps the node `a` and handles a heartbeat of it.  After it has loaded the
snapshot, its lease runs out, `c` takes the next one, and `b` is told so when it renews. -/

def leadAndBootstrap : List Action :=
  [.acquire "b" "" 0 10, .setLease "b", .load "b", .save "b" (.bootstrap bootstrapA) 1 0 0 1]

def loseLease : List Action :=
  [.load "b", .acquire "c" "" 20 10, .acquire "b" "" 21 10, .setLease "b"]

def saveHeartbeat : Action := .save "b" (.heartbeat { nodeID := "a" } 5) 1 1 1 22

theorem leadAndBootstrap_runs :
    (run (guarded (fun w action => decide (SavesAsLeader w action)) (World.step quietConfig))
      leadAndBootstrap .empty).isSome = true := by
  decide +kernel

/-- While `b` leads, its bootstrap is the one snapshot stored. -/
theorem leader_saves :
    ∃ w : World, w.older.length = 1 ∧ LeaseAdvances World.empty.store w.store ∧
      (∀ action next, SavesAsLeader w action → w.step quietConfig action = some next →
        SafeStep quietConfig w action next) ∧
      Serial quietConfig w.store.current w.older := by
  have hRun : Reaches (World.step quietConfig) SavesAsLeader .empty _ :=
    .of_checked leadAndBootstrap_runs
  exact ⟨_, by decide +kernel, no_lost_updates .refl hRun⟩

theorem lostLease_runs :
    (run (World.step quietConfig) (leadAndBootstrap ++ loseLease) .empty).isSome = true := by
  decide +kernel

theorem saveHeartbeat_runs :
    (World.step quietConfig ((run (World.step quietConfig) (leadAndBootstrap ++ loseLease)
      .empty).get lostLease_runs) saveHeartbeat).isSome = true := by
  decide +kernel

/-- The heartbeat that `b` still handles is saved under the lease of `c`. -/
theorem saved_under_foreign_lease :
    ¬∀ (cfg : ServerConfig) (w next : World) (action : Action),
      Reaches (World.step cfg) (fun _ _ => True) .empty w → w.step cfg action = some next →
      SafeStep cfg w action next := by
  intro hAll
  have hRun : Reaches (World.step quietConfig) (fun _ _ => True) .empty _ :=
    .of_isSome lostLease_runs
  rcases hAll _ _ _ saveHeartbeat hRun (Option.some_get saveHeartbeat_runs).symm with
    hSame | ⟨id, op, epoch, observed, base, now, hAction, ⟨held, hHeld, hHolder, -⟩, -⟩
  · have hVersions := congrArg (Option.map (·.snapshotVersion)) hSame
    revert hVersions
    decide +kernel
  · cases hAction
    have hStored := congrArg (Option.map (·.holderID)) hHeld
    rw [Option.map_some, hHolder] at hStored
    revert hStored
    decide +kernel

end Craq.Coordserver
