import Craq.Coordserver.Routing
import Craq.Storage.Record

/-! # A write through the router

The router sends a write to the head of the key's slot.  It asks for a new routing snapshot and tries
once more if the slot has no head that takes writes or if the node answers that the route is wrong.
The snapshot source and the transport are not part of the router: a call is a program that asks them
and goes on with any answer.
-/

namespace Craq.Client

open Coordserver (RoutingSnapshot SlotRoute)
open Storage (CommitResult Error OperationKind WriteConditions)

/-! ## Requests and programs -/

structure WriteRequest where
  slot : Nat
  kind : OperationKind
  key : String
  value : String
  expectedChainVersion : Nat
  conditions : WriteConditions
deriving DecidableEq, Repr

abbrev Reply := Except Error CommitResult

inductive Program where
  | done (result : Reply)
  | refresh (next : Except Error RoutingSnapshot → Program)
  | send (target : String) (req : WriteRequest) (next : Reply → Program)

/-! ## Routes -/

def isRoutingMismatch : Error → Bool
  | .routingMismatch _ => true
  | .wrapped _ cause => isRoutingMismatch cause
  | .readDependency _ _ _ cause => isRoutingMismatch cause
  | .sentinel _ _ => false
  | .backpressure .. => false
  | .fault _ => false

def noRoute (detail : String) : Error :=
  .wrapped detail (.fault "client route unavailable")

def snapshotNotLoaded : Error :=
  .fault "client routing snapshot not loaded"

def routeTarget (endpoint fallbackNodeID : String) : String :=
  if endpoint ≠ "" then endpoint else fallbackNodeID

section Routes

-- The checksum of a key; the source uses CRC-32.
variable (checksum : String → Nat)

def routeForKey (snapshot : RoutingSnapshot) (key : String) : Except Error SlotRoute :=
  if snapshot.slotCount ≤ 0 ∨ snapshot.slots.length ≠ snapshot.slotCount then
    .error (noRoute s!"invalid snapshot slot count {snapshot.slotCount}")
  else
    match snapshot.slots[checksum key % snapshot.slotCount.toNat]? with
    | some route => .ok route
    -- The index is below the number of slots.
    | none => .error (noRoute "")

/-! ## Writes -/

/-- `Refresh`, and the call again with the snapshot that is loaded then. -/
def refreshThen (next : RoutingSnapshot → Program) : Program :=
  .refresh fun
    | .error err => .done (.error (.wrapped "err in r.source.RoutingSnapshot" err))
    | .ok refreshed => next refreshed

/-- One attempt at a write.  `again` is what follows a refresh, where one is allowed. -/
def attempt (kind : OperationKind) (key value : String) (conditions : WriteConditions)
    (again : Option (RoutingSnapshot → Program)) (snapshot : RoutingSnapshot) : Program :=
  match routeForKey checksum snapshot key with
  | .error err => .done (.error err)
  | .ok route =>
    if !route.writable || decide (route.headNodeID = "") then
      match again with
      | some next => refreshThen next
      | none => .done (.error (noRoute s!"slot {route.slot} is not writable"))
    else
      .send (routeTarget route.headEndpoint route.headNodeID)
        { slot := route.slot
          kind
          key
          value
          expectedChainVersion := route.chainVersion
          conditions }
        fun
        | .ok result => .done (.ok result)
        | .error err =>
          match again with
          | some next => if isRoutingMismatch err then refreshThen next else .done (.error err)
          | none => .done (.error err)

def writeWithSnapshot (kind : OperationKind) (key value : String) (conditions : WriteConditions)
    (snapshot : RoutingSnapshot) (allowRefresh : Bool) : Program :=
  let last := attempt checksum kind key value conditions none
  attempt checksum kind key value conditions (if allowRefresh then some last else none) snapshot

def putWithSnapshot (key value : String) (conditions : WriteConditions)
    (snapshot : RoutingSnapshot) (allowRefresh : Bool) : Program :=
  writeWithSnapshot checksum .put key value conditions snapshot allowRefresh

def deleteWithSnapshot (key : String) (conditions : WriteConditions) (snapshot : RoutingSnapshot)
    (allowRefresh : Bool) : Program :=
  writeWithSnapshot checksum .delete key "" conditions snapshot allowRefresh

inductive Call where
  | put (key value : String)
  | putIf (key value : String) (conditions : WriteConditions)
  | delete (key : String)
  | deleteIf (key : String) (conditions : WriteConditions)
deriving DecidableEq, Repr

def Call.program (loaded : Option RoutingSnapshot) (call : Call) : Program :=
  match loaded with
  | none => .done (.error snapshotNotLoaded)
  | some snapshot =>
    match call with
    | .put key value => putWithSnapshot checksum key value {} snapshot true
    | .putIf key value conditions => putWithSnapshot checksum key value conditions snapshot true
    | .delete key => deleteWithSnapshot checksum key {} snapshot true
    | .deleteIf key conditions => deleteWithSnapshot checksum key conditions snapshot true

end Routes

/-! ## How often a program sends -/

def Mismatched : Reply → Prop
  | .ok _ => False
  | .error err => isRoutingMismatch err = true

/-- The program sends at most so many requests, and none once an answer is no routing mismatch. -/
inductive Cautious : Nat → Program → Prop where
  | done (count : Nat) (result : Reply) : Cautious count (.done result)
  | refresh {count : Nat} {next : Except Error RoutingSnapshot → Program}
      (later : ∀ reply, Cautious count (next reply)) : Cautious count (.refresh next)
  | send {count : Nat} {target : String} {req : WriteRequest} {next : Reply → Program}
      (mismatched : ∀ reply, Mismatched reply → Cautious count (next reply))
      (otherwise : ∀ reply, ¬Mismatched reply → Cautious 0 (next reply)) :
      Cautious (count + 1) (.send target req next)

theorem Cautious.mono {count more : Nat} {program : Program} (h : Cautious count program)
    (hle : count ≤ more) : Cautious more program := by
  induction h generalizing more with
  | done count result => exact .done more result
  | refresh later ih => exact .refresh fun reply => ih reply hle
  | send mismatched otherwise ih _ =>
    obtain ⟨rest, rfl⟩ := Nat.exists_eq_add_of_le hle
    rw [Nat.add_right_comm]
    exact .send (fun reply hreply => ih reply hreply (Nat.le_add_right _ rest)) otherwise

theorem Cautious.refreshThen {count : Nat} {next : RoutingSnapshot → Program}
    (later : ∀ snapshot, Cautious count (next snapshot)) : Cautious count (refreshThen next) := by
  apply Cautious.refresh
  intro reply
  cases reply with
  | error err => exact .done count _
  | ok refreshed => exact later refreshed

section Attempts

variable {checksum : String → Nat} {kind : OperationKind} {key value : String}
  {conditions : WriteConditions}

theorem attempt_none_cautious (snapshot : RoutingSnapshot) :
    Cautious 1 (attempt checksum kind key value conditions none snapshot) := by
  simp only [attempt]
  split
  · exact .done 1 _
  split
  · exact .done 1 _
  apply Cautious.send
  · intro reply _
    cases reply <;> exact .done 0 _
  · intro reply _
    cases reply <;> exact .done 0 _

theorem attempt_some_cautious {count : Nat} {next : RoutingSnapshot → Program}
    (later : ∀ snapshot, Cautious count (next snapshot)) (snapshot : RoutingSnapshot) :
    Cautious (count + 1) (attempt checksum kind key value conditions (some next) snapshot) := by
  simp only [attempt]
  split
  · exact .done _ _
  split
  · exact (Cautious.refreshThen later).mono (Nat.le_succ count)
  apply Cautious.send
  · intro reply hreply
    cases reply with
    | ok result => exact .done count _
    | error err =>
      have mismatch : isRoutingMismatch err = true := hreply
      simp only [mismatch, if_true]
      exact .refreshThen later
  · intro reply hreply
    cases reply with
    | ok result => exact .done 0 _
    | error err =>
      have other : ¬isRoutingMismatch err = true := hreply
      simp only [other]
      exact .done 0 _

theorem writeWithSnapshot_cautious (snapshot : RoutingSnapshot) :
    Cautious 2 (writeWithSnapshot checksum kind key value conditions snapshot true) :=
  attempt_some_cautious attempt_none_cautious snapshot

end Attempts

/-- A call of the router sends two requests at most, the second after a routing mismatch. -/
theorem Call.cautious (checksum : String → Nat) (loaded : Option RoutingSnapshot) (call : Call) :
    Cautious 2 (call.program checksum loaded) := by
  cases loaded with
  | none => exact .done 2 _
  | some snapshot => cases call <;> exact writeWithSnapshot_cautious snapshot

end Craq.Client
