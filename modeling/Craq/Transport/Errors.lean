import Craq.Storage.Record

/-! # Errors over gRPC

An error leaves a server as a gRPC status and becomes an error of the caller's again.  The type and
the fields of a typed error travel as a detail of the status.  Errors are Go values, so `nil` is one
of them, and what an error wraps is walked in the order of `errors.As`.
-/

namespace Craq.Transport

open Storage (ObjectMetadata)

/-! ## Statuses -/

inductive Code where
  | ok
  | canceled
  | unknown
  | invalidArgument
  | deadlineExceeded
  | notFound
  | alreadyExists
  | permissionDenied
  | resourceExhausted
  | failedPrecondition
  | aborted
  | outOfRange
  | unimplemented
  | internal
  | unavailable
  | dataLoss
  | unauthenticated
deriving DecidableEq, Repr

structure RoutingMismatchError where
  slot : Int
  expectedChainVersion : Nat
  currentChainVersion : Nat
  currentRole : String
  currentState : String
  reason : String
deriving DecidableEq

structure AmbiguousWriteError where
  slot : Int
  kind : String
  expectedChainVersion : Nat
deriving DecidableEq

structure ConditionFailedError where
  slot : Int
  kind : String
  expectedChainVersion : Nat
  currentExists : Bool
  currentMetadata : Option ObjectMetadata
deriving DecidableEq

structure BackpressureError where
  slot : Int
  current : Int
  limit : Int
  resource : String
deriving DecidableEq

structure ReadDependencyError where
  slot : Int
  expectedChainVersion : Nat
  tailNodeID : String
deriving DecidableEq

structure NotLeaderError where
  leaderEndpoint : String
deriving DecidableEq

-- The messages have the fields of the errors, with the cause as a text.
inductive Detail where
  | routingMismatch (detail : RoutingMismatchError)
  | ambiguousWrite (detail : AmbiguousWriteError) (cause : String)
  | conditionFailed (detail : ConditionFailedError)
  | backpressure (detail : BackpressureError) (cause : String)
  | readDependency (detail : ReadDependencyError) (cause : String)
  | domainError (kind : String)
  | notLeader (detail : NotLeaderError)
  | other
deriving DecidableEq

structure Status where
  code : Code
  message : String
  details : List Detail := []
deriving DecidableEq

/-! ## Errors -/

inductive Sentinel where
  | unknownReplica
  | writeRejected
  | sequenceMismatch
  | peerMismatch
  | storageStateMismatch
  | protocolConflict
  | conditionFailed
  | invalidTransition
  | writeTimeout
  | routingMismatch
  | writeBackpressure
  | replicaBackpressure
  | catchupBackpressure
  | unexpectedProgress
  | coordserverStateMismatch
  | notLeader
  | transportUnauthenticated
  | transportPermissionDenied
  | canceled
  | deadlineExceeded
deriving DecidableEq, Repr

-- `text` is any other error without a cause.
inductive GoError where
  | nil
  | sentinel (sentinel : Sentinel)
  | text (text : String)
  | status (status : Status)
  | wrap (text : String) (causes : List GoError)
  | transportAuth (message : String) (cause : GoError)
  | routingMismatch (error : RoutingMismatchError)
  | ambiguousWrite (error : AmbiguousWriteError) (cause : GoError)
  | conditionFailed (error : ConditionFailedError)
  | backpressure (error : BackpressureError) (cause : GoError)
  | readDependency (error : ReadDependencyError) (cause : GoError)
  | notLeader (error : NotLeaderError)

namespace GoError

mutual

/-- The error and everything it wraps, in the order in which `errors.As` and `errors.Is` look at
them. -/
def chain : GoError → List GoError
  | .nil => []
  | .sentinel named => [.sentinel named]
  | .text message => [.text message]
  | .status held => [.status held]
  | .wrap message causes => .wrap message causes :: chains causes
  | .transportAuth message cause => .transportAuth message cause :: cause.chain
  | .routingMismatch error => [.routingMismatch error, .sentinel .routingMismatch]
  | .ambiguousWrite error cause => .ambiguousWrite error cause :: cause.chain
  | .conditionFailed error => [.conditionFailed error, .sentinel .conditionFailed]
  | .backpressure error cause => .backpressure error cause :: cause.chain
  | .readDependency error cause => .readDependency error cause :: cause.chain
  | .notLeader error => [.notLeader error, .sentinel .notLeader]

def chains : List GoError → List GoError
  | [] => []
  | cause :: causes => cause.chain ++ chains causes

end

def isNil : GoError → Bool
  | .nil => true
  | _ => false

def status? : GoError → Option Status
  | .status held => some held
  | _ => none

def routingMismatch? : GoError → Option RoutingMismatchError
  | .routingMismatch error => some error
  | _ => none

def ambiguousWrite? : GoError → Option (AmbiguousWriteError × GoError)
  | .ambiguousWrite error cause => some (error, cause)
  | _ => none

def conditionFailed? : GoError → Option ConditionFailedError
  | .conditionFailed error => some error
  | _ => none

def backpressure? : GoError → Option (BackpressureError × GoError)
  | .backpressure error cause => some (error, cause)
  | _ => none

def readDependency? : GoError → Option (ReadDependencyError × GoError)
  | .readDependency error cause => some (error, cause)
  | _ => none

def notLeader? : GoError → Option NotLeaderError
  | .notLeader error => some error
  | _ => none

/-- `errors.As` with a target of one type. -/
def errorsAs {A : Type} (target : GoError → Option A) (err : GoError) : Option A :=
  err.chain.findSome? target

/-- `errors.Is` with one of the sentinels. -/
def errorsIs (err : GoError) (target : Sentinel) : Bool :=
  err.chain.any fun
    | .sentinel named => named = target
    | _ => false

end GoError

/-! ## Encoding -/

/-- A conversion to a signed integer of 32 bits. -/
def int32 (value : Int) : Int :=
  value.bmod (2 ^ 32)

def int64 (value : Int) : Int :=
  value.bmod (2 ^ 64)

def protoObjectMetadata (metadata : ObjectMetadata) : ObjectMetadata where
  version := metadata.version
  createdAt := int64 metadata.createdAt
  updatedAt := int64 metadata.updatedAt

def domainErrorDetail (err : GoError) : Option String :=
  if err.errorsIs .unknownReplica then some "unknown_replica"
  else if err.errorsIs .writeRejected then some "write_rejected"
  else if err.errorsIs .sequenceMismatch then some "sequence_mismatch"
  else if err.errorsIs .peerMismatch then some "peer_mismatch"
  else if err.errorsIs .storageStateMismatch then some "storage_state_mismatch"
  else if err.errorsIs .protocolConflict then some "protocol_conflict"
  else if err.errorsIs .conditionFailed then some "condition_failed"
  else if err.errorsIs .invalidTransition then some "invalid_transition"
  else if err.errorsIs .unexpectedProgress then some "unexpected_progress"
  else if err.errorsIs .coordserverStateMismatch then some "coordserver_state_mismatch"
  else none

def domainErrorCode (kind : String) : Code :=
  if kind = "unknown_replica" then .notFound else .failedPrecondition

def ambiguousCode (err : GoError) : Code :=
  if err.errorsIs .canceled then .canceled
  else if err.errorsIs .deadlineExceeded || err.errorsIs .writeTimeout then .deadlineExceeded
  else .unknown

section Text

-- `Error()` of the errors, whose texts nothing here depends on.
variable (text : GoError → String)

/-- The method called on a nil error panics. -/
def callError : GoError → Option String
  | .nil => none
  | err => some (text err)

/-- `status.FromError`: the first status the error carries. -/
def fromError : GoError → Option Status
  | .status status => some status
  | err => (err.errorsAs (·.status?)).map fun status => { status with message := text err }

def encodeError : GoError → Option GoError
  | .nil => some .nil
  | err =>
    if (fromError text err).isSome then some err
    else
    match err.errorsAs (·.routingMismatch?) with
    | some routing =>
      some (.status ⟨.failedPrecondition, text err,
        [.routingMismatch { routing with slot := int32 routing.slot }]⟩)
    | none =>
    match err.errorsAs (·.ambiguousWrite?) with
    | some (ambiguous, cause) =>
      (callError text cause).map fun cause =>
        .status ⟨ambiguousCode err, text err,
          [.ambiguousWrite { ambiguous with slot := int32 ambiguous.slot } cause]⟩
    | none =>
    match err.errorsAs (·.conditionFailed?) with
    | some conditionFailed =>
      some (.status ⟨.failedPrecondition, text err,
        [.conditionFailed
          { conditionFailed with
            slot := int32 conditionFailed.slot
            currentMetadata := conditionFailed.currentMetadata.map protoObjectMetadata }]⟩)
    | none =>
    match err.errorsAs (·.backpressure?) with
    | some (pressure, cause) =>
      (callError text cause).map fun cause =>
        .status ⟨.resourceExhausted, text err,
          [.backpressure
            { pressure with
              slot := int32 pressure.slot
              current := int32 pressure.current
              limit := int32 pressure.limit } cause]⟩
    | none =>
    match err.errorsAs (·.readDependency?) with
    | some (dependency, cause) =>
      (callError text cause).map fun cause =>
        .status ⟨.unavailable, text err,
          [.readDependency { dependency with slot := int32 dependency.slot } cause]⟩
    | none =>
    match err.errorsAs (·.notLeader?) with
    | some notLeader =>
      some (.status ⟨.failedPrecondition, text err, [.notLeader notLeader]⟩)
    | none =>
    match domainErrorDetail err with
    | some kind => some (.status ⟨domainErrorCode kind, text err, [.domainError kind]⟩)
    | none =>
    if err.errorsIs .deadlineExceeded then some (.status ⟨.deadlineExceeded, text err, []⟩)
    else if err.errorsIs .canceled then some (.status ⟨.canceled, text err, []⟩)
    else some (.status ⟨.unknown, text err, []⟩)

/-! ## Decoding -/

def backpressureCause (resource : String) : Sentinel :=
  if resource = "client_write" then .writeBackpressure
  else if resource = "replica_buffer" then .replicaBackpressure
  else if resource = "catchup" then .catchupBackpressure
  else .writeBackpressure

def decodeDomainError (kind : String) : GoError :=
  if kind = "unknown_replica" then .sentinel .unknownReplica
  else if kind = "write_rejected" then .sentinel .writeRejected
  else if kind = "sequence_mismatch" then .sentinel .sequenceMismatch
  else if kind = "peer_mismatch" then .sentinel .peerMismatch
  else if kind = "storage_state_mismatch" then .sentinel .storageStateMismatch
  else if kind = "protocol_conflict" then .sentinel .protocolConflict
  else if kind = "condition_failed" then .sentinel .conditionFailed
  else if kind = "invalid_transition" then .sentinel .invalidTransition
  else if kind = "unexpected_progress" then .sentinel .unexpectedProgress
  else if kind = "coordserver_state_mismatch" then .sentinel .coordserverStateMismatch
  else .status ⟨.unknown, kind, []⟩

def ambiguousCause (code : Code) : GoError :=
  if code = .canceled then
    .wrap "storage write wait timed out or was canceled: context canceled"
      [.sentinel .writeTimeout, .sentinel .canceled]
  else
    .wrap "storage write wait timed out or was canceled: context deadline exceeded"
      [.sentinel .writeTimeout, .sentinel .deadlineExceeded]

def decodeDetail (code : Code) : Detail → Option GoError
  | .routingMismatch detail => some (.routingMismatch detail)
  | .ambiguousWrite detail _ => some (.ambiguousWrite detail (ambiguousCause code))
  | .backpressure detail _ =>
    some (.backpressure detail (.sentinel (backpressureCause detail.resource)))
  | .readDependency detail cause =>
    some (.readDependency detail (.status ⟨.unavailable, cause, []⟩))
  | .conditionFailed detail => some (.conditionFailed detail)
  | .domainError kind => some (decodeDomainError kind)
  | .notLeader detail => some (.notLeader detail)
  | .other => none

def decodeStatus (err : GoError) (status : Status) : GoError :=
  match status.details.findSome? (decodeDetail status.code) with
  | some decoded => decoded
  | none =>
    match status.code with
    | .permissionDenied => .transportAuth status.message (.sentinel .transportPermissionDenied)
    | .unauthenticated => .transportAuth status.message (.sentinel .transportUnauthenticated)
    | .deadlineExceeded => .sentinel .deadlineExceeded
    | .canceled => .sentinel .canceled
    | _ => err

def decodeError : GoError → GoError
  | .nil => .nil
  | err =>
    match fromError text err with
    | none => err
    | some status => decodeStatus err status

end Text

end Craq.Transport
