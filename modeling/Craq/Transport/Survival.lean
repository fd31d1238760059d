import Craq.Transport.Errors

/-! # Which typed errors survive the wire

A typed error comes back as it was unless something it wraps gets in its way: a status that some
error further in already carries, or a typed error that `encodeError` looks for earlier.
-/

namespace Craq.Transport

open Storage (ObjectMetadata)

/-! ## Typed errors without their causes -/

inductive ErrorKind where
  | routingMismatch
  | ambiguousWrite
  | conditionFailed
  | backpressure
  | readDependency
  | notLeader
deriving DecidableEq, Repr

/-- The order in which `encodeError` looks for the kinds. -/
def ErrorKind.rank : ErrorKind → Nat
  | .routingMismatch => 0
  | .ambiguousWrite => 1
  | .conditionFailed => 2
  | .backpressure => 3
  | .readDependency => 4
  | .notLeader => 5

theorem ErrorKind.rank_injective : Function.Injective ErrorKind.rank := by
  intro first second heq
  cases first <;> cases second <;> first
    | rfl
    | cases heq

inductive TypedError where
  | routingMismatch (error : RoutingMismatchError)
  | ambiguousWrite (error : AmbiguousWriteError)
  | conditionFailed (error : ConditionFailedError)
  | backpressure (error : BackpressureError)
  | readDependency (error : ReadDependencyError)
  | notLeader (error : NotLeaderError)
deriving DecidableEq

namespace TypedError

def kind : TypedError → ErrorKind
  | .routingMismatch _ => .routingMismatch
  | .ambiguousWrite _ => .ambiguousWrite
  | .conditionFailed _ => .conditionFailed
  | .backpressure _ => .backpressure
  | .readDependency _ => .readDependency
  | .notLeader _ => .notLeader

def wire : TypedError → TypedError
  | .routingMismatch error => .routingMismatch { error with slot := int32 error.slot }
  | .ambiguousWrite error => .ambiguousWrite { error with slot := int32 error.slot }
  | .conditionFailed error =>
    .conditionFailed
      { error with
        slot := int32 error.slot
        currentMetadata := error.currentMetadata.map protoObjectMetadata }
  | .backpressure error =>
    .backpressure
      { error with
        slot := int32 error.slot
        current := int32 error.current
        limit := int32 error.limit }
  | .readDependency error => .readDependency { error with slot := int32 error.slot }
  | .notLeader error => .notLeader error

end TypedError

/-! ### Sizes -/

def Fits32 (value : Int) : Prop :=
  -2 ^ 31 ≤ value ∧ value < 2 ^ 31

def Fits64 (value : Int) : Prop :=
  -2 ^ 63 ≤ value ∧ value < 2 ^ 63

theorem int32_of_fits {value : Int} (h : Fits32 value) : int32 value = value := by
  obtain ⟨hlow, hhigh⟩ := h
  apply Int.bmod_eq_of_le <;> omega

theorem int64_of_fits {value : Int} (h : Fits64 value) : int64 value = value := by
  obtain ⟨hlow, hhigh⟩ := h
  apply Int.bmod_eq_of_le <;> omega

namespace TypedError

/-- Integers fit 32 bits and times fit nanoseconds of 64 bits. -/
def Fits : TypedError → Prop
  | .routingMismatch error => Fits32 error.slot
  | .ambiguousWrite error => Fits32 error.slot
  | .conditionFailed error =>
    Fits32 error.slot ∧
      ∀ metadata ∈ error.currentMetadata, Fits64 metadata.createdAt ∧ Fits64 metadata.updatedAt
  | .backpressure error => Fits32 error.slot ∧ Fits32 error.current ∧ Fits32 error.limit
  | .readDependency error => Fits32 error.slot
  | .notLeader _ => True

theorem wire_of_fits {typed : TypedError} (h : typed.Fits) : typed.wire = typed := by
  cases typed with
  | routingMismatch error | ambiguousWrite error => rw [wire, int32_of_fits h]
  | conditionFailed error =>
    obtain ⟨hslot, hmetadata⟩ := h
    have metadata : error.currentMetadata.map protoObjectMetadata = error.currentMetadata := by
      cases hheld : error.currentMetadata with
      | none => rfl
      | some held =>
        obtain ⟨hcreated, hupdated⟩ := hmetadata held hheld
        rw [Option.map_some, protoObjectMetadata, int64_of_fits hcreated, int64_of_fits hupdated]
    rw [wire, int32_of_fits hslot, metadata]
  | backpressure error =>
    obtain ⟨hslot, hcurrent, hlimit⟩ := h
    rw [wire, int32_of_fits hslot, int32_of_fits hcurrent, int32_of_fits hlimit]
  | readDependency error => rw [wire, int32_of_fits h]
  | notLeader error => rfl

theorem kind_wire (typed : TypedError) : typed.wire.kind = typed.kind := by
  cases typed <;> rfl

end TypedError

/-! ## Finding a typed error -/

namespace GoError

variable (err : GoError)

def as : ErrorKind → Option TypedError
  | .routingMismatch => (err.errorsAs (·.routingMismatch?)).map .routingMismatch
  | .ambiguousWrite => (err.errorsAs (·.ambiguousWrite?)).map fun found => .ambiguousWrite found.1
  | .conditionFailed => (err.errorsAs (·.conditionFailed?)).map .conditionFailed
  | .backpressure => (err.errorsAs (·.backpressure?)).map fun found => .backpressure found.1
  | .readDependency => (err.errorsAs (·.readDependency?)).map fun found => .readDependency found.1
  | .notLeader => (err.errorsAs (·.notLeader?)).map .notLeader

/-- The error of the kind that `errors.As` finds has a `Cause` field that is nil. -/
def causeIsNil : ErrorKind → Bool
  | .ambiguousWrite => (err.errorsAs (·.ambiguousWrite?)).any (·.2.isNil)
  | .backpressure => (err.errorsAs (·.backpressure?)).any (·.2.isNil)
  | .readDependency => (err.errorsAs (·.readDependency?)).any (·.2.isNil)
  | .routingMismatch => false
  | .conditionFailed => false
  | .notLeader => false

variable {err}

theorem kind_of_as {kind : ErrorKind} {typed : TypedError} (h : err.as kind = some typed) :
    typed.kind = kind := by
  cases kind <;>
  · obtain ⟨found, -, rfl⟩ := Option.map_eq_some_iff.mp h
    rfl

theorem exists_first {kind : ErrorKind} (h : (err.as kind).isSome) :
    ∃ found, err.as found.kind = some found ∧
      ∀ earlier : ErrorKind, earlier.rank < found.kind.rank → err.as earlier = none := by
  obtain ⟨first, hfirst, least⟩ := WellFounded.has_min (measure ErrorKind.rank).wf
    {kind | (err.as kind).isSome} ⟨kind, h⟩
  obtain ⟨found, hfound⟩ := Option.isSome_iff_exists.mp hfirst
  have hkind := kind_of_as hfound
  refine ⟨found, by rw [hkind, hfound], ?_⟩
  intro earlier hearlier
  rw [← Option.not_isSome_iff_eq_none]
  intro hsome
  rw [hkind] at hearlier
  exact least earlier hsome hearlier

end GoError

/-! ## What is decoded -/

def Detail.typed? : Detail → Option TypedError
  | .routingMismatch detail => some (.routingMismatch detail)
  | .ambiguousWrite detail _ => some (.ambiguousWrite detail)
  | .conditionFailed detail => some (.conditionFailed detail)
  | .backpressure detail _ => some (.backpressure detail)
  | .readDependency detail _ => some (.readDependency detail)
  | .notLeader detail => some (.notLeader detail)
  | .domainError _ => none
  | .other => none

/-- `decodeError` knows the detail. -/
def Detail.known : Detail → Bool
  | .other => false
  | _ => true

theorem decodeDomainError_as (domain : String) (kind : ErrorKind) :
    (decodeDomainError domain).as kind = none := by
  rw [decodeDomainError]
  repeat' split
  all_goals cases kind <;> rfl

theorem as_of_decodeDetail {code : Code} {detail : Detail} {decoded : GoError}
    (h : decodeDetail code detail = some decoded) (kind : ErrorKind) :
    decoded.as kind = detail.typed?.filter (·.kind = kind) := by
  cases detail with
  | domainError domain =>
    cases h
    exact decodeDomainError_as domain kind
  | other => cases h
  | ambiguousWrite detail cause =>
    cases h
    rw [ambiguousCause]
    split <;> cases kind <;> rfl
  | routingMismatch detail | conditionFailed detail | backpressure detail cause
  | readDependency detail cause | notLeader detail =>
    cases h
    cases kind <;> rfl

theorem decodeDetail_isSome (code : Code) (detail : Detail) :
    (decodeDetail code detail).isSome = detail.known := by
  cases detail <;> rfl

theorem decodeDetails_eq (code : Code) (details : List Detail) :
    details.findSome? (decodeDetail code) =
      (details.find? Detail.known).bind (decodeDetail code) := by
  induction details with
  | nil => rfl
  | cons detail details ih =>
    rw [List.findSome?_cons, List.find?_cons, ih]
    cases detail <;> rfl

/-- A code that `decodeError` turns into an error of its own. -/
def Code.replaced : Code → Bool
  | .permissionDenied => true
  | .unauthenticated => true
  | .deadlineExceeded => true
  | .canceled => true
  | _ => false

/-- What comes out of a status: its first known detail, or the error that carries it. -/
theorem decodeStatus_as (err : GoError) (status : Status) (kind : ErrorKind) :
    (decodeStatus err status).as kind =
      match status.details.find? Detail.known with
      | some detail => detail.typed?.filter (·.kind = kind)
      | none => if status.code.replaced then none else err.as kind := by
  rw [decodeStatus, decodeDetails_eq]
  cases hdetail : status.details.find? Detail.known with
  | some detail =>
    have known := List.find?_some hdetail
    rw [← decodeDetail_isSome status.code, Option.isSome_iff_exists] at known
    obtain ⟨decoded, hdecoded⟩ := known
    simp only [Option.bind_some, hdecoded, as_of_decodeDetail hdecoded]
  | none =>
    have lost : ∀ named : Sentinel, (GoError.sentinel named).as kind = none := by
      intro named
      cases kind <;> rfl
    have refused : ∀ (message : String) (named : Sentinel),
        (GoError.transportAuth message (.sentinel named)).as kind = none := by
      intro message named
      cases kind <;> rfl
    simp only [Option.bind_none]
    cases status.code <;> simp [Code.replaced, lost, refused]

theorem filter_kind_eq_some {found : Option TypedError} {typed : TypedError} :
    found.filter (·.kind = typed.kind) = some typed ↔ found = some typed := by
  rw [Option.filter_eq_some_iff]
  simp

/-! ## What is encoded -/

section Text

variable {text : GoError → String} {err : GoError}

theorem callError_eq (cause : GoError) :
    callError text cause = if cause.isNil then none else some (text cause) := by
  cases cause <;> rfl

theorem ne_nil_of_as {kind : ErrorKind} (h : (err.as kind).isSome) : err ≠ .nil := by
  rintro rfl
  cases kind <;> cases h

variable {found typed : TypedError}

theorem encodeError_first (hstatus : fromError text err = none)
    (hfound : err.as found.kind = some found)
    (hfirst : ∀ earlier : ErrorKind, earlier.rank < found.kind.rank → err.as earlier = none) :
    if err.causeIsNil found.kind then encodeError text err = none
    else ∃ code detail, encodeError text err = some (.status ⟨code, text err, [detail]⟩) ∧
      detail.typed? = some found.wire := by
  have hnil : err ≠ .nil := ne_nil_of_as (Option.isSome_of_eq_some hfound)
  have hnone : ¬(fromError text err).isSome := by simp [hstatus]
  -- The kinds before the one that is found, as the cascade asks for them.
  have routing (later : decide (0 < found.kind.rank) = true) :
      err.errorsAs (·.routingMismatch?) = none :=
    Option.map_eq_none_iff.mp (hfirst .routingMismatch (of_decide_eq_true later))
  have ambiguous (later : decide (1 < found.kind.rank) = true) :
      err.errorsAs (·.ambiguousWrite?) = none :=
    Option.map_eq_none_iff.mp (hfirst .ambiguousWrite (of_decide_eq_true later))
  have condition (later : decide (2 < found.kind.rank) = true) :
      err.errorsAs (·.conditionFailed?) = none :=
    Option.map_eq_none_iff.mp (hfirst .conditionFailed (of_decide_eq_true later))
  have pressure (later : decide (3 < found.kind.rank) = true) :
      err.errorsAs (·.backpressure?) = none :=
    Option.map_eq_none_iff.mp (hfirst .backpressure (of_decide_eq_true later))
  have dependency (later : decide (4 < found.kind.rank) = true) :
      err.errorsAs (·.readDependency?) = none :=
    Option.map_eq_none_iff.mp (hfirst .readDependency (of_decide_eq_true later))
  simp only [encodeError.eq_2 text err hnil, if_neg hnone]
  cases found with
  | routingMismatch error =>
    obtain ⟨found, hheld, heq⟩ := Option.map_eq_some_iff.mp hfound
    cases heq
    simp only [hheld]
    exact ⟨_, _, rfl, rfl⟩
  | ambiguousWrite error =>
    obtain ⟨⟨found, cause⟩, hheld, heq⟩ := Option.map_eq_some_iff.mp hfound
    cases heq
    simp only [routing rfl, hheld, callError_eq, TypedError.kind, GoError.causeIsNil,
      Option.any_some]
    cases cause.isNil with
    | true => rfl
    | false => exact ⟨_, _, rfl, rfl⟩
  | conditionFailed error =>
    obtain ⟨found, hheld, heq⟩ := Option.map_eq_some_iff.mp hfound
    cases heq
    simp only [routing rfl, ambiguous rfl, hheld]
    exact ⟨_, _, rfl, rfl⟩
  | backpressure error =>
    obtain ⟨⟨found, cause⟩, hheld, heq⟩ := Option.map_eq_some_iff.mp hfound
    cases heq
    simp only [routing rfl, ambiguous rfl, condition rfl, hheld, callError_eq, TypedError.kind,
      GoError.causeIsNil, Option.any_some]
    cases cause.isNil with
    | true => rfl
    | false => exact ⟨_, _, rfl, rfl⟩
  | readDependency error =>
    obtain ⟨⟨found, cause⟩, hheld, heq⟩ := Option.map_eq_some_iff.mp hfound
    cases heq
    simp only [routing rfl, ambiguous rfl, condition rfl, pressure rfl, hheld, callError_eq,
      TypedError.kind, GoError.causeIsNil, Option.any_some]
    cases cause.isNil with
    | true => rfl
    | false => exact ⟨_, _, rfl, rfl⟩
  | notLeader error =>
    obtain ⟨found, hheld, heq⟩ := Option.map_eq_some_iff.mp hfound
    cases heq
    simp only [routing rfl, ambiguous rfl, condition rfl, pressure rfl, dependency rfl, hheld]
    exact ⟨_, _, rfl, rfl⟩

/-- The decoded error is of the same type with the same fields. -/
def Survives (text : GoError → String) (err : GoError) (typed : TypedError) : Prop :=
  ∃ encoded, encodeError text err = some encoded ∧
    (decodeError text encoded).as typed.kind = some typed

/-- Nothing the error wraps takes its place.  Without a status in its chain, no kind that is looked
for earlier is in it and the cause is there to be asked for its text.  With one, the first status
says the same by a detail, or has no known detail and a code that is passed on. -/
def Unhidden (err : GoError) (typed : TypedError) : Prop :=
  match err.errorsAs (·.status?) with
  | none =>
    (∀ earlier : ErrorKind, earlier.rank < typed.kind.rank → err.as earlier = none) ∧
      err.causeIsNil typed.kind = false
  | some status =>
    match status.details.find? Detail.known with
    | some detail => detail.typed? = some typed
    | none => status.code.replaced = false

theorem fromError_eq {kind : ErrorKind} (h : (err.as kind).isSome) :
    fromError text err =
      (err.errorsAs (·.status?)).map fun status => { status with message := text err } := by
  cases err with
  | status held => cases kind <;> cases h
  | _ => rfl

theorem decodeError_of_fromError {status : Status} (hnil : err ≠ .nil)
    (h : fromError text err = some status) : decodeError text err = decodeStatus err status := by
  simp only [decodeError.eq_2 text err hnil, h]

theorem decodeError_detail {code : Code} {message : String} {detail : Detail}
    (h : detail.typed? = some typed) (kind : ErrorKind) :
    (decodeError text (.status ⟨code, message, [detail]⟩)).as kind =
      (some typed).filter (·.kind = kind) := by
  have known : (decodeDetail code detail).isSome := by
    rw [decodeDetail_isSome]
    cases detail <;> first | rfl | cases h
  obtain ⟨decoded, hdecoded⟩ := Option.isSome_iff_exists.mp known
  have first : [detail].findSome? (decodeDetail code) = some decoded := by
    simp [hdecoded]
  rw [decodeError_of_fromError (by simp) rfl, decodeStatus, first, ← h]
  exact as_of_decodeDetail hdecoded kind

/-- The kinds found before the typed error are the only ones that can take its place. -/
theorem eq_first_iff (htyped : err.as typed.kind = some typed)
    (hfound : err.as found.kind = some found)
    (hfirst : ∀ earlier : ErrorKind, earlier.rank < found.kind.rank → err.as earlier = none) :
    typed = found ↔
      ∀ earlier : ErrorKind, earlier.rank < typed.kind.rank → err.as earlier = none := by
  constructor
  · rintro rfl
    exact hfirst
  · intro hnone
    have hkind : typed.kind = found.kind := by
      apply ErrorKind.rank_injective
      rcases Nat.lt_trichotomy typed.kind.rank found.kind.rank with hlt | heq | hgt
      · rw [hfirst typed.kind hlt] at htyped
        cases htyped
      · exact heq
      · rw [hnone found.kind hgt] at hfound
        cases hfound
    rw [hkind, hfound] at htyped
    exact (Option.some.inj htyped).symm

theorem survives_first (hstatus : fromError text err = none)
    (htyped : err.as typed.kind = some typed) (hfits : typed.Fits)
    (hfound : err.as found.kind = some found)
    (hfirst : ∀ earlier : ErrorKind, earlier.rank < found.kind.rank → err.as earlier = none) :
    Survives text err typed ↔ typed = found ∧ err.causeIsNil typed.kind = false := by
  have encoded := encodeError_first hstatus hfound hfirst
  constructor
  · rintro ⟨other, hother, hdecoded⟩
    by_cases hcause : err.causeIsNil found.kind = true
    · rw [if_pos hcause, hother] at encoded
      cases encoded
    · rw [if_neg hcause, hother] at encoded
      obtain ⟨code, detail, heq, hdetail⟩ := encoded
      cases heq
      rw [decodeError_detail hdetail, Option.filter_eq_some_iff] at hdecoded
      have hkind : typed.kind = found.kind := by
        rw [← Option.some.inj hdecoded.1, TypedError.kind_wire]
      have same : typed = found := by
        rw [hkind, hfound] at htyped
        exact (Option.some.inj htyped).symm
      rw [hkind]
      exact ⟨same, Bool.eq_false_iff.mpr hcause⟩
  · rintro ⟨rfl, hcause⟩
    rw [hcause, if_neg Bool.false_ne_true] at encoded
    obtain ⟨code, detail, hencoded, hdetail⟩ := encoded
    refine ⟨_, hencoded, ?_⟩
    rw [decodeError_detail hdetail, TypedError.wire_of_fits hfits]
    simp

theorem survives_without_status (hstatus : fromError text err = none)
    (htyped : err.as typed.kind = some typed) (hfits : typed.Fits) :
    Survives text err typed ↔
      (∀ earlier : ErrorKind, earlier.rank < typed.kind.rank → err.as earlier = none) ∧
        err.causeIsNil typed.kind = false := by
  obtain ⟨found, hfound, hfirst⟩ := GoError.exists_first (Option.isSome_of_eq_some htyped)
  rw [survives_first hstatus htyped hfits hfound hfirst, eq_first_iff htyped hfound hfirst]

theorem encodeError_of_status {status : Status} (hnil : err ≠ .nil)
    (h : fromError text err = some status) : encodeError text err = some err := by
  simp only [encodeError.eq_2 text err hnil, h, Option.isSome_some, if_true]

/-- A typed error, however deep in the error, is decoded to what it was exactly when nothing in the
error's chain takes its place. -/
theorem typed_error_survives_iff (text : GoError → String) (err : GoError) (typed : TypedError)
    (htyped : err.as typed.kind = some typed) (hfits : typed.Fits) :
    Survives text err typed ↔ Unhidden err typed := by
  have hsome := Option.isSome_of_eq_some htyped
  have hnil := ne_nil_of_as hsome
  have hfrom := @fromError_eq text err typed.kind hsome
  rw [Unhidden]
  cases hstatus : err.errorsAs (·.status?) with
  | none =>
    rw [hstatus] at hfrom
    exact survives_without_status hfrom htyped hfits
  | some status =>
    rw [hstatus] at hfrom
    have same : Survives text err typed ↔ (decodeError text err).as typed.kind = some typed := by
      rw [Survives, encodeError_of_status hnil hfrom]
      simp
    rw [same, decodeError_of_fromError hnil hfrom, decodeStatus_as, htyped]
    cases hdetail : status.details.find? Detail.known with
    | some detail => simp only [hdetail, filter_kind_eq_some]
    | none => simp [hdetail]

def dependency : TypedError :=
  .readDependency ⟨7, 3, "tail-a"⟩

def wrappedDependency : GoError :=
  .wrap "client get: read: failed" [.wrap "read: failed"
    [.readDependency ⟨7, 3, "tail-a"⟩ (.text "fetch committed sequence failed")]]

theorem wrappedDependency_survives :
    wrappedDependency.as .readDependency = some dependency ∧
      Survives (fun _ => "failed") wrappedDependency dependency := by
  refine ⟨rfl, (typed_error_survives_iff _ wrappedDependency dependency rfl ⟨by decide, by decide⟩).mpr ?_⟩
  refine ⟨?_, rfl⟩
  intro earlier _
  cases earlier <;> first
    | rfl
    | contradiction

/-- The tail's answer takes the place of the failed read dependency: a deadline that ran out on the
way to it, or its own refusal. -/
theorem dependency_replaced_by_cause :
    (encodeError (fun _ => "failed") (.readDependency ⟨7, 3, "tail-a"⟩
        (.status ⟨.deadlineExceeded, "context deadline exceeded", []⟩))).map
        (decodeError fun _ => "failed") =
      some (.sentinel .deadlineExceeded) ∧
    (encodeError (fun _ => "failed") (.readDependency ⟨7, 3, "tail-a"⟩
        (.routingMismatch ⟨7, 3, 4, "tail", "active", "wrong_version"⟩))).map
        (decodeError fun _ => "failed") =
      some (.routingMismatch ⟨7, 3, 4, "tail", "active", "wrong_version"⟩) :=
  ⟨rfl, rfl⟩

end Text

end Craq.Transport
