import Craq.Lib.Run
import Craq.Transport.Errors

/-! # The replication session of one peer

One loop owns the requests for a peer.  A request waits in the backlog until its slot has credit, or
until a probe is due; it is pending from then on until its acknowledgement or until the stream is
given up.  The clock stands still during one search of the backlog.
-/

namespace Craq.Transport

open Lib (Reaches not_invariant_of_run run)

/-- In nanoseconds. -/
def replicationBlockedSlotProbe : Nat := 10000000

def replicationPendingAckTimeout : Nat := 250000000

inductive ReplicationKind where
  | forward
  | commit
  | commitAdvance
deriving DecidableEq, Repr

structure ReplicationSlotKindKey where
  kind : ReplicationKind
  slot : Int
deriving DecidableEq, Repr

structure OutboundReplicationRequest where
  id : Nat
  key : ReplicationSlotKindKey
deriving DecidableEq, Repr

structure Pending where
  request : OutboundReplicationRequest
  since : Nat
deriving DecidableEq, Repr

/-! ## Frames -/

inductive EncodedError where
  | empty
  | malformed (detail : String)
  | status (status : Status)

-- `status.ErrorProto` makes no error of a status that is OK.
def unmarshalEncodedError : EncodedError → GoError
  | .empty => .nil
  | .malformed detail => .wrap "unmarshal replication error status" [.text detail]
  | .status status => if status.code = .ok then .nil else decodeStatus (.status status) status

structure ReplicationAck where
  success : Bool
  encodedError : EncodedError := .empty

def ReplicationAck.err (ack : ReplicationAck) : GoError :=
  unmarshalEncodedError ack.encodedError

-- A credit of an unspecified kind is one for forwards.
inductive ReplicationFrame where
  | slotCredit (kind : Option ReplicationKind) (slot available : Int)
  | ack (requestID : Nat) (ack : Option ReplicationAck)
  | other

/-! ## The session -/

structure ReplicationPeerSession where
  backlog : List OutboundReplicationRequest := []
  pending : List Pending := []
  pendingBySlot : ReplicationSlotKindKey → Nat := fun _ => 0
  credits : ReplicationSlotKindKey → Option Nat := fun _ => none
  probeAfter : ReplicationSlotKindKey → Option Nat := fun _ => none
  connected : Bool := false
  -- Whether the loop has come to its last select and nothing has happened since.
  asleep : Bool := false
  now : Nat := 0
  -- The error of each request's context.
  ctxErr : Nat → GoError := fun _ => .nil
  -- All requests that came from the send queue, the completed ones with their error, and the
  -- acknowledgements that were read.
  taken : List OutboundReplicationRequest := []
  completed : List (OutboundReplicationRequest × GoError) := []
  acked : List (Nat × Option ReplicationAck) := []

inductive SessionEvent where
  | take (req : OutboundReplicationRequest)
  | connect
  | frame (frame : ReplicationFrame)
  | streamErr
  | turn (sent : Bool)
  | tick (elapsed : Nat)
  | cancel (requestID : Nat) (err : GoError)

namespace ReplicationPeerSession

variable (s : ReplicationPeerSession)

def complete (req : OutboundReplicationRequest) (err : GoError) : ReplicationPeerSession :=
  { s with completed := s.completed ++ [(req, err)] }

-- A count that would not stay positive is deleted, and a missing one reads as zero.
def release (counts : ReplicationSlotKindKey → Nat) (key : ReplicationSlotKindKey) :
    ReplicationSlotKindKey → Nat :=
  Function.update counts key (counts key - 1)

def requeuePending : ReplicationPeerSession :=
  let replayed := s.pending.insertionSort fun left right => left.request.id ≤ right.request.id
  { s with
    backlog := replayed.map (·.request) ++ s.backlog
    pending := []
    pendingBySlot := replayed.foldl (fun counts sent => release counts sent.request.key)
      s.pendingBySlot }

/-- `closeStream` and `requeuePending`. -/
def dropStream : ReplicationPeerSession :=
  { s with connected := false }.requeuePending

def slotCredit (key : ReplicationSlotKindKey) : Nat :=
  (s.credits key).getD 1

def setSlotCredit (key : ReplicationSlotKindKey) (available : Int) : ReplicationPeerSession :=
  { s with credits := Function.update s.credits key (some available.toNat) }

/-- No delay keeps the slot from being probed. -/
def Rests (key : ReplicationSlotKindKey) : Prop :=
  ∀ due ∈ s.probeAfter key, due ≤ s.now

instance (key : ReplicationSlotKindKey) : Decidable (s.Rests key) :=
  inferInstanceAs (Decidable (∀ due ∈ s.probeAfter key, due ≤ s.now))

def allowBlockedProbe (key : ReplicationSlotKindKey) : Bool :=
  0 < s.slotCredit key ∨ s.pendingBySlot key = 0 ∧ s.Rests key

/-- What `allowBlockedProbe` leaves when it allows the request: without credit it is a probe. -/
def startProbe (key : ReplicationSlotKindKey) : ReplicationPeerSession :=
  if 0 < s.slotCredit key then s
  else
    { s with
      probeAfter := Function.update s.probeAfter key (some (s.now + replicationBlockedSlotProbe)) }

def stalePending : Bool :=
  s.pending.any fun sent => decide (replicationPendingAckTimeout ≤ s.now - sent.since)

/-- The first request that is canceled or may be sent. -/
def nextSendable : Option OutboundReplicationRequest :=
  s.backlog.find? fun req => !(s.ctxErr req.id).isNil || s.allowBlockedProbe req.key

def transmit (req : OutboundReplicationRequest) : ReplicationPeerSession :=
  let probed := s.startProbe req.key
  { probed.setSlotCredit req.key (probed.slotCredit req.key - 1 : Int) with
    pending := s.pending ++ [⟨req, s.now⟩]
    pendingBySlot := Function.update s.pendingBySlot req.key (s.pendingBySlot req.key + 1)
    backlog := s.backlog.erase req }

/-- One turn of the loop.  A canceled request is completed, and the search starts over. -/
def turn (sent : Bool) : ReplicationPeerSession :=
  if s.stalePending then s.dropStream
  else
    match s.nextSendable with
    | none => { s with asleep := true }
    | some req =>
      if (s.ctxErr req.id).isNil then
        if sent then s.transmit req else (s.startProbe req.key).dropStream
      else { s with backlog := s.backlog.erase req }.complete req (s.ctxErr req.id)

def removePending (sent : Pending) : ReplicationPeerSession :=
  { s with
    pending := s.pending.erase sent
    pendingBySlot := release s.pendingBySlot sent.request.key }

def handleAck (sent : Pending) : Option ReplicationAck → ReplicationPeerSession
  | none => (s.removePending sent).complete sent.request .nil
  | some ack =>
    if ack.success then (s.removePending sent).complete sent.request .nil
    else if ack.err.errorsIs .replicaBackpressure then
      { (s.removePending sent).setSlotCredit sent.request.key 0 with
        probeAfter := Function.update s.probeAfter sent.request.key
          (some (s.now + replicationBlockedSlotProbe))
        backlog := sent.request :: s.backlog }
    else (s.removePending sent).complete sent.request ack.err

def pendingRequest (requestID : Nat) : Option Pending :=
  s.pending.find? fun sent => sent.request.id == requestID

def handleInboundFrame : ReplicationFrame → ReplicationPeerSession
  | .slotCredit kind slot available =>
    let key : ReplicationSlotKindKey := ⟨kind.getD .forward, slot⟩
    let credited := s.setSlotCredit key available
    if 0 < available then { credited with probeAfter := Function.update s.probeAfter key none }
    else credited
  | .ack requestID ack =>
    let read := { s with acked := s.acked ++ [(requestID, ack)] }
    match s.pendingRequest requestID with
    | none => read
    | some sent => read.handleAck sent ack
  | .other => s

-- Every request has an id of its own, and the error of a context stays as it is.
def step : SessionEvent → Option ReplicationPeerSession
  | .take req =>
    if ∀ other ∈ s.taken, other.id ≠ req.id then
      some { s with backlog := s.backlog ++ [req], taken := s.taken ++ [req], asleep := false }
    else none
  | .connect => if !s.connected && !s.backlog.isEmpty then some { s with connected := true } else none
  | .frame frame =>
    if s.connected then some ({ s with asleep := false }.handleInboundFrame frame) else none
  | .streamErr => if s.connected then some ({ s with asleep := false }.dropStream) else none
  | .turn sent => if s.connected && !s.asleep then some (s.turn sent) else none
  | .tick elapsed => some { s with now := s.now + elapsed }
  | .cancel requestID err =>
    if !err.isNil && (s.ctxErr requestID).isNil then
      some { s with ctxErr := Function.update s.ctxErr requestID err }
    else none

/-! ## Requests and counts -/

theorem startProbe_eq (key : ReplicationSlotKindKey) :
    ∃ delays, s.startProbe key = { s with probeAfter := delays } := by
  rw [startProbe]
  split
  · exact ⟨s.probeAfter, rfl⟩
  · exact ⟨_, rfl⟩

/-- Every request is held once, in the backlog, among the pending ones or among the completed ones,
and the counts are those of the pending requests. -/
structure Conserved : Prop where
  held : ∀ req, s.backlog.count req + (s.pending.map (·.request)).count req +
    (s.completed.map Prod.fst).count req = s.taken.count req
  ids : (s.taken.map (·.id)).Nodup
  counts : ∀ key, s.pendingBySlot key = s.pending.countP (·.request.key = key)

variable {s} {next : ReplicationPeerSession}

theorem foldl_release (sents : List Pending) (counts : ReplicationSlotKindKey → Nat)
    (key : ReplicationSlotKindKey) :
    sents.foldl (fun counts sent => release counts sent.request.key) counts key =
      counts key - sents.countP (·.request.key = key) := by
  induction sents generalizing counts with
  | nil => rfl
  | cons sent sents ih =>
    rw [List.foldl_cons, ih, release, List.countP_cons]
    by_cases hKey : sent.request.key = key
    · rw [hKey, Function.update_self, decide_eq_true rfl, if_pos rfl]
      omega
    · rw [Function.update_of_ne (Ne.symm hKey), decide_eq_false hKey]
      rfl

namespace Conserved

section

variable (h : s.Conserved)

include h

theorem dropStream : s.dropStream.Conserved where
  held := fun req => by
    have hSorted := (s.pending.perm_insertionSort
      fun left right => left.request.id ≤ right.request.id).map (·.request)
    have hHeld := h.held req
    simp only [ReplicationPeerSession.dropStream, requeuePending, List.count_append,
      List.map_nil, List.count_nil, hSorted.count_eq]
    omega
  ids := h.ids
  counts := fun key => by
    simp only [ReplicationPeerSession.dropStream, requeuePending, foldl_release,
      (s.pending.perm_insertionSort _).countP_eq, h.counts key, Nat.sub_self]
    rfl

/-- What the searches and the frames of the loop move a request for is none of these. -/
theorem congr (backlog : next.backlog = s.backlog) (pending : next.pending = s.pending)
    (completed : next.completed = s.completed) (taken : next.taken = s.taken)
    (counts : next.pendingBySlot = s.pendingBySlot) : next.Conserved := by
  refine ⟨?_, ?_, ?_⟩
  · rw [backlog, pending, completed, taken]
    exact h.held
  · rw [taken]
    exact h.ids
  · rw [pending, counts]
    exact h.counts

variable {req : OutboundReplicationRequest}

theorem transmit (hMem : req ∈ s.backlog) : (s.transmit req).Conserved := by
  obtain ⟨delays, hProbe⟩ := startProbe_eq s req.key
  rw [ReplicationPeerSession.transmit, hProbe]
  refine ⟨fun other => ?_, h.ids, fun key => ?_⟩
  · have hHeld := h.held other
    rw [(List.perm_cons_erase hMem).count_eq, List.count_cons] at hHeld
    simp only [setSlotCredit, List.map_append, List.count_append, List.map_cons, List.map_nil,
      List.count_cons, List.count_nil]
    omega
  · simp only [List.countP_append, List.countP_singleton]
    by_cases hKey : req.key = key
    · rw [← hKey, Function.update_self, h.counts, decide_eq_true rfl, if_pos rfl]
    · rw [Function.update_of_ne (Ne.symm hKey), h.counts, decide_eq_false hKey]
      rfl

theorem cancel (hMem : req ∈ s.backlog) (err : GoError) :
    ({ s with backlog := s.backlog.erase req }.complete req err).Conserved where
  held := fun other => by
    have hHeld := h.held other
    rw [(List.perm_cons_erase hMem).count_eq, List.count_cons] at hHeld
    simp only [complete, List.map_append, List.count_append, List.map_cons, List.map_nil,
      List.count_cons, List.count_nil]
    omega
  ids := h.ids
  counts := h.counts

theorem turn (sent : Bool) : (s.turn sent).Conserved := by
  rw [ReplicationPeerSession.turn]
  split
  · exact h.dropStream
  split
  · exact h.congr rfl rfl rfl rfl rfl
  · rename_i req hNext
    have hMem : req ∈ s.backlog := List.mem_of_find?_eq_some hNext
    obtain ⟨delays, hProbe⟩ := startProbe_eq s req.key
    have hProbed : { s with probeAfter := delays }.Conserved := h.congr rfl rfl rfl rfl rfl
    split
    · split
      · exact h.transmit hMem
      · exact hProbe ▸ hProbed.dropStream
    · exact h.cancel hMem _

theorem handleAck {sent : Pending} (hMem : sent ∈ s.pending) (ack : Option ReplicationAck) :
    (s.handleAck sent ack).Conserved := by
  have hPerm := List.perm_cons_erase hMem
  have hCounts (key : ReplicationSlotKindKey) : release s.pendingBySlot sent.request.key key =
      (s.pending.erase sent).countP (·.request.key = key) := by
    have hCount := h.counts key
    rw [hPerm.countP_eq, List.countP_cons] at hCount
    rw [release]
    by_cases hKey : sent.request.key = key
    · rw [hKey, Function.update_self, hCount, decide_eq_true hKey, if_pos rfl, Nat.add_sub_cancel]
    · rw [Function.update_of_ne (Ne.symm hKey), hCount, decide_eq_false hKey]
      rfl
  have hHeld (other : OutboundReplicationRequest) : s.backlog.count other +
      ((s.pending.erase sent).map (·.request)).count other +
      (if sent.request == other then 1 else 0) + (s.completed.map Prod.fst).count other =
        s.taken.count other := by
    have hBefore := h.held other
    rw [(hPerm.map (·.request)).count_eq, List.map_cons, List.count_cons] at hBefore
    omega
  have hCompleted (err : GoError) :
      ((s.removePending sent).complete sent.request err).Conserved := by
    refine ⟨fun other => ?_, h.ids, hCounts⟩
    have hOther := hHeld other
    simp only [complete, removePending, List.map_append, List.count_append, List.map_cons,
      List.map_nil, List.count_cons, List.count_nil]
    omega
  cases ack with
  | none => exact hCompleted .nil
  | some ack =>
    rw [ReplicationPeerSession.handleAck]
    split
    · exact hCompleted .nil
    split
    · refine ⟨fun other => ?_, h.ids, hCounts⟩
      have hOther := hHeld other
      simp only [setSlotCredit, removePending, List.count_cons]
      omega
    · exact hCompleted ack.err

theorem handleInboundFrame (frame : ReplicationFrame) : (s.handleInboundFrame frame).Conserved := by
  cases frame with
  | slotCredit kind slot available =>
    rw [ReplicationPeerSession.handleInboundFrame]
    split
    · exact h.congr rfl rfl rfl rfl rfl
    · exact h.congr rfl rfl rfl rfl rfl
  | ack requestID ack =>
    rw [ReplicationPeerSession.handleInboundFrame]
    have hRead : { s with acked := s.acked ++ [(requestID, ack)] }.Conserved :=
      h.congr rfl rfl rfl rfl rfl
    split
    · exact hRead
    · rename_i sent hSent
      exact hRead.handleAck (List.mem_of_find?_eq_some hSent) ack
  | other => exact h

theorem take (hNew : ∀ other ∈ s.taken, other.id ≠ req.id) :
    Conserved { s with
      backlog := s.backlog ++ [req], taken := s.taken ++ [req], asleep := false } where
  held := fun other => by
    have hHeld := h.held other
    simp only [List.count_append]
    omega
  ids := by
    rw [List.map_append, List.nodup_append]
    refine ⟨h.ids, List.nodup_singleton _, ?_⟩
    intro earlier hEarlier last hLast
    obtain ⟨other, hOther, rfl⟩ := List.mem_map.mp hEarlier
    rw [List.mem_singleton.mp hLast]
    exact hNew other hOther
  counts := h.counts

theorem step {event : SessionEvent} (hStep : s.step event = some next) : next.Conserved := by
  have hAwake : { s with asleep := false }.Conserved := h.congr rfl rfl rfl rfl rfl
  cases event <;>
    simp only [ReplicationPeerSession.step, Option.ite_none_right_eq_some, Option.some.injEq]
      at hStep
  case tick elapsed => exact hStep ▸ h.congr rfl rfl rfl rfl rfl
  case take req => exact hStep.2 ▸ h.take hStep.1
  case connect => exact hStep.2 ▸ h.congr rfl rfl rfl rfl rfl
  case frame frame => exact hStep.2 ▸ hAwake.handleInboundFrame frame
  case streamErr => exact hStep.2 ▸ hAwake.dropStream
  case turn sent => exact hStep.2 ▸ h.turn sent
  case cancel requestID err => exact hStep.2 ▸ h.congr rfl rfl rfl rfl rfl

end

theorem initial : Conserved {} :=
  ⟨fun _ => rfl, List.nodup_nil, fun _ => rfl⟩

theorem reaches {allowed : ReplicationPeerSession → SessionEvent → Prop}
    (h : Reaches ReplicationPeerSession.step allowed {} s) : s.Conserved :=
  h.invariant initial fun _ _ _ hState _ hStep => hState.step hStep

/-- A request that is not completed is in one place, and there once. -/
theorem exactly_one (h : s.Conserved) (hTaken : req ∈ s.taken)
    (hOpen : ∀ err, (req, err) ∉ s.completed) :
    s.backlog.count req + (s.pending.map (·.request)).count req = 1 := by
  have hNone : (s.completed.map Prod.fst).count req = 0 := by
    refine List.count_eq_zero.mpr fun hMem => ?_
    obtain ⟨⟨_, err⟩, hEntry, rfl⟩ := List.mem_map.mp hMem
    exact hOpen err hEntry
  have hOnce : s.taken.count req = 1 := List.count_eq_one_of_mem h.ids.of_map hTaken
  have hHeld := h.held req
  omega

end Conserved

/-! ## Successes -/

/-- Whoever is told of a success has been acknowledged without a failure. -/
def Justified (s : ReplicationPeerSession) : Prop :=
  ∀ entry ∈ s.completed, entry.2.isNil = true →
    ∃ read ∈ s.acked, read.1 = entry.1.id ∧ ∀ ack ∈ read.2, ack.success = true

instance : DecidablePred Justified := fun s =>
  inferInstanceAs (Decidable (∀ entry ∈ s.completed, entry.2.isNil = true →
    ∃ read ∈ s.acked, read.1 = entry.1.id ∧ ∀ ack ∈ read.2, ack.success = true))

/-- An acknowledgement that reports a failure says which. -/
def Told (s : ReplicationPeerSession) : SessionEvent → Prop
  | .frame (.ack requestID (some ack)) =>
    (s.pendingRequest requestID).isSome = true → ack.success = false → ack.err.isNil = false
  | _ => True

namespace Justified

variable (h : s.Justified)

include h

theorem complete {req : OutboundReplicationRequest} {err : GoError}
    (hReq : err.isNil = true →
      ∃ read ∈ s.acked, read.1 = req.id ∧ ∀ ack ∈ read.2, ack.success = true) :
    (s.complete req err).Justified := by
  refine List.forall_mem_append.mpr ⟨h, ?_⟩
  exact List.forall_mem_singleton.mpr hReq

theorem turn (sent : Bool) : (s.turn sent).Justified := by
  rw [ReplicationPeerSession.turn]
  split
  · exact h
  split
  · exact h
  · rename_i req hNext
    obtain ⟨delays, hProbe⟩ := startProbe_eq s req.key
    split
    · split
      · rw [transmit, hProbe]
        exact h
      · rw [hProbe]
        exact h
    · rename_i hErr
      exact complete (s := { s with backlog := _ }) h fun hNil => absurd hNil hErr

theorem handleAck {sent : Pending} {ack : Option ReplicationAck}
    (hRead : (sent.request.id, ack) ∈ s.acked)
    (hTold : ∀ given ∈ ack, given.success = false → given.err.isNil = false) :
    (s.handleAck sent ack).Justified := by
  have hRemoved : (s.removePending sent).Justified := h
  cases ack with
  | none => exact hRemoved.complete fun _ => ⟨_, hRead, rfl, nofun⟩
  | some ack =>
    rw [ReplicationPeerSession.handleAck]
    split
    · rename_i hSuccess
      refine hRemoved.complete fun _ => ⟨_, hRead, rfl, ?_⟩
      rintro _ ⟨⟩
      exact hSuccess
    · rename_i hFailure
      split
      · exact h
      · refine hRemoved.complete fun hNil => ?_
        rw [hTold ack rfl (Bool.eq_false_iff.mpr hFailure)] at hNil
        cases hNil

theorem handleInboundFrame {frame : ReplicationFrame} (hTold : s.Told (.frame frame)) :
    (s.handleInboundFrame frame).Justified := by
  cases frame with
  | slotCredit kind slot available =>
    rw [ReplicationPeerSession.handleInboundFrame]
    split
    · exact h
    · exact h
  | ack requestID ack =>
    have hRead : { s with acked := s.acked ++ [(requestID, ack)] }.Justified := by
      intro entry hEntry hNil
      obtain ⟨given, hGiven, hSuccess⟩ := h entry hEntry hNil
      exact ⟨given, List.mem_append_left _ hGiven, hSuccess⟩
    rw [ReplicationPeerSession.handleInboundFrame]
    split
    · exact hRead
    · rename_i sent hSent
      have hID : sent.request.id = requestID := by simpa using List.find?_some hSent
      refine hRead.handleAck ?_ ?_
      · rw [hID]
        exact List.mem_append_right _ (List.mem_singleton_self _)
      · rintro given ⟨⟩
        exact hTold (by rw [hSent]; rfl)
  | other => exact h

theorem step {event : SessionEvent} (hTold : s.Told event) (hStep : s.step event = some next) :
    next.Justified := by
  cases event <;>
    simp only [ReplicationPeerSession.step, Option.ite_none_right_eq_some, Option.some.injEq]
      at hStep
  case tick elapsed => exact hStep ▸ h
  case take req => exact hStep.2 ▸ h
  case connect => exact hStep.2 ▸ h
  case frame frame =>
    have hAwake : { s with asleep := false }.Told (.frame frame) := hTold
    exact hStep.2 ▸ handleInboundFrame (s := { s with asleep := false }) h hAwake
  case streamErr => exact hStep.2 ▸ h
  case turn sent => exact hStep.2 ▸ h.turn sent
  case cancel requestID err => exact hStep.2 ▸ h

end Justified

/-- In every run a request that came from the send queue is in exactly one of backlog and pending
until it is completed, and the counts are those of the pending requests.  A success follows an
acknowledgement without a failure, when every failure that is acknowledged says which it is. -/
theorem session_conserves (s : ReplicationPeerSession) :
    (Reaches step (fun _ _ => True) {} s →
      (∀ req ∈ s.taken, (∀ err, (req, err) ∉ s.completed) →
        s.backlog.count req + (s.pending.map (·.request)).count req = 1) ∧
      ∀ key, s.pendingBySlot key = s.pending.countP (·.request.key = key)) ∧
    (Reaches step Told {} s → s.Justified) := by
  refine ⟨fun hReaches => ?_, fun hReaches => ?_⟩
  · have h := Conserved.reaches hReaches
    exact ⟨fun req hTaken hOpen => h.exactly_one hTaken hOpen, h.counts⟩
  · have hStart : Justified {} := nofun
    exact hReaches.invariant hStart fun _ _ _ h hTold hStep => h.step hTold hStep

def requestOne : OutboundReplicationRequest := ⟨1, ⟨.forward, 0⟩⟩

def sendOne : List SessionEvent :=
  [.take requestOne, .connect, .turn true]

theorem session_conserves_one :
    ∃ s, run step (sendOne ++ [.frame (.ack 1 none)]) {} = some s ∧
      s.backlog.count requestOne + (s.pending.map (·.request)).count requestOne = 0 ∧
      s.pendingBySlot requestOne.key = s.pending.countP (·.request.key = requestOne.key) ∧
      s.Justified := by
  have hMap : (run step (sendOne ++ [.frame (.ack 1 none)]) {}).map (fun s =>
      s.backlog.count requestOne + (s.pending.map (·.request)).count requestOne) = some 0 := by
    decide +kernel
  obtain ⟨s, hRun, hCount⟩ := Option.map_eq_some_iff.mp hMap
  have hTold : ∀ event ∈ sendOne ++ [.frame (.ack 1 none)],
      ∀ state : ReplicationPeerSession, state.Told event := by
    simp [sendOne, Told]
  refine ⟨s, hRun, hCount, ?_, ?_⟩
  · exact ((session_conserves s).1 (.of_run (fun _ _ _ => trivial) hRun)).2 requestOne.key
  · exact (session_conserves s).2 (.of_run hTold hRun)

/-- A failure without an error is taken for a success. -/
theorem failure_completes_with_success :
    ¬∀ s, Reaches step (fun _ _ => True) {} s → s.Justified :=
  not_invariant_of_run (sendOne ++ [.frame (.ack 1 (some { success := false }))]) (by decide +kernel)

/-! ## Sleep -/

/-- The loop of a connected session does not sleep on requests that nobody has canceled while no
acknowledgement is awaited. -/
def Wakeful (s : ReplicationPeerSession) : Prop :=
  s.connected = true → s.asleep = true → s.backlog ≠ [] →
    (∀ req ∈ s.backlog, (s.ctxErr req.id).isNil = true) → s.pending ≠ []

instance : DecidablePred Wakeful := fun s =>
  inferInstanceAs (Decidable (s.connected = true → s.asleep = true → s.backlog ≠ [] →
    (∀ req ∈ s.backlog, (s.ctxErr req.id).isNil = true) → s.pending ≠ []))

/-- The probe delay of a slot runs only while a request of the slot is pending, and the loop does not
sleep with nothing but a backlog. -/
structure Rested (s : ReplicationPeerSession) : Prop where
  rests : ∀ key, s.pendingBySlot key = 0 → s.Rests key
  awake : s.asleep = true → s.backlog = [] ∨ s.pending ≠ []

/-- The last pending request of a slot leaves only when no probe delay of the slot is running, and
without backpressure; no send fails while a request of the backlog is without credit. -/
def Calm (s : ReplicationPeerSession) : SessionEvent → Prop
  | .frame (.ack requestID ack) => ∀ sent ∈ s.pendingRequest requestID,
    1 < s.pendingBySlot sent.request.key ∨
      s.Rests sent.request.key ∧
        ∀ given ∈ ack, given.success = false → given.err.errorsIs .replicaBackpressure = false
  | .streamErr => ∀ sent ∈ s.pending, s.Rests sent.request.key
  | .turn sent =>
    (s.stalePending = true ∨ sent = false → ∀ sent ∈ s.pending, s.Rests sent.request.key) ∧
      (sent = false → ∀ req ∈ s.backlog, 0 < s.slotCredit req.key)
  | _ => True

namespace Rested

variable (h : s.Rested)

include h

theorem dropStream (hConserved : s.Conserved) (hAwake : s.asleep = false)
    (hPending : ∀ sent ∈ s.pending, s.Rests sent.request.key) : s.dropStream.Rested where
  rests := fun key _ => by
    by_cases hKey : s.pendingBySlot key = 0
    · exact h.rests key hKey
    · rw [hConserved.counts key] at hKey
      obtain ⟨sent, hMem, hSame⟩ := List.countP_pos_iff.mp (Nat.pos_of_ne_zero hKey)
      exact of_decide_eq_true hSame ▸ hPending sent hMem
  awake := fun hAsleep => absurd (hAwake.symm.trans hAsleep) Bool.false_ne_true

theorem transmit (req : OutboundReplicationRequest) : (s.transmit req).Rested := by
  refine ⟨fun key hKey => ?_, fun _ => .inr (List.append_ne_nil_of_right_ne_nil _ (by simp))⟩
  rw [ReplicationPeerSession.transmit] at hKey ⊢
  by_cases hSame : key = req.key
  · rw [hSame] at hKey
    simp at hKey
  · have hBefore : s.pendingBySlot key = 0 := by simpa [Function.update_of_ne hSame] using hKey
    have hRests := h.rests key hBefore
    rw [startProbe]
    split
    · exact hRests
    · simpa [Rests, setSlotCredit, Function.update_of_ne hSame] using hRests

theorem turn (hConserved : s.Conserved) (hAwake : s.asleep = false) {sent : Bool}
    (hCalm : s.Calm (.turn sent)) : (s.turn sent).Rested := by
  rw [ReplicationPeerSession.turn]
  split
  case isTrue hStale => exact h.dropStream hConserved hAwake (hCalm.1 (.inl hStale))
  split
  · rename_i hNext
    refine ⟨h.rests, fun _ => ?_⟩
    by_contra hBoth
    obtain ⟨hBacklog, hPending⟩ := not_or.mp hBoth
    obtain ⟨req, hMem⟩ := List.exists_mem_of_ne_nil _ hBacklog
    have hNone : s.pendingBySlot req.key = 0 := by
      rw [hConserved.counts, not_not.mp hPending]
      rfl
    have hBlocked := List.find?_eq_none.mp hNext req hMem
    simp [allowBlockedProbe, hNone, h.rests req.key hNone] at hBlocked
  · rename_i req hNext
    split
    · split
      · exact h.transmit req
      · rename_i hFailed
        have hSent := Bool.eq_false_iff.mpr hFailed
        rw [startProbe, if_pos (hCalm.2 hSent req (List.mem_of_find?_eq_some hNext))]
        exact h.dropStream hConserved hAwake (hCalm.1 (.inr hSent))
    · exact ⟨h.rests, fun hAsleep => absurd (hAwake.symm.trans hAsleep) Bool.false_ne_true⟩

theorem handleAck (hAwake : s.asleep = false) {sent : Pending} {ack : Option ReplicationAck}
    (hCalm : 1 < s.pendingBySlot sent.request.key ∨ s.Rests sent.request.key ∧
      ∀ given ∈ ack, given.success = false → given.err.errorsIs .replicaBackpressure = false) :
    (s.handleAck sent ack).Rested := by
  have hLeft (key : ReplicationSlotKindKey)
      (hKey : release s.pendingBySlot sent.request.key key = 0) : s.Rests key := by
    rw [release] at hKey
    by_cases hSame : key = sent.request.key
    · rw [hSame, Function.update_self] at hKey
      exact hSame ▸ (hCalm.resolve_left (by omega)).1
    · rw [Function.update_of_ne hSame] at hKey
      exact h.rests key hKey
  have hRemoved (err : GoError) : ((s.removePending sent).complete sent.request err).Rested :=
    ⟨hLeft, fun hAsleep => absurd (hAwake.symm.trans hAsleep) Bool.false_ne_true⟩
  cases ack with
  | none => exact hRemoved .nil
  | some ack =>
    rw [ReplicationPeerSession.handleAck]
    split
    · exact hRemoved .nil
    split
    · rename_i hFailure hBackpressure
      refine ⟨fun key hKey => ?_, fun hAsleep => absurd (hAwake.symm.trans hAsleep)
        Bool.false_ne_true⟩
      have hMore : 1 < s.pendingBySlot sent.request.key := by
        refine hCalm.resolve_right fun hOther => ?_
        rw [hOther.2 ack rfl (Bool.eq_false_iff.mpr hFailure)] at hBackpressure
        cases hBackpressure
      have hRests := hLeft key hKey
      by_cases hSame : key = sent.request.key
      · change release s.pendingBySlot sent.request.key key = 0 at hKey
        rw [release, hSame, Function.update_self] at hKey
        omega
      · simpa [Rests, setSlotCredit, removePending, Function.update_of_ne hSame] using hRests
    · exact hRemoved ack.err

theorem handleInboundFrame (hAwake : s.asleep = false) {frame : ReplicationFrame}
    (hCalm : s.Calm (.frame frame)) : (s.handleInboundFrame frame).Rested := by
  have hNever (hAsleep : s.asleep = true) : s.backlog = [] ∨ s.pending ≠ [] := h.awake hAsleep
  cases frame with
  | slotCredit kind slot available =>
    rw [ReplicationPeerSession.handleInboundFrame]
    split
    · refine ⟨fun key hKey => ?_, hNever⟩
      have hRests := h.rests key hKey
      by_cases hSame : key = ⟨kind.getD .forward, slot⟩
      · simp [Rests, hSame]
      · simpa [Rests, setSlotCredit, Function.update_of_ne hSame] using hRests
    · exact ⟨h.rests, hNever⟩
  | ack requestID ack =>
    rw [ReplicationPeerSession.handleInboundFrame]
    split
    · exact ⟨h.rests, hNever⟩
    · rename_i sent hSent
      have hRead : { s with acked := s.acked ++ [(requestID, ack)] }.Rested := ⟨h.rests, hNever⟩
      exact hRead.handleAck hAwake (hCalm sent hSent)
  | other => exact h

theorem step (hConserved : s.Conserved) {event : SessionEvent} (hCalm : s.Calm event)
    (hStep : s.step event = some next) : next.Rested := by
  have hAwake : { s with asleep := false }.Rested := ⟨h.rests, nofun⟩
  have hSame : { s with asleep := false }.Conserved := hConserved.congr rfl rfl rfl rfl rfl
  cases event <;>
    simp only [ReplicationPeerSession.step, Option.ite_none_right_eq_some, Option.some.injEq,
      Bool.and_eq_true] at hStep
  case tick elapsed =>
    refine hStep ▸ ⟨fun key hKey due hDue => ?_, h.awake⟩
    exact (h.rests key hKey due hDue).trans (Nat.le_add_right _ _)
  case take req => exact hStep.2 ▸ ⟨h.rests, nofun⟩
  case connect => exact hStep.2 ▸ ⟨h.rests, h.awake⟩
  case frame frame =>
    have hFrame : { s with asleep := false }.Calm (.frame frame) := by
      cases frame <;> exact hCalm
    exact hStep.2 ▸ hAwake.handleInboundFrame rfl hFrame
  case streamErr => exact hStep.2 ▸ hAwake.dropStream hSame rfl hCalm
  case turn sent => exact hStep.2 ▸ h.turn hConserved (by simpa using hStep.1.2) hCalm
  case cancel requestID err => exact hStep.2 ▸ ⟨h.rests, h.awake⟩

end Rested

/-- In every calm run the loop does not sleep with a backlog while no request is pending. -/
theorem session_never_sleeps (hReaches : Reaches step Calm {} s) : s.Wakeful := by
  have hStart : Conserved {} ∧ Rested {} := ⟨.initial, fun _ _ => nofun, nofun⟩
  have hKeep (state : ReplicationPeerSession) (event : SessionEvent)
      (next : ReplicationPeerSession) (hState : state.Conserved ∧ state.Rested)
      (hCalm : state.Calm event) (hStep : state.step event = some next) :
      next.Conserved ∧ next.Rested :=
    ⟨hState.1.step hStep, hState.2.step hState.1 hCalm hStep⟩
  have h : (fun state => Conserved state ∧ Rested state) s := hReaches.invariant hStart hKeep
  intro _ hAsleep hBacklog _
  exact (h.2.awake hAsleep).resolve_left hBacklog

/-- A run without failures in which nothing is acknowledged is calm. -/
def quiet (s : ReplicationPeerSession) : SessionEvent → Bool
  | .turn sent => sent && !s.stalePending
  | .frame _ => false
  | .streamErr => false
  | _ => true

theorem calm_of_quiet (s : ReplicationPeerSession) (event : SessionEvent)
    (h : s.quiet event = true) : s.Calm event := by
  cases event with
  | frame | streamErr => cases h
  | turn sent =>
    obtain ⟨hSent, hStale⟩ := Bool.and_eq_true_iff.mp h
    rw [Bool.not_eq_true'] at hStale
    simp [Calm, hSent, hStale]
  | _ => trivial

/-- A second request of the slot waits for the first one to be acknowledged. -/
theorem session_never_sleeps_two :
    ∃ s, run step (sendOne ++ [.take ⟨2, ⟨.forward, 0⟩⟩, .turn true]) {} = some s ∧
      s.asleep = true ∧ s.backlog.length = 1 ∧ s.Wakeful := by
  have hMap : (run (Lib.guarded quiet step) (sendOne ++ [.take ⟨2, ⟨.forward, 0⟩⟩, .turn true])
      {}).map (fun s => (s.asleep, s.backlog.length)) = some (true, 1) := by
    decide +kernel
  obtain ⟨s, hRun, hState⟩ := Option.map_eq_some_iff.mp hMap
  have ⟨hAsleep, hLength⟩ := Prod.mk.inj hState
  exact ⟨s, hRun, hAsleep, hLength, session_never_sleeps (.of_guarded_run calm_of_quiet hRun)⟩

def backpressureAck : ReplicationAck where
  success := false
  encodedError := .status ⟨.resourceExhausted, "", [.backpressure ⟨0, 1, 1, "replica_buffer"⟩ ""]⟩

/-- The receiver of the only request has no room: the loop sleeps, and the probe is never sent. -/
theorem session_sleeps_after_backpressure :
    ¬∀ s, Reaches step (fun _ _ => True) {} s → s.Wakeful :=
  not_invariant_of_run (sendOne ++ [.frame (.ack 1 (some backpressureAck)), .turn true])
    (by decide +kernel)

end ReplicationPeerSession

end Craq.Transport
