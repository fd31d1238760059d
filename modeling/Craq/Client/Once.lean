import Craq.Client.Router
import Craq.Storage.Answers

/-! # A call of the router writes at most once

The router runs beside the nodes of every slot.  Its requests may be late, lost or unanswered, and
the transport may end a call with an error of its own at any time.  A node answers with a routing
mismatch only before its owner has seen the write, and only that answer lets the router send again.
What a node hears from its journal and from its neighbours later on is no routing mismatch either:
a neighbour's answer is one that its forward handler has given.
-/

namespace Craq.Client

open Coordserver (RoutingSnapshot)
open Lib (Reaches run)
open Storage (Action Carrier Cluster CommitResult Error ErrorClass JournalError NodeConfig NodeSlot
  SubmitRequest SubmitResponse TransportError isAmbiguousWriteCause)

/-! ## Requests at their nodes -/

/-- Where a request is: on its way, waiting for the owner, answered by the check, gone with its node
or taken by the owner. -/
inductive Stage where
  | sent
  | checked
  | refused (err : Error)
  | lost
  | submitted (response : SubmitResponse)
deriving DecidableEq

structure Request where
  node : String
  req : WriteRequest
  stage : Stage := .sent
deriving DecidableEq

-- The requests of the call have even numbers, all others odd ones.
def WriteRequest.submit (req : WriteRequest) (index : Nat) (now : Int) : SubmitRequest where
  call := 2 * index
  kind := req.kind
  key := req.key
  value := req.value
  conditions := req.conditions
  now

/-- The error of a write as `HandleClientPut` and `HandleClientDelete` return it. -/
def WriteRequest.clientError (req : WriteRequest) (err : Error) : Error :=
  let place := s!"on slot {req.slot} version {req.expectedChainVersion}"
  if err.is .conditionFailed then .sentinel .conditionFailed s!"{place} failed"
  else if isAmbiguousWriteCause err then .wrapped s!"{place} may or may not have committed" err
  else err

/-- The write has been given a sequence number. -/
def Request.sequenced (request : Request) : Bool :=
  match request.stage with
  | .submitted (.waiting _) => true
  | _ => false

/-- A crash takes the writes that wait at the node with it. -/
def Request.afterAction (request : Request) (slot : Nat) (action : Action) : Request :=
  if request.req.slot = slot ∧ action = .restart request.node ∧ request.stage = .checked then
    { request with stage := .lost }
  else request

/-! ## The router among the nodes -/

structure World where
  -- One cluster for each slot.
  clusters : Nat → Cluster
  program : Program
  awaiting : Bool := false
  answers : List Reply := []
  requests : List Request := []
  -- What forwards have been answered with.  An owner that is closed answers so at any time.
  told : List Error := [.sentinel .canceled ""]

/-- A forward ends with an error of the transport, or with an answer as a transport carries it. -/
inductive CallFailure where
  | transport (err : TransportError)
  | answered (place : Nat) (carrier : Carrier)

inductive WorldAction where
  | refreshed (reply : Except Error RoutingSnapshot)
  | send
  | arrive (index : Nat)
  | submit (index : Nat) (now : Int)
  | answer
  | fail (err : Error)
  | cluster (slot : Nat) (action : Action)
  | appendFails (slot : Nat) (id : String) (err : JournalError)
  | callFails (slot : Nat) (id : String) (index : Nat) (failure : CallFailure)

namespace World

def initial (config : Nat → String → NodeConfig) (program : Program) : World where
  clusters := fun slot => .initial (config slot)
  program

variable (world : World)

def node (request : Request) : NodeSlot :=
  (world.clusters request.req.slot).nodes request.node

def reply (index : Nat) (request : Request) : Option Reply :=
  match request.stage with
  | .refused err => some (.error err)
  | .submitted (.rejected err) => some (.error (request.req.clientError err))
  | .submitted (.unchanged result) => some (.ok result)
  | .submitted (.waiting result) => do
    let waiter ← (world.node request).waiters[2 * index]?
    let _ ← waiter.operation
    match ← waiter.outcome with
    | none => return .ok result
    | some err => return .error (request.req.clientError err)
  | _ => none

def answered (reply : Reply) : Option World :=
  match world.program with
  | .send _ _ next =>
    if world.awaiting then
      some
        { world with
          program := next reply
          awaiting := false
          answers := world.answers ++ [reply] }
    else none
  | _ => none

def ownSubmit : Action → Bool
  | .node _ (.submitWrite req) => req.call % 2 = 0
  | _ => false

/-- The actions that bring a node an error from outside; what they bring is not left open. -/
def reportsError : Action → Bool
  | .node _ (.flushPrepare (some _)) => true
  | .node _ (.callReturned _ (some _)) => true
  | _ => false

def failure : CallFailure → Option Error
  | .transport err => some err.error
  | .answered place carrier => do carrier.carry (← world.told[place]?)

def moved (resolve : String → String) (slot : Nat) (action : Action) : Option World :=
  ((world.clusters slot).step resolve action).map fun cluster =>
    { world with
      clusters := Function.update world.clusters slot cluster
      requests := world.requests.map (·.afterAction slot action)
      told := world.told ++ (world.clusters slot).forwardAnswers action }

def step (resolve : String → String) (world : World) : WorldAction → Option World
  | .refreshed reply =>
    match world.program with
    | .refresh next => some { world with program := next reply }
    | _ => none
  | .send =>
    match world.program with
    | .send target req _ =>
      if world.awaiting then none
      else
        some
          { world with
            awaiting := true
            requests := world.requests ++ [{ node := resolve target, req }] }
    | _ => none
  | .arrive index => do
    let request ← world.requests[index]?
    if request.stage = .sent then
      let stage :=
        match (world.node request).validateClientWrite request.req.expectedChainVersion with
        | .ok () => Stage.checked
        | .error err => Stage.refused err
      some { world with requests := world.requests.set index { request with stage } }
    else none
  | .submit index now => do
    let request ← world.requests[index]?
    if request.stage = .checked then
      let req := request.req.submit index now
      let cluster ← (world.clusters request.req.slot).step resolve
        (.node request.node (.submitWrite req))
      let stage := Stage.submitted ((world.node request).handleSubmitWrite req).2
      some
        { world with
          clusters := Function.update world.clusters request.req.slot cluster
          requests := world.requests.set index { request with stage } }
    else none
  | .answer => do
    let index := world.requests.length - 1
    let request ← world.requests[index]?
    world.answered (← world.reply index request)
  | .fail err => if isRoutingMismatch err then none else world.answered (.error err)
  | .cluster slot action =>
    if ownSubmit action || reportsError action then none else world.moved resolve slot action
  | .appendFails slot id err =>
    world.moved resolve slot (.node id (.flushPrepare (some err.error)))
  | .callFails slot id index failure => do
    let err ← world.failure failure
    world.moved resolve slot (.node id (.callReturned index (some err)))

end World

/-! ## Errors that are no routing mismatches -/

/-- The errors that do not make the router send again. -/
def plainErrors : ErrorClass where
  holds := fun err => isRoutingMismatch err = false
  wrapped := fun _ _ h => h

theorem plainErrors_local : plainErrors.Local where
  own := fun _ _ => rfl
  fault := fun _ => rfl
  backpressure := fun _ _ _ _ => rfl

theorem isRoutingMismatch_eq (err : Error) :
    isRoutingMismatch err = err.routingMismatch?.isSome := by
  induction err with
  | wrapped context cause ih | readDependency slot version tail cause ih => exact ih
  | _ => rfl

/-- No transport makes a routing mismatch of another answer. -/
theorem carry_plain {carrier : Carrier} {err told : Error} (h : isRoutingMismatch err = false)
    (hcarry : carrier.carry err = some told) : isRoutingMismatch told = false := by
  cases carrier with
  | inMemory =>
    cases hcarry
    exact h
  | stream message =>
    rw [isRoutingMismatch_eq, Option.isSome_eq_false_iff, Option.isNone_iff_eq_none] at h
    simp only [Carrier.carry, Error.streamed, h] at hcarry
    repeat' split at hcarry
    all_goals
      cases hcarry
      try rfl

theorem clientError_plain {req : WriteRequest} {err : Error} (h : isRoutingMismatch err = false) :
    isRoutingMismatch (req.clientError err) = false := by
  rw [WriteRequest.clientError]
  split
  · rfl
  split
  · exact h
  · exact h

section Nodes

variable (n : NodeSlot)

theorem activeRecord_plain : plainErrors.Covers n.activeRecord :=
  .ite (.error rfl) (.ite (.error rfl) (.ite (.error rfl) (.ok _)))

theorem committedMetadataState_plain (key : String) :
    plainErrors.Covers (n.committedMetadataState key) := by
  rw [NodeSlot.committedMetadataState, NodeSlot.getCommitted]
  repeat' split
  all_goals first
    | exact .ok _
    | exact .error rfl

theorem evaluateWriteConditions_plain (conditions : Storage.WriteConditions)
    (current : Option Storage.ObjectMetadata) :
    plainErrors.Covers (Storage.evaluateWriteConditions conditions current) :=
  .ite (.ok _) (.error rfl)

theorem tryAdmitNodeClientWrite_plain (current : Nat) :
    plainErrors.Covers (n.tryAdmitNodeClientWrite current) :=
  .ite (.error rfl) (.ite (.error rfl) (.ok _))

theorem rejected_plain {req : SubmitRequest} {err : Error}
    (h : (n.handleSubmitWrite req).2 = .rejected err) : isRoutingMismatch err = false := by
  simp only [NodeSlot.handleSubmitWrite] at h
  split at h
  · rename_i cause hactive
    cases h
    exact activeRecord_plain n err hactive
  split at h
  · cases h
    rfl
  split at h
  · rename_i cause hcommitted
    cases h
    exact committedMetadataState_plain n req.key err hcommitted
  split at h
  · rename_i cause hconditions
    cases h
    exact evaluateWriteConditions_plain _ _ err hconditions
  split at h
  · cases h
  split at h
  · rename_i cause hadmit
    cases h
    exact tryAdmitNodeClientWrite_plain _ _ err hadmit
  · cases h

end Nodes

/-! ## What holds along a run -/

def Request.isRefused (request : Request) : Prop :=
  ∃ err, request.stage = .refused err

namespace World

structure Inv (world : World) : Prop where
  clusters : ∀ slot, (world.clusters slot).Holds (fun _ => True) plainErrors
  sent : world.requests.length = world.answers.length + world.awaiting.toNat
  -- The router goes on as long as it has only been told of wrong routes.
  cautious : ∃ count, Cautious count world.program ∧ world.answers.length + count ≤ 2 ∧
    (count = 0 ∨ ∀ reply ∈ world.answers, Mismatched reply)
  sending : world.awaiting = true → ∃ target req next, world.program = .send target req next
  earlier : ∀ reply ∈ world.answers.dropLast, Mismatched reply
  refused : ∀ (index : Nat) (reply : Reply), world.answers[index]? = some reply →
    Mismatched reply → ∃ request, world.requests[index]? = some request ∧ request.isRefused
  rejected : ∀ request ∈ world.requests, ∀ err, request.stage = .submitted (.rejected err) →
    isRoutingMismatch err = false
  told : ∀ err ∈ world.told, isRoutingMismatch err = false

variable {resolve : String → String} {world next : World}

theorem Inv.initial (config : Nat → String → NodeConfig) {program : Program}
    (h : Cautious 2 program) : Inv (initial config program) where
  clusters := fun slot => Cluster.Holds.initial (config slot)
  sent := rfl
  cautious := ⟨2, h, Nat.le_refl 2, .inr fun _ hmem => absurd hmem List.not_mem_nil⟩
  sending := fun hawaiting => absurd hawaiting Bool.false_ne_true
  earlier := fun _ hmem => absurd hmem List.not_mem_nil
  refused := by
    intro index reply hreply
    simp [World.initial] at hreply
  rejected := fun _ hmem => absurd hmem List.not_mem_nil
  told := List.forall_mem_singleton.mpr rfl

theorem Inv.requests {clusters : Nat → Cluster} {requests : List Request} {told : List Error}
    (h : Inv world)
    (hclusters : ∀ slot, (clusters slot).Holds (fun _ => True) plainErrors)
    (length : requests.length = world.requests.length)
    (kept : ∀ (index : Nat) (request : Request), world.requests[index]? = some request →
      request.isRefused → requests[index]? = some request)
    (rejected : ∀ request ∈ requests, ∀ err, request.stage = .submitted (.rejected err) →
      isRoutingMismatch err = false)
    (htold : ∀ err ∈ told, isRoutingMismatch err = false) :
    Inv { world with clusters, requests, told } where
  clusters := hclusters
  sent := length.trans h.sent
  cautious := h.cautious
  sending := h.sending
  earlier := h.earlier
  refused := by
    intro index reply hreply hmismatched
    obtain ⟨request, hrequest, hrefused⟩ := h.refused index reply hreply hmismatched
    exact ⟨request, kept index request hrequest hrefused, hrefused⟩
  rejected := rejected
  told := htold

variable {index : Nat} {reply : Reply}

theorem Inv.set {clusters : Nat → Cluster} {request moved : Request} (h : Inv world)
    (hclusters : ∀ slot, (clusters slot).Holds (fun _ => True) plainErrors)
    (hrequest : world.requests[index]? = some request) (unrefused : ¬request.isRefused)
    (rejected : ∀ err, moved.stage = .submitted (.rejected err) → isRoutingMismatch err = false) :
    Inv { world with clusters, requests := world.requests.set index moved } := by
  apply h.requests hclusters
  · exact List.length_set
  · intro other held hheld hrefused
    have hne : index ≠ other := by
      rintro rfl
      rw [hrequest] at hheld
      exact unrefused (Option.some.inj hheld ▸ hrefused)
    rw [List.getElem?_set_ne hne]
    exact hheld
  · intro other hmem
    rcases List.mem_or_eq_of_mem_set hmem with hmem | rfl
    · exact h.rejected other hmem
    · exact rejected
  · exact h.told

theorem Inv.update {slot : Nat} {cluster : Cluster} (h : Inv world)
    (hcluster : cluster.Holds (fun _ => True) plainErrors) (other : Nat) :
    (Function.update world.clusters slot cluster other).Holds (fun _ => True) plainErrors := by
  by_cases hother : other = slot
  · subst hother
    rw [Function.update_self]
    exact hcluster
  · rw [Function.update_of_ne hother]
    exact h.clusters other

theorem Inv.reply_refused {request : Request} (h : Inv world) (hmem : request ∈ world.requests)
    (hreply : world.reply index request = some reply) (hmismatched : Mismatched reply) :
    request.isRefused := by
  have told : ∀ err, isRoutingMismatch err = false →
      ¬Mismatched (.error (request.req.clientError err)) := by
    intro err hplain hmismatch
    exact absurd (hmismatch.symm.trans (clientError_plain hplain)) nofun
  simp only [World.reply] at hreply
  split at hreply
  · rename_i err hstage
    exact ⟨err, hstage⟩
  · rename_i err hstage
    cases hreply
    exact absurd hmismatched (told err (h.rejected request hmem err hstage))
  · cases hreply
    exact hmismatched.elim
  · obtain ⟨waiter, hwaiter, hreply⟩ := Option.bind_eq_some_iff.mp hreply
    obtain ⟨operation, hoperation, hreply⟩ := Option.bind_eq_some_iff.mp hreply
    obtain ⟨outcome, houtcome, hreply⟩ := Option.bind_eq_some_iff.mp hreply
    cases outcome with
    | none =>
      cases hreply
      exact hmismatched.elim
    | some err =>
      cases hreply
      have held := ((h.clusters request.req.slot).nodes request.node).waiters _ waiter hwaiter
      rcases held err houtcome with hnone | hplain
      · rw [hoperation] at hnone
        cases hnone
      · exact absurd hmismatched (told err hplain)
  · cases hreply

theorem answered_eq_some (hstep : world.answered reply = some next) :
    ∃ target req later, world.program = .send target req later ∧ world.awaiting = true ∧
      next =
        { world with
          program := later reply
          awaiting := false
          answers := world.answers ++ [reply] } := by
  simp only [World.answered] at hstep
  split at hstep
  · rename_i target req later hprogram
    rw [Option.ite_none_right_eq_some] at hstep
    exact ⟨target, req, later, hprogram, hstep.1, (Option.some.inj hstep.2).symm⟩
  · cases hstep

section

variable (h : Inv world)

include h

theorem Inv.answered (hstep : world.answered reply = some next)
    (hrefused : Mismatched reply → ∃ request,
      world.requests[world.requests.length - 1]? = some request ∧ request.isRefused) :
    Inv next := by
  obtain ⟨target, req, later, hprogram, hawaiting, rfl⟩ := answered_eq_some hstep
  have hsent : world.requests.length = world.answers.length + 1 := by
    rw [h.sent, hawaiting]
    rfl
  obtain ⟨count, hcautious, hcount, hanswers⟩ := h.cautious
  rw [hprogram] at hcautious
  cases hcautious with
  | @send count _ _ _ mismatched otherwise =>
    have wrong : ∀ reply ∈ world.answers, Mismatched reply := hanswers.resolve_left nofun
    refine ⟨h.clusters, ?_, ?_, nofun, ?_, ?_, h.rejected, h.told⟩
    · simp [hsent]
    · simp only [List.length_append, List.length_singleton]
      by_cases hreply : Mismatched reply
      · refine ⟨count, mismatched reply hreply, by omega, .inr ?_⟩
        intro other hother
        rcases List.mem_append.mp hother with hother | hother
        · exact wrong other hother
        · rw [List.mem_singleton.mp hother]
          exact hreply
      · exact ⟨0, otherwise reply hreply, by omega, .inl rfl⟩
    · rw [List.dropLast_concat]
      exact wrong
    · intro index other hother hmismatched
      rcases Nat.lt_or_ge index world.answers.length with hlt | hge
      · rw [List.getElem?_append_left hlt] at hother
        exact h.refused index other hother hmismatched
      · have hlast := (List.getElem?_eq_some_iff.mp hother).1
        rw [List.length_append, List.length_singleton] at hlast
        obtain rfl : index = world.answers.length := by omega
        rw [List.getElem?_concat_length] at hother
        cases hother
        rw [hsent] at hrefused
        exact hrefused hmismatched

/-! ## Steps -/

theorem Inv.refreshed {reply : Except Error RoutingSnapshot}
    (hstep : world.step resolve (.refreshed reply) = some next) : Inv next := by
  simp only [World.step] at hstep
  split at hstep
  · rename_i later hprogram
    cases hstep
    obtain ⟨count, hcautious, hcount, hanswers⟩ := h.cautious
    rw [hprogram] at hcautious
    cases hcautious with
    | refresh goesOn =>
      refine ⟨h.clusters, h.sent, ⟨count, goesOn reply, hcount, hanswers⟩, ?_, h.earlier, h.refused,
        h.rejected, h.told⟩
      intro hawaiting
      obtain ⟨target, req, other, hsend⟩ := h.sending hawaiting
      rw [hprogram] at hsend
      cases hsend
  · cases hstep

theorem Inv.send (hstep : world.step resolve .send = some next) : Inv next := by
  simp only [World.step] at hstep
  split at hstep
  · rename_i target req later hprogram
    rw [Option.ite_none_left_eq_some] at hstep
    obtain ⟨hidle, hstep⟩ := hstep
    cases hstep
    refine ⟨h.clusters, ?_, h.cautious, fun _ => ⟨target, req, later, hprogram⟩, h.earlier, ?_,
      ?_, h.told⟩
    · simp [h.sent, hidle]
    · intro index reply hreply hmismatched
      obtain ⟨request, hrequest, hrefused⟩ := h.refused index reply hreply hmismatched
      refine ⟨request, ?_, hrefused⟩
      rw [List.getElem?_append_left (List.getElem?_eq_some_iff.mp hrequest).1]
      exact hrequest
    · intro request hmem err hstage
      rcases List.mem_append.mp hmem with hmem | hmem
      · exact h.rejected request hmem err hstage
      · rw [List.mem_singleton.mp hmem] at hstage
        cases hstage
  · cases hstep

theorem Inv.arrive (hstep : world.step resolve (.arrive index) = some next) : Inv next := by
  obtain ⟨request, hrequest, hstep⟩ := Option.bind_eq_some_iff.mp hstep
  rw [Option.ite_none_right_eq_some] at hstep
  obtain ⟨hstage, hstep⟩ := hstep
  cases hstep
  apply h.set h.clusters hrequest
  · rintro ⟨err, herr⟩
    rw [hstage] at herr
    cases herr
  · intro err herr
    simp only at herr
    split at herr <;> cases herr

theorem Inv.submit {now : Int} (hstep : world.step resolve (.submit index now) = some next) :
    Inv next := by
  obtain ⟨request, hrequest, hstep⟩ := Option.bind_eq_some_iff.mp hstep
  rw [Option.ite_none_right_eq_some] at hstep
  obtain ⟨hstage, hstep⟩ := hstep
  obtain ⟨cluster, hcluster, hstep⟩ := Option.bind_eq_some_iff.mp hstep
  cases hstep
  apply h.set
  · apply h.update
    refine (h.clusters request.req.slot).step ?_ hcluster
    intro id event haction
    cases haction
    exact .of_own plainErrors_local.own (fun _ _ _ _ => trivial) nofun nofun
  · exact hrequest
  · rintro ⟨err, herr⟩
    rw [hstage] at herr
    cases herr
  · intro err herr
    exact rejected_plain _ (Stage.submitted.inj herr)

theorem Inv.moved {slot : Nat} {action : Action}
    (flushed : ∀ id err, action = .node id (.flushPrepare (some err)) →
      isRoutingMismatch err = false)
    (returned : ∀ id index err, action = .node id (.callReturned index (some err)) →
      isRoutingMismatch err = false) (hstep : world.moved resolve slot action = some next) :
    Inv next := by
  obtain ⟨cluster, hcluster, rfl⟩ := Option.map_eq_some_iff.mp hstep
  apply h.requests
  · apply h.update
    refine (h.clusters slot).step ?_ hcluster
    rintro id event rfl
    refine .of_own plainErrors_local.own (fun _ _ _ _ => trivial) ?_ ?_
    · rintro err rfl
      exact flushed id err rfl
    · rintro index err rfl
      exact returned id index err rfl
  · exact List.length_map _
  · intro index request hrequest hrefused
    obtain ⟨err, hstage⟩ := hrefused
    rw [List.getElem?_map, hrequest, Option.map_some, Request.afterAction, if_neg]
    rintro ⟨-, -, hchecked⟩
    rw [hstage] at hchecked
    cases hchecked
  · intro moved hmem err hstage
    obtain ⟨request, hrequest, rfl⟩ := List.mem_map.mp hmem
    apply h.rejected request hrequest err
    rw [Request.afterAction] at hstage
    split at hstage
    · cases hstage
    · exact hstage
  · refine List.forall_mem_append.mpr ⟨h.told, ?_⟩
    cases action with
    | node id event =>
      refine plainErrors_local.forwardAnswers ((h.clusters slot).nodes id) ?_
      rintro index err rfl
      exact returned id index err rfl
    | _ => exact List.forall_mem_nil _

theorem Inv.failure_plain {failure : CallFailure} {err : Error}
    (hfailure : world.failure failure = some err) : isRoutingMismatch err = false := by
  cases failure with
  | transport cause =>
    cases hfailure
    exact plainErrors_local.transport cause
  | answered place carrier =>
    obtain ⟨answer, hanswer, hcarry⟩ := Option.bind_eq_some_iff.mp hfailure
    exact carry_plain (h.told answer (List.mem_of_getElem? hanswer)) hcarry

theorem Inv.step {action : WorldAction} (hstep : world.step resolve action = some next) :
    Inv next := by
  cases action with
  | refreshed reply => exact h.refreshed hstep
  | send => exact h.send hstep
  | arrive index => exact h.arrive hstep
  | submit index now => exact h.submit hstep
  | answer =>
    obtain ⟨request, hrequest, hstep⟩ := Option.bind_eq_some_iff.mp hstep
    obtain ⟨reply, hreply, hstep⟩ := Option.bind_eq_some_iff.mp hstep
    apply h.answered hstep
    intro hmismatched
    exact ⟨request, hrequest, h.reply_refused (List.mem_of_getElem? hrequest) hreply hmismatched⟩
  | fail err =>
    simp only [World.step, Option.ite_none_left_eq_some] at hstep
    apply h.answered hstep.2
    intro hmismatched
    exact absurd hmismatched hstep.1
  | cluster slot action =>
    simp only [World.step, Option.ite_none_left_eq_some, Bool.or_eq_true, not_or] at hstep
    refine h.moved ?_ ?_ hstep.2
    · rintro id err rfl
      exact absurd rfl hstep.1.2
    · rintro id index err rfl
      exact absurd rfl hstep.1.2
  | appendFails slot id cause =>
    refine h.moved ?_ (by rintro _ _ _ ⟨⟩) hstep
    rintro _ err ⟨⟩
    exact plainErrors_local.journal cause
  | callFails slot id index failure =>
    obtain ⟨cause, hfailure, hstep⟩ := Option.bind_eq_some_iff.mp hstep
    refine h.moved (by rintro _ _ ⟨⟩) ?_ hstep
    rintro _ _ err ⟨⟩
    exact h.failure_plain hfailure

/-! ## The result -/

/-- While an answer is awaited, every answer before it was a routing mismatch. -/
theorem Inv.awaiting_first (hawaiting : world.awaiting = true) :
    world.answers.length ≤ 1 ∧ ∀ reply ∈ world.answers, Mismatched reply := by
  obtain ⟨target, req, later, hprogram⟩ := h.sending hawaiting
  obtain ⟨count, hcautious, hcount, hanswers⟩ := h.cautious
  rw [hprogram] at hcautious
  cases hcautious with
  | @send count _ _ _ mismatched otherwise => exact ⟨by omega, hanswers.resolve_left nofun⟩

theorem Inv.length_le : world.requests.length ≤ 2 := by
  rw [h.sent]
  cases hawaiting : world.awaiting with
  | true =>
    have := (h.awaiting_first hawaiting).1
    simpa using this
  | false =>
    obtain ⟨count, -, hcount, -⟩ := h.cautious
    simp only [Bool.toNat_false]
    omega

theorem Inv.first_mismatched (hsecond : 1 < world.requests.length) :
    ∃ err rest, world.answers = .error err :: rest ∧ isRoutingMismatch err = true := by
  have first : ∃ reply rest, world.answers = reply :: rest ∧ Mismatched reply := by
    rw [h.sent] at hsecond
    cases hanswers : world.answers with
    | nil =>
      rw [hanswers] at hsecond
      cases hawaiting : world.awaiting <;> rw [hawaiting] at hsecond <;> simp at hsecond
    | cons reply rest =>
      refine ⟨reply, rest, rfl, ?_⟩
      cases hawaiting : world.awaiting with
      | true =>
        apply (h.awaiting_first hawaiting).2
        rw [hanswers]
        exact List.mem_cons_self
      | false =>
        apply h.earlier
        rw [hanswers, hawaiting] at hsecond
        cases rest with
        | nil => simp at hsecond
        | cons other rest =>
          rw [hanswers, List.dropLast_cons_cons]
          exact List.mem_cons_self
  obtain ⟨reply, rest, hanswers, hmismatched⟩ := first
  cases reply with
  | ok result => exact hmismatched.elim
  | error err => exact ⟨err, rest, hanswers, hmismatched⟩

theorem Inv.sequenced_le : world.requests.countP Request.sequenced ≤ 1 := by
  by_cases hsecond : 1 < world.requests.length
  · obtain ⟨err, rest, hanswers, hmismatch⟩ := h.first_mismatched hsecond
    have hfirst : world.answers[0]? = some (.error err) := by rw [hanswers]; rfl
    obtain ⟨request, hrequest, refusal, hstage⟩ := h.refused 0 _ hfirst hmismatch
    have hlength := h.length_le
    match hrequests : world.requests with
    | [] => simp
    | [_] => exact List.countP_le_length
    | [held, second] =>
      rw [hrequests] at hrequest
      cases hrequest
      have unsequenced : request.sequenced = false := by simp [Request.sequenced, hstage]
      rw [List.countP_cons_of_neg (by simp [unsequenced])]
      exact List.countP_le_length
    | _ :: _ :: _ :: _ =>
      rw [hrequests] at hlength
      simp at hlength
  · exact List.countP_le_length.trans (Nat.le_of_not_lt hsecond)

end

/-- In every run a call of the router sends at most two requests, the second only after the first was
answered with a routing mismatch, and at most one of them is given a sequence number. -/
theorem router_call_writes_once {config : Nat → String → NodeConfig} {checksum : String → Nat}
    {loaded : Option RoutingSnapshot} {call : Call}
    (hRun : Reaches (World.step resolve) (fun _ _ => True)
      (World.initial config (call.program checksum loaded)) world) :
    world.requests.length ≤ 2 ∧
      (1 < world.requests.length →
        ∃ err rest, world.answers = .error err :: rest ∧ isRoutingMismatch err = true) ∧
      world.requests.countP Request.sequenced ≤ 1 := by
  have inv : Inv world := by
    apply hRun.invariant
    · exact .initial config (call.cautious checksum loaded)
    · exact fun _ _ _ inv _ hstep => inv.step hstep
  exact ⟨inv.length_le, inv.first_mismatched, inv.sequenced_le⟩

/-! ## A call that is sent twice -/

def routedTo (chainVersion : Nat) : RoutingSnapshot where
  version := chainVersion
  slotCount := 1
  slots := [{ slot := 0, chainVersion, headNodeID := "a", writable := true }]

/-- The router has an old snapshot.  Its second request is sequenced, and the head's forward of it ends
with an error. -/
def staleThenRefreshed : List WorldAction :=
  Storage.joinTwo.map (.cluster 0) ++
    [.send, .arrive 0, .answer, .refreshed (.ok (routedTo 1)), .send, .arrive 1, .submit 1 0,
      .callFails 0 "a" 0 (.answered 0 .inMemory), .answer]

def staleCall : Program :=
  Call.program (fun _ => 0) (some (routedTo 0)) (.put "k" "x")

theorem staleThenRefreshed_runs :
    (run (step id) staleThenRefreshed
      (initial (fun _ => Storage.plainConfig) staleCall)).isSome = true := by
  decide +kernel

theorem stale_call_writes_once :
    ∃ world : World, world.requests.length = 2 ∧ world.answers.length = 2 ∧
      world.requests.countP Request.sequenced = 1 ∧
      (world.requests.length ≤ 2 ∧
        (1 < world.requests.length →
          ∃ err rest, world.answers = .error err :: rest ∧ isRoutingMismatch err = true) ∧
        world.requests.countP Request.sequenced ≤ 1) := by
  have reached : Reaches (step id) (fun _ _ => True) (initial (fun _ => Storage.plainConfig)
      (Call.program (fun _ => 0) (some (routedTo 0)) (.put "k" "x"))) _ :=
    .of_isSome staleThenRefreshed_runs
  refine ⟨_, ?_, ?_, ?_, router_call_writes_once reached⟩
  · decide +kernel
  · decide +kernel
  · decide +kernel

end World

end Craq.Client
