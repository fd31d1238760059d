import Craq.Lib.Run
import Craq.Storage.Effects

/-! # Admitting client writes

A node counts the client writes it has admitted.  The owner of the slot admits a write and later
takes it off the count, both times as a request in its mailbox; in between the call of the client
waits on its own.  When the replica is removed its owner ends, and what is sent to it after that is
refused or lies in a mailbox nobody reads.
-/

namespace Craq.Storage

open Lib (Reaches run)

/-! ## The calls and the owners -/

/-- Where a call of a client stands: its request is in the mailbox, it waits for its write, its
release is in the mailbox, or it has returned. -/
inductive CallPhase where
  | submitting
  | waiting
  | releasing
  | returned
deriving DecidableEq, Repr

-- `owner` is the owner the call was given to, counted among the owners of the slot.
structure WriteCall where
  slot : Nat
  owner : Nat
  phase : CallPhase
deriving DecidableEq, Repr

/-- The write was admitted and the call has not returned. -/
def WriteCall.running (call : WriteCall) : Bool :=
  decide (call.phase = .waiting) || decide (call.phase = .releasing)

inductive OwnerRequest where
  | submit (req : SubmitRequest)
  | release (call : Nat)
deriving DecidableEq, Repr

namespace OwnerRequest

def call : OwnerRequest → Nat
  | .submit req => req.call
  | .release call => call

def phase : OwnerRequest → CallPhase
  | .submit _ => .submitting
  | .release _ => .releasing

end OwnerRequest

structure SlotOwner where
  node : NodeSlot
  number : Nat := 0
  mailbox : List OwnerRequest := []

structure WriteNode where
  inFlightClientWrites : Nat := 0
  owners : Nat → SlotOwner
  calls : List WriteCall := []

inductive WriteEvent where
  -- A client calls; its request goes to the owner of the slot.
  | submitWrite (slot : Nat) (req : SubmitRequest)
  -- The owner takes the next request.
  | takeRequest (slot : Nat)
  -- The write is committed or has failed, or its context has ended.
  | release (call : Nat)
  -- The same, and the owner is gone.
  | releaseRefused (call : Nat)
  -- Anything else at a slot.
  | other (slot : Nat) (input : NodeInput)

/-- The inputs of a slot that neither admit nor release a write and leave the node open. -/
def NodeInput.aside : NodeInput → Bool
  | .event (.submitWrite _) | .event .releaseClientWrite | .restart => false
  | _ => true

def SubmitResponse.admitted : SubmitResponse → Bool
  | .waiting _ => true
  | _ => false

namespace WriteNode

variable (node : WriteNode)

def replica (slot : Nat) : NodeSlot :=
  let n := (node.owners slot).node
  { n with load := { n.load with inFlightClientWrites := node.inFlightClientWrites } }

def submitWrite (slot : Nat) (req : SubmitRequest) : WriteNode :=
  let owner := node.owners slot
  let call := node.calls.length
  { node with
    owners := Function.update node.owners slot
      { owner with mailbox := owner.mailbox ++ [.submit { req with call }] }
    calls := node.calls ++ [{ slot, owner := owner.number, phase := .submitting }] }

/-- The owner has done the first request of its mailbox, and with it the call goes on. -/
def answer (slot : Nat) (next : NodeSlot) (rest : List OwnerRequest) (id : Nat) (call : WriteCall)
    (phase : CallPhase) : WriteNode where
  inFlightClientWrites := next.load.inFlightClientWrites
  owners := Function.update node.owners slot
    { node.owners slot with node := next, mailbox := rest }
  calls := node.calls.set id { call with phase }

def takeRequest (slot : Nat) : Option WriteNode :=
  let n := node.replica slot
  match (node.owners slot).mailbox with
  | [] => none
  | .submit req :: rest => do
    let call ← node.calls[req.call]?
    let next ← n.step (.submitWrite req)
    let phase := if (n.handleSubmitWrite req).2.admitted then .waiting else .returned
    return node.answer slot next rest req.call call phase
  | .release id :: rest => do
    let call ← node.calls[id]?
    let next ← n.step .releaseClientWrite
    return node.answer slot next rest id call .returned

/-- The mailbox of an owner that is gone takes a request and never gives it back. -/
def release (id : Nat) : Option WriteNode :=
  match node.calls[id]? with
  | none => none
  | some call =>
    let owner := node.owners call.slot
    if call.phase ≠ .waiting then none
    else
      some
        { node with
          owners :=
            if call.owner = owner.number then
              Function.update node.owners call.slot
                { owner with mailbox := owner.mailbox ++ [.release id] }
            else node.owners
          calls := node.calls.set id { call with phase := .releasing } }

def releaseRefused (id : Nat) : Option WriteNode :=
  match node.calls[id]? with
  | none => none
  | some call =>
    if call.phase ≠ .waiting ∨ call.owner = (node.owners call.slot).number then none
    else some { node with calls := node.calls.set id { call with phase := .returned } }

def evicts (slot : Nat) (input : NodeInput) : Bool :=
  let n := node.replica slot
  !n.closing && (n.take input).any (·.closing)

/-- The next owner of a slot starts with an empty mailbox. -/
def other (slot : Nat) (input : NodeInput) : Option WriteNode :=
  let owner := node.owners slot
  if !input.aside then none
  else
    ((node.replica slot).take input).map fun next =>
      { node with
        owners := Function.update node.owners slot
          (if node.evicts slot input then { node := next, number := owner.number + 1 }
          else { owner with node := next }) }

def step : WriteEvent → Option WriteNode
  | .submitWrite slot req => some (node.submitWrite slot req)
  | .takeRequest slot => node.takeRequest slot
  | .release call => node.release call
  | .releaseRefused call => node.releaseRefused call
  | .other slot input => node.other slot input

end WriteNode

/-! ## What a request does to the count -/

namespace NodeSlot

variable {n next : NodeSlot}

theorem startWrite_load (record : ReplicaRecord) (operation : WriteOperation) (call : Nat) :
    (n.startWrite record operation call).load = n.load := by
  unfold startWrite
  split
  · rfl
  · split
    · rfl
    · rename_i hsuccessor
      simp only [startPreparedForwardPipeline, dispatchForward]
      rw [if_neg hsuccessor]
      rfl
  · rfl

theorem handleSubmitWrite_load (n : NodeSlot) (req : SubmitRequest) :
    (n.handleSubmitWrite req).1.load.inFlightClientWrites =
      n.load.inFlightClientWrites + if (n.handleSubmitWrite req).2.admitted then 1 else 0 := by
  unfold handleSubmitWrite
  split
  · rfl
  split
  · rfl
  split
  · rfl
  simp only
  split
  · rfl
  split
  · rfl
  split
  · rfl
  · simp only [acceptWrite, startWrite_load]
    rfl

theorem submitWrite_load (n : NodeSlot) (req : SubmitRequest) :
    (n.submitWrite req).load = (n.handleSubmitWrite req).1.load := by
  unfold submitWrite
  split <;> rename_i h <;> rw [h]

theorem eq_of_whenOpen {started : NodeSlot} (h : n.whenOpen started = some next) :
    next = started := by
  simp only [whenOpen, whenIdle, Option.ite_none_left_eq_some, Option.ite_none_right_eq_some,
    Option.some.injEq] at h
  exact h.2.2.symm

theorem step_submitWrite_load {req : SubmitRequest} (h : n.step (.submitWrite req) = some next) :
    next.load.inFlightClientWrites =
      n.load.inFlightClientWrites + if (n.handleSubmitWrite req).2.admitted then 1 else 0 := by
  simp only [step, Option.ite_none_left_eq_some] at h
  rw [eq_of_whenOpen h.2, submitWrite_load, handleSubmitWrite_load]

theorem step_releaseClientWrite_load (h : n.step .releaseClientWrite = some next) :
    next.load.inFlightClientWrites = n.load.inFlightClientWrites - 1 := by
  rw [eq_of_whenOpen h, releaseClientWrite]
  simp only
  split <;> rfl

end NodeSlot

/-! ## The invariant -/

/-- The count is that of the calls that run; they are all known to the present owner of their slot,
and the requests in a mailbox are those of calls that wait for them, one each. -/
structure WriteNode.Counts (node : WriteNode) : Prop where
  count : node.inFlightClientWrites = node.calls.countP (·.running)
  live : ∀ (id : Nat) (call : WriteCall), node.calls[id]? = some call → call.running = true →
    call.owner = (node.owners call.slot).number
  queued : ∀ slot, ∀ request ∈ (node.owners slot).mailbox, ∃ call,
    node.calls[request.call]? = some call ∧ call.slot = slot ∧
      call.owner = (node.owners slot).number ∧ call.phase = request.phase
  once : ∀ slot, ((node.owners slot).mailbox.map (·.call)).Nodup

/-- The condition on the steps: an owner ends only when no write it has admitted is still on its
way. -/
def WriteNode.Allows (node : WriteNode) : WriteEvent → Prop
  | .other slot input =>
    node.evicts slot input = true → ∀ call ∈ node.calls, call.slot = slot → call.running = false
  | _ => True

namespace WriteNode.Counts

variable {node next : WriteNode} {id slot : Nat} {call : WriteCall}

theorem countP_set {calls : List WriteCall} {changed : WriteCall} (hcall : calls[id]? = some call) :
    (calls.set id changed).countP (·.running) + (if call.running then 1 else 0) =
      calls.countP (·.running) + if changed.running then 1 else 0 := by
  obtain ⟨hlt, rfl⟩ := List.getElem?_eq_some_iff.mp hcall
  have counted : calls[id].running = true → 0 < calls.countP (·.running) := fun h =>
    List.countP_pos_iff.mpr ⟨_, List.getElem_mem hlt, h⟩
  rw [List.countP_set hlt]
  by_cases hrunning : calls[id].running = true
  · have := counted hrunning
    simp only [hrunning, if_true]
    omega
  · simp only [hrunning, Bool.false_eq_true, if_false]
    omega

variable (h : node.Counts)

include h

theorem move {phase : CallPhase} (hcall : node.calls[id]? = some call)
    (hcalls : next.calls = node.calls.set id { call with phase })
    (hcount : next.inFlightClientWrites + (if call.running then 1 else 0) =
      node.inFlightClientWrites + if ({ call with phase } : WriteCall).running then 1 else 0)
    (hnumber : ∀ slot, (next.owners slot).number = (node.owners slot).number)
    (howner : call.owner = (node.owners call.slot).number)
    (hmailbox : ∀ slot, ∀ request ∈ (next.owners slot).mailbox,
      request ∈ (node.owners slot).mailbox ∧ request.call ≠ id ∨
        request.call = id ∧ slot = call.slot ∧ request.phase = phase)
    (honce : ∀ slot, ((next.owners slot).mailbox.map (·.call)).Nodup) : next.Counts where
  count := by
    have counted := @countP_set id call node.calls { call with phase } hcall
    rw [hcalls]
    have := h.count
    omega
  live := by
    intro other held hheld hrunning
    rw [hcalls, List.getElem?_set] at hheld
    rw [hnumber]
    split at hheld
    · split at hheld
      · cases hheld
        exact howner
      · exact absurd hheld nofun
    · exact h.live other held hheld hrunning
  queued := by
    intro slot request hrequest
    rw [hcalls, hnumber]
    rcases hmailbox slot request hrequest with ⟨hold, hother⟩ | ⟨rfl, rfl, hphase⟩
    · rw [List.getElem?_set_ne hother.symm]
      exact h.queued slot request hold
    · refine ⟨{ call with phase }, ?_, rfl, howner, hphase.symm⟩
      exact List.getElem?_set_self (List.getElem?_eq_some_iff.mp hcall).1
  once := honce

theorem submitWrite (slot : Nat) (req : SubmitRequest) : (node.submitWrite slot req).Counts := by
  let submitted : OwnerRequest := .submit { req with call := node.calls.length }
  -- The new call has a number that no request in a mailbox has.
  have bounded {other : Nat} {request : OwnerRequest}
      (hrequest : request ∈ (node.owners other).mailbox) : request.call < node.calls.length := by
    obtain ⟨call, hcall, -⟩ := h.queued other request hrequest
    exact (List.getElem?_eq_some_iff.mp hcall).1
  have mailbox (other : Nat) : ((node.submitWrite slot req).owners other).mailbox =
      if other = slot then (node.owners slot).mailbox ++ [submitted]
      else (node.owners other).mailbox := by
    rw [WriteNode.submitWrite]
    by_cases hslot : other = slot
    · rw [if_pos hslot, hslot]
      simp [Function.update_self, submitted]
    · simp [hslot]
  have number (other : Nat) : ((node.submitWrite slot req).owners other).number =
      (node.owners other).number := by
    rw [WriteNode.submitWrite]
    by_cases hslot : other = slot
    · rw [hslot]
      simp [Function.update_self]
    · simp [hslot]
  have calls : (node.submitWrite slot req).calls =
      node.calls ++ [{ slot, owner := (node.owners slot).number, phase := .submitting }] :=
    rfl
  constructor
  · rw [calls, List.countP_append]
    exact h.count
  · intro id call hcall hrunning
    rw [number]
    rw [calls] at hcall
    rcases Nat.lt_or_ge id node.calls.length with hlt | hge
    · rw [List.getElem?_append_left hlt] at hcall
      exact h.live id call hcall hrunning
    · obtain ⟨hid, -⟩ := List.getElem?_eq_some_iff.mp hcall
      have hlast : id = node.calls.length := by
        rw [List.length_append, List.length_singleton] at hid
        omega
      rw [hlast, List.getElem?_concat_length] at hcall
      cases hcall
      exact absurd hrunning nofun
  · intro other request hrequest
    rw [mailbox] at hrequest
    rw [number, calls]
    split at hrequest
    · rename_i hslot
      subst hslot
      rcases List.mem_append.mp hrequest with hold | hnew
      · rw [List.getElem?_append_left (bounded hold)]
        exact h.queued other request hold
      · cases List.mem_singleton.mp hnew
        exact ⟨_, List.getElem?_concat_length, rfl, rfl, rfl⟩
    · rw [List.getElem?_append_left (bounded hrequest)]
      exact h.queued other request hrequest
  · intro other
    rw [mailbox]
    split
    · rw [List.map_append, List.map_singleton, List.nodup_append]
      refine ⟨h.once slot, List.nodup_singleton _, ?_⟩
      intro id hid last hlast heq
      obtain ⟨request, hrequest, rfl⟩ := List.mem_map.mp hid
      have hlt := bounded hrequest
      rw [List.mem_singleton] at hlast
      rw [heq, hlast] at hlt
      exact absurd hlt (lt_irrefl _)
    · exact h.once other

/-- The owner has done a request that moves the count by what the call is counted for. -/
theorem answer {request : OwnerRequest} {rest : List OwnerRequest} {next : NodeSlot}
    {phase : CallPhase} (hmailbox : (node.owners slot).mailbox = request :: rest)
    (hcall : node.calls[request.call]? = some call)
    (hload : next.load.inFlightClientWrites + (if call.running then 1 else 0) =
      node.inFlightClientWrites + if ({ call with phase } : WriteCall).running then 1 else 0) :
    (node.answer slot next rest request.call call phase).Counts := by
  obtain ⟨held, hheld, hslot, howner, -⟩ := h.queued slot request (hmailbox ▸ List.mem_cons_self)
  cases hheld.symm.trans hcall
  have distinct := h.once slot
  rw [hmailbox, List.map_cons, List.nodup_cons] at distinct
  have mailbox (other : Nat) :
      ((node.answer slot next rest request.call call phase).owners other).mailbox =
        if other = slot then rest else (node.owners other).mailbox := by
    rw [WriteNode.answer]
    by_cases hother : other = slot
    · rw [if_pos hother, hother]
      simp [Function.update_self]
    · simp [hother]
  apply h.move hcall rfl hload
  · intro other
    rw [WriteNode.answer]
    by_cases hother : other = slot
    · rw [hother]
      simp [Function.update_self]
    · simp [hother]
  · rw [hslot]
    exact howner
  · intro other queued hqueued
    rw [mailbox] at hqueued
    left
    split at hqueued
    · rename_i hother
      rw [hother, hmailbox]
      refine ⟨List.mem_cons_of_mem _ hqueued, ?_⟩
      intro heq
      exact distinct.1 (heq ▸ List.mem_map_of_mem hqueued)
    · rename_i hother
      refine ⟨hqueued, ?_⟩
      intro heq
      obtain ⟨found, hfound, hplace, -⟩ := h.queued other queued hqueued
      rw [heq] at hfound
      cases hfound.symm.trans hcall
      exact hother (hplace.symm.trans hslot)
  · intro other
    rw [mailbox]
    split
    · exact distinct.2
    · exact h.once other

theorem takeRequest (htake : node.takeRequest slot = some next) : next.Counts := by
  have load : (node.replica slot).load.inFlightClientWrites = node.inFlightClientWrites := rfl
  rw [WriteNode.takeRequest] at htake
  split at htake
  · exact absurd htake nofun
  · rename_i req rest hmailbox
    obtain ⟨call, hcall, htake⟩ := Option.bind_eq_some_iff.mp htake
    obtain ⟨replica, hstep, htake⟩ := Option.bind_eq_some_iff.mp htake
    cases htake
    obtain ⟨held, hheld, -, -, hphase⟩ := h.queued slot _ (hmailbox ▸ List.mem_cons_self)
    cases hheld.symm.trans hcall
    refine h.answer hmailbox hcall ?_
    have idle : call.running = false := by
      rw [WriteCall.running, hphase]
      rfl
    rw [NodeSlot.step_submitWrite_load hstep, load, idle]
    cases ((node.replica slot).handleSubmitWrite req).2.admitted <;> rfl
  · rename_i id rest hmailbox
    obtain ⟨call, hcall, htake⟩ := Option.bind_eq_some_iff.mp htake
    obtain ⟨replica, hstep, htake⟩ := Option.bind_eq_some_iff.mp htake
    cases htake
    obtain ⟨held, hheld, -, -, hphase⟩ := h.queued slot _ (hmailbox ▸ List.mem_cons_self)
    cases hheld.symm.trans hcall
    refine h.answer hmailbox hcall ?_
    have running : call.running = true := by
      rw [WriteCall.running, hphase]
      rfl
    have counted : 0 < node.inFlightClientWrites := by
      rw [h.count]
      exact List.countP_pos_iff.mpr ⟨call, List.mem_of_getElem? hcall, running⟩
    rw [NodeSlot.step_releaseClientWrite_load hstep, load, running]
    exact Nat.sub_add_cancel counted

theorem release (hrelease : node.release id = some next) : next.Counts := by
  rw [WriteNode.release.eq_def] at hrelease
  split at hrelease
  · exact absurd hrelease nofun
  rename_i call hcall
  simp only [Option.ite_none_left_eq_some, not_not, Option.some.injEq] at hrelease
  obtain ⟨hphase, rfl⟩ := hrelease
  have running : call.running = true := by
    rw [WriteCall.running, hphase]
    rfl
  have howner := h.live id call hcall running
  -- A call that waits has no request in any mailbox.
  have fresh {slot : Nat} {request : OwnerRequest}
      (hrequest : request ∈ (node.owners slot).mailbox) : request.call ≠ id := by
    rintro rfl
    obtain ⟨held, hheld, -, -, hheldPhase⟩ := h.queued slot request hrequest
    cases hheld.symm.trans hcall
    rw [hphase] at hheldPhase
    cases request <;> exact absurd hheldPhase nofun
  rw [if_pos howner]
  have mailbox (slot : Nat) :
      (Function.update node.owners call.slot
        { node.owners call.slot with
          mailbox := (node.owners call.slot).mailbox ++ [.release id] } slot).mailbox =
        if slot = call.slot then (node.owners slot).mailbox ++ [.release id]
        else (node.owners slot).mailbox := by
    by_cases hslot : slot = call.slot
    · rw [hslot]
      simp [Function.update_self]
    · simp [hslot]
  apply h.move hcall rfl
  · rw [running]
    rfl
  · intro slot
    by_cases hslot : slot = call.slot
    · rw [hslot]
      simp [Function.update_self]
    · simp [hslot]
  · exact howner
  · intro slot request hrequest
    simp only [mailbox] at hrequest
    split at hrequest
    · rename_i hslot
      rcases List.mem_append.mp hrequest with hold | hnew
      · exact .inl ⟨hold, fresh hold⟩
      · cases List.mem_singleton.mp hnew
        exact .inr ⟨rfl, hslot, rfl⟩
    · exact .inl ⟨hrequest, fresh hrequest⟩
  · intro slot
    simp only [mailbox]
    split
    · rw [List.map_append, List.map_singleton, List.nodup_append]
      refine ⟨h.once slot, List.nodup_singleton _, ?_⟩
      intro other hother last hlast heq
      obtain ⟨request, hrequest, rfl⟩ := List.mem_map.mp hother
      rw [List.mem_singleton] at hlast
      exact fresh hrequest (heq.trans hlast)
    · exact h.once slot

theorem not_releaseRefused (id : Nat) : node.releaseRefused id = none := by
  rw [WriteNode.releaseRefused.eq_def]
  split
  · rfl
  · rename_i call hcall
    by_cases hphase : call.phase = .waiting
    · have running : call.running = true := by
        rw [WriteCall.running, hphase]
        rfl
      exact if_pos (.inr (h.live id call hcall running))
    · exact if_pos (.inl hphase)

theorem other {input : NodeInput} (allowed : node.Allows (.other slot input))
    (hother : node.other slot input = some next) : next.Counts := by
  simp only [WriteNode.other, Option.ite_none_left_eq_some, Option.map_eq_some_iff] at hother
  obtain ⟨-, replica, -, rfl⟩ := hother
  by_cases hevicts : node.evicts slot input = true
  · have idle := allowed hevicts
    simp only [hevicts, if_true]
    constructor
    · exact h.count
    · intro id call hcall hrunning
      have elsewhere : call.slot ≠ slot := by
        intro hslot
        have := idle call (List.mem_of_getElem? hcall) hslot
        exact absurd (this.symm.trans hrunning) nofun
      simpa [elsewhere] using h.live id call hcall hrunning
    · intro other request hrequest
      by_cases hslot : other = slot
      · rw [hslot] at hrequest
        simp [Function.update_self] at hrequest
      · simp only [Function.update_of_ne hslot] at hrequest ⊢
        exact h.queued other request hrequest
    · intro other
      by_cases hslot : other = slot
      · rw [hslot]
        simp [Function.update_self]
      · simp only [Function.update_of_ne hslot]
        exact h.once other
  · simp only [hevicts, Bool.false_eq_true, if_false]
    have same (other : Nat) :
        (Function.update node.owners slot { node.owners slot with node := replica } other).number =
            (node.owners other).number ∧
          (Function.update node.owners slot { node.owners slot with node := replica } other).mailbox =
            (node.owners other).mailbox := by
      by_cases hslot : other = slot
      · rw [hslot]
        simp [Function.update_self]
      · simp [hslot]
    constructor
    · exact h.count
    · intro id call hcall hrunning
      rw [(same call.slot).1]
      exact h.live id call hcall hrunning
    · intro other request hrequest
      rw [(same other).2] at hrequest
      rw [(same other).1]
      exact h.queued other request hrequest
    · intro other
      rw [(same other).2]
      exact h.once other

theorem step {event : WriteEvent} (allowed : node.Allows event)
    (hstep : node.step event = some next) : next.Counts := by
  cases event with
  | submitWrite slot req =>
    cases hstep
    exact h.submitWrite slot req
  | takeRequest slot => exact h.takeRequest hstep
  | release call => exact h.release hstep
  | releaseRefused call => exact absurd ((h.not_releaseRefused call).symm.trans hstep) nofun
  | other slot input => exact h.other allowed hstep

end WriteNode.Counts

structure WriteNode.Opened (node : WriteNode) : Prop where
  count : node.inFlightClientWrites = 0
  calls : node.calls = []
  mailboxes : ∀ slot, (node.owners slot).mailbox = []

/-- The count is the number of the admitted writes whose calls have not returned, so that it is zero
when none is left. -/
theorem in_flight_counts_running_writes {first node : WriteNode} (opened : first.Opened)
    (h : Reaches WriteNode.step WriteNode.Allows first node) :
    node.inFlightClientWrites = node.calls.countP (·.running) ∧
      ((∀ call ∈ node.calls, call.running = false) → node.inFlightClientWrites = 0) := by
  have counts : node.Counts := by
    apply h.invariant
    · constructor
      · rw [opened.count, opened.calls]
        rfl
      · intro id call hcall
        rw [opened.calls] at hcall
        exact absurd hcall nofun
      · intro slot request hrequest
        rw [opened.mailboxes] at hrequest
        exact absurd hrequest List.not_mem_nil
      · intro slot
        rw [opened.mailboxes]
        exact List.nodup_nil
    · intro state event next counts allowed hstep
      exact counts.step allowed hstep
  refine ⟨counts.count, ?_⟩
  intro idle
  rw [counts.count, List.countP_eq_zero]
  intro call hcall
  rw [idle call hcall]
  exact nofun

/-! ### A replica that is removed -/

def openNode : WriteNode where
  owners := fun slot => { node := { config := { nodeID := "a", slot } } }

theorem openNode_opened : openNode.Opened :=
  ⟨rfl, rfl, fun _ => rfl⟩

def atFirstSlot (event : NodeEvent) : WriteEvent :=
  .other 0 (.event event)

def admitWrite : List WriteEvent :=
  [atFirstSlot (.command (.addReplicaAsTail { chainVersion := 1, role := .single })),
    atFirstSlot (.command .prepareActivation), atFirstSlot (.readyReported true),
    atFirstSlot (.command .activateReplicaReady), atFirstSlot .task, atFirstSlot .task,
    atFirstSlot .task, atFirstSlot .task, atFirstSlot .task,
    .submitWrite 0 { call := 0, kind := .put, key := "k" }, .takeRequest 0]

def removeFirst : List WriteEvent :=
  [atFirstSlot (.command .markReplicaLeaving), atFirstSlot (.command .removeReplica)]

/-- A check of one step that suffices for the condition. -/
def WriteNode.evictsIdle (node : WriteNode) : WriteEvent → Bool
  | .other slot input =>
    !node.evicts slot input ||
      node.calls.all fun call => decide (call.slot ≠ slot) || !call.running
  | _ => true

theorem WriteNode.allows_of_evictsIdle (node : WriteNode) (event : WriteEvent)
    (h : node.evictsIdle event = true) : node.Allows event := by
  cases event with
  | other slot input =>
    intro hevicts call hcall hslot
    simp only [evictsIdle, hevicts, Bool.not_true, Bool.false_or, List.all_eq_true] at h
    simpa [hslot] using h call hcall
  | _ => trivial

theorem removed_after_release :
    (run (Lib.guarded WriteNode.evictsIdle WriteNode.step)
      (admitWrite ++ [.release 0, .takeRequest 0] ++ removeFirst) openNode).isSome = true := by
  decide +kernel

theorem removed_after_release_counts :
    ∃ node, Reaches WriteNode.step WriteNode.Allows openNode node ∧
      node.calls.length = 1 ∧ (node.owners 0).number = 1 ∧
      node.inFlightClientWrites = node.calls.countP (·.running) ∧
      ((∀ call ∈ node.calls, call.running = false) → node.inFlightClientWrites = 0) := by
  let node := Option.get _ removed_after_release
  have reached : Reaches WriteNode.step WriteNode.Allows openNode node :=
    .of_guarded_run WriteNode.allows_of_evictsIdle (Option.some_get removed_after_release).symm
  refine ⟨node, reached, ?_, ?_, in_flight_counts_running_writes openNode_opened reached⟩
  · decide +kernel
  · decide +kernel

/-- The replica goes while the write waits; the call times out, its release is refused, and it stays
on the count. -/
theorem removed_while_waiting :
    (run WriteNode.step (admitWrite ++ removeFirst ++ [.releaseRefused 0]) openNode).isSome =
      true := by
  decide +kernel

theorem write_leaks_when_removed :
    ∃ first node : WriteNode, first.Opened ∧
      Reaches WriteNode.step (fun _ _ => True) first node ∧
      (∀ call ∈ node.calls, call.running = false) ∧ node.inFlightClientWrites = 1 := by
  refine ⟨openNode, Option.get _ removed_while_waiting, openNode_opened,
    .of_isSome removed_while_waiting, ?_, ?_⟩
  · decide +kernel
  · decide +kernel

end Craq.Storage
