import Craq.Storage.Agreement

/-! # What a client is told about a write that failed

A write that was sequenced may still be committed after its client has been told an error, so that
error has to be an ambiguous one.  It is, unless a prepare or a forward fails for another reason.
-/

namespace Craq.Storage

open Lib (Reaches run guarded)

variable {resolve : String → String}

/-- The errors a client is told as an ambiguous write. -/
def ErrorClass.ambiguous : ErrorClass where
  holds := fun err => isAmbiguousWriteCause err = true
  wrapped := fun _ _ h => h

/-- No step gives the owner of a sequenced write a definite error to pass on. -/
structure Cluster.FailsAmbiguously (cluster : Cluster) (action : Action) : Prop where
  successor : ∀ id req current, action = .node id (.submitWrite req) →
    (cluster.nodes id).Accepts req current → (cluster.nodes id).record.assignment.role = .head →
      (cluster.nodes id).record.assignment.peers.successorNodeID ≠ ""
  flushed : ∀ id err, action = .node id (.flushPrepare (some err)) →
    isAmbiguousWriteCause err = true
  forwarded : ∀ id index err pipeline assignment, action = .node id (.callReturned index err) →
    (cluster.nodes id).calls[index]? = some (.forward pipeline assignment) →
      (∀ cause ∈ err, isAmbiguousWriteCause cause = true) ∧
        (cluster.nodes id).runtime.present = true
  prepared : ∀ id after err rest, action = .node id .task →
    (cluster.nodes id).tasks = .afterPrepare after err :: rest →
      (cluster.nodes id).runtime.present = true

theorem Cluster.FailsAmbiguously.admits {cluster : Cluster} {id : String} {event : NodeEvent}
    (h : cluster.FailsAmbiguously (.node id event)) :
    (cluster.nodes id).Admits (fun _ => True) .ambiguous event where
  operation := fun _ _ _ _ => trivial
  successor := by
    intro req current heq accepts hrole hnone
    exact absurd hnone (h.successor id req current (heq ▸ rfl) accepts hrole)
  flushed := fun err heq => h.flushed id err (heq ▸ rfl)
  forwarded := by
    intro index err pipeline assignment heq hcall
    have ⟨herr, hpresent⟩ := h.forwarded id index err pipeline assignment (heq ▸ rfl) hcall
    exact ⟨herr, fun habsent => absurd (hpresent.symm.trans habsent) nofun⟩
  prepared := by
    intro after err rest heq htasks habsent
    have hpresent := h.prepared id after err rest (heq ▸ rfl) htasks
    exact absurd (hpresent.symm.trans habsent) nofun

theorem reaches_holds_ambiguous {config : String → NodeConfig} {cluster : Cluster}
    (h : Reaches (Cluster.step resolve) Cluster.FailsAmbiguously (.initial config) cluster) :
    cluster.Holds (fun _ => True) .ambiguous := by
  refine h.invariant (.initial config) ?_
  intro state action next inv hfails hstep
  refine inv.step ?_ hstep
  intro id event haction
  subst haction
  exact hfails.admits

/-- A write whose client has been told a definite error is not committed by any replica, now or
later. -/
def Cluster.FailureIsFinal (resolve : String → String) (cluster : Cluster) : Prop :=
  ∀ (id : String) (call : Nat) (waiter : Waiter) (err : Error),
    (cluster.nodes id).waiters[call]? = some waiter → waiter.outcome = some (some err) →
      isAmbiguousWriteCause err = false →
        ∀ later, Reaches (Cluster.step resolve) (fun _ _ => True) cluster later →
          ∀ entry ∈ later.commits, waiter.operation ≠ some entry.2

/-- As long as prepares and forwards fail only ambiguously, a definite error means that the write
was not even sequenced. -/
theorem reaches_failureIsFinal {config : String → NodeConfig} {cluster : Cluster}
    (h : Reaches (Cluster.step resolve) Cluster.FailsAmbiguously (.initial config) cluster) :
    cluster.FailureIsFinal resolve := by
  intro id call waiter err hwaiter htold hdefinite later _ entry _
  have held := (reaches_holds_ambiguous h).nodes id
  rcases held.waiters call waiter hwaiter err htold with hnone | hambiguous
  · rw [hnone]
    exact nofun
  · exact absurd (hdefinite.symm.trans hambiguous) nofun

def failsNowhere (cluster : Cluster) : Action → Bool
  | .node id .task => (cluster.nodes id).runtime.present
  | .node id (.submitWrite _) =>
    (cluster.nodes id).record.assignment.peers.successorNodeID != ""
  | .node _ (.callReturned _ _) => false
  | .node _ (.flushPrepare (some _)) => false
  | _ => true

theorem failsAmbiguously_of_failsNowhere (cluster : Cluster) (action : Action)
    (h : failsNowhere cluster action = true) : cluster.FailsAmbiguously action := by
  constructor
  · rintro id req current rfl _ _
    simpa [failsNowhere] using h
  · rintro id err rfl
    cases h
  · rintro id index err pipeline assignment rfl
    cases h
  · rintro id after err rest rfl _
    exact h

/-- A write that asks for a key to exist, before one that creates it. -/
def refusedThenWritten : List Action :=
  .node "a" (.submitWrite
      { call := 0, kind := .put, key := "k", conditions := { mustExist := some true } }) ::
    putAtHead 1 "x" :: writeCommits

theorem refusedThenWritten_runs : (run (guarded failsNowhere (Cluster.step id))
    (joinTwo ++ refusedThenWritten) (.initial plainConfig)).isSome = true := by
  decide +kernel

theorem refused_write_is_final :
    ∃ cluster : Cluster, cluster.commits.map (·.1) = ["b", "a"] ∧
      ((cluster.nodes "a").waiters[0]?.bind (·.outcome)) =
        some (some (.sentinel .conditionFailed "")) ∧ cluster.FailureIsFinal id := by
  refine ⟨_, ?_, ?_, reaches_failureIsFinal (.of_guarded_run failsAmbiguously_of_failsNowhere
    (Option.some_get refusedThenWritten_runs).symm)⟩
  · decide +kernel
  · decide +kernel

/-- The forward of a write reaches the tail, but its call comes back with an error of the
transport.  The client is told that error; the tail commits the write all the same. -/
def forwardFails : List Action :=
  List.flatten
    [putAtHead 1 "x" :: .deliver 0 :: goOn "b" 1,
      [.node "a" (.callReturned 0 (some (.fault "connection reset")))],
      .node "b" (.flushPrepare none) :: .node "b" (.completion 0) :: goOn "b" 10]

theorem forwardFails_runs :
    (run (Cluster.step id) (joinTwo ++ forwardFails) (.initial plainConfig)).isSome = true := by
  decide +kernel

theorem failed_forward_is_committed :
    ¬∀ (resolve : String → String) (config : String → NodeConfig) (cluster : Cluster),
      Reaches (Cluster.step resolve) (fun _ _ => True) (.initial config) cluster →
        cluster.FailureIsFinal resolve := by
  intro h
  let final := (run (Cluster.step id) (joinTwo ++ forwardFails) (.initial plainConfig)).get
    forwardFails_runs
  have reached : Reaches (Cluster.step id) (fun _ _ => True) (.initial plainConfig) final :=
    .of_isSome forwardFails_runs
  let told : Error := .wrapped "err in n.repl.ForwardWrite" (.fault "connection reset")
  have definite : ∀ waiter ∈ (final.nodes "a").waiters[1]?, waiter.outcome = some (some told) ∧
      ∃ entry ∈ final.commits, waiter.operation = some entry.2 := by
    decide +kernel
  have known : ((final.nodes "a").waiters[1]?).isSome = true := by decide +kernel
  obtain ⟨waiter, hwaiter⟩ := Option.isSome_iff_exists.mp known
  obtain ⟨htold, entry, hentry, hop⟩ := definite waiter hwaiter
  exact h id plainConfig final reached "a" 1 waiter told hwaiter htold rfl final .refl entry hentry
    hop

end Craq.Storage
