import Craq.Lib.Run
import Craq.Storage.Frame

/-! # Which operations replicas commit

Every operation a replica commits was sequenced by a client write, so two replicas can only
disagree about a sequence number that was given out twice.
-/

namespace Craq.Storage

open Lib (Reaches run)

variable {P Q R : WriteOperation → Prop} {E : ErrorClass} {resolve : String → String}

/-! ## Two facts about the same operations -/

theorem ReplicaRecord.Carries.zip {record : ReplicaRecord} (hp : record.Carries P)
    (hq : record.Carries Q) (imp : ∀ operation, P operation → Q operation → R operation) :
    record.Carries R where
  prepared := by
    intro sequence operation hop
    have ⟨heq, hP⟩ := hp.prepared sequence operation hop
    exact ⟨heq, imp operation hP (hq.prepared sequence operation hop).2⟩
  buffered := fun sequence req hreq =>
    imp req.operation (hp.buffered sequence req hreq) (hq.buffered sequence req hreq)

theorem Task.Holds.zip {task : Task} (hp : task.Holds P E) (hq : task.Holds Q E)
    (imp : ∀ operation, P operation → Q operation → R operation) : task.Holds R E := by
  cases task with
  | submitCommitWatermarkReady record | gapRepaired record | advanceAfterGapCheck record =>
    exact ReplicaRecord.Carries.zip hp hq imp
  | forwardWrite req => exact imp req.operation hp hq
  | afterPrepare after err => exact hp
  | _ => trivial

theorem Message.Carries.zip {message : Message} (hp : message.Carries P) (hq : message.Carries Q)
    (imp : ∀ operation, P operation → Q operation → R operation) : message.Carries R := by
  cases message with
  | forward target req => exact imp req.operation hp hq
  | commitAdvance target req => trivial

theorem JournalEntry.Carries.zip {entry : JournalEntry} (hp : entry.Carries P) (hq : entry.Carries Q)
    (imp : ∀ operation, P operation → Q operation → R operation) : entry.Carries R := by
  cases entry with
  | prepare operation | legacyCommit operation _ => exact imp operation hp hq
  | _ => trivial

variable {n : NodeSlot}

theorem NodeSlot.Holds.zip (hp : n.Holds P E) (hq : n.Holds Q E)
    (imp : ∀ operation, P operation → Q operation → R operation) : n.Holds R E where
  record := hp.record.zip hq.record imp
  tasks := fun task hmem => (hp.tasks task hmem).zip (hq.tasks task hmem) imp
  pipelines := fun pipeline hmem => imp _ (hp.pipelines pipeline hmem) (hq.pipelines pipeline hmem)
  prepares := fun intent hmem => imp _ (hp.prepares intent hmem) (hq.prepares intent hmem)
  journal := fun entry hmem => (hp.journal entry hmem).zip (hq.journal entry hmem) imp
  outbox := fun message hmem => (hp.outbox message hmem).zip (hq.outbox message hmem) imp
  completions := hp.completions
  waiters := hp.waiters

/-! ## One node -/

/-- What a node holds, in terms of its data. -/
structure Core.Bears (P : WriteOperation → Prop) (E : ErrorClass) (c : Core) : Prop where
  records : c.Holds (ReplicaRecord.Carries P)
  prepares : ∀ commit ∈ c.prepares, P commit.operation
  journal : ∀ entry ∈ c.journal, entry.entry.Carries P
  forwards : ∀ operation ∈ c.traffic.forwards, P operation
  piped : ∀ operation ∈ c.traffic.piped, P operation
  sent : ∀ operation ∈ c.traffic.sent, P operation
  failures : ∀ err ∈ c.traffic.failures, E.holds err
  waiters : ∀ (call : Nat) (waiter : Waiter), c.traffic.waiters[call]? = some waiter →
    waiter.Holds E

theorem Task.holds_iff {task : Task} : task.Holds P E ↔
    (∀ record ∈ task.copies, record.Carries P) ∧ (∀ record ∈ task.ready, record.Carries P) ∧
      (∀ operation ∈ task.forwards, P operation) ∧ ∀ err ∈ task.failures, E.holds err := by
  cases task <;> simp [Holds, copies, ready, forwards, failures]

theorem Message.carries_iff {message : Message} :
    message.Carries P ↔ ∀ operation ∈ message.forwards, P operation := by
  cases message <;> simp [Carries, forwards]

theorem Completion.holds_iff {completion : Completion} :
    completion.Holds E ↔ ∀ err ∈ completion.failures, E.holds err := by
  cases completion <;> simp [Holds, failures]

theorem NodeSlot.holds_iff : n.Holds P E ↔ n.core.Bears P E := by
  constructor
  · intro h
    have tasks := fun task hmem => Task.holds_iff.mp (h.tasks task hmem)
    constructor
    case records =>
      exact ⟨h.record, List.forall_mem_flatMap.mpr fun task hmem => (tasks task hmem).1,
        List.forall_mem_flatMap.mpr fun task hmem => (tasks task hmem).2.1⟩
    case prepares => exact List.forall_mem_map.mpr h.prepares
    case journal => exact h.journal
    case forwards => exact List.forall_mem_flatMap.mpr fun task hmem => (tasks task hmem).2.2.1
    case piped => exact List.forall_mem_map.mpr h.pipelines
    case sent =>
      exact List.forall_mem_flatMap.mpr fun message hmem => Message.carries_iff.mp (h.outbox message hmem)
    case failures =>
      refine List.forall_mem_append.mpr
        ⟨List.forall_mem_flatMap.mpr fun task hmem => (tasks task hmem).2.2.2, ?_⟩
      exact List.forall_mem_flatMap.mpr fun completion hmem =>
        Completion.holds_iff.mp (h.completions completion hmem)
    case waiters => exact h.waiters
  · intro h
    obtain ⟨failed, reported⟩ := List.forall_mem_append.mp h.failures
    constructor
    case record => exact h.records.record
    case tasks =>
      exact fun task hmem => Task.holds_iff.mpr ⟨List.forall_mem_flatMap.mp h.records.copies task hmem,
        List.forall_mem_flatMap.mp h.records.ready task hmem,
        List.forall_mem_flatMap.mp h.forwards task hmem, List.forall_mem_flatMap.mp failed task hmem⟩
    case pipelines => exact List.forall_mem_map.mp h.piped
    case prepares => exact fun intent hmem => h.prepares _ (List.mem_map_of_mem hmem)
    case journal => exact h.journal
    case outbox =>
      exact fun message hmem => Message.carries_iff.mpr (List.forall_mem_flatMap.mp h.sent message hmem)
    case completions =>
      exact fun completion hmem =>
        Completion.holds_iff.mpr (List.forall_mem_flatMap.mp reported completion hmem)
    case waiters => exact h.waiters

theorem ReplicaRecord.carries_framed : ReplicaRecord.Framed (ReplicaRecord.Carries P) where
  empty := .of_empty rfl rfl
  confirmed := fun _ h => ⟨h.prepared, h.buffered⟩
  advanced := fun _ h => ⟨h.prepared, h.buffered⟩
  prepared := fun _ h => ⟨h.prepared, h.buffered⟩
  committed := fun h hnext => h.congr (commitNext_maps hnext).1 (commitNext_maps hnext).2
  interrupted := fun h _ _ => ⟨h.prepared, h.buffered⟩
  pruned := fun highest h => recordPruneMaterializedOverlay_carries highest h
  released := fun _ h => ⟨h.prepared, h.buffered⟩
  restated := fun _ h _ => ⟨h.prepared, h.buffered⟩
  synced := fun highest h => reduceSyncedPredecessorState_carries highest h
  joining := fun _ => .of_empty rfl rfl
  joined := fun _ _ => .of_empty rfl rfl
  rebuilt := fun _ _ => .of_empty rfl rfl
  reassigned := fun assignment h => reassigned_carries assignment h

theorem NodeSlot.Hears.holds {input : NodeInput} {err : Error}
    (admits : ∀ event, input = .event event → n.Admits P E event) (start : n.core.Bears P E)
    (h : n.Hears input err) : E.holds err := by
  induction h with
  | failed failure => exact start.failures _ failure
  | returned taken call => exact ((admits _ taken).forwarded _ _ _ _ rfl call).1 _ rfl
  | lost taken call absent => exact ((admits _ taken).forwarded _ _ _ _ rfl call).2 absent _ _
  | gone taken due absent => exact (admits _ taken).prepared _ _ _ rfl due absent _ _
  | alone taken accepts role last => exact (admits _ taken).successor _ _ rfl accepts role last _ _
  | wrapped _ ih => exact E.wrapped _ _ ih

namespace Core.Bears

variable {n : NodeSlot} {input : NodeInput} {c d : Core}

theorem takesForward (h : n.core.Bears P E) : n.TakesForward (ReplicaRecord.Carries P) := by
  have received : ∀ {req}, n.tasks.head? = some (.forwardWrite req) → P req.operation := by
    intro req due
    obtain ⟨rest, htasks⟩ := List.head?_eq_some_iff.mp due
    refine h.forwards _ (List.mem_flatMap.mpr ⟨.forwardWrite req, ?_, List.mem_cons_self⟩)
    exact htasks ▸ List.mem_cons_self
  have held := h.records.record
  constructor
  · intro req buffered due _ _ _ ok
    exact reduceBufferFutureForward_carries held (received due) ok
  · intro req reduced action feeds ok
    have operation : P req.operation := by
      cases feeds with
      | received due serving taken => exact received due
      | drained due buffered => exact held.buffered _ req buffered
    exact reduceForwardWrite_carries held operation ok

theorem restart (h : n.core.Bears P E) : n.restart.core.Bears P E := by
  rw [NodeSlot.restart]
  cases n.localState with
  | none =>
    exact ⟨⟨.of_empty rfl rfl, List.forall_mem_nil _, List.forall_mem_nil _⟩, List.forall_mem_nil _,
      h.journal, List.forall_mem_nil _, List.forall_mem_nil _, List.forall_mem_nil _,
      List.forall_mem_nil _, h.waiters⟩
  | some persisted =>
    exact ⟨⟨openReplica_carries persisted n.backend h.journal, List.forall_mem_nil _,
      List.forall_mem_nil _⟩, List.forall_mem_nil _, h.journal, List.forall_mem_nil _,
      List.forall_mem_nil _, List.forall_mem_nil _, List.forall_mem_nil _, h.waiters⟩

theorem asks {prepares : List DurableCommit} (h : ∀ commit ∈ prepares, P commit.operation)
    {commit : DurableCommit} (operation : P commit.operation) :
    ∀ held ∈ prepares ++ [commit], P held.operation :=
  List.forall_mem_append.mpr ⟨h, List.forall_mem_singleton.mpr operation⟩

theorem exchange (h : c.Bears P E) {traffic : Traffic}
    (admits : ∀ event, input = .event event → n.Admits P E event)
    (received : ∀ message, input = .message message → message.Carries P)
    (start : n.core.Bears P E) (tells : n.Tells input c traffic) :
    Core.Bears P E { c with traffic } := by
  refine ⟨⟨h.records.record, h.records.copies, h.records.ready⟩, h.prepares, h.journal, ?_, ?_, ?_, ?_,
    ?_⟩
  · intro operation hmem
    rcases tells.forwards operation hmem with hheld | ⟨target, req, taken, rfl⟩
    · exact h.forwards operation hheld
    · exact received _ taken
  · intro operation hmem
    rcases tells.piped operation hmem with hheld | ⟨commit, hcommit, rfl⟩
    · exact h.piped operation hheld
    · exact h.prepares commit hcommit
  · intro operation hmem
    rcases tells.sent operation hmem with hheld | hpiped | ⟨sequence, hentry⟩
    · exact h.sent operation hheld
    · exact h.piped operation hpiped
    · exact (h.records.record.prepared sequence operation hentry).2
  · intro err hmem
    rcases tells.failures err hmem with hheld | taken
    · exact h.failures err hheld
    · exact (admits _ taken).flushed err rfl
  · intro call waiter hwaiter err told
    rcases tells.waiters call waiter hwaiter err told with hnone | heard | ⟨held, hheld, before, same⟩
    · exact .inl hnone
    · exact .inr (heard.holds admits start)
    · exact same ▸ h.waiters call held hheld err before

theorem effect (admits : ∀ event, input = .event event → n.Admits P E event)
    (received : ∀ message, input = .message message → message.Carries P)
    (start : n.core.Bears P E) (h : c.Bears P E) (effect : Effect n input c d) : d.Bears P E := by
  have writes : n.TakesWrite (ReplicaRecord.Carries P) input := by
    intro req current taken accepts
    have counted : ReplicaRecord.Carries P { n.record with
        inFlightClientWrites := n.record.inFlightClientWrites + 1 } :=
      ⟨start.records.record.prepared, start.records.record.buffered⟩
    have operation := (admits _ taken).operation req current rfl accepts
    exact (reduceSubmitWrite_carries counted operation).congr rfl rfl
  have records := Core.Holds.effect ReplicaRecord.carries_framed writes (fun _ => start.takesForward)
    (fun _ _ _ _ => ⟨h.records.record.prepared, h.records.record.buffered⟩)
    (fun _ => start.restart.records) start.records h.records effect
  cases effect with
  | exchange tells => exact h.exchange admits received start tells
  | ask taken accepts same =>
    exact { h with
      records, prepares := asks h.prepares ((admits _ taken).operation _ _ rfl accepts) }
  | stage taken feeds same ok =>
    refine { h with records, prepares := asks h.prepares ?_ }
    cases feeds with
    | received due serving taken =>
      obtain ⟨rest, htasks⟩ := List.head?_eq_some_iff.mp due
      refine start.forwards _ (List.mem_flatMap.mpr ⟨.forwardWrite _, ?_, List.mem_cons_self⟩)
      exact htasks ▸ List.mem_cons_self
    | drained due buffered => exact start.records.record.buffered _ _ buffered
  | evict =>
    exact { h with
      records, forwards := List.forall_mem_nil _, piped := List.forall_mem_nil _
      failures := List.forall_mem_nil _ }
  | flush taken first reported worked =>
    have prepares := start.prepares
    rw [first] at prepares
    obtain ⟨appended, rest⟩ := List.forall_mem_cons.mp prepares
    refine { start with records, prepares := rest, journal := ?_ }
    exact List.forall_mem_append.mpr ⟨start.journal, List.forall_mem_singleton.mpr appended⟩
  | flushFailed first worked =>
    have prepares := h.prepares
    rw [first] at prepares
    exact { h with records, prepares := (List.forall_mem_cons.mp prepares).2 }
  | note noted =>
    refine { h with records, journal := ?_ }
    exact List.forall_mem_append.mpr ⟨h.journal, List.forall_mem_singleton.mpr (noted P)⟩
  | materialize =>
    revert records
    rw [Core.materialize]
    repeat' split
    all_goals exact fun records => { h with records }
  | restart => exact start.restart
  | _ => exact { h with records }

end Core.Bears

theorem NodeSlot.Holds.take {next : NodeSlot} {input : NodeInput} (h : n.Holds P E)
    (admits : ∀ event, input = .event event → n.Admits P E event)
    (received : ∀ message, input = .message message → message.Carries P)
    (htake : n.take input = some next) : next.Holds P E := by
  have start := NodeSlot.holds_iff.mp h
  refine NodeSlot.holds_iff.mpr (n.take_keeps htake start ?_)
  exact fun held effect => Core.Bears.effect admits received start held effect

/-! ## All nodes -/

/-- Every operation held by a node, on its way to one or committed by one satisfies `P`, and every
error on its way to the client of a sequenced write is in the class. -/
structure Cluster.Holds (P : WriteOperation → Prop) (E : ErrorClass) (cluster : Cluster) :
    Prop where
  nodes : ∀ id, (cluster.nodes id).Holds P E
  network : ∀ message ∈ cluster.network, message.Carries P
  commits : ∀ entry ∈ cluster.commits, P entry.2

def Cluster.initial (config : String → NodeConfig) : Cluster where
  nodes := fun id => { config := config id }

theorem mem_preparedOperations {record : ReplicaRecord} {first last : Nat}
    {operation : WriteOperation} (h : operation ∈ preparedOperations record first last) :
    ∃ sequence, first < sequence ∧ sequence ≤ last ∧
      record.preparedEntries[sequence]? = some operation := by
  obtain ⟨sequence, hmem, hop⟩ := List.mem_filterMap.mp h
  have := List.mem_range'_1.mp hmem
  exact ⟨sequence, by omega, by omega, hop⟩

namespace Cluster.Holds

variable {cluster next : Cluster}

theorem initial (config : String → NodeConfig) : (Cluster.initial config).Holds P E where
  nodes := fun id => ⟨.of_empty rfl rfl, by simp [Cluster.initial], by simp [Cluster.initial],
    by simp [Cluster.initial], by simp [Cluster.initial], by simp [Cluster.initial],
    by simp [Cluster.initial], by simp [Cluster.initial]⟩
  network := by simp [Cluster.initial]
  commits := by simp [Cluster.initial]

theorem zip (hp : cluster.Holds P E) (hq : cluster.Holds Q E)
    (imp : ∀ operation, P operation → Q operation → R operation) : cluster.Holds R E where
  nodes := fun id => (hp.nodes id).zip (hq.nodes id) imp
  network := fun message hmem => (hp.network message hmem).zip (hq.network message hmem) imp
  commits := fun entry hmem => imp entry.2 (hp.commits entry hmem) (hq.commits entry hmem)

theorem move {id : String} (h : cluster.Holds P E) (hn : n.Holds P E) :
    (cluster.move id n).Holds P E where
  nodes := by
    intro other
    by_cases heq : other = id
    · subst heq
      simp only [Cluster.move, Function.update_self]
      exact ⟨hn.record, hn.tasks, hn.pipelines, hn.prepares, hn.journal, by simp, hn.completions,
        hn.waiters⟩
    · simp only [Cluster.move, Function.update_of_ne heq]
      exact h.nodes other
  network := by
    intro message hmem
    rcases List.mem_append.mp hmem with hmem | hmem
    · exact h.network message hmem
    · exact hn.outbox message hmem
  commits := by
    intro entry hmem
    rcases List.mem_append.mp hmem with hmem | hmem
    · exact h.commits entry hmem
    · obtain ⟨operation, hop, rfl⟩ := List.mem_map.mp hmem
      obtain ⟨sequence, -, -, hheld⟩ := mem_preparedOperations (List.mem_filter.mp hop).1
      exact (hn.record.prepared sequence operation hheld).2

theorem step {action : Action} (h : cluster.Holds P E)
    (admits : ∀ id event, action = .node id event → (cluster.nodes id).Admits P E event)
    (hstep : Cluster.step resolve cluster action = some next) : next.Holds P E := by
  rcases Cluster.step_takes hstep with ⟨⟨index, rfl⟩, -⟩ | ⟨id, input, taken, hands, htake, rfl⟩
  · cases hstep
    refine ⟨h.nodes, ?_, h.commits⟩
    intro message hmem
    exact h.network message (List.mem_of_mem_eraseIdx hmem)
  · refine h.move ((h.nodes id).take ?_ ?_ htake)
    · rintro event rfl
      cases hands
      exact admits id event rfl
    · rintro message rfl
      cases hands with
      | message sent => exact h.network message (List.mem_of_getElem? sent)

end Cluster.Holds

/-- Every operation held by a node, on its way to one or committed by one satisfies `P`. -/
def Cluster.Carries (P : WriteOperation → Prop) (cluster : Cluster) : Prop :=
  cluster.Holds P .any

variable {cluster : Cluster} {action : Action}

theorem Cluster.Carries.step {next : Cluster} (h : cluster.Carries P)
    (hsubmit : ∀ id req current, action = .node id (.submitWrite req) →
      (cluster.nodes id).Accepts req current →
      P ((cluster.nodes id).submittedOperation (cluster.nodes id).record req current))
    (hstep : Cluster.step resolve cluster action = some next) : next.Carries P := by
  refine Cluster.Holds.step h ?_ hstep
  intro id event haction
  refine .of_own (fun _ _ => trivial) ?_ (fun _ _ => trivial) (fun _ _ _ => trivial)
  intro req current heq accepts
  exact hsubmit id req current (heq ▸ haction) accepts

/-! ## Agreement -/

/-- No two commits, by whichever replicas, are of different operations at one sequence number. -/
def Cluster.Agrees (cluster : Cluster) : Prop :=
  ∀ first ∈ cluster.commits, ∀ second ∈ cluster.commits,
    first.2.sequence = second.2.sequence → first.2 = second.2

instance (cluster : Cluster) : Decidable cluster.Agrees :=
  inferInstanceAs (Decidable (∀ first ∈ cluster.commits, ∀ second ∈ cluster.commits,
    first.2.sequence = second.2.sequence → first.2 = second.2))

/-- A write is sequenced only under a number that no other operation anywhere has. -/
def Cluster.SequencesFresh (cluster : Cluster) (action : Action) : Prop :=
  ∀ id req current, action = .node id (.submitWrite req) →
    (cluster.nodes id).Accepts req current →
    cluster.Carries fun operation => operation.sequence ≠ (cluster.nodes id).record.nextSequence

/-- There is one operation for each number, wherever it is. -/
def Cluster.Numbered (cluster : Cluster) : Prop :=
  ∃ log : Nat → Option WriteOperation,
    cluster.Carries fun operation => log operation.sequence = some operation

theorem Cluster.Numbered.step {next : Cluster} (h : cluster.Numbered)
    (fresh : cluster.SequencesFresh action)
    (hstep : Cluster.step resolve cluster action = some next) : next.Numbered := by
  obtain ⟨log, hlog⟩ := h
  by_cases sequenced : ∃ id req current, action = .node id (.submitWrite req) ∧
      (cluster.nodes id).Accepts req current
  · obtain ⟨id, req, current, rfl, accepts⟩ := sequenced
    have unused := fresh id req current rfl accepts
    -- The lookup decides the metadata, so the write the step sequences is this one.
    let operation := (cluster.nodes id).submittedOperation (cluster.nodes id).record req current
    refine ⟨Function.update log operation.sequence (some operation), ?_⟩
    have kept : cluster.Carries fun held =>
        Function.update log operation.sequence (some operation) held.sequence = some held := by
      refine hlog.zip unused ?_
      intro held hheld hne
      exact (Function.update_of_ne hne ..).trans hheld
    refine kept.step ?_ hstep
    · intro id' req' current' heq accepts'
      cases heq
      obtain rfl : current = current' := by
        have := accepts.lookup.symm.trans accepts'.lookup
        exact Except.ok.inj this
      exact Function.update_self ..
  · refine ⟨log, Cluster.Carries.step hlog ?_ hstep⟩
    intro id req current heq accepts
    exact absurd ⟨id, req, current, heq, accepts⟩ sequenced

theorem Cluster.Numbered.agrees (h : cluster.Numbered) : cluster.Agrees := by
  obtain ⟨log, hlog⟩ := h
  intro first hfirst second hsecond heq
  have := hlog.commits first hfirst
  rw [heq, hlog.commits second hsecond] at this
  exact (Option.some.inj this).symm

/-- Replicas agree as long as no sequence number is given out while an operation with that number
is still around, whatever the coordinator orders and whatever crashes. -/
theorem reaches_agrees {config : String → NodeConfig} {cluster : Cluster}
    (h : Reaches (Cluster.step resolve) Cluster.SequencesFresh (.initial config) cluster) :
    cluster.Agrees := by
  have numbered : cluster.Numbered :=
    h.invariant ⟨fun _ => none, .initial config⟩ fun _ _ _ inv fresh hstep => inv.step fresh hstep
  exact numbered.agrees

/-! ## A chain of two -/

def plainConfig (id : String) : NodeConfig where
  nodeID := id
  slot := 0

def headOfTwo : ReplicaAssignment where
  chainVersion := 1
  role := .head
  peers := { successorNodeID := "b", tailNodeID := "b" }

def tailOfTwo : ReplicaAssignment where
  chainVersion := 1
  role := .tail
  peers := { predecessorNodeID := "a", tailNodeID := "b" }

def goOn (id : String) (count : Nat) : List Action :=
  List.replicate count (.node id .task)

def joinTwo : List Action :=
  List.flatten
    [[.node "a" (.command (.addReplicaAsTail headOfTwo)), .node "a" (.command .prepareActivation),
        .node "a" (.readyReported true), .node "a" (.command .activateReplicaReady)],
      goOn "a" 5,
      [.node "b" (.command (.addReplicaAsTail tailOfTwo)), .serveSnapshot "b",
        .node "b" (.replied true), .node "b" (.command .prepareActivation), .serveSnapshot "b",
        .node "b" (.replied true), .node "b" (.readyReported true),
        .node "b" (.command .activateReplicaReady)],
      goOn "b" 5]

theorem joinTwo_runs :
    (run (Cluster.step id) joinTwo (.initial plainConfig)).isSome = true := by
  decide +kernel

def joinedTwo : Cluster :=
  (run (Cluster.step id) joinTwo (.initial plainConfig)).get joinTwo_runs

def putAtHead (call : Nat) (value : String) : Action :=
  .node "a" (.submitWrite { call, kind := .put, key := "k", value })

def Action.Submits : Action → Bool
  | .node _ (.submitWrite _) => true
  | _ => false

theorem Cluster.sequencesFresh_of_not_submits (h : action.Submits = false) (cluster : Cluster) :
    cluster.SequencesFresh action := by
  intro id req current heq
  subst heq
  cases h

theorem Cluster.carries_of_run {config : String → NodeConfig} {actions : List Action}
    (hnone : ∀ action ∈ actions, action.Submits = false)
    (hrun : run (Cluster.step resolve) actions (.initial config) = some cluster) :
    cluster.Carries P := by
  have reached : Reaches (Cluster.step resolve) (fun _ action => action.Submits = false)
      (.initial config) cluster := .of_run (fun action hmem _ => hnone action hmem) hrun
  refine reached.invariant (.initial config) fun state action next inv hnot hstep => ?_
  refine Cluster.Carries.step inv ?_ hstep
  intro id req current heq
  subst heq
  cases hnot

def writeCommits : List Action :=
  List.flatten
    [.deliver 0 :: goOn "b" 1,
      .node "b" (.flushPrepare none) :: .node "b" (.completion 0) :: goOn "b" 10,
      .node "a" (.flushPrepare none) :: .node "a" (.completion 0) :: goOn "a" 2,
      .deliver 1 :: goOn "a" 2,
      [.node "a" (.flushCommitRange 1 1 none), .node "a" (.completion 0), .node "a" .task]]

theorem writeCommits_runs :
    (run (Cluster.step id) (putAtHead 1 "x" :: writeCommits) joinedTwo).isSome = true := by
  decide +kernel

theorem two_replicas_agree :
    ∃ cluster : Cluster, cluster.commits.map (·.1) = ["b", "a"] ∧ cluster.Agrees := by
  obtain ⟨written, hwritten, hrest⟩ :=
    Option.bind_eq_some_iff.mp (Option.some_get writeCommits_runs).symm
  have joined : run (Cluster.step id) joinTwo (.initial plainConfig) = some joinedTwo :=
    (Option.some_get joinTwo_runs).symm
  have silent : ∀ action ∈ joinTwo ++ writeCommits, action.Submits = false := by decide
  have ⟨silentBefore, silentAfter⟩ := List.forall_mem_append.mp silent
  have before : Reaches (Cluster.step id) Cluster.SequencesFresh (.initial plainConfig) joinedTwo :=
    .of_run (fun action hmem => Cluster.sequencesFresh_of_not_submits (silentBefore action hmem))
      joined
  have fresh : joinedTwo.SequencesFresh (putAtHead 1 "x") := by
    intro id req current heq accepts
    exact Cluster.carries_of_run silentBefore joined
  have after : Reaches (Cluster.step id) Cluster.SequencesFresh written _ :=
    .of_run (fun action hmem => Cluster.sequencesFresh_of_not_submits (silentAfter action hmem))
      hrest
  refine ⟨_, ?_, reaches_agrees ((before.tail fresh hwritten).trans after)⟩
  decide +kernel

/-- In the run from `first`, a node that was the active head or the only replica has accepted a
client's write and made this operation of it. -/
def Cluster.Sequenced (resolve : String → String) (first cluster : Cluster)
    (operation : WriteOperation) : Prop :=
  ∃ (earlier next : Cluster) (id : String) (req : SubmitRequest) (current : Option ObjectMetadata),
    Reaches (Cluster.step resolve) (fun _ _ => True) first earlier ∧
      (earlier.nodes id).Accepts req current ∧
      operation = (earlier.nodes id).submittedOperation (earlier.nodes id).record req current ∧
      Cluster.step resolve earlier (.node id (.submitWrite req)) = some next ∧
      Reaches (Cluster.step resolve) (fun _ _ => True) next cluster

/-- No operation comes from nowhere: whatever is lost, crashes or is recovered, an operation that a
replica holds, sends, logs or has committed was made of a client's write earlier in the run. -/
theorem operations_sequenced {config : String → NodeConfig} {cluster : Cluster}
    (h : Reaches (Cluster.step resolve) (fun _ _ => True) (.initial config) cluster) :
    cluster.Carries (Cluster.Sequenced resolve (.initial config) cluster) := by
  let Grown := fun cluster : Cluster =>
    Reaches (Cluster.step resolve) (fun _ _ => True) (.initial config) cluster ∧
      cluster.Carries (Cluster.Sequenced resolve (.initial config) cluster)
  have grown : Grown cluster := by
    refine h.invariant ⟨.refl, .initial config⟩ ?_
    rintro state action next ⟨reached, carried⟩ - hstep
    refine ⟨reached.tail trivial hstep, Cluster.Carries.step ?_ ?_ hstep⟩
    · refine carried.zip carried ?_
      rintro operation ⟨earlier, made, id, req, current, before, accepts, rfl, submits, after⟩ -
      exact ⟨earlier, made, id, req, current, before, accepts, rfl, submits,
        after.tail trivial hstep⟩
    · rintro id req current rfl accepts
      exact ⟨state, next, id, req, current, reached, accepts, rfl, hstep, .refl⟩
  exact grown.2

theorem two_commits_sequenced : ∃ cluster : Cluster, cluster.commits.map (·.1) = ["b", "a"] ∧
    cluster.Carries (Cluster.Sequenced id (.initial plainConfig) cluster) := by
  have joined : Reaches (Cluster.step id) (fun _ _ => True) (.initial plainConfig) joinedTwo :=
    .of_isSome joinTwo_runs
  have written := joined.trans
    (.of_isSome writeCommits_runs)
  refine ⟨_, ?_, operations_sequenced written⟩
  decide +kernel

/-- The head crashes after its write has reached the tail.  It is recovered from the tail, which
has not committed the write yet, and gives out the same number again. -/
def headRecovers : List Action :=
  List.flatten
    [putAtHead 1 "x" :: .deliver 0 :: goOn "b" 1,
      [.restart "a", .node "a" (.command (.recoverReplica headOfTwo "b")), .serveSnapshot "a",
        .node "a" (.replied true), putAtHead 2 "y"],
      .node "a" (.flushPrepare none) :: .node "a" (.completion 0) :: goOn "a" 2,
      .node "b" (.flushPrepare none) :: .node "b" (.completion 0) :: goOn "b" 10,
      .deliver 2 :: goOn "a" 2,
      [.node "a" (.flushCommitRange 1 1 none), .node "a" (.completion 0), .node "a" .task]]

theorem headRecovers_runs :
    (run (Cluster.step id) (joinTwo ++ headRecovers) (.initial plainConfig)).isSome = true := by
  decide +kernel

theorem recovered_head_disagrees :
    ¬∀ (resolve : String → String) (config : String → NodeConfig) (cluster : Cluster),
      Reaches (Cluster.step resolve) (fun _ _ => True) (.initial config) cluster →
        cluster.Agrees := by
  intro h
  have agrees := h id plainConfig _
    (.of_isSome headRecovers_runs)
  revert agrees
  decide +kernel

end Craq.Storage
