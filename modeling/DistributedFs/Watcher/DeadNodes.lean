import DistributedFs.Watcher.Cluster

namespace DistributedFs.Watcher

open Go Fsm Server MetadataFSM

inductive Reaction where
  | process | register | wait
deriving DecidableEq

/-- The body of `heartbeatTicker`: only an answer that the node is not registered makes it
    register again, if it has a registerer. -/
def heartbeatTicker {α : Type} (hasRegisterer : Bool) : Except RpcError α → Reaction
  | .error err =>
    if err.code = .notFound then
      if hasRegisterer = false then .wait else .register
    else .wait
  | .ok _ => .process

section Status

variable (id : String)

def statusStep (status : Option NodeStatus) : Command → Option NodeStatus
  | .registerNode req => if req.nodeID = id then some .alive else status
  | .deregisterNode req => if req.nodeID = id then status.map fun _ => .draining else status
  | .markNodeDead req => if req.nodeID = id then status.map fun _ => .dead else status
  | .markNodeAlive req => if req.nodeID = id then status.map fun _ => .alive else status
  | _ => status

def statusAfter (log : List Command) : Option NodeStatus := log.foldl (statusStep id) none

theorem statusAfter_concat (log : List Command) (cmd : Command) :
    statusAfter id (log ++ [cmd]) = statusStep id (statusAfter id log) cmd := by
  rw [statusAfter, List.foldl_append]
  rfl

def revives : Command → Bool
  | .registerNode req => req.nodeID = id
  | .markNodeAlive req => req.nodeID = id
  | _ => false

def Out (status : Option NodeStatus) : Prop := ∃ now, status = some now ∧ now ≠ .alive

variable {id}

theorem Out.step {status : Option NodeStatus} (out : Out status) {cmd : Command}
    (calm : revives id cmd = false) : Out (statusStep id status cmd) := by
  obtain ⟨now, rfl, down⟩ := out
  cases cmd with
  | registerNode req =>
    have other : ¬req.nodeID = id := by simpa [revives] using calm
    exact ⟨now, if_neg other, down⟩
  | markNodeAlive req =>
    have other : ¬req.nodeID = id := by simpa [revives] using calm
    exact ⟨now, if_neg other, down⟩
  | deregisterNode req =>
    by_cases here : req.nodeID = id
    · exact ⟨.draining, if_pos here, by decide⟩
    · exact ⟨now, if_neg here, down⟩
  | markNodeDead req =>
    by_cases here : req.nodeID = id
    · exact ⟨.dead, if_pos here, by decide⟩
    · exact ⟨now, if_neg here, down⟩
  | _ => exact ⟨now, rfl, down⟩

theorem statusOf_updateNode (m : FSM) (label nodeID : String) (updatedAt : Time)
    (change : NodeEntry → NodeEntry) (status : NodeStatus → NodeStatus)
    (changes : ∀ node, (change node).status = status node.status) :
    statusOf (m.updateNode label nodeID updatedAt change).1 id =
      if nodeID = id then (statusOf m id).map status else statusOf m id := by
  unfold updateNode
  cases read : m.getNode nodeID with
  | error err =>
    have absent := ((getNode_error m).mp read).1
    by_cases here : nodeID = id
    · subst here
      simp [statusOf, absent]
    · simp [here]
  | ok node =>
    have present := (getNode_ok m).mp read
    by_cases here : nodeID = id
    · subst here
      simp only [statusOf, setNode, GoMap.lookup_insert, present, if_true, Option.map_some]
      split
      · rw [changes]
      · rw [changes]
    · simp [statusOf, setNode, here, Ne.symm here]

theorem statusOf_registerNode {m : FSM} (keys : NodeKeys m) (req : CommandRegisterNode) :
    statusOf (m.handleCmdRegisterNode req).1 id = if req.nodeID = id then some .alive else statusOf m id := by
  unfold handleCmdRegisterNode
  cases read : m.getNode req.nodeID with
  | ok node =>
    have own := keys req.nodeID node ((getNode_ok m).mp read)
    simp only [statusOf, storeNode, upsert, setNode, GoMap.lookup_insert, own]
    by_cases here : req.nodeID = id
    · simp [here]
    · simp [here, Ne.symm here]
  | error err =>
    simp only [statusOf, storeNode, upsert, GoMap.lookup_insert]
    by_cases here : req.nodeID = id
    · simp [here]
    · simp [here, Ne.symm here]

theorem statusOf_other (m : FSM) (orders : Nat → MapOrder) {cmd : Command} (other : cmd.nodeID? = none) :
    statusOf (m.handle orders cmd).1 id = statusOf m id := by
  rw [statusOf, handle_nodeRegistry m orders other]
  rfl

theorem statusOf_handle {m : FSM} (keys : NodeKeys m) (orders : Nat → MapOrder) (cmd : Command) :
    statusOf (m.handle orders cmd).1 id = statusStep id (statusOf m id) cmd := by
  cases cmd with
  | registerNode req => exact statusOf_registerNode keys req
  | deregisterNode req => exact statusOf_updateNode m _ _ _ _ (fun _ => .draining) fun _ => rfl
  | markNodeDead req => exact statusOf_updateNode m _ _ _ _ (fun _ => .dead) fun _ => rfl
  | markNodeAlive req => exact statusOf_updateNode m _ _ _ _ (fun _ => .alive) fun _ => rfl
  | updateNodeSpace req =>
    simp only [handle, handleCmdUpdateNodeSpace, statusStep]
    refine (statusOf_updateNode m _ _ _ _ (fun status => status) ?_).trans ?_
    · exact fun _ => rfl
    · rw [Option.map_id', ite_self]
  | createFile | commitFile | deleteFile | commitChunk | evictChunkFromNode | markChunkLost
  | createRepairJob | updateRepairJob | addChunkReplica | registerMetadataNode | deregisterMetadataNode =>
    exact statusOf_other m orders rfl

theorem statusOf_updateLastSeen (m : FSM) (nodeID : String) (ts : Time) :
    statusOf (m.updateLastSeen nodeID ts).1 id = statusOf m id := by
  unfold updateLastSeen
  cases found : m.nodeRegistry.lookup nodeID with
  | none => rfl
  | some node =>
    simp only [statusOf, setNode, GoMap.lookup_insert]
    split
    · rename_i here
      rw [here, found]
      rfl
    · rfl

theorem statusOf_heartbeat (raft : RaftView) (m : FSM) (counts : HeartbeatsCount) (req : HeartbeatRequest)
    (now : Time) : statusOf (heartbeat raft m counts req now).1.1 id = statusOf m id := by
  cases answer : (heartbeat raft m counts req now).2 with
  | error err => rw [heartbeat_error answer]
  | ok proposals => rw [(heartbeat_ok answer).2.2, statusOf_updateLastSeen]

theorem statusOf_forgetLastSeen (s : FSM) : statusOf s.forgetLastSeen id = statusOf s id := by
  simp only [statusOf, forgetLastSeen, GoMap.lookup_mapValues, Option.map_map]
  rfl

theorem aliveAt_iff {c : Cluster} {r : Nat} : AliveAt c r id ↔ statusOf (c.replicas r).fsm id = some .alive := by
  rw [statusOf, Option.map_eq_some_iff]
  rfl

end Status

theorem Step.log {c later : Cluster} {actions : List Action} (step : Step c actions later) :
    ∃ more, later.log = c.log ++ more := by
  cases step with
  | register r req cmd proposed => exact ⟨[cmd], rfl⟩
  | propose cmd other => exact ⟨[cmd], rfl⟩
  | _ => exact ⟨[], (List.append_nil _).symm⟩

structure Replayed (c : Cluster) : Prop where
  keys : ∀ r, NodeKeys (c.replicas r).fsm
  within : ∀ r, (c.replicas r).applied ≤ c.log.length
  status : ∀ r id, statusOf (c.replicas r).fsm id = statusAfter id (c.log.take (c.replicas r).applied)
  documents : ∀ index document, (index, document) ∈ c.snapshots → index ≤ c.log.length ∧
    ∃ s : FSM, NodeKeys s ∧ document = s.snapshot.persist ∧
      ∀ id, statusOf s id = statusAfter id (c.log.take index)

namespace Replayed

variable {c : Cluster}

theorem append (replayed : Replayed c) (more : List Command) : Replayed { c with log := c.log ++ more } where
  keys := replayed.keys
  within r := (replayed.within r).trans (by simp)
  status r id := by
    rw [List.take_append_of_le_length (replayed.within r)]
    exact replayed.status r id
  documents index document stored := by
    obtain ⟨within, s, keys, same, status⟩ := replayed.documents index document stored
    refine ⟨?_, s, keys, same, ?_⟩
    · rw [List.length_append]
      omega
    · intro id
      rw [List.take_append_of_le_length within]
      exact status id

theorem setReplica (replayed : Replayed c) (r : Nat) (replica : Replica) (keys : NodeKeys replica.fsm)
    (within : replica.applied ≤ c.log.length)
    (status : ∀ id, statusOf replica.fsm id = statusAfter id (c.log.take replica.applied)) :
    Replayed (c.setReplica r replica) where
  keys i := by
    simp only [Cluster.setReplica]
    split
    · exact keys
    · exact replayed.keys i
  within i := by
    simp only [Cluster.setReplica]
    split
    · exact within
    · exact replayed.within i
  status i id := by
    simp only [Cluster.setReplica]
    split
    · exact status id
    · exact replayed.status i id
  documents := replayed.documents

theorem heartbeat (replayed : Replayed c) (r : Nat) (req : HeartbeatRequest)
    {outcome : (FSM × HeartbeatsCount) × Except RpcError (List Command)}
    (served : Server.heartbeat (c.raft r) (c.replicas r).fsm (c.replicas r).counts req c.now = outcome) :
    Replayed (c.setReplica r ⟨outcome.1.1, (c.replicas r).applied, outcome.1.2⟩) := by
  subst served
  refine replayed.setReplica r _ ?_ (replayed.within r) ?_
  · cases answer : (Server.heartbeat (c.raft r) (c.replicas r).fsm (c.replicas r).counts req c.now).2 with
    | error err =>
      rw [heartbeat_error answer]
      exact replayed.keys r
    | ok proposals =>
      rw [(heartbeat_ok answer).2.2]
      intro id node found
      obtain ⟨old, present, own, _⟩ := lookup_updateLastSeen found
      exact own.trans (replayed.keys r id old present)
  · intro id
    exact (statusOf_heartbeat ..).trans (replayed.status r id)

theorem step (replayed : Replayed c) {later : Cluster} {actions : List Action}
    (step : Step c actions later) : Replayed later := by
  cases step with
  | tick | elect => exact ⟨replayed.keys, replayed.within, replayed.status, replayed.documents⟩
  | register r req cmd proposed => exact replayed.append [cmd]
  | propose cmd other => exact replayed.append [cmd]
  | apply r orders cmd next =>
    obtain ⟨below, here⟩ := List.getElem?_eq_some_iff.mp next
    refine replayed.setReplica r _ (handle_nodeKeys (replayed.keys r) orders cmd) below ?_
    intro id
    rw [statusOf_handle (replayed.keys r), replayed.status r id, ← statusAfter_concat,
      List.take_add_one, next]
    rfl
  | heartbeat r req outcome served => exact replayed.heartbeat r req served
  | snapshot r =>
    refine ⟨replayed.keys, replayed.within, replayed.status, ?_⟩
    intro index document stored
    rcases List.mem_cons.mp stored with same | stored
    · cases same
      exact ⟨replayed.within r, _, replayed.keys r, rfl, replayed.status r⟩
    · exact replayed.documents index document stored
  | restore r index document stored =>
    obtain ⟨within, s, keys, rfl, status⟩ := replayed.documents index document stored
    refine replayed.setReplica r _ ?_ within ?_
    · rw [restore_persist]
      exact nodeKeys_forgetLastSeen keys
    · intro id
      rw [restore_persist, statusOf_forgetLastSeen]
      exact status id
  | restart r =>
    refine replayed.setReplica r _ ?_ (Nat.zero_le _) fun _ => rfl
    intro id node found
    cases found

theorem run {history : List Action} (run : Run history c) : Replayed c := by
  induction run with
  | start now raft =>
    refine ⟨?_, fun _ => Nat.zero_le _, fun _ _ => rfl, ?_⟩
    · intro r id node found
      cases found
    · intro index document stored
      cases stored
  | step _ taken replayed => exact replayed.step taken

end Replayed

/-- The cluster beside one storage node that goes on beating: whether it was told to register, and how
    much of the log each server had applied that told it to. -/
structure Watched where
  cluster : Cluster
  owes : Bool
  answers : List Nat

/-- The node registers only where its ticker does. Answers may be lost, and everything else in the
    cluster goes on, except that nobody else declares the node alive. -/
inductive Beating (id : String) (w : Watched) : Watched → Prop where
  | other {actions : List Action} {later : Cluster} (step : Step w.cluster actions later)
    (calm : ∀ cmd ∈ later.log.drop w.cluster.log.length, revives id cmd = false) :
    Beating id w { w with cluster := later }
  | told (r : Nat) (req : HeartbeatRequest) (own : req.nodeId = id)
    (outcome : (FSM × HeartbeatsCount) × Except RpcError (List Command))
    (served : Server.heartbeat (w.cluster.raft r) (w.cluster.replicas r).fsm (w.cluster.replicas r).counts req
      w.cluster.now = outcome) (reaction : heartbeatTicker true outcome.2 = .register) :
    Beating id w ⟨w.cluster.setReplica r ⟨outcome.1.1, (w.cluster.replicas r).applied, outcome.1.2⟩, true,
      w.answers ++ [(w.cluster.replicas r).applied]⟩
  | register (r : Nat) (req : RegisterNodeRequest) (own : req.nodeId = id) (cmd : Command) (owes : w.owes = true)
    (proposed : registerNode (w.cluster.raft r) (w.cluster.replicas r).fsm req w.cluster.now = .ok cmd) :
    Beating id w ⟨{ w.cluster with log := w.cluster.log ++ [cmd] }, false, w.answers⟩

theorem Beating.beat (id : String) (w : Watched) (r : Nat) (req : HeartbeatRequest) :
    let outcome := Server.heartbeat (w.cluster.raft r) (w.cluster.replicas r).fsm (w.cluster.replicas r).counts req
      w.cluster.now
    Beating id w { w with
      cluster := w.cluster.setReplica r ⟨outcome.1.1, (w.cluster.replicas r).applied, outcome.1.2⟩ } :=
  .other (.heartbeat r req _ rfl) (by simp [Cluster.setReplica])

theorem register_answer {raft : RaftView} {m : FSM} {counts : HeartbeatsCount} {req : HeartbeatRequest}
    {now : Time} (reaction : heartbeatTicker true (heartbeat raft m counts req now).2 = .register) :
    statusOf m req.nodeId = none := by
  unfold heartbeat at reaction
  split at reaction
  · simp only [leaderRedirect] at reaction
    split at reaction
    · cases reaction
    · cases reaction
  · cases read : m.getNode req.nodeId with
    | error err => simp [statusOf, ((getNode_error m).mp read).1]
    | ok node =>
      rw [read] at reaction
      cases reaction

/-- From the death on the node has stayed out, or was told to register by a server that had applied
    no part of the log with the node in it. -/
structure Settled (id : String) (death : Nat) (w : Watched) : Prop where
  replayed : Replayed w.cluster
  begun : death ≤ w.cluster.log.length
  answers : ∀ k ∈ w.answers, k ≤ w.cluster.log.length
  out : (w.owes = false ∧ w.answers = [] ∧
      ∀ k, death ≤ k → k ≤ w.cluster.log.length → Out (statusAfter id (w.cluster.log.take k))) ∨
    ∃ k ∈ w.answers, statusAfter id (w.cluster.log.take k) = none

namespace Settled

variable {id : String} {death : Nat} {w : Watched}

theorem grow (settled : Settled id death w) {later : Cluster} (replayed : Replayed later) {more : List Command}
    (grown : later.log = w.cluster.log ++ more) (calm : ∀ cmd ∈ more, revives id cmd = false) :
    Settled id death { w with cluster := later } := by
  have longer : w.cluster.log.length ≤ later.log.length := by
    rw [grown, List.length_append]
    omega
  have begun := settled.begun
  refine ⟨replayed, begun.trans longer, fun k told => (settled.answers k told).trans longer, ?_⟩
  rcases settled.out with ⟨owes, none, out⟩ | ⟨k, told, unknown⟩
  · refine .inl ⟨owes, none, ?_⟩
    rw [grown]
    clear grown longer
    -- the commands come one by one
    induction more using List.reverseRecOn with
    | nil =>
      rw [List.append_nil]
      exact out
    | append_singleton more cmd ih =>
      have earlier := ih fun c member => calm c (List.mem_append_left _ member)
      intro k later within
      rw [← List.append_assoc] at within ⊢
      rw [List.length_append, List.length_singleton] at within
      by_cases last : k ≤ (w.cluster.log ++ more).length
      · rw [List.take_append_of_le_length last]
        exact earlier k later last
      · have whole : k = (w.cluster.log ++ more ++ [cmd]).length := by
          rw [List.length_append, List.length_singleton]
          omega
        rw [whole, List.take_length, statusAfter_concat]
        refine Out.step ?_ (calm cmd (by simp))
        have all := earlier (w.cluster.log ++ more).length ?_ le_rfl
        · rwa [List.take_length] at all
        · rw [List.length_append]
          omega
  · refine .inr ⟨k, told, ?_⟩
    rw [grown, List.take_append_of_le_length (settled.answers k told)]
    exact unknown

theorem step (settled : Settled id death w) {later : Watched} (beats : Beating id w later) :
    Settled id death later := by
  cases beats with
  | other taken calm =>
    obtain ⟨more, grown⟩ := taken.log
    rw [grown, List.drop_left] at calm
    exact settled.grow (settled.replayed.step taken) grown calm
  | told r req own outcome served reaction =>
    have replayed := settled.replayed.heartbeat r req served
    have within := settled.replayed.within r
    refine ⟨replayed, settled.begun, ?_, .inr ⟨_, List.mem_append_right _ (List.mem_singleton_self _), ?_⟩⟩
    · intro k told
      rcases List.mem_append.mp told with earlier | here
      · exact settled.answers k earlier
      · rw [List.mem_singleton.mp here]
        exact within
    · subst served
      rw [← own]
      exact (settled.replayed.status r req.nodeId).symm.trans (register_answer reaction)
  | register r req own cmd owes proposed =>
    rcases settled.out with ⟨quiet, _⟩ | ⟨k, told, unknown⟩
    · rw [owes] at quiet
      cases quiet
    · refine ⟨settled.replayed.append [cmd], ?_, ?_, .inr ⟨k, told, ?_⟩⟩
      · have begun := settled.begun
        rw [List.length_append]
        omega
      · intro k told
        have within := settled.answers k told
        rw [List.length_append]
        omega
      · rw [List.take_append_of_le_length (settled.answers k told)]
        exact unknown

theorem run {later : Watched} (settled : Settled id death w)
    (beats : Relation.ReflTransGen (Beating id) w later) : Settled id death later := by
  induction beats with
  | refl => exact settled
  | tail _ beat ih => exact ih.step beat

end Settled

theorem heartbeat_accepted {raft : RaftView} {m : FSM} {counts : HeartbeatsCount} {req : HeartbeatRequest}
    {now : Time} (leads : raft.isLeader = true) {status : NodeStatus} (known : statusOf m req.nodeId = some status) :
    ∃ proposals, (heartbeat raft m counts req now).2 = .ok proposals := by
  obtain ⟨node, found, _⟩ := Option.map_eq_some_iff.mp known
  simp only [heartbeat, leads, Bool.true_eq_false, if_false, (getNode_ok m).mpr found]
  exact ⟨_, rfl⟩

/-- A storage node that was declared dead and only goes on sending heartbeats stays out for good,
    through elections, snapshots and restarts: every server that has applied its death and leads accepts
    its heartbeats, does not tell it to register, and does not count it alive. It comes back only if a
    server tells it to register before having applied the part of the log with the node in it. -/
theorem beating_node_stays_dead {history : List Action} {c : Cluster} (run : Run history c) {id : String}
    (dead : statusAfter id c.log = some .dead) {w : Watched}
    (beats : Relation.ReflTransGen (Beating id) ⟨c, false, []⟩ w)
    (informed : ∀ applied ∈ w.answers, statusAfter id (w.cluster.log.take applied) ≠ none) :
    w.answers = [] ∧ ∀ r, c.log.length ≤ (w.cluster.replicas r).applied →
      ¬AliveAt w.cluster r id ∧
      ∀ req, req.nodeId = id → (w.cluster.raft r).isLeader = true →
        ∃ proposals, (heartbeat (w.cluster.raft r) (w.cluster.replicas r).fsm (w.cluster.replicas r).counts req
          w.cluster.now).2 = .ok proposals := by
  have begins : Settled id c.log.length ⟨c, false, []⟩ := by
    refine ⟨.run run, le_rfl, by simp, .inl ⟨rfl, rfl, ?_⟩⟩
    intro k later within
    have all : k = c.log.length := le_antisymm within later
    rw [all, List.take_length]
    exact ⟨.dead, dead, by decide⟩
  have settled := begins.run beats
  rcases settled.out with ⟨_, none, out⟩ | ⟨k, told, unknown⟩
  · refine ⟨none, ?_⟩
    intro r applied
    obtain ⟨now, status, down⟩ := out _ applied (settled.replayed.within r)
    have known := (settled.replayed.status r id).trans status
    constructor
    · rw [aliveAt_iff, known]
      intro alive
      exact down (Option.some.inj alive)
    · intro req own leads
      subst own
      exact heartbeat_accepted leads known
  · exact absurd unknown (informed k told)

def deathLogged : Cluster :=
  { registrationApplied with log := [storageNodeCommand, .markNodeDead ⟨"n1", 1000⟩] }

theorem deathLogged_run : Run ([.created 0 "n1" 1000, .created 1 "n1" 1000] ++ []) deathLogged :=
  registrationApplied_run.step (.propose (.markNodeDead ⟨"n1", 1000⟩) (by simp))

theorem beating_node_stays_dead_n1 : ∃ w : Watched,
    Relation.ReflTransGen (Beating "n1") ⟨deathLogged, false, []⟩ w ∧
      deathLogged.log.length ≤ (w.cluster.replicas 0).applied ∧ ¬AliveAt w.cluster 0 "n1" := by
  have applied : Beating "n1" ⟨deathLogged, false, []⟩ _ :=
    .other (.apply 0 (fun _ => default) (.markNodeDead ⟨"n1", 1000⟩) rfl) (by simp [Cluster.setReplica])
  have beats := (Relation.ReflTransGen.single applied).tail (.beat "n1" _ 0 ⟨"n1", 1000, 0⟩)
  have stays := beating_node_stays_dead deathLogged_run rfl beats (by simp)
  exact ⟨_, beats, le_rfl, (stays.2 0 le_rfl).1⟩

end DistributedFs.Watcher
