import DistributedFs.Fsm.Registries
import DistributedFs.Server.NodeHandler
import DistributedFs.Watcher.NodeWatcher

namespace DistributedFs.Watcher

open Go Fsm Server MetadataFSM

/-- One metadata server: its state machine, how much of the log it has applied, and the
    counters of its heartbeat handler. -/
structure Replica where
  fsm : FSM
  applied : Nat
  counts : HeartbeatsCount

def Replica.fresh : Replica := ⟨newEmptyMetadataFsm, 0, ∅⟩

/-- The metadata servers, the log Raft has committed, the snapshots taken so far, and what
    each server believes about the leadership. -/
structure Cluster where
  now : Time
  log : List Command
  raft : Nat → RaftView
  replicas : Nat → Replica
  snapshots : List (Nat × SnapshotJson)

def Cluster.setReplica (c : Cluster) (r : Nat) (replica : Replica) : Cluster :=
  { c with replicas := fun i => if i = r then replica else c.replicas i }

inductive Action where
  | accepted (replica : Nat) (nodeID : String) (alive : Bool) (time : Time)
  | created (replica : Nat) (nodeID : String) (time : Time)
  | restored (replica : Nat)

def creations (r : Nat) (m : FSM) : Command → List Action
  | .registerNode req =>
    if req.nodeID ∈ m.nodeRegistry then [] else [.created r req.nodeID req.createdAt]
  | _ => []

def acceptances (r : Nat) (m : FSM) (nodeID : String) (now : Time) :
    Except RpcError (List Command) → List Action
  | .ok _ =>
    [.accepted r nodeID (decide ((m.nodeRegistry.lookup nodeID).map NodeEntry.status = some .alive)) now]
  | .error _ => []

/-- A step of the cluster and the actions it takes. Every command but a registration may
    enter the log at any time, the proposals of sweeps and heartbeats among them. -/
inductive Step (c : Cluster) : List Action → Cluster → Prop where
  | tick (time : Time) (later : c.now ≤ time) : Step c [] { c with now := time }
  | elect (raft : Nat → RaftView) : Step c [] { c with raft := raft }
  | register (r : Nat) (req : RegisterNodeRequest) (cmd : Command)
    (proposed : registerNode (c.raft r) (c.replicas r).fsm req c.now = .ok cmd) :
    Step c [] { c with log := c.log ++ [cmd] }
  | propose (cmd : Command) (other : ∀ req, cmd ≠ .registerNode req) :
    Step c [] { c with log := c.log ++ [cmd] }
  | apply (r : Nat) (orders : Nat → MapOrder) (cmd : Command)
    (next : c.log[(c.replicas r).applied]? = some cmd) :
    Step c (creations r (c.replicas r).fsm cmd)
      (c.setReplica r ⟨((c.replicas r).fsm.handle orders cmd).1, (c.replicas r).applied + 1,
        (c.replicas r).counts⟩)
  | heartbeat (r : Nat) (req : HeartbeatRequest)
    (outcome : (FSM × HeartbeatsCount) × Except RpcError (List Command))
    (served : Server.heartbeat (c.raft r) (c.replicas r).fsm (c.replicas r).counts req c.now = outcome) :
    Step c (acceptances r (c.replicas r).fsm req.nodeId c.now outcome.2)
      (c.setReplica r ⟨outcome.1.1, (c.replicas r).applied, outcome.1.2⟩)
  | snapshot (r : Nat) :
    Step c [] { c with
      snapshots := ((c.replicas r).applied, (c.replicas r).fsm.snapshot.persist) :: c.snapshots }
  | restore (r index : Nat) (document : SnapshotJson) (stored : (index, document) ∈ c.snapshots) :
    Step c [.restored r]
      (c.setReplica r ⟨((c.replicas r).fsm.restore document).1, index, (c.replicas r).counts⟩)
  | restart (r : Nat) : Step c [.restored r] (c.setReplica r .fresh)

inductive Run : List Action → Cluster → Prop where
  | start (now : Time) (raft : Nat → RaftView) : Run [] ⟨now, [], raft, fun _ => .fresh, []⟩
  | step {history actions : List Action} {c later : Cluster} (before : Run history c)
    (taken : Step c actions later) : Run (history ++ actions) later

def sightingAfter (r : Nat) (nodeID : String) (seen : Option Time) : Action → Option Time
  | .accepted r' nodeID' _ time | .created r' nodeID' time =>
    if r' = r ∧ nodeID' = nodeID then some time else seen
  | .restored r' => if r' = r then none else seen

/-- When server `r` last saw the node itself, by a heartbeat or by applying its first
    registration, since it last started or restored a snapshot. -/
def lastSighting (r : Nat) (nodeID : String) (history : List Action) : Option Time :=
  history.foldl (sightingAfter r nodeID) none

theorem lastSighting_append (r : Nat) (nodeID : String) (history actions : List Action) :
    lastSighting r nodeID (history ++ actions) =
      actions.foldl (sightingAfter r nodeID) (lastSighting r nodeID history) :=
  List.foldl_append

structure Tracked (history : List Action) (c : Cluster) : Prop where
  keys : ∀ r, NodeKeys (c.replicas r).fsm
  documents : ∀ index document, (index, document) ∈ c.snapshots →
    ∃ s : FSM, NodeKeys s ∧ document = s.snapshot.persist
  lastSeen : ∀ r id node, (c.replicas r).fsm.nodeRegistry.lookup id = some node →
    node.lastSeen = (lastSighting r id history).getD 0

theorem Tracked.setReplica {history actions : List Action} {c : Cluster}
    (tracked : Tracked history c) (r : Nat) (replica : Replica)
    (elsewhere : ∀ other id seen, other ≠ r →
      actions.foldl (sightingAfter other id) seen = seen)
    (keys : NodeKeys replica.fsm)
    (lastSeen : ∀ id node, replica.fsm.nodeRegistry.lookup id = some node →
      node.lastSeen = (lastSighting r id (history ++ actions)).getD 0) :
    Tracked (history ++ actions) (c.setReplica r replica) where
  keys other := by
    simp only [Cluster.setReplica]
    split
    · exact keys
    · exact tracked.keys other
  documents := tracked.documents
  lastSeen other id node found := by
    simp only [Cluster.setReplica] at found
    split at found
    · rename_i here
      subst here
      exact lastSeen id node found
    · rename_i different
      rw [lastSighting_append, elsewhere other id _ different]
      exact tracked.lastSeen other id node found

theorem Tracked.apply {history : List Action} {c : Cluster} (tracked : Tracked history c) (r : Nat)
    (orders : Nat → MapOrder) (cmd : Command) :
    Tracked (history ++ creations r (c.replicas r).fsm cmd)
      (c.setReplica r ⟨((c.replicas r).fsm.handle orders cmd).1, (c.replicas r).applied + 1,
        (c.replicas r).counts⟩) := by
  refine tracked.setReplica r _ ?_ (handle_nodeKeys (tracked.keys r) orders cmd) ?_
  · intro other id seen different
    unfold creations
    split
    · split
      · rfl
      · simp [sightingAfter, Ne.symm different]
    · rfl
  · intro id node found
    cases handle_nodeOrigin (tracked.keys r) orders cmd found with
    | kept old present _ lastSeen =>
      rw [lastSeen, tracked.lastSeen r id old present, lastSighting_append]
      unfold creations
      split
      · rename_i req
        split
        · rfl
        · rename_i unknown
          have other : req.nodeID ≠ id := by
            intro same
            subst same
            exact unknown (Finmap.mem_of_lookup_eq_some present)
          simp [sightingAfter, other]
      · rfl
    | created req registers own new _ lastSeen =>
      subst registers own
      rw [lastSeen, lastSighting_append]
      simp [creations, new, sightingAfter]

theorem Tracked.heartbeat {history : List Action} {c : Cluster} (tracked : Tracked history c)
    (r : Nat) (req : HeartbeatRequest)
    {outcome : (FSM × HeartbeatsCount) × Except RpcError (List Command)}
    (served : Server.heartbeat (c.raft r) (c.replicas r).fsm (c.replicas r).counts req c.now = outcome) :
    Tracked (history ++ acceptances r (c.replicas r).fsm req.nodeId c.now outcome.2)
      (c.setReplica r ⟨outcome.1.1, (c.replicas r).applied, outcome.1.2⟩) := by
  subst served
  cases result : (Server.heartbeat (c.raft r) (c.replicas r).fsm (c.replicas r).counts req c.now).2 with
  | error err =>
    have same := heartbeat_error result
    refine tracked.setReplica r _ (fun _ _ _ _ => rfl) ?_ ?_
    · rw [same]
      exact tracked.keys r
    · intro id node found
      rw [same] at found
      rw [acceptances, List.append_nil]
      exact tracked.lastSeen r id node found
  | ok proposals =>
    obtain ⟨_, _, same⟩ := heartbeat_ok result
    refine tracked.setReplica r _ ?_ ?_ ?_
    · intro other id seen different
      simp [acceptances, sightingAfter, Ne.symm different]
    · intro id node found
      rw [same] at found
      obtain ⟨old, present, nodeID, _, _⟩ := lookup_updateLastSeen found
      exact nodeID.trans (tracked.keys r id old present)
    · intro id node found
      rw [same] at found
      obtain ⟨old, present, _, _, lastSeen⟩ := lookup_updateLastSeen found
      rw [lastSeen, lastSighting_append]
      by_cases here : id = req.nodeId
      · subst here
        simp [acceptances, sightingAfter]
      · simp [acceptances, sightingAfter, here, Ne.symm here, tracked.lastSeen r id old present]

theorem Tracked.forget {history : List Action} {c : Cluster} (tracked : Tracked history c) (r : Nat)
    (replica : Replica) (keys : NodeKeys replica.fsm)
    (zero : ∀ id node, replica.fsm.nodeRegistry.lookup id = some node → node.lastSeen = 0) :
    Tracked (history ++ [.restored r]) (c.setReplica r replica) := by
  refine tracked.setReplica r replica ?_ keys ?_
  · intro other id seen different
    simp [sightingAfter, Ne.symm different]
  · intro id node found
    rw [zero id node found, lastSighting_append]
    simp [sightingAfter]

theorem step_tracked {history actions : List Action} {c later : Cluster}
    (tracked : Tracked history c) (step : Step c actions later) :
    Tracked (history ++ actions) later := by
  cases step with
  | tick | elect | register | propose =>
    rw [List.append_nil]
    exact ⟨tracked.keys, tracked.documents, tracked.lastSeen⟩
  | apply r orders cmd next => exact tracked.apply r orders cmd
  | heartbeat r req outcome served => exact tracked.heartbeat r req served
  | snapshot r =>
    rw [List.append_nil]
    refine ⟨tracked.keys, ?_, tracked.lastSeen⟩
    intro index document stored
    rcases List.mem_cons.mp stored with same | stored
    · cases same
      exact ⟨_, tracked.keys r, rfl⟩
    · exact tracked.documents index document stored
  | restore r index document stored =>
    obtain ⟨s, keys, rfl⟩ := tracked.documents index document stored
    refine tracked.forget r _ ?_ ?_
    · rw [restore_persist]
      exact nodeKeys_forgetLastSeen keys
    · intro id node found
      rw [restore_persist] at found
      simp only [forgetLastSeen, GoMap.lookup_mapValues, Option.map_eq_some_iff] at found
      obtain ⟨old, _, rfl⟩ := found
      rfl
  | restart r =>
    refine tracked.forget r _ ?_ ?_
    · intro id node found
      cases found
    · intro id node found
      cases found

theorem run_tracked {history : List Action} {c : Cluster} (run : Run history c) :
    Tracked history c := by
  induction run with
  | start now raft =>
    exact ⟨fun _ _ _ found => (nomatch found), fun _ _ stored => (nomatch stored),
      fun _ _ _ found => (nomatch found)⟩
  | step _ taken tracked => exact step_tracked tracked taken

def RecentlyAccepted (suspectTimeout : Duration) (history : List Action) (now : Time)
    (nodeID : String) : Prop :=
  ∃ leader time, Action.accepted leader nodeID true time ∈ history ∧
    Time.sub now time ≤ suspectTimeout

def AliveAt (c : Cluster) (r : Nat) (nodeID : String) : Prop :=
  ∃ node, (c.replicas r).fsm.nodeRegistry.lookup nodeID = some node ∧ node.status = .alive

/-- No sweep, by any server that leads, declares a node dead whose heartbeat was recently
    accepted, exactly if every such server has seen the node itself within the timeout. -/
theorem no_false_death_iff {history : List Action} {c : Cluster} (run : Run history c)
    (suspectTimeout : Duration) (nodeID : String) :
    (∀ r order, RecentlyAccepted suspectTimeout history c.now nodeID →
      .markNodeDead ⟨nodeID, c.now⟩ ∉
        sweep (c.raft r) suspectTimeout (c.replicas r).fsm order c.now) ↔
    ∀ r, RecentlyAccepted suspectTimeout history c.now nodeID → (c.raft r).isLeader = true →
      AliveAt c r nodeID →
      Time.sub c.now ((lastSighting r nodeID history).getD 0) ≤ suspectTimeout := by
  have tracked := run_tracked run
  constructor
  · intro spared r accepted leads ⟨node, found, alive⟩
    rw [← tracked.lastSeen r nodeID node found]
    by_contra silent
    refine spared r default accepted ((mem_sweep leads _ _ _ _).mpr ⟨nodeID, node, found, alive, ?_, ?_⟩)
    · exact Int.not_le.mp silent
    · exact tracked.keys r nodeID node found
  · intro sighted r order accepted proposed
    cases leads : (c.raft r).isLeader with
    | false => simp [sweep, leads] at proposed
    | true =>
      obtain ⟨id, node, found, alive, silent, own⟩ := (mem_sweep leads _ _ _ _).mp proposed
      have key := tracked.keys r id node found
      rw [own] at key
      subst key
      have recent := sighted r accepted leads ⟨node, found, alive⟩
      rw [← tracked.lastSeen r nodeID node found] at recent
      exact absurd silent (Int.not_lt.mpr recent)

def leaderIs (r : Nat) (i : Nat) : RaftView := ⟨decide (i = r), "10.0.1.1:7000"⟩

def storageNode : RegisterNodeRequest := ⟨"n1", "10.0.0.1:9000", 1000, []⟩

def storageNodeCommand : Command := .registerNode ⟨"n1", "10.0.0.1:9000", 1000, 0, 1000⟩

def registered : FSM := (handle newEmptyMetadataFsm (fun _ => default) storageNodeCommand).1

def registrationApplied : Cluster :=
  ((Cluster.mk 1000 [storageNodeCommand] (leaderIs 0) (fun _ => .fresh) []).setReplica 0
    ⟨registered, 1, ∅⟩).setReplica 1 ⟨registered, 1, ∅⟩

def heartbeatAccepted (r : Nat) : Cluster :=
  Cluster.setReplica { registrationApplied with now := 1100, raft := leaderIs r } r
    ⟨(registered.updateLastSeen "n1" 1100).1, 1, (∅ : HeartbeatsCount).insert "n1" 1⟩

def heartbeatHistory (r : Nat) : List Action :=
  [.created 0 "n1" 1000, .created 1 "n1" 1000, .accepted r "n1" true 1100]

theorem registrationApplied_run :
    Run [.created 0 "n1" 1000, .created 1 "n1" 1000] registrationApplied := by
  have proposed : Run [] ⟨1000, [storageNodeCommand], leaderIs 0, fun _ => .fresh, []⟩ :=
    (Run.start 1000 (leaderIs 0)).step (.register 0 storageNode storageNodeCommand rfl)
  have first := proposed.step (.apply 0 (fun _ => default) storageNodeCommand rfl)
  exact first.step (.apply 1 (fun _ => default) storageNodeCommand rfl)

theorem heartbeatAccepted_run (r : Nat) (member : r = 0 ∨ r = 1) :
    Run (heartbeatHistory r) (heartbeatAccepted r) := by
  have elected := registrationApplied_run.step (.elect (leaderIs r))
  have later := elected.step (.tick 1100 (show (1000 : Int) ≤ 1100 by decide))
  rcases member with rfl | rfl
  · exact later.step (.heartbeat 0 ⟨"n1", 1000, 0⟩ _ rfl)
  · exact later.step (.heartbeat 1 ⟨"n1", 1000, 0⟩ _ rfl)

def failedOver : Cluster := { heartbeatAccepted 0 with raft := leaderIs 1 }

theorem false_death_after_failover :
    Run (heartbeatHistory 0) failedOver ∧
      RecentlyAccepted 30 (heartbeatHistory 0) failedOver.now "n1" ∧
      .markNodeDead ⟨"n1", failedOver.now⟩ ∈
        sweep (failedOver.raft 1) 30 (failedOver.replicas 1).fsm default failedOver.now := by
  refine ⟨(heartbeatAccepted_run 0 (.inl rfl)).step (.elect (leaderIs 1)),
    ⟨0, 1100, by simp [heartbeatHistory], by decide⟩, ?_⟩
  refine (mem_sweep rfl _ _ _ _).mpr
    ⟨"n1", ⟨"n1", "10.0.0.1:9000", .alive, 1000, 0, 1000, 1000, 1000⟩, ?_, rfl, by decide, rfl⟩
  decide

theorem no_false_death_iff_same_leader :
    .markNodeDead ⟨"n1", (heartbeatAccepted 1).now⟩ ∉ sweep ((heartbeatAccepted 1).raft 1) 30
      ((heartbeatAccepted 1).replicas 1).fsm default (heartbeatAccepted 1).now := by
  refine (no_false_death_iff (heartbeatAccepted_run 1 (.inr rfl)) 30 "n1").mpr ?_ 1 default
    ⟨1, 1100, by simp [heartbeatHistory], by decide⟩
  intro r _ leads _
  have here : r = 1 := of_decide_eq_true leads
  subst here
  decide

end DistributedFs.Watcher
