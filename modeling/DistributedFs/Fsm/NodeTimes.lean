import DistributedFs.Fsm.Lifecycle
import DistributedFs.Fsm.Nodes

namespace DistributedFs.Fsm

open Go MetadataFSM

section

variable (oracle : Nat → Nat → MapOrder) (m : FSM) (log : List Command) (id : String)

def NeverBackwards : Prop :=
  ∀ k node, (stateAt oracle m log k).nodeRegistry.lookup id = some node →
    ∃ later, (stateAt oracle m log (k + 1)).nodeRegistry.lookup id = some later ∧
      node.updatedAt ≤ later.updatedAt

end

def Backdates (id : String) (m : FSM) : Command → Prop
  | .registerNode req => req.nodeID = id ∧
      ∃ node, m.nodeRegistry.lookup id = some node ∧ req.createdAt < node.updatedAt
  | _ => False

theorem updateNode_updatedAt {m : FSM} {label nodeID : String} {updatedAt : Time}
    {change : NodeEntry → NodeEntry} (keeps : ∀ node, (change node).updatedAt = node.updatedAt)
    {id : String} {node : NodeEntry} (found : m.nodeRegistry.lookup id = some node) :
    ∃ later, (m.updateNode label nodeID updatedAt change).1.nodeRegistry.lookup id = some later ∧
      node.updatedAt ≤ later.updatedAt := by
  unfold updateNode
  cases read : m.getNode nodeID with
  | error err => exact ⟨node, found, le_refl _⟩
  | ok old =>
    simp only [setNode, GoMap.lookup_insert]
    by_cases here : id = nodeID
    · subst here
      cases ((getNode_ok m).mp read).symm.trans found
      refine ⟨_, if_pos rfl, ?_⟩
      rw [← keeps node]
      split
      · rename_i later
        exact later.le
      · exact le_refl _
    · exact ⟨node, by rw [if_neg here, found], le_refl _⟩

theorem registerNode_known {m : FSM} (keys : NodeKeys m) (orders : Nat → MapOrder) {req : CommandRegisterNode}
    {node : NodeEntry} (found : m.nodeRegistry.lookup req.nodeID = some node) :
    ∃ later, (m.handle orders (.registerNode req)).1.nodeRegistry.lookup req.nodeID = some later ∧
      later.updatedAt = req.createdAt := by
  have read := (getNode_ok m).mpr found
  have own := keys req.nodeID node found
  simp only [handle, handleCmdRegisterNode, read, storeNode, upsert, setNode, GoMap.lookup_insert, own]
  exact ⟨_, if_pos trivial, rfl⟩

theorem registerNode_other {m : FSM} (keys : NodeKeys m) (orders : Nat → MapOrder) {req : CommandRegisterNode}
    {id : String} (elsewhere : id ≠ req.nodeID) :
    (m.handle orders (.registerNode req)).1.nodeRegistry.lookup id = m.nodeRegistry.lookup id := by
  simp only [handle, handleCmdRegisterNode]
  cases read : m.getNode req.nodeID with
  | error err => simp [storeNode, upsert, elsewhere]
  | ok node =>
    have own := keys req.nodeID node ((getNode_ok m).mp read)
    simp [storeNode, upsert, setNode, own, elsewhere]

theorem handle_updatedAt {m : FSM} (keys : NodeKeys m) (orders : Nat → MapOrder) {cmd : Command} {id : String}
    (orderly : ¬ Backdates id m cmd) {node : NodeEntry} (found : m.nodeRegistry.lookup id = some node) :
    ∃ later, (m.handle orders cmd).1.nodeRegistry.lookup id = some later ∧ node.updatedAt ≤ later.updatedAt := by
  cases cmd with
  | registerNode req =>
    by_cases here : id = req.nodeID
    · subst here
      obtain ⟨later, stored, time⟩ := registerNode_known keys orders found
      refine ⟨later, stored, ?_⟩
      rw [time]
      by_contra back
      exact orderly ⟨rfl, node, found, lt_of_not_ge back⟩
    · exact ⟨node, by rw [registerNode_other keys orders here, found], le_refl _⟩
  | deregisterNode req | markNodeDead req | markNodeAlive req | updateNodeSpace req =>
    refine updateNode_updatedAt ?_ found
    exact fun _ => rfl
  | createFile | commitFile | deleteFile | commitChunk | evictChunkFromNode | markChunkLost
  | createRepairJob | updateRepairJob | addChunkReplica | registerMetadataNode | deregisterMetadataNode =>
    rw [handle_nodeRegistry m orders rfl]
    exact ⟨node, found, le_refl _⟩

theorem stateAt_nodeKeys {m : FSM} (keys : NodeKeys m) (oracle : Nat → Nat → MapOrder) (log : List Command)
    (k : Nat) : NodeKeys (stateAt oracle m log k) := by
  have start : NodeKeys (stateAt oracle m log 0) := keys
  refine Replication.stateAt_keeps (P := fun s : FSM => NodeKeys s) ?_ start (Nat.zero_le k)
  intro i cmd _ _ before
  exact handle_nodeKeys before (oracle i) cmd

/-- In a run of any commands the time of a node never goes back exactly if no `RegisterNode` of
    it comes with a time before the one that is stored. -/
theorem node_time_monotone_iff {m : FSM} (keys : NodeKeys m) (oracle : Nat → Nat → MapOrder)
    (log : List Command) (id : String) :
    NeverBackwards oracle m log id ↔
      ∀ k cmd, log[k]? = some cmd → ¬ Backdates id (stateAt oracle m log k) cmd := by
  constructor
  · intro never k cmd entry backdates
    cases cmd with
    | registerNode req =>
      obtain ⟨rfl, node, found, back⟩ := backdates
      obtain ⟨later, stored, forward⟩ := never k node found
      obtain ⟨last, present, time⟩ := registerNode_known (stateAt_nodeKeys keys oracle log k) (oracle k) found
      rw [stateAt, Replication.stateAt_succ _ _ entry] at stored
      cases stored.symm.trans present
      rw [time] at forward
      exact absurd forward (not_le_of_gt back)
    | _ => exact backdates.elim
  · intro orderly k node found
    cases entry : log[k]? with
    | none =>
      rw [stateAt, Replication.stateAt_past _ _ entry]
      exact ⟨node, found, le_refl _⟩
    | some cmd =>
      rw [stateAt, Replication.stateAt_succ _ _ entry]
      exact handle_updatedAt (stateAt_nodeKeys keys oracle log k) (oracle k) (orderly k cmd entry) found

theorem nodeKeys_empty : NodeKeys (newEmptyMetadataFsm : FSM) := by
  intro id node found
  cases found

/-- A node restarts, and the new leader's clock is ahead of the old one's. -/
def restartedAhead : List Command :=
  [.registerNode ⟨"n1", "10.0.0.1:9000", 1000, 0, 5⟩, .updateNodeSpace ⟨"n1", 900, 1, 3⟩,
    .registerNode ⟨"n1", "10.0.0.1:9000", 900, 1, 8⟩]

theorem node_time_monotone_iff_restartedAhead :
    NeverBackwards (fun _ _ => default) newEmptyMetadataFsm restartedAhead "n1" := by
  refine (node_time_monotone_iff nodeKeys_empty (fun _ _ => default) restartedAhead "n1").mpr ?_
  intro k cmd entry backdates
  match k with
  | 0 =>
    cases entry
    obtain ⟨_, node, found, _⟩ := backdates
    cases found
  | 1 =>
    cases entry
    exact backdates
  | 2 =>
    cases entry
    obtain ⟨_, node, found, back⟩ := backdates
    have stored : ((stateAt (fun _ _ => default) newEmptyMetadataFsm restartedAhead 2).nodeRegistry.lookup
        "n1").map NodeEntry.updatedAt = some 5 := by decide
    rw [found] at stored
    have time : node.updatedAt = 5 := Option.some.inj stored
    rw [time] at back
    exact absurd back (by decide)
  | k + 3 => cases entry

def restartedBehind : List Command :=
  [.registerNode ⟨"n1", "10.0.0.1:9000", 1000, 0, 5⟩, .registerNode ⟨"n1", "10.0.0.1:9000", 900, 1, 2⟩]

theorem restart_sets_time_back :
    ((stateAt (fun _ _ => default) newEmptyMetadataFsm restartedBehind 1).nodeRegistry.lookup "n1").map
      NodeEntry.updatedAt = some 5 ∧
    ((stateAt (fun _ _ => default) newEmptyMetadataFsm restartedBehind 2).nodeRegistry.lookup "n1").map
      NodeEntry.updatedAt = some 2 ∧
    ¬ NeverBackwards (fun _ _ => default) newEmptyMetadataFsm restartedBehind "n1" := by
  have before : ((stateAt (fun _ _ => default) newEmptyMetadataFsm restartedBehind 1).nodeRegistry.lookup
      "n1").map NodeEntry.updatedAt = some 5 := by decide
  have after : ((stateAt (fun _ _ => default) newEmptyMetadataFsm restartedBehind 2).nodeRegistry.lookup
      "n1").map NodeEntry.updatedAt = some 2 := by decide
  refine ⟨before, after, ?_⟩
  intro never
  obtain ⟨node, found, time⟩ := Option.map_eq_some_iff.mp before
  obtain ⟨later, stored, forward⟩ := never 1 node found
  rw [stored] at after
  have last : later.updatedAt = 2 := Option.some.inj after
  rw [time, last] at forward
  exact absurd forward (by decide)

end DistributedFs.Fsm
