import DistributedFs.Fsm.Reads
import DistributedFs.Server.Rpc

namespace DistributedFs.Watcher

open Go Fsm Server

def staleNodes (suspectTimeout : Duration) (now : Time) : List NodeEntry → List String
  | [] => []
  | node :: rest =>
    if node.status ≠ .alive then staleNodes suspectTimeout now rest
    else
      let elapsed := Time.sub now node.lastSeen
      if elapsed ≤ suspectTimeout then staleNodes suspectTimeout now rest
      else node.nodeID :: staleNodes suspectTimeout now rest

def sweep (raft : RaftView) (suspectTimeout : Duration) (m : FSM) (order : MapOrder) (now : Time) :
    List Command :=
  if raft.isLeader = false then []
  else (staleNodes suspectTimeout now (m.getAllNodes order)).map fun nodeID =>
    .markNodeDead { nodeID := nodeID, updatedAt := now }

theorem mem_staleNodes (suspectTimeout : Duration) (now : Time) (nodes : List NodeEntry)
    (nodeID : String) :
    nodeID ∈ staleNodes suspectTimeout now nodes ↔
      ∃ node ∈ nodes, node.status = .alive ∧ suspectTimeout < Time.sub now node.lastSeen ∧
        node.nodeID = nodeID := by
  induction nodes with
  | nil => simp [staleNodes]
  | cons node rest ih =>
    simp only [staleNodes, List.exists_mem_cons_iff]
    split
    · rename_i other
      simp [ih, other]
    · rename_i alive
      split
      · rename_i recent
        simp [ih, Int.not_lt.mpr recent]
      · rename_i stale
        simp [ih, not_not.mp alive, Int.not_le.mp stale, eq_comm]

/-- A sweep of a leader proposes the death of exactly the nodes that are alive in its
    registry and silent for longer than the timeout there. -/
theorem mem_sweep {m : FSM} {raft : RaftView} (leads : raft.isLeader = true)
    (suspectTimeout : Duration) (order : MapOrder) (now : Time) (nodeID : String) :
    .markNodeDead ⟨nodeID, now⟩ ∈ sweep raft suspectTimeout m order now ↔
      ∃ id node, m.nodeRegistry.lookup id = some node ∧ node.status = .alive ∧
        suspectTimeout < Time.sub now node.lastSeen ∧ node.nodeID = nodeID := by
  simp only [sweep, leads, Bool.true_eq_false, if_false, List.mem_map, mem_staleNodes,
    MetadataFSM.mem_getAllNodes, Command.markNodeDead.injEq, CommandMarkNodeDead.mk.injEq, and_true,
    exists_eq_right]
  constructor
  · intro held
    obtain ⟨node, ⟨id, found⟩, rest⟩ := held
    exact ⟨id, node, found, rest⟩
  · intro held
    obtain ⟨id, node, found, rest⟩ := held
    exact ⟨node, ⟨id, found⟩, rest⟩

end DistributedFs.Watcher
