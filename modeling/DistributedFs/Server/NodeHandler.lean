import DistributedFs.Fsm.Reads
import DistributedFs.Server.Rpc

namespace DistributedFs.Server

open Go Fsm

structure RegisterNodeRequest where
  nodeId : String
  address : String
  freeSpace : Int64
  chunkIds : List String

def registerNode (raft : RaftView) (m : FSM) (req : RegisterNodeRequest) (now : Time) :
    Except RpcError Command :=
  if raft.isLeader = false then .error (leaderRedirect raft m)
  else .ok (.registerNode
    { nodeID := req.nodeId, address := req.address, freeSpace := req.freeSpace.toUInt64
      chunkCount := UInt64.ofNat req.chunkIds.length, createdAt := now })

structure HeartbeatRequest where
  nodeId : String
  freeSpace : Int64
  chunkCount : Int32

abbrev HeartbeatsCount := GoMap Nat

/-- `Heartbeat`: the state machine and the counts after the call, and the commands it
    proposes. Only a failed lookup can make `UpdateLastSeen` fail, which the handler logs. -/
def heartbeat (raft : RaftView) (m : FSM) (counts : HeartbeatsCount) (req : HeartbeatRequest)
    (now : Time) : (FSM × HeartbeatsCount) × Except RpcError (List Command) :=
  if raft.isLeader = false then ((m, counts), .error (leaderRedirect raft m))
  else
    match m.getNode req.nodeId with
    | .error _ => ((m, counts), .error { code := .notFound, message := "node not registered" })
    | .ok _ =>
      let count := (counts.lookup req.nodeId).getD 0 + 1
      let proposals :=
        if count % 10 = 0 then
          [.updateNodeSpace ⟨req.nodeId, req.freeSpace.toUInt64, req.chunkCount.toInt64.toUInt64, now⟩]
        else []
      (((m.updateLastSeen req.nodeId now).1, counts.insert req.nodeId count), .ok proposals)

structure RepairInstruction where
  jobId : String
  chunkId : String
  sourceNodeId : String
  sourceAddr : String
  targetNodeId : String
  targetAddr : String
  deleteSource : Bool

def instructionAddr (m : FSM) (nodeID : String) : String :=
  if nodeID ≠ "" then
    match m.getNode nodeID with
    | .error _ => ""
    | .ok node => node.address
  else ""

def buildRepairInstructions (m : FSM) (jobIDs : List String) : List RepairInstruction :=
  jobIDs.filterMap fun jobID =>
    match m.getRepairJob jobID with
    | .error _ => none
    | .ok val => some
      { jobId := val.jobID, chunkId := val.chunkID
        sourceNodeId := val.sourceNodeID, sourceAddr := instructionAddr m val.sourceNodeID
        targetNodeId := val.targetNodeID, targetAddr := instructionAddr m val.targetNodeID
        deleteSource := val.deleteSource }

theorem heartbeat_ok {raft : RaftView} {m : FSM} {counts : HeartbeatsCount}
    {req : HeartbeatRequest} {now : Time} {proposals : List Command}
    (accepted : (heartbeat raft m counts req now).2 = .ok proposals) :
    raft.isLeader = true ∧ (∃ node, m.nodeRegistry.lookup req.nodeId = some node) ∧
      (heartbeat raft m counts req now).1.1 = (m.updateLastSeen req.nodeId now).1 := by
  unfold heartbeat at accepted ⊢
  cases leads : raft.isLeader with
  | false => simp [leads] at accepted
  | true =>
    simp only [leads, Bool.true_eq_false, if_false, true_and] at accepted ⊢
    unfold MetadataFSM.getNode at accepted ⊢
    cases found : m.nodeRegistry.lookup req.nodeId with
    | none => simp [found] at accepted
    | some node => exact ⟨⟨node, rfl⟩, rfl⟩

theorem heartbeat_error {raft : RaftView} {m : FSM} {counts : HeartbeatsCount}
    {req : HeartbeatRequest} {now : Time} {err : RpcError}
    (rejected : (heartbeat raft m counts req now).2 = .error err) :
    (heartbeat raft m counts req now).1 = (m, counts) := by
  unfold heartbeat at rejected ⊢
  split at rejected
  · rename_i follows
    rw [if_pos follows]
  · rename_i leads
    rw [if_neg leads]
    cases read : m.getNode req.nodeId with
    | error _ => rfl
    | ok node => simp [read] at rejected

end DistributedFs.Server
