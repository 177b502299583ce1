import DistributedFs.Scheduler.RepairScheduler

namespace DistributedFs.Reconcile

open Go Fsm Healing Healing.Prog Scheduler

/-- `evictStaleReplica`: the RPC is sent whether or not the eviction was accepted. -/
def evictStaleReplica (nodeID nodeAddr chunkID : String) : Prog :=
  proposeEvictChunk chunkID nodeID "stale replica during reconciliation" fun _ =>
    act (.deleteChunk nodeID nodeAddr chunkID) fun _ => done

def handleMissingReplica (rs : RepairScheduler) (replicationFactor : Int) (nodeID chunkID : String) :
    Prog :=
  proposeEvictChunk chunkID nodeID "missing replica during reconciliation" fun
    | some _ => done
    | none =>
      look fun m _ =>
        match m.getChunkLocations chunkID with
        | .error _ => done
        | .ok liveReplicas =>
          let stillListed := liveReplicas.any fun n => n.nodeID = nodeID
          let expectedLiveCount : Int :=
            if stillListed then liveReplicas.length - 1 else liveReplicas.length
          if expectedLiveCount < replicationFactor then scheduleRepairForChunk rs chunkID else done

/-- `ReconcileNode`. The expected chunks are read once; the address of the node is read
    through its pointer at each stale chunk. -/
def reconcileNode (rs : RepairScheduler) (replicationFactor : Int) (nodeID : String)
    (reportedChunks : List String) : Prog :=
  look fun m _ =>
    match m.getNode nodeID with
    | .error _ => done
    | .ok node =>
      look fun m order =>
        let expectedChunks := m.getChunksByNode order nodeID
        (forEach (fun cid =>
          if cid ∈ expectedChunks then done
          else look fun m _ =>
            evictStaleReplica nodeID
              ((m.nodeRegistry.lookup nodeID).map NodeEntry.address |>.getD node.address) cid)
          reportedChunks).andThen
        (forEach (fun cid =>
          if cid ∈ reportedChunks then done
          else handleMissingReplica rs replicationFactor nodeID cid) expectedChunks)

end DistributedFs.Reconcile
