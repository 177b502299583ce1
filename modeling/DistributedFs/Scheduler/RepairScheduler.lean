import DistributedFs.Healing.Effects
import DistributedFs.Placement.Strategy

namespace DistributedFs.Scheduler

open Go Fsm Healing Healing.Prog Placement

structure RepairScheduler where
  replicationFactor : Int
  sourceStrategy : PlacementStrategy
  targetStrategy : PlacementStrategy

def newRepairScheduler (source target : PlacementStrategy) (rf : Int) : RepairScheduler where
  replicationFactor := min (if rf ≤ 0 then 3 else rf) 10
  sourceStrategy := source
  targetStrategy := target

def proposeEvictChunk (chunkID nodeID reason : String) (next : Option GoError → Prog) : Prog :=
  clock fun evictedAt => propose (.evictChunkFromNode ⟨chunkID, nodeID, evictedAt, reason⟩) next

def proposeAddReplica (chunkID nodeID : String) (next : Option GoError → Prog) : Prog :=
  propose (.addChunkReplica ⟨chunkID, nodeID⟩) next

def excludeNode (nodes : List NodeEntry) (nodeID : String) : List NodeEntry :=
  nodes.filter fun n => n.nodeID ≠ nodeID

def createJob (chunkID sourceNode targetNode : String) (deleteSource : Bool) : Prog :=
  act .uuid fun jid => clock fun createdAt =>
    propose (.createRepairJob ⟨jid, createdAt, chunkID, deleteSource, sourceNode, targetNode⟩) fun
      | some _ => done
      | none => act (.enqueue jid) fun _ => done

/-- The body of the loop over the chosen targets; a copy that is pending is not ordered again. -/
def scheduleCopy (chunkID sourceNode targetNode : String) : Prog :=
  act (.pendingKey (chunkID ++ ":" ++ targetNode)) fun
    | true => done
    | false => createJob chunkID sourceNode targetNode false

def scheduleRepairJobs (rs : RepairScheduler) (chunkID : String) (liveReplicas : List NodeEntry)
    (deficit : Int) : Prog :=
  if deficit > 0 then
    if liveReplicas.length = 0 then done
    else
      look fun m order => look fun later _ =>
        match later.getChunk chunkID with
        | .error _ => done
        | .ok chunk =>
          match rs.targetStrategy.selectNodes (m.getLiveNodes order) chunkID chunk.size deficit
            liveReplicas with
          | (_, some _) => done
          | (newNodes, none) =>
            let source := rs.sourceStrategy.selectPrimary liveReplicas
            forEach (fun node : NodeEntry => scheduleCopy chunkID source.nodeID node.nodeID) newNodes
  else
    match rs.targetStrategy.selectNodeReverse liveReplicas chunkID 0 (-deficit) [] with
    | (_, some _) => done
    | (deletingNodes, none) =>
      forEach (fun node : NodeEntry => createJob chunkID node.nodeID "" true) deletingNodes

/-- The body of the loop of `TriggerRepair`: the eviction comes first and is never skipped. -/
def repairAfterDeath (rs : RepairScheduler) (deadNodeID chkId : String) : Prog :=
  proposeEvictChunk chkId deadNodeID "node marked dead" fun _ =>
    look fun m _ =>
      match m.getChunkLocations chkId with
      | .error _ => done
      | .ok liveReplicas =>
        let liveWithoutDead := excludeNode liveReplicas deadNodeID
        let deficit := rs.replicationFactor - liveWithoutDead.length
        if deficit ≤ 0 then done else scheduleRepairJobs rs chkId liveWithoutDead deficit

def triggerRepair (rs : RepairScheduler) (deadNodeID : String) : Prog :=
  look fun m order =>
    forEach (repairAfterDeath rs deadNodeID) (m.getChunksByNode order deadNodeID)

def scheduleRepairForChunk (rs : RepairScheduler) (chunkID : String) : Prog :=
  look fun m _ =>
    match m.getChunkLocations chunkID with
    | .error _ => done
    | .ok liveReplicas =>
      let deficit := rs.replicationFactor - liveReplicas.length
      if deficit ≤ 0 then done else scheduleRepairJobs rs chunkID liveReplicas deficit

def executeJob (jobID : String) : Prog :=
  look fun m _ =>
    match m.getRepairJob jobID with
    | .error _ => done
    | .ok job =>
      act (.publish { job with jobID := jobID }) fun _ => clock fun updatedAt =>
        propose (.updateRepairJob { jobID := jobID, status := .inProgress, updatedAt := updatedAt })
          fun _ => done

/-- The blocking send of `RecoverStuckJobs`; a cancelled context ends the loop. -/
def enqueueJob (jobID : String) (next : Prog) : Prog :=
  act (.send jobID) fun
    | true => next
    | false => done

def recoverJobs (rs : RepairScheduler) : List RepairJob → Prog
  | [] => done
  | val :: rest =>
    act .cancelled fun
      | true => done
      | false =>
        look fun m _ =>
          match m.getChunkLocations val.chunkID with
          | .error _ => recoverJobs rs rest
          | .ok liveReplicas =>
            if liveReplicas.length = 0 then recoverJobs rs rest
            else if rs.replicationFactor - liveReplicas.length ≤ 0 then recoverJobs rs rest
            else if liveReplicas.any fun n => val.sourceNodeID = n.nodeID then
              enqueueJob val.jobID (recoverJobs rs rest)
            else
              clock fun updatedAt =>
                propose (.updateRepairJob
                  { jobID := val.jobID, status := .pending, updatedAt := updatedAt
                    sourceNode := (rs.sourceStrategy.selectPrimary liveReplicas).nodeID }) fun
                  | some _ => recoverJobs rs rest
                  | none => enqueueJob val.jobID (recoverJobs rs rest)

def recoverStuckJobs (rs : RepairScheduler) : Prog :=
  look fun m order => recoverJobs rs (m.getJobsByStatus order .inProgress)

/-- `time.Second`, in nanoseconds. -/
def second : Duration := 1000000000

def retryDelay (attempt : UInt64) : Duration :=
  let delay := 2 ^ (min attempt 6).toNat * second
  if delay > 60 * second then 60 * second else delay

/-- The delay with which `OnJobComplete` reschedules the chunk of a failed job, if it does. -/
def retryAfter (rs : RepairScheduler) (job : RepairJob) (m : FSM) : Option Duration :=
  match m.getChunkLocations job.chunkID with
  | .error _ => none
  | .ok liveReplicas =>
    if rs.replicationFactor - liveReplicas.length > 0 then some (retryDelay (job.attempts + 1)) else none

/-- `OnJobComplete`. On failure the chunk is looked at again after a delay, in a goroutine
    of its own: the caller does not wait for it. -/
def onJobComplete (rs : RepairScheduler) (nodeID jobID : String) (success : Bool) : Prog :=
  act (.retire nodeID jobID) fun _ => look fun m _ =>
    match m.getRepairJob jobID with
    | .error _ => done
    | .ok job =>
      if success then
        if job.deleteSource then
          proposeEvictChunk job.chunkID job.sourceNodeID "over-replicated repair completed" fun _ => done
        else proposeAddReplica job.chunkID job.targetNodeID fun _ => done
      else
        look fun m _ =>
          match retryAfter rs job m with
          | none => done
          | some _ => scheduleRepairForChunk rs job.chunkID

end DistributedFs.Scheduler
