import DistributedFs.Go.Basic
import DistributedFs.Go.Map

namespace DistributedFs.Fsm

open Go

inductive FileStatus where
  | creating | complete | deleted
deriving DecidableEq, Repr

inductive ChunkStatus where
  | allocated | complete | lost
deriving DecidableEq, Repr

inductive NodeStatus where
  | alive | suspect | dead | draining
deriving DecidableEq, Repr

/-- `CommandUpdateRepairJob` carries its status as free text, so the type keeps every
    other text beside the four constants, and no text has two values. -/
inductive RepairStatus where
  | pending | inProgress | done | failed
  | other (text : String) (unnamed : text ∉ ["pending", "in-progress", "done", "failed"])
deriving DecidableEq

structure FileRecord where
  fileID : String
  filename : String
  fileSize : UInt64
  chunkSize : UInt64
  checkSum : List UInt8 := []
  chunkIDs : List String
  status : FileStatus
  createdAt : Time
  updatedAt : Time := 0
deriving DecidableEq

/-- `ρ` is how the replica list is stored: a list of node ids in the value model,
    a slice header over a shared backing array in the heap model. -/
structure ChunkRecord (ρ : Type) where
  chunkID : String
  fileID : String
  chunkIndex : Nat
  size : Int := 0
  checksum : List UInt8 := []
  replicas : ρ
  status : ChunkStatus
deriving DecidableEq

structure NodeEntry where
  nodeID : String
  address : String
  status : NodeStatus
  freeSpace : UInt64
  chunkCount : UInt64
  lastSeen : Time
  registeredAt : Time
  updatedAt : Time
deriving DecidableEq

structure RepairJob where
  jobID : String
  chunkID : String
  error : String := ""
  deleteSource : Bool
  sourceNodeID : String
  targetNodeID : String
  status : RepairStatus
  attempts : UInt64
  createdAt : Time
  updatedAt : Time
deriving DecidableEq

structure MetadataNodeEntry where
  nodeID : String
  raftAddr : String
  grpcAddr : String
deriving DecidableEq

structure CommandRegisterNode where
  nodeID : String
  address : String
  freeSpace : UInt64
  chunkCount : UInt64
  createdAt : Time

structure CommandDeregisterNode where
  nodeID : String
  updatedAt : Time

structure CommandMarkNodeDead where
  nodeID : String
  updatedAt : Time

structure CommandMarkNodeAlive where
  nodeID : String
  updatedAt : Time

structure CommandUpdateNodeSpace where
  nodeID : String
  freeSpace : UInt64
  chunkCount : UInt64
  updatedAt : Time

structure CommandCreateFile where
  fileID : String
  fileName : String
  chunkIDs : List String
  fileSize : UInt64
  chunkSize : UInt64
  checksum : List UInt8 := []
  createdAt : Time

structure CommandCommitFile where
  fileID : String
  fileSize : UInt64
  checksum : List UInt8

structure CommandDeleteFile where
  fileID : String

structure CommandCommitChunk where
  chunkID : String
  nodeIDs : List String
  checksum : List UInt8
deriving DecidableEq

structure CommandEvictChunkFromNode where
  chunkID : String
  nodeID : String
  evictedAt : Time
  reason : String

structure CommandMarkChunkLost where
  chunkID : String

structure CommandCreateRepairJob where
  jobID : String
  createdAt : Time
  chunkID : String
  deleteSource : Bool := false
  sourceNode : String
  targetNode : String := ""

structure CommandUpdateRepairJob where
  jobID : String
  status : RepairStatus
  sourceNode : String := ""
  updatedAt : Time
  attempts : UInt64 := 0
  error : String := ""

structure CommandAddChunkReplica where
  chunkID : String
  nodeID : String

structure CommandRegisterMetadataNode where
  nodeID : String
  raftAddr : String
  grpcAddr : String

structure CommandDeregisterMetadataNode where
  nodeID : String
  raftAddr : String

inductive Command where
  | registerNode (req : CommandRegisterNode)
  | deregisterNode (req : CommandDeregisterNode)
  | markNodeDead (req : CommandMarkNodeDead)
  | markNodeAlive (req : CommandMarkNodeAlive)
  | updateNodeSpace (req : CommandUpdateNodeSpace)
  | createFile (req : CommandCreateFile)
  | commitFile (req : CommandCommitFile)
  | deleteFile (req : CommandDeleteFile)
  | commitChunk (req : CommandCommitChunk)
  | evictChunkFromNode (req : CommandEvictChunkFromNode)
  | markChunkLost (req : CommandMarkChunkLost)
  | createRepairJob (req : CommandCreateRepairJob)
  | updateRepairJob (req : CommandUpdateRepairJob)
  | addChunkReplica (req : CommandAddChunkReplica)
  | registerMetadataNode (req : CommandRegisterMetadataNode)
  | deregisterMetadataNode (req : CommandDeregisterMetadataNode)

structure MetadataFSM (ρ : Type) where
  fileIndex : GoMap FileRecord
  chunkRegistry : GoMap (ChunkRecord ρ)
  nodeRegistry : GoMap NodeEntry
  repairJobRegistry : GoMap RepairJob
  mdNodeRegistry : GoMap MetadataNodeEntry
deriving DecidableEq

def newEmptyMetadataFsm {ρ : Type} : MetadataFSM ρ :=
  ⟨∅, ∅, ∅, ∅, ∅⟩

end DistributedFs.Fsm
