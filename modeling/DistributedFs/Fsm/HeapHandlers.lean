import DistributedFs.Fsm.Reads
import DistributedFs.Fsm.Snapshot
import DistributedFs.Fsm.Step
import DistributedFs.Go.Slice

namespace DistributedFs.Fsm

open Go

section MapReplicas

variable {ρ ρ' : Type} (f : ρ → ρ')

def ChunkRecord.mapReplicas (ck : ChunkRecord ρ) : ChunkRecord ρ' :=
  { ck with replicas := f ck.replicas }

def MetadataFSM.mapReplicas (m : MetadataFSM ρ) : MetadataFSM ρ' :=
  { m with chunkRegistry := m.chunkRegistry.mapValues (ChunkRecord.mapReplicas f) }

end MapReplicas

/-- The state machine with its memory: each chunk record holds a slice header, and the
    replica ids are in backing arrays. -/
structure HeapFSM where
  fsm : MetadataFSM Slice
  heap : Heap String

namespace HeapFSM

/-- Array 0 is the one under the nil slice. -/
def newEmpty : HeapFSM := ⟨newEmptyMetadataFsm, ⟨fun _ _ => "", 1⟩⟩

def view (st : HeapFSM) : FSM := st.fsm.mapReplicas st.heap.read

def lift (st : HeapFSM) (outcome : Outcome Slice) : HeapFSM × Option GoError :=
  (⟨outcome.1, st.heap⟩, outcome.2)

variable (policy : GrowthPolicy)

def normalizeLoop (nodes : GoMap NodeEntry) (orders : Nat → MapOrder) :
    List String → Nat → Heap String × Slice → List String → Heap String × Slice
  | [], _, normalized, _ => normalized
  | entry :: rest, k, (heap, normalized), seen =>
    if entry ∈ seen then normalizeLoop nodes orders rest (k + 1) (heap, normalized) seen
    else if entry ∈ nodes then
      normalizeLoop nodes orders rest (k + 1) (heap.append policy normalized [entry]) (entry :: seen)
    else
      let resolved := MetadataFSM.scanAddress entry (GoMap.range (orders k) nodes)
      if resolved ≠ "" then
        if resolved ∈ seen then normalizeLoop nodes orders rest (k + 1) (heap, normalized) seen
        else
          normalizeLoop nodes orders rest (k + 1) (heap.append policy normalized [resolved])
            (resolved :: seen)
      else
        normalizeLoop nodes orders rest (k + 1) (heap.append policy normalized [entry]) (entry :: seen)

def normalizeReplicaNodeIDs (heap : Heap String) (nodes : GoMap NodeEntry)
    (orders : Nat → MapOrder) (rawIDs : List String) : Heap String × Slice :=
  normalizeLoop policy nodes orders rawIDs 0 (heap.make rawIDs.length) []

def handleCmdCommitChunk (st : HeapFSM) (orders : Nat → MapOrder) (req : CommandCommitChunk) :
    HeapFSM × Option GoError :=
  match st.fsm.getChunk req.chunkID with
  | .error err => (st, some (.join (.new "cmdCommitChunk: ") err))
  | .ok chunk =>
    if chunk.checksum.length = 0 ∧ chunk.status ≠ .complete then
      let (heap, replicas) :=
        normalizeReplicaNodeIDs policy st.heap st.fsm.nodeRegistry orders req.nodeIDs
      let chunk := { chunk with
        status := .complete, checksum := req.checksum, replicas := replicas }
      (⟨st.fsm.setChunk req.chunkID chunk, heap⟩, none)
    else (st, some (.new "cmdCommitChunk: chunk validation failed"))

def handleCmdEvictChunkFromNode (st : HeapFSM) (req : CommandEvictChunkFromNode) :
    HeapFSM × Option GoError :=
  match st.fsm.getChunk req.chunkID with
  | .error err => (st, some (.join (.new "cmdEvictChunk: ") err))
  | .ok chunk =>
    match (st.heap.read chunk.replicas).findIdx? (· = req.nodeID) with
    | none => (st, some (.new "cmdEvictChunk: chunk not present on node"))
    | some idx =>
      -- append(chunk.Replicas[:idx], chunk.Replicas[idx+1:]...)
      let (heap, replicas) := st.heap.append policy (chunk.replicas.take idx)
        (st.heap.read (chunk.replicas.drop (idx + 1)))
      (⟨st.fsm.setChunk req.chunkID { chunk with replicas := replicas }, heap⟩, none)

def handleCmdAddChunkReplica (st : HeapFSM) (req : CommandAddChunkReplica) :
    HeapFSM × Option GoError :=
  match st.fsm.getChunk req.chunkID with
  | .error err => (st, some (.join (.new "cmdAddChunkReplica: ") err))
  | .ok chunk =>
    if req.nodeID ∈ st.heap.read chunk.replicas then (st, none)
    else
      let (heap, replicas) := st.heap.append policy chunk.replicas [req.nodeID]
      (⟨st.fsm.setChunk req.chunkID { chunk with replicas := replicas }, heap⟩, none)

def handle (st : HeapFSM) (orders : Nat → MapOrder) : Command → HeapFSM × Option GoError
  | .registerNode req => st.lift (st.fsm.handleCmdRegisterNode req)
  | .deregisterNode req => st.lift (st.fsm.handleCmdDeregisterNode req)
  | .markNodeDead req => st.lift (st.fsm.handleCmdMarkNodeDead req)
  | .markNodeAlive req => st.lift (st.fsm.handleCmdMarkNodeAlive req)
  | .updateNodeSpace req => st.lift (st.fsm.handleCmdUpdateNodeSpace req)
  | .createFile req => st.lift (st.fsm.handleCmdCreateFile req)
  | .commitFile req => st.lift (st.fsm.handleCmdCommitFile req)
  | .deleteFile req => st.lift (st.fsm.handleCmdDeleteFile req)
  | .commitChunk req => st.handleCmdCommitChunk policy orders req
  | .evictChunkFromNode req => st.handleCmdEvictChunkFromNode policy req
  | .markChunkLost req => st.lift (st.fsm.handleCmdMarkChunkLost req)
  | .createRepairJob req => st.lift (st.fsm.handleCmdCreateRepairJob req)
  | .updateRepairJob req => st.lift (st.fsm.handleCmdUpdateRepairJob req)
  | .addChunkReplica req => st.handleCmdAddChunkReplica policy req
  | .registerMetadataNode req => st.lift (st.fsm.handleCmdRegisterMetadataNode req)
  | .deregisterMetadataNode req => st.lift (st.fsm.handleCmdDeregisterMetadataNode req)

/-- `json.Unmarshal` makes an array of its own for every replica list it decodes. -/
def decodeReplicas : List (String × ChunkRecord (List String)) →
    Heap String × GoMap (ChunkRecord Slice) → Heap String × GoMap (ChunkRecord Slice)
  | [], decoded => decoded
  | (cid, ck) :: rest, (heap, registry) =>
    let (heap, replicas) := heap.append policy default ck.replicas
    decodeReplicas rest (heap, registry.insert cid { ck with replicas := replicas })

def restore (st : HeapFSM) (order : MapOrder) (document : SnapshotJson) :
    HeapFSM × Option GoError :=
  match MetadataFSMSnapshot.unmarshal document with
  | .error err => (st, some err)
  | .ok snap =>
    let (heap, chunkRegistry) :=
      decodeReplicas policy (GoMap.range order snap.chunkRegistry) (st.heap, ∅)
    (⟨{ fileIndex := deepCopy snap.fileIndex
        chunkRegistry := deepCopy chunkRegistry
        nodeRegistry := deepCopy snap.nodeRegistry
        repairJobRegistry := deepCopy snap.repairJobRegistry
        mdNodeRegistry := deepCopy snap.mdNodeRegistry }, heap⟩, none)

end HeapFSM

/-- `Persist` reads the replica lists when it runs, from the arrays as they are then. -/
def MetadataFSMSnapshot.persistAt (snap : MetadataFSMSnapshot Slice) (heap : Heap String) :
    SnapshotJson :=
  persist
    { fileIndex := snap.fileIndex
      chunkRegistry := snap.chunkRegistry.mapValues (ChunkRecord.mapReplicas heap.read)
      nodeRegistry := snap.nodeRegistry
      repairJobRegistry := snap.repairJobRegistry
      mdNodeRegistry := snap.mdNodeRegistry }

end DistributedFs.Fsm
