import DistributedFs.Fsm.Types

namespace DistributedFs.Fsm

open Go

def errNodeNotFound : GoError := .new "node does not exist"
def errFileNotFound : GoError := .new "file does not exist"
def errChunkNotFound : GoError := .new "chunk does not exist"
def errJobNotFound : GoError := .new "job does not exist"

/-- Insert or overwrite; `none` stands for a nil map. The registries of a
    `MetadataFSM` are made by its constructors and never nil. -/
def upsert {α : Type} (registry : Option (GoMap α)) (key : String) (entry : α) :
    Except GoError (GoMap α) :=
  match registry with
  | none => .error (.new "upsert: registry is nil")
  | some registry => .ok (registry.insert key entry)

/-- What `Apply` returns: the state after the call, and nil or an error. The state
    is returned beside an error too, so a write before an error would show. -/
abbrev Outcome (ρ : Type) := MetadataFSM ρ × Option GoError

namespace MetadataFSM

variable {ρ : Type}

def getNode (m : MetadataFSM ρ) (nodeID : String) : Except GoError NodeEntry :=
  match m.nodeRegistry.lookup nodeID with
  | some node => .ok node
  | none => .error errNodeNotFound

def getFile (m : MetadataFSM ρ) (fileID : String) : Except GoError FileRecord :=
  match m.fileIndex.lookup fileID with
  | some file => .ok file
  | none => .error errFileNotFound

def getChunk (m : MetadataFSM ρ) (chunkID : String) : Except GoError (ChunkRecord ρ) :=
  match m.chunkRegistry.lookup chunkID with
  | some chunk => .ok chunk
  | none => .error errChunkNotFound

/-! Registry entries are pointers: a handler that assigns to the fields of a record
it looked up changes the entry under that key. -/

def setNode (m : MetadataFSM ρ) (nodeID : String) (node : NodeEntry) : MetadataFSM ρ :=
  { m with nodeRegistry := m.nodeRegistry.insert nodeID node }

def setFile (m : MetadataFSM ρ) (fileID : String) (file : FileRecord) : MetadataFSM ρ :=
  { m with fileIndex := m.fileIndex.insert fileID file }

def setChunk (m : MetadataFSM ρ) (chunkID : String) (chunk : ChunkRecord ρ) : MetadataFSM ρ :=
  { m with chunkRegistry := m.chunkRegistry.insert chunkID chunk }

def setJob (m : MetadataFSM ρ) (jobID : String) (job : RepairJob) : MetadataFSM ρ :=
  { m with repairJobRegistry := m.repairJobRegistry.insert jobID job }

def storeNode (m : MetadataFSM ρ) (node : NodeEntry) : Outcome ρ :=
  match upsert (some m.nodeRegistry) node.nodeID node with
  | .ok registry => ({ m with nodeRegistry := registry }, none)
  | .error err => (m, some err)

def handleCmdRegisterNode (m : MetadataFSM ρ) (req : CommandRegisterNode) : Outcome ρ :=
  match m.getNode req.nodeID with
  | .ok node =>
    -- `lastSeen` and `registeredAt` keep their values when a known node registers again
    let node := { node with
      address := req.address, status := .alive, freeSpace := req.freeSpace,
      chunkCount := req.chunkCount, updatedAt := req.createdAt }
    -- the upsert key is the entry's own id, which need not be `req.nodeID`
    (m.setNode req.nodeID node).storeNode node
  | .error _ =>
    m.storeNode
      { address := req.address, nodeID := req.nodeID, freeSpace := req.freeSpace,
        registeredAt := req.createdAt, updatedAt := req.createdAt, lastSeen := req.createdAt,
        status := .alive, chunkCount := req.chunkCount }

/-- The shape shared by the handlers that change one known node: look it up, or
    fail under `label`; change it; let `updatedAt` only move forward. -/
def updateNode (m : MetadataFSM ρ) (label nodeID : String) (updatedAt : Time)
    (change : NodeEntry → NodeEntry) : Outcome ρ :=
  match m.getNode nodeID with
  | .error err => (m, some (.join (.new label) err))
  | .ok node =>
    let node := change node
    let node := if node.updatedAt < updatedAt then { node with updatedAt := updatedAt } else node
    (m.setNode nodeID node, none)

def handleCmdDeregisterNode (m : MetadataFSM ρ) (req : CommandDeregisterNode) : Outcome ρ :=
  m.updateNode "cmdDeregisterNode failed: " req.nodeID req.updatedAt
    fun node => { node with status := .draining }

def handleCmdMarkNodeDead (m : MetadataFSM ρ) (req : CommandMarkNodeDead) : Outcome ρ :=
  m.updateNode "cmdMarkNodeDead failed: " req.nodeID req.updatedAt
    fun node => { node with status := .dead }

def handleCmdMarkNodeAlive (m : MetadataFSM ρ) (req : CommandMarkNodeAlive) : Outcome ρ :=
  m.updateNode "cmdMarkNodeAlive failed: " req.nodeID req.updatedAt
    fun node => { node with status := .alive }

def handleCmdUpdateNodeSpace (m : MetadataFSM ρ) (req : CommandUpdateNodeSpace) : Outcome ρ :=
  m.updateNode "cmdUpdateNodeSpace failed: " req.nodeID req.updatedAt
    fun node => { node with freeSpace := req.freeSpace, chunkCount := req.chunkCount }

def chunkStub [Inhabited ρ] (fileID cid : String) (i : Nat) : ChunkRecord ρ :=
  { chunkID := cid, fileID := fileID, chunkIndex := i, status := .allocated, replicas := default }

def chunkStubs [Inhabited ρ] (req : CommandCreateFile) : List (ChunkRecord ρ) :=
  req.chunkIDs.zipIdx.map fun (cid, i) => chunkStub req.fileID cid i

def insertChunks (registry : GoMap (ChunkRecord ρ)) (records : List (ChunkRecord ρ)) :
    GoMap (ChunkRecord ρ) :=
  records.foldl (fun registry val => registry.insert val.chunkID val) registry

def newFile (req : CommandCreateFile) : FileRecord :=
  { fileID := req.fileID, filename := req.fileName, fileSize := req.fileSize,
    chunkSize := req.chunkSize, chunkIDs := req.chunkIDs, status := .creating,
    createdAt := req.createdAt }

def handleCmdCreateFile [Inhabited ρ] (m : MetadataFSM ρ) (req : CommandCreateFile) : Outcome ρ :=
  match m.getFile req.fileID with
  | .ok _ =>
    (m, some (.new "CmdCreateFile: fileID already exists in our systems, cannot override"))
  | .error _ =>
    let chunkRecords : List (ChunkRecord ρ) := chunkStubs req
    if chunkRecords.any fun val => val.chunkID ∈ m.chunkRegistry then
      (m, some (.new "CmdCreateFile: chunkID already exists in our systems, unsupported"))
    else
      ({ m with
          chunkRegistry := insertChunks m.chunkRegistry chunkRecords
          fileIndex := m.fileIndex.insert req.fileID (newFile req) }, none)

def validateChunks (registry : GoMap (ChunkRecord ρ)) : List String → Option GoError
  | [] => none
  | cid :: rest =>
    match registry.lookup cid with
    | none => some (.new "cmdCommitFile: chunk validation failed : chunk not found")
    | some ck =>
      if ck.status ≠ .complete then
        some (.new "cmdCommitFile: chunk validation failed : chunk not commited")
      else validateChunks registry rest

def handleCmdCommitFile (m : MetadataFSM ρ) (req : CommandCommitFile) : Outcome ρ :=
  match m.getFile req.fileID with
  | .error err => (m, some (.join (.new "cmdCommitFile: ") err))
  | .ok file =>
    if file.fileSize ≠ req.fileSize then
      (m, some (.new "cmdCommitFile: filesize mismatch"))
    else
      match validateChunks m.chunkRegistry file.chunkIDs with
      | some err => (m, some err)
      | none =>
        (m.setFile req.fileID { file with checkSum := req.checksum, status := .complete }, none)

def handleCmdDeleteFile (m : MetadataFSM ρ) (req : CommandDeleteFile) : Outcome ρ :=
  match m.getFile req.fileID with
  | .error err => (m, some (.join (.new "cmdDeleteFile: ") err))
  | .ok file => (m.setFile req.fileID { file with status := .deleted }, none)

def scanAddress (entry : String) : List (String × NodeEntry) → String
  | [] => ""
  | (_, node) :: rest => if node.address = entry then node.nodeID else scanAddress entry rest

/-- The outer loop. `orders` holds an iteration order for each pass over
    `nodeRegistry`; `seen` is the set of the entries appended so far. -/
def normalizeLoop (nodes : GoMap NodeEntry) (orders : Nat → MapOrder) :
    List String → Nat → List String → List String → List String
  | [], _, normalized, _ => normalized
  | entry :: rest, k, normalized, seen =>
    if entry ∈ seen then normalizeLoop nodes orders rest (k + 1) normalized seen
    else if entry ∈ nodes then
      normalizeLoop nodes orders rest (k + 1) (normalized ++ [entry]) (entry :: seen)
    else
      let resolved := scanAddress entry (GoMap.range (orders k) nodes)
      if resolved ≠ "" then
        if resolved ∈ seen then normalizeLoop nodes orders rest (k + 1) normalized seen
        else normalizeLoop nodes orders rest (k + 1) (normalized ++ [resolved]) (resolved :: seen)
      else normalizeLoop nodes orders rest (k + 1) (normalized ++ [entry]) (entry :: seen)

def normalizeReplicaNodeIDs (nodes : GoMap NodeEntry) (orders : Nat → MapOrder)
    (rawIDs : List String) : List String :=
  normalizeLoop nodes orders rawIDs 0 [] []

def handleCmdMarkChunkLost (m : MetadataFSM ρ) (req : CommandMarkChunkLost) : Outcome ρ :=
  match m.getChunk req.chunkID with
  | .error err => (m, some (.join (.new "cmdMarkChunkLost: ") err))
  | .ok chunk => (m.setChunk req.chunkID { chunk with status := .lost }, none)

def handleCmdCreateRepairJob (m : MetadataFSM ρ) (req : CommandCreateRepairJob) : Outcome ρ :=
  if req.jobID ∈ m.repairJobRegistry then
    (m, some (.new "cmdCreateRepairJob: job already exists"))
  else
    let newJob : RepairJob :=
      { jobID := req.jobID, chunkID := req.chunkID, deleteSource := req.deleteSource,
        sourceNodeID := req.sourceNode, targetNodeID := req.targetNode, status := .pending,
        attempts := 0, createdAt := req.createdAt, updatedAt := req.createdAt }
    match upsert (some m.repairJobRegistry) req.jobID newJob with
    | .ok registry => ({ m with repairJobRegistry := registry }, none)
    | .error err => (m, some err)

def handleCmdUpdateRepairJob (m : MetadataFSM ρ) (req : CommandUpdateRepairJob) : Outcome ρ :=
  match m.repairJobRegistry.lookup req.jobID with
  | none => (m, some (.join (.new "cmdUpdateRepairJob: ") errJobNotFound))
  | some job =>
    let job := { job with
      status := req.status, updatedAt := req.updatedAt, error := req.error,
      attempts := req.attempts }
    let job := if req.sourceNode ≠ "" then { job with sourceNodeID := req.sourceNode } else job
    (m.setJob req.jobID job, none)

def handleCmdRegisterMetadataNode (m : MetadataFSM ρ) (req : CommandRegisterMetadataNode) :
    Outcome ρ :=
  let entry : MetadataNodeEntry :=
    { nodeID := req.nodeID, raftAddr := req.raftAddr, grpcAddr := req.grpcAddr }
  match upsert (some m.mdNodeRegistry) req.raftAddr entry with
  | .ok registry => ({ m with mdNodeRegistry := registry }, none)
  | .error err => (m, some err)

def handleCmdDeregisterMetadataNode (m : MetadataFSM ρ) (req : CommandDeregisterMetadataNode) :
    Outcome ρ :=
  ({ m with mdNodeRegistry := m.mdNodeRegistry.erase req.raftAddr }, none)

end MetadataFSM

abbrev FSM := MetadataFSM (List String)

namespace MetadataFSM

def handleCmdCommitChunk (m : FSM) (orders : Nat → MapOrder) (req : CommandCommitChunk) :
    Outcome (List String) :=
  match m.getChunk req.chunkID with
  | .error err => (m, some (.join (.new "cmdCommitChunk: ") err))
  | .ok chunk =>
    if chunk.checksum.length = 0 ∧ chunk.status ≠ .complete then
      let chunk := { chunk with
        status := .complete, checksum := req.checksum,
        replicas := normalizeReplicaNodeIDs m.nodeRegistry orders req.nodeIDs }
      (m.setChunk req.chunkID chunk, none)
    else (m, some (.new "cmdCommitChunk: chunk validation failed"))

def handleCmdEvictChunkFromNode (m : FSM) (req : CommandEvictChunkFromNode) :
    Outcome (List String) :=
  match m.getChunk req.chunkID with
  | .error err => (m, some (.join (.new "cmdEvictChunk: ") err))
  | .ok chunk =>
    match chunk.replicas.findIdx? (· = req.nodeID) with
    | none => (m, some (.new "cmdEvictChunk: chunk not present on node"))
    | some idx =>
      let chunk := { chunk with replicas := chunk.replicas.eraseIdx idx }
      (m.setChunk req.chunkID chunk, none)

def handleCmdAddChunkReplica (m : FSM) (req : CommandAddChunkReplica) : Outcome (List String) :=
  match m.getChunk req.chunkID with
  | .error err => (m, some (.join (.new "cmdAddChunkReplica: ") err))
  | .ok chunk =>
    if req.nodeID ∈ chunk.replicas then (m, none)
    else
      let chunk := { chunk with replicas := chunk.replicas ++ [req.nodeID] }
      (m.setChunk req.chunkID chunk, none)

def handle (m : FSM) (orders : Nat → MapOrder) : Command → Outcome (List String)
  | .registerNode req => m.handleCmdRegisterNode req
  | .deregisterNode req => m.handleCmdDeregisterNode req
  | .markNodeDead req => m.handleCmdMarkNodeDead req
  | .markNodeAlive req => m.handleCmdMarkNodeAlive req
  | .updateNodeSpace req => m.handleCmdUpdateNodeSpace req
  | .createFile req => m.handleCmdCreateFile req
  | .commitFile req => m.handleCmdCommitFile req
  | .deleteFile req => m.handleCmdDeleteFile req
  | .commitChunk req => m.handleCmdCommitChunk orders req
  | .evictChunkFromNode req => m.handleCmdEvictChunkFromNode req
  | .markChunkLost req => m.handleCmdMarkChunkLost req
  | .createRepairJob req => m.handleCmdCreateRepairJob req
  | .updateRepairJob req => m.handleCmdUpdateRepairJob req
  | .addChunkReplica req => m.handleCmdAddChunkReplica req
  | .registerMetadataNode req => m.handleCmdRegisterMetadataNode req
  | .deregisterMetadataNode req => m.handleCmdDeregisterMetadataNode req

end MetadataFSM

end DistributedFs.Fsm
