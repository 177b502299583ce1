import DistributedFs.Fsm.Reads
import DistributedFs.Fsm.Snapshot
import DistributedFs.Fsm.Step
import DistributedFs.Placement.Strategy
import DistributedFs.Server.Rpc

namespace DistributedFs.Server

open Go Fsm

/-- `t.Unix()`: whole seconds after 1970; the zero `Time` is in the year 1. -/
def unix (t : Time) : Int := t / 1000000000 - 62135596800

structure ChunkInfo where
  chunkId : String
  fileId : String
  chunkIndex : Int32
  size : Int
  checksum : List UInt8
  replicas : List String
  status : String

structure FileInfo where
  fileId : String
  fileName : String
  fileSize : Int64
  chunkSize : Int64
  chunkIds : List String
  status : String
  createdAt : Int
  updatedAt : Int

structure GetFileResponse where
  file : FileInfo
  chunks : List ChunkInfo

def fileInfo (file : FileRecord) : FileInfo where
  fileId := file.fileID
  fileName := file.filename
  fileSize := file.fileSize.toInt64
  chunkSize := file.chunkSize.toInt64
  chunkIds := file.chunkIDs
  status := file.status.text
  createdAt := unix file.createdAt
  updatedAt := unix file.updatedAt

def resolveAddrs (nodes : GoMap NodeEntry) : List String → List String
  | [] => []
  | rep :: rest =>
    match nodes.lookup rep with
    | none => resolveAddrs nodes rest
    | some node =>
      if node.status = .dead ∨ node.status = .draining then resolveAddrs nodes rest
      else if node.address ≠ "" then node.address :: resolveAddrs nodes rest
      else resolveAddrs nodes rest

def chunkInfo (nodes : GoMap NodeEntry) (ck : ChunkRecord (List String)) : ChunkInfo where
  chunkId := ck.chunkID
  fileId := ck.fileID
  chunkIndex := Int32.ofNat ck.chunkIndex
  size := ck.size
  checksum := ck.checksum
  replicas := resolveAddrs nodes ck.replicas
  status := ck.status.text

def getFile (raft : RaftView) (m : FSM) (fileId : String) : Except RpcError GetFileResponse :=
  if raft.isLeader = false then .error (leaderRedirect raft m)
  else
    match m.getFile fileId with
    | .error _ => .error { code := .notFound, message := "file not found: " ++ fileId }
    | .ok file =>
      if file.status ≠ .complete then
        .error { code := .notFound, message :=
          "file " ++ fileId ++ " is not available (status: " ++ file.status.text ++ ")" }
      else
        match m.getFileChunks fileId with
        | .error err =>
          .error { code := .internal, message := "error fetching file chunks: " ++ err.text }
        | .ok chunks =>
          .ok { file := fileInfo file, chunks := chunks.map (chunkInfo m.nodeRegistry) }

structure CreateFileRequest where
  fileId : String
  fileName : String
  fileSize : Int64
  chunkSize : Int64
  chunkIds : List String

structure NodeInfo where
  nodeId : String
  address : String
  freeSpace : Int64

def nodeInfo (node : NodeEntry) : NodeInfo := ⟨node.nodeID, node.address, node.freeSpace.toInt64⟩

structure ChunkPlacement where
  chunkId : String
  primary : NodeInfo
  replicas : List NodeInfo

structure CreateFileResponse where
  fileId : String
  placements : List ChunkPlacement

def errorOrNil : Option GoError → String
  | none => "<nil>"
  | some err => err.text

def placeChunks (strategy : Placement.PlacementStrategy) (aliveNodes : List NodeEntry)
    (chunkSize rf : Int) : List String → Except RpcError (List ChunkPlacement)
  | [] => .ok []
  | v :: rest =>
    match strategy.selectNodes aliveNodes v chunkSize rf [] with
    | (primary :: replicas, none) =>
      (placeChunks strategy aliveNodes chunkSize rf rest).map
        (⟨v, nodeInfo primary, replicas.map nodeInfo⟩ :: ·)
    | (_, err) =>
      .error { code := .internal, message :=
        "error getting placement for chunk " ++ v ++ ": " ++ errorOrNil err }

def minChunkSize : Int := 65536
def maxChunkSize : Int := 67108864

def checkChunkSize (chunkSize : Int) : Except RpcError Unit :=
  if chunkSize ≤ 0 then
    .error { code := .invalidArgument, message := "chunk_size must be positive, got " ++ chunkSize.repr }
  else if chunkSize < minChunkSize then
    .error { code := .invalidArgument, message :=
      "chunk_size " ++ chunkSize.repr ++ " is below minimum " ++ minChunkSize.repr ++ " (64 KB)" }
  else if chunkSize > maxChunkSize then
    .error { code := .invalidArgument, message :=
      "chunk_size " ++ chunkSize.repr ++ " exceeds maximum " ++ maxChunkSize.repr ++ " (64 MB)" }
  else .ok ()

/-- `MetadataServiceHandler.CreateFile`, up to the command it proposes and the response that
    follows; `newID` is the id it generates for a request without one. -/
def createFile (raft : RaftView) (m : FSM) (order : MapOrder) (strategy : Placement.PlacementStrategy)
    (rf : Int) (newID : String) (now : Time) (req : CreateFileRequest) :
    Except RpcError (CommandCreateFile × CreateFileResponse) :=
  if raft.isLeader = false then .error (leaderRedirect raft m)
  else
    let fileId := if req.fileId = "" then newID else req.fileId
    match m.getFile fileId with
    | .ok _ =>
      .error { code := .alreadyExists, message := "file with ID '" ++ fileId ++ "' already exists" }
    | .error _ => do
      checkChunkSize req.chunkSize.toInt
      let placements ← placeChunks strategy (m.getLiveNodes order) req.chunkSize.toInt rf req.chunkIds
      return ({ fileID := fileId, fileName := req.fileName, fileSize := req.fileSize.toUInt64,
                chunkSize := req.chunkSize.toUInt64, chunkIDs := req.chunkIds, createdAt := now },
        ⟨fileId, placements⟩)

theorem createFile_command {raft : RaftView} {m : FSM} {order : MapOrder}
    {strategy : Placement.PlacementStrategy} {rf : Int} {newID : String} {now : Time}
    {req : CreateFileRequest} {cmd : CommandCreateFile} {response : CreateFileResponse}
    (named : req.fileId ≠ "")
    (accepted : createFile raft m order strategy rf newID now req = .ok (cmd, response)) :
    cmd = { fileID := req.fileId, fileName := req.fileName, fileSize := req.fileSize.toUInt64,
            chunkSize := req.chunkSize.toUInt64, chunkIDs := req.chunkIds, createdAt := now } ∧
      response.fileId = req.fileId := by
  unfold createFile at accepted
  split at accepted
  · cases accepted
  · simp only at accepted
    split at accepted
    · cases accepted
    · obtain ⟨_, _, accepted⟩ := bind_eq_ok accepted
      obtain ⟨_, _, accepted⟩ := bind_eq_ok accepted
      cases accepted
      exact ⟨rfl, rfl⟩

/-- `MetadataServiceHandler.ListFiles`, which ignores the filter of the request. -/
def listFiles (raft : RaftView) (m : FSM) (order : MapOrder) : Except RpcError (List FileInfo) :=
  if raft.isLeader = false then .error (leaderRedirect raft m)
  else .ok (((m.listFiles order "").filter fun f => f.status = .complete).map fileInfo)

theorem listFiles_complete {raft : RaftView} {m : FSM} {order : MapOrder} {files : List FileInfo}
    (answered : listFiles raft m order = .ok files) {f : FileInfo} (member : f ∈ files) :
    ∃ id file, m.fileIndex.lookup id = some file ∧ file.status = .complete ∧ f = fileInfo file := by
  unfold listFiles at answered
  split at answered
  · cases answered
  · cases answered
    obtain ⟨file, listed, rfl⟩ := List.mem_map.mp member
    obtain ⟨listed, complete⟩ := List.mem_filter.mp listed
    obtain ⟨id, found⟩ := MetadataFSM.lookup_of_mem_listFiles listed
    exact ⟨id, file, found, of_decide_eq_true complete, rfl⟩

theorem getFile_response {raft : RaftView} {m : FSM} {fileId : String} {response : GetFileResponse}
    (answered : getFile raft m fileId = .ok response) :
    ∃ file chunks, m.fileIndex.lookup fileId = some file ∧ file.status = .complete ∧
      MetadataFSM.collectChunks m.chunkRegistry file.chunkIDs = .ok chunks ∧
      response = { file := fileInfo file, chunks := chunks.map (chunkInfo m.nodeRegistry) } := by
  unfold getFile at answered
  split at answered
  · cases answered
  · split at answered
    · cases answered
    · rename_i file found
      split at answered
      · cases answered
      · rename_i complete
        split at answered
        · cases answered
        · rename_i chunks collected
          cases answered
          rw [MetadataFSM.getFileChunks, found] at collected
          exact ⟨file, chunks, (getFile_ok m).mp found, not_not.mp complete, collected, rfl⟩

end DistributedFs.Server
