import DistributedFs.Fsm.Types
import DistributedFs.Server.Rpc
import DistributedFs.Storage.ChunkWriter

namespace DistributedFs.Storage

open Go Fsm Server

structure PutChunkRequest where
  chunkId : String
  fileId : String
  replicateTo : List String
  data : List UInt8
  checksum : List UInt8
  isLast : Bool

inductive Ending where
  | eof
  | broken
deriving DecidableEq

structure StorageServer where
  nodeID : String
  store : DiskStore
  hasReplicator : Bool
  hasMetaClient : Bool

/-- What a call meets: the failures of its writer, what other sessions do to the disk before
    each frame, and the nodes that `ReplicatorToNodes` confirms. -/
structure PutEnv where
  create : Option GoError
  write : Nat → Option WriteFault
  rename : Faults RenameCall
  remove : Option GoError
  others : Nat → Disk → Disk
  successfulReplicas : List String

structure Receiving where
  writer : ChunkWriter
  registeredChunkId : String
  replicateTo : List String

namespace StorageServer

def internal (message : String) : RpcError := { code := .internal, message := message }

def invalidArgument (message : String) : RpcError := { code := .invalidArgument, message := message }

def openWriter (server : StorageServer) (env : PutEnv) (frame : PutChunkRequest)
    (receiving : Option Receiving) (disk : Disk) : Except RpcError Receiving × Disk :=
  match receiving with
  | some receiving => (.ok receiving, disk)
  | none =>
    match newChunkWriter server.store env.create (bytes frame.chunkId) disk with
    | (.error _, disk) => (.error (internal "failed to initialise chunk writer"), disk)
    | (.ok writer, disk) =>
      (.ok ⟨writer, frame.chunkId, frame.replicateTo.filter (· ≠ "")⟩, disk)

def takeFrame (server : StorageServer) (env : PutEnv) (k : Nat) (frame : PutChunkRequest)
    (receiving : Option Receiving) (disk : Disk) : Except RpcError Receiving × Disk :=
  match server.openWriter env frame receiving disk with
  | (.error err, disk) => (.error err, disk)
  | (.ok receiving, disk) =>
    if receiving.registeredChunkId ≠ frame.chunkId then
      (.error (invalidArgument "chunk-id mismatch across frames"),
        (receiving.writer.abort env.remove disk).2)
    else
      match receiving.writer.write (env.write k) frame.data disk with
      | ((writer, disk), some _) =>
        (.error (internal "failed to write chunk frame"), (writer.abort env.remove disk).2)
      | ((writer, disk), none) => (.ok { receiving with writer := writer }, disk)

def endStream (server : StorageServer) (env : PutEnv) (ending : Ending) (receiving : Option Receiving)
    (lastFrame : Option PutChunkRequest) (disk : Disk) :
    Except RpcError (Receiving × PutChunkRequest) × Disk :=
  match ending, receiving, lastFrame with
  | .broken, none, _ => (.error (internal "stream error"), disk)
  | .broken, some receiving, _ =>
    (.error (internal "stream error"), (receiving.writer.abort env.remove disk).2)
  | .eof, none, _ => (.error (invalidArgument "no data received"), disk)
  | .eof, some receiving, none =>
    (.error (invalidArgument "stream closed before final frame"),
      (receiving.writer.abort env.remove disk).2)
  | .eof, some receiving, some lastFrame =>
    if lastFrame.isLast = false then
      (.error (invalidArgument "stream closed before final frame"),
        (receiving.writer.abort env.remove disk).2)
    else
      match receiving.writer.finalize server.store env.rename env.remove lastFrame.checksum disk with
      | ((_, disk), some _) => (.error (internal "failed to finalize chunk"), disk)
      | ((_, disk), none) => (.ok (receiving, lastFrame), disk)

def receive (server : StorageServer) (env : PutEnv) (ending : Ending) :
    List PutChunkRequest → Nat → Option Receiving → Option PutChunkRequest → Disk →
    Except RpcError (Receiving × PutChunkRequest) × Disk
  | [], k, receiving, lastFrame, disk =>
    server.endStream env ending receiving lastFrame (env.others k disk)
  | frame :: rest, k, receiving, _, disk =>
    match server.takeFrame env k frame receiving (env.others k disk) with
    | (.error err, disk) => (.error err, disk)
    | (.ok receiving, disk) => server.receive env ending rest (k + 1) (some receiving) (some frame) disk

def commitRequest (server : StorageServer) (env : PutEnv) (receiving : Receiving)
    (lastFrame : PutChunkRequest) : Option CommandCommitChunk :=
  let confirmedNodes := server.nodeID ::
    if server.hasReplicator ∧ receiving.replicateTo ≠ [] then env.successfulReplicas else []
  if server.hasMetaClient then some ⟨lastFrame.chunkId, confirmedNodes, lastFrame.checksum⟩ else none

/-- `PutChunk` up to the call of `CommitChunk`. -/
def putChunk (server : StorageServer) (env : PutEnv) (frames : List PutChunkRequest) (ending : Ending)
    (disk : Disk) : Except RpcError (Option CommandCommitChunk) × Disk :=
  match server.receive env ending frames 0 none none disk with
  | (.error err, disk) => (.error err, disk)
  | (.ok (receiving, lastFrame), disk) => (.ok (server.commitRequest env receiving lastFrame), disk)

theorem endStream_lastFrame {server : StorageServer} {env : PutEnv} {ending : Ending}
    {receiving : Option Receiving} {lastFrame : Option PutChunkRequest} {disk after : Disk}
    {result : Receiving × PutChunkRequest}
    (ran : server.endStream env ending receiving lastFrame disk = (.ok result, after)) :
    lastFrame = some result.2 := by
  unfold endStream at ran
  split at ran
  · cases ran
  · cases ran
  · cases ran
  · cases ran
  · split at ran
    · cases ran
    · split at ran
      · cases ran
      · cases ran
        rfl

theorem receive_lastFrame {server : StorageServer} {env : PutEnv} {ending : Ending}
    {frames : List PutChunkRequest} {k : Nat} {receiving : Option Receiving}
    {lastFrame : Option PutChunkRequest} {disk after : Disk} {result : Receiving × PutChunkRequest}
    (ran : server.receive env ending frames k receiving lastFrame disk = (.ok result, after)) :
    result.2 ∈ frames ∨ lastFrame = some result.2 := by
  induction frames generalizing k receiving lastFrame disk with
  | nil => exact .inr (endStream_lastFrame ran)
  | cons frame rest ih =>
    simp only [receive] at ran
    split at ran
    · cases ran
    · rcases ih ran with member | last
      · exact .inl (List.mem_cons_of_mem frame member)
      · cases last
        exact .inl List.mem_cons_self

theorem putChunk_commits {server : StorageServer} {env : PutEnv} {frames : List PutChunkRequest}
    {ending : Ending} {disk after : Disk} {req : CommandCommitChunk}
    (ran : server.putChunk env frames ending disk = (.ok (some req), after)) :
    ∃ frame ∈ frames, req.chunkID = frame.chunkId ∧ req.checksum = frame.checksum := by
  unfold putChunk at ran
  split at ran
  · cases ran
  · rename_i receiving lastFrame _ received
    rcases receive_lastFrame received with member | none
    · simp only [Prod.mk.injEq, Except.ok.injEq, commitRequest] at ran
      split at ran
      · obtain ⟨same, _⟩ := ran
        cases same
        exact ⟨lastFrame, member, rfl, rfl⟩
      · obtain ⟨same, _⟩ := ran
        cases same
    · cases none

theorem putChunk_isSome {server : StorageServer} {env : PutEnv} {frames : List PutChunkRequest}
    {ending : Ending} {disk after : Disk} {commit : Option CommandCommitChunk}
    (ran : server.putChunk env frames ending disk = (.ok commit, after)) :
    commit.isSome = server.hasMetaClient := by
  unfold putChunk at ran
  split at ran
  · cases ran
  · simp only [Prod.mk.injEq, Except.ok.injEq] at ran
    obtain ⟨same, _⟩ := ran
    subst same
    unfold commitRequest
    cases server.hasMetaClient with
    | true => rfl
    | false => rfl

end StorageServer

end DistributedFs.Storage
