import DistributedFs.Go.Basic
import DistributedFs.Go.Buffer
import DistributedFs.Go.Sha256
import DistributedFs.Go.Text
import DistributedFs.Server.FileHandler

namespace DistributedFs.Client

open Go

def wrap (text : String) (err : GoError) : GoError := .new (text ++ ": " ++ err.text)

structure MetadataClient where
  listFiles : Except GoError (List Server.FileInfo)
  getFile : String → Except GoError Server.GetFileResponse

structure FileInfo where
  fileID : String
  fileName : String
  fileSize : Int64
  chunkSize : Int64
  chunkIDs : List String
  status : String
  createdAt : Int

structure ChunkInfo where
  chunkID : String
  fileID : String
  chunkIndex : Int64
  size : Int
  checksum : List UInt8
  replicas : List String

def protoToFileInfo (f : Server.FileInfo) : FileInfo :=
  ⟨f.fileId, f.fileName, f.fileSize, f.chunkSize, f.chunkIds, f.status, f.createdAt⟩

def protoToChunkInfo (c : Server.ChunkInfo) : ChunkInfo :=
  ⟨c.chunkId, c.fileId, c.chunkIndex.toInt64, c.size, c.checksum, c.replicas⟩

namespace MetadataClient

def getFileInfo (client : MetadataClient) (fileID : String) :
    Except GoError (FileInfo × List ChunkInfo) :=
  match client.getFile fileID with
  | .error err => .error (wrap "metadataclient: GetFile RPC failed" err)
  | .ok resp => .ok (protoToFileInfo resp.file, resp.chunks.map protoToChunkInfo)

def getFileByName (client : MetadataClient) (fileName : String) :
    Except GoError (FileInfo × List ChunkInfo) :=
  match client.listFiles with
  | .error err => .error (wrap "metadataclient: ListFiles RPC failed" err)
  | .ok files =>
    match (files.map protoToFileInfo).find? fun f => f.fileName = fileName with
    | some f => client.getFileInfo f.fileID
    | none => .error (.new ("metadataclient: file " ++ fileName.quote ++ " not found"))

end MetadataClient

/-- What one turn of the replica loop meets: the state of the context, the reply to
    `GetChunk`, and the result of `WriteAt`. -/
structure Attempt where
  ctxErr : Option GoError
  reply : Except GoError (List UInt8)
  writeErr : Option GoError

abbrev Write := Nat × List UInt8

def writeChunk (attempt : Attempt) (chunk : ChunkInfo) (chunkSize : Int64) (data : List UInt8) :
    Except GoError Write :=
  let offset := chunk.chunkIndex * chunkSize
  match if offset < 0 then some (.new "negative offset") else attempt.writeErr with
  | some err =>
    .error (wrap ("failed to write chunk " ++ chunk.chunkID ++ " at offset " ++ offset.toInt.repr) err)
  | none => .ok (offset.toInt.toNat, data)

def tryReplicas (env : Nat → Attempt) (chunk : ChunkInfo) (chunkSize : Int64) :
    Nat → GoError → List String → Except GoError Write
  | _, lastErr, [] =>
    .error (wrap ("all replicas failed for chunk " ++ chunk.chunkID ++ " (index " ++
      chunk.chunkIndex.toInt.repr ++ ")") lastErr)
  | k, _, addr :: rest =>
    match (env k).ctxErr, (env k).reply with
    | some err, _ => .error err
    | none, .error err => tryReplicas env chunk chunkSize (k + 1) err rest
    | none, .ok data =>
      if chunk.checksum ≠ [] ∧ Sha256.sum256 data ≠ chunk.checksum then
        let mismatch := "checksum mismatch for chunk " ++ chunk.chunkID ++ " from " ++ addr ++ ": got " ++
          hexEncode (Sha256.sum256 data) ++ ", want " ++ hexEncode chunk.checksum
        tryReplicas env chunk chunkSize (k + 1) (.new mismatch) rest
      else writeChunk (env k) chunk chunkSize data

def downloadChunkWithFailover (env : Nat → Attempt) (chunk : ChunkInfo) (chunkSize : Int64) :
    Except GoError Write :=
  match chunk.replicas with
  | [] => .error (.new ("no replicas available for chunk " ++ chunk.chunkID))
  | addr :: rest => tryReplicas env chunk chunkSize 0 (.new "") (addr :: rest)

theorem writeChunk_ok {attempt : Attempt} {chunk : ChunkInfo} {chunkSize : Int64} {data : List UInt8}
    {w : Write} (written : writeChunk attempt chunk chunkSize data = .ok w) :
    w = ((chunk.chunkIndex * chunkSize).toInt.toNat, data) := by
  unfold writeChunk at written
  dsimp only at written
  split at written
  · cases written
  · cases written
    rfl

theorem tryReplicas_ok {env : Nat → Attempt} {chunk : ChunkInfo} {chunkSize : Int64} {k : Nat}
    {lastErr : GoError} {replicas : List String} {w : Write} (checked : chunk.checksum ≠ [])
    (done : tryReplicas env chunk chunkSize k lastErr replicas = .ok w) :
    ∃ turn data, (env turn).reply = .ok data ∧ Sha256.sum256 data = chunk.checksum ∧
      w = ((chunk.chunkIndex * chunkSize).toInt.toNat, data) := by
  induction replicas generalizing k lastErr with
  | nil => cases done
  | cons addr rest ih =>
    simp only [tryReplicas] at done
    split at done
    · cases done
    · exact ih done
    · rename_i data _ reply
      split at done
      · exact ih done
      · rename_i accepted
        have matched : Sha256.sum256 data = chunk.checksum := by
          by_contra other
          exact accepted ⟨checked, other⟩
        exact ⟨k, data, reply, matched, writeChunk_ok done⟩

theorem downloadChunkWithFailover_ok {env : Nat → Attempt} {chunk : ChunkInfo} {chunkSize : Int64}
    {w : Write} (checked : chunk.checksum ≠ [])
    (done : downloadChunkWithFailover env chunk chunkSize = .ok w) :
    ∃ turn data, (env turn).reply = .ok data ∧ Sha256.sum256 data = chunk.checksum ∧
      w = ((chunk.chunkIndex * chunkSize).toInt.toNat, data) := by
  unfold downloadChunkWithFailover at done
  split at done
  · cases done
  · exact tryReplicas_ok checked done

structure Completion where
  order : List ChunkInfo → List ChunkInfo
  perm : ∀ chunks, (order chunks).Perm chunks

structure DownloadEnv where
  metadata : MetadataClient
  create : Option GoError
  truncate : Option GoError
  fetch : ChunkInfo → Nat → Attempt
  completion : Completion

structure Assembly where
  out : List UInt8
  failed : Nat
  firstErr : Option GoError

def Assembly.finish (s : Assembly) : Except GoError Write → Assembly
  | .ok (offset, data) => { s with out := writeAt s.out offset data }
  | .error err => { s with failed := s.failed + 1, firstErr := s.firstErr.or (some err) }

structure DownloadResult where
  fileID : String
  fileName : String
  totalSize : Int64
  outputPath : String
  error : Option GoError

structure Downloaded where
  result : Option DownloadResult
  err : Option GoError
  file : Option (List UInt8)

def fetchChunks (env : DownloadEnv) (info : FileInfo) (chunks : List ChunkInfo) : Assembly :=
  ((env.completion.order (chunks.mergeSort fun a b => decide (a.chunkIndex ≤ b.chunkIndex))).map fun c =>
      downloadChunkWithFailover (env.fetch c) c info.chunkSize).foldl Assembly.finish
    ⟨List.replicate info.fileSize.toInt.toNat 0, 0, none⟩

/-- `Download` up to the first goroutine: what it returns early, or the file and its chunks. -/
def prepareDownload (env : DownloadEnv) (fileName : String) (before : Option (List UInt8)) :
    Except Downloaded (FileInfo × List ChunkInfo) :=
  match env.metadata.getFileByName fileName with
  | .error err => .error ⟨none, some (wrap "download: failed to get file metadata" err), before⟩
  | .ok (_, []) => .error ⟨none, some (.new ("download: file " ++ fileName.quote ++ " has no chunks")), before⟩
  | .ok (info, chunks) =>
    match env.create, if info.fileSize < 0 then some (.new "invalid argument") else env.truncate with
    | some err, _ => .error ⟨none, some (wrap "download: failed to create output file" err), before⟩
    | none, some err => .error ⟨none, some (wrap "download: failed to pre-allocate file" err), some []⟩
    | none, none => .ok (info, chunks)

/-- `Download` after `wg.Wait()`. -/
def concludeDownload (info : FileInfo) (total : Nat) (outputPath : String) (fetched : Assembly) : Downloaded :=
  let result : DownloadResult := ⟨info.fileID, info.fileName, info.fileSize, outputPath, none⟩
  if 0 < fetched.failed then
    let err := wrap ("download: " ++ fetched.failed.repr ++ "/" ++ total.repr ++ " chunks failed")
      (fetched.firstErr.getD (.new "<nil>"))
    ⟨some { result with error := some err }, some err, none⟩
  else ⟨some result, none, some fetched.out⟩

/-- `Download`; `before` is the file at the output path when it is called. -/
def download (env : DownloadEnv) (fileName outputPath : String) (before : Option (List UInt8)) :
    Downloaded :=
  match prepareDownload env fileName before with
  | .error early => early
  | .ok (info, chunks) => concludeDownload info chunks.length outputPath (fetchChunks env info chunks)

theorem foldl_finish_ok {results : List (Except GoError Write)} {s : Assembly}
    (clean : (results.foldl Assembly.finish s).failed = 0) :
    s.failed = 0 ∧ ∃ writes : List Write, results = writes.map .ok ∧
      (results.foldl Assembly.finish s).out = writes.foldl (fun out w => writeAt out w.1 w.2) s.out := by
  induction results generalizing s with
  | nil => exact ⟨clean, [], rfl, rfl⟩
  | cons result rest ih =>
    obtain ⟨first, writes, same, out⟩ := ih clean
    cases result with
    | error err => simp [Assembly.finish] at first
    | ok w => exact ⟨first, w :: writes, by rw [same, List.map_cons], out⟩

theorem prepareDownload_ok {env : DownloadEnv} {fileName : String} {before : Option (List UInt8)} {info : FileInfo}
    {chunks : List ChunkInfo} (ready : prepareDownload env fileName before = .ok (info, chunks)) :
    env.metadata.getFileByName fileName = .ok (info, chunks) ∧ chunks ≠ [] := by
  unfold prepareDownload at ready
  cases found : env.metadata.getFileByName fileName with
  | error err => simp [found] at ready
  | ok file =>
    obtain ⟨info', chunks'⟩ := file
    cases chunks' with
    | nil => simp [found] at ready
    | cons c rest =>
      simp only [found] at ready
      split at ready
      · cases ready
      · cases ready
      · cases ready
        exact ⟨rfl, List.cons_ne_nil c rest⟩

theorem prepareDownload_fails {env : DownloadEnv} {fileName : String} {before : Option (List UInt8)}
    {early : Downloaded} (stops : prepareDownload env fileName before = .error early) : early.err ≠ none := by
  unfold prepareDownload at stops
  split at stops
  · cases stops
    simp
  · cases stops
    simp
  · split at stops
    · cases stops
      simp
    · cases stops
      simp
    · cases stops

theorem download_ok {env : DownloadEnv} {fileName outputPath : String} {before : Option (List UInt8)}
    (succeeded : (download env fileName outputPath before).err = none) :
    ∃ info chunks, ∃ finished : List ChunkInfo, ∃ writes : List Write,
      env.metadata.getFileByName fileName = .ok (info, chunks) ∧ finished.Perm chunks ∧
      finished.map (fun c => downloadChunkWithFailover (env.fetch c) c info.chunkSize) =
        writes.map .ok ∧
      (download env fileName outputPath before).file = some (writes.foldl
        (fun out w => writeAt out w.1 w.2) (List.replicate info.fileSize.toInt.toNat 0)) := by
  unfold download at succeeded ⊢
  cases ready : prepareDownload env fileName before with
  | error early =>
    rw [ready] at succeeded
    exact absurd succeeded (prepareDownload_fails ready)
  | ok found =>
    obtain ⟨info, chunks⟩ := found
    rw [ready] at succeeded
    unfold concludeDownload at succeeded ⊢
    dsimp only at succeeded ⊢
    split at succeeded
    · cases succeeded
    · rename_i clean
      obtain ⟨_, writes, all, out⟩ := foldl_finish_ok (Nat.eq_zero_of_not_pos clean)
      refine ⟨info, chunks, _, writes, (prepareDownload_ok ready).1, ?_, all, ?_⟩
      · exact (env.completion.perm _).trans (List.mergeSort_perm chunks _)
      · exact (congrArg Downloaded.file (if_neg clean)).trans (congrArg some out)

end DistributedFs.Client
