import DistributedFs.Storage.OneWriter
import DistributedFs.Storage.PutChunk

namespace DistributedFs.Storage

open Go Server WeightedMap DiskStore StorageServer

structure ReplicateChunkRequest where
  chunkId : String
  data : List UInt8
  isFirst : Bool
  isLast : Bool

/-- What a call meets: the failures of its writers and of its replies, and what other sessions do
    to the disk before each frame and, under `none`, before the end of the stream. -/
structure ReplicateEnv where
  create : Nat → Option GoError
  write : Nat → Option WriteFault
  rename : Faults RenameCall
  remove : Option GoError
  send : Nat → Option GoError
  others : Option Nat → Disk → Disk

def ReplicateEnv.beside (others : Option Nat → Disk → Disk) : ReplicateEnv :=
  ⟨fun _ => none, fun _ => none, RenameCall.onPut none, none, fun _ => none, others⟩

def ReplicateEnv.quiet : ReplicateEnv := .beside fun _ disk => disk

def ReplicateEnv.Idle (env : ReplicateEnv) : Prop := ∀ k disk, env.others k disk = disk

theorem ReplicateEnv.quiet_idle : ReplicateEnv.quiet.Idle := fun _ _ => rfl

structure ReplicateChunkResponse where
  ok : Bool
  isFinal : Bool
  chunkId : String
  checksum : List UInt8

structure Incoming where
  writer : ChunkWriter
  registeredChunkId : String

inductive Turn where
  | failed (err : RpcError)
  | finished (response : ReplicateChunkResponse)
  | acked (incoming : Incoming)

namespace ReplicateChunk

def ack : ReplicateChunkResponse := ⟨true, false, "", []⟩

/-- A frame with `IsFirst` opens a writer in any turn; the writer before it is dropped. -/
def openWriter (ds : DiskStore) (env : ReplicateEnv) (k : Nat) (frame : ReplicateChunkRequest)
    (incoming : Option Incoming) (disk : Disk) : Except RpcError (Option Incoming) × Disk :=
  if frame.isFirst then
    if frame.chunkId = "" then
      (.error (invalidArgument "chunk_id must not be empty on first frame"), disk)
    else
      match newChunkWriter ds (env.create k) (bytes frame.chunkId) disk with
      | (.error _, disk) => (.error (internal "failed to initialise chunk writer"), disk)
      | (.ok writer, disk) => (.ok (some ⟨writer, frame.chunkId⟩), disk)
  else (.ok incoming, disk)

def writeData (writer : ChunkWriter) (fault : Option WriteFault) (data : List UInt8) (disk : Disk) :
    (ChunkWriter × Disk) × Option GoError :=
  if data.length > 0 then writer.write fault data disk else ((writer, disk), none)

def fill (ds : DiskStore) (env : ReplicateEnv) (k : Nat) (frame : ReplicateChunkRequest)
    (incoming : Incoming) (disk : Disk) : Turn × Disk :=
  if frame.chunkId ≠ "" ∧ frame.chunkId ≠ incoming.registeredChunkId then
    (.failed (invalidArgument "chunk_id mismatch mid-stream"),
      (incoming.writer.abort env.remove disk).2)
  else
    match writeData incoming.writer (env.write k) frame.data disk with
    | ((writer, disk), some _) =>
      (.failed (internal "failed to write frame"), (writer.abort env.remove disk).2)
    | ((writer, disk), none) =>
      if frame.isLast then
        match writer.finalize ds env.rename env.remove writer.computedChecksum disk with
        | ((_, disk), some _) => (.failed (internal "failed to finalise chunk"), disk)
        | ((_, disk), none) =>
          match env.send k with
          | some err => (.failed { code := .unknown, message := err.text }, disk)
          | none => (.finished ⟨true, true, incoming.registeredChunkId, writer.computedChecksum⟩, disk)
      else
        match env.send k with
        | some _ =>
          (.failed (internal "failed to send frame ack"), (writer.abort env.remove disk).2)
        | none => (.acked { incoming with writer := writer }, disk)

def takeFrame (ds : DiskStore) (env : ReplicateEnv) (k : Nat) (frame : ReplicateChunkRequest)
    (incoming : Option Incoming) (disk : Disk) : Turn × Disk :=
  match openWriter ds env k frame incoming disk with
  | (.error err, disk) => (.failed err, disk)
  | (.ok none, disk) => (.failed (invalidArgument "first frame must have is_first=true"), disk)
  | (.ok (some incoming), disk) => fill ds env k frame incoming disk

/-- The end of the stream. A sender that closes it early is answered without an error, and
    the writer stays as it is. -/
def endStream (env : ReplicateEnv) (ending : Ending) (incoming : Option Incoming) (disk : Disk) :
    Option RpcError × Disk :=
  match ending, incoming with
  | .eof, none => (some (invalidArgument "no frames received"), disk)
  | .eof, some _ => (none, disk)
  | .broken, none => (some (internal "stream recv error"), disk)
  | .broken, some incoming =>
    (some (internal "stream recv error"), (incoming.writer.abort env.remove disk).2)

def serve (ds : DiskStore) (env : ReplicateEnv) (ending : Ending) :
    List ReplicateChunkRequest → Nat → Option Incoming → Disk → Option RpcError × Disk
  | [], _, incoming, disk => endStream env ending incoming (env.others none disk)
  | frame :: rest, k, incoming, disk =>
    match takeFrame ds env k frame incoming (env.others (some k) disk) with
    | (.failed err, disk) => (some err, disk)
    | (.finished _, disk) => (none, disk)
    | (.acked incoming, disk) => serve ds env ending rest (k + 1) (some incoming) disk

def sent (ds : DiskStore) (env : ReplicateEnv) :
    List ReplicateChunkRequest → Nat → Option Incoming → Disk → List ReplicateChunkResponse
  | [], _, _, _ => []
  | frame :: rest, k, incoming, disk =>
    match takeFrame ds env k frame incoming (env.others (some k) disk) with
    | (.failed _, _) => []
    | (.finished response, _) => [response]
    | (.acked incoming, disk) => ack :: sent ds env rest (k + 1) (some incoming) disk

end ReplicateChunk

def replicateChunk (ds : DiskStore) (env : ReplicateEnv) (frames : List ReplicateChunkRequest)
    (ending : Ending) (disk : Disk) : Option RpcError × Disk :=
  ReplicateChunk.serve ds env ending frames 0 none disk

variable {ds : DiskStore} {before disk : Disk}

inductive Filled (ds : DiskStore) (before : Disk) (m : Contents ds) (frame : ReplicateChunkRequest)
    (incoming : Incoming) : Turn × Disk → Prop where
  | other (named : frame.chunkId ≠ "") (differs : frame.chunkId ≠ incoming.registeredChunkId)
    (err : RpcError) (after : Disk) (gone : Discarded before after incoming.writer.filepath) :
    Filled ds before m frame incoming (.failed err, after)
  | acked (same : frame.chunkId = "" ∨ frame.chunkId = incoming.registeredChunkId)
    (going : frame.isLast = false) (later : ChunkWriter) (after : Disk)
    (writing : Writing ds before after later) (id : later.chunkId = incoming.writer.chunkId)
    (path : later.filepath = incoming.writer.filepath)
    (hashed : later.hasher = incoming.writer.hasher ++ frame.data) :
    Filled ds before m frame incoming (.acked ⟨later, incoming.registeredChunkId⟩, after)
  | full (same : frame.chunkId = "" ∨ frame.chunkId = incoming.registeredChunkId)
    (last : frame.isLast = true)
    (refused : m.put incoming.writer.chunkId (incoming.writer.hasher ++ frame.data) = none)
    (err : RpcError) (after : Disk) (gone : Discarded before after incoming.writer.filepath) :
    Filled ds before m frame incoming (.failed err, after)
  | stored (same : frame.chunkId = "" ∨ frame.chunkId = incoming.registeredChunkId)
    (last : frame.isLast = true) (later : Contents ds)
    (room : m.put incoming.writer.chunkId (incoming.writer.hasher ++ frame.data) = some later)
    (after : Disk) (held : Represents ds after later)
    (reads : ∀ q, (∀ id, ds.pathForChunk id ≠ .ok q) →
      after.files.read q = if q = incoming.writer.filepath then none else before.files.read q) :
    Filled ds before m frame incoming
      (.finished ⟨true, true, incoming.registeredChunkId,
        Sha256.sum256 (incoming.writer.hasher ++ frame.data)⟩, after)

theorem Writing.writeData {cw : ChunkWriter} (writing : Writing ds before disk cw) (data : List UInt8) :
    ∃ later after, ReplicateChunk.writeData cw none data disk = ((later, after), none) ∧
      Writing ds before after later ∧ later.chunkId = cw.chunkId ∧ later.filepath = cw.filepath ∧
      later.hasher = cw.hasher ++ data := by
  unfold ReplicateChunk.writeData
  by_cases some : data.length > 0
  · rw [if_pos some]
    exact writing.write data
  · rw [if_neg some]
    have empty : data = [] := List.length_eq_zero_iff.mp (by omega)
    exact ⟨cw, disk, rfl, writing, rfl, rfl, by rw [empty, List.append_nil]⟩

theorem fill_filled {m : Contents ds} {incoming : Incoming} (writing : Writing ds before disk incoming.writer)
    (repr : Represents ds before m) (frame : ReplicateChunkRequest)
    (short : (incoming.writer.hasher ++ frame.data).length < 2 ^ 64) (k : Nat) :
    Filled ds before m frame incoming (ReplicateChunk.fill ds .quiet k frame incoming disk) := by
  unfold ReplicateChunk.fill
  by_cases other : frame.chunkId ≠ "" ∧ frame.chunkId ≠ incoming.registeredChunkId
  · rw [if_pos other]
    exact .other other.1 other.2 _ _ writing.abort
  · rw [if_neg other]
    have same : frame.chunkId = "" ∨ frame.chunkId = incoming.registeredChunkId := by
      by_cases unnamed : frame.chunkId = ""
      · exact .inl unnamed
      · exact .inr (not_not.mp fun differs => other ⟨unnamed, differs⟩)
    obtain ⟨later, after, written, held, id, path, hashed⟩ := writing.writeData frame.data
    have quiet : ReplicateEnv.quiet.write k = none := rfl
    rw [quiet, written]
    cases last : frame.isLast with
    | false => exact .acked same last later after held id path hashed
    | true =>
      have outcome := held.finalize repr (by rw [hashed]; exact short)
      rw [id, hashed, path] at outcome
      rcases outcome with ⟨full, closed, final, err, ran, gone⟩ | ⟨m', closed, final, room, ran, stored, reads⟩
      · simp only [if_true, ReplicateEnv.quiet, ReplicateEnv.beside, ran]
        exact .full same last full _ final gone
      · simp only [if_true, ReplicateEnv.quiet, ReplicateEnv.beside, ran]
        rw [ChunkWriter.computedChecksum, hashed]
        exact .stored same last m' room final stored reads

end DistributedFs.Storage
