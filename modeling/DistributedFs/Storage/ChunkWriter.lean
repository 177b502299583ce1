import DistributedFs.Storage.DiskStore

namespace DistributedFs.Storage

open Go

def errOperationAborted : GoError := .new "op has been aborted"
def errWriterClosed : GoError := .new "write over a closed writer"
def errChecksumMismatch : GoError := .new "checksum mismatch"

/-- A `ChunkWriter`; `hasher` holds the bytes that the running hash has taken in. -/
structure ChunkWriter where
  filepath : Path
  file : File
  chunkId : GoString
  isDone : Bool
  hasher : List UInt8

def newChunkWriter (ds : DiskStore) (fault : Option GoError) (chunkId : GoString) (disk : Disk) :
    Except GoError ChunkWriter × Disk :=
  if chunkId = [] then (.error errInvalidChunkId, disk)
  else
    match ds.tempPath chunkId, fault with
    | .error err, _ => (.error err, disk)
    | .ok _, some err => (.error err, disk)
    | .ok tmpPath, none =>
      let created := disk.files.create tmpPath
      (.ok ⟨tmpPath, created.2, chunkId, false, []⟩, { disk with files := created.1 })

inductive WriteFault where
  | short (n : Nat) (err : GoError)
  | sync (err : GoError)

namespace ChunkWriter

def put (cw : ChunkWriter) (data hashed : List UInt8) (disk : Disk) : ChunkWriter × Disk :=
  let written := disk.files.write cw.file data
  ({ cw with file := written.2, hasher := cw.hasher ++ hashed }, { disk with files := written.1 })

/-- `Write`: the bytes of a short write are in the file and not in the hash. -/
def write (cw : ChunkWriter) (fault : Option WriteFault) (data : List UInt8) (disk : Disk) :
    (ChunkWriter × Disk) × Option GoError :=
  if cw.isDone then ((cw, disk), some errWriterClosed)
  else
    match fault with
    | some (.short n err) => (cw.put (data.take n) [] disk, some err)
    | some (.sync err) => (cw.put data data disk, some err)
    | none => (cw.put data data disk, none)

/-- `Abort`, also on a writer that is done; an error of `os.Remove` is ignored. -/
def abort (cw : ChunkWriter) (fault : Option GoError) (disk : Disk) : ChunkWriter × Disk :=
  ({ cw with isDone := true },
    if fault = none then { disk with files := disk.files.remove cw.filepath } else disk)

def computedChecksum (cw : ChunkWriter) : List UInt8 := Sha256.sum256 cw.hasher

/-- `Finalize`; a failure after the checksum test ends in a deferred `Abort`. -/
def finalize (ds : DiskStore) (cw : ChunkWriter) (faults : Faults RenameCall)
    (removeFault : Option GoError) (expectedChecksum : List UInt8) (disk : Disk) :
    (ChunkWriter × Disk) × Option GoError :=
  if cw.isDone then ((cw, disk), some errOperationAborted)
  else if cw.computedChecksum ≠ expectedChecksum then
    (cw.abort removeFault disk, some errChecksumMismatch)
  else
    let closed := { cw with isDone := true }
    match ds.rename faults cw.filepath cw.chunkId disk with
    | (after, none) => ((closed, after), none)
    | (after, some err) => (closed.abort removeFault after, some err)

theorem finalize_renamed {ds : DiskStore} {cw : ChunkWriter} (live : cw.isDone = false)
    {faults : Faults RenameCall} {removeFault : Option GoError} {disk after : Disk}
    (moved : ds.rename faults cw.filepath cw.chunkId disk = (after, none)) :
    cw.finalize ds faults removeFault cw.computedChecksum disk =
      (({ cw with isDone := true }, after), none) := by
  simp [finalize, live, moved]

theorem finalize_cases {ds : DiskStore} {cw later : ChunkWriter} (live : cw.isDone = false)
    {faults : Faults RenameCall} {removeFault result : Option GoError} {expected : List UInt8}
    {disk after : Disk}
    (ran : cw.finalize ds faults removeFault expected disk = ((later, after), result)) :
    later = { cw with isDone := true } ∧
      ((result ≠ none ∧ after = (cw.abort removeFault disk).2) ∨
        ∃ renamed err, ds.rename faults cw.filepath cw.chunkId disk = (renamed, err) ∧
          ((result = none ∧ err = none ∧ cw.computedChecksum = expected ∧ after = renamed) ∨
            (result ≠ none ∧ after = (cw.abort removeFault renamed).2))) := by
  unfold finalize at ran
  simp only [live, Bool.false_eq_true, if_false] at ran
  split at ran
  · cases ran
    exact ⟨rfl, .inl ⟨by simp, rfl⟩⟩
  · rename_i matched
    split at ran
    · rename_i renamed moved
      cases ran
      exact ⟨rfl, .inr ⟨_, none, moved, .inl ⟨rfl, rfl, not_not.mp matched, rfl⟩⟩⟩
    · rename_i renamed err moved
      cases ran
      exact ⟨rfl, .inr ⟨renamed, some err, moved, .inr ⟨by simp, rfl⟩⟩⟩

end ChunkWriter

end DistributedFs.Storage
