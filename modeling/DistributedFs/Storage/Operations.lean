import DistributedFs.Storage.DiskStore

namespace DistributedFs.Storage

open Go

def errChunkNotFound : GoError := .new "chunk not found"
def errFailedToDelete (cause : GoError) : GoError := .new ("chunk deletion failed: " ++ cause.text)
def errVerifyFailed : GoError := .new "chunk mismatch checksum verification failed"

def errKeyNotFound : GoError := .new "key not found"

/-- The failures under a `Write`; a short write leaves its bytes in the file. -/
structure WriteFaults where
  statExisting : Option GoError
  mkdirAll : Option GoError
  openFile : Option GoError
  shortWrite : Option (Nat × GoError)
  putChecksum : Option GoError

inductive DeleteCall where
  | stat | remove | deleteChecksum

def WriteFaults.onPut (fault : Option GoError) : WriteFaults := ⟨none, none, none, none, fault⟩

def RenameCall.onPut (fault : Option GoError) : Faults RenameCall
  | .putChecksum => fault
  | _ => none

def DeleteCall.onDelete (fault : Option GoError) : Faults DeleteCall
  | .deleteChecksum => fault
  | _ => none

/-- `NewDiskStore` over the files and the index that are there; the counter starts at zero. -/
def newDiskStore (files : FileSystem Path) (checksums : Finmap fun _ : GoString => List UInt8) : Disk :=
  ⟨files, checksums, 0⟩

def adjustUsedSpace (usedSpace newSize existingSize : UInt64) : UInt64 :=
  if newSize ≥ existingSize then usedSpace + (newSize - existingSize)
  else usedSpace - (existingSize - newSize)

namespace DiskStore

def exists_ (ds : DiskStore) (chunkId : GoString) (disk : Disk) : Bool :=
  match ds.validateChunkId chunkId with
  | .error _ => false
  | .ok _ => disk.indexed chunkId

def list (disk : Disk) : Finset GoString := disk.checksums.keys

def size (disk : Disk) : UInt64 := disk.usedSpace

def freeSpace (ds : DiskStore) (disk : Disk) : UInt64 :=
  if disk.usedSpace > ds.totalSpace then 0 else ds.totalSpace - disk.usedSpace

/-- `Read`, which answers `ChunkNotFound` for an invalid id as well. -/
def read (ds : DiskStore) (fault : Option GoError) (chunkId : GoString) (disk : Disk) :
    Except GoError (List UInt8) :=
  match ds.validateChunkId chunkId with
  | .error _ => .error errChunkNotFound
  | .ok _ =>
    if ds.exists_ chunkId disk = false then .error errChunkNotFound
    else do
      let chunkPath ← ds.pathForChunk chunkId
      unlessFault fault
      match disk.files.read chunkPath with
      | none => .error errNotExist
      | some data => .ok data

def verify (ds : DiskStore) (fault : Option GoError) (chunkId : GoString) (disk : Disk) :
    Except GoError (List UInt8) := do
  ds.validateChunkId chunkId
  match disk.checksums.lookup chunkId with
  | none => .error errKeyNotFound
  | some val =>
    let data ← ds.read fault chunkId disk
    if Sha256.sum256 data ≠ val then .error errVerifyFailed else .ok val

/-- The size that `Write` and `Rename` take for the chunk they replace; an error of `os.Stat`
    counts as no file. -/
def existingSize (fault : Option GoError) (path : Path) (chunkId : GoString) (disk : Disk) : UInt64 :=
  if disk.indexed chunkId ∧ fault = none then ((disk.stat path).toOption).getD 0 else 0

def writeTarget (ds : DiskStore) (faults : WriteFaults) (chunkId : GoString) (newSize : UInt64)
    (disk : Disk) : Except GoError (Path × UInt64) := do
  ds.validateChunkId chunkId
  let abs ← ds.pathForChunk chunkId
  let existingSize := existingSize faults.statExisting abs chunkId disk
  ds.checkSpace disk newSize existingSize
  let dirPath ← getDirForChunkId chunkId ds.splitLevel
  let fullDirPath := Path.join [ds.rootDir, dirPath]
  unlessFault faults.mkdirAll
  return (fullDirPath.child (chunkId ++ bytes ".chunk"), existingSize)

/-- `Write` and `Rename` from the `Put` on: the file is in place before the index and the
    counter follow. -/
def record (fault : Option GoError) (chunkId : GoString) (value : List UInt8)
    (newSize existingSize : UInt64) (disk : Disk) : Disk × Option GoError :=
  match fault with
  | some err => (disk, some err)
  | none =>
    ({ disk with
        checksums := disk.checksums.insert chunkId (Sha256.sum256 value)
        usedSpace := adjustUsedSpace disk.usedSpace newSize existingSize }, none)

def write (ds : DiskStore) (faults : WriteFaults) (chunkId : GoString) (value : List UInt8)
    (disk : Disk) : Disk × Option GoError :=
  let newSize := UInt64.ofNat value.length
  match ds.writeTarget faults chunkId newSize disk with
  | .error err => (disk, some err)
  | .ok (chunkPath, existingSize) =>
    match faults.openFile, faults.shortWrite with
    | some err, _ => (disk, some err)
    | none, some (n, err) =>
      ({ disk with files := disk.files.writeFile chunkPath (value.take n) }, some err)
    | none, none =>
      record faults.putChecksum chunkId value newSize existingSize
        { disk with files := disk.files.writeFile chunkPath value }

def deleteTarget (ds : DiskStore) (faults : Faults DeleteCall) (chunkId : GoString) (disk : Disk) :
    Except GoError (Path × UInt64) := do
  ds.validateChunkId chunkId
  if ds.exists_ chunkId disk = false then .error errChunkNotFound
  let chunkPath ← ds.pathForChunk chunkId
  unlessFault (faults .stat)
  let fileSize ← (disk.stat chunkPath).mapError fun _ => errChunkNotFound
  match faults .remove with
  | some err => .error (errFailedToDelete err)
  | none => return (chunkPath, fileSize)

/-- `Delete`: a failure of the index is logged, and the call succeeds. -/
def delete (ds : DiskStore) (faults : Faults DeleteCall) (chunkId : GoString) (disk : Disk) :
    Disk × Option GoError :=
  match ds.deleteTarget faults chunkId disk with
  | .error err => (disk, some err)
  | .ok (chunkPath, fileSize) =>
    ({ files := disk.files.remove chunkPath
       checksums :=
        if faults .deleteChecksum = none then disk.checksums.erase chunkId else disk.checksums
       usedSpace := if disk.usedSpace ≥ fileSize then disk.usedSpace - fileSize else 0 }, none)

theorem checkSpace_cases (ds : DiskStore) (disk : Disk) (newSize existingSize : UInt64) :
    ds.checkSpace disk newSize existingSize = .ok () ∨
      ds.checkSpace disk newSize existingSize = .error errInsufficientSpace := by
  simp only [checkSpace]
  generalize (if newSize > existingSize then newSize - existingSize else 0) = netDelta
  by_cases short : netDelta > ds.totalSpace - disk.usedSpace
  · rw [if_pos short]
    exact .inr rfl
  · rw [if_neg short]
    exact .inl rfl

def install (ds : DiskStore) (fault : Option GoError) (p : Path) (chunkId : GoString)
    (content : List UInt8) (files : FileSystem Path) (disk : Disk) : Disk × Option GoError :=
  let newSize := UInt64.ofNat content.length
  let existingSize := existingSize none p chunkId disk
  match ds.checkSpace disk newSize existingSize with
  | .error err => (disk, some err)
  | .ok _ => record fault chunkId content newSize existingSize { disk with files := files }

theorem write_eq_install {ds : DiskStore} {chunkId : GoString} {p : Path}
    (found : ds.pathForChunk chunkId = .ok p) (fault : Option GoError) (value : List UInt8) (disk : Disk) :
    ds.write (.onPut fault) chunkId value disk =
      ds.install fault p chunkId value (disk.files.writeFile p value) disk := by
  have valid := pathForChunk_valid found
  obtain ⟨dir, sharded, path⟩ := pathForChunk_of_valid valid
  have same := Except.ok.inj (path.symm.trans found)
  have target : ds.writeTarget (.onPut fault) chunkId (UInt64.ofNat value.length) disk =
      (ds.checkSpace disk (UInt64.ofNat value.length) (existingSize none p chunkId disk)).bind
        fun _ => .ok (p, existingSize none p chunkId disk) := by
    simp only [writeTarget, valid, found, sharded, WriteFaults.onPut, unlessFault]
    rw [← same]
    rfl
  simp only [write, target, install]
  rcases ds.checkSpace_cases disk (UInt64.ofNat value.length) (existingSize none p chunkId disk) with
    passed | refused
  · simp only [passed, Except.bind]
    rfl
  · simp only [refused, Except.bind]

theorem pathForChunk_ne {ds : DiskStore} {chunkId other : GoString} {p q : Path}
    (path : ds.pathForChunk chunkId = .ok p) (elsewhere : ds.pathForChunk other = .ok q)
    (away : other ≠ chunkId) : q ≠ p := by
  intro same
  subst same
  exact away (pathForChunk_injective elsewhere path)

theorem write_invalid {ds : DiskStore} {chunkId : GoString}
    (invalid : ds.validateChunkId chunkId = .error errInvalidChunkId) (faults : WriteFaults)
    (value : List UInt8) (disk : Disk) :
    ds.write faults chunkId value disk = (disk, some errInvalidChunkId) := by
  have target : ds.writeTarget faults chunkId (UInt64.ofNat value.length) disk =
      .error errInvalidChunkId := by
    simp only [writeTarget, invalid]
    rfl
  simp only [write, target]

theorem rename_eq_install {ds : DiskStore} {chunkId : GoString} {p source : Path} {disk : Disk}
    {content : List UInt8} (found : ds.pathForChunk chunkId = .ok p)
    (present : disk.files.read source = some content) :
    ∃ files, (∀ q, files.read q =
        if q = p then some content else if q = source then none else disk.files.read q) ∧
      ∀ fault, ds.rename (RenameCall.onPut fault) source chunkId disk =
        ds.install fault p chunkId content files disk := by
  obtain ⟨files, moved, reads⟩ := FileSystem.rename_of_read present p
  refine ⟨files, reads, ?_⟩
  intro fault
  have valid := pathForChunk_valid found
  have measured : disk.stat source = .ok (UInt64.ofNat content.length) := by
    simp only [Disk.stat, present]
  have target : ds.renameTarget (RenameCall.onPut fault) source chunkId disk = .ok p := by
    simp only [renameTarget, valid, found, measured]
    rfl
  have sizes : ds.renameSizes (RenameCall.onPut fault) source p chunkId disk =
      (ds.checkSpace disk (UInt64.ofNat content.length) (existingSize none p chunkId disk)).bind
        fun _ => .ok (UInt64.ofNat content.length, existingSize none p chunkId disk) := by
    simp only [renameSizes, existingSize, measured, RenameCall.onPut, unlessFault]
    rfl
  simp only [rename, target, sizes, install, moved]
  rcases ds.checkSpace_cases disk (UInt64.ofNat content.length) (existingSize none p chunkId disk) with
    passed | refused
  · have here : files.read p = some content := by simp [reads]
    simp only [passed, Except.bind, indexRenamed, here, RenameCall.onPut]
    cases fault with
    | none => rfl
    | some err => rfl
  · simp only [refused, Except.bind]

theorem read_moved_other {ds : DiskStore} {chunkId : GoString} {p source : Path} {disk : Disk}
    {content : List UInt8} {files : FileSystem Path} (path : ds.pathForChunk chunkId = .ok p)
    (temporary : ∀ id, ds.pathForChunk id ≠ .ok source)
    (reads : ∀ q, files.read q =
      if q = p then some content else if q = source then none else disk.files.read q)
    (other : GoString) (q : Path) (away : other ≠ chunkId) (elsewhere : ds.pathForChunk other = .ok q) :
    files.read q = disk.files.read q := by
  have notSource : q ≠ source := by
    intro same
    subst same
    exact temporary other elsewhere
  rw [reads, if_neg (pathForChunk_ne path elsewhere away), if_neg notSource]

theorem rename_invalid {ds : DiskStore} {chunkId : GoString}
    (invalid : ds.validateChunkId chunkId = .error errInvalidChunkId) (faults : Faults RenameCall)
    (source : Path) (disk : Disk) :
    ds.rename faults source chunkId disk = (disk, some errInvalidChunkId) := by
  have target : ds.renameTarget faults source chunkId disk = .error errInvalidChunkId := by
    simp only [renameTarget, invalid]
    rfl
  simp only [rename, target]

theorem delete_invalid {ds : DiskStore} {chunkId : GoString}
    (invalid : ds.validateChunkId chunkId = .error errInvalidChunkId) (faults : Faults DeleteCall)
    (disk : Disk) : ds.delete faults chunkId disk = (disk, some errInvalidChunkId) := by
  have target : ds.deleteTarget faults chunkId disk = .error errInvalidChunkId := by
    simp only [deleteTarget, invalid]
    rfl
  simp only [delete, target]

theorem exists_of_valid {ds : DiskStore} {chunkId : GoString}
    (valid : ds.validateChunkId chunkId = .ok ()) (disk : Disk) :
    ds.exists_ chunkId disk = disk.indexed chunkId := by
  simp only [exists_, valid]

theorem read_unindexed {ds : DiskStore} {chunkId : GoString} {disk : Disk}
    (absent : disk.indexed chunkId = false) (fault : Option GoError) :
    ds.read fault chunkId disk = .error errChunkNotFound := by
  rcases ds.validateChunkId_cases chunkId with valid | invalid
  · simp only [read, valid, exists_of_valid valid, absent, if_true]
  · simp only [read, invalid]

theorem read_indexed {ds : DiskStore} {chunkId : GoString} {p : Path} {disk : Disk}
    (path : ds.pathForChunk chunkId = .ok p) (listed : disk.indexed chunkId = true) :
    ds.read none chunkId disk = (disk.files.read p).elim (.error errNotExist) .ok := by
  have valid := pathForChunk_valid path
  simp only [read, valid, exists_of_valid valid, listed, Bool.true_eq_false, if_false, path]
  show (match disk.files.read p with
    | none => Except.error errNotExist
    | some data => Except.ok data) = _
  cases disk.files.read p with
  | none => rfl
  | some content => rfl

theorem read_eq_ok {ds : DiskStore} {chunkId : GoString} {disk : Disk} {content : List UInt8}
    (reads : ds.read none chunkId disk = .ok content) : ∃ p, ds.pathForChunk chunkId = .ok p ∧
      disk.indexed chunkId = true ∧ disk.files.read p = some content := by
  cases listed : disk.indexed chunkId with
  | false =>
    rw [read_unindexed listed] at reads
    cases reads
  | true =>
    rcases ds.validateChunkId_cases chunkId with valid | invalid
    · obtain ⟨dir, _, path⟩ := pathForChunk_of_valid valid
      rw [read_indexed path listed] at reads
      refine ⟨_, path, rfl, ?_⟩
      cases present : disk.files.read ((Path.join [ds.rootDir, dir]).child (chunkId ++ bytes ".chunk")) with
      | none =>
        rw [present] at reads
        cases reads
      | some stored =>
        rw [present] at reads
        cases reads
        rfl
    · simp only [read, invalid] at reads
      cases reads

theorem delete_absent {ds : DiskStore} {chunkId : GoString} {disk : Disk}
    (valid : ds.validateChunkId chunkId = .ok ()) (absent : disk.indexed chunkId = false)
    (faults : Faults DeleteCall) : ds.delete faults chunkId disk = (disk, some errChunkNotFound) := by
  have target : ds.deleteTarget faults chunkId disk = .error errChunkNotFound := by
    simp only [deleteTarget, valid, exists_of_valid valid, absent, if_true]
    rfl
  simp only [delete, target]

theorem deleteTarget_stored {ds : DiskStore} {chunkId : GoString} {p : Path} {disk : Disk}
    {content : List UInt8} (found : ds.pathForChunk chunkId = .ok p)
    (indexed : disk.indexed chunkId = true) (present : disk.files.read p = some content)
    (fault : Option GoError) :
    ds.deleteTarget (DeleteCall.onDelete fault) chunkId disk = .ok (p, UInt64.ofNat content.length) := by
  have valid := pathForChunk_valid found
  have measured : disk.stat p = .ok (UInt64.ofNat content.length) := by
    simp only [Disk.stat, present]
  simp only [deleteTarget, valid, exists_of_valid valid, indexed, Bool.true_eq_false, if_false, found]
  show (do
    let fileSize ← (disk.stat p).mapError fun _ => errChunkNotFound
    return (p, fileSize)) = .ok (p, UInt64.ofNat content.length)
  rw [measured]
  rfl

theorem delete_stored {ds : DiskStore} {chunkId : GoString} {p : Path} {disk : Disk}
    {content : List UInt8} (found : ds.pathForChunk chunkId = .ok p)
    (indexed : disk.indexed chunkId = true) (present : disk.files.read p = some content)
    (fault : Option GoError) :
    ds.delete (DeleteCall.onDelete fault) chunkId disk =
      (⟨disk.files.remove p, if fault = none then disk.checksums.erase chunkId else disk.checksums,
        if disk.usedSpace ≥ UInt64.ofNat content.length then
          disk.usedSpace - UInt64.ofNat content.length else 0⟩, none) := by
  simp only [delete, deleteTarget_stored found indexed present]
  rfl

end DiskStore

end DistributedFs.Storage
