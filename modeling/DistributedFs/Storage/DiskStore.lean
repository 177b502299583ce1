import DistributedFs.Go.Basic
import DistributedFs.Go.FileSystem
import DistributedFs.Go.Filepath
import DistributedFs.Go.Sha256
import Mathlib.Data.Finmap

namespace DistributedFs.Storage

open Go

def errInvalidChunkId : GoError := .new "chunk-id is not valid"
def errInsufficientSpace : GoError := .new "insufficient space"

def errNotExist : GoError := .new "file does not exist"

/-- The settings of a `DiskStore`. The code doubles `splitLevel` in `uint16`. -/
structure DiskStore where
  rootDir : GoString
  tempDir : GoString
  splitLevel : Nat
  totalSpace : UInt64
  noWrap : 2 * splitLevel < 2 ^ 16

structure Disk where
  files : FileSystem Path
  checksums : Finmap fun _ : GoString => List UInt8
  usedSpace : UInt64

def emptyDisk : Disk := ⟨.empty, ∅, 0⟩

abbrev Faults (Call : Type) := Call → Option GoError

def unlessFault (fault : Option GoError) : Except GoError Unit :=
  match fault with
  | some err => .error err
  | none => .ok ()

namespace DiskStore

def validateChunkId (ds : DiskStore) (chunkId : GoString) : Except GoError Unit :=
  if chunkId = [] then .error errInvalidChunkId
  else if chunkId.length < 2 * ds.splitLevel then .error errInvalidChunkId
  else if slash ∈ chunkId ∨ 92 ∈ chunkId ∨ [dot, dot] <:+: chunkId then .error errInvalidChunkId
  else .ok ()

def getDirForChunkId (chunkId : GoString) (shardLvl : Nat) : Except GoError GoString :=
  if chunkId = [] then .error errInvalidChunkId
  else if chunkId.length < 2 * shardLvl then .error errInvalidChunkId
  else .ok ((List.range shardLvl).flatMap fun i => (chunkId.drop (2 * i)).take 2 ++ [slash])

/-- `TempDir`: the file name has two dots, one from each half of the format. -/
def tempPath (ds : DiskStore) (chunkId : GoString) : Except GoError Path := do
  ds.validateChunkId chunkId
  return Path.join [ds.tempDir, chunkId ++ bytes "..tmp"]

def pathForChunk (ds : DiskStore) (chunkId : GoString) : Except GoError Path := do
  ds.validateChunkId chunkId
  let shardDir ← getDirForChunkId chunkId ds.splitLevel
  return Path.join [ds.rootDir, shardDir, chunkId ++ bytes ".chunk"]

theorem validateChunkId_noSlash {ds : DiskStore} {chunkId : GoString}
    (valid : ds.validateChunkId chunkId = .ok ()) : slash ∉ chunkId := by
  intro member
  simp only [validateChunkId, member, true_or, if_true] at valid
  split at valid
  · cases valid
  · split at valid <;> cases valid

theorem validateChunkId_cases (ds : DiskStore) (chunkId : GoString) :
    ds.validateChunkId chunkId = .ok () ∨ ds.validateChunkId chunkId = .error errInvalidChunkId := by
  unfold validateChunkId
  split
  · exact .inr rfl
  · split
    · exact .inr rfl
    · split
      · exact .inr rfl
      · exact .inl rfl

theorem plain_fileName {ds : DiskStore} {chunkId ending : GoString}
    (valid : ds.validateChunkId chunkId = .ok ()) (noSlash : slash ∉ ending)
    (long : 2 < ending.length) : Path.Plain (chunkId ++ ending) := by
  have length : (chunkId ++ ending).length = chunkId.length + ending.length := List.length_append
  refine ⟨?_, ?_, ?_, ?_⟩
  · rw [List.mem_append]
    intro held
    rcases held with member | member
    · exact validateChunkId_noSlash valid member
    · exact noSlash member
  · intro same
    simp only [same, List.length_nil] at length
    omega
  · intro same
    simp only [same, List.length_cons, List.length_nil] at length
    omega
  · intro same
    simp only [same, List.length_cons, List.length_nil] at length
    omega

theorem base_tempPath {ds : DiskStore} {chunkId : GoString} {p : Path}
    (found : ds.tempPath chunkId = .ok p) : p.base = some (chunkId ++ bytes "..tmp") := by
  obtain ⟨_, valid, joined⟩ := bind_eq_ok found
  cases joined
  exact Path.base_join [ds.tempDir] (plain_fileName valid (by decide) (by decide))

theorem base_pathForChunk {ds : DiskStore} {chunkId : GoString} {p : Path}
    (found : ds.pathForChunk chunkId = .ok p) : p.base = some (chunkId ++ bytes ".chunk") := by
  obtain ⟨_, valid, rest⟩ := bind_eq_ok found
  obtain ⟨shardDir, _, joined⟩ := bind_eq_ok rest
  cases joined
  exact Path.base_join [ds.rootDir, shardDir] (plain_fileName valid (by decide) (by decide))

theorem pathForChunk_of_valid {ds : DiskStore} {chunkId : GoString}
    (valid : ds.validateChunkId chunkId = .ok ()) :
    ∃ dir, getDirForChunkId chunkId ds.splitLevel = .ok dir ∧
      ds.pathForChunk chunkId = .ok ((Path.join [ds.rootDir, dir]).child (chunkId ++ bytes ".chunk")) := by
  have sharded : ∃ dir, getDirForChunkId chunkId ds.splitLevel = .ok dir := by
    unfold validateChunkId at valid
    unfold getDirForChunkId
    split at valid
    · cases valid
    · rename_i nonempty
      split at valid
      · cases valid
      · rename_i long
        rw [if_neg nonempty, if_neg long]
        exact ⟨_, rfl⟩
  obtain ⟨dir, sharded⟩ := sharded
  refine ⟨dir, sharded, ?_⟩
  rw [Path.child_join _ (plain_fileName valid (by decide) (by decide))]
  simp only [pathForChunk, valid, sharded]
  rfl

theorem pathForChunk_valid {ds : DiskStore} {chunkId : GoString} {p : Path}
    (found : ds.pathForChunk chunkId = .ok p) : ds.validateChunkId chunkId = .ok () := by
  obtain ⟨_, valid, _⟩ := bind_eq_ok found
  exact valid

theorem pathForChunk_injective {ds : DiskStore} {first second : GoString} {p : Path}
    (left : ds.pathForChunk first = .ok p) (right : ds.pathForChunk second = .ok p) :
    first = second := by
  have same := (base_pathForChunk left).symm.trans (base_pathForChunk right)
  exact List.append_cancel_right (Option.some.inj same)

theorem tempPath_injective {ds : DiskStore} {first second : GoString} {p : Path}
    (left : ds.tempPath first = .ok p) (right : ds.tempPath second = .ok p) : first = second := by
  have same := (base_tempPath left).symm.trans (base_tempPath right)
  exact List.append_cancel_right (Option.some.inj same)

theorem pathForChunk_ne_tempPath {ds : DiskStore} {first second : GoString} {p q : Path}
    (chunk : ds.pathForChunk first = .ok p) (temp : ds.tempPath second = .ok q) : p ≠ q := by
  intro same
  subst same
  have same := Option.some.inj ((base_pathForChunk chunk).symm.trans (base_tempPath temp))
  have last := congrArg List.getLast? same
  have chunkEnd : (bytes ".chunk").getLast? = some 107 := by decide
  have tempEnd : (bytes "..tmp").getLast? = some 112 := by decide
  rw [List.getLast?_append, List.getLast?_append, chunkEnd, tempEnd] at last
  cases last

end DiskStore

inductive RenameCall where
  | statSource | mkdirAll | statDest | statSourceLocked | openSource | syncSource | closeSource
  | osRename | readDest | putChecksum

namespace Disk

def indexed (disk : Disk) (chunkId : GoString) : Bool := (disk.checksums.lookup chunkId).isSome

def stat (disk : Disk) (p : Path) : Except GoError UInt64 :=
  match disk.files.read p with
  | none => .error errNotExist
  | some content => .ok (UInt64.ofNat content.length)

end Disk

namespace DiskStore

def renameTarget (ds : DiskStore) (faults : Faults RenameCall) (source : Path) (chunkId : GoString)
    (disk : Disk) : Except GoError Path := do
  ds.validateChunkId chunkId
  unlessFault (faults .statSource)
  let _ ← disk.stat source
  let dest ← ds.pathForChunk chunkId
  unlessFault (faults .mkdirAll)
  return dest

def checkSpace (ds : DiskStore) (disk : Disk) (srcSize existingDestSize : UInt64) :
    Except GoError Unit :=
  let netDelta := if srcSize > existingDestSize then srcSize - existingDestSize else 0
  let freeSpace := ds.totalSpace - disk.usedSpace
  if netDelta > freeSpace then .error errInsufficientSpace else .ok ()

def renameSizes (ds : DiskStore) (faults : Faults RenameCall) (source dest : Path)
    (chunkId : GoString) (disk : Disk) : Except GoError (UInt64 × UInt64) := do
  let existingDestSize :=
    if disk.indexed chunkId ∧ faults .statDest = none then ((disk.stat dest).toOption).getD 0 else 0
  unlessFault (faults .statSourceLocked)
  let srcSize ← disk.stat source
  ds.checkSpace disk srcSize existingDestSize
  unlessFault (faults .openSource)
  unlessFault (faults .syncSource)
  unlessFault (faults .closeSource)
  unlessFault (faults .osRename)
  return (srcSize, existingDestSize)

/-- `Rename` after `os.Rename`: the checksum is taken from the file that is now in place. -/
def indexRenamed (faults : Faults RenameCall) (dest : Path) (chunkId : GoString)
    (srcSize existingDestSize : UInt64) (disk : Disk) : Disk × Option GoError :=
  match faults .readDest, disk.files.read dest, faults .putChecksum with
  | some err, _, _ => (disk, some err)
  | none, none, _ => (disk, some errNotExist)
  | none, some _, some err => (disk, some err)
  | none, some data, none =>
    ({ disk with
        checksums := disk.checksums.insert chunkId (Sha256.sum256 data)
        usedSpace :=
          if srcSize ≥ existingDestSize then disk.usedSpace + (srcSize - existingDestSize)
          else disk.usedSpace - (existingDestSize - srcSize) }, none)

def rename (ds : DiskStore) (faults : Faults RenameCall) (source : Path) (chunkId : GoString)
    (disk : Disk) : Disk × Option GoError :=
  match ds.renameTarget faults source chunkId disk with
  | .error err => (disk, some err)
  | .ok dest =>
    match ds.renameSizes faults source dest chunkId disk with
    | .error err => (disk, some err)
    | .ok (srcSize, existingDestSize) =>
      match disk.files.rename source dest with
      | none => (disk, some errNotExist)
      | some files =>
        indexRenamed faults dest chunkId srcSize existingDestSize { disk with files := files }

theorem renameTarget_ok {ds : DiskStore} {faults : Faults RenameCall} {source dest : Path}
    {chunkId : GoString} {disk : Disk} (passed : ds.renameTarget faults source chunkId disk = .ok dest) :
    ds.pathForChunk chunkId = .ok dest := by
  obtain ⟨_, _, passed⟩ := bind_eq_ok passed
  obtain ⟨_, _, passed⟩ := bind_eq_ok passed
  obtain ⟨_, _, passed⟩ := bind_eq_ok passed
  obtain ⟨path, found, passed⟩ := bind_eq_ok passed
  obtain ⟨_, _, passed⟩ := bind_eq_ok passed
  cases passed
  exact found

theorem indexRenamed_files (faults : Faults RenameCall) (dest : Path) (chunkId : GoString)
    (srcSize existingDestSize : UInt64) (disk : Disk) :
    (indexRenamed faults dest chunkId srcSize existingDestSize disk).1.files = disk.files := by
  unfold indexRenamed
  split <;> rfl

theorem indexRenamed_ok {faults : Faults RenameCall} {dest : Path} {chunkId : GoString}
    {srcSize existingDestSize : UInt64} {disk after : Disk}
    (ran : indexRenamed faults dest chunkId srcSize existingDestSize disk = (after, none)) :
    ∃ data, disk.files.read dest = some data ∧
      after.checksums.lookup chunkId = some (Sha256.sum256 data) := by
  unfold indexRenamed at ran
  split at ran
  · cases ran
  · cases ran
  · cases ran
  · rename_i data _ present _
    cases ran
    exact ⟨data, present, Finmap.lookup_insert _⟩

theorem rename_cases {ds : DiskStore} {faults : Faults RenameCall} {source : Path}
    {chunkId : GoString} {disk after : Disk} {result : Option GoError}
    (ran : ds.rename faults source chunkId disk = (after, result)) :
    (after = disk ∧ result ≠ none) ∨
      ∃ dest i, ∃ linked : disk.files.links source = some i, ds.pathForChunk chunkId = .ok dest ∧
        after.files = disk.files.move source dest i linked ∧
        (result = none → after.checksums.lookup chunkId = some (Sha256.sum256 (disk.files.inodes i))) := by
  unfold rename at ran
  split at ran
  · cases ran
    exact .inl ⟨rfl, by simp⟩
  · rename_i dest target
    split at ran
    · cases ran
      exact .inl ⟨rfl, by simp⟩
    · split at ran
      · cases ran
        exact .inl ⟨rfl, by simp⟩
      · rename_i files moved
        obtain ⟨i, linked, rfl⟩ := FileSystem.rename_eq_some moved
        refine .inr ⟨dest, i, linked, renameTarget_ok target, ?_, ?_⟩
        · have same := congrArg (fun ran => ran.1.files) ran
          rw [← same, indexRenamed_files]
        · intro same
          subst same
          obtain ⟨data, present, indexed⟩ := indexRenamed_ok ran
          rw [FileSystem.read_move] at present
          cases present
          exact indexed

end DiskStore

end DistributedFs.Storage
