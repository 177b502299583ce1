import DistributedFs.Storage.Sessions
import DistributedFs.Storage.StoreRuns

namespace DistributedFs.Storage

open Go WeightedMap DiskStore

variable {ds : DiskStore}

/-- Only the temporary file of the writer differs from the store before it was opened, and it
    holds what was handed to the writer. -/
structure Writing (ds : DiskStore) (before disk : Disk) (cw : ChunkWriter) : Prop where
  temp : ds.tempPath cw.chunkId = .ok cw.filepath
  live : cw.isDone = false
  linked : disk.files.links cw.filepath = some cw.file.inode
  holds : Holds disk.files cw
  others : ∀ q, q ≠ cw.filepath → disk.files.read q = before.files.read q
  checksums : disk.checksums = before.checksums
  usedSpace : disk.usedSpace = before.usedSpace

structure Discarded (before after : Disk) (p : Path) : Prop where
  reads : ∀ q, after.files.read q = if q = p then none else before.files.read q
  checksums : after.checksums = before.checksums
  usedSpace : after.usedSpace = before.usedSpace

theorem tempPath_of_valid {chunkId : GoString} (valid : ds.validateChunkId chunkId = .ok ()) :
    ds.tempPath chunkId = .ok (Path.join [ds.tempDir, chunkId ++ bytes "..tmp"]) := by
  simp only [tempPath, valid]
  rfl

theorem tempPath_invalid {chunkId : GoString}
    (invalid : ds.validateChunkId chunkId = .error errInvalidChunkId) :
    ds.tempPath chunkId = .error errInvalidChunkId := by
  simp only [tempPath, invalid]
  rfl

theorem valid_nonempty {chunkId : GoString} (valid : ds.validateChunkId chunkId = .ok ()) :
    chunkId ≠ [] := by
  intro empty
  simp [validateChunkId, empty] at valid

theorem newChunkWriter_valid {chunkId : GoString} (valid : ds.validateChunkId chunkId = .ok ())
    (disk : Disk) : ∃ cw after, newChunkWriter ds none chunkId disk = (.ok cw, after) ∧
      Writing ds disk after cw ∧ cw.chunkId = chunkId ∧ cw.hasher = [] := by
  have temp := tempPath_of_valid valid
  generalize Path.join [ds.tempDir, chunkId ++ bytes "..tmp"] = p at temp
  refine ⟨⟨p, (disk.files.create p).2, chunkId, false, []⟩, { disk with files := (disk.files.create p).1 },
    ?_, ?_, rfl, rfl⟩
  · simp only [newChunkWriter, valid_nonempty valid, if_false, temp]
  · refine ⟨temp, rfl, disk.files.links_create _, (create_owns disk.files chunkId _).2, ?_, rfl, rfl⟩
    intro q away
    rw [FileSystem.read_create, if_neg away]

theorem newChunkWriter_invalid {chunkId : GoString}
    (invalid : ds.validateChunkId chunkId = .error errInvalidChunkId) (fault : Option GoError) (disk : Disk) :
    newChunkWriter ds fault chunkId disk = (.error errInvalidChunkId, disk) := by
  unfold newChunkWriter
  split
  · rfl
  · rw [tempPath_invalid invalid]

namespace Writing

variable {before disk : Disk} {cw : ChunkWriter}

theorem write (writing : Writing ds before disk cw) (data : List UInt8) :
    ∃ later after, cw.write none data disk = ((later, after), none) ∧ Writing ds before after later ∧
      later.chunkId = cw.chunkId ∧ later.filepath = cw.filepath ∧ later.hasher = cw.hasher ++ data := by
  refine ⟨(cw.put data data disk).1, (cw.put data data disk).2, ?_, ?_, rfl, rfl, rfl⟩
  · simp [ChunkWriter.write, writing.live]
  · refine ⟨writing.temp, writing.live, writing.linked, put_holds writing.holds data, ?_,
      writing.checksums, writing.usedSpace⟩
    intro q away
    have away : q ≠ cw.filepath := away
    have read := FileSystem.read_write writing.linked data q
    rw [if_neg away] at read
    exact read.trans (writing.others q away)

theorem abort (writing : Writing ds before disk cw) :
    Discarded before (cw.abort none disk).2 cw.filepath := by
  refine ⟨?_, writing.checksums, writing.usedSpace⟩
  intro q
  show (disk.files.remove cw.filepath).read q = _
  rw [FileSystem.read_remove]
  by_cases here : q = cw.filepath
  · rw [if_pos here, if_pos here]
  · rw [if_neg here, if_neg here, writing.others q here]

theorem temporary (writing : Writing ds before disk cw) (chunkId : GoString) :
    ds.pathForChunk chunkId ≠ .ok cw.filepath := by
  intro path
  exact pathForChunk_ne_tempPath path writing.temp rfl

theorem represents (writing : Writing ds before disk cw) {m : Contents ds}
    (repr : Represents ds before m) : Represents ds disk m where
  indexed id := by
    rw [writing.checksums]
    exact repr.indexed id
  stored id content found := by
    obtain ⟨p, path, present⟩ := repr.stored id content found
    have away : p ≠ cw.filepath := by
      intro same
      subst same
      exact writing.temporary id path
    exact ⟨p, path, (writing.others p away).trans present⟩
  used := by
    rw [writing.usedSpace]
    exact repr.used

theorem read (writing : Writing ds before disk cw) :
    disk.files.read cw.filepath = some cw.hasher := by
  simp only [FileSystem.read, writing.linked, Option.map_some, writing.holds.content]

theorem reopened (writing : Writing ds before disk cw) {after : Disk} {other : ChunkWriter}
    (again : Writing ds disk after other) (same : other.chunkId = cw.chunkId) :
    Writing ds before after other := by
  have path : other.filepath = cw.filepath := by
    have temp := again.temp
    rw [same] at temp
    exact Except.ok.inj (temp.symm.trans writing.temp)
  refine ⟨again.temp, again.live, again.linked, again.holds, ?_, again.checksums.trans writing.checksums,
    again.usedSpace.trans writing.usedSpace⟩
  intro q away
  rw [again.others q away, writing.others q (path ▸ away)]

theorem finalize_mismatch (writing : Writing ds before disk cw) {expected : List UInt8}
    (differs : cw.computedChecksum ≠ expected) : ∃ later after err,
      cw.finalize ds (RenameCall.onPut none) none expected disk = ((later, after), some err) ∧
        Discarded before after cw.filepath := by
  refine ⟨(cw.abort none disk).1, (cw.abort none disk).2, errChecksumMismatch, ?_, writing.abort⟩
  simp [ChunkWriter.finalize, writing.live, differs]

theorem finalize (writing : Writing ds before disk cw) {m : Contents ds}
    (repr : Represents ds before m) (short : cw.hasher.length < 2 ^ 64) :
    (m.put cw.chunkId cw.hasher = none ∧ ∃ later after err,
      cw.finalize ds (RenameCall.onPut none) none cw.computedChecksum disk = ((later, after), some err) ∧
        Discarded before after cw.filepath) ∨
    ∃ m' later after, m.put cw.chunkId cw.hasher = some m' ∧
      cw.finalize ds (RenameCall.onPut none) none cw.computedChecksum disk = ((later, after), none) ∧
        Represents ds after m' ∧ ∀ q, (∀ id, ds.pathForChunk id ≠ .ok q) →
          after.files.read q = if q = cw.filepath then none else before.files.read q := by
  have valid : ds.validateChunkId cw.chunkId = .ok () := by
    obtain ⟨_, valid, _⟩ := bind_eq_ok writing.temp
    exact valid
  obtain ⟨dir, _, path⟩ := pathForChunk_of_valid valid
  obtain ⟨files, reads, renamed⟩ := rename_eq_install path writing.read
  have kept := read_moved_other path writing.temporary reads
  rcases (writing.represents repr).install path short (by rw [reads, if_pos rfl]) kept with
    ⟨full, refused⟩ | ⟨m', after, room, stored, moved, held⟩
  · refine .inl ⟨full, { cw with isDone := true }, (cw.abort none disk).2, errInsufficientSpace, ?_,
      writing.abort⟩
    simp only [ChunkWriter.finalize, writing.live, Bool.false_eq_true, if_false, ne_eq, not_true_eq_false,
      renamed, refused]
    rfl
  · refine .inr ⟨m', _, after, room, ChunkWriter.finalize_renamed writing.live ?_, held, ?_⟩
    · rw [renamed, stored]
    · intro q loose
      have notHere : q ≠ (Path.join [ds.rootDir, dir]).child (cw.chunkId ++ bytes ".chunk") := by
        intro same
        subst same
        exact loose cw.chunkId path
      rw [moved, reads, if_neg notHere]
      by_cases temp : q = cw.filepath
      · rw [if_pos temp, if_pos temp]
      · rw [if_neg temp, if_neg temp, writing.others q temp]

end Writing

theorem Discarded.represents {before after : Disk} {p : Path} (discarded : Discarded before after p)
    (temporary : ∀ chunkId, ds.pathForChunk chunkId ≠ .ok p) {m : Contents ds}
    (repr : Represents ds before m) : Represents ds after m where
  indexed id := by
    rw [discarded.checksums]
    exact repr.indexed id
  stored id content found := by
    obtain ⟨q, path, present⟩ := repr.stored id content found
    have away : q ≠ p := by
      intro same
      subst same
      exact temporary id path
    refine ⟨q, path, ?_⟩
    rw [discarded.reads, if_neg away]
    exact present
  used := by
    rw [discarded.usedSpace]
    exact repr.used

end DistributedFs.Storage
