import DistributedFs.Storage.Sessions
import DistributedFs.Storage.StoreRuns

namespace DistributedFs.Storage

open Go WeightedMap DiskStore

/-- Every indexed chunk has a file whose hash is its index entry, and the counter is the sum
    of the sizes. -/
structure Intact (ds : DiskStore) (disk : Disk) : Prop where
  chunks : ∀ id sum, disk.checksums.lookup id = some sum → ∃ p content,
    ds.pathForChunk id = .ok p ∧ disk.files.read p = some content ∧ sum = Sha256.sum256 content
  used : (DiskStore.size disk).toNat = storedTotal ds disk

structure SameAnswers (ds : DiskStore) (before after : Disk) : Prop where
  read : ∀ id, ds.read none id after = ds.read none id before
  exists_ : ∀ id, ds.exists_ id after = ds.exists_ id before
  verify : ∀ id, ds.verify none id after = ds.verify none id before
  size : DiskStore.size after = DiskStore.size before

variable {ds : DiskStore}

namespace Op

def interrupted (op : Op ds) (err : GoError) (disk : Disk) : Disk × Option GoError :=
  match op with
  | .write chunkId value => ds.write (.onPut (some err)) chunkId value.1 disk
  | .rename source _ chunkId _ => ds.rename (RenameCall.onPut (some err)) source chunkId disk
  | .delete chunkId => ds.delete (DeleteCall.onDelete (some err)) chunkId disk

def ReachesIndex (op : Op ds) (disk : Disk) : Prop := (op.call disk).2 = none

def AllOrNothing (op : Op ds) (err : GoError) (disk : Disk) : Prop :=
  Intact ds (op.interrupted err disk).1 ∧
    ((op.interrupted err disk).2 ≠ none → SameAnswers ds disk (op.interrupted err disk).1)

def Harmless (op : Op ds) (disk : Disk) : Prop :=
  match op.stores with
  | none => False
  | some (chunkId, content) => disk.indexed chunkId = false ∨ ds.read none chunkId disk = .ok content

end Op

structure SameChunks (ds : DiskStore) (before after : Disk) : Prop where
  checksums : after.checksums = before.checksums
  usedSpace : after.usedSpace = before.usedSpace
  files : ∀ id p, before.indexed id = true → ds.pathForChunk id = .ok p →
    after.files.read p = before.files.read p

theorem SameChunks.indexed {before after : Disk} (same : SameChunks ds before after) (id : GoString) :
    after.indexed id = before.indexed id := by
  rw [Disk.indexed, Disk.indexed, same.checksums]

theorem SameChunks.read {before after : Disk} (same : SameChunks ds before after) (id : GoString) :
    ds.read none id after = ds.read none id before := by
  cases listed : before.indexed id with
  | false => rw [read_unindexed listed, read_unindexed ((same.indexed id).trans listed)]
  | true =>
    rcases ds.validateChunkId_cases id with valid | invalid
    · obtain ⟨dir, _, path⟩ := pathForChunk_of_valid valid
      rw [read_indexed path listed, read_indexed path ((same.indexed id).trans listed),
        same.files id _ listed path]
    · simp only [DiskStore.read, invalid]

theorem SameChunks.answers {before after : Disk} (same : SameChunks ds before after) :
    SameAnswers ds before after where
  read := same.read
  exists_ id := by
    rcases ds.validateChunkId_cases id with valid | invalid
    · rw [exists_of_valid valid, exists_of_valid valid, same.indexed]
    · simp only [DiskStore.exists_, invalid]
  verify id := by
    simp only [DiskStore.verify, same.checksums, same.read]
  size := same.usedSpace

theorem SameChunks.intact {before after : Disk} (same : SameChunks ds before after)
    (intact : Intact ds before) : Intact ds after where
  chunks id sum found := by
    rw [same.checksums] at found
    obtain ⟨p, content, path, present, hash⟩ := intact.chunks id sum found
    refine ⟨p, content, path, ?_, hash⟩
    rw [same.files id p (by rw [Disk.indexed, found]; rfl) path]
    exact present
  used := by
    rw [storedTotal, DiskStore.size, DiskStore.list, same.usedSpace, same.checksums]
    refine intact.used.trans ?_
    apply Finset.sum_congr rfl
    intro id _
    rw [same.read]

theorem Intact.lookup_of_indexed {disk : Disk} (intact : Intact ds disk) {id : GoString}
    (listed : disk.indexed id = true) : ∃ p content, ds.pathForChunk id = .ok p ∧
      disk.files.read p = some content ∧ ds.read none id disk = .ok content := by
  obtain ⟨sum, found⟩ := Option.isSome_iff_exists.mp listed
  obtain ⟨p, content, path, present, _⟩ := intact.chunks id sum found
  refine ⟨p, content, path, present, ?_⟩
  rw [read_indexed path listed, present]
  rfl

theorem Intact.prepare {disk : Disk} (intact : Intact ds disk) (op : Op ds) :
    Intact ds (op.prepare disk) := by
  cases op with
  | write chunkId value => exact intact
  | delete chunkId => exact intact
  | rename source temporary chunkId content =>
    apply SameChunks.intact _ intact
    refine ⟨rfl, rfl, ?_⟩
    intro id p _ path
    have away : p ≠ source := by
      intro same
      subst same
      exact temporary id path
    simp only [Op.prepare, FileSystem.read_writeFile, if_neg away]

theorem install_interrupted {p : Path} {id : GoString} {content : List UInt8} {files : FileSystem Path}
    {disk : Disk} (reached : (ds.install none p id content files disk).2 = none) (err : GoError) :
    ds.install (some err) p id content files disk = ({ disk with files := files }, some err) := by
  simp only [install] at reached ⊢
  rcases ds.checkSpace_cases disk (UInt64.ofNat content.length) (existingSize none p id disk) with
    passed | refused
  · simp only [passed, record]
  · simp [refused] at reached

theorem intact_replaced_iff {disk : Disk} (intact : Intact ds disk) {id : GoString} {p : Path}
    (path : ds.pathForChunk id = .ok p) {content : List UInt8} {files : FileSystem Path}
    (placed : files.read p = some content)
    (kept : ∀ other q, other ≠ id → ds.pathForChunk other = .ok q → files.read q = disk.files.read q) :
    (Intact ds { disk with files := files } ∧ SameAnswers ds disk { disk with files := files }) ↔
      disk.indexed id = false ∨ ds.read none id disk = .ok content := by
  constructor
  · intro held
    cases listed : disk.indexed id with
    | false => exact .inl rfl
    | true =>
      refine .inr ?_
      have still : Disk.indexed { disk with files := files } id = true := listed
      have after : ds.read none id { disk with files := files } = .ok content := by
        rw [read_indexed path still, placed]
        rfl
      rw [← held.2.read id, after]
  · intro harmless
    have same : SameChunks ds disk { disk with files := files } := by
      refine ⟨rfl, rfl, ?_⟩
      intro other q listed elsewhere
      by_cases here : other = id
      · subst here
        cases path.symm.trans elsewhere
        rcases harmless with absent | stored
        · exact absurd (listed.symm.trans absent) (by simp)
        · rw [read_indexed path listed] at stored
          show files.read p = disk.files.read p
          cases present : disk.files.read p with
          | none =>
            rw [present] at stored
            cases stored
          | some old =>
            rw [present] at stored
            cases stored
            exact placed
      · exact kept other q here elsewhere
    exact ⟨same.intact intact, same.answers⟩

theorem Op.installs {op : Op ds} {disk : Disk} {id : GoString} {content : List UInt8}
    (writes : op.stores = some (id, content)) (reached : op.ReachesIndex (op.prepare disk)) (err : GoError) :
    ∃ p files, ds.pathForChunk id = .ok p ∧ files.read p = some content ∧
      (∀ other q, other ≠ id → ds.pathForChunk other = .ok q →
        files.read q = (op.prepare disk).files.read q) ∧
      op.interrupted err (op.prepare disk) = ({ op.prepare disk with files := files }, some err) := by
  cases op with
  | delete chunkId => cases writes
  | write chunkId value =>
    cases writes
    rcases ds.validateChunkId_cases id with valid | invalid
    · obtain ⟨dir, _, path⟩ := pathForChunk_of_valid valid
      simp only [ReachesIndex, call, write_eq_install path] at reached
      refine ⟨_, _, path, ?_, ?_, (write_eq_install path _ _ _).trans (install_interrupted reached err)⟩
      · rw [FileSystem.read_writeFile, if_pos rfl]
      · intro other q away elsewhere
        rw [FileSystem.read_writeFile, if_neg (pathForChunk_ne path elsewhere away)]
    · simp [ReachesIndex, call, write_invalid invalid] at reached
  | rename source temporary chunkId value =>
    cases writes
    have present : (prepare (.rename source temporary id value) disk).files.read source = some value.1 := by
      simp only [prepare, FileSystem.read_writeFile, if_true]
    rcases ds.validateChunkId_cases id with valid | invalid
    · obtain ⟨dir, _, path⟩ := pathForChunk_of_valid valid
      obtain ⟨files, reads, renamed⟩ := rename_eq_install path present
      simp only [ReachesIndex, call, renamed] at reached
      refine ⟨_, files, path, ?_, ?_, (renamed (some err)).trans (install_interrupted reached err)⟩
      · rw [reads, if_pos rfl]
      · exact read_moved_other path temporary reads
    · simp [ReachesIndex, call, rename_invalid invalid] at reached

theorem deleted_of_reached {disk : Disk} {id : GoString}
    (reached : (ds.delete (DeleteCall.onDelete none) id disk).2 = none) (intact : Intact ds disk) :
    ∃ p content, ds.pathForChunk id = .ok p ∧ disk.indexed id = true ∧
      disk.files.read p = some content := by
  rcases ds.validateChunkId_cases id with valid | invalid
  · cases listed : disk.indexed id with
    | false => simp [delete_absent valid listed] at reached
    | true =>
      obtain ⟨p, content, path, present, _⟩ := intact.lookup_of_indexed listed
      exact ⟨p, content, path, rfl, present⟩
  · simp [delete_invalid invalid] at reached

/-- An interrupted call is all or nothing if and only if it is a `Write` or `Rename` of a
    chunk that is new or has the same bytes already; a `Delete` always leaves an index entry
    without a file. -/
theorem allOrNothing_iff_harmless {disk : Disk} (intact : Intact ds disk) (op : Op ds)
    (reached : op.ReachesIndex (op.prepare disk)) (err : GoError) :
    op.AllOrNothing err (op.prepare disk) ↔ op.Harmless (op.prepare disk) := by
  have prepared := intact.prepare op
  cases writes : op.stores with
  | some stored =>
    obtain ⟨id, content⟩ := stored
    obtain ⟨p, files, path, placed, kept, outcome⟩ := Op.installs writes reached err
    simp only [Op.AllOrNothing, Op.Harmless, writes, outcome]
    rw [← intact_replaced_iff prepared path placed kept]
    simp
  | none =>
    cases op with
    | write chunkId value => cases writes
    | rename source temporary chunkId content => cases writes
    | delete id =>
      have reached : (ds.delete (DeleteCall.onDelete none) id disk).2 = none := reached
      obtain ⟨p, content, path, listed, present⟩ := deleted_of_reached reached intact
      have outcome := delete_stored path listed present (some err)
      simp only [Op.Harmless, writes, iff_false]
      intro held
      have after : Intact ds (ds.delete (DeleteCall.onDelete (some err)) id disk).1 := held.1
      rw [outcome] at after
      obtain ⟨sum, found⟩ := Option.isSome_iff_exists.mp listed
      obtain ⟨q, data, same, there, _⟩ := after.chunks id sum found
      cases path.symm.trans same
      rw [FileSystem.read_remove, if_pos rfl] at there
      cases there

theorem Represents.intact {disk : Disk} {m : Contents ds} (repr : Represents ds disk m) :
    Intact ds disk where
  chunks id sum found := by
    rw [repr.indexed] at found
    obtain ⟨content, held, hash⟩ := Option.map_eq_some_iff.mp found
    obtain ⟨p, path, present⟩ := repr.stored id content held
    exact ⟨p, content, path, present, hash.symm⟩
  used := repr.used.trans repr.storedTotal_eq.symm

def firstWrite : Op store := .write chunk ⟨[1, 2, 3], by decide⟩

def oneChunk : Disk := (firstWrite.step emptyDisk).1

theorem oneChunk_intact : Intact store oneChunk := by
  obtain ⟨after, stepped, held, _⟩ := (Represents.fresh store .empty).call firstWrite
  have same : oneChunk = after := congrArg Prod.fst stepped
  rw [same]
  exact held.intact

theorem allOrNothing_iff_harmless_oneChunk :
    Op.AllOrNothing (.write secondChunk ⟨[9], by decide⟩ : Op store) errNotExist oneChunk ∧
      Op.AllOrNothing (.write chunk ⟨[1, 2, 3], by decide⟩ : Op store) errNotExist oneChunk := by
  refine ⟨(allOrNothing_iff_harmless oneChunk_intact _ ?_ _).mpr (.inl ?_),
    (allOrNothing_iff_harmless oneChunk_intact _ ?_ _).mpr (.inr ?_)⟩
  · unfold Op.ReachesIndex
    decide +kernel
  · decide +kernel
  · unfold Op.ReachesIndex
    decide +kernel
  · decide +kernel

/-- An overwrite whose `Put` fails has replaced the bytes, and a `Delete` whose index update
    fails has removed the file under the entry. -/
theorem not_allOrNothing_oneChunk : Intact store oneChunk ∧
    (Op.ReachesIndex (.write chunk ⟨[4], by decide⟩ : Op store) oneChunk ∧
      ¬Op.AllOrNothing (.write chunk ⟨[4], by decide⟩ : Op store) errNotExist oneChunk) ∧
    Op.ReachesIndex (.delete chunk : Op store) oneChunk ∧
      ¬Op.AllOrNothing (.delete chunk : Op store) errNotExist oneChunk := by
  refine ⟨oneChunk_intact, ⟨?_, ?_⟩, ?_, ?_⟩
  · unfold Op.ReachesIndex
    decide +kernel
  · intro held
    have read := congrArg Except.toOption ((held.2 (by decide +kernel)).read chunk)
    revert read
    decide +kernel
  · unfold Op.ReachesIndex
    decide +kernel
  · intro held
    have listed : (Op.interrupted (.delete chunk : Op store) errNotExist oneChunk).1.indexed chunk = true := by
      decide +kernel
    obtain ⟨p, content, path, present, _⟩ := held.1.lookup_of_indexed listed
    have gone : (store.pathForChunk chunk).toOption.bind
        (Op.interrupted (.delete chunk : Op store) errNotExist oneChunk).1.files.read = none := by
      decide +kernel
    rw [path] at gone
    cases gone.symm.trans present

end DistributedFs.Storage
