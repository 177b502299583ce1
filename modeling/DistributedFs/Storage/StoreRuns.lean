import DistributedFs.Storage.Refinement

namespace DistributedFs.Storage

open Go WeightedMap DiskStore

inductive Op (ds : DiskStore) where
  | write (chunkId : GoString) (value : Value)
  | rename (source : Path) (temporary : ∀ chunkId, ds.pathForChunk chunkId ≠ .ok source)
    (chunkId : GoString) (content : Value)
  | delete (chunkId : GoString)

variable {ds : DiskStore}

namespace Op

/-- Before a `Rename` the temporary file is there with its content. -/
def prepare (op : Op ds) (disk : Disk) : Disk :=
  match op with
  | .rename source _ _ content => { disk with files := disk.files.writeFile source content.1 }
  | _ => disk

def call (op : Op ds) (disk : Disk) : Disk × Option GoError :=
  match op with
  | .write chunkId value => ds.write (.onPut none) chunkId value.1 disk
  | .rename source _ chunkId _ => ds.rename (RenameCall.onPut none) source chunkId disk
  | .delete chunkId => ds.delete (DeleteCall.onDelete none) chunkId disk

def step (op : Op ds) (disk : Disk) : Disk × Option GoError := op.call (op.prepare disk)

def stores (op : Op ds) : Option (GoString × List UInt8) :=
  match op with
  | .write chunkId value => some (chunkId, value.1)
  | .rename _ _ chunkId content => some (chunkId, content.1)
  | .delete _ => none

def subtractions (op : Op ds) (disk : Disk) : List (UInt64 × UInt64) :=
  match op with
  | .write chunkId value =>
    match ds.pathForChunk chunkId with
    | .error _ => []
    | .ok p => storeSubtractions ds disk (UInt64.ofNat value.1.length) (existingSize none p chunkId disk)
  | .rename source _ chunkId _ =>
    match ds.pathForChunk chunkId, disk.stat source with
    | .ok p, .ok srcSize => storeSubtractions ds disk srcSize (existingSize none p chunkId disk)
    | _, _ => []
  | .delete chunkId =>
    match ds.deleteTarget (DeleteCall.onDelete none) chunkId disk with
    | .error _ => []
    | .ok (_, fileSize) => if disk.usedSpace ≥ fileSize then [(disk.usedSpace, fileSize)] else []

end Op

def storeMeaning (chunkId : GoString) (content : List UInt8) (m : Contents ds) :
    Contents ds × Option GoError :=
  match ds.validateChunkId chunkId with
  | .error err => (m, some err)
  | .ok _ =>
    match m.put chunkId content with
    | none => (m, some errInsufficientSpace)
    | some later => (later, none)

def Op.meaning (op : Op ds) (m : Contents ds) : Contents ds × Option GoError :=
  match op with
  | .write chunkId value => storeMeaning chunkId value.1 m
  | .rename _ _ chunkId content => storeMeaning chunkId content.1 m
  | .delete chunkId =>
    match ds.validateChunkId chunkId with
    | .error err => (m, some err)
    | .ok _ =>
      match m.lookup chunkId with
      | none => (m, some errChunkNotFound)
      | some _ => (m.erase chunkId, none)

def runOps {S : Type} (step : Op ds → S → S × Option GoError) : List (Op ds) → S →
    S × List (Option GoError)
  | [], state => (state, [])
  | op :: rest, state =>
    let done := step op state
    let later := runOps step rest done.1
    (later.1, done.2 :: later.2)

/-- A store seen through its interface as the map: what it answers, and what a further call
    does. -/
structure Behaves (ds : DiskStore) (disk : Disk) (m : Contents ds) : Prop where
  valid : ∀ id content, m.lookup id = some content → ds.validateChunkId id = .ok ()
  read : ∀ id, ds.read none id disk = (m.lookup id).elim (.error errChunkNotFound) .ok
  list : ∀ id, id ∈ DiskStore.list disk ↔ (m.lookup id).isSome
  verify : ∀ id content, m.lookup id = some content →
    ds.verify none id disk = .ok (Sha256.sum256 content)
  size : (DiskStore.size disk).toNat = ∑ id ∈ DiskStore.list disk, weightAt List.length m.entries id
  bounded : DiskStore.size disk ≤ ds.totalSpace
  freeSpace : (ds.freeSpace disk).toNat = ds.totalSpace.toNat - (DiskStore.size disk).toNat
  refused : ∀ (op : Op ds) id content, op.stores = some (id, content) →
    ds.validateChunkId id = .ok () →
    ((op.step disk).2 = some errInsufficientSpace ↔
      ds.totalSpace.toNat < total List.length (m.entries.insert id content))
  unchanged : ∀ op : Op ds, (op.step disk).2 ≠ none → (op.step disk).1 = op.prepare disk
  noWrap : ∀ op : Op ds, NoWrap (op.subtractions (op.prepare disk))

namespace Represents

variable {disk : Disk} {m : Contents ds}

theorem with_files (repr : Represents ds disk m) {files : FileSystem Path}
    (kept : ∀ id p, ds.pathForChunk id = .ok p → files.read p = disk.files.read p) :
    Represents ds { disk with files := files } m where
  indexed := repr.indexed
  stored id content found := by
    obtain ⟨p, path, present⟩ := repr.stored id content found
    exact ⟨p, path, (kept id p path).trans present⟩
  used := repr.used

theorem prepare (repr : Represents ds disk m) (op : Op ds) : Represents ds (op.prepare disk) m := by
  cases op with
  | write chunkId value => exact repr
  | delete chunkId => exact repr
  | rename source temporary chunkId content =>
    apply repr.with_files
    intro id p path
    have away : p ≠ source := by
      intro same
      subst same
      exact temporary id path
    rw [FileSystem.read_writeFile, if_neg away]

theorem install_meaning (repr : Represents ds disk m) {id : GoString} {p : Path}
    (path : ds.pathForChunk id = .ok p) {content : List UInt8} (short : content.length < 2 ^ 64)
    {files : FileSystem Path} (placed : files.read p = some content)
    (kept : ∀ other q, other ≠ id → ds.pathForChunk other = .ok q → files.read q = disk.files.read q) :
    ∃ after, ds.install none p id content files disk = (after, (storeMeaning id content m).2) ∧
      Represents ds after (storeMeaning id content m).1 ∧
      ((storeMeaning id content m).2 ≠ none → after = disk) := by
  have valid := pathForChunk_valid path
  rcases repr.install path short placed kept with
    ⟨full, refused⟩ | ⟨later, after, room, stored, _, held⟩
  · have meaning : storeMeaning id content m = (m, some errInsufficientSpace) := by
      simp only [storeMeaning, valid, full]
    rw [meaning]
    exact ⟨disk, refused, repr, fun _ => rfl⟩
  · have meaning : storeMeaning id content m = (later, none) := by
      simp only [storeMeaning, valid, room]
    rw [meaning]
    exact ⟨after, stored, held, fun failed => absurd rfl failed⟩

theorem storeMeaning_invalid {id : GoString} (invalid : ds.validateChunkId id = .error errInvalidChunkId)
    (content : List UInt8) (m : Contents ds) :
    storeMeaning id content m = (m, some errInvalidChunkId) := by
  simp only [storeMeaning, invalid]

theorem write (repr : Represents ds disk m) (chunkId : GoString) (value : Value) :
    ∃ after, ds.write (.onPut none) chunkId value.1 disk = (after, (storeMeaning chunkId value.1 m).2) ∧
      Represents ds after (storeMeaning chunkId value.1 m).1 ∧
      ((storeMeaning chunkId value.1 m).2 ≠ none → after = disk) := by
  rcases ds.validateChunkId_cases chunkId with valid | invalid
  · obtain ⟨dir, _, path⟩ := pathForChunk_of_valid valid
    rw [write_eq_install path]
    apply repr.install_meaning path (Nat.lt_trans value.2 (by decide))
    · rw [FileSystem.read_writeFile, if_pos rfl]
    · intro other q away elsewhere
      rw [FileSystem.read_writeFile, if_neg (pathForChunk_ne path elsewhere away)]
  · rw [storeMeaning_invalid invalid, write_invalid invalid]
    exact ⟨disk, rfl, repr, fun _ => rfl⟩

theorem rename (repr : Represents ds disk m) {source : Path} {content : List UInt8}
    (temporary : ∀ chunkId, ds.pathForChunk chunkId ≠ .ok source)
    (present : disk.files.read source = some content) (short : content.length < 2 ^ 64)
    (chunkId : GoString) :
    ∃ after, ds.rename (RenameCall.onPut none) source chunkId disk =
        (after, (storeMeaning chunkId content m).2) ∧
      Represents ds after (storeMeaning chunkId content m).1 ∧
      ((storeMeaning chunkId content m).2 ≠ none → after = disk) := by
  rcases ds.validateChunkId_cases chunkId with valid | invalid
  · obtain ⟨dir, _, path⟩ := pathForChunk_of_valid valid
    obtain ⟨files, reads, renamed⟩ := rename_eq_install path present
    rw [renamed]
    apply repr.install_meaning path short
    · rw [reads, if_pos rfl]
    · exact read_moved_other path temporary reads
  · rw [storeMeaning_invalid invalid, rename_invalid invalid]
    exact ⟨disk, rfl, repr, fun _ => rfl⟩

theorem call (repr : Represents ds disk m) (op : Op ds) :
    ∃ after, op.step disk = (after, (op.meaning m).2) ∧ Represents ds after (op.meaning m).1 ∧
      ((op.meaning m).2 ≠ none → after = op.prepare disk) := by
  cases op with
  | write chunkId value => exact repr.write chunkId value
  | rename source temporary chunkId content =>
    have prepared := repr.prepare (.rename source temporary chunkId content)
    apply prepared.rename temporary _ (Nat.lt_trans content.2 (by decide)) chunkId
    simp only [Op.prepare, FileSystem.read_writeFile, if_true]
  | delete chunkId =>
    show ∃ after, ds.delete (DeleteCall.onDelete none) chunkId disk = _ ∧ _
    simp only [Op.meaning]
    rcases ds.validateChunkId_cases chunkId with valid | invalid
    · cases found : m.lookup chunkId with
      | none =>
        have absent : disk.indexed chunkId = false := by
          rw [repr.indexed_eq, found]
          rfl
        simp only [valid, delete_absent valid absent]
        exact ⟨disk, rfl, repr, fun _ => rfl⟩
      | some content =>
        obtain ⟨after, deleted, held⟩ := repr.erase found
        simp only [valid, deleted]
        exact ⟨after, rfl, held, fun failed => absurd rfl failed⟩
    · simp only [invalid, delete_invalid invalid]
      exact ⟨disk, rfl, repr, fun _ => rfl⟩

theorem runOps (ops : List (Op ds)) : ∀ {disk : Disk} {m : Contents ds}, Represents ds disk m →
    (runOps Op.step ops disk).2 = (runOps Op.meaning ops m).2 ∧
      Represents ds (runOps Op.step ops disk).1 (runOps Op.meaning ops m).1 := by
  induction ops with
  | nil =>
    intro disk m repr
    exact ⟨rfl, repr⟩
  | cons op rest ih =>
    intro disk m repr
    obtain ⟨after, stepped, held, _⟩ := repr.call op
    obtain ⟨answers, final⟩ := ih held
    simp only [Storage.runOps, stepped]
    exact ⟨by rw [answers], final⟩

theorem fresh (ds : DiskStore) (files : FileSystem Path) :
    Represents ds (newDiskStore files ∅) BoundedMap.empty where
  indexed _ := rfl
  stored _ _ found := by cases found
  used := rfl

theorem valid (repr : Represents ds disk m) {id : GoString} {content : List UInt8}
    (found : m.lookup id = some content) : ds.validateChunkId id = .ok () := by
  obtain ⟨p, path, _⟩ := repr.stored id content found
  exact pathForChunk_valid path

theorem read (repr : Represents ds disk m) (id : GoString) :
    ds.read none id disk = (m.lookup id).elim (.error errChunkNotFound) .ok := by
  cases found : m.lookup id with
  | none =>
    apply read_unindexed
    rw [repr.indexed_eq, found]
    rfl
  | some content =>
    obtain ⟨p, path, present⟩ := repr.stored id content found
    rw [read_indexed path (repr.indexed_of_lookup found), present]
    rfl

theorem verify (repr : Represents ds disk m) {id : GoString} {content : List UInt8}
    (found : m.lookup id = some content) : ds.verify none id disk = .ok (Sha256.sum256 content) := by
  have indexed : disk.checksums.lookup id = some (Sha256.sum256 content) := by
    rw [repr.indexed, found]
    rfl
  have read : ds.read none id disk = .ok content := by
    rw [repr.read, found]
    rfl
  simp only [DiskStore.verify, repr.valid found, indexed, read]
  show (if Sha256.sum256 content ≠ Sha256.sum256 content then _ else _) = _
  rw [if_neg (not_not.mpr rfl)]

theorem mem_list (repr : Represents ds disk m) (id : GoString) :
    id ∈ DiskStore.list disk ↔ (m.lookup id).isSome := by
  rw [DiskStore.list, Finmap.mem_keys, ← Finmap.lookup_isSome, repr.indexed, Option.isSome_map]

theorem list_eq (repr : Represents ds disk m) : DiskStore.list disk = m.entries.keys := by
  ext id
  rw [repr.mem_list, Finmap.mem_keys, ← Finmap.lookup_isSome]
  rfl

theorem storedTotal_eq (repr : Represents ds disk m) :
    storedTotal ds disk = m.size := by
  unfold storedTotal
  rw [repr.list_eq]
  apply Finset.sum_congr rfl
  intro id _
  rw [repr.read id, BoundedMap.lookup, weightAt]
  cases m.entries.lookup id with
  | none => rfl
  | some content => rfl

theorem noWrap (repr : Represents ds disk m) (op : Op ds) : NoWrap (op.subtractions disk) := by
  cases op with
  | write chunkId value =>
    simp only [Op.subtractions]
    split
    · intro pair member
      cases member
    · rename_i path
      exact storeSubtractions_noWrap repr.within (repr.part path)
  | rename source temporary chunkId content =>
    simp only [Op.subtractions]
    split
    · rename_i path _
      exact storeSubtractions_noWrap repr.within (repr.part path)
    · intro pair member
      cases member
  | delete chunkId =>
    simp only [Op.subtractions]
    split
    · intro pair member
      cases member
    · split
      · rename_i covered
        intro pair member
        rw [List.mem_singleton] at member
        subst member
        exact covered
      · intro pair member
        cases member

theorem behaves (repr : Represents ds disk m) : Behaves ds disk m where
  valid _ _ found := repr.valid found
  read := repr.read
  list := repr.mem_list
  verify _ _ found := repr.verify found
  size := by
    rw [repr.list_eq]
    exact repr.used
  bounded := repr.within
  freeSpace := by
    have within := repr.within
    have free := UInt64.toNat_sub_of_le _ _ within
    rw [UInt64.le_iff_toNat_le] at within
    have covered : ¬disk.usedSpace > ds.totalSpace := by
      rw [gt_iff_lt, UInt64.lt_iff_toNat_lt]
      omega
    rw [DiskStore.freeSpace, if_neg covered]
    exact free
  refused op id content writes valid := by
    obtain ⟨after, stepped, _, _⟩ := repr.call op
    have meaning : op.meaning m = storeMeaning id content m := by
      cases op with
      | write chunkId value =>
        cases writes
        rfl
      | rename source temporary chunkId content =>
        cases writes
        rfl
      | delete chunkId => cases writes
    rw [stepped, meaning]
    by_cases fits : total List.length (m.entries.insert id content) ≤ ds.totalSpace.toNat
    · simp only [storeMeaning, valid, BoundedMap.put_of_fits fits, reduceCtorEq, false_iff]
      omega
    · have full : m.put id content = none := BoundedMap.put_eq_none.mpr (by omega)
      simp only [storeMeaning, valid, full, true_iff]
      omega
  unchanged op failed := by
    obtain ⟨after, stepped, _, unchanged⟩ := repr.call op
    rw [stepped] at failed ⊢
    exact unchanged failed
  noWrap op := (repr.prepare op).noWrap op

end Represents

/-- For every sequence of calls on a new store, each call answers as the map does and leaves
    a store that behaves as the map then is. -/
theorem diskStore_refines_boundedMap (ds : DiskStore) (files : FileSystem Path) (ops : List (Op ds)) :
    (runOps Op.step ops (newDiskStore files ∅)).2 = (runOps Op.meaning ops BoundedMap.empty).2 ∧
      Behaves ds (runOps Op.step ops (newDiskStore files ∅)).1 (runOps Op.meaning ops BoundedMap.empty).1 := by
  obtain ⟨answers, repr⟩ := (Represents.fresh ds files).runOps ops
  exact ⟨answers, repr.behaves⟩

end DistributedFs.Storage
