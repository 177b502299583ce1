import DistributedFs.Data.BoundedMap
import DistributedFs.Storage.Operations

namespace DistributedFs.Storage

open Go WeightedMap DiskStore

/-- What a store is for: a map from chunk ids to bytes within the space of the store. -/
abbrev Contents (ds : DiskStore) := BoundedMap GoString (List UInt8) List.length ds.totalSpace.toNat

/-- The index lists the chunks of the map with their hashes, the files hold their bytes, and
    the counter is their total length. -/
structure Represents (ds : DiskStore) (disk : Disk) (m : Contents ds) : Prop where
  indexed : ∀ id, disk.checksums.lookup id = (m.lookup id).map Sha256.sum256
  stored : ∀ id content, m.lookup id = some content →
    ∃ p, ds.pathForChunk id = .ok p ∧ disk.files.read p = some content
  used : disk.usedSpace.toNat = m.size

def storedTotal (ds : DiskStore) (disk : Disk) : Nat :=
  ∑ id ∈ DiskStore.list disk, ((ds.read none id disk).toOption.getD []).length

/-- The bytes of a Go slice or of a file, whose length is an `int`. -/
abbrev Value := { data : List UInt8 // data.length < 2 ^ 63 }

def storeSubtractions (ds : DiskStore) (disk : Disk) (newSize existingSize : UInt64) :
    List (UInt64 × UInt64) :=
  (if newSize > existingSize then [(newSize, existingSize)] else []) ++ (ds.totalSpace, disk.usedSpace) ::
    match ds.checkSpace disk newSize existingSize with
    | .error _ => []
    | .ok _ =>
      if newSize ≥ existingSize then [(newSize, existingSize)]
      else [(existingSize, newSize), (disk.usedSpace, existingSize - newSize)]

def NoWrap (subtractions : List (UInt64 × UInt64)) : Prop := ∀ pair ∈ subtractions, pair.2 ≤ pair.1

theorem checkSpace_iff {ds : DiskStore} {disk : Disk} {newSize existingSize : UInt64}
    (within : disk.usedSpace ≤ ds.totalSpace) :
    ds.checkSpace disk newSize existingSize = .ok () ↔
      disk.usedSpace.toNat + newSize.toNat ≤ ds.totalSpace.toNat + existingSize.toNat := by
  have free := UInt64.toNat_sub_of_le _ _ within
  rw [UInt64.le_iff_toNat_le] at within
  simp only [checkSpace, gt_iff_lt]
  by_cases grows : existingSize < newSize
  · have delta := UInt64.toNat_sub_of_le newSize existingSize (UInt64.le_of_lt grows)
    rw [UInt64.lt_iff_toNat_lt] at grows
    rw [if_pos (UInt64.lt_iff_toNat_lt.mpr grows)]
    by_cases short : ds.totalSpace - disk.usedSpace < newSize - existingSize
    · rw [if_pos short]
      rw [UInt64.lt_iff_toNat_lt] at short
      simp only [reduceCtorEq, false_iff]
      omega
    · rw [if_neg short]
      rw [UInt64.lt_iff_toNat_lt] at short
      simp only [true_iff]
      omega
  · rw [if_neg grows, if_neg (UInt64.not_lt_zero)]
    rw [UInt64.lt_iff_toNat_lt] at grows
    simp only [true_iff]
    omega

theorem adjustUsedSpace_toNat {usedSpace newSize existingSize capacity : UInt64}
    (part : existingSize ≤ usedSpace)
    (fits : usedSpace.toNat + newSize.toNat ≤ capacity.toNat + existingSize.toNat) :
    (adjustUsedSpace usedSpace newSize existingSize).toNat + existingSize.toNat =
      usedSpace.toNat + newSize.toNat := by
  have bound := capacity.toNat_lt
  rw [UInt64.le_iff_toNat_le] at part
  unfold adjustUsedSpace
  by_cases grows : newSize ≥ existingSize
  · have delta := UInt64.toNat_sub_of_le newSize existingSize grows
    rw [ge_iff_le, UInt64.le_iff_toNat_le] at grows
    rw [if_pos (UInt64.le_iff_toNat_le.mpr grows), UInt64.toNat_add, delta]
    omega
  · rw [if_neg grows]
    rw [ge_iff_le, UInt64.le_iff_toNat_le] at grows
    have delta := UInt64.toNat_sub_of_le existingSize newSize (UInt64.le_iff_toNat_le.mpr (by omega))
    have shrunk := UInt64.toNat_sub_of_le usedSpace (existingSize - newSize)
      (UInt64.le_iff_toNat_le.mpr (by omega))
    omega

theorem storeSubtractions_noWrap {ds : DiskStore} {disk : Disk} {newSize existingSize : UInt64}
    (within : disk.usedSpace ≤ ds.totalSpace) (part : existingSize ≤ disk.usedSpace) :
    NoWrap (storeSubtractions ds disk newSize existingSize) := by
  intro pair member
  rcases List.mem_append.mp member with early | late
  · by_cases grows : newSize > existingSize
    · rw [if_pos grows, List.mem_singleton] at early
      subst early
      exact UInt64.le_of_lt grows
    · rw [if_neg grows] at early
      cases early
  · rcases List.mem_cons.mp late with free | update
    · subst free
      exact within
    · split at update
      · cases update
      · by_cases grows : newSize ≥ existingSize
        · rw [if_pos grows, List.mem_singleton] at update
          subst update
          exact grows
        · rw [if_neg grows] at update
          have shrinks : newSize ≤ existingSize := by
            rw [ge_iff_le, UInt64.le_iff_toNat_le] at grows
            rw [UInt64.le_iff_toNat_le]
            omega
          rcases List.mem_cons.mp update with delta | used
          · subst delta
            exact shrinks
          · rw [List.mem_singleton] at used
            subst used
            have delta := UInt64.toNat_sub_of_le existingSize newSize shrinks
            rw [UInt64.le_iff_toNat_le] at part
            rw [UInt64.le_iff_toNat_le]
            show (existingSize - newSize).toNat ≤ disk.usedSpace.toNat
            omega

namespace Represents

variable {ds : DiskStore} {disk : Disk} {m : Contents ds}

theorem within (repr : Represents ds disk m) : disk.usedSpace ≤ ds.totalSpace := by
  have bounded : m.size ≤ ds.totalSpace.toNat := m.bounded
  rw [UInt64.le_iff_toNat_le, repr.used]
  exact bounded

theorem indexed_eq (repr : Represents ds disk m) (id : GoString) :
    disk.indexed id = (m.lookup id).isSome := by
  rw [Disk.indexed, repr.indexed, Option.isSome_map]

theorem indexed_of_lookup (repr : Represents ds disk m) {id : GoString} {content : List UInt8}
    (found : m.lookup id = some content) : disk.indexed id = true := by
  rw [repr.indexed_eq, found]
  rfl

theorem length_lt (m : Contents ds) {id : GoString} {content : List UInt8}
    (found : m.lookup id = some content) : content.length < 2 ^ 64 := by
  have bounded : total List.length m.entries ≤ ds.totalSpace.toNat := m.bounded
  have part := weightAt_le_total List.length m.entries id
  rw [weightAt_of_lookup found] at part
  have bound := ds.totalSpace.toNat_lt
  omega

theorem existingSize_toNat (repr : Represents ds disk m) {id : GoString} {p : Path}
    (path : ds.pathForChunk id = .ok p) :
    (existingSize none p id disk).toNat = weightAt List.length m.entries id := by
  unfold existingSize
  rw [repr.indexed_eq]
  cases found : m.lookup id with
  | none =>
    rw [weightAt_of_absent found]
    simp
  | some content =>
    obtain ⟨q, same, present⟩ := repr.stored id content found
    cases path.symm.trans same
    have measured : disk.stat p = .ok (UInt64.ofNat content.length) := by
      simp only [Disk.stat, present]
    rw [weightAt_of_lookup found, measured]
    simpa [Except.toOption] using UInt64.toNat_ofNat_of_lt' (length_lt m found)

theorem part (repr : Represents ds disk m) {id : GoString} {p : Path}
    (path : ds.pathForChunk id = .ok p) : existingSize none p id disk ≤ disk.usedSpace := by
  rw [UInt64.le_iff_toNat_le, repr.existingSize_toNat path, repr.used]
  exact weightAt_le_total List.length m.entries id

theorem checkSpace_iff_put (repr : Represents ds disk m) {id : GoString} {p : Path}
    (path : ds.pathForChunk id = .ok p) {content : List UInt8} (short : content.length < 2 ^ 64) :
    ds.checkSpace disk (UInt64.ofNat content.length) (existingSize none p id disk) = .ok () ↔
      total List.length (m.entries.insert id content) ≤ ds.totalSpace.toNat := by
  have sum := total_insert_add List.length m.entries id content
  have used : disk.usedSpace.toNat = total List.length m.entries := repr.used
  rw [checkSpace_iff repr.within, repr.existingSize_toNat path, used,
    UInt64.toNat_ofNat_of_lt' short]
  omega

theorem install (repr : Represents ds disk m) {id : GoString} {p : Path}
    (path : ds.pathForChunk id = .ok p) {content : List UInt8} (short : content.length < 2 ^ 64)
    {files : FileSystem Path} (placed : files.read p = some content)
    (kept : ∀ other q, other ≠ id → ds.pathForChunk other = .ok q → files.read q = disk.files.read q) :
    (m.put id content = none ∧ ds.install none p id content files disk = (disk, some errInsufficientSpace)) ∨
      ∃ later after, m.put id content = some later ∧
        ds.install none p id content files disk = (after, none) ∧ after.files = files ∧
        Represents ds after later := by
  have passes := repr.checkSpace_iff_put path short
  by_cases fits : total List.length (m.entries.insert id content) ≤ ds.totalSpace.toNat
  · refine .inr ⟨⟨m.entries.insert id content, fits⟩,
      ⟨files, disk.checksums.insert id (Sha256.sum256 content), adjustUsedSpace disk.usedSpace
        (UInt64.ofNat content.length) (existingSize none p id disk)⟩,
      BoundedMap.put_of_fits fits, ?_, rfl, ?_⟩
    · simp only [DiskStore.install, passes.mpr fits, record]
    · refine ⟨?_, ?_, ?_⟩
      · intro other
        by_cases same : other = id
        · subst same
          simp [BoundedMap.lookup, Finmap.lookup_insert]
        · simp only [BoundedMap.lookup, Finmap.lookup_insert_of_ne _ same]
          exact repr.indexed other
      · intro other bytes found
        by_cases same : other = id
        · subst same
          simp only [BoundedMap.lookup, Finmap.lookup_insert, Option.some.injEq] at found
          subst found
          exact ⟨p, path, placed⟩
        · simp only [BoundedMap.lookup, Finmap.lookup_insert_of_ne _ same] at found
          obtain ⟨q, elsewhere, present⟩ := repr.stored other bytes found
          exact ⟨q, elsewhere, (kept other q same elsewhere).trans present⟩
      · have sum := total_insert_add List.length m.entries id content
        have room := (checkSpace_iff repr.within).mp (passes.mpr fits)
        have adjusted := adjustUsedSpace_toNat (repr.part path) room
        have used : disk.usedSpace.toNat = total List.length m.entries := repr.used
        rw [repr.existingSize_toNat path, used, UInt64.toNat_ofNat_of_lt' short] at adjusted
        show (adjustUsedSpace _ _ _).toNat = total List.length (m.entries.insert id content)
        omega
  · refine .inl ⟨BoundedMap.put_eq_none.mpr (by omega), ?_⟩
    · rcases ds.checkSpace_cases disk (UInt64.ofNat content.length) (existingSize none p id disk) with
        passed | refused
      · exact absurd (passes.mp passed) fits
      · simp only [DiskStore.install, refused]

theorem erase (repr : Represents ds disk m) {id : GoString} {content : List UInt8}
    (found : m.lookup id = some content) :
    ∃ after, ds.delete (DeleteCall.onDelete none) id disk = (after, none) ∧
      Represents ds after (m.erase id) := by
  obtain ⟨p, path, present⟩ := repr.stored id content found
  have listed := repr.indexed_of_lookup found
  have split := total_erase_add List.length m.entries id
  rw [weightAt_of_lookup found] at split
  have used : disk.usedSpace.toNat = total List.length m.entries := repr.used
  have length := UInt64.toNat_ofNat_of_lt' (length_lt m found)
  have covered : disk.usedSpace ≥ UInt64.ofNat content.length := by
    rw [ge_iff_le, UInt64.le_iff_toNat_le, length]
    omega
  refine ⟨⟨disk.files.remove p, disk.checksums.erase id, disk.usedSpace - UInt64.ofNat content.length⟩,
    ?_, ?_, ?_, ?_⟩
  · rw [delete_stored path listed present, if_pos rfl, if_pos covered]
  · intro other
    by_cases same : other = id
    · subst same
      simp [BoundedMap.lookup, BoundedMap.erase, Finmap.lookup_erase]
    · simp only [BoundedMap.lookup, BoundedMap.erase, Finmap.lookup_erase_ne same]
      exact repr.indexed other
  · intro other bytes kept
    by_cases same : other = id
    · subst same
      simp [BoundedMap.lookup, BoundedMap.erase, Finmap.lookup_erase] at kept
    · simp only [BoundedMap.lookup, BoundedMap.erase, Finmap.lookup_erase_ne same] at kept
      obtain ⟨q, elsewhere, there⟩ := repr.stored other bytes kept
      refine ⟨q, elsewhere, ?_⟩
      rw [FileSystem.read_remove, if_neg (pathForChunk_ne path elsewhere same)]
      exact there
  · rw [UInt64.toNat_sub_of_le _ _ covered, length]
    show _ = total List.length (m.entries.erase id)
    omega

end Represents

end DistributedFs.Storage
