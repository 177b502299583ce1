import DistributedFs.Fsm.Run

namespace DistributedFs.Fsm

open Go MetadataFSM

theorem mem_chunkStubs (req : CommandCreateFile) (record : ChunkRecord (List String)) :
    record ∈ chunkStubs req ↔
      req.chunkIDs[record.chunkIndex]? = some record.chunkID ∧
        record = chunkStub req.fileID record.chunkID record.chunkIndex := by
  simp only [chunkStubs, List.mem_map, Prod.exists, List.mem_zipIdx_iff_getElem?]
  constructor
  · intro held
    obtain ⟨cid, index, position, rfl⟩ := held
    exact ⟨position, rfl⟩
  · intro held
    obtain ⟨position, shape⟩ := held
    exact ⟨record.chunkID, record.chunkIndex, position, shape.symm⟩

/-- A later stub overwrites an earlier one of the same id, so what is found under an
    inserted id is one of the inserted records. -/
theorem lookup_insertChunks {ρ : Type} (registry : GoMap (ChunkRecord ρ))
    (records : List (ChunkRecord ρ)) (cid : String) :
    (∃ record ∈ records, record.chunkID = cid ∧
        (insertChunks registry records).lookup cid = some record) ∨
      (cid ∉ records.map ChunkRecord.chunkID ∧
        (insertChunks registry records).lookup cid = registry.lookup cid) := by
  induction records generalizing registry with
  | nil => exact .inr ⟨by simp, rfl⟩
  | cons record rest ih =>
    rcases ih (registry.insert record.chunkID record) with
      ⟨later, member, same, found⟩ | ⟨absent, found⟩
    · exact .inl ⟨later, List.mem_cons_of_mem _ member, same, found⟩
    · change (insertChunks _ rest).lookup cid = _ at found
      rw [GoMap.lookup_insert] at found
      by_cases same : cid = record.chunkID
      · rw [if_pos same] at found
        exact .inl ⟨record, by simp, same.symm, found⟩
      · rw [if_neg same] at found
        exact .inr ⟨by simp [same, absent], found⟩

theorem lookup_created (m : FSM) (req : CommandCreateFile) (cid : String) :
    (∃ index, req.chunkIDs[index]? = some cid ∧
        (insertChunks m.chunkRegistry (chunkStubs req)).lookup cid =
          some (chunkStub req.fileID cid index)) ∨
      (cid ∉ req.chunkIDs ∧
        (insertChunks m.chunkRegistry (chunkStubs req)).lookup cid = m.chunkRegistry.lookup cid) := by
  rcases lookup_insertChunks m.chunkRegistry (chunkStubs req) cid with
    ⟨record, member, rfl, found⟩ | ⟨absent, found⟩
  · obtain ⟨position, shape⟩ := (mem_chunkStubs req record).mp member
    exact .inl ⟨record.chunkIndex, position, found.trans (congrArg some shape)⟩
  · rw [chunkStubs_ids] at absent
    exact .inr ⟨absent, found⟩

structure ReferentialIntegrity (m : FSM) : Prop where
  fileKey : ∀ id file, m.fileIndex.lookup id = some file → file.fileID = id
  chunkKey : ∀ cid chunk, m.chunkRegistry.lookup cid = some chunk → chunk.chunkID = cid
  chunkOfFile : ∀ id file, m.fileIndex.lookup id = some file → ∀ cid ∈ file.chunkIDs,
    ∃ chunk, m.chunkRegistry.lookup cid = some chunk ∧ chunk.fileID = file.fileID
  fileOfChunk : ∀ cid chunk, m.chunkRegistry.lookup cid = some chunk →
    ∃ file, m.fileIndex.lookup chunk.fileID = some file ∧
      file.chunkIDs[chunk.chunkIndex]? = some chunk.chunkID

theorem ReferentialIntegrity.no_shared_chunk {m : FSM} (intact : ReferentialIntegrity m)
    {id id' : String} {file file' : FileRecord} {cid : String}
    (found : m.fileIndex.lookup id = some file) (found' : m.fileIndex.lookup id' = some file')
    (member : cid ∈ file.chunkIDs) (member' : cid ∈ file'.chunkIDs) : id = id' := by
  obtain ⟨chunk, stored, owner⟩ := intact.chunkOfFile id file found cid member
  obtain ⟨chunk', stored', owner'⟩ := intact.chunkOfFile id' file' found' cid member'
  have same : chunk = chunk' := Option.some.inj (stored.symm.trans stored')
  rw [← intact.fileKey id file found, ← intact.fileKey id' file' found', ← owner, ← owner', same]

structure FileRecord.SameFile (file later : FileRecord) : Prop where
  fileID : later.fileID = file.fileID
  filename : later.filename = file.filename
  fileSize : later.fileSize = file.fileSize
  chunkSize : later.chunkSize = file.chunkSize
  chunkIDs : later.chunkIDs = file.chunkIDs
  createdAt : later.createdAt = file.createdAt

structure ChunkRecord.SameChunk (chunk later : ChunkRecord (List String)) : Prop where
  chunkID : later.chunkID = chunk.chunkID
  fileID : later.fileID = chunk.fileID
  chunkIndex : later.chunkIndex = chunk.chunkIndex
  size : later.size = chunk.size

theorem FileRecord.SameFile.trans {first second third : FileRecord}
    (early : first.SameFile second) (late : second.SameFile third) : first.SameFile third :=
  ⟨late.fileID.trans early.fileID, late.filename.trans early.filename,
    late.fileSize.trans early.fileSize, late.chunkSize.trans early.chunkSize,
    late.chunkIDs.trans early.chunkIDs, late.createdAt.trans early.createdAt⟩

theorem ChunkRecord.SameChunk.trans {first second third : ChunkRecord (List String)}
    (early : first.SameChunk second) (late : second.SameChunk third) : first.SameChunk third :=
  ⟨late.chunkID.trans early.chunkID, late.fileID.trans early.fileID,
    late.chunkIndex.trans early.chunkIndex, late.size.trans early.size⟩

structure Keeps (m after : FSM) : Prop where
  files : ∀ id file, m.fileIndex.lookup id = some file →
    ∃ later, after.fileIndex.lookup id = some later ∧ file.SameFile later
  chunks : ∀ cid chunk, m.chunkRegistry.lookup cid = some chunk →
    ∃ later, after.chunkRegistry.lookup cid = some later ∧ chunk.SameChunk later

theorem Keeps.refl (m : FSM) : Keeps m m where
  files _ file found := ⟨file, found, rfl, rfl, rfl, rfl, rfl, rfl⟩
  chunks _ chunk found := ⟨chunk, found, rfl, rfl, rfl, rfl⟩

theorem Keeps.trans {first second third : FSM} (early : Keeps first second)
    (late : Keeps second third) : Keeps first third where
  files id file found := by
    obtain ⟨middle, found, same⟩ := early.files id file found
    obtain ⟨last, found, same'⟩ := late.files id middle found
    exact ⟨last, found, same.trans same'⟩
  chunks cid chunk found := by
    obtain ⟨middle, found, same⟩ := early.chunks cid chunk found
    obtain ⟨last, found, same'⟩ := late.chunks cid middle found
    exact ⟨last, found, same.trans same'⟩

theorem found_setFile {m : FSM} {id other : String} {later file : FileRecord}
    (found : (m.setFile id later).fileIndex.lookup other = some file) :
    (other = id ∧ file = later) ∨ (other ≠ id ∧ m.fileIndex.lookup other = some file) := by
  simp only [setFile, GoMap.lookup_insert] at found
  split at found
  · rename_i here
    exact .inl ⟨here, (Option.some.inj found).symm⟩
  · rename_i elsewhere
    exact .inr ⟨elsewhere, found⟩

theorem lookup_setFile {m : FSM} {id : String} {file later : FileRecord}
    (found : m.fileIndex.lookup id = some file) (same : file.SameFile later) (other : String)
    (record : FileRecord) (stored : (m.setFile id later).fileIndex.lookup other = some record) :
    ∃ earlier, m.fileIndex.lookup other = some earlier ∧ earlier.SameFile record := by
  rcases found_setFile stored with ⟨here, now⟩ | ⟨_, kept⟩
  · subst here now
    exact ⟨file, found, same⟩
  · exact ⟨record, kept, rfl, rfl, rfl, rfl, rfl, rfl⟩

theorem lookup_setChunk {m : FSM} {cid : String} {chunk later : ChunkRecord (List String)}
    (found : m.chunkRegistry.lookup cid = some chunk) (same : chunk.SameChunk later)
    (other : String) (record : ChunkRecord (List String))
    (stored : (m.setChunk cid later).chunkRegistry.lookup other = some record) :
    ∃ earlier, m.chunkRegistry.lookup other = some earlier ∧ earlier.SameChunk record := by
  simp only [setChunk, GoMap.lookup_insert] at stored
  split at stored
  · rename_i here
    subst here
    cases stored
    exact ⟨chunk, found, same⟩
  · exact ⟨record, stored, rfl, rfl, rfl, rfl⟩

theorem Keeps.setFile {m : FSM} {id : String} {file later : FileRecord}
    (found : m.fileIndex.lookup id = some file) (same : file.SameFile later) :
    Keeps m (m.setFile id later) where
  files other record stored := by
    simp only [MetadataFSM.setFile, GoMap.lookup_insert]
    by_cases here : other = id
    · subst here
      rw [found] at stored
      cases stored
      exact ⟨later, by simp, same⟩
    · exact ⟨record, by simpa [here] using stored, rfl, rfl, rfl, rfl, rfl, rfl⟩
  chunks _ record stored := ⟨record, stored, rfl, rfl, rfl, rfl⟩

theorem Keeps.setChunk {m : FSM} {cid : String} {chunk later : ChunkRecord (List String)}
    (found : m.chunkRegistry.lookup cid = some chunk) (same : chunk.SameChunk later) :
    Keeps m (m.setChunk cid later) where
  files _ record stored := ⟨record, stored, rfl, rfl, rfl, rfl, rfl, rfl⟩
  chunks other record stored := by
    simp only [MetadataFSM.setChunk, GoMap.lookup_insert]
    by_cases here : other = cid
    · subst here
      rw [found] at stored
      cases stored
      exact ⟨later, by simp, same⟩
    · exact ⟨record, by simpa [here] using stored, rfl, rfl, rfl, rfl⟩

theorem Keeps.createFile {m : FSM} (req : CommandCreateFile)
    (newID : m.fileIndex.lookup req.fileID = none)
    (fresh : ∀ cid ∈ req.chunkIDs, cid ∉ m.chunkRegistry) :
    Keeps m { m with
      chunkRegistry := insertChunks m.chunkRegistry (chunkStubs req)
      fileIndex := m.fileIndex.insert req.fileID (newFile req) } where
  files id file found := by
    have other : id ≠ req.fileID := by
      intro same
      subst same
      rw [newID] at found
      cases found
    exact ⟨file, by simpa [GoMap.lookup_insert, other] using found, rfl, rfl, rfl, rfl, rfl, rfl⟩
  chunks cid chunk found := by
    rcases lookup_created m req cid with ⟨index, position, _⟩ | ⟨_, same⟩
    · exact absurd (Finmap.mem_of_lookup_eq_some found) (fresh cid (List.mem_of_getElem? position))
    · exact ⟨chunk, same.trans found, rfl, rfl, rfl, rfl⟩

theorem step_keeps {m after : FSM} {orders : Nat → MapOrder} {cmd : Command}
    {result : Option GoError} (step : Step m orders cmd after result) : Keeps m after := by
  cases step with
  | failed | alreadyListed => exact Keeps.refl m
  | nodes | jobs | mdNodes => exact ⟨(Keeps.refl m).files, (Keeps.refl m).chunks⟩
  | createFile req newID fresh => exact Keeps.createFile req newID fresh
  | commitFile req file found => exact Keeps.setFile found ⟨rfl, rfl, rfl, rfl, rfl, rfl⟩
  | deleteFile req file found => exact Keeps.setFile found ⟨rfl, rfl, rfl, rfl, rfl, rfl⟩
  | commitChunk req chunk found => exact Keeps.setChunk found ⟨rfl, rfl, rfl, rfl⟩
  | evict req chunk idx found => exact Keeps.setChunk found ⟨rfl, rfl, rfl, rfl⟩
  | markLost req chunk found => exact Keeps.setChunk found ⟨rfl, rfl, rfl, rfl⟩
  | addReplica req chunk found => exact Keeps.setChunk found ⟨rfl, rfl, rfl, rfl⟩

theorem run_keeps (oracle : Nat → Nat → MapOrder) (m : FSM) (log : List Command) :
    Keeps m (runLog oracle m log).1 := by
  induction log generalizing oracle m with
  | nil => exact Keeps.refl m
  | cons cmd rest ih => exact (step_keeps (handle_step m (oracle 0) cmd)).trans (ih _ _)

theorem ReferentialIntegrity.rewrite {m after : FSM} (intact : ReferentialIntegrity m)
    (kept : Keeps m after)
    (files : ∀ id later, after.fileIndex.lookup id = some later →
      ∃ file, m.fileIndex.lookup id = some file ∧ file.SameFile later)
    (chunks : ∀ cid later, after.chunkRegistry.lookup cid = some later →
      ∃ chunk, m.chunkRegistry.lookup cid = some chunk ∧ chunk.SameChunk later) :
    ReferentialIntegrity after where
  fileKey id later found := by
    obtain ⟨file, stored, same⟩ := files id later found
    rw [same.fileID, intact.fileKey id file stored]
  chunkKey cid later found := by
    obtain ⟨chunk, stored, same⟩ := chunks cid later found
    rw [same.chunkID, intact.chunkKey cid chunk stored]
  chunkOfFile id later found cid member := by
    obtain ⟨file, stored, same⟩ := files id later found
    rw [same.chunkIDs] at member
    obtain ⟨chunk, present, owner⟩ := intact.chunkOfFile id file stored cid member
    obtain ⟨last, present, same'⟩ := kept.chunks cid chunk present
    exact ⟨last, present, by rw [same'.fileID, owner, same.fileID]⟩
  fileOfChunk cid later found := by
    obtain ⟨chunk, stored, same⟩ := chunks cid later found
    obtain ⟨file, present, position⟩ := intact.fileOfChunk cid chunk stored
    obtain ⟨last, present, same'⟩ := kept.files _ file present
    exact ⟨last, by rw [same.fileID]; exact present,
      by rw [same'.chunkIDs, same.chunkIndex, same.chunkID]; exact position⟩

theorem ReferentialIntegrity.createFile {m : FSM} (intact : ReferentialIntegrity m)
    (req : CommandCreateFile) (newID : m.fileIndex.lookup req.fileID = none)
    (fresh : ∀ cid ∈ req.chunkIDs, cid ∉ m.chunkRegistry) :
    ReferentialIntegrity { m with
      chunkRegistry := insertChunks m.chunkRegistry (chunkStubs req)
      fileIndex := m.fileIndex.insert req.fileID (newFile req) } where
  fileKey id file found := by
    simp only [GoMap.lookup_insert] at found
    split at found
    · rename_i here
      subst here
      cases found
      rfl
    · exact intact.fileKey id file found
  chunkKey cid chunk found := by
    rcases lookup_created m req cid with ⟨index, _, stored⟩ | ⟨_, same⟩
    · cases stored.symm.trans found
      rfl
    · exact intact.chunkKey cid chunk (same.symm.trans found)
  chunkOfFile id file found cid member := by
    simp only [GoMap.lookup_insert] at found
    split at found
    · cases found
      rcases lookup_created m req cid with ⟨index, _, stored⟩ | ⟨absent, _⟩
      · exact ⟨_, stored, rfl⟩
      · exact absurd member absent
    · obtain ⟨chunk, stored, owner⟩ := intact.chunkOfFile id file found cid member
      obtain ⟨later, stored, same⟩ := (Keeps.createFile req newID fresh).chunks cid chunk stored
      exact ⟨later, stored, same.fileID.trans owner⟩
  fileOfChunk cid chunk found := by
    rcases lookup_created m req cid with ⟨index, position, stored⟩ | ⟨_, same⟩
    · cases stored.symm.trans found
      exact ⟨newFile req, by simp [chunkStub], position⟩
    · obtain ⟨file, present, position⟩ := intact.fileOfChunk cid chunk (same.symm.trans found)
      obtain ⟨later, present, identity⟩ :=
        (Keeps.createFile req newID fresh).files chunk.fileID file present
      exact ⟨later, present, by rw [identity.chunkIDs]; exact position⟩

theorem step_integrity {m after : FSM} {orders : Nat → MapOrder} {cmd : Command}
    {result : Option GoError} (intact : ReferentialIntegrity m)
    (step : Step m orders cmd after result) : ReferentialIntegrity after := by
  have kept := step_keeps step
  have sameFiles (id : String) (file : FileRecord) (found : m.fileIndex.lookup id = some file) :
      ∃ earlier, m.fileIndex.lookup id = some earlier ∧ earlier.SameFile file :=
    ⟨file, found, rfl, rfl, rfl, rfl, rfl, rfl⟩
  have sameChunks (cid : String) (chunk : ChunkRecord (List String))
      (found : m.chunkRegistry.lookup cid = some chunk) :
      ∃ earlier, m.chunkRegistry.lookup cid = some earlier ∧ earlier.SameChunk chunk :=
    ⟨chunk, found, rfl, rfl, rfl, rfl⟩
  cases step with
  | failed | alreadyListed => exact intact
  | nodes | jobs | mdNodes => exact intact.rewrite kept sameFiles sameChunks
  | createFile req newID fresh => exact intact.createFile req newID fresh
  | commitFile req file found =>
    exact intact.rewrite kept (lookup_setFile found ⟨rfl, rfl, rfl, rfl, rfl, rfl⟩) sameChunks
  | deleteFile req file found =>
    exact intact.rewrite kept (lookup_setFile found ⟨rfl, rfl, rfl, rfl, rfl, rfl⟩) sameChunks
  | commitChunk req chunk found | evict req chunk idx found | markLost req chunk found
  | addReplica req chunk found =>
    exact intact.rewrite kept sameFiles (lookup_setChunk found ⟨rfl, rfl, rfl, rfl⟩)

theorem reached_integrity {history : History} {m : FSM} (reached : Reached history m) :
    ReferentialIntegrity m := by
  refine reached.files_and_chunks (P := fun _ m => ReferentialIntegrity m) ?_ ?_ ?_
  · constructor <;> intro _ _ found <;> cases found
  · exact fun _ m registry intact =>
      ⟨intact.fileKey, intact.chunkKey, intact.chunkOfFile, intact.fileOfChunk⟩
  · exact fun _ _ _ _ _ _ intact step => step_integrity intact step

/-- Referential integrity of every reached state, its consequence that no chunk has two
    files, and the permanence of files and chunks under any further commands. -/
theorem referential_integrity {history : History} {m : FSM} (reached : Reached history m) :
    (∀ id file, m.fileIndex.lookup id = some file → ∀ cid ∈ file.chunkIDs,
      ∃ chunk, m.chunkRegistry.lookup cid = some chunk ∧ chunk.fileID = file.fileID ∧
        file.fileID = id) ∧
    (∀ cid chunk, m.chunkRegistry.lookup cid = some chunk →
      ∃ file, m.fileIndex.lookup chunk.fileID = some file ∧
        file.chunkIDs[chunk.chunkIndex]? = some chunk.chunkID ∧ chunk.chunkID = cid) ∧
    (∀ id id' file file' cid, m.fileIndex.lookup id = some file →
      m.fileIndex.lookup id' = some file' → cid ∈ file.chunkIDs → cid ∈ file'.chunkIDs →
      id = id') ∧
    ∀ oracle log, Keeps m (runLog oracle m log).1 := by
  have intact := reached_integrity reached
  refine ⟨?_, ?_, ?_, ?_⟩
  · intro id file found cid member
    obtain ⟨chunk, stored, owner⟩ := intact.chunkOfFile id file found cid member
    exact ⟨chunk, stored, owner, intact.fileKey id file found⟩
  · intro cid chunk found
    obtain ⟨file, present, position⟩ := intact.fileOfChunk cid chunk found
    exact ⟨file, present, position, intact.chunkKey cid chunk found⟩
  · intro id id' file file' cid found found' member member'
    exact intact.no_shared_chunk found found' member member'
  · intro oracle log
    exact run_keeps oracle m log

def photosUpload : CommandCreateFile :=
  { fileID := "file-1", fileName := "photos.tar", chunkIDs := ["ck-1", "ck-2"],
    fileSize := 100000, chunkSize := 65536, createdAt := 1 }

def photosCreated : FSM :=
  (handle newEmptyMetadataFsm (fun _ => default) (.createFile photosUpload)).1

theorem photosCreated_reached : Reached [(.createFile photosUpload, none)] photosCreated :=
  Reached.command (fun _ => default) (.createFile photosUpload) .empty

theorem referential_integrity_photos :
    (∃ chunk, photosCreated.chunkRegistry.lookup "ck-2" = some chunk ∧ chunk.fileID = "file-1" ∧
      (newFile photosUpload).fileID = "file-1") ∧
    Keeps photosCreated
      (runLog (fun _ _ => default) photosCreated [.deleteFile ⟨"file-1"⟩]).1 :=
  have integrity := referential_integrity photosCreated_reached
  ⟨integrity.1 "file-1" (newFile photosUpload) rfl "ck-2" (by decide),
    integrity.2.2.2 (fun _ _ => default) [.deleteFile ⟨"file-1"⟩]⟩

end DistributedFs.Fsm
