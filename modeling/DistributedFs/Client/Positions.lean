import DistributedFs.Client.Download
import DistributedFs.Fsm.Integrity

namespace DistributedFs.Client

open Go Fsm MetadataFSM

theorem reached_created {history : History} {m : FSM} (reached : Reached history m) {req : CommandCreateFile}
    (created : (Command.createFile req, none) ∈ history) :
    ∃ file, m.fileIndex.lookup req.fileID = some file ∧ (newFile req).SameFile file := by
  induction reached with
  | empty => exact absurd created List.not_mem_nil
  | command orders cmd before ih =>
    rename_i m
    rcases List.mem_append.mp created with earlier | last
    · obtain ⟨file, found, same⟩ := ih earlier
      obtain ⟨later, stored, kept⟩ := (step_keeps (handle_step m orders cmd)).files _ file found
      exact ⟨later, stored, same.trans kept⟩
    · obtain ⟨rfl, accepted⟩ := Prod.mk.inj (List.mem_singleton.mp last)
      rcases handleCmdCreateFile_cases m req with ⟨err, failed⟩ | ⟨_, _, done⟩
      · rw [handle, failed] at accepted
        cases accepted
      · rw [handle, done]
        exact ⟨newFile req, Finmap.lookup_insert _, rfl, rfl, rfl, rfl, rfl, rfl⟩
  | heartbeat nodeID ts before ih =>
    rename_i m
    obtain ⟨registry, same⟩ := m.updateLastSeen_nodes_only nodeID ts
    rw [same]
    exact ih created
  | restore _ _ _ ih =>
    rw [restore_persist]
    exact ih created

theorem chunk_at_index {m : FSM} (intact : ReferentialIntegrity m) {fileID cid : String} {file : FileRecord}
    (found : m.fileIndex.lookup fileID = some file) (member : cid ∈ file.chunkIDs)
    {chunk : ChunkRecord (List String)} (stored : m.chunkRegistry.lookup cid = some chunk) :
    chunk.chunkID = cid ∧ file.chunkIDs[chunk.chunkIndex]? = some cid := by
  have key := intact.chunkKey cid chunk stored
  obtain ⟨same, present, owner⟩ := intact.chunkOfFile fileID file found cid member
  cases stored.symm.trans present
  obtain ⟨owning, held, position⟩ := intact.fileOfChunk cid chunk stored
  rw [owner, intact.fileKey fileID file found] at held
  cases found.symm.trans held
  rw [key] at position
  exact ⟨key, position⟩

/-- The offsets at which `Download` writes the chunks of a file, in the order of its loop. -/
def writeOffsets (m : FSM) (chunkSize : UInt64) (chunks : List (ChunkRecord (List String))) : List Int64 :=
  ((chunks.map fun ck => protoToChunkInfo (Server.chunkInfo m.nodeRegistry ck)).mergeSort fun a b =>
    decide (a.chunkIndex ≤ b.chunkIndex)).map fun c => c.chunkIndex * chunkSize.toInt64

/-- The records of a file in the order of the ids it was created with, and the offsets that
    follow from them; the messages carry an index as an `int32`. -/
structure InOrder (m : FSM) (req : CommandCreateFile) (chunks : List (ChunkRecord (List String))) : Prop where
  ids : chunks.map ChunkRecord.chunkID = req.chunkIDs
  indices : chunks.map ChunkRecord.chunkIndex = List.range req.chunkIDs.length
  offsets : chunks.map (fun ck => ck.chunkIndex * req.chunkSize.toNat) =
    (List.range req.chunkIDs.length).map (· * req.chunkSize.toNat)
  writes : req.chunkIDs.length ≤ 2 ^ 31 → writeOffsets m req.chunkSize chunks =
    (List.range req.chunkIDs.length).map fun i => Int64.ofNat i * req.chunkSize.toInt64

theorem wireIndex {i : Nat} (small : i < 2 ^ 31) : (Int32.ofNat i).toInt64 = Int64.ofNat i := by
  rw [← Int64.toInt_inj, Int32.toInt_toInt64, Int32.toInt_ofNat_of_lt small, Int64.toInt_ofNat_of_lt (by omega)]

theorem writeOffsets_inOrder (m : FSM) (chunkSize : UInt64) {chunks : List (ChunkRecord (List String))} {n : Nat}
    (indices : chunks.map ChunkRecord.chunkIndex = List.range n) (few : n ≤ 2 ^ 31) :
    writeOffsets m chunkSize chunks = (List.range n).map fun i => Int64.ofNat i * chunkSize.toInt64 := by
  have wire : (chunks.map fun ck => protoToChunkInfo (Server.chunkInfo m.nodeRegistry ck)).map
      ChunkInfo.chunkIndex = (List.range n).map Int64.ofNat := by
    rw [List.map_map, ← indices, List.map_map]
    apply List.map_congr_left
    intro ck member
    have listed : ck.chunkIndex ∈ List.range n := indices ▸ List.mem_map_of_mem member
    exact wireIndex (Nat.lt_of_lt_of_le (List.mem_range.mp listed) few)
  have ascending : ((List.range n).map Int64.ofNat).Pairwise fun a b => a ≤ b := by
    rw [List.pairwise_map]
    apply List.pairwise_lt_range.imp_of_mem
    intro i j first second below
    have left := List.mem_range.mp first
    have right := List.mem_range.mp second
    rw [Int64.le_iff_toInt_le, Int64.toInt_ofNat_of_lt (by omega), Int64.toInt_ofNat_of_lt (by omega)]
    omega
  rw [← wire, List.pairwise_map] at ascending
  unfold writeOffsets
  rw [List.mergeSort_of_pairwise (ascending.imp fun below => decide_eq_true below)]
  have offsets := congrArg (List.map (· * chunkSize.toInt64)) wire
  simpa only [List.map_map, Function.comp_def] using offsets

theorem inOrder_of_nodup {m : FSM} (intact : ReferentialIntegrity m) {req : CommandCreateFile} {file : FileRecord}
    (found : m.fileIndex.lookup req.fileID = some file) (same : (newFile req).SameFile file)
    (distinct : req.chunkIDs.Nodup) {chunks : List (ChunkRecord (List String))}
    (collected : collectChunks m.chunkRegistry file.chunkIDs = .ok chunks) : InOrder m req chunks := by
  have declared : file.chunkIDs = req.chunkIDs := same.chunkIDs
  have read := collectChunks_found collected
  have count := read.length_eq
  rw [declared] at read count
  have each (i : Nat) (inside : i < chunks.length) :
      chunks[i].chunkID = req.chunkIDs[i] ∧ chunks[i].chunkIndex = i := by
    have listed : i < req.chunkIDs.length := count ▸ inside
    have stored : m.chunkRegistry.lookup req.chunkIDs[i] = some chunks[i] := read.get listed inside
    have member : req.chunkIDs[i] ∈ file.chunkIDs := by
      rw [declared]
      exact List.getElem_mem listed
    obtain ⟨named, position⟩ := chunk_at_index intact found member stored
    rw [declared, ← List.getElem?_eq_getElem listed] at position
    exact ⟨named, ((List.getElem?_inj listed distinct).mp position.symm).symm⟩
  have indices : chunks.map ChunkRecord.chunkIndex = List.range req.chunkIDs.length := by
    apply List.ext_getElem
    · rw [List.length_map, List.length_range, count]
    · intro i inside _
      rw [List.length_map] at inside
      rw [List.getElem_map, List.getElem_range]
      exact (each i inside).2
  constructor
  · apply List.ext_getElem
    · rw [List.length_map, count]
    · intro i inside _
      rw [List.length_map] at inside
      rw [List.getElem_map]
      exact (each i inside).1
  · exact indices
  · rw [← indices, List.map_map]
    rfl
  · exact writeOffsets_inOrder m req.chunkSize indices

theorem nodup_of_inOrder {m : FSM} {req : CommandCreateFile} {ids : List String}
    {chunks : List (ChunkRecord (List String))} (collected : collectChunks m.chunkRegistry ids = .ok chunks)
    (ordered : InOrder m req chunks) : ids.Nodup := by
  have read := collectChunks_found collected
  have distinct : (chunks.map ChunkRecord.chunkIndex).Nodup := by
    rw [ordered.indices]
    exact List.nodup_range
  rw [List.nodup_iff_getElem?_ne_getElem?]
  intro i j before inside same
  have count := read.length_eq
  have first : i < ids.length := Nat.lt_trans before inside
  rw [List.getElem?_eq_getElem first, List.getElem?_eq_getElem inside] at same
  -- one id is looked up for both positions, so both records are the same one
  have left : m.chunkRegistry.lookup ids[i] = some chunks[i] := read.get first (count ▸ first)
  have right : m.chunkRegistry.lookup ids[j] = some chunks[j] := read.get inside (count ▸ inside)
  rw [Option.some.inj same, right] at left
  have repeated : (chunks.map ChunkRecord.chunkIndex)[i]? = (chunks.map ChunkRecord.chunkIndex)[j]? := by
    rw [List.getElem?_map, List.getElem?_map, List.getElem?_eq_getElem (count ▸ first),
      List.getElem?_eq_getElem (count ▸ inside), Option.some.inj left]
  have equal := (List.getElem?_inj (by rw [List.length_map, ← count]; exact first) distinct).mp repeated
  omega

/-- In every reached state `GetFileChunks` reads the chunks of a created file in order, each at
    its index, exactly if the request that created it named no chunk twice. -/
theorem chunk_positions_iff {history : History} {m : FSM} (reached : Reached history m)
    {req : CommandCreateFile} (created : (Command.createFile req, none) ∈ history) :
    (∃ chunks, m.getFileChunks req.fileID = .ok chunks ∧ InOrder m req chunks) ↔ req.chunkIDs.Nodup := by
  have intact := reached_integrity reached
  obtain ⟨file, found, same⟩ := reached_created reached created
  have read : m.getFileChunks req.fileID = collectChunks m.chunkRegistry file.chunkIDs := by
    rw [getFileChunks, (getFile_ok m).mpr found]
  rw [read]
  constructor
  · intro positioned
    obtain ⟨chunks, collected, ordered⟩ := positioned
    have distinct := nodup_of_inOrder collected ordered
    rwa [show file.chunkIDs = req.chunkIDs from same.chunkIDs] at distinct
  · intro distinct
    have present (cid : String) (member : cid ∈ file.chunkIDs) : ∃ ck, m.chunkRegistry.lookup cid = some ck := by
      obtain ⟨chunk, stored, _⟩ := intact.chunkOfFile req.fileID file found cid member
      exact ⟨chunk, stored⟩
    obtain ⟨chunks, collected⟩ := collectChunks_ok m.chunkRegistry file.chunkIDs present
    exact ⟨chunks, collected, inOrder_of_nodup intact found same distinct collected⟩

theorem chunk_positions_iff_photos :
    ∃ chunks, photosCreated.getFileChunks "file-1" = .ok chunks ∧ InOrder photosCreated photosUpload chunks := by
  have created : (Command.createFile photosUpload, none) ∈
      [(Command.createFile photosUpload, (none : Option GoError))] := List.mem_singleton_self _
  exact (chunk_positions_iff photosCreated_reached created).mpr (by decide)

def repeatedUpload : CommandCreateFile := { photosUpload with chunkIDs := ["ck-1", "ck-1"] }

def repeatedCreated : FSM :=
  (handle newEmptyMetadataFsm (fun _ => default) (.createFile repeatedUpload)).1

/-- The two entries share one record, which has the index of the second. -/
theorem repeated_chunk_misplaced :
    (handle newEmptyMetadataFsm (fun _ => default) (.createFile repeatedUpload)).2 = none ∧
    ((repeatedCreated.getFileChunks "file-1").toOption.map fun chunks =>
      chunks.map ChunkRecord.chunkIndex) = some [1, 1] ∧
    ¬ ∃ chunks, repeatedCreated.getFileChunks "file-1" = .ok chunks ∧
      InOrder repeatedCreated repeatedUpload chunks := by
  have indices : ((repeatedCreated.getFileChunks "file-1").toOption.map fun chunks =>
      chunks.map ChunkRecord.chunkIndex) = some [1, 1] := by decide
  refine ⟨by decide, indices, ?_⟩
  intro positioned
  obtain ⟨chunks, read, ordered⟩ := positioned
  rw [read] at indices
  have same : chunks.map ChunkRecord.chunkIndex = [1, 1] := Option.some.inj indices
  exact absurd (same.symm.trans ordered.indices) (by decide)

end DistributedFs.Client
