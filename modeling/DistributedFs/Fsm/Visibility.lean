import DistributedFs.Fsm.Integrity
import DistributedFs.Server.FileHandler

namespace DistributedFs.Fsm

open Go MetadataFSM

theorem validateChunks_none {ρ : Type} (registry : GoMap (ChunkRecord ρ)) (ids : List String)
    (valid : validateChunks registry ids = none) (cid : String) (member : cid ∈ ids) :
    ∃ ck, registry.lookup cid = some ck ∧ ck.status = .complete := by
  induction ids with
  | nil => cases member
  | cons head rest ih =>
    simp only [validateChunks] at valid
    cases found : registry.lookup head with
    | none => simp [found] at valid
    | some ck =>
      simp only [found] at valid
      split at valid
      · cases valid
      · rename_i complete
        rcases List.mem_cons.mp member with rfl | member
        · exact ⟨ck, found, not_not.mp complete⟩
        · exact ih valid member

structure ChunkRecord.StaysCommitted (chunk later : ChunkRecord (List String)) : Prop where
  checksum : chunk.checksum ≠ [] → later.checksum = chunk.checksum
  status : chunk.status ≠ .allocated → later.status ≠ .allocated

theorem setChunk_stays {m : FSM} {cid other : String} {chunk later record : ChunkRecord (List String)}
    (found : m.chunkRegistry.lookup cid = some chunk) (stays : chunk.StaysCommitted later)
    (stored : m.chunkRegistry.lookup other = some record) :
    ∃ last, (m.setChunk cid later).chunkRegistry.lookup other = some last ∧
      record.StaysCommitted last := by
  simp only [setChunk, GoMap.lookup_insert]
  by_cases here : other = cid
  · subst here
    rw [found] at stored
    cases stored
    exact ⟨later, by simp, stays⟩
  · exact ⟨record, by simpa [here] using stored, fun _ => rfl, fun h => h⟩

def CommitsCarryChecksum (history : History) : Prop :=
  ∀ req result, (Command.commitChunk req, result) ∈ history → req.checksum ≠ []

structure Accounted (history : History) (m : FSM) : Prop where
  declared : ∀ id file, m.fileIndex.lookup id = some file →
    ∃ req, (Command.createFile req, none) ∈ history ∧ req.fileID = id ∧
      req.fileSize = file.fileSize
  committed : ∀ cid chunk, m.chunkRegistry.lookup cid = some chunk → chunk.checksum ≠ [] →
    ∃ req, (Command.commitChunk req, none) ∈ history ∧ req.chunkID = cid ∧
      req.checksum = chunk.checksum
  complete : ∀ cid chunk, m.chunkRegistry.lookup cid = some chunk → chunk.status = .complete →
    chunk.checksum ≠ []
  visible : ∀ id file, m.fileIndex.lookup id = some file → file.status = .complete →
    ∀ cid ∈ file.chunkIDs, ∃ chunk, m.chunkRegistry.lookup cid = some chunk ∧
      chunk.status ≠ .allocated ∧ chunk.checksum ≠ []

theorem Accounted.declared_setFile {history : History} {m : FSM} {id : String}
    {file later : FileRecord} (accounted : Accounted history m)
    (found : m.fileIndex.lookup id = some file) (same : file.SameFile later)
    (entry : Command × Option GoError) (other : String) (record : FileRecord)
    (stored : (m.setFile id later).fileIndex.lookup other = some record) :
    ∃ req, (Command.createFile req, none) ∈ history ++ [entry] ∧ req.fileID = other ∧
      req.fileSize = record.fileSize := by
  obtain ⟨earlier, present, identity⟩ := lookup_setFile found same other record stored
  obtain ⟨req, logged, named, size⟩ := accounted.declared other earlier present
  exact ⟨req, List.mem_append_left _ logged, named, size.trans identity.fileSize.symm⟩

theorem Accounted.setChunk {history : History} {m : FSM} {cid : String}
    {chunk later : ChunkRecord (List String)} (accounted : Accounted history m)
    (found : m.chunkRegistry.lookup cid = some chunk) (stays : chunk.StaysCommitted later)
    (entry : Command × Option GoError)
    (origin : later.checksum ≠ [] →
      ∃ req, (Command.commitChunk req, none) ∈ history ++ [entry] ∧ req.chunkID = cid ∧
        req.checksum = later.checksum)
    (complete : later.status = .complete → later.checksum ≠ []) :
    Accounted (history ++ [entry]) (m.setChunk cid later) where
  declared id file stored := by
    obtain ⟨req, logged, named, size⟩ := accounted.declared id file stored
    exact ⟨req, List.mem_append_left _ logged, named, size⟩
  committed other record stored has := by
    simp only [MetadataFSM.setChunk, GoMap.lookup_insert] at stored
    split at stored
    · rename_i here
      subst here
      cases stored
      exact origin has
    · obtain ⟨req, logged, named, same⟩ := accounted.committed other record stored has
      exact ⟨req, List.mem_append_left _ logged, named, same⟩
  complete other record stored done := by
    simp only [MetadataFSM.setChunk, GoMap.lookup_insert] at stored
    split at stored
    · cases stored
      exact complete done
    · exact accounted.complete other record stored done
  visible id file stored done other member := by
    obtain ⟨record, present, left, has⟩ := accounted.visible id file stored done other member
    obtain ⟨last, present, kept⟩ := setChunk_stays found stays present
    exact ⟨last, present, kept.status left, by rw [kept.checksum has]; exact has⟩

theorem Accounted.extend {history : History} {m after : FSM} (accounted : Accounted history m)
    (entry : Command × Option GoError) (files : after.fileIndex = m.fileIndex)
    (chunks : after.chunkRegistry = m.chunkRegistry) : Accounted (history ++ [entry]) after where
  declared id file stored := by
    rw [files] at stored
    obtain ⟨req, logged, named, size⟩ := accounted.declared id file stored
    exact ⟨req, List.mem_append_left _ logged, named, size⟩
  committed cid chunk stored has := by
    rw [chunks] at stored
    obtain ⟨req, logged, named, same⟩ := accounted.committed cid chunk stored has
    exact ⟨req, List.mem_append_left _ logged, named, same⟩
  complete := by
    rw [chunks]
    exact accounted.complete
  visible := by
    rw [chunks, files]
    exact accounted.visible

theorem Accounted.setFile {history : History} {m : FSM} (accounted : Accounted history m)
    (entry : Command × Option GoError) {id : String} {file later : FileRecord}
    (found : m.fileIndex.lookup id = some file) (same : file.SameFile later)
    (visible : later.status = .complete → ∀ cid ∈ later.chunkIDs, ∃ chunk,
      m.chunkRegistry.lookup cid = some chunk ∧ chunk.status ≠ .allocated ∧ chunk.checksum ≠ []) :
    Accounted (history ++ [entry]) (m.setFile id later) where
  declared := accounted.declared_setFile found same _
  committed := (accounted.extend entry rfl rfl).committed
  complete := accounted.complete
  visible other record stored done := by
    simp only [MetadataFSM.setFile, GoMap.lookup_insert] at stored
    split at stored
    · cases stored
      exact visible done
    · exact accounted.visible other record stored done

theorem Accounted.createFile {history : History} {m : FSM} (accounted : Accounted history m)
    (req : CommandCreateFile) (fresh : ∀ cid ∈ req.chunkIDs, cid ∉ m.chunkRegistry) :
    Accounted (history ++ [(.createFile req, none)]) { m with
      chunkRegistry := insertChunks m.chunkRegistry (chunkStubs req)
      fileIndex := m.fileIndex.insert req.fileID (newFile req) } where
  declared id file stored := by
    simp only [GoMap.lookup_insert] at stored
    split at stored
    · rename_i here
      cases stored
      exact ⟨req, by simp, here.symm, rfl⟩
    · obtain ⟨old, logged, named, size⟩ := accounted.declared id file stored
      exact ⟨old, List.mem_append_left _ logged, named, size⟩
  committed cid chunk stored has := by
    rcases lookup_created m req cid with ⟨index, _, present⟩ | ⟨_, same⟩
    · cases present.symm.trans stored
      exact absurd rfl has
    · obtain ⟨old, logged, named, sum⟩ := accounted.committed cid chunk (same.symm.trans stored) has
      exact ⟨old, List.mem_append_left _ logged, named, sum⟩
  complete cid chunk stored done := by
    rcases lookup_created m req cid with ⟨index, _, present⟩ | ⟨_, same⟩
    · cases present.symm.trans stored
      cases done
    · exact accounted.complete cid chunk (same.symm.trans stored) done
  visible id file stored done cid member := by
    simp only [GoMap.lookup_insert] at stored
    split at stored
    · cases stored
      cases done
    · obtain ⟨chunk, present, left, has⟩ := accounted.visible id file stored done cid member
      rcases lookup_created m req cid with ⟨index, position, _⟩ | ⟨_, same⟩
      · exact absurd (Finmap.mem_of_lookup_eq_some present)
          (fresh cid (List.mem_of_getElem? position))
      · exact ⟨chunk, same.trans present, left, has⟩

theorem step_accounted {history : History} {m after : FSM} {orders : Nat → MapOrder}
    {cmd : Command} {result : Option GoError}
    (carries : CommitsCarryChecksum (history ++ [(cmd, result)]))
    (accounted : Accounted history m) (step : Step m orders cmd after result) :
    Accounted (history ++ [(cmd, result)]) after := by
  cases step with
  | failed | alreadyListed | nodes | jobs | mdNodes => exact accounted.extend _ rfl rfl
  | createFile req newID fresh => exact accounted.createFile req fresh
  | commitFile req file found size valid =>
    have same : file.SameFile { file with checkSum := req.checksum, status := .complete } :=
      ⟨rfl, rfl, rfl, rfl, rfl, rfl⟩
    apply accounted.setFile _ found same
    intro _ cid member
    obtain ⟨chunk, present, complete⟩ := validateChunks_none _ _ valid cid member
    exact ⟨chunk, present, by simp [complete], accounted.complete cid chunk present complete⟩
  | deleteFile req file found =>
    have same : file.SameFile { file with status := .deleted } := ⟨rfl, rfl, rfl, rfl, rfl, rfl⟩
    apply accounted.setFile _ found same
    intro done
    cases done
  | commitChunk req chunk found guard =>
    have has : req.checksum ≠ [] := carries req none (by simp)
    exact accounted.setChunk found ⟨fun old => absurd guard.1 old, fun _ => by simp⟩ _
      (fun _ => ⟨req, by simp, rfl, rfl⟩) (fun _ => has)
  | evict req chunk _ found | addReplica req chunk found =>
    refine accounted.setChunk found ?_ _ ?_ (accounted.complete _ chunk found)
    · exact ⟨fun _ => rfl, fun h => h⟩
    · exact (accounted.extend _ rfl rfl).committed _ chunk found
  | markLost req chunk found =>
    refine accounted.setChunk found ?_ _ ?_ ?_
    · exact ⟨fun _ => rfl, fun _ => by simp⟩
    · exact (accounted.extend _ rfl rfl).committed _ chunk found
    · intro held
      cases held

theorem reached_accounted {history : History} {m : FSM} (reached : Reached history m)
    (carries : CommitsCarryChecksum history) : Accounted history m := by
  revert carries
  refine reached.files_and_chunks
    (P := fun history m => CommitsCarryChecksum history → Accounted history m) ?_ ?_ ?_
  · intro _
    constructor <;> intro _ _ found <;> cases found
  · intro history m registry accounted carries
    have before := accounted carries
    exact ⟨before.declared, before.committed, before.complete, before.visible⟩
  · intro history m orders cmd after result accounted step carries
    have earlier : CommitsCarryChecksum history :=
      fun req result member => carries req result (List.mem_append_left _ member)
    exact step_accounted carries (accounted earlier) step

/-- A file that is visible to readers is fully committed, and `GetFile` can serve it. -/
theorem visible_file_committed {history : History} {m : FSM} (reached : Reached history m)
    (carries : CommitsCarryChecksum history) (id : String) (file : FileRecord)
    (found : m.fileIndex.lookup id = some file) (visible : file.status = .complete) :
    (∀ cid ∈ file.chunkIDs, ∃ chunk, m.chunkRegistry.lookup cid = some chunk ∧
      chunk.status ≠ .allocated ∧ chunk.checksum ≠ [] ∧
      ∃ req, (Command.commitChunk req, none) ∈ history ∧ req.chunkID = cid ∧
        req.checksum = chunk.checksum) ∧
    (∃ req, (Command.createFile req, none) ∈ history ∧ req.fileID = id ∧
      req.fileSize = file.fileSize) ∧
    ∀ raft : Server.RaftView, raft.isLeader = true →
      ∃ response, Server.getFile raft m id = .ok response := by
  have accounted := reached_accounted reached carries
  refine ⟨?_, accounted.declared id file found, ?_⟩
  · intro cid member
    obtain ⟨chunk, present, left, has⟩ := accounted.visible id file found visible cid member
    exact ⟨chunk, present, left, has, accounted.committed cid chunk present has⟩
  · intro raft leads
    have present (cid : String) (member : cid ∈ file.chunkIDs) :
        ∃ ck, m.chunkRegistry.lookup cid = some ck := by
      obtain ⟨chunk, stored, _⟩ := accounted.visible id file found visible cid member
      exact ⟨chunk, stored⟩
    obtain ⟨chunks, collected⟩ := collectChunks_ok m.chunkRegistry file.chunkIDs present
    have read := (getFile_ok m).mpr found
    refine ⟨⟨Server.fileInfo file, chunks.map (Server.chunkInfo m.nodeRegistry)⟩, ?_⟩
    simp only [Server.getFile, leads, read, visible, getFileChunks, collected,
      Bool.true_eq_false, ne_eq, not_true_eq_false, ↓reduceIte]

def notesLog : List Command :=
  [.registerNode ⟨"n1", "10.0.0.1:9000", 1000, 0, 1⟩,
    .createFile ⟨"file-1", "notes.txt", ["ck-1"], 5, 65536, [], 2⟩,
    .commitChunk ⟨"ck-1", ["n1"], [0xab]⟩, .commitFile ⟨"file-1", 5, []⟩]

def notesStored : FSM × List (Option GoError) :=
  runLog (fun _ _ => default) newEmptyMetadataFsm notesLog

theorem visible_file_committed_notes :
    (∃ chunk, notesStored.1.chunkRegistry.lookup "ck-1" = some chunk ∧
      chunk.status ≠ .allocated ∧ chunk.checksum ≠ [] ∧
      ∃ req, (Command.commitChunk req, none) ∈ notesLog.zip notesStored.2 ∧ req.chunkID = "ck-1" ∧
        req.checksum = chunk.checksum) ∧
    ∃ response, Server.getFile ⟨true, "10.0.0.9:7000"⟩ notesStored.1 "file-1" = .ok response := by
  have carries : CommitsCarryChecksum (notesLog.zip notesStored.2) := by
    intro req result member
    have logged := (List.of_mem_zip member).1
    simp only [notesLog, List.mem_cons, List.not_mem_nil, or_false, reduceCtorEq, false_or,
      Command.commitChunk.injEq] at logged
    simp [logged]
  have found : notesStored.1.fileIndex.lookup "file-1" =
      some ⟨"file-1", "notes.txt", 5, 65536, [], ["ck-1"], .complete, 2, 0⟩ := by decide
  have committed := visible_file_committed (Reached.empty.runLog (fun _ _ => default) notesLog) carries
    "file-1" _ found rfl
  exact ⟨committed.1 "ck-1" (by decide), committed.2.2 _ rfl⟩

end DistributedFs.Fsm
