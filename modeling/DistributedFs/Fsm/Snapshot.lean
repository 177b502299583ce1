import DistributedFs.Go.Json
import DistributedFs.Fsm.Handlers

namespace DistributedFs.Fsm

open Go

/-- `utils.DeepCopy`: every record by value. Entries are never nil here, so the
    zero-value branch for nil pointers does not arise. -/
def deepCopy {α : Type} (registry : GoMap α) : GoMap α := registry.mapValues fun value => value

theorem deepCopy_eq {α : Type} (registry : GoMap α) : deepCopy registry = registry := by
  apply Finmap.ext_lookup
  intro key
  simp [deepCopy, GoMap.lookup_mapValues]

structure MetadataFSMSnapshot (ρ : Type) where
  fileIndex : GoMap FileRecord
  chunkRegistry : GoMap (ChunkRecord ρ)
  nodeRegistry : GoMap NodeEntry
  repairJobRegistry : GoMap RepairJob
  mdNodeRegistry : GoMap MetadataNodeEntry

def MetadataFSM.snapshot {ρ : Type} (m : MetadataFSM ρ) : MetadataFSMSnapshot ρ where
  fileIndex := deepCopy m.fileIndex
  chunkRegistry := deepCopy m.chunkRegistry
  nodeRegistry := deepCopy m.nodeRegistry
  repairJobRegistry := deepCopy m.repairJobRegistry
  mdNodeRegistry := deepCopy m.mdNodeRegistry

def FileStatus.text : FileStatus → String
  | .creating => "creating"
  | .complete => "complete"
  | .deleted => "deleted"

def FileStatus.ofText (text : String) : Except GoError FileStatus :=
  if text = "creating" then .ok .creating
  else if text = "complete" then .ok .complete
  else if text = "deleted" then .ok .deleted
  else .error (.new "unknown file status")

def ChunkStatus.text : ChunkStatus → String
  | .allocated => "allocated"
  | .complete => "complete"
  | .lost => "lost"

def ChunkStatus.ofText (text : String) : Except GoError ChunkStatus :=
  if text = "allocated" then .ok .allocated
  else if text = "complete" then .ok .complete
  else if text = "lost" then .ok .lost
  else .error (.new "unknown chunk status")

def NodeStatus.text : NodeStatus → String
  | .alive => "alive"
  | .suspect => "suspect"
  | .dead => "dead"
  | .draining => "draining"

def NodeStatus.ofText (text : String) : Except GoError NodeStatus :=
  if text = "alive" then .ok .alive
  else if text = "suspect" then .ok .suspect
  else if text = "dead" then .ok .dead
  else if text = "draining" then .ok .draining
  else .error (.new "unknown node status")

def RepairStatus.text : RepairStatus → String
  | .pending => "pending"
  | .inProgress => "in-progress"
  | .done => "done"
  | .failed => "failed"
  | .other text _ => text

def RepairStatus.ofText (text : String) : RepairStatus :=
  if unnamed : text ∉ ["pending", "in-progress", "done", "failed"] then .other text unnamed
  else if text = "pending" then .pending
  else if text = "in-progress" then .inProgress
  else if text = "done" then .done
  else .failed

theorem FileStatus.ofText_text (status : FileStatus) : ofText status.text = .ok status := by
  cases status <;> rfl

theorem ChunkStatus.ofText_text (status : ChunkStatus) : ofText status.text = .ok status := by
  cases status <;> rfl

theorem NodeStatus.ofText_text (status : NodeStatus) : ofText status.text = .ok status := by
  cases status <;> rfl

theorem RepairStatus.ofText_text (status : RepairStatus) : ofText status.text = status := by
  cases status with
  | other given unnamed => exact dif_pos unnamed
  | _ => rfl

/-! The JSON tags of the snapshot records. `lastSeen` has the tag `-`: it is not
written, and reads back as the zero time. -/

def FileRecord.marshal (f : FileRecord) : JsonObject :=
  [("file_id", .str f.fileID), ("filename", .str f.filename), ("file_size", .uint f.fileSize),
    ("chunk_size", .uint f.chunkSize), ("checksum", .bytes f.checkSum),
    ("chunk_ids", .strs f.chunkIDs), ("status", .str f.status.text),
    ("created_at", .time f.createdAt), ("updated_at", .time f.updatedAt)]

def FileRecord.unmarshal (object : JsonObject) : Except GoError FileRecord := do
  return {
    fileID := ← object.str "file_id", filename := ← object.str "filename"
    fileSize := ← object.uint "file_size", chunkSize := ← object.uint "chunk_size"
    checkSum := ← object.bytes "checksum", chunkIDs := ← object.strs "chunk_ids"
    status := ← FileStatus.ofText (← object.str "status")
    createdAt := ← object.time "created_at", updatedAt := ← object.time "updated_at" }

def ChunkRecord.marshal (c : ChunkRecord (List String)) : JsonObject :=
  [("chunk_id", .str c.chunkID), ("file_id", .str c.fileID), ("chunk_index", .int c.chunkIndex),
    ("size", .int c.size), ("checksum", .bytes c.checksum), ("replicas", .strs c.replicas),
    ("status", .str c.status.text)]

def ChunkRecord.unmarshal (object : JsonObject) : Except GoError (ChunkRecord (List String)) := do
  return {
    chunkID := ← object.str "chunk_id", fileID := ← object.str "file_id"
    chunkIndex := (← object.int "chunk_index").toNat, size := ← object.int "size"
    checksum := ← object.bytes "checksum", replicas := ← object.strs "replicas"
    status := ← ChunkStatus.ofText (← object.str "status") }

def NodeEntry.marshal (n : NodeEntry) : JsonObject :=
  [("node_id", .str n.nodeID), ("address", .str n.address), ("status", .str n.status.text),
    ("free_space", .uint n.freeSpace), ("chunk_count", .uint n.chunkCount),
    ("registered_at", .time n.registeredAt), ("updated_at", .time n.updatedAt)]

def NodeEntry.unmarshal (object : JsonObject) : Except GoError NodeEntry := do
  return {
    nodeID := ← object.str "node_id", address := ← object.str "address"
    status := ← NodeStatus.ofText (← object.str "status")
    freeSpace := ← object.uint "free_space", chunkCount := ← object.uint "chunk_count"
    lastSeen := 0
    registeredAt := ← object.time "registered_at", updatedAt := ← object.time "updated_at" }

def RepairJob.marshal (j : RepairJob) : JsonObject :=
  [("job_id", .str j.jobID), ("chunk_id", .str j.chunkID), ("error", .str j.error),
    ("delete_source", .bool j.deleteSource), ("source_node_id", .str j.sourceNodeID),
    ("target_node_id", .str j.targetNodeID), ("status", .str j.status.text),
    ("attempts", .uint j.attempts), ("created_at", .time j.createdAt),
    ("updated_at", .time j.updatedAt)]

def RepairJob.unmarshal (object : JsonObject) : Except GoError RepairJob := do
  return {
    jobID := ← object.str "job_id", chunkID := ← object.str "chunk_id"
    error := ← object.str "error", deleteSource := ← object.bool "delete_source"
    sourceNodeID := ← object.str "source_node_id", targetNodeID := ← object.str "target_node_id"
    status := RepairStatus.ofText (← object.str "status"), attempts := ← object.uint "attempts"
    createdAt := ← object.time "created_at", updatedAt := ← object.time "updated_at" }

def MetadataNodeEntry.marshal (n : MetadataNodeEntry) : JsonObject :=
  [("node_id", .str n.nodeID), ("raft_addr", .str n.raftAddr), ("grpc_addr", .str n.grpcAddr)]

def MetadataNodeEntry.unmarshal (object : JsonObject) : Except GoError MetadataNodeEntry := do
  return {
    nodeID := ← object.str "node_id", raftAddr := ← object.str "raft_addr"
    grpcAddr := ← object.str "grpc_addr" }

theorem FileRecord.unmarshal_marshal (f : FileRecord) : unmarshal f.marshal = .ok f := by
  obtain ⟨_, _, _, _, _, _, status, _, _⟩ := f
  cases status <;> rfl

theorem ChunkRecord.unmarshal_marshal (c : ChunkRecord (List String)) :
    unmarshal c.marshal = .ok c := by
  obtain ⟨_, _, _, _, _, _, status⟩ := c
  cases status <;> rfl

def NodeEntry.forgetLastSeen (n : NodeEntry) : NodeEntry := { n with lastSeen := 0 }

theorem NodeEntry.unmarshal_marshal (n : NodeEntry) :
    unmarshal n.marshal = .ok n.forgetLastSeen := by
  obtain ⟨_, _, status, _, _, _, _, _⟩ := n
  cases status <;> rfl

theorem RepairJob.unmarshal_marshal (j : RepairJob) : unmarshal j.marshal = .ok j := by
  have status := RepairStatus.ofText_text j.status
  have read : unmarshal j.marshal =
      .ok { j with status := RepairStatus.ofText j.status.text } := rfl
  rw [read, status]

theorem MetadataNodeEntry.unmarshal_marshal (n : MetadataNodeEntry) :
    unmarshal n.marshal = .ok n := rfl

instance : Inhabited FileRecord := ⟨⟨"", "", 0, 0, [], [], .creating, 0, 0⟩⟩
instance : Inhabited (ChunkRecord (List String)) := ⟨⟨"", "", 0, 0, [], [], .allocated⟩⟩
instance : Inhabited NodeEntry := ⟨⟨"", "", .alive, 0, 0, 0, 0, 0⟩⟩
instance : Inhabited RepairJob := ⟨⟨"", "", "", false, "", "", .pending, 0, 0, 0⟩⟩
instance : Inhabited MetadataNodeEntry := ⟨⟨"", "", ""⟩⟩

abbrev SnapshotJson := List (String × GoMap JsonObject)

namespace MetadataFSMSnapshot

def persist (snap : MetadataFSMSnapshot (List String)) : SnapshotJson :=
  [("file_index", snap.fileIndex.mapValues FileRecord.marshal),
    ("chunk_registry", snap.chunkRegistry.mapValues ChunkRecord.marshal),
    ("node_registry", snap.nodeRegistry.mapValues NodeEntry.marshal),
    ("repairjob_registry", snap.repairJobRegistry.mapValues RepairJob.marshal),
    ("md_node_registry", snap.mdNodeRegistry.mapValues MetadataNodeEntry.marshal)]

/-- A map of the document; an absent one is nil, which `RestoreFSM` ranges over as empty. -/
def mapAt (document : SnapshotJson) (tag : String) : GoMap JsonObject :=
  (document.lookup tag).getD ∅

def unmarshal (document : SnapshotJson) : Except GoError (MetadataFSMSnapshot (List String)) := do
  return {
    fileIndex := ← decodeValues FileRecord.unmarshal (mapAt document "file_index")
    chunkRegistry := ← decodeValues ChunkRecord.unmarshal (mapAt document "chunk_registry")
    nodeRegistry := ← decodeValues NodeEntry.unmarshal (mapAt document "node_registry")
    repairJobRegistry :=
      ← decodeValues RepairJob.unmarshal (mapAt document "repairjob_registry")
    mdNodeRegistry :=
      ← decodeValues MetadataNodeEntry.unmarshal (mapAt document "md_node_registry") }

def restoreFSM {ρ : Type} (snap : MetadataFSMSnapshot ρ) : MetadataFSM ρ where
  fileIndex := deepCopy snap.fileIndex
  chunkRegistry := deepCopy snap.chunkRegistry
  nodeRegistry := deepCopy snap.nodeRegistry
  repairJobRegistry := deepCopy snap.repairJobRegistry
  mdNodeRegistry := deepCopy snap.mdNodeRegistry

end MetadataFSMSnapshot

namespace MetadataFSM

open MetadataFSMSnapshot

def restore (m : FSM) (document : SnapshotJson) : Outcome (List String) :=
  match MetadataFSMSnapshot.unmarshal document with
  | .error err => (m, some err)
  | .ok snap =>
    let restored := snap.restoreFSM
    ({ m with
        fileIndex := restored.fileIndex
        chunkRegistry := restored.chunkRegistry
        nodeRegistry := restored.nodeRegistry
        repairJobRegistry := restored.repairJobRegistry
        mdNodeRegistry := restored.mdNodeRegistry }, none)

def forgetLastSeen {ρ : Type} (m : MetadataFSM ρ) : MetadataFSM ρ :=
  { m with nodeRegistry := m.nodeRegistry.mapValues NodeEntry.forgetLastSeen }

theorem restore_persist (m s : FSM) :
    m.restore s.snapshot.persist = (s.forgetLastSeen, none) := by
  have files := decodeValues_written FileRecord.unmarshal FileRecord.marshal id
    FileRecord.unmarshal_marshal s.fileIndex
  have chunks := decodeValues_written ChunkRecord.unmarshal ChunkRecord.marshal id
    ChunkRecord.unmarshal_marshal s.chunkRegistry
  have nodes := decodeValues_written NodeEntry.unmarshal NodeEntry.marshal NodeEntry.forgetLastSeen
    NodeEntry.unmarshal_marshal s.nodeRegistry
  have jobs := decodeValues_written RepairJob.unmarshal RepairJob.marshal id
    RepairJob.unmarshal_marshal s.repairJobRegistry
  have mdNodes := decodeValues_written MetadataNodeEntry.unmarshal MetadataNodeEntry.marshal id
    MetadataNodeEntry.unmarshal_marshal s.mdNodeRegistry
  have same {α : Type} (registry : GoMap α) : registry.mapValues id = registry :=
    deepCopy_eq registry
  simp only [same] at files chunks jobs mdNodes
  simp only [restore, MetadataFSMSnapshot.unmarshal, mapAt, persist, snapshot, deepCopy_eq,
    List.lookup_cons, Option.getD_some, String.reduceBEq, files, chunks, nodes, jobs, mdNodes,
    Bind.bind, Except.bind, Pure.pure, Except.pure, restoreFSM, forgetLastSeen]

end MetadataFSM

end DistributedFs.Fsm
