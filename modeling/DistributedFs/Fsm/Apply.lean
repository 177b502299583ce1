import DistributedFs.Fsm.Step

namespace DistributedFs.Fsm

open Go MetadataFSM

structure MetadataCommand where
  type : Int
  payload : List UInt8

/-- `json.Unmarshal` at the envelope and at the sixteen payload types. Nothing is
    assumed of it: any byte string may decode to anything or fail. -/
structure JsonDecoder where
  command : List UInt8 → Except GoError MetadataCommand
  registerNode : List UInt8 → Except GoError CommandRegisterNode
  deregisterNode : List UInt8 → Except GoError CommandDeregisterNode
  markNodeDead : List UInt8 → Except GoError CommandMarkNodeDead
  markNodeAlive : List UInt8 → Except GoError CommandMarkNodeAlive
  updateNodeSpace : List UInt8 → Except GoError CommandUpdateNodeSpace
  createFile : List UInt8 → Except GoError CommandCreateFile
  commitFile : List UInt8 → Except GoError CommandCommitFile
  deleteFile : List UInt8 → Except GoError CommandDeleteFile
  commitChunk : List UInt8 → Except GoError CommandCommitChunk
  evictChunkFromNode : List UInt8 → Except GoError CommandEvictChunkFromNode
  markChunkLost : List UInt8 → Except GoError CommandMarkChunkLost
  createRepairJob : List UInt8 → Except GoError CommandCreateRepairJob
  updateRepairJob : List UInt8 → Except GoError CommandUpdateRepairJob
  addChunkReplica : List UInt8 → Except GoError CommandAddChunkReplica
  registerMetadataNode : List UInt8 → Except GoError CommandRegisterMetadataNode
  deregisterMetadataNode : List UInt8 → Except GoError CommandDeregisterMetadataNode

/-- The payload selected by the type of the envelope. The numbers are the `iota`
    values of the `MetadataCmdType` constants. -/
def JsonDecoder.payload (json : JsonDecoder) (cmd : MetadataCommand) : Except GoError Command :=
  match cmd.type with
  | 0 => (json.registerNode cmd.payload).map .registerNode
  | 1 => (json.deregisterNode cmd.payload).map .deregisterNode
  | 2 => (json.markNodeDead cmd.payload).map .markNodeDead
  | 3 => (json.markNodeAlive cmd.payload).map .markNodeAlive
  | 4 => (json.updateNodeSpace cmd.payload).map .updateNodeSpace
  | 5 => (json.createFile cmd.payload).map .createFile
  | 6 => (json.commitFile cmd.payload).map .commitFile
  | 7 => (json.deleteFile cmd.payload).map .deleteFile
  | 8 => (json.commitChunk cmd.payload).map .commitChunk
  | 9 => (json.evictChunkFromNode cmd.payload).map .evictChunkFromNode
  | 10 => (json.markChunkLost cmd.payload).map .markChunkLost
  | 11 => (json.createRepairJob cmd.payload).map .createRepairJob
  | 12 => (json.updateRepairJob cmd.payload).map .updateRepairJob
  | 13 => (json.addChunkReplica cmd.payload).map .addChunkReplica
  | 14 => (json.registerMetadataNode cmd.payload).map .registerMetadataNode
  | 15 => (json.deregisterMetadataNode cmd.payload).map .deregisterMetadataNode
  | _ => .error (.new "unknown command type")

namespace MetadataFSM

def apply (m : FSM) (json : JsonDecoder) (orders : Nat → MapOrder) (data : List UInt8) :
    Outcome (List String) :=
  match json.command data with
  | .error err => (m, some err)
  | .ok cmd =>
    match json.payload cmd with
    | .error err => (m, some err)
    | .ok cmd => m.handle orders cmd

end MetadataFSM

/-- Whatever the bytes of the entry, an error leaves all five registries as they were. -/
theorem apply_error_unchanged (json : JsonDecoder) (orders : Nat → MapOrder) (m : FSM)
    (data : List UInt8) (err : GoError) (failed : (m.apply json orders data).2 = some err) :
    (m.apply json orders data).1 = m := by
  unfold apply at failed ⊢
  cases envelope : json.command data with
  | error err => rfl
  | ok cmd =>
    simp only [envelope] at failed ⊢
    cases decoded : json.payload cmd with
    | error err => rfl
    | ok cmd =>
      simp only [decoded] at failed ⊢
      exact handle_error m orders cmd err failed

def halfUploaded : FSM :=
  let m := (newEmptyMetadataFsm.handle (fun _ => default) (.registerNode ⟨"n1", "10.0.0.1:9000", 100000, 0, 1⟩)).1
  let m := (m.handle (fun _ => default)
    (.createFile { fileID := "file-1", fileName := "a.txt", chunkIDs := ["ck-1", "ck-2"], fileSize := 2
                   chunkSize := 1, createdAt := 2 })).1
  (m.handle (fun _ => default) (.commitChunk ⟨"ck-1", ["n1"], [7]⟩)).1

def commitFileEntry : JsonDecoder :=
  let eof : GoError := .new "unexpected end of JSON input"
  { command := fun _ => .ok ⟨6, "\x7b\"file_id\":\"file-1\",\"filesize\":2,\"checksum\":null\x7d".toUTF8.toList⟩
    commitFile := fun _ => .ok ⟨"file-1", 2, []⟩
    registerNode := fun _ => .error eof, deregisterNode := fun _ => .error eof
    markNodeDead := fun _ => .error eof, markNodeAlive := fun _ => .error eof
    updateNodeSpace := fun _ => .error eof, createFile := fun _ => .error eof
    deleteFile := fun _ => .error eof, commitChunk := fun _ => .error eof
    evictChunkFromNode := fun _ => .error eof, markChunkLost := fun _ => .error eof
    createRepairJob := fun _ => .error eof, updateRepairJob := fun _ => .error eof
    addChunkReplica := fun _ => .error eof, registerMetadataNode := fun _ => .error eof
    deregisterMetadataNode := fun _ => .error eof }

theorem apply_error_unchanged_halfUploaded :
    (halfUploaded.apply commitFileEntry (fun _ => default)
      "\x7b\"type\":6,\"payload\":\"eyJmaWxlX2lkIjoiZmlsZS0xIiwiZmlsZXNpemUiOjIsImNoZWNrc3VtIjpudWxsfQ==\"\x7d".toUTF8.toList).1 =
      halfUploaded :=
  apply_error_unchanged commitFileEntry (fun _ => default) halfUploaded _
    (.new "cmdCommitFile: chunk validation failed : chunk not commited") (by decide +kernel)

end DistributedFs.Fsm
