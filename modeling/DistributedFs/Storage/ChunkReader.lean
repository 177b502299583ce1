import DistributedFs.Storage.Operations

namespace DistributedFs.Storage

open Go DiskStore

def defaultFrameSize : Nat := 32 * 1024

structure Frame where
  data : List UInt8
  checksum : List UInt8
  isLast : Bool

/-- A `ChunkReader`; `remaining` is what lies behind the offset of its file. -/
structure ChunkReader where
  frameSize : Nat
  remaining : List UInt8
  positive : 0 < frameSize

inductive Next where
  | frame (frame : Frame) (later : ChunkReader)
  | eof
  | failed (err : GoError)

inductive NextCall where
  | read | seek

theorem defaultFrameSize_pos : 0 < defaultFrameSize := by decide

def newChunkReader (ds : DiskStore) (fault : Option GoError) (chunkId : GoString) (frameSize : Int)
    (disk : Disk) : Except GoError ChunkReader :=
  if chunkId = [] then .error errInvalidChunkId
  else if ds.exists_ chunkId disk = false then .error errChunkNotFound
  else do
    let absChunkPath ← ds.pathForChunk chunkId
    unlessFault fault
    match disk.files.read absChunkPath with
    | none => .error errNotExist
    | some content =>
      if given : 0 < frameSize then .ok ⟨frameSize.toNat, content, Int.pos_iff_toNat_pos.mp given⟩
      else .ok ⟨defaultFrameSize, content, defaultFrameSize_pos⟩

namespace ChunkReader

/-- `Next` reads one byte beyond the frame to see whether the file goes on, and steps back. -/
def next (cr : ChunkReader) (faults : Faults NextCall) : Next :=
  match faults .read with
  | some err => .failed err
  | none =>
    let buf := cr.remaining.take (cr.frameSize + 1)
    let n := buf.length
    if n = 0 then .eof
    else
      let isLast := decide (n ≤ cr.frameSize)
      let data := buf.take (min n cr.frameSize)
      match isLast, faults .seek with
      | true, _ =>
        .frame ⟨data, Sha256.sum256 data, isLast⟩ { cr with remaining := cr.remaining.drop n }
      | false, some err => .failed err
      | false, none =>
        .frame ⟨data, Sha256.sum256 data, isLast⟩ { cr with remaining := cr.remaining.drop (n - 1) }

variable {cr later : ChunkReader} {faults : Faults NextCall} {frame : Frame}

theorem next_eq_frame (read : cr.next faults = .frame frame later) :
    cr.remaining ≠ [] ∧ frame.data ++ later.remaining = cr.remaining ∧
      later.remaining.length < cr.remaining.length ∧ (frame.isLast = true ↔ later.remaining = []) := by
  have positive := cr.positive
  unfold next at read
  cases readFault : faults .read with
  | some err => simp [readFault] at read
  | none =>
    simp only [readFault, List.length_take] at read
    split at read
    · cases read
    · rename_i some
      have present : cr.remaining ≠ [] := by
        intro empty
        simp [empty] at some
      have length : 0 < cr.remaining.length := List.length_pos_iff.mpr present
      by_cases last : min (cr.frameSize + 1) cr.remaining.length ≤ cr.frameSize
      · have ends : cr.remaining.length ≤ cr.frameSize := by omega
        simp only [last, decide_true] at read
        cases read
        have whole : cr.remaining.take (cr.frameSize + 1) = cr.remaining := List.take_of_length_le (by omega)
        have behind : min (cr.frameSize + 1) cr.remaining.length = cr.remaining.length := by omega
        simp [whole, behind, ends, present, length]
      · have going : cr.frameSize < cr.remaining.length := by omega
        simp only [last, decide_false] at read
        cases seekFault : faults .seek with
        | some err => simp [seekFault] at read
        | none =>
          simp only [seekFault] at read
          cases read
          have part : min (min (cr.frameSize + 1) cr.remaining.length) cr.frameSize = cr.frameSize := by omega
          have behind : min (cr.frameSize + 1) cr.remaining.length - 1 = cr.frameSize := by omega
          refine ⟨present, ?_, ?_, ?_⟩
          · simp [part, behind, List.take_take]
          · simp only [behind, List.length_drop]
            omega
          · simp only [behind, List.drop_eq_nil_iff, Bool.false_eq_true, false_iff, not_le]
            exact going

theorem next_eq_eof (read : cr.next faults = .eof) : cr.remaining = [] := by
  unfold next at read
  split at read
  · cases read
  · simp only [List.length_take] at read
    split at read
    · rename_i none
      have positive := cr.positive
      exact List.length_eq_zero_iff.mp (by omega)
    · split at read <;> cases read

theorem next_reliable (cr : ChunkReader) :
    cr.next (fun _ => none) = .eof ∨ ∃ frame later, cr.next (fun _ => none) = .frame frame later := by
  simp only [next]
  split
  · exact .inl rfl
  · split
    · exact .inr ⟨_, _, rfl⟩
    · rename_i fault
      cases fault
    · exact .inr ⟨_, _, rfl⟩

end ChunkReader

theorem newChunkReader_of_read {ds : DiskStore} {chunkId : GoString} {disk : Disk} {content : List UInt8}
    (reads : ds.read none chunkId disk = .ok content) (frameSize : Int) :
    ∃ cr, cr.remaining = content ∧
      ∀ fault, newChunkReader ds fault chunkId frameSize disk = fault.elim (.ok cr) .error := by
  obtain ⟨p, path, listed, present⟩ := read_eq_ok reads
  have valid := pathForChunk_valid path
  have named : chunkId ≠ [] := by
    intro empty
    simp [validateChunkId, empty] at valid
  have opened : newChunkReader ds none chunkId frameSize disk =
      if given : 0 < frameSize then .ok ⟨frameSize.toNat, content, Int.pos_iff_toNat_pos.mp given⟩
      else .ok ⟨defaultFrameSize, content, defaultFrameSize_pos⟩ := by
    simp only [newChunkReader, named, if_false, exists_of_valid valid, listed, Bool.true_eq_false, path]
    show (match disk.files.read p with
      | none => Except.error errNotExist
      | some content => _) = _
    rw [present]
  have reader : ∃ cr, cr.remaining = content ∧ newChunkReader ds none chunkId frameSize disk = .ok cr := by
    rw [opened]
    split
    · exact ⟨_, rfl, rfl⟩
    · exact ⟨_, rfl, rfl⟩
  obtain ⟨cr, whole, opened⟩ := reader
  refine ⟨cr, whole, ?_⟩
  intro fault
  cases fault with
  | none => exact opened
  | some err =>
    simp only [newChunkReader, named, if_false, exists_of_valid valid, listed, Bool.true_eq_false, path]
    rfl

end DistributedFs.Storage
