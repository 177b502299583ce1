import DistributedFs.Storage.ChunkReader
import DistributedFs.Storage.PutChunk
import Mathlib.Algebra.Order.Floor.Div

namespace DistributedFs.Storage

open Go Server DiskStore

structure OpenFile where
  content : List UInt8
  offset : Nat

namespace OpenFile

def read (f : OpenFile) (length : Nat) : List UInt8 × OpenFile :=
  let buf := (f.content.drop f.offset).take length
  (buf, { f with offset := f.offset + buf.length })

def seekCurrent (f : OpenFile) (delta : Int) : Except GoError OpenFile :=
  if (f.offset : Int) + delta < 0 then .error (.new "invalid argument")
  else .ok { f with offset := ((f.offset : Int) + delta).toNat }

end OpenFile

structure FileReader where
  frameSize : Nat
  file : OpenFile
  positive : 0 < frameSize

inductive FrameRead where
  | frame (frame : Frame) (later : FileReader)
  | eof
  | failed (err : GoError)

namespace FileReader

def opened (cr : ChunkReader) : FileReader := ⟨cr.frameSize, ⟨cr.remaining, 0⟩, cr.positive⟩

def next (cr : FileReader) (faults : Faults NextCall) : FrameRead :=
  match faults .read with
  | some err => .failed err
  | none =>
    let (buf, file) := cr.file.read (cr.frameSize + 1)
    let n := buf.length
    if n = 0 then .eof
    else
      let isLast := decide (n ≤ cr.frameSize)
      let data := buf.take (min n cr.frameSize)
      match isLast, faults .seek with
      | true, _ => .frame ⟨data, Sha256.sum256 data, isLast⟩ { cr with file := file }
      | false, some err => .failed err
      | false, none =>
        match file.seekCurrent (-1) with
        | .error err => .failed err
        | .ok file => .frame ⟨data, Sha256.sum256 data, isLast⟩ { cr with file := file }

def view (cr : FileReader) : ChunkReader :=
  ⟨cr.frameSize, cr.file.content.drop cr.file.offset, cr.positive⟩

end FileReader

def FrameRead.view : FrameRead → Next
  | .frame given later => .frame given later.view
  | .eof => .eof
  | .failed err => .failed err

theorem FileReader.next_view (cr : FileReader) (faults : Faults NextCall) :
    (cr.next faults).view = cr.view.next faults := by
  unfold next ChunkReader.next
  cases faults .read with
  | some err => rfl
  | none =>
    simp only [OpenFile.read, view]
    by_cases consumed : ((cr.file.content.drop cr.file.offset).take (cr.frameSize + 1)).length = 0
    · simp only [consumed, if_true, FrameRead.view]
    · simp only [consumed, if_false]
      by_cases last : ((cr.file.content.drop cr.file.offset).take (cr.frameSize + 1)).length ≤ cr.frameSize
      · simp only [last, decide_true, FrameRead.view, view, List.drop_drop]
      · simp only [last, decide_false]
        cases faults .seek with
        | some err => rfl
        | none =>
          -- the seek undoes the byte read ahead
          have back (n : Nat) (some : n ≠ 0) :
              ((cr.file.offset + n : ℕ) : Int) + -1 = (cr.file.offset + (n - 1) : ℕ) := by omega
          simp only [OpenFile.seekCurrent, back _ consumed, Int.toNat_natCast]
          rw [if_neg (by omega)]
          simp only [FrameRead.view, view, List.drop_drop]

namespace FileReader

variable {cr later : FileReader} {faults : Faults NextCall} {frame : Frame}

theorem next_frame (read : cr.next faults = .frame frame later) :
    cr.view.next faults = .frame frame later.view := by
  rw [← next_view, read]
  rfl

theorem next_of_view_frame {ahead : ChunkReader} (read : cr.view.next faults = .frame frame ahead) :
    ∃ later, cr.next faults = .frame frame later ∧ later.view = ahead := by
  rw [← next_view] at read
  cases given : cr.next faults with
  | eof | failed =>
    rw [given] at read
    cases read
  | frame frame later =>
    rw [given] at read
    cases read
    exact ⟨later, rfl, rfl⟩

theorem next_of_view_eof (read : cr.view.next faults = .eof) : cr.next faults = .eof := by
  rw [← next_view] at read
  cases given : cr.next faults with
  | eof => rfl
  | failed | frame =>
    rw [given] at read
    cases read

end FileReader

structure GetEnv where
  openFile : Option GoError
  next : Nat → Faults NextCall
  send : Nat → Option GoError

namespace StorageServer

def streamFrames (env : GetEnv) (reader : FileReader) (k : Nat) : List Frame × Option RpcError × FileReader :=
  match read : reader.next (env.next k) with
  | .eof => ([], none, reader)
  | .failed _ => ([], some (internal "error reading chunk data"), reader)
  | .frame frame later =>
    match env.send k with
    | some _ => ([], some (internal "failed to send chunk frame"), later)
    | none =>
      if frame.isLast then ([frame], none, later)
      else
        have : later.view.remaining.length < reader.view.remaining.length :=
          (ChunkReader.next_eq_frame (FileReader.next_frame read)).2.2.1
        let rest := streamFrames env later (k + 1)
        (frame :: rest.1, rest.2)
termination_by reader.view.remaining.length

def notFound (message : String) : RpcError := { code := .notFound, message := message }

def getChunk (server : StorageServer) (env : GetEnv) (chunkId : String) (disk : Disk) :
    List Frame × Option RpcError :=
  if chunkId = "" then ([], some (invalidArgument "chunk_id must not be empty"))
  else if server.store.exists_ (bytes chunkId) disk = false then ([], some (notFound "chunk not found"))
  else
    match newChunkReader server.store env.openFile (bytes chunkId) 0 disk with
    | .error err =>
      if err = errChunkNotFound then ([], some (notFound "chunk not found"))
      else ([], some (internal "failed to open chunk for reading"))
    | .ok reader =>
      let sent := streamFrames env (.opened reader) 0
      (sent.1, sent.2.1)

end StorageServer

theorem ChunkReader.next_empty {cr : ChunkReader} (consumed : cr.remaining = []) :
    cr.next (fun _ => none) = .eof := by
  simp [next, consumed]

theorem ChunkReader.next_last {cr : ChunkReader} (some : cr.remaining ≠ [])
    (fits : cr.remaining.length ≤ cr.frameSize) :
    cr.next (fun _ => none) =
      .frame ⟨cr.remaining, Sha256.sum256 cr.remaining, true⟩ { cr with remaining := [] } := by
  have whole : cr.remaining.take (cr.frameSize + 1) = cr.remaining := List.take_of_length_le (by omega)
  have data : cr.remaining.take (min cr.remaining.length cr.frameSize) = cr.remaining :=
    List.take_of_length_le (by omega)
  simp [next, whole, some, fits]

theorem ChunkReader.next_more {cr : ChunkReader} (more : cr.frameSize < cr.remaining.length) :
    cr.next (fun _ => none) =
      .frame ⟨cr.remaining.take cr.frameSize, Sha256.sum256 (cr.remaining.take cr.frameSize), false⟩
        { cr with remaining := cr.remaining.drop cr.frameSize } := by
  have length : (cr.remaining.take (cr.frameSize + 1)).length = cr.frameSize + 1 := by
    rw [List.length_take]
    omega
  have data : (cr.remaining.take (cr.frameSize + 1)).take cr.frameSize = cr.remaining.take cr.frameSize := by
    rw [List.take_take]
    congr 1
    omega
  have smaller : min (cr.frameSize + 1) cr.frameSize = cr.frameSize := by omega
  have going : decide (cr.frameSize + 1 ≤ cr.frameSize) = false := by simp
  simp only [next, length, going, smaller, data, Nat.add_one_ne_zero, if_false, Nat.add_sub_cancel]

structure Framed (content : List UInt8) (frameSize : Nat) (frames : List Frame) (last : Frame) : Prop where
  count : (frames ++ [last]).length = content.length ⌈/⌉ frameSize
  joined : (frames ++ [last]).flatMap Frame.data = content
  full : ∀ f ∈ frames, f.data.length = frameSize ∧ f.isLast = false
  rest : 1 ≤ last.data.length ∧ last.data.length ≤ frameSize ∧ last.isLast = true
  checksums : ∀ f ∈ frames ++ [last], f.checksum = Sha256.sum256 f.data

theorem Framed.one {content : List UInt8} {frameSize : Nat} (some : content ≠ [])
    (fits : content.length ≤ frameSize) : Framed content frameSize [] ⟨content, Sha256.sum256 content, true⟩ := by
  have length : 0 < content.length := List.length_pos_iff.mpr some
  refine ⟨?_, by simp, by simp, ⟨length, fits, rfl⟩, by simp⟩
  rw [Nat.ceilDiv_eq_add_pred_div, Nat.div_eq_of_lt_le (k := 1)]
  · rfl
  · omega
  · omega

theorem Framed.cons {content : List UInt8} {frameSize : Nat} (positive : 0 < frameSize)
    (more : frameSize < content.length) {frames : List Frame} {last : Frame}
    (framed : Framed (content.drop frameSize) frameSize frames last) :
    Framed content frameSize
      (⟨content.take frameSize, Sha256.sum256 (content.take frameSize), false⟩ :: frames) last := by
  refine ⟨?_, ?_, ?_, framed.rest, ?_⟩
  · rw [List.cons_append, List.length_cons, framed.count, List.length_drop, Nat.ceilDiv_eq_add_pred_div,
      Nat.ceilDiv_eq_add_pred_div, ← Nat.add_div_right _ positive]
    congr 1
    omega
  · rw [List.cons_append, List.flatMap_cons, framed.joined]
    exact List.take_append_drop frameSize content
  · intro f member
    rcases List.mem_cons.mp member with rfl | member
    · exact ⟨by simp; omega, rfl⟩
    · exact framed.full f member
  · intro f member
    rw [List.cons_append] at member
    rcases List.mem_cons.mp member with rfl | member
    · rfl
    · exact framed.checksums f member

namespace StorageServer

def reliable : GetEnv := ⟨none, fun _ _ => none, fun _ => none⟩

theorem streamFrames_eq (env : GetEnv) (reader : FileReader) (k : Nat) :
    streamFrames env reader k =
      match reader.next (env.next k) with
      | .eof => ([], none, reader)
      | .failed _ => ([], some (internal "error reading chunk data"), reader)
      | .frame frame later =>
        match env.send k with
        | some _ => ([], some (internal "failed to send chunk frame"), later)
        | none =>
          if frame.isLast then ([frame], none, later)
          else (frame :: (streamFrames env later (k + 1)).1, (streamFrames env later (k + 1)).2) := by
  rw [streamFrames]
  split <;> rename_i read <;> simp only [read]

theorem streamFrames_framed (reader : FileReader) (k : Nat) (some : reader.view.remaining ≠ []) :
    ∃ frames last later, streamFrames reliable reader k = (frames ++ [last], none, later) ∧
      Framed reader.view.remaining reader.frameSize frames last ∧ later.next (fun _ => none) = .eof := by
  -- on the number of bytes ahead, which every frame lowers
  generalize length : reader.view.remaining.length = n
  induction n using Nat.strong_induction_on generalizing reader k with
  | _ n ih =>
    have quiet : reliable.next k = fun _ => none := rfl
    have sent : reliable.send k = none := rfl
    rw [streamFrames_eq, quiet, sent]
    by_cases fits : reader.view.remaining.length ≤ reader.view.frameSize
    · obtain ⟨later, read, ahead⟩ := FileReader.next_of_view_frame (ChunkReader.next_last some fits)
      have consumed : later.view.remaining = [] := by rw [ahead]
      refine ⟨[], _, later, by simp only [read, if_true]; rfl, Framed.one some fits, ?_⟩
      exact FileReader.next_of_view_eof (ChunkReader.next_empty consumed)
    · have more : reader.view.frameSize < reader.view.remaining.length := by omega
      obtain ⟨later, read, ahead⟩ := FileReader.next_of_view_frame (ChunkReader.next_more more)
      have behind : later.view.remaining = reader.view.remaining.drop reader.view.frameSize := by rw [ahead]
      have size : later.frameSize = reader.frameSize := congrArg ChunkReader.frameSize ahead
      have left : later.view.remaining.length = reader.view.remaining.length - reader.view.frameSize := by
        rw [behind, List.length_drop]
      have shorter : later.view.remaining.length < n := by
        have positive := reader.view.positive
        omega
      have nonempty : later.view.remaining ≠ [] := by
        intro consumed
        rw [consumed, List.length_nil] at left
        omega
      obtain ⟨frames, last, final, streamed, framed, ended⟩ := ih _ shorter later (k + 1) nonempty rfl
      rw [behind, size] at framed
      refine ⟨_ :: frames, last, final, ?_, framed.cons reader.positive more, ended⟩
      simp only [read, streamed, Bool.false_eq_true, if_false, List.cons_append]
      rfl

theorem streamFrames_ok {env : GetEnv} {reader later : FileReader} {k : Nat} {frames : List Frame}
    (streamed : streamFrames env reader k = (frames, none, later)) :
    frames.flatMap Frame.data = reader.view.remaining := by
  generalize length : reader.view.remaining.length = n
  induction n using Nat.strong_induction_on generalizing reader k frames with
  | _ n ih =>
    rw [streamFrames_eq] at streamed
    cases read : reader.next (env.next k) with
    | failed err =>
      rw [read] at streamed
      cases streamed
    | eof =>
      have consumed := reader.next_view (env.next k)
      rw [read] at streamed consumed
      cases streamed
      exact (ChunkReader.next_eq_eof consumed.symm).symm
    | frame frame next =>
      obtain ⟨_, joined, shorter, ends⟩ := ChunkReader.next_eq_frame (FileReader.next_frame read)
      rw [read] at streamed
      cases sent : env.send k with
      | some err =>
        simp only [sent] at streamed
        cases streamed
      | none =>
        simp only [sent] at streamed
        by_cases last : frame.isLast = true
        · simp only [last, if_true] at streamed
          cases streamed
          rw [← joined, ends.mp last]
          simp
        · simp only [last, Bool.false_eq_true, if_false] at streamed
          obtain ⟨rfl, rest⟩ := Prod.mk.inj streamed
          have tail : streamFrames env next (k + 1) = ((streamFrames env next (k + 1)).1, none, later) :=
            Prod.ext rfl rest
          rw [List.flatMap_cons, ih _ (length ▸ shorter) tail rfl, joined]

end StorageServer

/-- The frames of a chunk, read from its start: as many as the content needs, all but the last full
    and unmarked, joined they are the content, and the call after the last one returns EOF. -/
theorem frame_stream {content : List UInt8} (some : content ≠ []) {frameSize : Nat} (positive : 0 < frameSize) :
    ∃ frames last later,
      StorageServer.streamFrames StorageServer.reliable ⟨frameSize, ⟨content, 0⟩, positive⟩ 0 =
        (frames ++ [last], none, later) ∧
      Framed content frameSize frames last ∧ later.next (fun _ => none) = .eof :=
  StorageServer.streamFrames_framed ⟨frameSize, ⟨content, 0⟩, positive⟩ 0 some

theorem frame_stream_three :
    ∃ frames last later,
      StorageServer.streamFrames StorageServer.reliable ⟨2, ⟨[1, 2, 3], 0⟩, by decide⟩ 0 =
        (frames ++ [last], none, later) ∧
      Framed [1, 2, 3] 2 frames last ∧ later.next (fun _ => none) = .eof :=
  frame_stream (by decide) (by decide)

theorem StorageServer.getChunk_of_read {server : StorageServer} {chunkId : String} {disk : Disk}
    {content : List UInt8} (stored : server.store.read none (bytes chunkId) disk = .ok content) :
    ∃ cr : ChunkReader, cr.remaining = content ∧ ∀ env : GetEnv,
      (env.openFile = none → server.getChunk env chunkId disk =
        ((streamFrames env (.opened cr) 0).1, (streamFrames env (.opened cr) 0).2.1)) ∧
      (env.openFile ≠ none → (server.getChunk env chunkId disk).2 ≠ none) := by
  obtain ⟨p, path, listed, _⟩ := read_eq_ok stored
  have valid := pathForChunk_valid path
  have named : chunkId ≠ "" := by
    intro empty
    subst empty
    cases valid
  have present : server.store.exists_ (bytes chunkId) disk = true := by rw [exists_of_valid valid, listed]
  obtain ⟨cr, whole, opens⟩ := newChunkReader_of_read stored 0
  refine ⟨cr, whole, ?_⟩
  intro env
  simp only [getChunk, named, if_false, present, Bool.true_eq_false, opens]
  cases env.openFile with
  | none => exact ⟨fun _ => rfl, fun failed => absurd rfl failed⟩
  | some err =>
    constructor
    · intro opened
      cases opened
    · intro _
      show (if err = errChunkNotFound then _ else _ : List Frame × Option RpcError).2 ≠ none
      split
      · exact Option.some_ne_none _
      · exact Option.some_ne_none _

theorem StorageServer.getChunk_stored {server : StorageServer} {chunkId : String} {disk : Disk}
    {content : List UInt8} (stored : server.store.read none (bytes chunkId) disk = .ok content) :
    (∀ env frames, server.getChunk env chunkId disk = (frames, none) →
      frames.flatMap Frame.data = content) ∧
    (server.getChunk reliable chunkId disk).2 = none := by
  obtain ⟨cr, whole, calls⟩ := getChunk_of_read stored
  constructor
  · intro env frames sent
    by_cases opened : env.openFile = none
    · rw [(calls env).1 opened] at sent
      obtain ⟨rfl, done⟩ := Prod.mk.inj sent
      have loop : streamFrames env (.opened cr) 0 =
          ((streamFrames env (.opened cr) 0).1, none, (streamFrames env (.opened cr) 0).2.2) :=
        Prod.ext rfl (Prod.ext done rfl)
      rw [streamFrames_ok loop]
      exact whole
    · exact absurd (congrArg Prod.snd sent) ((calls env).2 opened)
  · rw [(calls reliable).1 rfl]
    by_cases empty : content = []
    · have consumed : (FileReader.opened cr).view.remaining = [] := whole.trans empty
      have read := FileReader.next_of_view_eof (ChunkReader.next_empty consumed)
      have quiet : reliable.next 0 = fun _ => none := rfl
      rw [streamFrames_eq, quiet, read]
    · have some : (FileReader.opened cr).view.remaining ≠ [] := fun consumed => empty (whole.symm.trans consumed)
      obtain ⟨frames, last, later, streamed, _⟩ := streamFrames_framed _ 0 some
      rw [streamed]

end DistributedFs.Storage
