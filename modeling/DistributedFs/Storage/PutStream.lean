import DistributedFs.Storage.OneWriter
import DistributedFs.Storage.PutChunk

namespace DistributedFs.Storage

open Go Server WeightedMap DiskStore

def PutEnv.quiet (successfulReplicas : List String) : PutEnv :=
  ⟨none, fun _ => none, RenameCall.onPut none, none, fun _ disk => disk, successfulReplicas⟩

def payload (frames : List PutChunkRequest) : List UInt8 := frames.flatMap PutChunkRequest.data

/-- The streams of a whole chunk for which the store has room. -/
structure WellFormed (ds : DiskStore) (m : Contents ds) (frames : List PutChunkRequest) (ending : Ending)
    (chunkId : String) : Prop where
  nonempty : frames ≠ []
  eof : ending = .eof
  valid : ds.validateChunkId (bytes chunkId) = .ok ()
  ids : ∀ frame ∈ frames, frame.chunkId = chunkId
  last : ∀ frame, frames.getLast? = some frame →
    frame.isLast = true ∧ frame.checksum = Sha256.sum256 (payload frames)
  room : total List.length (m.entries.insert (bytes chunkId) (payload frames)) ≤ ds.totalSpace.toNat

/-- Outside the files of chunks, the temporary file of the first frame's chunk is gone and
    every other file is as it was. -/
structure NoTempLeft (ds : DiskStore) (frames : List PutChunkRequest) (before after : Disk) : Prop where
  chunk : ∀ frame p, frames.head? = some frame → ds.tempPath (bytes frame.chunkId) = .ok p →
    after.files.read p = none
  other : ∀ q, (∀ id, ds.pathForChunk id ≠ .ok q) →
    after.files.read q = none ∨ after.files.read q = before.files.read q

inductive Decided {α : Type} (ds : DiskStore) (before : Disk) (m : Contents ds)
    (frames : List PutChunkRequest) (ending : Ending) : Except RpcError α × Disk → Prop where
  | stored (chunkId : String) (formed : WellFormed ds m frames ending chunkId) (later : Contents ds)
    (room : m.put (bytes chunkId) (payload frames) = some later) (result : α) (after : Disk)
    (held : Represents ds after later) (clean : NoTempLeft ds frames before after) :
    Decided ds before m frames ending (.ok result, after)
  | refused (malformed : ∀ chunkId, ¬WellFormed ds m frames ending chunkId) (err : RpcError)
    (after : Disk) (held : Represents ds after m) (clean : NoTempLeft ds frames before after) :
    Decided ds before m frames ending (.error err, after)

variable {ds : DiskStore} {before disk after : Disk} {cw : ChunkWriter} {frames : List PutChunkRequest}

theorem NoTempLeft.of_reads {first : PutChunkRequest} {p : Path} (head : frames.head? = some first)
    (temp : ds.tempPath (bytes first.chunkId) = .ok p)
    (reads : ∀ q, (∀ id, ds.pathForChunk id ≠ .ok q) →
      after.files.read q = if q = p then none else before.files.read q) :
    NoTempLeft ds frames before after where
  chunk frame q found path := by
    cases head.symm.trans found
    cases temp.symm.trans path
    have loose : ∀ id, ds.pathForChunk id ≠ .ok p := by
      intro id chunk
      exact pathForChunk_ne_tempPath chunk temp rfl
    rw [reads p loose, if_pos rfl]
  other q loose := by
    rw [reads q loose]
    by_cases here : q = p
    · rw [if_pos here]
      exact .inl rfl
    · rw [if_neg here]
      exact .inr rfl

theorem Discarded.decided {α : Type} {m : Contents ds} {ending : Ending} {p : Path}
    (discarded : Discarded before after p) (repr : Represents ds before m) {first : PutChunkRequest}
    (head : frames.head? = some first) (temp : ds.tempPath (bytes first.chunkId) = .ok p)
    (malformed : ∀ chunkId, ¬WellFormed ds m frames ending chunkId) (err : RpcError) :
    Decided (α := α) ds before m frames ending (.error err, after) := by
  have temporary : ∀ id, ds.pathForChunk id ≠ .ok p := by
    intro id chunk
    exact pathForChunk_ne_tempPath chunk temp rfl
  exact .refused malformed err after (discarded.represents temporary repr)
    (.of_reads head temp fun q _ => discarded.reads q)

structure Underway (ds : DiskStore) (before disk : Disk) (taken : List PutChunkRequest)
    (receiving : Receiving) : Prop where
  writing : Writing ds before disk receiving.writer
  id : receiving.writer.chunkId = bytes receiving.registeredChunkId
  hashed : receiving.writer.hasher = payload taken
  ids : ∀ frame ∈ taken, frame.chunkId = receiving.registeredChunkId
  started : taken ≠ []

namespace Underway

variable {taken : List PutChunkRequest} {receiving : Receiving} {m : Contents ds} {ending : Ending}

theorem first (underway : Underway ds before disk taken receiving) (reached : taken <+: frames) :
    ∃ first ∈ taken, frames.head? = some first ∧
      ds.tempPath (bytes first.chunkId) = .ok receiving.writer.filepath := by
  obtain ⟨rest, rfl⟩ := reached
  cases taken with
  | nil => exact absurd rfl underway.started
  | cons first others =>
    refine ⟨first, List.mem_cons_self, rfl, ?_⟩
    rw [underway.ids first List.mem_cons_self, ← underway.id]
    exact underway.writing.temp

theorem discarded {α : Type} (underway : Underway ds before disk taken receiving)
    (repr : Represents ds before m) (reached : taken <+: frames) {after : Disk}
    (gone : Discarded before after receiving.writer.filepath)
    (malformed : ∀ chunkId, ¬WellFormed ds m frames ending chunkId) (err : RpcError) :
    Decided (α := α) ds before m frames ending (.error err, after) := by
  obtain ⟨first, _, head, temp⟩ := underway.first reached
  exact gone.decided repr head temp malformed err

theorem finalize (underway : Underway ds before disk taken receiving) (repr : Represents ds before m)
    (short : (payload taken).length < 2 ^ 63) {lastFrame : PutChunkRequest}
    (last : taken.getLast? = some lastFrame) (marked : lastFrame.isLast = true) {α : Type} (result : α)
    (failure : RpcError) :
    Decided ds before m taken .eof
      (match receiving.writer.finalize ds (RenameCall.onPut none) none lastFrame.checksum disk with
        | ((_, disk), some _) => (.error failure, disk)
        | ((_, disk), none) => (.ok result, disk)) := by
  have writing := underway.writing
  have computed : receiving.writer.computedChecksum = Sha256.sum256 (payload taken) := by
    rw [ChunkWriter.computedChecksum, underway.hashed]
  by_cases matched : receiving.writer.computedChecksum = lastFrame.checksum
  · have small : receiving.writer.hasher.length < 2 ^ 64 := by
      rw [underway.hashed]
      omega
    have outcome := writing.finalize repr small
    rw [underway.id, underway.hashed, matched] at outcome
    rcases outcome with ⟨full, later, after, err, ran, gone⟩ | ⟨m', later, after, room, ran, held, reads⟩
    · rw [ran]
      refine underway.discarded repr (List.prefix_refl _) gone ?_ failure
      intro chunkId formed
      have same : receiving.registeredChunkId = chunkId := by
        obtain ⟨first, member, _⟩ := underway.first (List.prefix_refl _)
        exact (underway.ids first member).symm.trans (formed.ids first member)
      have fits := formed.room
      rw [← same] at fits
      have exceeds := BoundedMap.put_eq_none.mp full
      omega
    · rw [ran]
      obtain ⟨first, member, head, temp⟩ := underway.first (List.prefix_refl _)
      have valid : ds.validateChunkId (bytes receiving.registeredChunkId) = .ok () := by
        have temp := writing.temp
        rw [underway.id] at temp
        obtain ⟨_, valid, _⟩ := bind_eq_ok temp
        exact valid
      refine .stored receiving.registeredChunkId ⟨underway.started, rfl, valid, underway.ids, ?_, ?_⟩ m' room
        result after held (.of_reads head temp reads)
      · intro frame found
        cases last.symm.trans found
        exact ⟨marked, matched.symm.trans computed⟩
      · by_cases fits : total List.length
            (m.entries.insert (bytes receiving.registeredChunkId) (payload taken)) ≤ ds.totalSpace.toNat
        · exact fits
        · rw [BoundedMap.put_eq_none.mpr (by omega)] at room
          cases room
  · obtain ⟨later, after, err, ran, gone⟩ := writing.finalize_mismatch matched
    rw [ran]
    refine underway.discarded repr (List.prefix_refl _) gone ?_ failure
    intro chunkId formed
    exact matched (computed.trans (formed.last lastFrame last).2.symm)

end Underway

namespace StorageServer

variable {server : StorageServer} {taken : List PutChunkRequest} {receiving : Receiving}
  {m : Contents server.store} {ending : Ending}

theorem endStream_decided (underway : Underway server.store before disk taken receiving)
    (repr : Represents server.store before m) (short : (payload taken).length < 2 ^ 63)
    (replicas : List String) : Decided server.store before m taken ending
      (server.endStream (.quiet replicas) ending (some receiving) taken.getLast? disk) := by
  cases ending with
  | broken =>
    refine underway.discarded repr (List.prefix_refl _) underway.writing.abort ?_ _
    intro chunkId formed
    cases formed.eof
  | eof =>
    cases last : taken.getLast? with
    | none => exact absurd (List.getLast?_eq_none_iff.mp last) underway.started
    | some lastFrame =>
      simp only [endStream]
      by_cases open_ : lastFrame.isLast = false
      · rw [if_pos open_]
        refine underway.discarded repr (List.prefix_refl _) underway.writing.abort ?_ _
        intro chunkId formed
        cases open_.symm.trans (formed.last lastFrame last).1
      · rw [if_neg open_]
        have marked : lastFrame.isLast = true := by simpa using open_
        exact underway.finalize repr short last marked (receiving, lastFrame)
          (internal "failed to finalize chunk")

theorem takeFrame_underway (underway : Underway server.store before disk taken receiving)
    (replicas : List String) (k : Nat) (frame : PutChunkRequest) :
    (frame.chunkId ≠ receiving.registeredChunkId ∧
      server.takeFrame (.quiet replicas) k frame (some receiving) disk =
        (.error (invalidArgument "chunk-id mismatch across frames"),
          (receiving.writer.abort none disk).2)) ∨
    ∃ later after, server.takeFrame (.quiet replicas) k frame (some receiving) disk = (.ok later, after) ∧
      Underway server.store before after (taken ++ [frame]) later := by
  simp only [takeFrame, openWriter]
  by_cases other : receiving.registeredChunkId ≠ frame.chunkId
  · rw [if_pos other]
    exact .inl ⟨other.symm, rfl⟩
  · rw [if_neg other]
    have same : receiving.registeredChunkId = frame.chunkId := not_not.mp other
    obtain ⟨later, after, written, writing, id, _, hashed⟩ := underway.writing.write frame.data
    refine .inr ⟨{ receiving with writer := later }, after, ?_, writing, id.trans underway.id, ?_, ?_, ?_⟩
    · simp only [PutEnv.quiet, written]
    · rw [hashed, underway.hashed]
      simp [payload]
    · intro taken' member
      rcases List.mem_append.mp member with member | member
      · exact underway.ids taken' member
      · cases List.mem_singleton.mp member
        exact same.symm
    · simp

theorem receive_decided (replicas : List String) (rest : List PutChunkRequest) :
    ∀ {taken : List PutChunkRequest} {receiving : Receiving} {disk : Disk} (k : Nat),
      Underway server.store before disk taken receiving → Represents server.store before m →
      (payload (taken ++ rest)).length < 2 ^ 63 → Decided server.store before m (taken ++ rest) ending
        (server.receive (.quiet replicas) ending rest k (some receiving) taken.getLast? disk) := by
  induction rest with
  | nil =>
    intro taken receiving disk k underway repr short
    rw [List.append_nil] at short ⊢
    exact endStream_decided underway repr short replicas
  | cons frame rest ih =>
    intro taken receiving disk k underway repr short
    have quiet : (PutEnv.quiet replicas).others k disk = disk := rfl
    rw [receive, quiet]
    rcases takeFrame_underway underway replicas k frame with ⟨other, ended⟩ | ⟨later, after, took, going⟩
    · rw [ended]
      refine underway.discarded repr (List.prefix_append _ _) underway.writing.abort ?_ _
      intro chunkId formed
      obtain ⟨first, member, _⟩ := underway.first (List.prefix_refl taken)
      apply other
      rw [formed.ids frame (by simp), ← underway.ids first member,
        formed.ids first (List.mem_append_left _ member)]
    · rw [took]
      have whole : taken ++ frame :: rest = taken ++ [frame] ++ rest := by simp
      rw [whole] at short ⊢
      have last : (taken ++ [frame]).getLast? = some frame := by simp
      rw [← last]
      exact ih (k + 1) going repr short

theorem takeFrame_first {frame : PutChunkRequest}
    (valid : server.store.validateChunkId (bytes frame.chunkId) = .ok ()) (replicas : List String) (k : Nat)
    (disk : Disk) : ∃ receiving after,
      server.takeFrame (.quiet replicas) k frame none disk = (.ok receiving, after) ∧
        Underway server.store disk after [frame] receiving := by
  obtain ⟨cw, opened, created, writing, id, hashed⟩ := newChunkWriter_valid valid disk
  obtain ⟨later, after, written, held, kept, _, taken⟩ := writing.write frame.data
  refine ⟨⟨later, frame.chunkId, frame.replicateTo.filter (· ≠ "")⟩, after, ?_, held, kept.trans id, ?_, ?_, ?_⟩
  · simp only [takeFrame, openWriter, PutEnv.quiet, created, ne_eq, not_true_eq_false, if_false, written]
  · rw [taken, hashed]
    simp [payload]
  · intro other member
    cases List.mem_singleton.mp member
    rfl
  · simp

theorem receive_decided_start (repr : Represents server.store disk m) (replicas : List String)
    (frames : List PutChunkRequest) (ending : Ending) (short : (payload frames).length < 2 ^ 63) :
    Decided server.store disk m frames ending
      (server.receive (.quiet replicas) ending frames 0 none none disk) := by
  have untouched (frames : List PutChunkRequest)
      (none : ∀ frame p, frames.head? = some frame → server.store.tempPath (bytes frame.chunkId) ≠ .ok p) :
      NoTempLeft server.store frames disk disk :=
    ⟨fun frame p head temp => absurd temp (none frame p head), fun _ _ => .inr rfl⟩
  cases frames with
  | nil =>
    have malformed : ∀ chunkId, ¬WellFormed server.store m [] ending chunkId :=
      fun _ formed => formed.nonempty rfl
    have clean := untouched [] nofun
    cases ending with
    | broken => exact .refused malformed _ disk repr clean
    | eof => exact .refused malformed _ disk repr clean
  | cons frame rest =>
    have quiet : (PutEnv.quiet replicas).others 0 disk = disk := rfl
    rw [receive, quiet]
    rcases server.store.validateChunkId_cases (bytes frame.chunkId) with valid | invalid
    · obtain ⟨receiving, after, took, underway⟩ := takeFrame_first valid replicas 0 disk
      rw [took]
      exact receive_decided replicas rest 1 underway repr short
    · have refused : server.takeFrame (.quiet replicas) 0 frame none disk =
          (.error (internal "failed to initialise chunk writer"), disk) := by
        simp only [takeFrame, openWriter, newChunkWriter_invalid invalid]
      rw [refused]
      refine .refused ?_ _ disk repr (untouched _ ?_)
      · intro chunkId formed
        have valid := formed.valid
        rw [← formed.ids frame List.mem_cons_self, invalid] at valid
        cases valid
      · intro first p head temp
        cases head
        rw [tempPath_invalid invalid] at temp
        cases temp

theorem putChunk_decided (repr : Represents server.store disk m) (replicas : List String)
    (frames : List PutChunkRequest) (ending : Ending) (short : (payload frames).length < 2 ^ 63) :
    Decided server.store disk m frames ending (server.putChunk (.quiet replicas) frames ending disk) := by
  have received := receive_decided_start repr replicas frames ending short
  unfold putChunk
  generalize server.receive (.quiet replicas) ending frames 0 none none disk = outcome at received
  cases received with
  | stored chunkId formed later room result after held clean =>
    exact .stored chunkId formed later room _ after held clean
  | refused malformed err after held clean => exact .refused malformed err after held clean

end StorageServer

/-- `PutChunk` succeeds exactly on the well-formed streams, whose content it stores under their
    id; after any other stream the store holds what it held, and no temporary file is left. -/
theorem putChunk_accepts_wellFormed (server : StorageServer) (disk : Disk) (m : Contents server.store)
    (repr : Represents server.store disk m) (replicas : List String) (frames : List PutChunkRequest)
    (ending : Ending) (short : (payload frames).length < 2 ^ 63) :
    ((∃ commit, (server.putChunk (.quiet replicas) frames ending disk).1 = .ok commit) ↔
        ∃ chunkId, WellFormed server.store m frames ending chunkId) ∧
      (∀ chunkId, WellFormed server.store m frames ending chunkId →
        ∃ later, m.put (bytes chunkId) (payload frames) = some later ∧
          Represents server.store (server.putChunk (.quiet replicas) frames ending disk).2 later) ∧
      ((∀ chunkId, ¬WellFormed server.store m frames ending chunkId) →
        Represents server.store (server.putChunk (.quiet replicas) frames ending disk).2 m) ∧
      NoTempLeft server.store frames disk (server.putChunk (.quiet replicas) frames ending disk).2 := by
  have decided := StorageServer.putChunk_decided repr replicas frames ending short
  generalize server.putChunk (.quiet replicas) frames ending disk = outcome at decided
  cases decided with
  | stored chunkId formed later room commit after held clean =>
    refine ⟨⟨fun _ => ⟨chunkId, formed⟩, fun _ => ⟨commit, rfl⟩⟩, ?_, ?_, clean⟩
    · intro other same
      have equal : other = chunkId := by
        cases frames with
        | nil => exact absurd rfl formed.nonempty
        | cons first rest =>
          exact (same.ids first List.mem_cons_self).symm.trans (formed.ids first List.mem_cons_self)
      subst equal
      exact ⟨later, room, held⟩
    · intro malformed
      exact absurd formed (malformed chunkId)
  | refused malformed err after held clean =>
    refine ⟨⟨?_, ?_⟩, ?_, fun _ => held, clean⟩
    · intro accepted
      obtain ⟨commit, same⟩ := accepted
      cases same
    · intro accepted
      obtain ⟨chunkId, formed⟩ := accepted
      exact absurd formed (malformed chunkId)
    · intro chunkId formed
      exact absurd formed (malformed chunkId)

def loneServer : StorageServer := ⟨"node-1", store, false, false⟩

def loneFrame : PutChunkRequest := ⟨"ef34ab", "file-1", [], [9], Sha256.sum256 [9], true⟩

def twoFrames : List PutChunkRequest :=
  [⟨"ab12cd", "file-1", [], [1, 2], [], false⟩, ⟨"ab12cd", "", [], [3], Sha256.sum256 [1, 2, 3], true⟩]

theorem loneFrame_wellFormed : WellFormed store BoundedMap.empty [loneFrame] .eof "ef34ab" where
  nonempty := by simp
  eof := rfl
  valid := rfl
  ids := by decide
  last := by decide +kernel
  room := by decide +kernel

theorem twoFrames_wellFormed {m : Contents store} (held : m.entries = Finmap.singleton (bytes "ef34ab") [9]) :
    WellFormed store m twoFrames .eof "ab12cd" where
  nonempty := by simp [twoFrames]
  eof := rfl
  valid := rfl
  ids := by decide
  last := by decide +kernel
  room := by
    rw [held]
    decide +kernel

theorem putChunk_accepts_wellFormed_twoFrames : ∃ m later,
    let disk := (loneServer.putChunk (.quiet []) [loneFrame] .eof emptyDisk).2
    Represents store disk m ∧ m.put (bytes "ab12cd") [1, 2, 3] = some later ∧
      (∃ commit, (loneServer.putChunk (.quiet []) twoFrames .eof disk).1 = .ok commit) ∧
      Represents store (loneServer.putChunk (.quiet []) twoFrames .eof disk).2 later ∧
      Represents store (loneServer.putChunk (.quiet []) twoFrames .broken disk).2 m := by
  obtain ⟨-, stores, -⟩ := putChunk_accepts_wellFormed loneServer emptyDisk BoundedMap.empty
    (Represents.fresh store .empty) [] [loneFrame] .eof (by decide)
  obtain ⟨m, put, held⟩ := stores "ef34ab" loneFrame_wellFormed
  have entries : m.entries = Finmap.singleton (bytes "ef34ab") [9] := by
    cases (BoundedMap.put_of_fits loneFrame_wellFormed.room).symm.trans put
    rfl
  obtain ⟨accepts, stores, -⟩ :=
    putChunk_accepts_wellFormed loneServer _ m held [] twoFrames .eof (by decide)
  obtain ⟨-, -, refuses, -⟩ := putChunk_accepts_wellFormed loneServer _ m held [] twoFrames .broken (by decide)
  have formed := twoFrames_wellFormed entries
  obtain ⟨later, put, stored⟩ := stores "ab12cd" formed
  refine ⟨m, later, held, put, accepts.mpr ⟨_, formed⟩, stored, refuses ?_⟩
  intro chunkId broken
  cases broken.eof

end DistributedFs.Storage
