import DistributedFs.Storage.ChunkReader
import DistributedFs.Storage.ReplicateChunk

namespace DistributedFs.Storage

open Go Server DiskStore

inductive ReplicationError where
  | cancelled (cause : GoError)
  | dial (cause : GoError)
  | openStream (cause : GoError)
  | openReader (cause : GoError)
  | readFrame (cause : GoError)
  | sendFrame (cause : GoError)
  | recvAck (cause : GoError)
  | negativeAck
  | closeSend (cause : GoError)
  | recvFinal (cause : GoError)

inductive Delivery where
  | arrived
  | sendFailed (err : GoError)
  | frameLost (err : GoError)
  | ackLost (err : GoError)

/-- What a call meets on both nodes and between them. If the status of the stream is lost, the
    receiver has seen the sender's half closed, or broken. -/
structure LinkEnv where
  acquire : Option GoError
  dial : Option GoError
  openStream : Option GoError
  openFile : Option GoError
  next : Nat → Faults NextCall
  delivery : Nat → Delivery
  closeSend : Option GoError
  statusLost : Option (Ending × GoError)
  peer : ReplicateEnv

def LinkEnv.beside (others : Option Nat → Disk → Disk) : LinkEnv where
  acquire := none
  dial := none
  openStream := none
  openFile := none
  next _ _ := none
  delivery _ := .arrived
  closeSend := none
  statusLost := none
  peer := .beside others

def LinkEnv.reliable : LinkEnv := .beside fun _ disk => disk

inductive PeerState where
  | serving (incoming : Option Incoming)
  | finished (status : Option RpcError)

def Turn.reply : Turn → Except RpcError ReplicateChunkResponse
  | .acked _ => .ok ReplicateChunk.ack
  | .finished response => .ok response
  | .failed err => .error err

def Turn.state : Turn → PeerState
  | .acked incoming => .serving (some incoming)
  | .finished _ => .finished none
  | .failed err => .finished (some err)

def PeerState.close (env : ReplicateEnv) (ending : Ending) (disk : Disk) :
    PeerState → Option RpcError × Disk
  | .serving incoming => ReplicateChunk.endStream env ending incoming (env.others none disk)
  | .finished status => (status, env.others none disk)

namespace ReplicationManager

def receive (outcome : Turn × Disk) : Option ReplicationError × PeerState × Disk :=
  match outcome.1.reply with
  | .error err => (some (.recvAck (.new err.text)), outcome.1.state, outcome.2)
  | .ok ack => (if ack.ok then none else some .negativeAck, outcome.1.state, outcome.2)

def exchange (peer : DiskStore) (env : LinkEnv) (k : Nat) (request : ReplicateChunkRequest)
    (state : PeerState) (disk : Disk) : Option ReplicationError × PeerState × Disk :=
  match state, env.delivery k with
  | .finished _, _ => (some (.sendFrame (.new "EOF")), state, disk)
  | .serving _, .sendFailed err => (some (.sendFrame err), state, disk)
  | .serving _, .frameLost err => (some (.recvAck err), state, disk)
  | .serving incoming, .ackLost err =>
    match ReplicateChunk.takeFrame peer env.peer k request incoming disk with
    | (turn, disk) => (some (.recvAck err), turn.state, disk)
  | .serving incoming, .arrived =>
    receive (ReplicateChunk.takeFrame peer env.peer k request incoming disk)

/-- The loop of `replicateToSingleNode`, with the peer that answers it. -/
def sendFrames (peer : DiskStore) (env : LinkEnv) (chunkId : String) (reader : ChunkReader) (k : Nat)
    (isFirst : Bool) (state : PeerState) (disk : Disk) : Option ReplicationError × PeerState × Disk :=
  match read : reader.next (env.next k) with
  | .eof => (none, state, disk)
  | .failed err => (some (.readFrame err), state, disk)
  | .frame frame later =>
    match exchange peer env k ⟨chunkId, frame.data, isFirst, frame.isLast⟩ state
      (env.peer.others (some k) disk) with
    | (some err, state, disk) => (some err, state, disk)
    | (none, state, disk) =>
      if frame.isLast then (none, state, disk)
      else
        have : later.remaining.length < reader.remaining.length := (ChunkReader.next_eq_frame read).2.2.1
        sendFrames peer env chunkId later (k + 1) false state disk
termination_by reader.remaining.length

def finish (env : LinkEnv) (state : PeerState) (disk : Disk) : Option ReplicationError × Disk :=
  match env.closeSend, env.statusLost with
  | some err, _ => (some (.closeSend err), (state.close env.peer .broken disk).2)
  | none, some (ending, err) => (some (.recvFinal err), (state.close env.peer ending disk).2)
  | none, none =>
    match state.close env.peer .eof disk with
    | (some err, disk) => (some (.recvFinal (.new err.text)), disk)
    | (none, disk) => (none, disk)

/-- The store of `source` sends the chunk to `peer`; a call that gives up breaks the stream. -/
def replicateToSingleNode (source peer : DiskStore) (env : LinkEnv) (chunkId : String)
    (sourceDisk peerDisk : Disk) : Option ReplicationError × Disk :=
  match env.acquire, env.dial, env.openStream with
  | some err, _, _ => (some (.cancelled err), peerDisk)
  | none, some err, _ => (some (.dial err), peerDisk)
  | none, none, some err => (some (.openStream err), peerDisk)
  | none, none, none =>
    match newChunkReader source env.openFile (bytes chunkId) 0 sourceDisk with
    | .error err =>
      (some (.openReader err), ((PeerState.serving none).close env.peer .broken peerDisk).2)
    | .ok reader =>
      match sendFrames peer env chunkId reader 0 true (.serving none) peerDisk with
      | (some err, state, disk) => (some err, (state.close env.peer .broken disk).2)
      | (none, state, disk) => finish env state disk

end ReplicationManager

structure Copied (source peer : DiskStore) (chunkId : String) (sourceDisk peerDisk : Disk) : Prop where
  reads : peer.read none (bytes chunkId) peerDisk = source.read none (bytes chunkId) sourceDisk
  checksum : peerDisk.checksums.lookup (bytes chunkId) = sourceDisk.checksums.lookup (bytes chunkId)

/-- The store's own tests let `content` in under the id. -/
def HasRoom (ds : DiskStore) (chunkId : String) (content : List UInt8) (disk : Disk) : Prop :=
  ∃ p, ds.pathForChunk (bytes chunkId) = .ok p ∧
    ds.checkSpace disk (UInt64.ofNat content.length) (existingSize none p (bytes chunkId) disk) = .ok ()

structure Holding (ds : DiskStore) (chunkId : String) (content : List UInt8) (disk : Disk) : Prop where
  reads : ds.read none (bytes chunkId) disk = .ok content
  checksum : disk.checksums.lookup (bytes chunkId) = some (Sha256.sum256 content)

structure Spares (ds : DiskStore) (chunkId : String) (before after : Disk) : Prop where
  temporary : ∀ p, ds.tempPath (bytes chunkId) = .ok p → after.files.links p = before.files.links p
  written : ∀ p i, ds.tempPath (bytes chunkId) = .ok p → before.files.links p = some i →
    after.files.inodes i = before.files.inodes i
  stored : ∀ p, ds.pathForChunk (bytes chunkId) = .ok p → after.files.read p = before.files.read p
  checksum : after.checksums.lookup (bytes chunkId) = before.checksums.lookup (bytes chunkId)

def Apart (ds : DiskStore) (chunkId : String) (others : Option Nat → Disk → Disk) : Prop :=
  ∀ k disk, Spares ds chunkId disk (others k disk)

structure Carrying (ds : DiskStore) (disk : Disk) (chunkId : String) (taken : List UInt8)
    (incoming : Incoming) : Prop where
  writing : Writing ds disk disk incoming.writer
  id : incoming.writer.chunkId = bytes chunkId
  hashed : incoming.writer.hasher = taken
  registered : incoming.registeredChunkId = chunkId

inductive Ready (ds : DiskStore) (disk : Disk) (chunkId : String) : Bool → PeerState → List UInt8 → Prop where
  | first : Ready ds disk chunkId true (.serving none) []
  | later {taken : List UInt8} {incoming : Incoming} (carrying : Carrying ds disk chunkId taken incoming) :
    Ready ds disk chunkId false (.serving (some incoming)) taken

def KeepsRoom (ds : DiskStore) (chunkId : String) (before after : Disk) : Prop :=
  ∀ content, HasRoom ds chunkId content before → HasRoom ds chunkId content after

inductive Took (ds : DiskStore) (before : Disk) (chunkId : String) (taken : List UInt8) (last : Bool) :
    Turn × Disk → Prop where
  | failed (err : RpcError) (after : Disk) : Took ds before chunkId taken last (.failed err, after)
  | acked (going : last = false) (incoming : Incoming) (after : Disk)
    (carrying : Carrying ds after chunkId taken incoming) (room : KeepsRoom ds chunkId before after) :
    Took ds before chunkId taken last (.acked incoming, after)
  | stored (ends : last = true) (after : Disk) (holding : Holding ds chunkId taken after) :
    Took ds before chunkId taken last (.finished ⟨true, true, chunkId, Sha256.sum256 taken⟩, after)

theorem Took.rebase {ds : DiskStore} {first before : Disk} {chunkId : String} {taken : List UInt8} {last : Bool}
    {outcome : Turn × Disk} (took : Took ds before chunkId taken last outcome)
    (kept : KeepsRoom ds chunkId first before) : Took ds first chunkId taken last outcome := by
  cases took with
  | failed err after => exact .failed err after
  | acked going incoming after carrying room =>
    exact .acked going incoming after carrying fun content fits => room content (kept content fits)
  | stored ends after holding => exact .stored ends after holding

variable {ds : DiskStore} {before disk after : Disk} {chunkId : String} {taken content : List UInt8}

theorem Ready.serving {isFirst : Bool} {state : PeerState} (ready : Ready ds disk chunkId isFirst state taken) :
    ∃ incoming, state = .serving incoming := by
  cases ready with
  | first => exact ⟨_, rfl⟩
  | later carrying => exact ⟨_, rfl⟩

theorem Writing.here {cw : ChunkWriter} (writing : Writing ds before disk cw) : Writing ds disk disk cw :=
  ⟨writing.temp, writing.live, writing.linked, writing.holds, fun _ _ => rfl, rfl, rfl⟩

theorem Apart.idle (ds : DiskStore) (chunkId : String) : Apart ds chunkId fun _ disk => disk :=
  fun _ _ => ⟨fun _ _ => rfl, fun _ _ _ _ => rfl, fun _ _ => rfl, rfl⟩

namespace Spares

theorem carrying {incoming : Incoming} (spares : Spares ds chunkId disk after)
    (carrying : Carrying ds disk chunkId taken incoming) : Carrying ds after chunkId taken incoming := by
  obtain ⟨writing, id, hashed, registered⟩ := carrying
  have temp := writing.temp
  rw [id] at temp
  have linked := (spares.temporary _ temp).trans writing.linked
  have content := (spares.written _ _ temp writing.linked).trans writing.holds.content
  exact ⟨⟨writing.temp, writing.live, linked, ⟨content, writing.holds.offset⟩, fun _ _ => rfl, rfl, rfl⟩,
    id, hashed, registered⟩

theorem ready {isFirst : Bool} {state : PeerState} (spares : Spares ds chunkId disk after)
    (ready : Ready ds disk chunkId isFirst state taken) : Ready ds after chunkId isFirst state taken := by
  cases ready with
  | first => exact .first
  | later carrying => exact .later (spares.carrying carrying)

theorem holding (spares : Spares ds chunkId disk after) (held : Holding ds chunkId content disk) :
    Holding ds chunkId content after := by
  obtain ⟨p, path, _, present⟩ := read_eq_ok held.reads
  have checksum := spares.checksum.trans held.checksum
  refine ⟨?_, checksum⟩
  rw [read_indexed path (by rw [Disk.indexed, checksum]; rfl), spares.stored p path, present]
  rfl

theorem hasRoom (spares : Spares ds chunkId disk after) (used : after.usedSpace = disk.usedSpace)
    (room : HasRoom ds chunkId content disk) : HasRoom ds chunkId content after := by
  obtain ⟨p, path, room⟩ := room
  refine ⟨p, path, ?_⟩
  simp only [existingSize, Disk.indexed, Disk.stat, spares.checksum, spares.stored p path, checkSpace, used]
    at room ⊢
  exact room

end Spares

theorem Writing.keepsRoom {cw : ChunkWriter} (writing : Writing ds before disk cw) (chunkId : String) :
    KeepsRoom ds chunkId before disk := by
  intro content room
  obtain ⟨p, path, room⟩ := room
  have away : p ≠ cw.filepath := by
    intro same
    subst same
    exact writing.temporary _ path
  refine ⟨p, path, ?_⟩
  simp only [existingSize, Disk.indexed, Disk.stat, writing.checksums, writing.others p away, checkSpace,
    writing.usedSpace] at room ⊢
  exact room

theorem ChunkWriter.write_ok {cw : ChunkWriter} {fault : Option WriteFault} {data : List UInt8} {disk : Disk}
    {written : ChunkWriter × Disk} (ran : cw.write fault data disk = (written, none)) :
    cw.write none data disk = (written, none) := by
  unfold write at ran ⊢
  by_cases done : cw.isDone = true
  · rw [if_pos done] at ran
    cases ran
  · rw [if_neg done] at ran ⊢
    cases fault with
    | none => exact ran
    | some fault => cases fault <;> cases ran

theorem writeData_cases (cw : ChunkWriter) (fault : Option WriteFault) (data : List UInt8) (disk : Disk) :
    (∃ written err, ReplicateChunk.writeData cw fault data disk = (written, some err)) ∨
      ReplicateChunk.writeData cw fault data disk = ReplicateChunk.writeData cw none data disk := by
  unfold ReplicateChunk.writeData
  by_cases present : data.length > 0
  · rw [if_pos present, if_pos present]
    cases ran : cw.write fault data disk with
    | mk written result =>
      cases result with
      | some err => exact .inl ⟨_, _, rfl⟩
      | none => exact .inr (ChunkWriter.write_ok ran).symm
  · rw [if_neg present, if_neg present]
    exact .inr rfl

namespace Carrying

variable {incoming : Incoming}

theorem finalize (carrying : Carrying ds disk chunkId taken incoming) {faults : Faults RenameCall}
    {removeFault : Option GoError} {expected : List UInt8} {later : ChunkWriter} {after : Disk}
    (ran : incoming.writer.finalize ds faults removeFault expected disk = ((later, after), none)) :
    expected = Sha256.sum256 taken ∧ Holding ds chunkId taken after := by
  obtain ⟨_, ended⟩ := ChunkWriter.finalize_cases carrying.writing.live ran
  rcases ended with failed | ⟨renamed, err, moved, ended⟩
  · exact absurd rfl failed.1
  · rcases ended with ⟨_, rfl, matched, rfl⟩ | failed
    · rcases rename_cases moved with failed | ⟨dest, i, linked, path, files, indexed⟩
      · exact absurd rfl failed.2
      · have written : disk.files.inodes i = taken := by
          cases linked.symm.trans carrying.writing.linked
          rw [← carrying.hashed]
          exact carrying.writing.holds.content
        have listed := indexed rfl
        rw [carrying.id] at path listed
        rw [written] at listed
        refine ⟨by rw [← matched, ChunkWriter.computedChecksum, carrying.hashed], ?_, listed⟩
        rw [read_indexed path (by rw [Disk.indexed, listed]; rfl), files, FileSystem.read_move, written]
        rfl
    · exact absurd rfl failed.1

theorem finalize_of_room (carrying : Carrying ds disk chunkId taken incoming)
    (room : HasRoom ds chunkId taken disk) : ∃ later after,
      incoming.writer.finalize ds (RenameCall.onPut none) none incoming.writer.computedChecksum disk =
        ((later, after), none) := by
  obtain ⟨p, path, room⟩ := room
  have writing := carrying.writing
  have found : ds.pathForChunk incoming.writer.chunkId = .ok p := by
    rw [carrying.id]
    exact path
  have present := writing.read
  rw [carrying.hashed] at present
  obtain ⟨files, _, renamed⟩ := rename_eq_install found present
  have moved : ∃ after,
      ds.rename (RenameCall.onPut none) incoming.writer.filepath incoming.writer.chunkId disk =
      (after, none) := by
    rw [renamed none, install, carrying.id, room]
    exact ⟨_, rfl⟩
  obtain ⟨after, moved⟩ := moved
  exact ⟨_, after, ChunkWriter.finalize_renamed writing.live moved⟩

theorem fill (carrying : Carrying ds disk chunkId taken incoming) (env : ReplicateEnv) (k : Nat)
    {frame : ReplicateChunkRequest} (named : frame.chunkId = chunkId) :
    Took ds disk chunkId (taken ++ frame.data) frame.isLast
      (ReplicateChunk.fill ds env k frame incoming disk) := by
  have same : ¬(frame.chunkId ≠ "" ∧ frame.chunkId ≠ incoming.registeredChunkId) := by
    rw [named, carrying.registered]
    simp
  unfold ReplicateChunk.fill
  rw [if_neg same]
  rcases writeData_cases incoming.writer (env.write k) frame.data disk with ⟨written, err, broken⟩ | quiet
  · rw [broken]
    exact .failed _ _
  · obtain ⟨later, after, written, writing, id, _, hashed⟩ := carrying.writing.writeData frame.data
    rw [quiet, written]
    have carried : Carrying ds after chunkId (taken ++ frame.data) ⟨later, chunkId⟩ :=
      ⟨writing.here, id.trans carrying.id, by rw [hashed, carrying.hashed], rfl⟩
    cases last : frame.isLast with
    | false =>
      simp only [Bool.false_eq_true, if_false]
      cases env.send k with
      | some err => exact .failed _ _
      | none =>
        rw [carrying.registered]
        exact .acked rfl _ _ carried (writing.keepsRoom chunkId)
    | true =>
      simp only [if_true]
      generalize ran : later.finalize ds env.rename env.remove later.computedChecksum after = outcome
      obtain ⟨⟨closed, final⟩, result⟩ := outcome
      cases result with
      | some err => exact .failed _ _
      | none =>
        cases env.send k with
        | some err => exact .failed _ _
        | none =>
          rw [carrying.registered, ChunkWriter.computedChecksum, hashed, carrying.hashed]
          exact .stored rfl _ (carried.finalize ran).2

theorem fill_reliable (carrying : Carrying ds disk chunkId taken incoming) (k : Nat)
    {frame : ReplicateChunkRequest} (named : frame.chunkId = chunkId)
    (room : frame.isLast = true → HasRoom ds chunkId (taken ++ frame.data) disk)
    (others : Option Nat → Disk → Disk) (err : RpcError) :
    (ReplicateChunk.fill ds (.beside others) k frame incoming disk).1 ≠ .failed err := by
  have same : ¬(frame.chunkId ≠ "" ∧ frame.chunkId ≠ incoming.registeredChunkId) := by
    rw [named, carrying.registered]
    simp
  obtain ⟨later, after, written, writing, id, _, hashed⟩ := carrying.writing.writeData frame.data
  have quiet : (ReplicateEnv.beside others).write k = none := rfl
  unfold ReplicateChunk.fill
  rw [if_neg same, quiet, written]
  cases last : frame.isLast with
  | false => simp [ReplicateEnv.beside]
  | true =>
    have carried : Carrying ds after chunkId (taken ++ frame.data) ⟨later, chunkId⟩ :=
      ⟨writing.here, id.trans carrying.id, by rw [hashed, carrying.hashed], rfl⟩
    obtain ⟨closed, final, ran⟩ := carried.finalize_of_room (writing.keepsRoom chunkId _ (room last))
    simp [ReplicateEnv.beside, ran]

end Carrying

theorem takeFrame_opened {frame : ReplicateChunkRequest} (named : frame.chunkId = chunkId)
    {incoming : Option Incoming} (ready : Ready ds disk chunkId frame.isFirst (.serving incoming) taken)
    (env : ReplicateEnv) (k : Nat) :
    (∃ err after, ReplicateChunk.takeFrame ds env k frame incoming disk = (.failed err, after) ∧
      (env.create k = none → ds.validateChunkId (bytes chunkId) ≠ .ok ())) ∨
    ∃ opened disk', Carrying ds disk' chunkId taken opened ∧
      KeepsRoom ds chunkId disk disk' ∧
      ReplicateChunk.takeFrame ds env k frame incoming disk =
        ReplicateChunk.fill ds env k frame opened disk' := by
  generalize marked : frame.isFirst = isFirst at ready
  generalize serving : PeerState.serving incoming = state at ready
  unfold ReplicateChunk.takeFrame ReplicateChunk.openWriter
  rw [marked, named]
  cases ready with
  | first =>
    cases serving
    simp only [if_true]
    by_cases unnamed : chunkId = ""
    · rw [if_pos unnamed]
      refine .inl ⟨_, _, rfl, ?_⟩
      intro _ valid
      rw [unnamed] at valid
      exact valid_nonempty valid rfl
    · rw [if_neg unnamed]
      rcases ds.validateChunkId_cases (bytes chunkId) with valid | invalid
      · cases create : env.create k with
        | none =>
          obtain ⟨cw, after, created, writing, id, hashed⟩ := newChunkWriter_valid valid disk
          rw [created]
          exact .inr ⟨⟨cw, chunkId⟩, after, ⟨writing.here, id, hashed, rfl⟩, writing.keepsRoom chunkId, rfl⟩
        | some err =>
          have refused : newChunkWriter ds (some err) (bytes chunkId) disk = (.error err, disk) := by
            simp only [newChunkWriter, valid_nonempty valid, if_false, tempPath_of_valid valid]
          rw [refused]
          exact .inl ⟨_, _, rfl, by simp⟩
      · rw [newChunkWriter_invalid invalid]
        refine .inl ⟨_, _, rfl, ?_⟩
        intro _ valid
        cases valid.symm.trans invalid
  | later carrying =>
    cases serving
    exact .inr ⟨_, disk, carrying, fun _ room => room, rfl⟩

theorem takeFrame_took {frame : ReplicateChunkRequest} (named : frame.chunkId = chunkId)
    {incoming : Option Incoming} (ready : Ready ds disk chunkId frame.isFirst (.serving incoming) taken)
    (env : ReplicateEnv) (k : Nat) : Took ds disk chunkId (taken ++ frame.data) frame.isLast
      (ReplicateChunk.takeFrame ds env k frame incoming disk) := by
  rcases takeFrame_opened named ready env k with
    ⟨err, after, refused, _⟩ | ⟨opened, disk', carrying, room, same⟩
  · rw [refused]
    exact .failed err after
  · rw [same]
    exact (carrying.fill env k named).rebase room

namespace ReplicationManager

theorem exchange_ok {env : LinkEnv} {k : Nat} {frame : ReplicateChunkRequest} {state state' : PeerState}
    {disk' : Disk} (named : frame.chunkId = chunkId)
    (ready : Ready ds disk chunkId frame.isFirst state taken)
    (ran : exchange ds env k frame state disk = (none, state', disk')) :
    (frame.isLast = false ∧ Ready ds disk' chunkId false state' (taken ++ frame.data) ∧
        KeepsRoom ds chunkId disk disk') ∨
      (frame.isLast = true ∧ state' = .finished none ∧ Holding ds chunkId (taken ++ frame.data) disk') := by
  obtain ⟨incoming, rfl⟩ := ready.serving
  have took := takeFrame_took named ready env.peer k
  unfold exchange at ran
  cases delivery : env.delivery k with
  | sendFailed err => simp [delivery] at ran
  | frameLost err => simp [delivery] at ran
  | ackLost err => simp [delivery] at ran
  | arrived =>
    simp only [delivery] at ran
    generalize ReplicateChunk.takeFrame ds env.peer k frame incoming disk = outcome at took ran
    cases took with
    | failed err after => cases ran
    | acked going next after carrying room =>
      cases ran
      exact .inl ⟨going, .later carrying, room⟩
    | stored ends after holding =>
      cases ran
      exact .inr ⟨ends, rfl, holding⟩

theorem exchange_reliable (k : Nat) {frame : ReplicateChunkRequest} {state : PeerState}
    (named : frame.chunkId = chunkId) (ready : Ready ds disk chunkId frame.isFirst state taken)
    (valid : ds.validateChunkId (bytes chunkId) = .ok ())
    (room : frame.isLast = true → HasRoom ds chunkId (taken ++ frame.data) disk)
    (others : Option Nat → Disk → Disk) : (exchange ds (.beside others) k frame state disk).1 = none := by
  obtain ⟨incoming, rfl⟩ := ready.serving
  rcases takeFrame_opened named ready (.beside others) k with
    ⟨err, after, _, invalid⟩ | ⟨opened, disk', carrying, kept, same⟩
  · exact absurd valid (invalid rfl)
  · have passed := carrying.fill_reliable k named (fun last => kept _ (room last)) others
    show (receive (ReplicateChunk.takeFrame ds (.beside others) k frame incoming disk)).1 = none
    rw [same]
    have took := carrying.fill (.beside others) k named
    generalize ReplicateChunk.fill ds (.beside others) k frame opened disk' = outcome at passed took
    cases took with
    | failed err => exact absurd rfl (passed err)
    | acked => rfl
    | stored => rfl

theorem sendFrames_eq (peer : DiskStore) (env : LinkEnv) (chunkId : String) (reader : ChunkReader) (k : Nat)
    (isFirst : Bool) (state : PeerState) (disk : Disk) :
    sendFrames peer env chunkId reader k isFirst state disk =
      match reader.next (env.next k) with
      | .eof => (none, state, disk)
      | .failed err => (some (.readFrame err), state, disk)
      | .frame frame later =>
        match exchange peer env k ⟨chunkId, frame.data, isFirst, frame.isLast⟩ state
          (env.peer.others (some k) disk) with
        | (some err, state, disk) => (some err, state, disk)
        | (none, state, disk) =>
          if frame.isLast then (none, state, disk)
          else sendFrames peer env chunkId later (k + 1) false state disk := by
  rw [sendFrames]
  split <;> rename_i read <;> simp only [read]

theorem sendFrames_ok {env : LinkEnv} {reader : ChunkReader} {k : Nat} {isFirst : Bool}
    {state state' : PeerState} {disk disk' : Disk} {taken : List UInt8}
    (apart : Apart ds chunkId env.peer.others) (ready : Ready ds disk chunkId isFirst state taken)
    (ran : sendFrames ds env chunkId reader k isFirst state disk = (none, state', disk')) :
    (reader.remaining = [] ∧ state' = state) ∨ (reader.remaining ≠ [] ∧ state' = .finished none ∧
      Holding ds chunkId (taken ++ reader.remaining) disk') := by
  -- the reader gets shorter with every frame
  generalize length : reader.remaining.length = n
  induction n using Nat.strong_induction_on generalizing reader k isFirst state disk taken with
  | _ n ih =>
    rw [sendFrames_eq] at ran
    cases read : reader.next (env.next k) with
    | eof =>
      rw [read] at ran
      cases ran
      exact .inl ⟨ChunkReader.next_eq_eof read, rfl⟩
    | failed err =>
      rw [read] at ran
      cases ran
    | frame frame later =>
      obtain ⟨present, joined, shorter, ends⟩ := ChunkReader.next_eq_frame read
      rw [read] at ran
      simp only at ran
      generalize given : (⟨chunkId, frame.data, isFirst, frame.isLast⟩ : ReplicateChunkRequest) = request at ran
      generalize sent : exchange ds env k request state (env.peer.others (some k) disk) = outcome at ran
      subst given
      obtain ⟨result, next, after⟩ := outcome
      cases result with
      | some err => cases ran
      | none =>
        rcases exchange_ok rfl ((apart (some k) disk).ready ready) sent with
          ⟨going, ready, _⟩ | ⟨last, finished, holding⟩
        · have going : frame.isLast = false := going
          simp only [going, Bool.false_eq_true, if_false] at ran
          have more : later.remaining ≠ [] := by
            intro empty
            cases going.symm.trans (ends.mpr empty)
          rcases ih _ (length ▸ shorter) ready ran rfl with ⟨empty, _⟩ | ⟨_, finished, holding⟩
          · exact absurd empty more
          · refine .inr ⟨present, finished, ?_⟩
            rw [List.append_assoc, joined] at holding
            exact holding
        · have last : frame.isLast = true := last
          simp only [last, if_true] at ran
          cases ran
          refine .inr ⟨present, finished, ?_⟩
          rw [← joined, ends.mp last, List.append_nil]
          exact holding

theorem sendFrames_reliable {others : Option Nat → Disk → Disk} (apart : Apart ds chunkId others)
    (spacious : ∀ k disk, HasRoom ds chunkId content disk → HasRoom ds chunkId content (others k disk))
    {reader : ChunkReader} (k : Nat) {isFirst : Bool} {state : PeerState} {disk : Disk} {taken : List UInt8}
    (ready : Ready ds disk chunkId isFirst state taken) (whole : taken ++ reader.remaining = content)
    (room : HasRoom ds chunkId content disk) :
    (sendFrames ds (.beside others) chunkId reader k isFirst state disk).1 = none := by
  have valid : ds.validateChunkId (bytes chunkId) = .ok () := by
    obtain ⟨p, path, _⟩ := room
    exact pathForChunk_valid path
  generalize length : reader.remaining.length = n
  induction n using Nat.strong_induction_on generalizing reader k isFirst state disk taken with
  | _ n ih =>
    rw [sendFrames_eq]
    have quiet : (LinkEnv.beside others).next k = fun _ => none := rfl
    have beside : (LinkEnv.beside others).peer.others (some k) disk = others (some k) disk := rfl
    rw [quiet, beside]
    replace ready := (apart (some k) disk).ready ready
    replace room := spacious (some k) disk room
    rcases reader.next_reliable with eof | ⟨frame, later, read⟩
    · rw [eof]
    · obtain ⟨_, joined, shorter, ends⟩ := ChunkReader.next_eq_frame read
      rw [read]
      simp only
      generalize given : (⟨chunkId, frame.data, isFirst, frame.isLast⟩ : ReplicateChunkRequest) = request
      have passed : (exchange ds (.beside others) k request state (others (some k) disk)).1 = none := by
        subst given
        refine exchange_reliable k rfl ready valid ?_ others
        intro last
        have last : frame.isLast = true := last
        rw [← whole, ← joined, ends.mp last, List.append_nil] at room
        exact room
      generalize sent : exchange ds (.beside others) k request state (others (some k) disk) = outcome at passed
      subst given
      obtain ⟨result, next, after⟩ := outcome
      cases passed
      simp only
      rcases exchange_ok rfl ready sent with ⟨going, ready, kept⟩ | ⟨last, _, _⟩
      · have going : frame.isLast = false := going
        simp only [going, Bool.false_eq_true, if_false]
        refine ih _ (length ▸ shorter) (k + 1) ready ?_ (kept content room) rfl
        rw [List.append_assoc, joined, whole]
      · have last : frame.isLast = true := last
        simp only [last, if_true]

variable {source peer : DiskStore} {sourceDisk peerDisk : Disk}

theorem finish_ok {env : LinkEnv} {state : PeerState} {disk : Disk} (ran : (finish env state disk).1 = none) :
    state ≠ .serving none ∧
      (state = .finished none → (finish env state disk).2 = env.peer.others none disk) := by
  unfold finish at ran ⊢
  cases closeSend : env.closeSend with
  | some err => simp [closeSend] at ran
  | none =>
    cases statusLost : env.statusLost with
    | some lost => simp [closeSend, statusLost] at ran
    | none =>
      simp only [closeSend, statusLost] at ran ⊢
      constructor
      · intro frameless
        subst frameless
        cases ran
      · intro finished
        subst finished
        rfl

theorem replicateToSingleNode_ok (held : Holding source chunkId content sourceDisk) {env : LinkEnv}
    (apart : Apart peer chunkId env.peer.others)
    (ran : (replicateToSingleNode source peer env chunkId sourceDisk peerDisk).1 = none) :
    content ≠ [] ∧ Holding peer chunkId content
      (replicateToSingleNode source peer env chunkId sourceDisk peerDisk).2 := by
  obtain ⟨reader, whole, opened⟩ := newChunkReader_of_read held.reads 0
  have opened := opened env.openFile
  unfold replicateToSingleNode at ran ⊢
  rw [opened] at ran ⊢
  split at ran
  · cases ran
  · cases ran
  · cases ran
  · cases fault : env.openFile with
    | some err =>
      rw [fault] at ran
      cases ran
    | none =>
      simp only [fault, Option.elim_none] at ran ⊢
      generalize sent : sendFrames peer env chunkId reader 0 true (.serving none) peerDisk = outcome at ran ⊢
      obtain ⟨result, state, disk⟩ := outcome
      cases result with
      | some err => cases ran
      | none =>
        have ended := sendFrames_ok apart .first sent
        rw [whole, List.nil_append] at ended
        have closed := finish_ok ran
        rcases ended with ⟨_, frameless⟩ | ⟨present, finished, holding⟩
        · exact absurd frameless closed.1
        · refine ⟨present, ?_⟩
          show Holding peer chunkId content (finish env state disk).2
          rw [closed.2 finished]
          exact (apart none disk).holding holding

theorem replicateToSingleNode_reliable (held : Holding source chunkId content sourceDisk)
    (nonempty : content ≠ []) {others : Option Nat → Disk → Disk} (apart : Apart peer chunkId others)
    (spacious : ∀ k disk, HasRoom peer chunkId content disk → HasRoom peer chunkId content (others k disk))
    (room : HasRoom peer chunkId content peerDisk) :
    (replicateToSingleNode source peer (.beside others) chunkId sourceDisk peerDisk).1 = none := by
  obtain ⟨reader, whole, opened⟩ := newChunkReader_of_read held.reads 0
  have passed : (sendFrames peer (.beside others) chunkId reader 0 true (.serving none) peerDisk).1 = none := by
    refine sendFrames_reliable apart spacious 0 .first ?_ room
    rw [whole, List.nil_append]
  generalize sent : sendFrames peer (.beside others) chunkId reader 0 true (.serving none) peerDisk = outcome
    at passed
  obtain ⟨result, state, disk⟩ := outcome
  cases passed
  have finished : state = .finished none := by
    rcases sendFrames_ok apart .first sent with ⟨empty, _⟩ | ⟨_, finished, _⟩
    · exact absurd (whole.symm.trans empty) nonempty
    · exact finished
  subst finished
  have opened := opened none
  simp only [replicateToSingleNode, LinkEnv.beside] at *
  rw [opened]
  simp only [Option.elim_none]
  rw [sent]
  rfl

end ReplicationManager

open ReplicationManager

/-- Beside sessions that do not write the chunk and leave room for it, it is copied over a reliable
    stream; and whatever is lost, a call without an error has copied it. -/
structure Copies (source peer : DiskStore) (chunkId : String) (content : List UInt8)
    (sourceDisk peerDisk : Disk) : Prop where
  delivered : ∀ others, Apart peer chunkId others →
    (∀ k disk, HasRoom peer chunkId content disk → HasRoom peer chunkId content (others k disk)) →
    HasRoom peer chunkId content peerDisk →
      (replicateToSingleNode source peer (.beside others) chunkId sourceDisk peerDisk).1 = none ∧
        Copied source peer chunkId sourceDisk
          (replicateToSingleNode source peer (.beside others) chunkId sourceDisk peerDisk).2
  confirmed : ∀ env, Apart peer chunkId env.peer.others →
    (replicateToSingleNode source peer env chunkId sourceDisk peerDisk).1 = none →
      Copied source peer chunkId sourceDisk
        (replicateToSingleNode source peer env chunkId sourceDisk peerDisk).2

theorem Holding.copied {source peer : DiskStore} {content : List UInt8} {sourceDisk peerDisk : Disk}
    (held : Holding source chunkId content sourceDisk) (copy : Holding peer chunkId content peerDisk) :
    Copied source peer chunkId sourceDisk peerDisk :=
  ⟨copy.reads.trans held.reads.symm, copy.checksum.trans held.checksum.symm⟩

theorem hasRoom_nil (valid : ds.validateChunkId (bytes chunkId) = .ok ()) (disk : Disk) :
    HasRoom ds chunkId [] disk := by
  obtain ⟨dir, _, path⟩ := pathForChunk_of_valid valid
  refine ⟨_, path, ?_⟩
  simp [checkSpace]

/-- The sender has no frame for an empty chunk, and the receiver refuses a stream without one. -/
theorem copies_iff_nonempty {source peer : DiskStore} {chunkId : String} {content : List UInt8}
    {sourceDisk : Disk} (held : Holding source chunkId content sourceDisk)
    (valid : peer.validateChunkId (bytes chunkId) = .ok ()) (peerDisk : Disk) :
    Copies source peer chunkId content sourceDisk peerDisk ↔ content ≠ [] := by
  constructor
  · intro copies empty
    have idle := Apart.idle peer chunkId
    have sent := copies.delivered _ idle (fun _ _ room => room) (empty ▸ hasRoom_nil valid peerDisk)
    exact (replicateToSingleNode_ok held idle sent.1).1 empty
  · intro nonempty
    have confirmed : ∀ env, Apart peer chunkId env.peer.others →
        (replicateToSingleNode source peer env chunkId sourceDisk peerDisk).1 = none →
          Copied source peer chunkId sourceDisk
            (replicateToSingleNode source peer env chunkId sourceDisk peerDisk).2 := by
      intro env apart ran
      exact held.copied (replicateToSingleNode_ok held apart ran).2
    refine ⟨?_, confirmed⟩
    intro others apart spacious room
    have ran := replicateToSingleNode_reliable held nonempty apart spacious room
    exact ⟨ran, confirmed _ apart ran⟩

theorem newChunkWriter_spares {other : GoString} (differs : other ≠ bytes chunkId) (fault : Option GoError)
    (disk : Disk) : Spares ds chunkId disk (newChunkWriter ds fault other disk).2 := by
  have idle : Spares ds chunkId disk disk := Apart.idle ds chunkId none disk
  unfold newChunkWriter
  split
  · exact idle
  · cases temp : ds.tempPath other with
    | error err => exact idle
    | ok q =>
      cases fault with
      | some err => exact idle
      | none =>
        have away {p : Path} (found : ds.tempPath (bytes chunkId) = .ok p) : p ≠ q := by
          intro same
          subst same
          exact differs (tempPath_injective temp found)
        refine ⟨?_, ?_, ?_, rfl⟩
        · intro p found
          dsimp only [FileSystem.create]
          cases disk.files.links q with
          | some i => rfl
          | none => simp [FileSystem.createNew, away found]
        · intro p i found linked
          dsimp only [FileSystem.create]
          cases taken : disk.files.links q with
          | some j =>
            have distinct : i ≠ j := by
              intro same
              subst same
              exact away found (disk.files.unshared p q i linked taken)
            simp [FileSystem.setInode, distinct]
          | none =>
            have older := disk.files.allocated p i linked
            simp [FileSystem.createNew, Nat.ne_of_lt older]
        · intro p path
          have apart : p ≠ q := pathForChunk_ne_tempPath path temp
          dsimp only
          rw [FileSystem.read_create, if_neg apart]

def oneChunkDisk (content : List UInt8) : Disk :=
  (store.write (.onPut none) (bytes "ab12cd") content emptyDisk).1

theorem holding_oneChunkDisk (content : List UInt8)
    (kept : (store.read none (bytes "ab12cd") (oneChunkDisk content)).toOption = some content)
    (checksum : (oneChunkDisk content).checksums.lookup (bytes "ab12cd") = some (Sha256.sum256 content)) :
    Holding store "ab12cd" content (oneChunkDisk content) := by
  refine ⟨?_, checksum⟩
  cases reads : store.read none (bytes "ab12cd") (oneChunkDisk content) with
  | error err =>
    rw [reads] at kept
    cases kept
  | ok stored =>
    rw [reads] at kept
    cases kept
    rfl

def otherUpload (_ : Option Nat) (disk : Disk) : Disk := (newChunkWriter store none (bytes "cd34ef") disk).2

theorem otherUpload_apart : Apart store "ab12cd" otherUpload :=
  fun _ disk => newChunkWriter_spares (by decide) none disk

theorem copies_iff_nonempty_oneChunk :
    (replicateToSingleNode store store (.beside otherUpload) "ab12cd" (oneChunkDisk [1, 2, 3]) emptyDisk).1 =
        none ∧
      Copied store store "ab12cd" (oneChunkDisk [1, 2, 3])
        (replicateToSingleNode store store (.beside otherUpload) "ab12cd" (oneChunkDisk [1, 2, 3])
          emptyDisk).2 := by
  have held := holding_oneChunkDisk [1, 2, 3] (by decide +kernel) (by decide +kernel)
  have valid : store.validateChunkId (bytes "ab12cd") = .ok () := rfl
  have copies := (copies_iff_nonempty held valid emptyDisk).mpr (by decide)
  refine copies.delivered otherUpload otherUpload_apart ?_ ⟨_, rfl, by decide +kernel⟩
  intro k disk room
  refine (otherUpload_apart k disk).hasRoom ?_ room
  rfl

/-- The first frame of a second stream for the chunk arrives between two frames. -/
def secondStream : Option Nat → Disk → Disk
  | some 1, disk => (ReplicateChunk.takeFrame store .quiet 0 ⟨"ab12cd", [9], true, false⟩ none disk).2
  | _, disk => disk

/-- An empty chunk is not copied, and the sender gets an error. Beside a second stream for the chunk
    the receiver acknowledges a chunk that it mixed from both. -/
theorem not_copies_emptyChunk : Holding store "ab12cd" [] (oneChunkDisk []) ∧
    HasRoom store "ab12cd" [] emptyDisk ∧
    (replicateToSingleNode store store .reliable "ab12cd" (oneChunkDisk []) emptyDisk).1 ≠ none ∧
    ¬Copies store store "ab12cd" [] (oneChunkDisk []) emptyDisk ∧
    (replicateChunk store (.beside secondStream)
      [⟨"ab12cd", [1, 2], true, false⟩, ⟨"ab12cd", [3], false, true⟩] .eof emptyDisk).1 = none ∧
    (store.read none (bytes "ab12cd") (replicateChunk store (.beside secondStream)
      [⟨"ab12cd", [1, 2], true, false⟩, ⟨"ab12cd", [3], false, true⟩] .eof emptyDisk).2).toOption =
        some [9, 0, 3] := by
  have held : Holding store "ab12cd" [] (oneChunkDisk []) :=
    holding_oneChunkDisk _ (by decide +kernel) (by decide +kernel)
  have room : HasRoom store "ab12cd" [] emptyDisk := hasRoom_nil rfl emptyDisk
  have idle := Apart.idle store "ab12cd"
  refine ⟨held, room, ?_, ?_, by decide +kernel, by decide +kernel⟩
  · intro ran
    exact (replicateToSingleNode_ok held idle ran).1 rfl
  · intro copies
    exact (replicateToSingleNode_ok held idle (copies.delivered _ idle (fun _ _ room => room) room).1).1 rfl

end DistributedFs.Storage
