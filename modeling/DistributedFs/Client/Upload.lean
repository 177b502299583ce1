import DistributedFs.Client.Chunker
import DistributedFs.Fsm.Visibility
import DistributedFs.Storage.PutChunk
import Mathlib.Data.Finset.Basic
import Mathlib.Logic.Relation

namespace DistributedFs.Client

open Go Fsm MetadataFSM Storage

structure Config where
  chunkSize : Int64
  frameSize : Nat
  retryAttempts : Nat

structure Config.Valid (cfg : Config) : Prop where
  chunkSize : ChunkSizeOk cfg.chunkSize
  frameSize : 4096 ≤ cfg.frameSize ∧ cfg.frameSize ≤ 4194304

/-- The frame of `GRPCClient.PutChunk` that starts at byte `i`; each carries the checksum of
    the whole chunk. -/
def putFrame (frameSize : Nat) (chunkID fileID : String) (replicateTo : List String)
    (data checksum : List UInt8) (i : Nat) : PutChunkRequest :=
  let stop := min (i + frameSize) data.length
  ⟨chunkID, fileID, replicateTo, (data.drop i).take (stop - i), checksum, decide (stop = data.length)⟩

def putFrames (frameSize : Nat) (chunkID fileID : String) (replicateTo : List String)
    (data checksum : List UInt8) : List PutChunkRequest :=
  if data = [] then [⟨chunkID, fileID, replicateTo, [], checksum, true⟩]
  else
    (List.range ((data.length + frameSize - 1) / frameSize)).map fun k =>
      putFrame frameSize chunkID fileID replicateTo data checksum (k * frameSize)

theorem mem_putFrames {frameSize : Nat} {chunkID fileID : String} {replicateTo : List String}
    {data checksum : List UInt8} {frame : PutChunkRequest}
    (member : frame ∈ putFrames frameSize chunkID fileID replicateTo data checksum) :
    frame.chunkId = chunkID ∧ frame.checksum = checksum := by
  unfold putFrames at member
  split at member
  · cases List.mem_singleton.mp member
    exact ⟨rfl, rfl⟩
  · obtain ⟨k, _, rfl⟩ := List.mem_map.mp member
    exact ⟨rfl, rfl⟩

structure Upload where
  cfg : Config
  fileName : String
  content : List UInt8
  fileID : String
  named : fileID ≠ ""

namespace Upload

def totalSize (u : Upload) : Int64 := Int64.ofNat u.content.length

def count (u : Upload) : Nat := (numChunks u.totalSize u.cfg.chunkSize).toNat

def descriptors (u : Upload) : List ChunkDescriptor :=
  generateDescriptors u.fileID u.totalSize u.cfg.chunkSize

def chunkIDs (u : Upload) : List String := u.descriptors.map ChunkDescriptor.chunkID

def request (u : Upload) : Server.CreateFileRequest :=
  ⟨u.fileID, u.fileName, u.totalSize, u.cfg.chunkSize, u.chunkIDs⟩

def frames (u : Upload) (d : ChunkDescriptor) (placement : Server.ChunkPlacement) :
    Except GoError (List PutChunkRequest) := do
  let buffer ← readAt u.content d.offset d.size
  return putFrames u.cfg.frameSize d.chunkID d.fileID (placement.replicas.map Server.NodeInfo.address)
    buffer (Sha256.sum256 buffer)

end Upload

inductive Progress where
  | pending (attempts : Nat)
  | done
  | failed
deriving DecidableEq

inductive Phase where
  | creating | sending | succeeded | failed
deriving DecidableEq

/-- The metadata state and one upload. `requests` are the `CommitChunk` calls that storage
    nodes have made for it, `answered` the chunks for which a `PutChunk` returned nil. -/
structure UploadState where
  fsm : FSM
  phase : Phase
  placements : List Server.ChunkPlacement
  progress : Nat → Progress
  requests : List CommandCommitChunk
  answered : List String

def UploadState.start (m : FSM) : UploadState := ⟨m, .creating, [], fun _ => .pending 0, [], []⟩

/-- The steps of an upload among everything else that reaches the metadata. Replies may be
    lost and calls may go on after the client has given them up: a handler serves any part of
    the frames at any time, its `CommitChunk` may be applied late or again, and an attempt may
    fail at any time. -/
inductive UploadStep (u : Upload) (s : UploadState) : UploadState → Prop where
  | command (cmd : Command) (orders : Nat → MapOrder)
    (foreign : ∀ req, cmd = .commitChunk req → req.chunkID ∉ u.chunkIDs) :
    UploadStep u s { s with fsm := (s.fsm.handle orders cmd).1 }
  | heartbeat (nodeID : String) (ts : Time) :
    UploadStep u s { s with fsm := (s.fsm.updateLastSeen nodeID ts).1 }
  | createFile (raft : Server.RaftView) (seen : FSM) (order : MapOrder)
    (strategy : Placement.PlacementStrategy) (rf : Int) (newID : String) (now : Time)
    (cmd : CommandCreateFile) (response : Server.CreateFileResponse) (orders : Nat → MapOrder)
    (creating : s.phase = .creating)
    (accepted : Server.createFile raft seen order strategy rf newID now u.request = .ok (cmd, response))
    (applied : (s.fsm.handle orders (.createFile cmd)).2 = none) :
    UploadStep u s { s with
      fsm := (s.fsm.handle orders (.createFile cmd)).1
      phase := .sending
      placements := response.placements }
  | createFailed (creating : s.phase = .creating) : UploadStep u s { s with phase := .failed }
  | putChunk (d : ChunkDescriptor) (placement : Server.ChunkPlacement) (frames : List PutChunkRequest)
    (server : StorageServer) (env : PutEnv) (arrived : Nat) (ending : Ending) (disk after : Disk)
    (commit : Option CommandCommitChunk) (started : s.phase ≠ .creating)
    (chunk : d ∈ u.descriptors) (placed : placement ∈ s.placements ∧ placement.chunkId = d.chunkID)
    (framed : u.frames d placement = .ok frames) (whole : ending = .eof → frames.length ≤ arrived)
    (served : server.putChunk env (frames.take arrived) ending disk = (.ok commit, after)) :
    UploadStep u s { s with
      requests := commit.toList ++ s.requests
      answered := if commit = none then d.chunkID :: s.answered else s.answered }
  | commitChunk (req : CommandCommitChunk) (orders : Nat → MapOrder) (sent : req ∈ s.requests) :
    UploadStep u s { s with
      fsm := (s.fsm.handle orders (.commitChunk req)).1
      answered :=
        if (s.fsm.handle orders (.commitChunk req)).2 = none then req.chunkID :: s.answered
        else s.answered }
  | attemptOk (i attempts : Nat) (d : ChunkDescriptor) (chunk : u.descriptors[i]? = some d)
    (pending : s.progress i = .pending attempts) (stored : d.chunkID ∈ s.answered) :
    UploadStep u s { s with progress := Function.update s.progress i .done }
  | attemptFailed (i attempts : Nat) (pending : s.progress i = .pending attempts) :
    UploadStep u s { s with
      progress := Function.update s.progress i
        (if attempts + 1 < u.cfg.retryAttempts then .pending (attempts + 1) else .failed) }
  | cancelled (i attempts : Nat) (pending : s.progress i = .pending attempts) :
    UploadStep u s { s with progress := Function.update s.progress i .failed }
  | chunksFailed (i : Nat) (sending : s.phase = .sending) (failed : s.progress i = .failed) :
    UploadStep u s { s with phase := .failed }
  | commitFile (orders : Nat → MapOrder) (sending : s.phase = .sending)
    (stored : ∀ i, i < u.count → s.progress i = .done)
    (applied : (s.fsm.handle orders (.commitFile ⟨u.fileID, u.totalSize.toUInt64, []⟩)).2 = none) :
    UploadStep u s { s with
      fsm := (s.fsm.handle orders (.commitFile ⟨u.fileID, u.totalSize.toUInt64, []⟩)).1
      phase := .succeeded }
  | commitFileFailed (sending : s.phase = .sending) : UploadStep u s { s with phase := .failed }

abbrev UploadRun (u : Upload) : UploadState → UploadState → Prop := Relation.ReflTransGen (UploadStep u)

namespace Upload

def chunkID (u : Upload) (i : Nat) : String := computeChunkID u.fileID i

def piece (u : Upload) (i : Nat) : List UInt8 :=
  (u.content.drop (i * u.cfg.chunkSize.toInt.toNat)).take u.cfg.chunkSize.toInt.toNat

structure Sized (u : Upload) : Prop where
  valid : u.cfg.Valid
  nonempty : 0 < u.content.length
  bound : u.content.length ≤ 2 ^ 53

theorem chunkIDs_eq (u : Upload) : u.chunkIDs = (List.range u.count).map u.chunkID := by
  simp [chunkIDs, descriptors, generateDescriptors, count, Function.comp_def, descriptorAt, chunkID]

theorem mem_chunkIDs {u : Upload} {i : Nat} (below : i < u.count) : u.chunkID i ∈ u.chunkIDs := by
  rw [chunkIDs_eq]
  exact List.mem_map_of_mem (List.mem_range.mpr below)

theorem mem_descriptors {u : Upload} {d : ChunkDescriptor} (member : d ∈ u.descriptors) :
    ∃ i, i < u.count ∧ d = descriptorAt u.fileID u.totalSize u.cfg.chunkSize i := by
  obtain ⟨i, below, rfl⟩ := List.mem_map.mp member
  exact ⟨i, List.mem_range.mp below, rfl⟩

structure Describes (u : Upload) (file : FileRecord) : Prop where
  fileID : file.fileID = u.fileID
  filename : file.filename = u.fileName
  fileSize : file.fileSize = u.totalSize.toUInt64
  chunkSize : file.chunkSize = u.cfg.chunkSize.toUInt64
  chunkIDs : file.chunkIDs = u.chunkIDs

theorem Describes.same {u : Upload} {file later : FileRecord} (describes : u.Describes file)
    (same : file.SameFile later) : u.Describes later :=
  ⟨same.fileID.trans describes.fileID, same.filename.trans describes.filename,
    same.fileSize.trans describes.fileSize, same.chunkSize.trans describes.chunkSize,
    same.chunkIDs.trans describes.chunkIDs⟩

structure Tracks (u : Upload) (i : Nat) (chunk : ChunkRecord (List String)) : Prop where
  chunkID : chunk.chunkID = u.chunkID i
  chunkIndex : chunk.chunkIndex = i
  checksum : chunk.checksum = Sha256.sum256 (u.piece i) ∨
    (chunk.checksum = [] ∧ chunk.status ≠ .complete)

structure Recorded (u : Upload) (m : FSM) : Prop where
  file : ∃ file, m.fileIndex.lookup u.fileID = some file ∧ u.Describes file
  chunk : ∀ i, i < u.count → ∃ chunk, m.chunkRegistry.lookup (u.chunkID i) = some chunk ∧ u.Tracks i chunk
  complete : ∀ file, m.fileIndex.lookup u.fileID = some file → file.status = .complete →
    ∀ i, i < u.count → ∀ chunk, m.chunkRegistry.lookup (u.chunkID i) = some chunk → chunk.checksum ≠ []

theorem sum256_ne_nil (data : List UInt8) : Sha256.sum256 data ≠ [] := by
  intro empty
  have length := Sha256.length_sum256 data
  rw [empty] at length
  cases length

theorem Recorded.setFile {u : Upload} {m : FSM} (recorded : u.Recorded m) {id : String}
    {file later : FileRecord} (found : m.fileIndex.lookup id = some file) (same : file.SameFile later)
    (complete : id = u.fileID → later.status = .complete →
      ∀ i, i < u.count → ∀ chunk, m.chunkRegistry.lookup (u.chunkID i) = some chunk → chunk.checksum ≠ []) :
    u.Recorded (m.setFile id later) where
  file := by
    obtain ⟨old, present, describes⟩ := recorded.file
    obtain ⟨last, stored, kept⟩ := (Keeps.setFile found same).files u.fileID old present
    exact ⟨last, stored, describes.same kept⟩
  chunk := recorded.chunk
  complete last stored done := by
    simp only [MetadataFSM.setFile, GoMap.lookup_insert] at stored
    split at stored
    · rename_i here
      cases stored
      exact complete here.symm done
    · exact recorded.complete last stored done

theorem Recorded.setChunk {u : Upload} {m : FSM} (recorded : u.Recorded m) {cid : String}
    {chunk later : ChunkRecord (List String)} (found : m.chunkRegistry.lookup cid = some chunk)
    (tracks : ∀ i, i < u.count → cid = u.chunkID i → u.Tracks i chunk → u.Tracks i later)
    (keeps : chunk.checksum ≠ [] → later.checksum ≠ []) : u.Recorded (m.setChunk cid later) where
  file := recorded.file
  chunk i below := by
    obtain ⟨old, stored, tracked⟩ := recorded.chunk i below
    simp only [MetadataFSM.setChunk, GoMap.lookup_insert]
    split
    · rename_i here
      rw [here, found] at stored
      cases stored
      exact ⟨later, rfl, tracks i below here.symm tracked⟩
    · exact ⟨old, stored, tracked⟩
  complete file present done i below last stored := by
    simp only [MetadataFSM.setChunk, GoMap.lookup_insert] at stored
    split at stored
    · rename_i here
      cases stored
      exact keeps (recorded.complete file present done i below chunk (here ▸ found))
    · exact recorded.complete file present done i below last stored

theorem Recorded.createFile {u : Upload} {m : FSM} (recorded : u.Recorded m) {req : CommandCreateFile}
    (newID : m.fileIndex.lookup req.fileID = none) (fresh : ∀ cid ∈ req.chunkIDs, cid ∉ m.chunkRegistry) :
    u.Recorded { m with
      chunkRegistry := insertChunks m.chunkRegistry (chunkStubs req)
      fileIndex := m.fileIndex.insert req.fileID (newFile req) } := by
  obtain ⟨file, present, describes⟩ := recorded.file
  have other : u.fileID ≠ req.fileID := by
    intro here
    rw [here, newID] at present
    cases present
  have untouched (i : Nat) (below : i < u.count) :
      (insertChunks m.chunkRegistry (chunkStubs req)).lookup (u.chunkID i) =
        m.chunkRegistry.lookup (u.chunkID i) := by
    obtain ⟨chunk, stored, _⟩ := recorded.chunk i below
    rcases lookup_created m req (u.chunkID i) with ⟨index, position, _⟩ | ⟨_, same⟩
    · exact absurd (Finmap.mem_of_lookup_eq_some stored) (fresh _ (List.mem_of_getElem? position))
    · exact same
  have same : (m.fileIndex.insert req.fileID (newFile req)).lookup u.fileID =
      m.fileIndex.lookup u.fileID := by
    rw [GoMap.lookup_insert, if_neg other]
  refine ⟨⟨file, same.trans present, describes⟩, ?_, ?_⟩
  · intro i below
    obtain ⟨chunk, stored, tracked⟩ := recorded.chunk i below
    exact ⟨chunk, (untouched i below).trans stored, tracked⟩
  · intro last stored done i below chunk found
    exact recorded.complete last (same.symm.trans stored) done i below chunk
      ((untouched i below).symm.trans found)

def Honest (u : Upload) (cmd : Command) : Prop :=
  ∀ req, cmd = .commitChunk req → ∀ i, i < u.count → req.chunkID = u.chunkID i →
    req.checksum = Sha256.sum256 (u.piece i)

theorem Recorded.step {u : Upload} {m after : FSM} (recorded : u.Recorded m) {cmd : Command}
    (honest : u.Honest cmd) {orders : Nat → MapOrder} {result : Option GoError}
    (step : Fsm.Step m orders cmd after result) : u.Recorded after := by
  cases step with
  | failed | alreadyListed => exact recorded
  | nodes | jobs | mdNodes => exact ⟨recorded.file, recorded.chunk, recorded.complete⟩
  | createFile req newID fresh => exact recorded.createFile newID fresh
  | commitFile req file found size valid =>
    refine recorded.setFile found ⟨rfl, rfl, rfl, rfl, rfl, rfl⟩ ?_
    intro here _ i below chunk stored
    obtain ⟨old, present, describes⟩ := recorded.file
    rw [here, present] at found
    cases found
    have member : u.chunkID i ∈ file.chunkIDs := by
      rw [describes.chunkIDs]
      exact mem_chunkIDs below
    obtain ⟨valid, same, complete⟩ := validateChunks_none _ _ valid _ member
    obtain ⟨tracked, same', tracks⟩ := recorded.chunk i below
    cases same.symm.trans stored
    cases same'.symm.trans stored
    rcases tracks.checksum with hash | ⟨_, open_⟩
    · rw [hash]
      exact sum256_ne_nil _
    · exact absurd complete open_
  | deleteFile req file found =>
    exact recorded.setFile found ⟨rfl, rfl, rfl, rfl, rfl, rfl⟩ nofun
  | commitChunk req chunk found open_ =>
    refine recorded.setChunk found ?_ (fun has => absurd open_.1 has)
    intro i below here tracked
    exact ⟨tracked.chunkID, tracked.chunkIndex, .inl (honest req rfl i below here)⟩
  | evict req chunk idx found | addReplica req chunk found =>
    refine recorded.setChunk found ?_ (fun has => has)
    intro i _ _ tracked
    exact ⟨tracked.chunkID, tracked.chunkIndex, tracked.checksum⟩
  | markLost req chunk found =>
    refine recorded.setChunk found ?_ (fun has => has)
    intro i _ _ tracked
    refine ⟨tracked.chunkID, tracked.chunkIndex, ?_⟩
    rcases tracked.checksum with hash | ⟨empty, _⟩
    · exact .inl hash
    · exact .inr ⟨empty, nofun⟩

def Distinct (u : Upload) : Prop :=
  ∀ i j, i < u.count → j < u.count → u.chunkID i = u.chunkID j → i = j

theorem recorded_of_created {u : Upload} (distinct : u.Distinct) {m : FSM} {req : CommandCreateFile}
    (describes : u.Describes (newFile req)) :
    u.Recorded { m with
      chunkRegistry := insertChunks m.chunkRegistry (chunkStubs req)
      fileIndex := m.fileIndex.insert req.fileID (newFile req) } := by
  have fileID : req.fileID = u.fileID := describes.fileID
  have chunkIDs : req.chunkIDs = u.chunkIDs := describes.chunkIDs
  have present : (m.fileIndex.insert req.fileID (newFile req)).lookup u.fileID = some (newFile req) := by
    rw [GoMap.lookup_insert, if_pos fileID.symm]
  refine ⟨⟨newFile req, present, describes⟩, ?_, ?_⟩
  · intro i below
    rcases lookup_created m req (u.chunkID i) with ⟨index, position, stored⟩ | ⟨absent, _⟩
    · have same : index = i := by
        rw [chunkIDs, chunkIDs_eq, List.getElem?_map] at position
        obtain ⟨j, inside, named⟩ := Option.map_eq_some_iff.mp position
        obtain ⟨bound, rfl⟩ := List.getElem?_eq_some_iff.mp inside
        rw [List.getElem_range] at named
        exact distinct index i (by simpa using bound) below named
      subst same
      exact ⟨_, stored, rfl, rfl, .inr ⟨rfl, nofun⟩⟩
    · rw [chunkIDs] at absent
      exact absurd (mem_chunkIDs below) absent
  · intro file stored done
    cases present.symm.trans stored
    cases done

theorem frames_piece {u : Upload} (sized : u.Sized) {i : Nat} (below : i < u.count)
    {placement : Server.ChunkPlacement} {frames : List PutChunkRequest}
    (framed : u.frames (descriptorAt u.fileID u.totalSize u.cfg.chunkSize i) placement = .ok frames)
    {frame : PutChunkRequest} (member : frame ∈ frames) :
    frame.chunkId = u.chunkID i ∧ frame.checksum = Sha256.sum256 (u.piece i) := by
  obtain ⟨buffer, read, framed⟩ := bind_eq_ok framed
  cases framed
  have inside := (numChunks_eq sized.valid.chunkSize sized.nonempty sized.bound).2 i below
  have filled := readAt_descriptorAt sized.valid.chunkSize u.fileID sized.bound inside
  cases filled.symm.trans read
  exact mem_putFrames member

structure Sound (u : Upload) (s : UploadState) : Prop where
  requests : ∀ req ∈ s.requests, ∃ i, i < u.count ∧ req.chunkID = u.chunkID i ∧
    req.checksum = Sha256.sum256 (u.piece i)
  recorded : s.phase = .sending ∨ s.phase = .succeeded → u.Recorded s.fsm

theorem Sound.command {u : Upload} {s : UploadState} (sound : u.Sound s) {cmd : Command}
    (honest : u.Honest cmd) (orders : Nat → MapOrder) (answered : List String) :
    u.Sound { s with fsm := (s.fsm.handle orders cmd).1, answered := answered } where
  requests := sound.requests
  recorded started := (sound.recorded started).step honest (handle_step s.fsm orders cmd)

theorem step_sound {u : Upload} (sized : u.Sized) (distinct : u.Distinct)
    {s later : UploadState} (sound : u.Sound s) (step : UploadStep u s later) : u.Sound later := by
  cases step with
  | command cmd orders foreign =>
    refine sound.command ?_ orders s.answered
    intro req same i below here
    subst same
    have member := mem_chunkIDs below
    rw [← here] at member
    exact absurd member (foreign req rfl)
  | heartbeat nodeID ts =>
    obtain ⟨registry, same⟩ := s.fsm.updateLastSeen_nodes_only nodeID ts
    refine ⟨sound.requests, ?_⟩
    intro started
    have recorded := sound.recorded started
    rw [same]
    exact ⟨recorded.file, recorded.chunk, recorded.complete⟩
  | createFile raft seen order strategy rf newID now cmd response orders creating accepted applied =>
    refine ⟨sound.requests, ?_⟩
    intro _
    change u.Recorded (s.fsm.handleCmdCreateFile cmd).1
    change (s.fsm.handleCmdCreateFile cmd).2 = none at applied
    rcases handleCmdCreateFile_cases s.fsm cmd with ⟨err, failed⟩ | ⟨_, _, created⟩
    · rw [failed] at applied
      cases applied
    · rw [created]
      obtain ⟨rfl, _⟩ := Server.createFile_command u.named accepted
      exact recorded_of_created distinct ⟨rfl, rfl, rfl, rfl, rfl⟩
  | createFailed | chunksFailed | commitFileFailed => exact ⟨sound.requests, by simp⟩
  | putChunk d placement frames server env arrived ending disk after commit started chunk placed
      framed whole served =>
    refine ⟨?_, sound.recorded⟩
    intro req sent
    rcases List.mem_append.mp sent with issued | earlier
    · obtain ⟨i, below, rfl⟩ := mem_descriptors chunk
      cases Option.mem_toList.mp issued
      obtain ⟨frame, received, id, checksum⟩ := StorageServer.putChunk_commits served
      obtain ⟨sameID, hash⟩ := frames_piece sized below framed (List.mem_of_mem_take received)
      exact ⟨i, below, id.trans sameID, checksum.trans hash⟩
    · exact sound.requests req earlier
  | commitChunk req orders sent =>
    refine sound.command ?_ orders _
    -- the request was made for a chunk of the file, and the id says for which
    intro _ held j below here
    cases held
    obtain ⟨i, inside, id, checksum⟩ := sound.requests req sent
    rw [checksum, distinct i j inside below (id.symm.trans here)]
  | attemptOk | attemptFailed | cancelled => exact ⟨sound.requests, sound.recorded⟩
  | commitFile orders sending stored applied =>
    have honest : u.Honest (.commitFile ⟨u.fileID, u.totalSize.toUInt64, []⟩) := nofun
    have kept := (sound.recorded (.inl sending)).step honest (handle_step s.fsm orders _)
    exact ⟨sound.requests, fun _ => kept⟩

theorem run_sound {u : Upload} (sized : u.Sized) (distinct : u.Distinct)
    {m : FSM} {s : UploadState} (run : UploadRun u (.start m) s) : u.Sound s := by
  induction run with
  | refl => exact ⟨by simp [UploadState.start], by simp [UploadState.start]⟩
  | tail _ step ih => exact step_sound sized distinct ih step

theorem step_succeeded {u : Upload} {s later : UploadState} (succeeded : s.phase = .succeeded)
    (step : UploadStep u s later) : later.phase = .succeeded := by
  cases step with
  | createFile _ _ _ _ _ _ _ _ _ _ creating | createFailed creating => cases succeeded.symm.trans creating
  | chunksFailed _ sending | commitFile _ sending | commitFileFailed sending =>
    cases succeeded.symm.trans sending
  | _ => exact succeeded

theorem run_succeeded {u : Upload} {s later : UploadState} (succeeded : s.phase = .succeeded)
    (run : UploadRun u s later) : later.phase = .succeeded := by
  induction run with
  | refl => exact succeeded
  | tail _ step ih => exact step_succeeded ih step

end Upload

end DistributedFs.Client
