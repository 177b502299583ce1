import DistributedFs.Data.Machine
import DistributedFs.Storage.GetChunk
import DistributedFs.Storage.PutStream
import DistributedFs.Storage.ReplicaStream

namespace DistributedFs.Storage

open Go Fsm Server WeightedMap DiskStore StorageServer

structure DeleteChunkResponse where
  code : Nat
  msg : String
  success : Bool

structure PutChunkResponse where
  code : Nat
  msg : String
  chunkId : String
  checksum : List UInt8

structure VerifyChunkResponse where
  code : Nat
  msg : String
  isValid : Bool

structure DeleteEnv where
  faults : Faults DeleteCall
  send : Option GoError

/-- What the end of a call of `PutChunk` meets: the answer of `CommitChunk`, and `SendAndClose`. -/
structure RespondEnv where
  commit : Option GoError
  send : Option GoError

structure PutAnswer where
  request : Option CommandCommitChunk
  response : Option PutChunkResponse
  result : Option RpcError

namespace StorageServer

def respond (env : RespondEnv) (request : Option CommandCommitChunk) (lastFrame : PutChunkRequest) : PutAnswer :=
  match request, env.commit with
  | some _, some err => ⟨request, none, some (internal ("metadata commit failed: " ++ err.text))⟩
  | _, _ =>
    match env.send with
    | some err => ⟨request, none, some { code := .unknown, message := err.text }⟩
    | none => ⟨request, some ⟨200, "Chunk Stored", lastFrame.chunkId, lastFrame.checksum⟩, none⟩

def putChunkRespond (server : StorageServer) (env : PutEnv) (ends : RespondEnv) (frames : List PutChunkRequest)
    (ending : Ending) (disk : Disk) : PutAnswer × Disk :=
  match server.receive env ending frames 0 none none disk with
  | (.error err, disk) => (⟨none, none, some err⟩, disk)
  | (.ok (receiving, lastFrame), disk) =>
    (respond ends (server.commitRequest env receiving lastFrame) lastFrame, disk)

def deleteChunk (server : StorageServer) (env : DeleteEnv) (chunkId : String) (disk : Disk) :
    (List DeleteChunkResponse × Option RpcError) × Disk :=
  if chunkId = "" then (([], some (invalidArgument "chunk_id must not be empty")), disk)
  else
    let answer : List DeleteChunkResponse × Option RpcError :=
      match env.send with
      | some err => ([], some { code := .unknown, message := err.text })
      | none => ([⟨200, "Chunk Deleted", true⟩], none)
    match server.store.delete env.faults (bytes chunkId) disk with
    | (disk, none) => (answer, disk)
    | (disk, some err) =>
      -- a chunk that is not there counts as deleted
      if err = errChunkNotFound then (answer, disk)
      else (([], some (internal "failed to delete chunk")), disk)

def verifyChunk (server : StorageServer) (fault : Option GoError) (chunkId : String)
    (checksum : List UInt8) (disk : Disk) : Except RpcError VerifyChunkResponse :=
  if chunkId = "" then .error (invalidArgument "chunk_id must not be empty")
  else if server.store.exists_ (bytes chunkId) disk = false then .error (notFound "chunk not found")
  else
    match server.store.verify fault (bytes chunkId) disk with
    | .error err =>
      if err = errVerifyFailed then .ok ⟨200, "verification complete", false⟩
      else .error (internal "verification failed")
    | .ok computed =>
      if checksum.length > 0 ∧ computed ≠ checksum then .ok ⟨200, "verification complete", false⟩
      else .ok ⟨200, "verification complete", true⟩

end StorageServer

/-- A call, with what its stream and the metadata server do: where the stream of frames ends, which
    `Send` fails, which peers confirm and how `CommitChunk` answers. -/
inductive Call where
  | putChunk (frames : List PutChunkRequest) (ending : Ending) (successfulReplicas : List String)
    (ends : RespondEnv) (short : (payload frames).length < 2 ^ 63)
  | replicateChunk (frames : List ReplicateChunkRequest) (ending : Ending) (send : Nat → Option GoError)
    (short : (content frames).length < 2 ^ 63)
  | getChunk (chunkId : String) (send : Nat → Option GoError)
  | deleteChunk (chunkId : String) (send : Option GoError)
  | verifyChunk (chunkId : String) (checksum : List UInt8)

inductive Reply where
  | put (answer : PutAnswer)
  | replicated (responses : List ReplicateChunkResponse) (answer : Option RpcError)
  | got (frames : List Frame) (answer : Option RpcError)
  | deleted (responses : List DeleteChunkResponse) (answer : Option RpcError)
  | verified (answer : Except RpcError VerifyChunkResponse)

def ReplicateEnv.sending (send : Nat → Option GoError) : ReplicateEnv := { ReplicateEnv.quiet with send := send }

def GetEnv.sending (send : Nat → Option GoError) : GetEnv := { reliable with send := send }

/-- A call served by a node whose disk works, with no other call beside it. -/
def StorageServer.serve (server : StorageServer) : Machine Call Disk Reply
  | .putChunk frames ending successfulReplicas ends _, disk =>
    let done := server.putChunkRespond (.quiet successfulReplicas) ends frames ending disk
    (.put done.1, done.2)
  | .replicateChunk frames ending send _, disk =>
    let done := Storage.replicateChunk server.store (.sending send) frames ending disk
    (.replicated (ReplicateChunk.sent server.store (.sending send) frames 0 none disk) done.1, done.2)
  | .getChunk chunkId send, disk =>
    let done := server.getChunk (.sending send) chunkId disk
    (.got done.1 done.2, disk)
  | .deleteChunk chunkId send, disk =>
    let done := server.deleteChunk ⟨DeleteCall.onDelete none, send⟩ chunkId disk
    (.deleted done.1.1 done.1.2, done.2)
  | .verifyChunk chunkId checksum, disk => (.verified (server.verifyChunk none chunkId checksum disk), disk)

def laterVerdict (ending : Ending) (chunkId : String) (frames rest : List PutChunkRequest) :
    Except RpcError PutChunkRequest :=
  if ∃ frame ∈ rest, frame.chunkId ≠ chunkId then
    .error (invalidArgument "chunk-id mismatch across frames")
  else if ending = .broken then .error (internal "stream error")
  else
    match frames.getLast? with
    | none => .error (invalidArgument "no data received")
    | some lastFrame =>
      if lastFrame.isLast = false then .error (invalidArgument "stream closed before final frame")
      else if lastFrame.checksum ≠ Sha256.sum256 (payload frames) then
        .error (internal "failed to finalize chunk")
      else .ok lastFrame

/-- The last frame of a stream of `PutChunk` that may be stored, or the error that the stream
    by itself gives rise to. -/
def putVerdict (ds : DiskStore) (ending : Ending) : List PutChunkRequest →
    Except RpcError PutChunkRequest
  | [] =>
    match ending with
    | .eof => .error (invalidArgument "no data received")
    | .broken => .error (internal "stream error")
  | first :: rest =>
    if ds.validateChunkId (bytes first.chunkId) ≠ .ok () then
      .error (internal "failed to initialise chunk writer")
    else laterVerdict ending first.chunkId (first :: rest) rest

def replicaOpened (ds : DiskStore) (frame : ReplicateChunkRequest)
    (received : Option (String × List UInt8)) : Except RpcError (String × List UInt8) :=
  if frame.isFirst then
    if frame.chunkId = "" then
      .error (invalidArgument "chunk_id must not be empty on first frame")
    else if ds.validateChunkId (bytes frame.chunkId) ≠ .ok () then
      .error (internal "failed to initialise chunk writer")
    else .ok (frame.chunkId, [])
  else received.elim (.error (invalidArgument "first frame must have is_first=true")) .ok

/-- What a stream of `ReplicateChunk` amounts to: an error, a sender that left early, or a chunk whose
    last frame is the one with this number. -/
abbrev ReplicaVerdict := Except RpcError (Option (Nat × String × List UInt8))

/-- The acknowledgements of a stream of `ReplicateChunk` and what it amounts to, given what has been
    received of a chunk. A frame that cannot be acknowledged ends it. -/
def replicaVerdict (ds : DiskStore) (ending : Ending) (send : Nat → Option GoError) :
    List ReplicateChunkRequest → Nat → Option (String × List UInt8) →
    List ReplicateChunkResponse × ReplicaVerdict
  | [], _, received =>
    match ending, received with
    | .eof, none => ([], .error (invalidArgument "no frames received"))
    | .eof, some _ => ([], .ok none)
    | .broken, _ => ([], .error (internal "stream recv error"))
  | frame :: rest, k, received =>
    match replicaOpened ds frame received with
    | .error err => ([], .error err)
    | .ok (chunkId, data) =>
      if frame.chunkId ≠ "" ∧ frame.chunkId ≠ chunkId then
        ([], .error (invalidArgument "chunk_id mismatch mid-stream"))
      else if frame.isLast then ([], .ok (some (k, chunkId, data ++ frame.data)))
      else if (send k).isSome then ([], .error (internal "failed to send frame ack"))
      else
        let later := replicaVerdict ds ending send rest (k + 1) (some (chunkId, data ++ frame.data))
        (⟨true, false, "", []⟩ :: later.1, later.2)

def cut (frameSize : Nat) (positive : 0 < frameSize) (content : List UInt8) : List Frame :=
  if content = [] then []
  else if content.length ≤ frameSize then [⟨content, Sha256.sum256 content, true⟩]
  else
    ⟨content.take frameSize, Sha256.sum256 (content.take frameSize), false⟩ ::
      cut frameSize positive (content.drop frameSize)
termination_by content.length
decreasing_by
  rw [List.length_drop]
  omega

def streamed (send : Nat → Option GoError) : List Frame → Nat → List Frame × Option RpcError
  | [], _ => ([], none)
  | frame :: rest, k =>
    if (send k).isSome then ([], some (internal "failed to send chunk frame"))
    else (frame :: (streamed send rest (k + 1)).1, (streamed send rest (k + 1)).2)

def replicaTargets (frames : List PutChunkRequest) : List String :=
  (frames.head?.elim [] PutChunkRequest.replicateTo).filter (· ≠ "")

/-- What the calls mean for a map from chunk ids to bytes. The chunk of a call that fails behind the
    map, at `CommitChunk` or the response, stays in it. -/
def StorageServer.meaning (server : StorageServer) : Machine Call (Contents server.store) Reply
  | .putChunk frames ending successfulReplicas ends _, m =>
    match putVerdict server.store ending frames with
    | .error err => (.put ⟨none, none, some err⟩, m)
    | .ok lastFrame =>
      match m.put (bytes lastFrame.chunkId) (payload frames) with
      | none => (.put ⟨none, none, some (internal "failed to finalize chunk")⟩, m)
      | some later =>
        let checksum := Sha256.sum256 (payload frames)
        let confirmedNodes := server.nodeID ::
          if server.hasReplicator ∧ replicaTargets frames ≠ [] then successfulReplicas else []
        let request : Option CommandCommitChunk :=
          if server.hasMetaClient then some ⟨lastFrame.chunkId, confirmedNodes, checksum⟩ else none
        match if server.hasMetaClient then ends.commit else none, ends.send with
        | some err, _ => (.put ⟨request, none, some (internal ("metadata commit failed: " ++ err.text))⟩, later)
        | none, some err => (.put ⟨request, none, some { code := .unknown, message := err.text }⟩, later)
        | none, none => (.put ⟨request, some ⟨200, "Chunk Stored", lastFrame.chunkId, checksum⟩, none⟩, later)
  | .replicateChunk frames ending send _, m =>
    match replicaVerdict server.store ending send frames 0 none with
    | (acks, .error err) => (.replicated acks (some err), m)
    | (acks, .ok none) => (.replicated acks none, m)
    | (acks, .ok (some (k, chunkId, data))) =>
      match m.put (bytes chunkId) data, send k with
      | none, _ => (.replicated acks (some (internal "failed to finalise chunk")), m)
      | some later, some err => (.replicated acks (some { code := .unknown, message := err.text }), later)
      | some later, none => (.replicated (acks ++ [⟨true, true, chunkId, Sha256.sum256 data⟩]) none, later)
  | .getChunk chunkId send, m =>
    if chunkId = "" then (.got [] (some (invalidArgument "chunk_id must not be empty")), m)
    else
      match m.lookup (bytes chunkId) with
      | none => (.got [] (some (notFound "chunk not found")), m)
      | some content =>
        let sent := streamed send (cut defaultFrameSize defaultFrameSize_pos content) 0
        (.got sent.1 sent.2, m)
  | .deleteChunk chunkId send, m =>
    if chunkId = "" then (.deleted [] (some (invalidArgument "chunk_id must not be empty")), m)
    else if server.store.validateChunkId (bytes chunkId) ≠ .ok () then
      (.deleted [] (some (internal "failed to delete chunk")), m)
    else
      let later := if (m.lookup (bytes chunkId)).isSome then m.erase (bytes chunkId) else m
      match send with
      | some err => (.deleted [] (some { code := .unknown, message := err.text }), later)
      | none => (.deleted [⟨200, "Chunk Deleted", true⟩] none, later)
  | .verifyChunk chunkId checksum, m =>
    if chunkId = "" then (.verified (.error (invalidArgument "chunk_id must not be empty")), m)
    else
      match m.lookup (bytes chunkId) with
      | none => (.verified (.error (notFound "chunk not found")), m)
      | some content =>
        (.verified (.ok ⟨200, "verification complete",
          decide (checksum = [] ∨ checksum = Sha256.sum256 content)⟩), m)

section Put

variable {server : StorageServer} {m : Contents server.store} {before disk after : Disk}
  {frames taken : List PutChunkRequest} {receiving : Receiving} {ending : Ending} {replicas : List String}

inductive Received (ds : DiskStore) (m : Contents ds) (frames : List PutChunkRequest)
    (replicateTo : List String) :
    Except RpcError PutChunkRequest → Except RpcError (Receiving × PutChunkRequest) × Disk → Prop where
  | refused (err : RpcError) (after : Disk) (held : Represents ds after m) :
    Received ds m frames replicateTo (.error err) (.error err, after)
  | full (lastFrame : PutChunkRequest) (full : m.put (bytes lastFrame.chunkId) (payload frames) = none)
    (after : Disk) (held : Represents ds after m) :
    Received ds m frames replicateTo (.ok lastFrame) (.error (internal "failed to finalize chunk"), after)
  | stored (lastFrame : PutChunkRequest) (later : Contents ds)
    (room : m.put (bytes lastFrame.chunkId) (payload frames) = some later) (receiving : Receiving)
    (targets : receiving.replicateTo = replicateTo) (after : Disk) (held : Represents ds after later) :
    Received ds m frames replicateTo (.ok lastFrame) (.ok (receiving, lastFrame), after)

theorem Underway.aborted (underway : Underway server.store before disk taken receiving)
    (repr : Represents server.store before m) :
    Represents server.store (receiving.writer.abort none disk).2 m :=
  underway.writing.abort.represents underway.writing.temporary repr

theorem laterVerdict_eof {frames : List PutChunkRequest} {chunkId : String} {lastFrame : PutChunkRequest}
    (last : frames.getLast? = some lastFrame) :
    laterVerdict .eof chunkId frames [] =
      if lastFrame.isLast = false then .error (invalidArgument "stream closed before final frame")
      else if lastFrame.checksum ≠ Sha256.sum256 (payload frames) then
        .error (internal "failed to finalize chunk")
      else .ok lastFrame := by
  simp [laterVerdict, last]

theorem endStream_received (underway : Underway server.store before disk taken receiving)
    (repr : Represents server.store before m) (short : (payload taken).length < 2 ^ 63) :
    Received server.store m taken receiving.replicateTo
      (laterVerdict ending receiving.registeredChunkId taken [])
      (server.endStream (.quiet replicas) ending (some receiving) taken.getLast? disk) := by
  cases ending with
  | broken =>
    have verdict : laterVerdict .broken receiving.registeredChunkId taken [] =
        .error (internal "stream error") := by simp [laterVerdict]
    rw [verdict]
    exact .refused _ _ (underway.aborted repr)
  | eof =>
    cases last : taken.getLast? with
    | none => exact absurd (List.getLast?_eq_none_iff.mp last) underway.started
    | some lastFrame =>
      rw [laterVerdict_eof last]
      simp only [endStream]
      by_cases open_ : lastFrame.isLast = false
      · rw [if_pos open_, if_pos open_]
        exact .refused _ _ (underway.aborted repr)
      · rw [if_neg open_, if_neg open_]
        have writing := underway.writing
        have quiet : (PutEnv.quiet replicas).rename = RenameCall.onPut none ∧
          (PutEnv.quiet replicas).remove = none := ⟨rfl, rfl⟩
        rw [quiet.1, quiet.2]
        have computed : receiving.writer.computedChecksum = Sha256.sum256 (payload taken) := by
          rw [ChunkWriter.computedChecksum, underway.hashed]
        by_cases matched : lastFrame.checksum = Sha256.sum256 (payload taken)
        · rw [if_neg (not_not.mpr matched), matched, ← computed]
          have member : lastFrame ∈ taken := List.mem_of_getLast? last
          have id : receiving.writer.chunkId = bytes lastFrame.chunkId := by
            rw [underway.ids lastFrame member, underway.id]
          have small : receiving.writer.hasher.length < 2 ^ 64 := by
            rw [underway.hashed]
            omega
          have outcome := writing.finalize repr small
          rw [id, underway.hashed] at outcome
          rcases outcome with ⟨full, later, after, err, ran, gone⟩ | ⟨m', later, after, room, ran, held, _⟩
          · rw [ran]
            exact .full lastFrame full after (gone.represents writing.temporary repr)
          · rw [ran]
            exact .stored lastFrame m' room receiving rfl after held
        · rw [if_pos matched]
          have differs : receiving.writer.computedChecksum ≠ lastFrame.checksum := by
            rw [computed]
            exact Ne.symm matched
          obtain ⟨later, after, err, ran, gone⟩ := writing.finalize_mismatch differs
          rw [ran]
          exact .refused _ after (gone.represents writing.temporary repr)

theorem takeFrame_replicateTo {later : Receiving} {frame : PutChunkRequest} {k : Nat}
    (took : server.takeFrame (.quiet replicas) k frame (some receiving) disk = (.ok later, after)) :
    later.replicateTo = receiving.replicateTo := by
  simp only [takeFrame, openWriter] at took
  split at took
  · cases took
  · split at took
    · cases took
    · cases took
      rfl

theorem takeFrame_registered {frame : PutChunkRequest} {k : Nat}
    (took : server.takeFrame (.quiet replicas) k frame none disk = (.ok receiving, after)) :
    receiving.registeredChunkId = frame.chunkId ∧
      receiving.replicateTo = frame.replicateTo.filter (· ≠ "") := by
  simp only [takeFrame, openWriter] at took
  split at took
  · cases took
  · rename_i opened _ created
    split at created
    · cases created
    · cases created
      split at took
      · cases took
      · split at took
        · cases took
        · cases took
          exact ⟨rfl, rfl⟩

theorem laterVerdict_cons {chunkId : String} {frame : PutChunkRequest} {rest : List PutChunkRequest} :
    laterVerdict ending chunkId frames (frame :: rest) =
      if frame.chunkId ≠ chunkId then .error (invalidArgument "chunk-id mismatch across frames")
      else laterVerdict ending chunkId frames rest := by
  by_cases same : frame.chunkId = chunkId
  · simp [laterVerdict, same]
  · simp [laterVerdict, same]

theorem receive_received (rest : List PutChunkRequest) :
    ∀ {taken : List PutChunkRequest} {receiving : Receiving} {disk : Disk} (k : Nat),
      Underway server.store before disk taken receiving → Represents server.store before m →
      (payload (taken ++ rest)).length < 2 ^ 63 →
      Received server.store m (taken ++ rest) receiving.replicateTo
        (laterVerdict ending receiving.registeredChunkId (taken ++ rest) rest)
        (server.receive (.quiet replicas) ending rest k (some receiving) taken.getLast? disk) := by
  induction rest with
  | nil =>
    intro taken receiving disk k underway repr short
    rw [List.append_nil] at short ⊢
    exact endStream_received underway repr short
  | cons frame rest ih =>
    intro taken receiving disk k underway repr short
    have quiet : (PutEnv.quiet replicas).others k disk = disk := rfl
    rw [receive, quiet, laterVerdict_cons]
    rcases takeFrame_underway underway replicas k frame with ⟨other, ended⟩ | ⟨later, after, took, going⟩
    · rw [ended, if_pos other]
      exact .refused _ _ (underway.aborted repr)
    · have whole : taken ++ frame :: rest = taken ++ [frame] ++ rest := by simp
      have last : (taken ++ [frame]).getLast? = some frame := by simp
      have registered : later.registeredChunkId = receiving.registeredChunkId := by
        obtain ⟨first, member, _⟩ := underway.first (List.prefix_refl taken)
        rw [← going.ids first (List.mem_append_left _ member), underway.ids first member]
      have same : frame.chunkId = receiving.registeredChunkId := by
        rw [going.ids frame (by simp), registered]
      rw [took, if_neg (not_not.mpr same), whole, ← takeFrame_replicateTo took, ← registered, ← last]
      rw [whole] at short
      exact ih (k + 1) going repr short

theorem putVerdict_checksum {ds : DiskStore} {lastFrame : PutChunkRequest}
    (accepted : putVerdict ds ending frames = .ok lastFrame) :
    lastFrame.checksum = Sha256.sum256 (payload frames) := by
  cases frames with
  | nil => cases ending <;> cases accepted
  | cons first rest =>
    simp only [putVerdict] at accepted
    split at accepted
    · cases accepted
    · unfold laterVerdict at accepted
      split at accepted
      · cases accepted
      · split at accepted
        · cases accepted
        · split at accepted
          · cases accepted
          · split at accepted
            · cases accepted
            · split at accepted
              · cases accepted
              · rename_i matched
                cases accepted
                exact not_not.mp matched

theorem receive_start (repr : Represents server.store disk m) (frames : List PutChunkRequest)
    (ending : Ending) (replicas : List String) (short : (payload frames).length < 2 ^ 63) :
    Received server.store m frames (replicaTargets frames) (putVerdict server.store ending frames)
      (server.receive (.quiet replicas) ending frames 0 none none disk) := by
  cases frames with
  | nil =>
    cases ending with
    | eof => exact .refused _ _ repr
    | broken => exact .refused _ _ repr
  | cons first rest =>
    have quiet : (PutEnv.quiet replicas).others 0 disk = disk := rfl
    rw [receive, quiet, putVerdict]
    rcases server.store.validateChunkId_cases (bytes first.chunkId) with valid | invalid
    · obtain ⟨receiving, after, took, underway⟩ := takeFrame_first valid replicas 0 disk
      have opened := takeFrame_registered took
      have head : replicaTargets (first :: rest) = first.replicateTo.filter (· ≠ "") := rfl
      rw [took, if_neg (not_not.mpr valid), head, ← opened.1, ← opened.2]
      exact receive_received rest 1 underway repr short
    · have refused : server.takeFrame (.quiet replicas) 0 first none disk =
          (.error (internal "failed to initialise chunk writer"), disk) := by
        simp only [takeFrame, openWriter, newChunkWriter_invalid invalid]
      have differs : server.store.validateChunkId (bytes first.chunkId) ≠ .ok () := by
        rw [invalid]
        simp
      rw [refused, if_pos differs]
      exact .refused _ _ repr

theorem putChunk_meaning (repr : Represents server.store disk m) (frames : List PutChunkRequest)
    (ending : Ending) (replicas : List String) (ends : RespondEnv) (short : (payload frames).length < 2 ^ 63) :
    (server.serve (.putChunk frames ending replicas ends short) disk).1 =
        (server.meaning (.putChunk frames ending replicas ends short) m).1 ∧
      Represents server.store (server.serve (.putChunk frames ending replicas ends short) disk).2
        (server.meaning (.putChunk frames ending replicas ends short) m).2 := by
  have received := receive_start repr frames ending replicas short
  simp only [StorageServer.serve, StorageServer.meaning, putChunkRespond]
  generalize server.receive (.quiet replicas) ending frames 0 none none disk = outcome at received
  generalize accepted : putVerdict server.store ending frames = verdict at received
  cases received with
  | refused err after held => exact ⟨rfl, held⟩
  | full lastFrame full after held =>
    simp only [full]
    exact ⟨trivial, held⟩
  | stored lastFrame later room receiving targets after held =>
    have checksum := putVerdict_checksum accepted
    have replicated : (PutEnv.quiet replicas).successfulReplicas = replicas := rfl
    simp only [room, commitRequest, targets, checksum, replicated]
    obtain ⟨commit, send⟩ := ends
    cases server.hasMetaClient with
    | false => cases send <;> exact ⟨by simp [respond, checksum], held⟩
    | true => cases commit <;> cases send <;> exact ⟨by simp [respond, checksum], held⟩

end Put

section Replicate

variable {ds : DiskStore} {m : Contents ds} {disk : Disk} {ending : Ending} {send : Nat → Option GoError}

inductive Delivered (ds : DiskStore) (m : Contents ds) (send : Nat → Option GoError) :
    List ReplicateChunkResponse × ReplicaVerdict → List ReplicateChunkResponse → Option RpcError × Disk →
    Prop where
  | refused (acks : List ReplicateChunkResponse) (err : RpcError) (after : Disk)
    (held : Represents ds after m) : Delivered ds m send (acks, .error err) acks (some err, after)
  | closed (acks : List ReplicateChunkResponse) (after : Disk) (held : Represents ds after m) :
    Delivered ds m send (acks, .ok none) acks (none, after)
  | full (acks : List ReplicateChunkResponse) (k : Nat) (chunkId : String) (data : List UInt8)
    (full : m.put (bytes chunkId) data = none) (after : Disk) (held : Represents ds after m) :
    Delivered ds m send (acks, .ok (some (k, chunkId, data))) acks
      (some (internal "failed to finalise chunk"), after)
  | stored (acks : List ReplicateChunkResponse) (k : Nat) (chunkId : String) (data : List UInt8)
    (later : Contents ds) (room : m.put (bytes chunkId) data = some later) (sent : send k = none)
    (after : Disk) (held : Represents ds after later) :
    Delivered ds m send (acks, .ok (some (k, chunkId, data)))
      (acks ++ [⟨true, true, chunkId, Sha256.sum256 data⟩]) (none, after)
  | unsent (acks : List ReplicateChunkResponse) (k : Nat) (chunkId : String) (data : List UInt8)
    (later : Contents ds) (room : m.put (bytes chunkId) data = some later) (err : GoError)
    (lost : send k = some err) (after : Disk) (held : Represents ds after later) :
    Delivered ds m send (acks, .ok (some (k, chunkId, data))) acks
      (some { code := .unknown, message := err.text }, after)

theorem Delivered.acked {verdict : List ReplicateChunkResponse × ReplicaVerdict}
    {responses : List ReplicateChunkResponse} {outcome : Option RpcError × Disk}
    (delivered : Delivered ds m send verdict responses outcome) (ack : ReplicateChunkResponse) :
    Delivered ds m send (ack :: verdict.1, verdict.2) (ack :: responses) outcome := by
  cases delivered with
  | refused acks err after held => exact .refused _ err after held
  | closed acks after held => exact .closed _ after held
  | full acks k chunkId data full after held => exact .full _ k chunkId data full after held
  | stored acks k chunkId data later room sent after held =>
    exact .stored (ack :: acks) k chunkId data later room sent after held
  | unsent acks k chunkId data later room err lost after held =>
    exact .unsent _ k chunkId data later room err lost after held

def replies (ds : DiskStore) (env : ReplicateEnv) (rest : List ReplicateChunkRequest) (k : Nat)
    (turn : Turn × Disk) : List ReplicateChunkResponse :=
  match turn with
  | (.failed _, _) => []
  | (.finished response, _) => [response]
  | (.acked incoming, disk) => ReplicateChunk.ack :: ReplicateChunk.sent ds env rest (k + 1) (some incoming) disk

theorem sent_cons {env : ReplicateEnv} (idle : env.Idle) (frame : ReplicateChunkRequest)
    (rest : List ReplicateChunkRequest) (k : Nat) (incoming : Option Incoming) (disk : Disk) :
    ReplicateChunk.sent ds env (frame :: rest) k incoming disk =
      replies ds env rest k (ReplicateChunk.takeFrame ds env k frame incoming disk) := by
  rw [ReplicateChunk.sent, idle]
  rfl

theorem sending_idle (send : Nat → Option GoError) : (ReplicateEnv.sending send).Idle := fun _ _ => rfl

structure Buffered (ds : DiskStore) (m : Contents ds) (incoming : Incoming) (disk : Disk)
    (data : List UInt8) : Prop where
  writing : ∃ before, Writing ds before disk incoming.writer ∧ Represents ds before m
  id : incoming.writer.chunkId = bytes incoming.registeredChunkId
  hashed : incoming.writer.hasher = data

theorem Buffered.aborted {incoming : Incoming} {data : List UInt8} (buffered : Buffered ds m incoming disk data) :
    Represents ds (incoming.writer.abort none disk).2 m := by
  obtain ⟨before, writing, repr⟩ := buffered.writing
  exact writing.abort.represents writing.temporary repr

theorem fill_delivered {incoming : Incoming} {data : List UInt8}
    (buffered : Buffered ds m incoming disk data) (frame : ReplicateChunkRequest)
    (rest : List ReplicateChunkRequest) (k : Nat)
    (short : (data ++ frame.data).length < 2 ^ 64)
    (goes : ∀ later after, later.registeredChunkId = incoming.registeredChunkId →
      Buffered ds m later after (data ++ frame.data) →
      Delivered ds m send
        (replicaVerdict ds ending send rest (k + 1) (some (incoming.registeredChunkId, data ++ frame.data)))
        (ReplicateChunk.sent ds (.sending send) rest (k + 1) (some later) after)
        (ReplicateChunk.serve ds (.sending send) ending rest (k + 1) (some later) after)) :
    Delivered ds m send
      (if frame.chunkId ≠ "" ∧ frame.chunkId ≠ incoming.registeredChunkId then
        ([], .error (invalidArgument "chunk_id mismatch mid-stream"))
      else if frame.isLast then ([], .ok (some (k, incoming.registeredChunkId, data ++ frame.data)))
      else if (send k).isSome then ([], .error (internal "failed to send frame ack"))
      else
        let later := replicaVerdict ds ending send rest (k + 1)
          (some (incoming.registeredChunkId, data ++ frame.data))
        (⟨true, false, "", []⟩ :: later.1, later.2))
      (replies ds (.sending send) rest k (ReplicateChunk.fill ds (.sending send) k frame incoming disk))
      (resume ds (.sending send) ending rest k
        (ReplicateChunk.fill ds (.sending send) k frame incoming disk)) := by
  unfold ReplicateChunk.fill
  by_cases other : frame.chunkId ≠ "" ∧ frame.chunkId ≠ incoming.registeredChunkId
  · rw [if_pos other, if_pos other]
    exact .refused [] _ _ buffered.aborted
  · rw [if_neg other, if_neg other]
    obtain ⟨before, writing, repr⟩ := buffered.writing
    obtain ⟨later, after, written, held, id, path, hashed⟩ := writing.writeData frame.data
    rw [buffered.hashed] at hashed
    have quiet : (ReplicateEnv.sending send).write k = none := rfl
    have sends : (ReplicateEnv.sending send).send k = send k := rfl
    rw [quiet, written, sends]
    have grown : Buffered ds m ⟨later, incoming.registeredChunkId⟩ after (data ++ frame.data) :=
      ⟨⟨before, held, repr⟩, id.trans buffered.id, hashed⟩
    cases last : frame.isLast with
    | false =>
      cases sent : send k with
      | some err => exact .refused [] _ _ grown.aborted
      | none => exact (goes ⟨later, incoming.registeredChunkId⟩ after rfl grown).acked _
    | true =>
      have outcome := held.finalize repr (by rw [hashed]; exact short)
      rw [id, buffered.id, hashed] at outcome
      rcases outcome with ⟨full, closed, final, err, ran, gone⟩ | ⟨m', closed, final, room, ran, stored, _⟩
      · have ran : later.finalize ds (ReplicateEnv.sending send).rename (ReplicateEnv.sending send).remove
            later.computedChecksum after = ((closed, final), some err) := ran
        simp only [if_true, ran]
        exact .full [] k _ _ full _ (gone.represents held.temporary repr)
      · have ran : later.finalize ds (ReplicateEnv.sending send).rename (ReplicateEnv.sending send).remove
            later.computedChecksum after = ((closed, final), none) := ran
        have checksum : later.computedChecksum = Sha256.sum256 (data ++ frame.data) := by
          rw [ChunkWriter.computedChecksum, hashed]
        simp only [if_true, ran]
        rw [checksum]
        cases sent : send k with
        | some err => exact .unsent [] k _ _ m' room err sent _ stored
        | none => exact .stored [] k _ _ m' room sent _ stored

theorem first_delivered {frame : ReplicateChunkRequest} (first : frame.isFirst = true)
    (repr : Represents ds disk m) (rest : List ReplicateChunkRequest) (k : Nat)
    (short : frame.data.length < 2 ^ 64)
    (goes : ∀ later after, later.registeredChunkId = frame.chunkId → Buffered ds m later after frame.data →
      Delivered ds m send (replicaVerdict ds ending send rest (k + 1) (some (frame.chunkId, frame.data)))
        (ReplicateChunk.sent ds (.sending send) rest (k + 1) (some later) after)
        (ReplicateChunk.serve ds (.sending send) ending rest (k + 1) (some later) after))
    (incoming : Option Incoming) (received : Option (String × List UInt8)) :
    Delivered ds m send (replicaVerdict ds ending send (frame :: rest) k received)
      (ReplicateChunk.sent ds (.sending send) (frame :: rest) k incoming disk)
      (ReplicateChunk.serve ds (.sending send) ending (frame :: rest) k incoming disk) := by
  rw [serve_cons (sending_idle send), sent_cons (sending_idle send), replicaVerdict]
  by_cases unnamed : frame.chunkId = ""
  · have refused : ReplicateChunk.takeFrame ds (.sending send) k frame incoming disk =
        (.failed (invalidArgument "chunk_id must not be empty on first frame"), disk) := by
      simp only [ReplicateChunk.takeFrame, ReplicateChunk.openWriter, first, unnamed, if_true]
    simp only [refused, replicaOpened, first, unnamed, if_true]
    exact .refused [] _ _ repr
  · rcases ds.validateChunkId_cases (bytes frame.chunkId) with valid | invalid
    · obtain ⟨cw, after, writing, id, hashed, took⟩ :=
        takeFrame_opens first valid (.sending send) k rfl incoming disk
      have opened : replicaOpened ds frame received = .ok (frame.chunkId, []) := by
        simp only [replicaOpened, first, unnamed, valid, if_true, if_false, ne_eq, not_true_eq_false]
      rw [took, opened]
      have buffered : Buffered ds m ⟨cw, frame.chunkId⟩ after [] := ⟨⟨disk, writing, repr⟩, id, hashed⟩
      exact fill_delivered buffered frame rest k short goes
    · have refused : ReplicateChunk.takeFrame ds (.sending send) k frame incoming disk =
          (.failed (internal "failed to initialise chunk writer"), disk) := by
        simp only [ReplicateChunk.takeFrame, ReplicateChunk.openWriter, first, unnamed, if_true, if_false,
          newChunkWriter_invalid invalid]
      have differs : ds.validateChunkId (bytes frame.chunkId) ≠ .ok () := by
        rw [invalid]
        simp
      have opened : replicaOpened ds frame received =
          .error (internal "failed to initialise chunk writer") := by
        simp only [replicaOpened, first, unnamed, if_true, if_false, if_pos differs]
      rw [refused, opened]
      exact .refused [] _ _ repr

theorem serve_buffered (frames : List ReplicateChunkRequest) :
    ∀ (k : Nat) (disk : Disk) (incoming : Incoming) (data : List UInt8), Buffered ds m incoming disk data →
      data.length + (content frames).length < 2 ^ 64 →
      Delivered ds m send
        (replicaVerdict ds ending send frames k (some (incoming.registeredChunkId, data)))
        (ReplicateChunk.sent ds (.sending send) frames k (some incoming) disk)
        (ReplicateChunk.serve ds (.sending send) ending frames k (some incoming) disk) := by
  induction frames with
  | nil =>
    intro k disk incoming data buffered _
    obtain ⟨before, writing, repr⟩ := buffered.writing
    cases ending with
    | eof => exact .closed [] _ (writing.represents repr)
    | broken => exact .refused [] _ _ buffered.aborted
  | cons frame rest ih =>
    intro k disk incoming data buffered short
    rw [length_content_cons] at short
    cases first : frame.isFirst with
    | true =>
      obtain ⟨before, writing, repr⟩ := buffered.writing
      refine first_delivered first (writing.represents repr) rest k (by omega) ?_ _ _
      intro later after same grown
      rw [← same]
      exact ih (k + 1) after later _ grown (by omega)
    | false =>
      have opened : replicaOpened ds frame (some (incoming.registeredChunkId, data)) =
          .ok (incoming.registeredChunkId, data) := by
        simp [replicaOpened, first]
      rw [serve_cons (sending_idle send), sent_cons (sending_idle send), replicaVerdict, opened,
        takeFrame_later first]
      refine fill_delivered buffered frame rest k (by rw [List.length_append]; omega) ?_
      intro later after same grown
      rw [← same]
      exact ih (k + 1) after later _ grown (by rw [List.length_append]; omega)

theorem serve_delivered (repr : Represents ds disk m) (ending : Ending) (send : Nat → Option GoError)
    (frames : List ReplicateChunkRequest) (short : (content frames).length < 2 ^ 64) :
    Delivered ds m send (replicaVerdict ds ending send frames 0 none)
      (ReplicateChunk.sent ds (.sending send) frames 0 none disk)
      (ReplicateChunk.serve ds (.sending send) ending frames 0 none disk) := by
  cases frames with
  | nil =>
    cases ending with
    | eof => exact .refused [] _ _ repr
    | broken => exact .refused [] _ _ repr
  | cons frame rest =>
    rw [length_content_cons] at short
    cases first : frame.isFirst with
    | true =>
      refine first_delivered first repr rest 0 (by omega) ?_ _ _
      intro later after same grown
      rw [← same]
      exact serve_buffered rest 1 after later _ grown (by omega)
    | false =>
      have refused : ReplicateChunk.takeFrame ds (.sending send) 0 frame none disk =
          (.failed (invalidArgument "first frame must have is_first=true"), disk) := by
        simp only [ReplicateChunk.takeFrame, ReplicateChunk.openWriter, first, Bool.false_eq_true, if_false]
      have opened : replicaOpened ds frame none =
          .error (invalidArgument "first frame must have is_first=true") := by
        simp [replicaOpened, first]
      rw [serve_cons (sending_idle send), sent_cons (sending_idle send), refused, replicaVerdict, opened]
      exact .refused [] _ _ repr

theorem replicateChunk_meaning {server : StorageServer} {m : Contents server.store}
    (repr : Represents server.store disk m) (frames : List ReplicateChunkRequest) (ending : Ending)
    (send : Nat → Option GoError) (short : (content frames).length < 2 ^ 63) :
    (server.serve (.replicateChunk frames ending send short) disk).1 =
        (server.meaning (.replicateChunk frames ending send short) m).1 ∧
      Represents server.store (server.serve (.replicateChunk frames ending send short) disk).2
        (server.meaning (.replicateChunk frames ending send short) m).2 := by
  have delivered := serve_delivered repr ending send frames (by omega)
  simp only [StorageServer.serve, StorageServer.meaning, replicateChunk]
  generalize ReplicateChunk.serve server.store (.sending send) ending frames 0 none disk = outcome at delivered
  generalize ReplicateChunk.sent server.store (.sending send) frames 0 none disk = responses at delivered
  generalize replicaVerdict server.store ending send frames 0 none = verdict at delivered
  cases delivered with
  | refused acks err after held => exact ⟨rfl, held⟩
  | closed acks after held => exact ⟨rfl, held⟩
  | full acks k chunkId data full after held =>
    simp only [full]
    exact ⟨trivial, held⟩
  | stored acks k chunkId data later room sent after held =>
    simp only [room, sent]
    exact ⟨trivial, held⟩
  | unsent acks k chunkId data later room err lost after held =>
    simp only [room, lost]
    exact ⟨trivial, held⟩

end Replicate

section Reads

variable {server : StorageServer} {m : Contents server.store} {disk : Disk}

theorem newChunkReader_default {ds : DiskStore} {chunkId : GoString} {content : List UInt8}
    (reads : ds.read none chunkId disk = .ok content) :
    newChunkReader ds none chunkId 0 disk = .ok ⟨defaultFrameSize, content, defaultFrameSize_pos⟩ := by
  obtain ⟨p, path, listed, present⟩ := read_eq_ok reads
  have valid := pathForChunk_valid path
  simp only [newChunkReader, valid_nonempty valid, if_false, exists_of_valid valid, listed, Bool.true_eq_false,
    path]
  show (match disk.files.read p with
    | none => Except.error errNotExist
    | some content => _) = _
  rw [present]
  rfl

theorem streamFrames_streamed (send : Nat → Option GoError) (reader : FileReader) (k : Nat) :
    (streamFrames (.sending send) reader k).1 =
        (streamed send (cut reader.frameSize reader.positive reader.view.remaining) k).1 ∧
      (streamFrames (.sending send) reader k).2.1 =
        (streamed send (cut reader.frameSize reader.positive reader.view.remaining) k).2 := by
  generalize length : reader.view.remaining.length = n
  induction n using Nat.strong_induction_on generalizing reader k with
  | _ n ih =>
    have quiet : (GetEnv.sending send).next k = fun _ => none := rfl
    have sends : (GetEnv.sending send).send k = send k := rfl
    rw [streamFrames_eq, quiet, sends, cut]
    by_cases consumed : reader.view.remaining = []
    · rw [FileReader.next_of_view_eof (ChunkReader.next_empty consumed), if_pos consumed]
      exact ⟨rfl, rfl⟩
    · rw [if_neg consumed]
      by_cases fits : reader.view.remaining.length ≤ reader.view.frameSize
      · obtain ⟨later, read, _⟩ := FileReader.next_of_view_frame (ChunkReader.next_last consumed fits)
        have here : reader.view.remaining.length ≤ reader.frameSize := fits
        rw [read, if_pos here]
        cases sent : send k with
        | some err => simp [streamed, sent]
        | none => simp [streamed, sent]
      · have more : reader.view.frameSize < reader.view.remaining.length := by omega
        obtain ⟨later, read, ahead⟩ := FileReader.next_of_view_frame (ChunkReader.next_more more)
        have behind : later.view.remaining = reader.view.remaining.drop reader.frameSize := by
          rw [ahead]
          rfl
        have size : later.frameSize = reader.frameSize := congrArg ChunkReader.frameSize ahead
        have shorter : later.view.remaining.length < n := by
          have positive := reader.view.positive
          have more : reader.frameSize < reader.view.remaining.length := more
          rw [behind, List.length_drop]
          have positive := reader.positive
          omega
        obtain ⟨frames, ended⟩ := ih _ shorter later (k + 1) rfl
        have over_ : ¬reader.view.remaining.length ≤ reader.frameSize := fits
        rw [read, if_neg over_]
        cases sent : send k with
        | some err => simp [streamed, sent]
        | none =>
          simp only [streamed, sent, Option.isSome_none, Bool.false_eq_true, if_false, frames, ended, behind, size]
          exact ⟨rfl, trivial⟩

theorem exists_eq_lookup (repr : Represents server.store disk m) (id : GoString) :
    server.store.exists_ id disk = (m.lookup id).isSome := by
  rcases server.store.validateChunkId_cases id with valid | invalid
  · rw [exists_of_valid valid, repr.indexed_eq]
  · cases found : m.lookup id with
    | none => simp only [exists_, invalid, Option.isSome_none]
    | some content =>
      have valid := repr.valid found
      rw [invalid] at valid
      cases valid

theorem getChunk_meaning (repr : Represents server.store disk m) (chunkId : String)
    (send : Nat → Option GoError) :
    (server.serve (.getChunk chunkId send) disk).1 = (server.meaning (.getChunk chunkId send) m).1 ∧
      Represents server.store (server.serve (.getChunk chunkId send) disk).2
        (server.meaning (.getChunk chunkId send) m).2 := by
  simp only [StorageServer.serve, StorageServer.meaning, getChunk, exists_eq_lookup repr]
  by_cases unnamed : chunkId = ""
  · rw [if_pos unnamed, if_pos unnamed]
    exact ⟨rfl, repr⟩
  · rw [if_neg unnamed, if_neg unnamed]
    cases found : m.lookup (bytes chunkId) with
    | none => exact ⟨rfl, repr⟩
    | some content =>
      have stored : server.store.read none (bytes chunkId) disk = .ok content := by
        rw [repr.read, found]
        rfl
      have opened := newChunkReader_default stored
      have sent := streamFrames_streamed send (.opened ⟨defaultFrameSize, content, defaultFrameSize_pos⟩) 0
      have quiet : (GetEnv.sending send).openFile = none := rfl
      rw [quiet, opened]
      refine ⟨?_, repr⟩
      simp only [Option.isSome_some, Bool.true_eq_false, if_false]
      rw [sent.1, sent.2]
      rfl

theorem deleteChunk_meaning (repr : Represents server.store disk m) (chunkId : String) (send : Option GoError) :
    (server.serve (.deleteChunk chunkId send) disk).1 = (server.meaning (.deleteChunk chunkId send) m).1 ∧
      Represents server.store (server.serve (.deleteChunk chunkId send) disk).2
        (server.meaning (.deleteChunk chunkId send) m).2 := by
  simp only [StorageServer.serve, StorageServer.meaning, deleteChunk]
  by_cases unnamed : chunkId = ""
  · rw [if_pos unnamed, if_pos unnamed]
    exact ⟨rfl, repr⟩
  · rw [if_neg unnamed, if_neg unnamed]
    rcases server.store.validateChunkId_cases (bytes chunkId) with valid | invalid
    · rw [if_neg (not_not.mpr valid)]
      cases found : m.lookup (bytes chunkId) with
      | none =>
        have absent : disk.indexed (bytes chunkId) = false := by
          rw [repr.indexed_eq, found]
          rfl
        rw [delete_absent valid absent]
        cases send with
        | some err => exact ⟨rfl, repr⟩
        | none => exact ⟨rfl, repr⟩
      | some content =>
        obtain ⟨after, removed, held⟩ := repr.erase found
        rw [removed]
        cases send with
        | some err => exact ⟨rfl, held⟩
        | none => exact ⟨rfl, held⟩
    · have differs : server.store.validateChunkId (bytes chunkId) ≠ .ok () := by
        rw [invalid]
        simp
      rw [delete_invalid invalid, if_pos differs]
      exact ⟨rfl, repr⟩

theorem verifyChunk_meaning (repr : Represents server.store disk m) (chunkId : String) (checksum : List UInt8) :
    (server.serve (.verifyChunk chunkId checksum) disk).1 =
        (server.meaning (.verifyChunk chunkId checksum) m).1 ∧
      Represents server.store (server.serve (.verifyChunk chunkId checksum) disk).2
        (server.meaning (.verifyChunk chunkId checksum) m).2 := by
  simp only [StorageServer.serve, StorageServer.meaning, verifyChunk, exists_eq_lookup repr]
  by_cases unnamed : chunkId = ""
  · rw [if_pos unnamed, if_pos unnamed]
    exact ⟨rfl, repr⟩
  · rw [if_neg unnamed, if_neg unnamed]
    cases found : m.lookup (bytes chunkId) with
    | none => exact ⟨rfl, repr⟩
    | some content =>
      rw [repr.verify found]
      refine ⟨?_, repr⟩
      simp only [Option.isSome_some, Bool.true_eq_false, if_false]
      by_cases empty : checksum = []
      · simp [empty]
      · have some : 0 < checksum.length := List.length_pos_iff.mpr empty
        by_cases same : Sha256.sum256 content = checksum
        · simp [same]
        · simp [some, same, empty, Ne.symm same]

end Reads

theorem StorageServer.serve_simulates (server : StorageServer) :
    Machine.Simulates server.serve server.meaning (Represents server.store) := by
  intro call disk m repr
  cases call with
  | putChunk frames ending replicas ends short => exact putChunk_meaning repr frames ending replicas ends short
  | replicateChunk frames ending send short => exact replicateChunk_meaning repr frames ending send short
  | getChunk chunkId send => exact getChunk_meaning repr chunkId send
  | deleteChunk chunkId send => exact deleteChunk_meaning repr chunkId send
  | verifyChunk chunkId checksum => exact verifyChunk_meaning repr chunkId checksum

/-- For every sequence of calls of the service, wherever their streams break and their commits fail,
    each is answered as by a map from chunk ids to bytes within the space of the node, to the text of
    its errors and the responses it sends, and the store then holds that map. -/
theorem storageService_refines_map (server : StorageServer) (files : FileSystem Path) (calls : List Call) :
    (Machine.run server.serve calls (newDiskStore files ∅)).1 =
        (Machine.run server.meaning calls BoundedMap.empty).1 ∧
      Represents server.store (Machine.run server.serve calls (newDiskStore files ∅)).2
        (Machine.run server.meaning calls BoundedMap.empty).2 :=
  server.serve_simulates.run calls (Represents.fresh server.store files)

end DistributedFs.Storage
