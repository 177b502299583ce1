import DistributedFs.Client.RoundTrip
import DistributedFs.Fsm.Lifecycle
import DistributedFs.Go.Filepath

namespace DistributedFs.Client

open Go Fsm MetadataFSM

structure UploadManifest where
  fileID : String
  filename : String
  totalSize : Int64
  chunkSize : Int64
  chunkStatus : GoMap Bool

/-- What a file of the manifest directory holds: a manifest as `MarshalIndent` wrote it, or what a
    write left that was cut short. A part of a JSON object is not JSON, so this does not parse. -/
inductive ManifestFile where
  | whole (manifest : UploadManifest)
  | torn

abbrev ManifestFiles := Path → Option ManifestFile

/-- How `os.WriteFile` ends: it may fail to open the file, after the file was truncated, or to close it
    once all was written. -/
inductive Written where
  | done
  | notOpened (err : GoError)
  | cut (err : GoError)
  | notClosed (err : GoError)

/-- A `Manager`; `quote` is how a path is printed. Each of its methods but `Exists` holds the mutex
    from its start to its end. -/
structure ManifestManager where
  manifestDir : String
  quote : Path → String

namespace ManifestManager

variable (mgr : ManifestManager)

def manifestPath (fileID : String) : Path := .join [bytes mgr.manifestDir, bytes (fileID ++ ".json")]

def fail (label fileID : String) (err : GoError) : GoError :=
  .new ("manifest: failed to " ++ label ++ " " ++ mgr.quote (mgr.manifestPath fileID) ++ ": " ++ err.text)

def writeLocked (written : Written) (manifest : UploadManifest) (files : ManifestFiles) :
    Option GoError × ManifestFiles :=
  let path := mgr.manifestPath manifest.fileID
  match written with
  | .done => (none, Function.update files path (some (.whole manifest)))
  | .notOpened err => (some (mgr.fail "write" manifest.fileID err), files)
  | .cut err => (some (mgr.fail "write" manifest.fileID err), Function.update files path (some .torn))
  | .notClosed err => (some (mgr.fail "write" manifest.fileID err), Function.update files path (some (.whole manifest)))

def create (mkdir : Option GoError) (written : Written) (manifest : UploadManifest) (files : ManifestFiles) :
    Option GoError × ManifestFiles :=
  match mkdir with
  | some err =>
    (some (.new ("manifest: failed to create directory " ++ mgr.manifestDir ++ ": " ++ err.text)), files)
  | none => mgr.writeLocked written manifest files

def notExist (fileID : String) : GoError :=
  .new ("open " ++ mgr.quote (mgr.manifestPath fileID) ++ ": no such file or directory")

/-- Read and parse the manifest of a file; `read` is an error of `os.ReadFile` on a file that exists.
    The labels are those of `Load` and `MarkChunkDone`. -/
def readManifest (readLabel parseLabel : String) (read : Option GoError) (fileID : String)
    (files : ManifestFiles) : Except GoError UploadManifest :=
  match files (mgr.manifestPath fileID), read with
  | none, _ => .error (mgr.fail readLabel fileID (mgr.notExist fileID))
  | some _, some err => .error (mgr.fail readLabel fileID err)
  | some .torn, none => .error (mgr.fail parseLabel fileID (.new "unexpected end of JSON input"))
  | some (.whole manifest), none => .ok manifest

def load (read : Option GoError) (fileID : String) (files : ManifestFiles) : Except GoError UploadManifest :=
  mgr.readManifest "read" "parse" read fileID files

def exists_ (fileID : String) (files : ManifestFiles) : Bool := (files (mgr.manifestPath fileID)).isSome

def markChunkDone (read : Option GoError) (written : Written) (fileID chunkID : String) (files : ManifestFiles) :
    Option GoError × ManifestFiles :=
  match mgr.readManifest "read for update" "parse for update" read fileID files with
  | .error err => (some err, files)
  | .ok manifest =>
    mgr.writeLocked written { manifest with chunkStatus := manifest.chunkStatus.insert chunkID true } files

def delete (removed : Option GoError) (fileID : String) (files : ManifestFiles) : Option GoError × ManifestFiles :=
  match files (mgr.manifestPath fileID), removed with
  | none, _ => (none, files)
  | some _, some err => (some (mgr.fail "delete" fileID err), files)
  | some _, none => (none, Function.update files (mgr.manifestPath fileID) none)

def getPendingChunks (read : Option GoError) (order : MapOrder) (fileID : String) (files : ManifestFiles) :
    Except GoError (List String) :=
  match mgr.load read fileID files with
  | .error err => .error err
  | .ok manifest => .ok (((manifest.chunkStatus.range order).filter fun entry => !entry.2).map Prod.fst)

theorem mem_getPendingChunks {manifest : UploadManifest} {order : MapOrder} {id : String} :
    id ∈ ((manifest.chunkStatus.range order).filter fun entry => !entry.2).map Prod.fst ↔
      manifest.chunkStatus.lookup id = some false := by
  simp only [List.mem_map, List.mem_filter, Prod.exists, exists_and_right, exists_eq_right,
    Bool.not_eq_true', GoMap.mem_range]

theorem getPendingChunks_ok {read : Option GoError} {order : MapOrder} {fileID : String} {files : ManifestFiles}
    {pending : List String} (listed : mgr.getPendingChunks read order fileID files = .ok pending) :
    ∃ manifest, files (mgr.manifestPath fileID) = some (.whole manifest) ∧ pending.Nodup ∧
      ∀ id, id ∈ pending ↔ manifest.chunkStatus.lookup id = some false := by
  unfold getPendingChunks load readManifest at listed
  cases found : files (mgr.manifestPath fileID) with
  | none => simp [found] at listed
  | some file =>
    cases read with
    | some err => simp [found] at listed
    | none =>
      cases file with
      | torn => simp [found] at listed
      | whole manifest =>
        simp only [found, Except.ok.injEq] at listed
        subst listed
        refine ⟨manifest, rfl, ?_, fun id => mem_getPendingChunks⟩
        have distinct := GoMap.range_keys_nodup order manifest.chunkStatus
        exact distinct.sublist (List.filter_sublist.map Prod.fst)

theorem markChunkDone_cases {read : Option GoError} {written : Written} {fileID chunkID : String}
    {files after : ManifestFiles} {err : Option GoError}
    (returned : mgr.markChunkDone read written fileID chunkID files = (err, after)) :
    (err.isNone = false ∧ after = files) ∨
      ∃ manifest, files (mgr.manifestPath fileID) = some (.whole manifest) ∧
        ((err.isNone = false ∧ after = Function.update files (mgr.manifestPath manifest.fileID) (some .torn)) ∨
          after = Function.update files (mgr.manifestPath manifest.fileID)
            (some (.whole { manifest with chunkStatus := manifest.chunkStatus.insert chunkID true }))) := by
  unfold markChunkDone readManifest at returned
  cases found : files (mgr.manifestPath fileID) with
  | none =>
    rw [found] at returned
    cases returned
    exact .inl ⟨rfl, rfl⟩
  | some file =>
    rw [found] at returned
    cases read with
    | some err =>
      cases returned
      exact .inl ⟨rfl, rfl⟩
    | none =>
      cases file with
      | torn =>
        cases returned
        exact .inl ⟨rfl, rfl⟩
      | whole manifest =>
        cases written with
        | done =>
          cases returned
          exact .inr ⟨manifest, rfl, .inr rfl⟩
        | notOpened err =>
          cases returned
          exact .inl ⟨rfl, rfl⟩
        | cut err =>
          cases returned
          exact .inr ⟨manifest, rfl, .inl ⟨rfl, rfl⟩⟩
        | notClosed err =>
          cases returned
          exact .inr ⟨manifest, rfl, .inr rfl⟩

theorem create_cases {mkdir : Option GoError} {written : Written} {manifest : UploadManifest}
    {files after : ManifestFiles} {err : Option GoError}
    (returned : mgr.create mkdir written manifest files = (err, after)) :
    after = Function.update files (mgr.manifestPath manifest.fileID) (some (.whole manifest)) ∨
      (err.isNone = false ∧ (after = files ∨
        after = Function.update files (mgr.manifestPath manifest.fileID) (some .torn))) := by
  unfold create writeLocked at returned
  cases mkdir with
  | some _ =>
    cases returned
    exact .inr ⟨rfl, .inl rfl⟩
  | none =>
    cases written with
    | done =>
      cases returned
      exact .inl rfl
    | notOpened _ =>
      cases returned
      exact .inr ⟨rfl, .inl rfl⟩
    | cut _ =>
      cases returned
      exact .inr ⟨rfl, .inr rfl⟩
    | notClosed _ =>
      cases returned
      exact .inl rfl

theorem delete_cases {removed err : Option GoError} {fileID : String} {files after : ManifestFiles}
    (returned : mgr.delete removed fileID files = (err, after)) :
    after = files ∨ after = Function.update files (mgr.manifestPath fileID) none := by
  unfold delete at returned
  cases found : files (mgr.manifestPath fileID) with
  | none =>
    rw [found] at returned
    cases returned
    exact .inl rfl
  | some file =>
    rw [found] at returned
    cases removed with
    | some err =>
      cases returned
      exact .inl rfl
    | none =>
      cases returned
      exact .inr rfl

theorem getPendingChunks_whole {order : MapOrder} {fileID : String} {files : ManifestFiles}
    {manifest : UploadManifest} (found : files (mgr.manifestPath fileID) = some (.whole manifest)) :
    mgr.getPendingChunks none order fileID files =
      .ok (((manifest.chunkStatus.range order).filter fun entry => !entry.2).map Prod.fst) := by
  simp only [getPendingChunks, load, readManifest, found]

end ManifestManager

namespace Upload

variable (u : Upload)

def manifest : UploadManifest where
  fileID := u.fileID
  filename := u.fileName
  totalSize := u.totalSize
  chunkSize := u.cfg.chunkSize
  chunkStatus := u.chunkIDs.foldl (fun status id => status.insert id false) ∅

end Upload

/-- An upload with its manifest: whether `Create` has returned nil, the chunks whose `MarkChunkDone`
    has returned, whether the manifest was deleted, and whether every access to it worked so far. -/
structure Session where
  upload : UploadState
  files : ManifestFiles
  created : Bool
  marked : Nat → Bool
  deleted : Bool
  intact : Bool

def Session.start (m : FSM) (files : ManifestFiles) : Session := ⟨.start m, files, false, fun _ => false, false, true⟩

/-- A `PutChunk` returns nil only behind an accepted `CommitChunk`: every storage node has a metadata
    client. -/
def Committing (s later : UploadState) : Prop :=
  later.answered = s.answered ∨ ∃ req orders, req ∈ s.requests ∧ (s.fsm.handle orders (.commitChunk req)).2 = none ∧
    later.fsm = (s.fsm.handle orders (.commitChunk req)).1 ∧ later.answered = req.chunkID :: s.answered

/-- The steps of `Upload` around those of its calls. A crash is the end of the client's steps, which may
    cut the last write short; other uploads share the directory. -/
inductive SessionStep (mgr : ManifestManager) (u : Upload) (s : Session) : Session → Prop where
  | create (mkdir : Option GoError) (written : Written) (files : ManifestFiles) (begins : s.upload.phase = .creating)
    (first : s.created = false) (returned : mgr.create mkdir written u.manifest s.files = (none, files)) :
    SessionStep mgr u s { s with files := files, created := true }
  | notCreated (mkdir : Option GoError) (written : Written) (err : GoError) (files : ManifestFiles)
    (begins : s.upload.phase = .creating) (first : s.created = false)
    (returned : mgr.create mkdir written u.manifest s.files = (some err, files)) :
    SessionStep mgr u s { s with upload := { s.upload with phase := .failed }, files := files, intact := false }
  | call (later : UploadState) (step : UploadStep u s.upload later) (committing : Committing s.upload later)
    (behind : s.upload.phase = .creating → later.phase = .sending → s.created = true) :
    SessionStep mgr u s { s with upload := later }
  | mark (i : Nat) (read : Option GoError) (written : Written) (err : Option GoError) (files : ManifestFiles)
    (behind : s.created = true) (done : s.upload.progress i = .done) (first : s.marked i = false)
    (returned : mgr.markChunkDone read written u.fileID (u.chunkID i) s.files = (err, files)) :
    SessionStep mgr u s
      { s with files := files, marked := Function.update s.marked i true, intact := s.intact && err.isNone }
  | delete (removed err : Option GoError) (files : ManifestFiles) (succeeded : s.upload.phase = .succeeded)
    (returned : mgr.delete removed u.fileID s.files = (err, files)) :
    SessionStep mgr u s { s with files := files, deleted := true }
  | elsewhere (files : ManifestFiles) (same : files (mgr.manifestPath u.fileID) = s.files (mgr.manifestPath u.fileID)) :
    SessionStep mgr u s { s with files := files }

abbrev SessionRun (mgr : ManifestManager) (u : Upload) : Session → Session → Prop :=
  Relation.ReflTransGen (SessionStep mgr u)

namespace Upload

variable {u : Upload}

def Stored (u : Upload) (m : FSM) (i : Nat) : Prop :=
  ∃ chunk, m.chunkRegistry.lookup (u.chunkID i) = some chunk ∧ chunk.checksum = Sha256.sum256 (u.piece i)

theorem Stored.handle {m : FSM} {i : Nat} (stored : u.Stored m i) (orders : Nat → MapOrder) (cmd : Command) :
    u.Stored (m.handle orders cmd).1 i :=
  step_checksum_kept (handle_step m orders cmd) (sum256_ne_nil _) stored

theorem Stored.step {s later : UploadState} {i : Nat} (stored : u.Stored s.fsm i) (step : UploadStep u s later) :
    u.Stored later.fsm i := by
  cases step with
  | command cmd orders => exact stored.handle orders cmd
  | heartbeat nodeID ts =>
    obtain ⟨registry, same⟩ := s.fsm.updateLastSeen_nodes_only nodeID ts
    rw [same]
    exact stored
  | createFile _ _ _ _ _ _ _ cmd _ orders => exact stored.handle orders (.createFile cmd)
  | commitChunk req orders => exact stored.handle orders (.commitChunk req)
  | commitFile orders => exact stored.handle orders (.commitFile ⟨u.fileID, u.totalSize.toUInt64, []⟩)
  | _ => exact stored

theorem step_done {s later : UploadState} {i : Nat} (done : s.progress i = .done) (step : UploadStep u s later) :
    later.progress i = .done := by
  have other {j attempts : Nat} (pending : s.progress j = .pending attempts) (x : Progress) :
      Function.update s.progress j x i = .done := by
    have apart : i ≠ j := by
      intro here
      rw [here, pending] at done
      cases done
    rw [Function.update_of_ne apart]
    exact done
  cases step with
  | attemptOk j attempts d chunk pending => exact other pending _
  | attemptFailed j attempts pending => exact other pending _
  | cancelled j attempts pending => exact other pending _
  | _ => exact done

theorem stored_of_accepted {m : FSM} {orders : Nat → MapOrder} {req : CommandCommitChunk}
    (accepted : (m.handle orders (.commitChunk req)).2 = none) {i : Nat} (named : req.chunkID = u.chunkID i)
    (checksum : req.checksum = Sha256.sum256 (u.piece i)) :
    u.Stored (m.handle orders (.commitChunk req)).1 i := by
  obtain ⟨chunk, found, unset, uncommitted⟩ := commitChunk_accepted accepted
  rw [commitChunk_open orders found unset uncommitted, Stored, ← named, ← checksum]
  exact ⟨_, GoMap.lookup_insert .. |>.trans (if_pos rfl), rfl⟩

theorem descriptor_chunkID {i : Nat} {d : ChunkDescriptor} (chunk : u.descriptors[i]? = some d) :
    i < u.count ∧ d.chunkID = u.chunkID i := by
  unfold descriptors generateDescriptors at chunk
  rw [List.getElem?_map] at chunk
  obtain ⟨j, inside, rfl⟩ := Option.map_eq_some_iff.mp chunk
  obtain ⟨bound, rfl⟩ := List.getElem?_eq_some_iff.mp inside
  rw [List.getElem_range]
  exact ⟨by simpa [count] using bound, rfl⟩

theorem done_answered {s later : UploadState} {i : Nat} (step : UploadStep u s later)
    (done : later.progress i = .done) : s.progress i = .done ∨ (i < u.count ∧ u.chunkID i ∈ s.answered) := by
  have elsewhere {j : Nat} {x : Progress} (away : x ≠ .done) (updated : Function.update s.progress j x i = .done) :
      s.progress i = .done := by
    rw [Function.update_apply] at updated
    split at updated
    · exact absurd updated away
    · exact updated
  cases step with
  | attemptOk j attempts d chunk pending stored =>
    by_cases here : i = j
    · subst here
      obtain ⟨below, same⟩ := descriptor_chunkID chunk
      exact .inr ⟨below, same ▸ stored⟩
    · exact .inl ((Function.update_of_ne here _ _).symm.trans done)
  | attemptFailed j attempts pending =>
    refine .inl (elsewhere ?_ done)
    split
    · exact Progress.noConfusion
    · exact Progress.noConfusion
  | cancelled j attempts pending => exact .inl (elsewhere Progress.noConfusion done)
  | _ => exact .inl done

theorem lookup_manifest (u : Upload) (id : String) :
    u.manifest.chunkStatus.lookup id = if id ∈ u.chunkIDs then some false else none := by
  have started (ids : List String) (status : GoMap Bool) :
      (ids.foldl (fun status id => status.insert id false) status).lookup id =
        if id ∈ ids then some false else status.lookup id := by
    induction ids generalizing status with
    | nil => rfl
    | cons first rest ih =>
      rw [List.foldl_cons, ih, GoMap.lookup_insert]
      by_cases later : id ∈ rest
      · simp [later]
      · by_cases here : id = first
        · simp [here]
        · simp [later, here]
  exact started u.chunkIDs ∅

end Upload

structure Marks (u : Upload) (marked : Nat → Bool) (manifest : UploadManifest) : Prop where
  fileID : manifest.fileID = u.fileID
  keys : ∀ id, (∃ done, manifest.chunkStatus.lookup id = some done) ↔ id ∈ u.chunkIDs
  done : ∀ id, manifest.chunkStatus.lookup id = some true → ∃ i, i < u.count ∧ id = u.chunkID i ∧ marked i = true

namespace Marks

variable {u : Upload} {marked : Nat → Bool} {manifest : UploadManifest}

theorem start : Marks u marked u.manifest where
  fileID := rfl
  keys id := by simp [u.lookup_manifest id]
  done id found := by simp [u.lookup_manifest id] at found

theorem mono (marks : Marks u marked manifest) (i : Nat) : Marks u (Function.update marked i true) manifest where
  fileID := marks.fileID
  keys := marks.keys
  done id found := by
    obtain ⟨j, below, same, already⟩ := marks.done id found
    refine ⟨j, below, same, ?_⟩
    rw [Function.update_apply, already, ite_self]

theorem insert (marks : Marks u marked manifest) {i : Nat} (below : i < u.count) :
    Marks u (Function.update marked i true)
      { manifest with chunkStatus := manifest.chunkStatus.insert (u.chunkID i) true } where
  fileID := marks.fileID
  keys id := by
    rw [← marks.keys id]
    simp only [GoMap.lookup_insert]
    by_cases here : id = u.chunkID i
    · have listed := (marks.keys id).mpr (here ▸ Upload.mem_chunkIDs below)
      rw [if_pos here]
      exact ⟨fun _ => listed, fun _ => ⟨true, rfl⟩⟩
    · rw [if_neg here]
  done id found := by
    simp only [GoMap.lookup_insert] at found
    by_cases here : id = u.chunkID i
    · exact ⟨i, below, here, Function.update_self ..⟩
    · rw [if_neg here] at found
      exact (marks.mono i).done id found

end Marks

structure Session.Sound (mgr : ManifestManager) (u : Upload) (s : Session) : Prop where
  sound : u.Sound s.upload
  answered : ∀ id ∈ s.upload.answered, ∃ i, i < u.count ∧ id = u.chunkID i ∧ u.Stored s.upload.fsm i
  done : ∀ i, s.upload.progress i = .done → i < u.count ∧ u.chunkID i ∈ s.upload.answered
  marked : ∀ i, s.marked i = true → s.upload.progress i = .done
  behind : s.created = false → ∀ i, s.marked i = false
  file : ∀ manifest, s.files (mgr.manifestPath u.fileID) = some (.whole manifest) → Marks u s.marked manifest
  kept : s.intact = true → s.created = true → s.deleted = false →
    ∃ manifest, s.files (mgr.manifestPath u.fileID) = some (.whole manifest) ∧
      ∀ i, s.marked i = true → manifest.chunkStatus.lookup (u.chunkID i) = some true

namespace Session.Sound

variable {mgr : ManifestManager} {u : Upload} {s : Session}

theorem call (sized : u.Sized) (distinct : u.Distinct) (sound : s.Sound mgr u) {later : UploadState}
    (step : UploadStep u s.upload later) (committing : Committing s.upload later) :
    Session.Sound mgr u { s with upload := later } := by
  have still : ∀ id ∈ s.upload.answered, ∃ i, i < u.count ∧ id = u.chunkID i ∧ u.Stored later.fsm i := by
    intro id member
    obtain ⟨i, below, same, stored⟩ := sound.answered id member
    exact ⟨i, below, same, stored.step step⟩
  have grows : ∀ id ∈ s.upload.answered, id ∈ later.answered := by
    intro id member
    rcases committing with same | ⟨req, orders, sent, accepted, fsm, answered⟩
    · rw [same]
      exact member
    · rw [answered]
      exact List.mem_cons_of_mem _ member
  refine ⟨Upload.step_sound sized distinct sound.sound step, ?_, ?_, ?_, sound.behind, sound.file, sound.kept⟩
  · intro id member
    rcases committing with same | ⟨req, orders, sent, accepted, fsm, answered⟩
    · exact still id (same ▸ member)
    · rw [answered] at member
      rcases List.mem_cons.mp member with rfl | earlier
      · obtain ⟨i, below, named, checksum⟩ := sound.sound.requests req sent
        refine ⟨i, below, named, ?_⟩
        rw [fsm]
        exact Upload.stored_of_accepted accepted named checksum
      · exact still id earlier
  · intro i done
    rcases Upload.done_answered step done with before | ⟨below, answered⟩
    · obtain ⟨below, answered⟩ := sound.done i before
      exact ⟨below, grows _ answered⟩
    · exact ⟨below, grows _ answered⟩
  · intro i marked
    exact Upload.step_done (sound.marked i marked) step

theorem mark (sound : s.Sound mgr u) {i : Nat} (behind : s.created = true) (done : s.upload.progress i = .done)
    {read : Option GoError} {written : Written} {err : Option GoError} {files : ManifestFiles}
    (returned : mgr.markChunkDone read written u.fileID (u.chunkID i) s.files = (err, files)) :
    Session.Sound mgr u
      { s with files := files, marked := Function.update s.marked i true, intact := s.intact && err.isNone } := by
  refine ⟨sound.sound, sound.answered, sound.done, ?_, ?_, ?_, ?_⟩
  · intro j marked
    by_cases here : j = i
    · rw [here]
      exact done
    · exact sound.marked j ((Function.update_of_ne here _ _).symm.trans marked)
  · intro uncreated
    cases behind.symm.trans uncreated
  · intro manifest found
    rcases mgr.markChunkDone_cases returned with ⟨_, rfl⟩ | ⟨old, present, ⟨_, rfl⟩ | rfl⟩
    · exact (sound.file manifest found).mono i
    · rw [← (sound.file old present).fileID] at found
      cases (Function.update_self ..).symm.trans found
    · rw [← (sound.file old present).fileID] at found
      cases (Function.update_self ..).symm.trans found
      exact (sound.file old present).insert (sound.done i done).1
  · intro intact created kept
    obtain ⟨before, nil⟩ := Bool.and_eq_true_iff.mp intact
    obtain ⟨old, present, all⟩ := sound.kept before created kept
    rcases mgr.markChunkDone_cases returned with ⟨failed, _⟩ | ⟨again, same, ⟨failed, _⟩ | rfl⟩
    · cases nil.symm.trans failed
    · cases nil.symm.trans failed
    · cases present.symm.trans same
      refine ⟨{ old with chunkStatus := old.chunkStatus.insert (u.chunkID i) true }, ?_, ?_⟩
      · rw [(sound.file old present).fileID]
        exact Function.update_self ..
      · intro j marked
        rw [GoMap.lookup_insert]
        by_cases here : u.chunkID j = u.chunkID i
        · rw [if_pos here]
        · rw [if_neg here]
          have apart : j ≠ i := fun same => here (congrArg u.chunkID same)
          exact all j ((Function.update_of_ne apart _ _).symm.trans marked)

theorem step (sized : u.Sized) (distinct : u.Distinct) (sound : s.Sound mgr u) {later : Session}
    (step : SessionStep mgr u s later) : later.Sound mgr u := by
  cases step with
  | create mkdir written files begins first returned =>
    rcases mgr.create_cases returned with rfl | ⟨failed, _⟩
    · refine ⟨sound.sound, sound.answered, sound.done, sound.marked, by simp, ?_, ?_⟩
      · intro manifest found
        cases (Function.update_self ..).symm.trans found
        exact .start
      · intro _ _ _
        refine ⟨u.manifest, Function.update_self .., ?_⟩
        intro i marked
        cases (sound.behind first i).symm.trans marked
    · cases failed
  | notCreated mkdir written err files begins first returned =>
    have failed : u.Sound { s.upload with phase := .failed } :=
      Upload.step_sound sized distinct sound.sound (.createFailed begins)
    refine ⟨failed, sound.answered, sound.done, sound.marked, sound.behind, ?_, by simp⟩
    rcases mgr.create_cases returned with rfl | ⟨_, rfl | rfl⟩
    · intro manifest found
      cases (Function.update_self ..).symm.trans found
      exact .start
    · exact sound.file
    · intro manifest found
      cases (Function.update_self ..).symm.trans found
  | call later step committing => exact sound.call sized distinct step committing
  | mark i read written err files behind done first returned => exact sound.mark behind done returned
  | delete removed err files succeeded returned =>
    refine ⟨sound.sound, sound.answered, sound.done, sound.marked, sound.behind, ?_, by simp⟩
    intro manifest found
    rcases mgr.delete_cases returned with rfl | rfl
    · exact sound.file manifest found
    · cases (Function.update_self ..).symm.trans found
  | elsewhere files same =>
    refine ⟨sound.sound, sound.answered, sound.done, sound.marked, sound.behind, ?_, ?_⟩
    · intro manifest found
      exact sound.file manifest (same.symm.trans found)
    · intro intact created kept
      obtain ⟨manifest, present, all⟩ := sound.kept intact created kept
      exact ⟨manifest, same.trans present, all⟩

theorem start {m : FSM} {files : ManifestFiles} (fresh : files (mgr.manifestPath u.fileID) = none) :
    (Session.start m files).Sound mgr u where
  sound := ⟨by simp [Session.start, UploadState.start], by simp [Session.start, UploadState.start]⟩
  answered := by simp [Session.start, UploadState.start]
  done := by simp [Session.start, UploadState.start]
  marked := by simp [Session.start]
  behind := by simp [Session.start]
  file manifest found := by cases fresh.symm.trans found
  kept := by simp [Session.start]

theorem run (sized : u.Sized) (distinct : u.Distinct) (sound : s.Sound mgr u) {later : Session}
    (run : SessionRun mgr u s later) : later.Sound mgr u := by
  induction run with
  | refl => exact sound
  | tail _ step ih => exact ih.step sized distinct step

theorem stored (distinct : u.Distinct) (sound : s.Sound mgr u) {i : Nat} (marked : s.marked i = true) :
    u.Stored s.upload.fsm i := by
  obtain ⟨below, answered⟩ := sound.done i (sound.marked i marked)
  obtain ⟨j, inside, same, stored⟩ := sound.answered _ answered
  rw [distinct i j below inside same]
  exact stored

theorem marked_of_not_pending (distinct : u.Distinct) (sound : s.Sound mgr u) {manifest : UploadManifest}
    (found : s.files (mgr.manifestPath u.fileID) = some (.whole manifest)) {i : Nat} (below : i < u.count)
    (away : manifest.chunkStatus.lookup (u.chunkID i) ≠ some false) : s.marked i = true := by
  have marks := sound.file manifest found
  obtain ⟨done, status⟩ := (marks.keys _).mpr (Upload.mem_chunkIDs below)
  cases done with
  | false => exact absurd status away
  | true =>
    obtain ⟨j, inside, same, marked⟩ := marks.done _ status
    rw [distinct i j below inside same]
    exact marked

end Session.Sound

/-- At every moment of an upload, and after a crash at any of them, the chunks that the manifest does not
    list as pending are stored under the hash of their bytes. While every access to the manifest works, it
    lists exactly the chunks whose `MarkChunkDone` has not returned. -/
theorem manifest_never_ahead {mgr : ManifestManager} {u : Upload} {m : FSM} {files : ManifestFiles} {s : Session}
    (sized : u.Sized) (distinct : u.Distinct) (fresh : files (mgr.manifestPath u.fileID) = none)
    (run : SessionRun mgr u (.start m files) s) :
    (∀ read order pending, mgr.getPendingChunks read order u.fileID s.files = .ok pending →
      pending.Nodup ∧ (∀ id ∈ pending, id ∈ u.chunkIDs) ∧
        ∀ i, i < u.count → u.chunkID i ∉ pending → u.Stored s.upload.fsm i) ∧
    (s.intact = true → s.created = true → s.deleted = false → ∀ order,
      ∃ pending, mgr.getPendingChunks none order u.fileID s.files = .ok pending ∧
        ∀ i, i < u.count → (u.chunkID i ∈ pending ↔ s.marked i = false)) := by
  have sound := (Session.Sound.start fresh).run sized distinct run
  refine ⟨?_, ?_⟩
  · intro read order pending listed
    obtain ⟨manifest, found, nodup, member⟩ := mgr.getPendingChunks_ok listed
    refine ⟨nodup, ?_, ?_⟩
    · intro id listed
      exact ((sound.file manifest found).keys id).mp ⟨false, (member id).mp listed⟩
    · intro i below away
      rw [member] at away
      exact sound.stored distinct (sound.marked_of_not_pending distinct found below away)
  · intro intact created kept order
    obtain ⟨manifest, found, all⟩ := sound.kept intact created kept
    refine ⟨_, mgr.getPendingChunks_whole found, ?_⟩
    intro i below
    rw [ManifestManager.mem_getPendingChunks]
    constructor
    · intro pending
      rw [← Bool.not_eq_true]
      intro marked
      rw [all i marked] at pending
      cases pending
    · intro unmarked
      by_contra away
      cases unmarked.symm.trans (sound.marked_of_not_pending distinct found below away)

def letterManifests : ManifestManager := ⟨"manifests", fun _ => "path"⟩

def letterFiles (manifest : UploadManifest) : ManifestFiles :=
  Function.update (fun _ => none) (letterManifests.manifestPath letter.fileID) (some (.whole manifest))

theorem letterFiles_marked : letterManifests.markChunkDone none .done letter.fileID (letter.chunkID 0)
    (letterFiles letter.manifest) =
      (none, letterFiles { letter.manifest with
        chunkStatus := letter.manifest.chunkStatus.insert (letter.chunkID 0) true }) := by
  have path : letterManifests.manifestPath letter.manifest.fileID = letterManifests.manifestPath letter.fileID := rfl
  simp [ManifestManager.markChunkDone, ManifestManager.readManifest, ManifestManager.writeLocked, letterFiles, path]

theorem manifest_never_ahead_letter : ∃ s, SessionRun letterManifests letter (.start registered fun _ => none) s ∧
    ∃ pending, letterManifests.getPendingChunks none default letter.fileID s.files = .ok pending ∧
      letter.chunkID 0 ∉ pending ∧ letter.Stored s.upload.fsm 0 := by
  have distinct : letter.Distinct := by
    intro i j first second _
    rw [letter_index first, letter_index second]
  let at_ (upload : UploadState) : Session := ⟨upload, letterFiles letter.manifest, true, fun _ => false, false, true⟩
  have begins : SessionStep letterManifests letter (.start registered fun _ => none) (at_ (.start registered)) :=
    .create none .done _ rfl rfl rfl
  have creates : SessionStep letterManifests letter (at_ (.start registered)) (at_ created) :=
    .call created letter_creates (.inl rfl) (fun _ _ => rfl)
  have puts : SessionStep letterManifests letter (at_ created) (at_ sent) :=
    .call sent letter_puts (.inl rfl) (fun _ _ => rfl)
  have committing : Committing sent confirmed := by
    refine .inr ⟨letterCommit, fun _ => default, List.mem_singleton_self _, letterCommit_accepted, ?_, rfl⟩
    simp only [confirmed, sent]
  have commits : SessionStep letterManifests letter (at_ sent) (at_ confirmed) :=
    .call confirmed letter_commits committing (fun _ _ => rfl)
  have arrives : SessionStep letterManifests letter (at_ confirmed) (at_ arrived) :=
    .call arrived letter_arrives (.inl rfl) (fun _ _ => rfl)
  have marks : SessionStep letterManifests letter (at_ arrived) _ :=
    .mark 0 none .done none _ rfl (Function.update_self 0 _ created.progress) rfl letterFiles_marked
  have run := Relation.ReflTransGen.tail
    (.tail (.tail (.tail (.tail (.single begins) creates) puts) commits) arrives) marks
  have here : 0 < letter.count := by
    rw [letter_count]
    decide
  obtain ⟨stored, lists⟩ := manifest_never_ahead letter_sized distinct rfl run
  obtain ⟨pending, listed, exactly⟩ := lists rfl rfl rfl default
  have away : letter.chunkID 0 ∉ pending := by
    rw [exactly 0 here]
    simp
  exact ⟨_, run, pending, listed, away, (stored none default pending listed).2.2 0 here away⟩

end DistributedFs.Client
