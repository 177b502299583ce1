import DistributedFs.Fsm.Visibility

namespace DistributedFs.Fsm

open Go MetadataFSM

abbrev stateAt (oracle : Nat → Nat → MapOrder) (m : FSM) (log : List Command) (k : Nat) : FSM :=
  Replication.stateAt (fun i m cmd => MetadataFSM.handle m (oracle i) cmd) m log k

def ChunkStatus.stage : ChunkStatus → Nat
  | .allocated => 0
  | .complete => 1
  | .lost => 2

section Chunks

variable (oracle : Nat → Nat → MapOrder) (m : FSM) (log : List Command) (cid : String)

def chunkAt (k : Nat) : Option (ChunkRecord (List String)) := (stateAt oracle m log k).chunkRegistry.lookup cid

structure CommitsAt (k : Nat) (req : CommandCommitChunk) : Prop where
  entry : log[k]? = some (.commitChunk req)
  chunk : req.chunkID = cid
  accepted : ((stateAt oracle m log k).handle (oracle k) (.commitChunk req)).2 = none

/-- The life of a chunk in a run: it begins as allocated, its status only moves on (and
    from lost to nowhere), at most one commit sets its checksum, and a checksum that was
    set stays and lets no commit succeed any more. -/
structure OrderedLife : Prop where
  born : ∀ k chunk, chunkAt oracle m log cid k = none → chunkAt oracle m log cid (k + 1) = some chunk →
    chunk.status = .allocated
  forward : ∀ j k chunk, j ≤ k → chunkAt oracle m log cid j = some chunk →
    ∃ later, chunkAt oracle m log cid k = some later ∧ chunk.status.stage ≤ later.status.stage
  oneCommit : ∀ j k first second, CommitsAt oracle m log cid j first →
    CommitsAt oracle m log cid k second → j = k
  fixed : ∀ j req, CommitsAt oracle m log cid j req → req.checksum ≠ [] → ∀ k, j < k →
    (∀ again, ¬ CommitsAt oracle m log cid k again) ∧
      ∃ chunk, chunkAt oracle m log cid k = some chunk ∧ chunk.checksum = req.checksum

end Chunks

/-- A `CommitChunk` of a chunk that is lost and never got a checksum. The guard of
    `handleCmdCommitChunk` asks for complete chunks and for checksums only. -/
def Resurrects (cid : String) (m : FSM) : Command → Prop
  | .commitChunk req => req.chunkID = cid ∧ ∃ chunk, m.chunkRegistry.lookup cid = some chunk ∧
      chunk.status = .lost ∧ chunk.checksum = []
  | _ => False

theorem commitChunk_open {m : FSM} (orders : Nat → MapOrder) {req : CommandCommitChunk}
    {chunk : ChunkRecord (List String)} (found : m.chunkRegistry.lookup req.chunkID = some chunk)
    (unset : chunk.checksum = []) (uncommitted : chunk.status ≠ .complete) :
    m.handle orders (.commitChunk req) = (m.setChunk req.chunkID { chunk with
      status := .complete, checksum := req.checksum,
      replicas := normalizeReplicaNodeIDs m.nodeRegistry orders req.nodeIDs }, none) := by
  have read := (getChunk_ok m).mpr found
  simp [handle, handleCmdCommitChunk, read, unset, uncommitted]

theorem commitChunk_accepted {m : FSM} {orders : Nat → MapOrder} {req : CommandCommitChunk}
    (accepted : (m.handle orders (.commitChunk req)).2 = none) :
    ∃ chunk, m.chunkRegistry.lookup req.chunkID = some chunk ∧ chunk.checksum = [] ∧
      chunk.status ≠ .complete := by
  simp only [handle, handleCmdCommitChunk] at accepted
  cases read : m.getChunk req.chunkID with
  | error err => simp [read] at accepted
  | ok chunk =>
    simp only [read] at accepted
    split at accepted
    · rename_i guard
      exact ⟨chunk, (getChunk_ok m).mp read, List.length_eq_zero_iff.mp guard.1, guard.2⟩
    · cases accepted

theorem step_chunk {m after : FSM} {orders : Nat → MapOrder} {cmd : Command} {result : Option GoError}
    (step : Step m orders cmd after result) {cid : String} {chunk : ChunkRecord (List String)}
    (found : m.chunkRegistry.lookup cid = some chunk) :
    ∃ later, after.chunkRegistry.lookup cid = some later ∧
      ((later.checksum = chunk.checksum ∧ (later.status = chunk.status ∨ later.status = .lost)) ∨
        ∃ req, cmd = .commitChunk req ∧ req.chunkID = cid ∧ chunk.checksum = [] ∧
          chunk.status ≠ .complete ∧ later.checksum = req.checksum ∧ later.status = .complete) := by
  have rewritten {id : String} {old : ChunkRecord (List String)} (next : ChunkRecord (List String))
      (present : m.chunkRegistry.lookup id = some old) (sum : next.checksum = old.checksum)
      (status : next.status = old.status ∨ next.status = .lost) :
      ∃ later, (m.setChunk id next).chunkRegistry.lookup cid = some later ∧
        later.checksum = chunk.checksum ∧ (later.status = chunk.status ∨ later.status = .lost) := by
    simp only [setChunk, GoMap.lookup_insert]
    by_cases here : cid = id
    · subst here
      cases present.symm.trans found
      exact ⟨next, if_pos rfl, sum, status⟩
    · exact ⟨chunk, by rw [if_neg here, found], rfl, .inl rfl⟩
  cases step with
  | failed | alreadyListed | nodes | jobs | mdNodes | commitFile | deleteFile =>
    exact ⟨chunk, found, .inl ⟨rfl, .inl rfl⟩⟩
  | createFile req newID fresh =>
    rcases lookup_created m req cid with ⟨index, position, _⟩ | ⟨_, same⟩
    · exact absurd (Finmap.mem_of_lookup_eq_some found) (fresh cid (List.mem_of_getElem? position))
    · exact ⟨chunk, same.trans found, .inl ⟨rfl, .inl rfl⟩⟩
  | evict req old idx present =>
    obtain ⟨later, stored, kept⟩ :=
      rewritten { old with replicas := old.replicas.eraseIdx idx } present rfl (.inl rfl)
    exact ⟨later, stored, .inl kept⟩
  | addReplica req old present =>
    obtain ⟨later, stored, kept⟩ :=
      rewritten { old with replicas := old.replicas ++ [req.nodeID] } present rfl (.inl rfl)
    exact ⟨later, stored, .inl kept⟩
  | markLost req old present =>
    obtain ⟨later, stored, kept⟩ := rewritten { old with status := .lost } present rfl (.inr rfl)
    exact ⟨later, stored, .inl kept⟩
  | commitChunk req old present guard =>
    simp only [setChunk, GoMap.lookup_insert]
    by_cases here : cid = req.chunkID
    · subst here
      cases present.symm.trans found
      exact ⟨_, if_pos rfl, .inr ⟨req, rfl, rfl, guard.1, guard.2, rfl, rfl⟩⟩
    · exact ⟨chunk, by rw [if_neg here, found], .inl ⟨rfl, .inl rfl⟩⟩

theorem step_chunk_born {m after : FSM} {orders : Nat → MapOrder} {cmd : Command} {result : Option GoError}
    (step : Step m orders cmd after result) {cid : String} {chunk : ChunkRecord (List String)}
    (absent : m.chunkRegistry.lookup cid = none) (found : after.chunkRegistry.lookup cid = some chunk) :
    chunk.status = .allocated := by
  have nowhere {id : String} {old next : ChunkRecord (List String)}
      (present : m.chunkRegistry.lookup id = some old) :
      (m.setChunk id next).chunkRegistry.lookup cid = none := by
    have other : cid ≠ id := by
      intro here
      subst here
      cases absent.symm.trans present
    rw [setChunk, GoMap.lookup_insert, if_neg other]
    exact absent
  cases step with
  | failed | alreadyListed | nodes | jobs | mdNodes | commitFile | deleteFile =>
    cases absent.symm.trans found
  | createFile req newID fresh =>
    rcases lookup_created m req cid with ⟨index, _, stored⟩ | ⟨_, same⟩
    · cases stored.symm.trans found
      rfl
    · cases absent.symm.trans (same.symm.trans found)
  | commitChunk req old present | evict req old idx present | markLost req old present
  | addReplica req old present => cases (nowhere present).symm.trans found

theorem step_forward {m after : FSM} {orders : Nat → MapOrder} {cmd : Command} {result : Option GoError}
    (step : Step m orders cmd after result) {cid : String} (harmless : ¬ Resurrects cid m cmd)
    {chunk : ChunkRecord (List String)} (found : m.chunkRegistry.lookup cid = some chunk) :
    ∃ later, after.chunkRegistry.lookup cid = some later ∧ chunk.status.stage ≤ later.status.stage := by
  obtain ⟨later, stored, kept | ⟨req, rfl, named, unset, uncommitted, _, complete⟩⟩ := step_chunk step found
  · refine ⟨later, stored, ?_⟩
    rcases kept.2 with same | lost
    · rw [same]
    · rw [lost]
      cases chunk.status <;> decide
  · refine ⟨later, stored, ?_⟩
    rw [complete]
    cases status : chunk.status with
    | allocated => decide
    | complete => exact absurd status uncommitted
    | lost => exact absurd ⟨named, chunk, found, status, unset⟩ harmless

theorem step_checksum_kept {m after : FSM} {orders : Nat → MapOrder} {cmd : Command} {result : Option GoError}
    (step : Step m orders cmd after result) {cid : String} {sum : List UInt8} (set : sum ≠ [])
    (before : ∃ chunk, m.chunkRegistry.lookup cid = some chunk ∧ chunk.checksum = sum) :
    ∃ chunk, after.chunkRegistry.lookup cid = some chunk ∧ chunk.checksum = sum := by
  obtain ⟨chunk, found, same⟩ := before
  obtain ⟨later, stored, kept | ⟨_, _, _, unset, _⟩⟩ := step_chunk step found
  · exact ⟨later, stored, kept.1.trans same⟩
  · exact absurd (same.symm.trans unset) set

section Runs

variable {oracle : Nat → Nat → MapOrder} {m : FSM} {log : List Command} {cid : String}

theorem CommitsAt.committed {k : Nat} {req : CommandCommitChunk} (commits : CommitsAt oracle m log cid k req) :
    ∃ chunk, chunkAt oracle m log cid (k + 1) = some chunk ∧ chunk.status = .complete ∧
      chunk.checksum = req.checksum := by
  obtain ⟨entry, rfl, accepted⟩ := commits
  obtain ⟨chunk, found, unset, uncommitted⟩ := commitChunk_accepted accepted
  have after := Replication.stateAt_succ (fun i m cmd => MetadataFSM.handle m (oracle i) cmd) m entry
  rw [commitChunk_open (oracle k) found unset uncommitted] at after
  rw [chunkAt, stateAt, after, setChunk, Finmap.lookup_insert]
  exact ⟨_, rfl, rfl, rfl⟩

theorem CommitsAt.unset {k : Nat} {req : CommandCommitChunk} (commits : CommitsAt oracle m log cid k req) :
    ∃ chunk, chunkAt oracle m log cid k = some chunk ∧ chunk.checksum = [] ∧ chunk.status ≠ .complete := by
  obtain ⟨_, rfl, accepted⟩ := commits
  exact commitChunk_accepted accepted

variable (harmless : ∀ k cmd, log[k]? = some cmd → ¬ Resurrects cid (stateAt oracle m log k) cmd)
include harmless

theorem run_forward {j k : Nat} {chunk : ChunkRecord (List String)} (later : j ≤ k)
    (found : chunkAt oracle m log cid j = some chunk) :
    ∃ last, chunkAt oracle m log cid k = some last ∧ chunk.status.stage ≤ last.status.stage := by
  refine Replication.stateAt_keeps (P := fun s : FSM => ∃ last, s.chunkRegistry.lookup cid = some last ∧
    chunk.status.stage ≤ last.status.stage) ?_ ⟨chunk, found, Nat.le_refl _⟩ later
  intro i cmd _ entry before
  obtain ⟨middle, present, first⟩ := before
  obtain ⟨last, stored, second⟩ := step_forward (handle_step _ (oracle i) cmd) (harmless i cmd entry) present
  exact ⟨last, stored, Nat.le_trans first second⟩

theorem run_one_commit {j k : Nat} {first second : CommandCommitChunk}
    (early : CommitsAt oracle m log cid j first) (late : CommitsAt oracle m log cid k second) : k ≤ j := by
  by_contra after
  obtain ⟨chunk, present, complete, _⟩ := early.committed
  obtain ⟨last, stored, beyond⟩ := run_forward harmless (show j + 1 ≤ k by omega) present
  obtain ⟨again, found, unset, uncommitted⟩ := late.unset
  cases stored.symm.trans found
  rw [complete] at beyond
  cases status : last.status with
  | allocated =>
    rw [status] at beyond
    exact absurd beyond (by decide)
  | complete => exact uncommitted status
  | lost => exact harmless k _ late.entry ⟨late.chunk, last, found, status, unset⟩

end Runs

/-- In a run of any commands a chunk has an ordered life exactly if no `CommitChunk` of it
    comes while it is lost without a checksum. -/
theorem ordered_life_iff (oracle : Nat → Nat → MapOrder) (m : FSM) (log : List Command) (cid : String) :
    OrderedLife oracle m log cid ↔
      ∀ k cmd, log[k]? = some cmd → ¬ Resurrects cid (stateAt oracle m log k) cmd := by
  constructor
  · intro ordered k cmd entry resurrects
    cases cmd with
    | commitChunk req =>
      obtain ⟨rfl, chunk, found, lost, unset⟩ := resurrects
      have uncommitted : chunk.status ≠ .complete := by simp [lost]
      have done := commitChunk_open (oracle k) found unset uncommitted
      obtain ⟨later, stored, forward⟩ := ordered.forward k (k + 1) chunk (Nat.le_succ k) found
      obtain ⟨last, present, complete, _⟩ :=
        CommitsAt.committed ⟨entry, rfl, congrArg Prod.snd done⟩
      cases stored.symm.trans present
      rw [lost, complete] at forward
      exact absurd forward (by decide)
    | _ => exact resurrects.elim
  · intro harmless
    constructor
    · intro k chunk absent found
      cases entry : log[k]? with
      | none =>
        rw [chunkAt, stateAt, Replication.stateAt_past _ _ entry] at found
        cases absent.symm.trans found
      | some cmd =>
        rw [chunkAt, stateAt, Replication.stateAt_succ _ _ entry] at found
        exact step_chunk_born (handle_step _ (oracle k) cmd) absent found
    · intro j k chunk later found
      exact run_forward harmless later found
    · intro j k first second early late
      exact Nat.le_antisymm (run_one_commit harmless late early) (run_one_commit harmless early late)
    · intro j req commits set k later
      have kept : ∃ chunk, chunkAt oracle m log cid k = some chunk ∧ chunk.checksum = req.checksum := by
        obtain ⟨chunk, present, _, sum⟩ := commits.committed
        refine Replication.stateAt_keeps (P := fun s : FSM => ∃ chunk, s.chunkRegistry.lookup cid = some chunk ∧
          chunk.checksum = req.checksum) ?_ ⟨chunk, present, sum⟩ (show j + 1 ≤ k from later)
        intro i cmd _ _ before
        exact step_checksum_kept (handle_step _ (oracle i) cmd) set before
      refine ⟨?_, kept⟩
      intro again commitsAgain
      obtain ⟨chunk, found, sum⟩ := kept
      obtain ⟨same, present, unset, _⟩ := commitsAgain.unset
      cases found.symm.trans present
      exact set (sum.symm.trans unset)

/-- A chunk is declared lost before its upload has ended; the primary then commits it. -/
def lateUpload : List Command :=
  [.createFile ⟨"file-1", "notes.txt", ["ck-1"], 5, 65536, [], 2⟩, .markChunkLost ⟨"ck-1"⟩,
    .commitChunk ⟨"ck-1", ["n1"], [0xab]⟩]

theorem lost_chunk_completes :
    ((chunkAt (fun _ _ => default) newEmptyMetadataFsm lateUpload "ck-1" 2).map ChunkRecord.status =
      some .lost) ∧
    ((chunkAt (fun _ _ => default) newEmptyMetadataFsm lateUpload "ck-1" 3).map ChunkRecord.status =
      some .complete) ∧
    ¬ OrderedLife (fun _ _ => default) newEmptyMetadataFsm lateUpload "ck-1" := by
  have lost : (chunkAt (fun _ _ => default) newEmptyMetadataFsm lateUpload "ck-1" 2).map ChunkRecord.status =
      some .lost := by decide
  have complete : (chunkAt (fun _ _ => default) newEmptyMetadataFsm lateUpload "ck-1" 3).map
      ChunkRecord.status = some .complete := by decide
  refine ⟨lost, complete, ?_⟩
  intro ordered
  obtain ⟨chunk, found, status⟩ := Option.map_eq_some_iff.mp lost
  obtain ⟨later, stored, forward⟩ := ordered.forward 2 3 chunk (by decide) found
  rw [stored] at complete
  have last : later.status = .complete := Option.some.inj complete
  rw [status, last] at forward
  exact absurd forward (by decide)

def SameContent (fileID : String) (before after : FSM) : Prop :=
  ∀ file, before.fileIndex.lookup fileID = some file →
    ∃ later, after.fileIndex.lookup fileID = some later ∧ file.SameFile later ∧
      later.checkSum = file.checkSum

def Overwrites (fileID : String) (checksum : List UInt8) (m : FSM) : Command → Prop
  | .commitFile req => req.fileID = fileID ∧ req.checksum ≠ checksum ∧
      ∃ file, m.fileIndex.lookup fileID = some file ∧ file.fileSize = req.fileSize ∧
        validateChunks m.chunkRegistry file.chunkIDs = none
  | _ => False

theorem commitFile_valid {m : FSM} (orders : Nat → MapOrder) {req : CommandCommitFile} {file : FileRecord}
    (found : m.fileIndex.lookup req.fileID = some file) (size : file.fileSize = req.fileSize)
    (valid : validateChunks m.chunkRegistry file.chunkIDs = none) :
    m.handle orders (.commitFile req) =
      (m.setFile req.fileID { file with checkSum := req.checksum, status := .complete }, none) := by
  have read := (getFile_ok m).mpr found
  simp [handle, handleCmdCommitFile, read, size, valid]

theorem commitFile_accepted {m : FSM} {orders : Nat → MapOrder} {req : CommandCommitFile}
    (accepted : (m.handle orders (.commitFile req)).2 = none) :
    ∃ file, m.fileIndex.lookup req.fileID = some file ∧ file.fileSize = req.fileSize ∧
      validateChunks m.chunkRegistry file.chunkIDs = none := by
  simp only [handle, handleCmdCommitFile] at accepted
  cases read : m.getFile req.fileID with
  | error err => simp [read] at accepted
  | ok file =>
    simp only [read] at accepted
    split at accepted
    · cases accepted
    · rename_i size
      cases valid : validateChunks m.chunkRegistry file.chunkIDs with
      | some err => simp [valid] at accepted
      | none => exact ⟨file, (getFile_ok m).mp read, not_not.mp size, valid⟩

theorem step_content {m after : FSM} {orders : Nat → MapOrder} {cmd : Command} {result : Option GoError}
    (step : Step m orders cmd after result) {fileID : String} {file : FileRecord}
    (found : m.fileIndex.lookup fileID = some file) (harmless : ¬ Overwrites fileID file.checkSum m cmd) :
    ∃ later, after.fileIndex.lookup fileID = some later ∧ file.SameFile later ∧
      later.checkSum = file.checkSum := by
  obtain ⟨later, stored, same⟩ := (step_keeps step).files fileID file found
  refine ⟨later, stored, same, ?_⟩
  cases step with
  | failed | alreadyListed | nodes | jobs | mdNodes | commitChunk | evict | markLost | addReplica =>
    cases found.symm.trans stored
    rfl
  | createFile req newID fresh =>
    have elsewhere : fileID ≠ req.fileID := by
      intro here
      subst here
      cases newID.symm.trans found
    rw [GoMap.lookup_insert, if_neg elsewhere] at stored
    cases found.symm.trans stored
    rfl
  | commitFile req old present size valid =>
    rcases found_setFile stored with ⟨here, same⟩ | ⟨_, kept⟩
    · subst here same
      cases present.symm.trans found
      by_contra differs
      exact harmless ⟨rfl, differs, file, found, size, valid⟩
    · cases found.symm.trans kept
      rfl
  | deleteFile req old present =>
    rcases found_setFile stored with ⟨here, same⟩ | ⟨_, kept⟩
    · subst here same
      cases present.symm.trans found
      rfl
    · cases found.symm.trans kept
      rfl

/-- After an accepted `CommitFile` the record of the file stays as it is, but for its status,
    exactly if no later `CommitFile` of it that finds the declared size and complete chunks
    carries another checksum. -/
theorem committed_file_immutable_iff {m : FSM} {orders : Nat → MapOrder} {req : CommandCommitFile}
    (accepted : (m.handle orders (.commitFile req)).2 = none) (oracle : Nat → Nat → MapOrder)
    (log : List Command) :
    (∀ k, SameContent req.fileID (m.handle orders (.commitFile req)).1
      (stateAt oracle (m.handle orders (.commitFile req)).1 log k)) ↔
    ∀ k cmd, log[k]? = some cmd →
      ¬ Overwrites req.fileID req.checksum
        (stateAt oracle (m.handle orders (.commitFile req)).1 log k) cmd := by
  obtain ⟨old, present, size, valid⟩ := commitFile_accepted accepted
  rw [commitFile_valid orders present size valid]
  have start : (m.setFile req.fileID { old with
      checkSum := req.checksum, status := .complete }).fileIndex.lookup req.fileID =
      some { old with checkSum := req.checksum, status := .complete } := Finmap.lookup_insert _
  generalize m.setFile req.fileID { old with checkSum := req.checksum, status := .complete } = s at start ⊢
  generalize recorded : ({ old with checkSum := req.checksum, status := .complete } : FileRecord) = file
    at start
  have sum : file.checkSum = req.checksum := by rw [← recorded]
  constructor
  · intro always k cmd entry overwrites
    cases cmd with
    | commitFile again =>
      obtain ⟨here, differs, later, found, size, valid⟩ := overwrites
      have next := Replication.stateAt_succ (fun i m cmd => MetadataFSM.handle m (oracle i) cmd) s entry
      rw [commitFile_valid (oracle k) (here ▸ found) size valid] at next
      obtain ⟨last, stored, _, kept⟩ := always (k + 1) file start
      rw [stateAt, next, setFile, here, Finmap.lookup_insert] at stored
      cases stored
      exact differs (kept.trans sum)
    | _ => exact overwrites.elim
  · intro harmless k record found
    cases start.symm.trans found
    have initial : ∃ later, (stateAt oracle s log 0).fileIndex.lookup req.fileID = some later ∧
        file.SameFile later ∧ later.checkSum = file.checkSum :=
      ⟨file, start, ⟨rfl, rfl, rfl, rfl, rfl, rfl⟩, rfl⟩
    refine Replication.stateAt_keeps (P := fun s : FSM => ∃ later, s.fileIndex.lookup req.fileID = some later ∧
      file.SameFile later ∧ later.checkSum = file.checkSum) ?_ initial (Nat.zero_le k)
    intro i cmd _ entry before
    obtain ⟨middle, stored, same, kept⟩ := before
    have other : ¬ Overwrites req.fileID middle.checkSum (stateAt oracle s log i) cmd := by
      rw [kept, sum]
      exact harmless i cmd entry
    obtain ⟨last, stored, next, last_kept⟩ := step_content (handle_step _ (oracle i) cmd) stored other
    exact ⟨last, stored, same.trans next, last_kept.trans kept⟩

def notesUploaded : FSM := stateAt (fun _ _ => default) newEmptyMetadataFsm notesLog 3

def notesCommit : CommandCommitFile := ⟨"file-1", 5, [0xab]⟩

def notesCommitted : FSM := (notesUploaded.handle (fun _ => default) (.commitFile notesCommit)).1

def repeatedCommit : List Command := [.commitFile notesCommit, .deleteFile ⟨"file-1"⟩]

theorem committed_file_immutable_iff_repeated :
    (notesUploaded.handle (fun _ => default) (.commitFile notesCommit)).2 = none ∧
      ∀ k, SameContent "file-1" notesCommitted (stateAt (fun _ _ => default) notesCommitted repeatedCommit k) := by
  have accepted : (notesUploaded.handle (fun _ => default) (.commitFile notesCommit)).2 = none := by decide
  refine ⟨accepted, (committed_file_immutable_iff accepted (fun _ _ => default) repeatedCommit).mpr ?_⟩
  intro k cmd entry overwrites
  rcases List.mem_cons.mp (List.mem_of_getElem? entry) with rfl | member
  · exact overwrites.2.1 rfl
  · cases List.mem_singleton.mp member
    exact overwrites

/-- Another client declares the same file complete, with a checksum of its own. -/
def secondCommit : List Command := [.commitFile ⟨"file-1", 5, [0xcd]⟩]

theorem committed_checksum_replaced :
    (notesUploaded.handle (fun _ => default) (.commitFile notesCommit)).2 = none ∧
    (notesCommitted.fileIndex.lookup "file-1").map FileRecord.checkSum = some [0xab] ∧
    ((stateAt (fun _ _ => default) notesCommitted secondCommit 1).fileIndex.lookup "file-1").map
      FileRecord.checkSum = some [0xcd] ∧
    ¬ SameContent "file-1" notesCommitted (stateAt (fun _ _ => default) notesCommitted secondCommit 1) := by
  have before : (notesCommitted.fileIndex.lookup "file-1").map FileRecord.checkSum = some [0xab] := by decide
  have after : ((stateAt (fun _ _ => default) notesCommitted secondCommit 1).fileIndex.lookup "file-1").map
      FileRecord.checkSum = some [0xcd] := by decide
  refine ⟨by decide, before, after, ?_⟩
  intro same
  obtain ⟨file, found, sum⟩ := Option.map_eq_some_iff.mp before
  obtain ⟨later, stored, _, kept⟩ := same file found
  rw [stored] at after
  have replaced : later.checkSum = [0xcd] := Option.some.inj after
  rw [replaced, sum] at kept
  exact absurd kept (by decide)

end DistributedFs.Fsm
