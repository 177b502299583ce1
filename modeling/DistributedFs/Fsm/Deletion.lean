import DistributedFs.Fsm.Visibility

namespace DistributedFs.Fsm

open Go MetadataFSM

def FileDeleted (m : FSM) (fileID : String) : Prop :=
  ∃ file, m.fileIndex.lookup fileID = some file ∧ file.status = .deleted

structure Gone (m : FSM) (fileID : String) : Prop where
  deleted : FileDeleted m fileID
  getFile : ∀ raft response, Server.getFile raft m fileID ≠ .ok response
  listFiles : ∀ raft order files, Server.listFiles raft m order = .ok files →
    ∀ info ∈ files, info.fileId ≠ fileID

theorem gone_of_deleted {m : FSM} (intact : ReferentialIntegrity m) {fileID : String}
    (deleted : FileDeleted m fileID) : Gone m fileID where
  deleted := deleted
  getFile raft response answered := by
    obtain ⟨file, found, status⟩ := deleted
    obtain ⟨other, _, present, complete, _⟩ := Server.getFile_response answered
    cases found.symm.trans present
    rw [status] at complete
    cases complete
  listFiles raft order files answered info member named := by
    obtain ⟨file, found, status⟩ := deleted
    obtain ⟨id, other, present, complete, rfl⟩ := Server.listFiles_complete answered member
    have own : id = fileID := (intact.fileKey id other present).symm.trans named
    subst own
    cases found.symm.trans present
    rw [status] at complete
    cases complete

/-- A `CommitFile` that `handleCmdCommitFile` accepts: it never looks at the status. -/
def Revives (m : FSM) (fileID : String) : Command → Prop
  | .commitFile req => req.fileID = fileID ∧ ∃ file, m.fileIndex.lookup fileID = some file ∧
      file.fileSize = req.fileSize ∧ validateChunks m.chunkRegistry file.chunkIDs = none
  | _ => False

theorem FileDeleted.setFile {m : FSM} {fileID id : String} {later : FileRecord}
    (deleted : FileDeleted m fileID) (status : id = fileID → later.status = .deleted) :
    FileDeleted (m.setFile id later) fileID := by
  obtain ⟨file, found, kept⟩ := deleted
  by_cases here : fileID = id
  · subst here
    exact ⟨later, by simp [MetadataFSM.setFile], status rfl⟩
  · exact ⟨file, by simpa [MetadataFSM.setFile, GoMap.lookup_insert, here] using found, kept⟩

theorem step_keeps_deleted {m after : FSM} {orders : Nat → MapOrder} {cmd : Command}
    {result : Option GoError} {fileID : String} (deleted : FileDeleted m fileID)
    (step : Step m orders cmd after result) (harmless : ¬ Revives m fileID cmd) :
    FileDeleted after fileID := by
  cases step with
  | failed | alreadyListed | nodes | jobs | mdNodes | commitChunk | evict | markLost | addReplica =>
    exact deleted
  | createFile req newID fresh =>
    obtain ⟨file, found, status⟩ := deleted
    have elsewhere : fileID ≠ req.fileID := by
      intro here
      rw [here, newID] at found
      cases found
    refine ⟨file, ?_, status⟩
    rw [GoMap.lookup_insert, if_neg elsewhere]
    exact found
  | commitFile req file found size valid =>
    apply deleted.setFile
    intro here
    exact absurd ⟨here, file, here ▸ found, size, valid⟩ harmless
  | deleteFile req file found => exact deleted.setFile fun _ => rfl

theorem revives_undeletes {m : FSM} {fileID : String} {cmd : Command} (orders : Nat → MapOrder)
    (revives : Revives m fileID cmd) : ¬ FileDeleted (m.handle orders cmd).1 fileID := by
  cases cmd with
  | commitFile req =>
    obtain ⟨rfl, file, found, size, valid⟩ := revives
    have read := (getFile_ok m).mpr found
    intro deleted
    obtain ⟨later, present, status⟩ := deleted
    simp only [handle, handleCmdCommitFile, read, size, ne_eq, not_true_eq_false, if_false, valid,
      setFile, Finmap.lookup_insert] at present
    cases present
    cases status
  | _ => exact revives.elim

theorem gone_after_iff {m : FSM} (intact : ReferentialIntegrity m) {fileID : String}
    (deleted : FileDeleted m fileID) (orders : Nat → MapOrder) (cmd : Command) :
    Gone (m.handle orders cmd).1 fileID ↔ ¬ Revives m fileID cmd := by
  have step := handle_step m orders cmd
  constructor
  · intro gone revives
    exact revives_undeletes orders revives gone.deleted
  · intro harmless
    exact gone_of_deleted (step_integrity intact step) (step_keeps_deleted deleted step harmless)

abbrev StepsWithout (fileID : String) (oracle : Nat → Nat → MapOrder) :=
  Replication.EveryStep (fun i m cmd => MetadataFSM.handle m (oracle i) cmd)
    fun m cmd => ¬ Revives m fileID cmd

theorem run_gone_iff {m : FSM} (intact : ReferentialIntegrity m) {fileID : String}
    (deleted : FileDeleted m fileID) (oracle : Nat → Nat → MapOrder) (log : List Command) :
    (∀ k ≤ log.length, Gone (runLog oracle m (log.take k)).1 fileID) ↔
      StepsWithout fileID oracle m log := by
  induction log generalizing oracle m with
  | nil =>
    constructor
    · exact fun _ => trivial
    · intro _ k _
      rw [List.take_nil]
      exact gone_of_deleted intact deleted
  | cons cmd rest ih =>
    have first := gone_after_iff intact deleted (oracle 0) cmd
    have later := step_integrity intact (handle_step m (oracle 0) cmd)
    constructor
    · intro always
      have next : Gone (m.handle (oracle 0) cmd).1 fileID := always 1 (by simp)
      refine ⟨first.mp next, (ih later next.deleted fun i => oracle (i + 1)).mp ?_⟩
      intro k bound
      exact always (k + 1) (by simpa using bound)
    · intro every k bound
      have next := first.mpr every.1
      cases k with
      | zero => exact gone_of_deleted intact deleted
      | succ k =>
        have inside : k ≤ rest.length := by simpa using bound
        exact (ih later next.deleted fun i => oracle (i + 1)).mpr every.2 k inside

/-- After an accepted `DeleteFile` the file is gone in every later state of a run exactly if no
    later entry is a `CommitFile` of it that finds the declared size and its chunks complete. -/
theorem deletion_final_iff {history : History} {m : FSM} (reached : Reached history m)
    (orders : Nat → MapOrder) (req : CommandDeleteFile)
    (accepted : (m.handle orders (.deleteFile req)).2 = none)
    (oracle : Nat → Nat → MapOrder) (log : List Command) :
    (∀ k ≤ log.length,
      Gone (runLog oracle (m.handle orders (.deleteFile req)).1 (log.take k)).1 req.fileID) ↔
    StepsWithout req.fileID oracle (m.handle orders (.deleteFile req)).1 log := by
  have intact := reached_integrity (reached.command orders (.deleteFile req))
  refine run_gone_iff intact ?_ oracle log
  simp only [handle, handleCmdDeleteFile] at accepted ⊢
  cases read : m.getFile req.fileID with
  | error err => simp [read] at accepted
  | ok file => exact ⟨{ file with status := .deleted }, by simp [setFile], rfl⟩

def notesDeleted : FSM := (notesStored.1.handle (fun _ => default) (.deleteFile ⟨"file-1"⟩)).1

/-- The reply to the uploader's `CommitFile` was lost, and the call is made again. -/
def lateCommit : List Command := [.commitFile ⟨"file-1", 5, []⟩]

theorem deleted_file_returns :
    Reached (notesLog.zip notesStored.2) notesStored.1 ∧
      (notesStored.1.handle (fun _ => default) (.deleteFile ⟨"file-1"⟩)).2 = none ∧
      FileDeleted notesDeleted "file-1" ∧
      ¬ FileDeleted (runLog (fun _ _ => default) notesDeleted lateCommit).1 "file-1" ∧
      (∃ response, Server.getFile ⟨true, "10.0.0.9:7000"⟩
        (runLog (fun _ _ => default) notesDeleted lateCommit).1 "file-1" = .ok response) := by
  refine ⟨Reached.empty.runLog (fun _ _ => default) notesLog, by decide, ?_, ?_, ?_⟩
  · exact ⟨⟨"file-1", "notes.txt", 5, 65536, [], ["ck-1"], .deleted, 2, 0⟩, by decide, rfl⟩
  · apply revives_undeletes
    exact ⟨rfl, ⟨"file-1", "notes.txt", 5, 65536, [], ["ck-1"], .deleted, 2, 0⟩, by decide, rfl, by decide⟩
  · have served : (Server.getFile ⟨true, "10.0.0.9:7000"⟩
        (runLog (fun _ _ => default) notesDeleted lateCommit).1 "file-1").isOk = true := by decide
    cases answer : Server.getFile ⟨true, "10.0.0.9:7000"⟩
      (runLog (fun _ _ => default) notesDeleted lateCommit).1 "file-1" with
    | ok response => exact ⟨response, rfl⟩
    | error err =>
      rw [answer] at served
      cases served

theorem deletion_final_iff_lost :
    Gone (runLog (fun _ _ => default) notesDeleted (.markChunkLost ⟨"ck-1"⟩ :: lateCommit)).1
      "file-1" := by
  have accepted : (notesStored.1.handle (fun _ => default) (.deleteFile ⟨"file-1"⟩)).2 = none := by decide
  have reached := Reached.empty.runLog (fun _ _ => default) notesLog
  refine (deletion_final_iff reached (fun _ => default) ⟨"file-1"⟩ accepted (fun _ _ => default)
    (.markChunkLost ⟨"ck-1"⟩ :: lateCommit)).mpr ?_ 2 (by decide)
  refine ⟨fun revives => revives.elim, ?_, trivial⟩
  intro revives
  obtain ⟨_, file, found, _, valid⟩ := revives
  have stored : notesDeleted.fileIndex.lookup "file-1" =
      some ⟨"file-1", "notes.txt", 5, 65536, [], ["ck-1"], .deleted, 2, 0⟩ := by decide
  cases stored.symm.trans found
  exact absurd valid (by decide)

end DistributedFs.Fsm
