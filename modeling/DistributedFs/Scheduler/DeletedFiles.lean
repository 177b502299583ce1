import DistributedFs.Concurrency.Erasure
import DistributedFs.Scheduler.NodeDeath
import DistributedFs.Scheduler.Runs

namespace DistributedFs.Scheduler

open Go Fsm MetadataFSM Healing Healing.Prog Reconcile Concurrency

def fileContent (file : FileRecord) : FileRecord := { file with status := .complete }

theorem eq_of_fileContent {file other : FileRecord} (same : fileContent file = fileContent other) :
    ∃ status, file = { other with status := status } := by
  refine ⟨file.status, ?_⟩
  calc file = { fileContent file with status := file.status } := rfl
    _ = { fileContent other with status := file.status } := by rw [same]
    _ = { other with status := file.status } := rfl

structure SameButStatus (m other : FSM) : Prop where
  rest : other = { m with fileIndex := other.fileIndex }
  files : m.fileIndex.mapValues fileContent = other.fileIndex.mapValues fileContent

namespace SameButStatus

variable {m other : FSM}

theorem refl (m : FSM) : SameButStatus m m := ⟨rfl, rfl⟩

theorem lookup (same : SameButStatus m other) (id : String) :
    (m.fileIndex.lookup id).map fileContent = (other.fileIndex.lookup id).map fileContent := by
  rw [← GoMap.lookup_mapValues, ← GoMap.lookup_mapValues, same.files]

theorem handle_withFiles (m : FSM) (files : GoMap FileRecord) (orders : Nat → MapOrder) {cmd : Command}
    (other : fileCommand cmd = false) :
    handle { m with fileIndex := files } orders cmd =
        ({ (m.handle orders cmd).1 with fileIndex := files }, (m.handle orders cmd).2) ∧
      (m.handle orders cmd).1.fileIndex = m.fileIndex := by
  cases cmd with
  | createFile | commitFile | deleteFile => cases other
  | registerNode req =>
    simp only [handle, handleCmdRegisterNode, getNode]
    cases m.nodeRegistry.lookup req.nodeID with
    | none => exact ⟨rfl, rfl⟩
    | some node => exact ⟨rfl, rfl⟩
  | deregisterNode req | markNodeDead req | markNodeAlive req | updateNodeSpace req =>
    simp only [handle, handleCmdDeregisterNode, handleCmdMarkNodeDead, handleCmdMarkNodeAlive,
      handleCmdUpdateNodeSpace, updateNode, getNode]
    cases m.nodeRegistry.lookup req.nodeID with
    | none => exact ⟨rfl, rfl⟩
    | some node => exact ⟨rfl, rfl⟩
  | commitChunk req =>
    simp only [handle, handleCmdCommitChunk, getChunk]
    cases m.chunkRegistry.lookup req.chunkID with
    | none => exact ⟨rfl, rfl⟩
    | some chunk =>
      dsimp only
      split
      · exact ⟨rfl, rfl⟩
      · exact ⟨rfl, rfl⟩
  | evictChunkFromNode req =>
    simp only [handle, handleCmdEvictChunkFromNode, getChunk]
    cases m.chunkRegistry.lookup req.chunkID with
    | none => exact ⟨rfl, rfl⟩
    | some chunk =>
      dsimp only
      cases chunk.replicas.findIdx? (· = req.nodeID) with
      | none => exact ⟨rfl, rfl⟩
      | some idx => exact ⟨rfl, rfl⟩
  | markChunkLost req =>
    simp only [handle, handleCmdMarkChunkLost, getChunk]
    cases m.chunkRegistry.lookup req.chunkID with
    | none => exact ⟨rfl, rfl⟩
    | some chunk => exact ⟨rfl, rfl⟩
  | addChunkReplica req =>
    simp only [handle, handleCmdAddChunkReplica, getChunk]
    cases m.chunkRegistry.lookup req.chunkID with
    | none => exact ⟨rfl, rfl⟩
    | some chunk =>
      dsimp only
      split
      · exact ⟨rfl, rfl⟩
      · exact ⟨rfl, rfl⟩
  | createRepairJob req =>
    simp only [handle, handleCmdCreateRepairJob]
    split
    · exact ⟨rfl, rfl⟩
    · exact ⟨rfl, rfl⟩
  | updateRepairJob req =>
    simp only [handle, handleCmdUpdateRepairJob]
    cases m.repairJobRegistry.lookup req.jobID with
    | none => exact ⟨rfl, rfl⟩
    | some job => exact ⟨rfl, rfl⟩
  | registerMetadataNode req => exact ⟨rfl, rfl⟩
  | deregisterMetadataNode req => exact ⟨rfl, rfl⟩

theorem setFile (same : SameButStatus m other) {id : String} {file later : FileRecord}
    (content : fileContent file = fileContent later) : SameButStatus (m.setFile id file) (other.setFile id later) := by
  refine ⟨?_, ?_⟩
  · rw [same.rest]
    rfl
  · simp only [MetadataFSM.setFile, GoMap.mapValues_insert, same.files, content]

theorem createFile (same : SameButStatus m other) (req : CommandCreateFile) :
    (m.handleCmdCreateFile req).2 = (other.handleCmdCreateFile req).2 ∧
      SameButStatus (m.handleCmdCreateFile req).1 (other.handleCmdCreateFile req).1 := by
  have chunks : other.chunkRegistry = m.chunkRegistry := by rw [same.rest]
  have found := same.lookup req.fileID
  simp only [handleCmdCreateFile, getFile]
  cases here : m.fileIndex.lookup req.fileID with
  | some file =>
    rw [here] at found
    obtain ⟨file', there, -⟩ := Option.map_eq_some_iff.mp found.symm
    rw [there]
    exact ⟨rfl, same⟩
  | none =>
    rw [here] at found
    rw [Option.map_eq_none_iff.mp found.symm, chunks]
    dsimp only
    split
    · exact ⟨rfl, same⟩
    · refine ⟨rfl, ?_, ?_⟩
      · rw [same.rest]
      · simp only [GoMap.mapValues_insert, same.files]

theorem commitFile (same : SameButStatus m other) (req : CommandCommitFile) :
    (m.handleCmdCommitFile req).2 = (other.handleCmdCommitFile req).2 ∧
      SameButStatus (m.handleCmdCommitFile req).1 (other.handleCmdCommitFile req).1 := by
  have chunks : other.chunkRegistry = m.chunkRegistry := by rw [same.rest]
  have found := same.lookup req.fileID
  simp only [handleCmdCommitFile, getFile]
  cases here : m.fileIndex.lookup req.fileID with
  | none =>
    rw [here] at found
    rw [Option.map_eq_none_iff.mp found.symm]
    exact ⟨rfl, same⟩
  | some file =>
    rw [here] at found
    obtain ⟨file', there, content⟩ := Option.map_eq_some_iff.mp found.symm
    obtain ⟨status, rfl⟩ := eq_of_fileContent content
    rw [there, chunks]
    dsimp only
    split
    · exact ⟨rfl, same⟩
    · cases validateChunks m.chunkRegistry file.chunkIDs with
      | some err => exact ⟨rfl, same⟩
      | none => exact ⟨rfl, same.setFile rfl⟩

theorem deleteFile (same : SameButStatus m other) (req : CommandDeleteFile) :
    SameButStatus (m.handleCmdDeleteFile req).1 other := by
  simp only [handleCmdDeleteFile, getFile]
  cases here : m.fileIndex.lookup req.fileID with
  | none => exact same
  | some file =>
    refine ⟨same.rest, ?_⟩
    have kept : m.fileIndex.mapValues fileContent =
        (m.fileIndex.mapValues fileContent).insert req.fileID (fileContent file) := by
      apply Finmap.ext_lookup
      intro id
      rw [GoMap.lookup_insert, GoMap.lookup_mapValues]
      split
      · rename_i named
        rw [named, here]
        rfl
      · rfl
    dsimp only [MetadataFSM.setFile]
    rw [GoMap.mapValues_insert, ← same.files]
    exact kept.symm

theorem handle (same : SameButStatus m other) (orders : Nat → MapOrder) {cmd : Command}
    (kept : ∀ req, cmd ≠ .deleteFile req) :
    (m.handle orders cmd).2 = (other.handle orders cmd).2 ∧
      SameButStatus (m.handle orders cmd).1 (other.handle orders cmd).1 := by
  by_cases onFiles : fileCommand cmd = true
  · cases cmd with
    | createFile req => exact same.createFile req
    | commitFile req => exact same.commitFile req
    | deleteFile req => exact absurd rfl (kept req)
    | _ => cases onFiles
  · obtain ⟨frame, files⟩ := handle_withFiles m other.fileIndex orders (Bool.not_eq_true _ ▸ onFiles)
    rw [← same.rest] at frame
    rw [frame]
    refine ⟨rfl, rfl, ?_⟩
    dsimp only
    rw [files, same.files]

theorem updateLastSeen (same : SameButStatus m other) (nodeID : String) (ts : Time) :
    SameButStatus (m.updateLastSeen nodeID ts).1 (other.updateLastSeen nodeID ts).1 := by
  have nodes : other.nodeRegistry = m.nodeRegistry := by rw [same.rest]
  simp only [MetadataFSM.updateLastSeen, nodes]
  cases m.nodeRegistry.lookup nodeID with
  | none => exact same
  | some node =>
    refine ⟨?_, same.files⟩
    rw [same.rest]
    rfl

end SameButStatus

def deletesFile : Label → Bool
  | .propose (.deleteFile _) => true
  | _ => false

def Undeleted (s t : System) : Prop := t = { s with fsm := t.fsm } ∧ SameButStatus s.fsm t.fsm

def SameResult : (label : Label) → label.Result → label.Result → Prop
  | .look, first, second => SameButStatus first.1 second.1 ∧ first.2 = second.2
  | _, first, second => first = second

def deletions : Erasure System Label Label.Result := ⟨deletesFile, Undeleted, SameResult⟩

section Blind

theorem deletions_looks : Looks deletions.blindness fun _ _ => True where
  look {_ next} fileless rest := by
    refine ⟨rfl, ?_, fun seen => rest () seen.1 seen.2 trivial trivial⟩
    rintro ⟨m, order⟩ ⟨other, _⟩ ⟨same, rfl⟩
    have files : other = { m with fileIndex := other.fileIndex } := same.rest
    show next m order = next other order
    rw [files]
    exact (fileless m other.fileIndex order).symm

theorem takes_visible (label : Label) (visible : deletesFile label = false) (read : label ≠ .look) (c : Unit) :
    deletions.blindness.Takes c label := by
  refine Erasure.takes visible ?_ c
  intro first second same
  cases label with
  | look => exact absurd rfl read
  | _ => exact same

theorem blind_scheduleCopy (chunkID source target : String) :
    deletions.Blind (scheduleCopy chunkID source target) := by
  refine takes_visible _ rfl (by simp) () _ fun _ known _ => ?_
  cases known with
  | true => trivial
  | false =>
    refine takes_visible .uuid rfl (by simp) () _ fun _ jid _ => ?_
    refine takes_visible .clock rfl (by simp) () _ fun _ now _ => ?_
    refine takes_visible _ rfl (by simp) () _ fun _ answer _ => ?_
    cases answer with
    | some err => trivial
    | none => exact (takes_visible (.enqueue jid) rfl (by simp) ()).last

theorem blind_answerHeartbeat (nodeID : String) : deletions.Blind (answerHeartbeat nodeID) := by
  refine takes_visible _ rfl (by simp) () _ fun _ pjobs _ => ?_
  refine deletions_looks.look (fun _ _ _ => rfl) fun _ m _ _ _ => ?_
  exact (takes_visible (.deliver nodeID (Server.buildRepairInstructions m pjobs)) rfl (by simp) ()).last

theorem deletions_rules (rs : RepairScheduler) : Rules deletions.blindness (fun _ _ => True) rs :=
  { deletions.sequences, deletions_looks with
    plain := by
      intro c label plain
      apply takes_visible
      · cases label with
        | propose cmd =>
          cases cmd with
          | deleteFile => exact plain.elim
          | _ => rfl
        | _ => rfl
      · rintro rfl
        exact plain
    copies := fun _ _ _ _ _ _ => blind_scheduleCopy _ _ _
    answers := fun _ => blind_answerHeartbeat }

theorem blind_executeJob (c : Unit) (jobID : String) : deletions.blindness.holds c (executeJob jobID) :=
  deletions_looks.executeJob (takes_visible .clock rfl (by simp))
    (fun d _ _ _ _ _ => takes_visible _ rfl (by simp) d)
    fun d _ _ _ _ _ _ => takes_visible _ rfl (by simp) d

theorem blind_recoverStuckJobs (c : Unit) (rs : RepairScheduler) :
    deletions.blindness.holds c (recoverStuckJobs rs) := by
  refine deletions_looks.look (fun _ _ _ => rfl) fun d m order _ _ => ?_
  refine deletions_looks.recoverJobs (takes_visible .clock rfl (by simp)) (takes_visible .cancelled rfl (by simp)) _
    (fun _ _ d _ => takes_visible _ rfl (by simp) d) ?_
  intro _ _ _ d _ _ _ _ _ _ _ _ _ _ _ _
  exact takes_visible _ rfl (by simp) d

theorem silent_or_blind (cmd : Command) :
    deletions.Silent (propose cmd fun _ => done) ∨ deletions.Blind (propose cmd fun _ => done) := by
  cases deletes : deletesFile (.propose cmd) with
  | true => exact .inl ⟨deletes, fun _ => trivial⟩
  | false => exact .inr (takes_visible (.propose cmd) deletes (by simp) ()).last

end Blind

theorem Undeleted.refl (s : System) : Undeleted s s := ⟨rfl, .refl _⟩

variable {parts : Components}

theorem spawn_alike {s later t : System} {prog : Prog} (related : Undeleted s t)
    (spawned : Spawn parts s prog later) : ∃ after, Spawn parts t prog after ∧ Undeleted later after := by
  obtain ⟨rest, files⟩ := related
  generalize t.fsm = m at rest files
  subst rest
  cases spawned with
  | component call =>
    cases call with
    | client cmd onFiles => exact ⟨_, .component (.client _ cmd onFiles), rfl, files⟩
    | store nodeID chunkID => exact ⟨_, .component (.store ..), rfl, files⟩
    | commitChunk req => exact ⟨_, .component (.commitChunk ..), rfl, files⟩
    | registerNode req inventory => exact ⟨_, .component (.registerNode _ req inventory), rfl, files⟩
    | deregisterNode nodeID => exact ⟨_, .component (.deregisterNode ..), rfl, files⟩
    | sweep => exact ⟨_, .component (.sweep _), rfl, files⟩
    | executeJob jobID rest next => exact ⟨_, .component (.executeJob _ jobID rest next), rfl, files⟩
    | reportRepairResult nodeID jobID success => exact ⟨_, .component (.reportRepairResult ..), rfl, files⟩
    | reconcile nodeID reported timer => exact ⟨_, .component (.reconcile _ nodeID reported timer), rfl, files⟩
    | stopTimer nodeID reported => exact ⟨_, .component (.stopTimer _ nodeID reported), rfl, files⟩
    | listen addr server => exact ⟨_, .component (.listen _ addr server), rfl, files⟩
  | command cmd other => exact ⟨_, .command _ cmd other, rfl, files⟩
  | heartbeat req count => exact ⟨_, .heartbeat .., rfl, files⟩
  | reportCorruption chunkId reporterId => exact ⟨_, .reportCorruption .., rfl, files⟩
  | triggerRepair deadNodeID => exact ⟨_, .triggerRepair .., rfl, files⟩
  | scheduleRepairForChunk chunkID => exact ⟨_, .scheduleRepairForChunk .., rfl, files⟩
  | onJobComplete nodeID jobID success => exact ⟨_, .onJobComplete .., rfl, files⟩
  | recoverStuckJobs => exact ⟨_, .recoverStuckJobs _, rfl, files⟩
  | newLeader => exact ⟨_, .newLeader _, rfl, files⟩

theorem spawn_undeleted {s later t : System} {prog : Prog} (related : Undeleted s t)
    (spawned : Spawn parts s prog later) :
    (deletions.Silent prog ∧ Undeleted later t) ∨
      (deletions.Blind prog ∧ ∃ after, Spawn parts t prog after ∧ Undeleted later after) := by
  have alike := spawn_alike related spawned
  rcases (deletions_rules parts.scheduler).spawned (c := ()) spawned
    (fun _ _ => takes_visible _ rfl (by simp) ()) (fun jobID _ _ => blind_executeJob () jobID)
    (blind_recoverStuckJobs () _) with blind | ⟨cmd, -, rfl, rfl⟩
  · exact .inr ⟨blind, alike⟩
  · rcases silent_or_blind cmd with silent | blind
    · exact .inl ⟨silent, related⟩
    · exact .inr ⟨blind, alike⟩

theorem deletesFile_propose {cmd : Command} (kept : deletesFile (.propose cmd) = false) (req : CommandDeleteFile) :
    cmd ≠ .deleteFile req := by
  rintro rfl
  cases kept

theorem retire_undeleted (s : System) (m : FSM) (nodeID jobID : String) :
    System.retire { s with fsm := m } nodeID jobID = { s.retire nodeID jobID with fsm := m } := by
  unfold System.retire
  cases s.pendingJobs.lookup nodeID with
  | none => rfl
  | some jobs => rfl

theorem enqueue_undeleted (s : System) (m : FSM) (jobID : String) :
    System.enqueue { s with fsm := m } jobID = { s.enqueue jobID with fsm := m } := by
  unfold System.enqueue
  dsimp only
  split
  · rfl
  · rfl

theorem exec_undeleted {label : Label} {s later t : System} {result : label.Result}
    (kept : deletesFile label = false) (related : Undeleted s t) (ran : Exec label s result later) :
    ∃ answer after, SameResult label result answer ∧ Exec label t answer after ∧ Undeleted later after := by
  obtain ⟨rest, files⟩ := related
  generalize t.fsm = m at rest files
  subst rest
  cases ran with
  | look _ order => exact ⟨(m, order), { s with fsm := m }, ⟨files, rfl⟩, .look _ order, rfl, files⟩
  | applied _ cmd orders =>
    obtain ⟨answer, states⟩ := files.handle orders (deletesFile_propose kept)
    exact ⟨_, _, answer, .applied _ cmd orders, rfl, states⟩
  | refused _ cmd err => exact ⟨_, _, rfl, .refused _ cmd err, rfl, files⟩
  | unconfirmed _ cmd orders err =>
    obtain ⟨-, states⟩ := files.handle orders (deletesFile_propose kept)
    exact ⟨_, _, rfl, .unconfirmed _ cmd orders err, rfl, states⟩
  | clock _ now => exact ⟨_, _, rfl, .clock _ now, rfl, files⟩
  | uuid _ id => exact ⟨_, _, rfl, .uuid _ id, rfl, files⟩
  | pendingKey _ key => exact ⟨_, _, rfl, .pendingKey _ key, rfl, files⟩
  | enqueue _ jobID =>
    refine ⟨_, _, rfl, .enqueue _ jobID, ?_, ?_⟩
    · rw [enqueue_undeleted]
    · rw [enqueue_undeleted, enqueue_fsm]
      exact files
  | publish _ job => exact ⟨_, _, rfl, .publish _ job, rfl, files⟩
  | retire _ nodeID jobID =>
    refine ⟨_, _, rfl, .retire _ nodeID jobID, ?_, ?_⟩
    · rw [retire_undeleted]
    · rw [retire_undeleted, retire_fsm]
      exact files
  | cancelled _ ended => exact ⟨_, _, rfl, .cancelled _ ended, rfl, files⟩
  | sent _ jobID room => exact ⟨_, _, rfl, .sent _ jobID room, rfl, files⟩
  | notSent _ jobID => exact ⟨_, _, rfl, .notSent _ jobID, rfl, files⟩
  | pendingFor _ nodeID => exact ⟨_, _, rfl, .pendingFor _ nodeID, rfl, files⟩
  | updateLastSeen _ nodeID ts =>
    exact ⟨_, _, rfl, .updateLastSeen _ nodeID ts, rfl, files.updateLastSeen nodeID ts⟩
  | deliver _ nodeID instructions => exact ⟨_, _, rfl, .deliver _ nodeID instructions, rfl, files⟩
  | arm _ nodeID reported => exact ⟨_, _, rfl, .arm _ nodeID reported, rfl, files⟩
  | deleted _ nodeID addr chunkID answers acknowledged =>
    exact ⟨_, _, rfl, .deleted { s with fsm := m } nodeID addr chunkID answers acknowledged, rfl, files⟩
  | deleteFailed _ nodeID addr chunkID => exact ⟨_, _, rfl, .deleteFailed _ nodeID addr chunkID, rfl, files⟩
  | store _ nodeID chunkID => exact ⟨_, _, rfl, .store _ nodeID chunkID, rfl, files⟩

theorem exec_deletion {label : Label} {s later t : System} {result : label.Result}
    (deletes : deletesFile label = true) (related : Undeleted s t) (ran : Exec label s result later) :
    Undeleted later t := by
  obtain ⟨rest, files⟩ := related
  cases ran with
  | applied _ cmd orders =>
    cases cmd with
    | deleteFile req => exact ⟨rest, files.deleteFile req⟩
    | _ => cases deletes
  | refused _ cmd err => exact ⟨rest, files⟩
  | unconfirmed _ cmd orders err =>
    cases cmd with
    | deleteFile req => exact ⟨rest, files.deleteFile req⟩
    | _ => cases deletes
  | _ => cases deletes

theorem deletions_unnoticed : deletions.Unnoticed (world parts) where
  hidden deletes related ran := exec_deletion deletes related ran
  visible kept related ran := exec_undeleted kept related ran
  spawn related spawned := spawn_undeleted related spawned

/-- Deleting files frees nothing. Without its `DeleteFile` proposals a run of the cluster is still one,
    with the same other proposals, calls to storage nodes and repair instructions in the same order, and
    it ends with the same disks, chunks, nodes and jobs: only the status of files differs. -/
theorem deletions_free_nothing {c : Config} {events : List (Event System Label Label.Result)}
    (run : Steps (world parts) empty events c) :
    ∃ others c', Steps (world parts) empty others c' ∧
      others.map Event.label = (events.map Event.label).filter (fun label => !deletesFile label) ∧
      Undeleted c.state c'.state := by
  obtain ⟨others, c', kept, related, -, labels⟩ := deletions_unnoticed.steps run (.refl _) Erasure.Thins.nil
  exact ⟨others, c', kept, labels, related⟩

def deletion : Command := .deleteFile ⟨"file-1"⟩

def createdAndDeleted : System :=
  { System.empty with
    fsm := ((System.empty.fsm.handle (fun _ => default) Healing.newFile).1.handle (fun _ => default) deletion).1 }

theorem deletions_free_nothing_created :
    (createdAndDeleted.fsm.fileIndex.lookup "file-1").map FileRecord.status = some .deleted ∧
      ∃ others c', Steps (world twoCopies) empty others c' ∧
        others.map Event.label = [.propose Healing.newFile] ∧ Undeleted createdAndDeleted c'.state := by
  refine ⟨by decide +kernel, ?_⟩
  have start : Steps (world twoCopies) empty [] empty := .refl
  have created := start.spawn _ _ (.component (.client _ Healing.newFile rfl))
  have applied := created.act 0 _ _ rfl _ _ (.applied _ Healing.newFile fun _ => default)
  have requested := applied.spawn _ _ (.component (.client _ deletion rfl))
  have deleted := requested.act 1 _ _ rfl _ _ (.applied _ deletion fun _ => default)
  exact deletions_free_nothing deleted

end DistributedFs.Scheduler
