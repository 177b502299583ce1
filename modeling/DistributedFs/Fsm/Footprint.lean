import DistributedFs.Fsm.Integrity
import DistributedFs.Replication.Commute
import Mathlib.Data.Set.Lattice
import Mathlib.Order.CompletePartialOrder

namespace DistributedFs.Fsm

open Go MetadataFSM

def Mentions (fileID : String) (ids : Set String) : Command → Prop
  | .createFile req => req.fileID = fileID ∧ ∀ cid ∈ req.chunkIDs, cid ∈ ids
  | .commitFile req => req.fileID = fileID
  | .deleteFile req => req.fileID = fileID
  | .commitChunk req => req.chunkID ∈ ids
  | .addChunkReplica req => req.chunkID ∈ ids
  | .evictChunkFromNode req => req.chunkID ∈ ids
  | .markChunkLost req => req.chunkID ∈ ids
  | _ => False

theorem Mentions.mono {fileID : String} {ids more : Set String} {cmd : Command} (subset : ids ⊆ more)
    (mentions : Mentions fileID ids cmd) : Mentions fileID more cmd := by
  cases cmd with
  | createFile req => exact ⟨mentions.1, fun cid member => subset (mentions.2 cid member)⟩
  | commitFile req => exact mentions
  | deleteFile req => exact mentions
  | commitChunk req => exact subset mentions
  | addChunkReplica req => exact subset mentions
  | evictChunkFromNode req => exact subset mentions
  | markChunkLost req => exact subset mentions
  | _ => exact mentions

structure AgreeOn (fileID : String) (ids : Set String) (m other : FSM) : Prop where
  file : other.fileIndex.lookup fileID = m.fileIndex.lookup fileID
  chunks : ∀ cid ∈ ids, other.chunkRegistry.lookup cid = m.chunkRegistry.lookup cid
  nodes : other.nodeRegistry = m.nodeRegistry

theorem AgreeOn.refl (fileID : String) (ids : Set String) (m : FSM) : AgreeOn fileID ids m m :=
  ⟨rfl, fun _ _ => rfl, rfl⟩

def Owns (fileID : String) (ids : Set String) (m : FSM) : Prop :=
  ∀ file, m.fileIndex.lookup fileID = some file → ∀ cid ∈ file.chunkIDs, cid ∈ ids

structure Edit where
  file : Option FileRecord
  chunks : List (String × ChunkRecord (List String))

namespace Edit

def nothing : Edit := ⟨none, []⟩

def apply (edit : Edit) (fileID : String) (m : FSM) : FSM :=
  { m with
    fileIndex := edit.file.elim m.fileIndex (m.fileIndex.insert fileID)
    chunkRegistry := m.chunkRegistry.insertAll edit.chunks }

structure Inside (edit : Edit) (ids : Set String) : Prop where
  file : ∀ file ∈ edit.file, ∀ cid ∈ file.chunkIDs, cid ∈ ids
  chunks : ∀ entry ∈ edit.chunks, entry.1 ∈ ids

theorem lookup_file (edit : Edit) (fileID id : String) (m : FSM) :
    (edit.apply fileID m).fileIndex.lookup id =
      if id = fileID then edit.file.or (m.fileIndex.lookup id) else m.fileIndex.lookup id := by
  cases written : edit.file with
  | none => simp [apply, written]
  | some file => simp [apply, written, GoMap.lookup_insert]

theorem Inside.absent {edit : Edit} {ids : Set String} (inside : edit.Inside ids) {cid : String}
    (outside : cid ∉ ids) (entry : String × ChunkRecord (List String)) (member : entry ∈ edit.chunks) :
    entry.1 ≠ cid := by
  intro same
  exact outside (same ▸ inside.chunks entry member)

theorem lookup_chunk_outside {edit : Edit} {ids : Set String} (inside : edit.Inside ids)
    (fileID : String) (m : FSM) {cid : String} (outside : cid ∉ ids) :
    (edit.apply fileID m).chunkRegistry.lookup cid = m.chunkRegistry.lookup cid :=
  GoMap.lookup_insertAll_of_absent _ (inside.absent outside)

theorem comm {first second : Edit} {ids ids' : Set String} (apart : Disjoint ids ids')
    (inside : first.Inside ids) (inside' : second.Inside ids') {fileID fileID' : String}
    (different : fileID ≠ fileID') (m : FSM) :
    first.apply fileID (second.apply fileID' m) = second.apply fileID' (first.apply fileID m) := by
  have files : (first.apply fileID (second.apply fileID' m)).fileIndex =
      (second.apply fileID' (first.apply fileID m)).fileIndex := by
    apply Finmap.ext_lookup
    intro id
    simp only [lookup_file]
    split
    · rename_i here
      rw [if_neg (here ▸ different), if_neg (here ▸ different)]
    · rfl
  have chunks : (first.apply fileID (second.apply fileID' m)).chunkRegistry =
      (second.apply fileID' (first.apply fileID m)).chunkRegistry := by
    apply GoMap.insertAll_comm
    intro entry member other listed same
    exact Set.disjoint_left.mp apart (inside.chunks entry member) (same ▸ inside'.chunks other listed)
  simp only [apply] at files chunks ⊢
  rw [files, chunks]

theorem inside_nothing (ids : Set String) : nothing.Inside ids := by
  constructor <;> intro _ member <;> cases member

end Edit

def SameEdit (fileID : String) (ids : Set String) (m other : FSM)
    (first second : Outcome (List String)) : Prop :=
  ∃ (edit : Edit) (result : Option GoError), edit.Inside ids ∧
    first = (edit.apply fileID m, result) ∧ second = (edit.apply fileID other, result)

variable {fileID : String} {ids : Set String} {m other : FSM}

theorem SameEdit.nothing (result : Option GoError) : SameEdit fileID ids m other (m, result) (other, result) :=
  ⟨.nothing, result, Edit.inside_nothing ids, rfl, rfl⟩

theorem SameEdit.setFile {file : FileRecord} (inside : ∀ cid ∈ file.chunkIDs, cid ∈ ids) :
    SameEdit fileID ids m other (m.setFile fileID file, none) (other.setFile fileID file, none) := by
  refine ⟨⟨some file, []⟩, none, ⟨?_, fun _ member => (List.not_mem_nil member).elim⟩, rfl, rfl⟩
  intro record same
  cases same
  exact inside

theorem SameEdit.setChunk {cid : String} {chunk : ChunkRecord (List String)} (inside : cid ∈ ids) :
    SameEdit fileID ids m other (m.setChunk cid chunk, none) (other.setChunk cid chunk, none) := by
  refine ⟨⟨none, [(cid, chunk)]⟩, none, ⟨fun _ same => (nomatch same), ?_⟩, rfl, rfl⟩
  intro entry member
  cases List.mem_singleton.mp member
  exact inside

theorem insertChunks_eq_insertAll (registry : GoMap (ChunkRecord (List String)))
    (records : List (ChunkRecord (List String))) :
    insertChunks registry records = registry.insertAll (records.map fun val => (val.chunkID, val)) := by
  rw [insertChunks, GoMap.insertAll, List.foldl_map]

theorem validateChunks_congr {registry later : GoMap (ChunkRecord (List String))} {cids : List String}
    (same : ∀ cid ∈ cids, later.lookup cid = registry.lookup cid) :
    validateChunks later cids = validateChunks registry cids := by
  induction cids with
  | nil => rfl
  | cons cid rest ih =>
    have others := ih fun cid member => same cid (List.mem_cons_of_mem _ member)
    simp only [validateChunks, same cid List.mem_cons_self, others]

theorem AgreeOn.getFile (agree : AgreeOn fileID ids m other) : other.getFile fileID = m.getFile fileID := by
  simp only [MetadataFSM.getFile, agree.file]

theorem AgreeOn.getChunk (agree : AgreeOn fileID ids m other) {cid : String} (inside : cid ∈ ids) :
    other.getChunk cid = m.getChunk cid := by
  simp only [MetadataFSM.getChunk, agree.chunks cid inside]

theorem AgreeOn.known (agree : AgreeOn fileID ids m other) {cid : String} (inside : cid ∈ ids) :
    cid ∈ other.chunkRegistry ↔ cid ∈ m.chunkRegistry := by
  rw [Finmap.mem_iff, Finmap.mem_iff, agree.chunks cid inside]

theorem chunkID_mem_of_stub {req : CommandCreateFile} {stub : ChunkRecord (List String)}
    (listed : stub ∈ chunkStubs req) : stub.chunkID ∈ req.chunkIDs := by
  rw [← chunkStubs_ids (ρ := List String) req]
  exact List.mem_map_of_mem listed

theorem handleCmdCreateFile_edit (agree : AgreeOn fileID ids m other) (req : CommandCreateFile)
    (named : req.fileID = fileID) (inside : ∀ cid ∈ req.chunkIDs, cid ∈ ids) :
    SameEdit fileID ids m other (m.handleCmdCreateFile req) (other.handleCmdCreateFile req) := by
  subst named
  have stubInside (stub : ChunkRecord (List String)) (listed : stub ∈ chunkStubs req) :
      stub.chunkID ∈ ids := inside _ (chunkID_mem_of_stub listed)
  unfold handleCmdCreateFile
  rw [agree.getFile]
  cases m.getFile req.fileID with
  | ok file => exact .nothing _
  | error err =>
    have clash : (chunkStubs (ρ := List String) req).any
          (fun val => decide (val.chunkID ∈ other.chunkRegistry)) =
        (chunkStubs (ρ := List String) req).any fun val => decide (val.chunkID ∈ m.chunkRegistry) := by
      rw [Bool.eq_iff_iff, List.any_eq_true, List.any_eq_true]
      apply exists_congr
      intro stub
      apply and_congr_right
      intro listed
      rw [decide_eq_true_iff, decide_eq_true_iff]
      exact agree.known (stubInside stub listed)
    dsimp only
    rw [clash]
    split
    · exact .nothing _
    · rw [insertChunks_eq_insertAll, insertChunks_eq_insertAll]
      refine ⟨⟨some (newFile req), (chunkStubs req).map fun val => (val.chunkID, val)⟩, none, ⟨?_, ?_⟩,
        rfl, rfl⟩
      · intro file same
        cases same
        exact inside
      · intro entry member
        obtain ⟨stub, listed, rfl⟩ := List.mem_map.mp member
        exact stubInside stub listed

theorem handleCmdCommitFile_edit (agree : AgreeOn fileID ids m other) (owns : Owns fileID ids m)
    (req : CommandCommitFile) (named : req.fileID = fileID) :
    SameEdit fileID ids m other (m.handleCmdCommitFile req) (other.handleCmdCommitFile req) := by
  subst named
  unfold handleCmdCommitFile
  rw [agree.getFile]
  cases read : m.getFile req.fileID with
  | error err => exact .nothing _
  | ok file =>
    dsimp only
    split
    · exact .nothing _
    · have inside := owns file ((getFile_ok m).mp read)
      rw [validateChunks_congr fun cid member => agree.chunks cid (inside cid member)]
      cases validateChunks m.chunkRegistry file.chunkIDs with
      | some err => exact .nothing _
      | none => exact .setFile inside

theorem handleCmdDeleteFile_edit (agree : AgreeOn fileID ids m other) (owns : Owns fileID ids m)
    (req : CommandDeleteFile) (named : req.fileID = fileID) :
    SameEdit fileID ids m other (m.handleCmdDeleteFile req) (other.handleCmdDeleteFile req) := by
  subst named
  unfold handleCmdDeleteFile
  rw [agree.getFile]
  cases read : m.getFile req.fileID with
  | error err => exact .nothing _
  | ok file => exact .setFile (owns file ((getFile_ok m).mp read))

theorem handleCmdCommitChunk_edit (agree : AgreeOn fileID ids m other) (orders : Nat → MapOrder)
    (req : CommandCommitChunk) (inside : req.chunkID ∈ ids) :
    SameEdit fileID ids m other (m.handleCmdCommitChunk orders req)
      (other.handleCmdCommitChunk orders req) := by
  unfold handleCmdCommitChunk
  rw [agree.getChunk inside, agree.nodes]
  cases m.getChunk req.chunkID with
  | error err => exact .nothing _
  | ok chunk =>
    dsimp only
    split
    · exact .setChunk inside
    · exact .nothing _

theorem handleCmdEvictChunkFromNode_edit (agree : AgreeOn fileID ids m other)
    (req : CommandEvictChunkFromNode) (inside : req.chunkID ∈ ids) :
    SameEdit fileID ids m other (m.handleCmdEvictChunkFromNode req)
      (other.handleCmdEvictChunkFromNode req) := by
  unfold handleCmdEvictChunkFromNode
  rw [agree.getChunk inside]
  cases m.getChunk req.chunkID with
  | error err => exact .nothing _
  | ok chunk =>
    dsimp only
    cases chunk.replicas.findIdx? (· = req.nodeID) with
    | none => exact .nothing _
    | some idx => exact .setChunk inside

theorem handleCmdAddChunkReplica_edit (agree : AgreeOn fileID ids m other)
    (req : CommandAddChunkReplica) (inside : req.chunkID ∈ ids) :
    SameEdit fileID ids m other (m.handleCmdAddChunkReplica req)
      (other.handleCmdAddChunkReplica req) := by
  unfold handleCmdAddChunkReplica
  rw [agree.getChunk inside]
  cases m.getChunk req.chunkID with
  | error err => exact .nothing _
  | ok chunk =>
    dsimp only
    split
    · exact .nothing _
    · exact .setChunk inside

theorem handleCmdMarkChunkLost_edit (agree : AgreeOn fileID ids m other)
    (req : CommandMarkChunkLost) (inside : req.chunkID ∈ ids) :
    SameEdit fileID ids m other (m.handleCmdMarkChunkLost req) (other.handleCmdMarkChunkLost req) := by
  unfold handleCmdMarkChunkLost
  rw [agree.getChunk inside]
  cases m.getChunk req.chunkID with
  | error err => exact .nothing _
  | ok chunk => exact .setChunk inside

/-- A command reads nothing outside its footprint: on states that agree there it makes the
    same edit, inside the footprint. -/
theorem handle_edit (agree : AgreeOn fileID ids m other) (owns : Owns fileID ids m)
    (orders : Nat → MapOrder) {cmd : Command} (mentions : Mentions fileID ids cmd) :
    SameEdit fileID ids m other (m.handle orders cmd) (other.handle orders cmd) := by
  cases cmd with
  | createFile req => exact handleCmdCreateFile_edit agree req mentions.1 mentions.2
  | commitFile req => exact handleCmdCommitFile_edit agree owns req mentions
  | deleteFile req => exact handleCmdDeleteFile_edit agree owns req mentions
  | commitChunk req => exact handleCmdCommitChunk_edit agree orders req mentions
  | evictChunkFromNode req => exact handleCmdEvictChunkFromNode_edit agree req mentions
  | markChunkLost req => exact handleCmdMarkChunkLost_edit agree req mentions
  | addChunkReplica req => exact handleCmdAddChunkReplica_edit agree req mentions
  | _ => exact mentions.elim

theorem AgreeOn.of_edit {edit : Edit} {ids' : Set String} (inside : edit.Inside ids')
    (apart : Disjoint ids ids') {fileID' : String} (different : fileID ≠ fileID') :
    AgreeOn fileID ids m (edit.apply fileID' m) where
  file := by rw [Edit.lookup_file, if_neg different]
  chunks _ member := Edit.lookup_chunk_outside inside fileID' m (Set.disjoint_left.mp apart member)
  nodes := rfl

theorem Owns.edit {edit : Edit} (owns : Owns fileID ids m) (inside : edit.Inside ids) :
    Owns fileID ids (edit.apply fileID m) := by
  intro file found
  rw [Edit.lookup_file, if_pos rfl] at found
  cases written : edit.file with
  | none =>
    rw [written] at found
    exact owns file found
  | some record =>
    rw [written] at found
    cases found
    exact inside.file file written

theorem Owns.agree (owns : Owns fileID ids m) (agree : AgreeOn fileID ids m other) :
    Owns fileID ids other := by
  intro file found
  rw [agree.file] at found
  exact owns file found

abbrev Entry := (Nat → MapOrder) × Command

def applyEntry (m : FSM) (entry : Entry) : Outcome (List String) := m.handle entry.1 entry.2

theorem applyEntry_edit {fileID fileID' : String} {ids ids' : Set String} (different : fileID ≠ fileID')
    (apart : Disjoint ids ids') (owns : Owns fileID ids m) {entry : Entry}
    (mentions : Mentions fileID ids entry.2) :
    ∃ edit : Edit, edit.Inside ids ∧ (applyEntry m entry).1 = edit.apply fileID m ∧
      AgreeOn fileID' ids' m (applyEntry m entry).1 := by
  obtain ⟨edit, result, inside, same, _⟩ :=
    handle_edit (AgreeOn.refl fileID ids m) owns entry.1 mentions
  have after : (applyEntry m entry).1 = edit.apply fileID m := congrArg Prod.fst same
  refine ⟨edit, inside, after, ?_⟩
  rw [after]
  exact AgreeOn.of_edit inside apart.symm different.symm

theorem applyEntry_past {fileID fileID' : String} {ids ids' : Set String} (different : fileID ≠ fileID')
    (apart : Disjoint ids ids') (owns : Owns fileID ids m) (owns' : Owns fileID' ids' m) {a b : Entry}
    (left : Mentions fileID ids a.2) (right : Mentions fileID' ids' b.2) :
    (applyEntry (applyEntry m b).1 a).1 = (applyEntry (applyEntry m a).1 b).1 ∧
      (applyEntry (applyEntry m b).1 a).2 = (applyEntry m a).2 ∧
      (applyEntry (applyEntry m a).1 b).2 = (applyEntry m b).2 := by
  obtain ⟨_, _, _, agreeRight⟩ := applyEntry_edit different apart owns left
  obtain ⟨_, _, _, agreeLeft⟩ := applyEntry_edit different.symm apart.symm owns' right
  obtain ⟨first, result, inside, alone, after⟩ := handle_edit agreeLeft owns a.1 left
  obtain ⟨second, result', inside', alone', after'⟩ := handle_edit agreeRight owns' b.1 right
  change applyEntry m a = _ at alone
  change applyEntry m b = _ at alone'
  change applyEntry (applyEntry m b).1 a = _ at after
  change applyEntry (applyEntry m a).1 b = _ at after'
  rw [after, after', alone, alone']
  exact ⟨Edit.comm apart inside inside' different m, rfl, rfl⟩

theorem footprints_commute {fileID fileID' : String} {ids ids' : Set String} (different : fileID ≠ fileID')
    (apart : Disjoint ids ids') :
    Replication.Commuting applyEntry (fun m => Owns fileID ids m ∧ Owns fileID' ids' m)
      (fun entry => Mentions fileID ids entry.2) (fun entry => Mentions fileID' ids' entry.2) where
  keepsLeft inv mentions := by
    obtain ⟨edit, inside, after, agree⟩ := applyEntry_edit different apart inv.1 mentions
    exact ⟨after ▸ inv.1.edit inside, inv.2.agree agree⟩
  keepsRight inv mentions := by
    obtain ⟨edit, inside, after, agree⟩ := applyEntry_edit different.symm apart.symm inv.2 mentions
    exact ⟨inv.1.agree agree, after ▸ inv.2.edit inside⟩
  state inv left right := (applyEntry_past different apart inv.1 inv.2 left right).1
  leftResult inv left right := (applyEntry_past different apart inv.1 inv.2 left right).2.1
  rightResult inv left right := (applyEntry_past different apart inv.1 inv.2 left right).2.2

def recordedChunks (m : FSM) (fileID : String) : Set String :=
  { cid | ∃ file, m.fileIndex.lookup fileID = some file ∧ cid ∈ file.chunkIDs }

/-- Uploads of different files do not interfere, if no chunk that is already recorded for the
    file of one is in the chunk set of the other: any interleaving ends like one log after the
    other and gives every command the same result. -/
theorem uploads_do_not_interfere {history : History} {m : FSM} (reached : Reached history m)
    {fileID fileID' : String} {ids ids' : Set String} (different : fileID ≠ fileID')
    (apart : Disjoint ids ids') (recorded : Disjoint (recordedChunks m fileID) ids')
    (recorded' : Disjoint (recordedChunks m fileID') ids) (log : List (Entry ⊕ Entry))
    (lefts : ∀ entry ∈ Replication.fromLeft log, Mentions fileID ids entry.2)
    (rights : ∀ entry ∈ Replication.fromRight log, Mentions fileID' ids' entry.2) :
    (Replication.run (fun _ => applyEntry) m (Replication.merged log)).1 =
        (Replication.run (fun _ => applyEntry)
          (Replication.run (fun _ => applyEntry) m (Replication.fromLeft log)).1
          (Replication.fromRight log)).1 ∧
      Replication.resultsBySide log (Replication.run (fun _ => applyEntry) m (Replication.merged log)).2 =
        ((Replication.run (fun _ => applyEntry) m (Replication.fromLeft log)).2,
          (Replication.run (fun _ => applyEntry)
            (Replication.run (fun _ => applyEntry) m (Replication.fromLeft log)).1
            (Replication.fromRight log)).2) := by
  -- the footprint of a log also holds the chunks that its `CommitFile` looks at
  have shared : Disjoint (recordedChunks m fileID) (recordedChunks m fileID') := by
    rw [Set.disjoint_left]
    intro cid held held'
    obtain ⟨file, found, member⟩ := held
    obtain ⟨file', found', member'⟩ := held'
    exact different ((reached_integrity reached).no_shared_chunk found found' member member')
  have disjoint : Disjoint (ids ∪ recordedChunks m fileID) (ids' ∪ recordedChunks m fileID') := by
    rw [Set.disjoint_union_left, Set.disjoint_union_right, Set.disjoint_union_right]
    exact ⟨⟨apart, recorded'.symm⟩, recorded, shared⟩
  have owns (id : String) (set : Set String) : Owns id (set ∪ recordedChunks m id) m :=
    fun file found cid member => .inr ⟨file, found, member⟩
  apply (footprints_commute different disjoint).interleaving ⟨owns fileID ids, owns fileID' ids'⟩
  · intro entry member
    exact (lefts entry member).mono Set.subset_union_left
  · intro entry member
    exact (rights entry member).mono Set.subset_union_left

def entry (cmd : Command) : Entry := (fun _ => default, cmd)

def twoUploads : List (Entry ⊕ Entry) :=
  [.inl (entry (.createFile photosUpload)),
    .inr (entry (.createFile ⟨"file-2", "notes.txt", ["ck-3"], 5, 65536, [], 2⟩)),
    .inl (entry (.commitChunk ⟨"ck-1", ["n1"], [1]⟩)), .inr (entry (.commitChunk ⟨"ck-3", ["n1"], [3]⟩)),
    .inr (entry (.commitFile ⟨"file-2", 5, []⟩)), .inl (entry (.commitFile ⟨"file-1", 100000, []⟩))]

theorem uploads_do_not_interfere_two :
    (Replication.run (fun _ => applyEntry) newEmptyMetadataFsm (Replication.merged twoUploads)).1 =
      (Replication.run (fun _ => applyEntry)
        (Replication.run (fun _ => applyEntry) newEmptyMetadataFsm (Replication.fromLeft twoUploads)).1
        (Replication.fromRight twoUploads)).1 := by
  have nothing (id : String) : recordedChunks newEmptyMetadataFsm id = ∅ := by
    ext cid
    simp [recordedChunks, newEmptyMetadataFsm]
  have different : "file-1" ≠ "file-2" := by decide
  have apart : Disjoint ({"ck-1", "ck-2"} : Set String) {"ck-3"} := by simp
  refine (uploads_do_not_interfere Reached.empty different apart (by simp [nothing]) (by simp [nothing])
    twoUploads ?_ ?_).1
  · simp [twoUploads, entry, Mentions, photosUpload]
  · simp [twoUploads, entry, Mentions]

/-- `file-1` was created with two chunks, and each of them is in another list. -/
def borrowedChunk : List (Entry ⊕ Entry) :=
  [.inr (entry (.commitChunk ⟨"ck-2", ["n1"], [2]⟩)), .inl (entry (.commitChunk ⟨"ck-1", ["n1"], [1]⟩)),
    .inl (entry (.commitFile ⟨"file-1", 100000, []⟩))]

theorem uploads_interfere_borrowed :
    Reached [(.createFile photosUpload, none)] photosCreated ∧ "file-1" ≠ "file-2" ∧
      Disjoint ({"ck-1"} : Set String) {"ck-2"} ∧
      (∀ entry ∈ Replication.fromLeft borrowedChunk, Mentions "file-1" {"ck-1"} entry.2) ∧
      (∀ entry ∈ Replication.fromRight borrowedChunk, Mentions "file-2" {"ck-2"} entry.2) ∧
      Replication.resultsBySide borrowedChunk
        (Replication.run (fun _ => applyEntry) photosCreated (Replication.merged borrowedChunk)).2 =
          ([none, none], [none]) ∧
      (Replication.run (fun _ => applyEntry) photosCreated (Replication.fromLeft borrowedChunk)).2 =
        [none, some (.new "cmdCommitFile: chunk validation failed : chunk not commited")] := by
  refine ⟨photosCreated_reached, by decide, by simp, ?_, ?_, by decide, by decide⟩
  · simp [borrowedChunk, entry, Mentions]
  · simp [borrowedChunk, entry, Mentions]

end DistributedFs.Fsm
