import DistributedFs.Client.Download
import DistributedFs.Client.Upload

namespace DistributedFs.Client

open Go Fsm MetadataFSM Storage

/-- The calls of a download fail, or are answered from the state `listed` when it lists the
    files and from the state `got` when it asks for one. -/
structure MetadataClient.Answers (client : MetadataClient) (listed got : FSM) : Prop where
  listFiles : ∀ files, client.listFiles = .ok files →
    ∃ raft order, Server.listFiles raft listed order = .ok files
  getFile : ∀ id response, client.getFile id = .ok response →
    ∃ raft, Server.getFile raft got id = .ok response

theorem getFileByName_found {client : MetadataClient} {fileName : String} {info : FileInfo}
    {chunks : List ChunkInfo} (found : client.getFileByName fileName = .ok (info, chunks)) :
    ∃ files response, ∃ f ∈ files, client.listFiles = .ok files ∧ f.fileName = fileName ∧
      client.getFile f.fileId = .ok response ∧ info = protoToFileInfo response.file ∧
      chunks = response.chunks.map protoToChunkInfo := by
  unfold MetadataClient.getFileByName at found
  split at found
  · cases found
  · rename_i files listed
    split at found
    · rename_i f first
      obtain ⟨file, member, rfl⟩ := List.mem_map.mp (List.mem_of_find?_eq_some first)
      have named := List.find?_some first
      unfold MetadataClient.getFileInfo at found
      split at found
      · cases found
      · rename_i response answered
        cases found
        exact ⟨files, response, file, member, listed, of_decide_eq_true named, answered, rfl, rfl⟩
    · cases found

namespace Upload

def OnlyComplete (u : Upload) (m : FSM) : Prop :=
  ∀ id file, m.fileIndex.lookup id = some file → file.status = .complete → file.filename = u.fileName →
    id = u.fileID

structure Located (u : Upload) (i : Nat) (c : ChunkInfo) : Prop where
  chunkIndex : c.chunkIndex = (Int32.ofNat i).toInt64
  checksum : c.checksum = Sha256.sum256 (u.piece i)

theorem Recorded.located {u : Upload} {m : FSM} (recorded : u.Recorded m) {file : FileRecord}
    (present : m.fileIndex.lookup u.fileID = some file) (done : file.status = .complete)
    {chunks : List (ChunkRecord (List String))}
    (collected : collectChunks m.chunkRegistry file.chunkIDs = .ok chunks) :
    List.Forall₂ u.Located (List.range u.count)
      ((chunks.map (Server.chunkInfo m.nodeRegistry)).map protoToChunkInfo) := by
  obtain ⟨_, same, describes⟩ := recorded.file
  cases same.symm.trans present
  have found := collectChunks_found collected
  rw [describes.chunkIDs, chunkIDs_eq, List.forall₂_map_left_iff] at found
  rw [List.map_map, List.forall₂_map_right_iff]
  have indexed := (List.forall₂_and_left _ _).mpr ⟨fun i => List.mem_range.mp, found⟩
  apply indexed.imp
  intro i chunk held
  obtain ⟨below, stored⟩ := held
  obtain ⟨_, same, tracks⟩ := recorded.chunk i below
  cases same.symm.trans stored
  have committed := recorded.complete file present done i below chunk stored
  refine ⟨?_, tracks.checksum.resolve_right fun stub => committed stub.1⟩
  simp [protoToChunkInfo, Server.chunkInfo, tracks.chunkIndex]

theorem Recorded.getFileByName {u : Upload} {client : MetadataClient} {listed got : FSM}
    (answers : client.Answers listed got) (first : u.Recorded listed) (second : u.Recorded got)
    (only : u.OnlyComplete listed) {info : FileInfo} {chunks : List ChunkInfo}
    (found : client.getFileByName u.fileName = .ok (info, chunks)) :
    info.fileSize = u.totalSize ∧ info.chunkSize = u.cfg.chunkSize ∧
      List.Forall₂ u.Located (List.range u.count) chunks := by
  obtain ⟨files, response, f, member, list, named, get, rfl, rfl⟩ := getFileByName_found found
  obtain ⟨_, _, list⟩ := answers.listFiles files list
  obtain ⟨id, file, present, complete, rfl⟩ := Server.listFiles_complete list member
  cases only id file present complete named
  obtain ⟨_, same, describes⟩ := first.file
  cases same.symm.trans present
  obtain ⟨_, get⟩ := answers.getFile _ response get
  obtain ⟨stored, records, there, done, collected, rfl⟩ := Server.getFile_response get
  rw [show (Server.fileInfo file).fileId = u.fileID from describes.fileID] at there
  obtain ⟨_, same, describes⟩ := second.file
  cases same.symm.trans there
  refine ⟨?_, ?_, second.located there done collected⟩
  · simp [protoToFileInfo, Server.fileInfo, describes.fileSize]
  · simp [protoToFileInfo, Server.fileInfo, describes.chunkSize]

theorem piece_bound (u : Upload) {i : Nat} (inside : i * u.cfg.chunkSize.toInt.toNat < u.content.length) :
    i * u.cfg.chunkSize.toInt.toNat + (u.piece i).length ≤ u.content.length := by
  simp only [piece, List.length_take, List.length_drop]
  omega

theorem getElem?_piece (u : Upload) {i k : Nat} (below : k < (u.piece i).length) :
    (u.piece i)[k]? = u.content[i * u.cfg.chunkSize.toInt.toNat + k]? := by
  simp only [piece, List.length_take] at below ⊢
  rw [List.getElem?_take_of_lt (by omega), List.getElem?_drop]

theorem mem_piece {u : Upload} (sized : u.Sized) {k : Nat} (inside : k < u.content.length) :
    ∃ i, i < u.count ∧ i * u.cfg.chunkSize.toInt.toNat ≤ k ∧
      k < i * u.cfg.chunkSize.toInt.toNat + (u.piece i).length := by
  have enough := (numChunks_eq sized.valid.chunkSize sized.nonempty sized.bound).1
  have low := sized.valid.chunkSize.low
  have divided := Nat.div_add_mod' k u.cfg.chunkSize.toInt.toNat
  have short := Nat.mod_lt k (show 0 < u.cfg.chunkSize.toInt.toNat by omega)
  refine ⟨k / u.cfg.chunkSize.toInt.toNat, ?_, Nat.div_mul_le_self k _, ?_⟩
  · rw [Nat.div_lt_iff_lt_mul (by omega)]
    exact Nat.lt_of_lt_of_le inside enough
  · simp only [piece, List.length_take, List.length_drop]
    omega

theorem Located.offset {u : Upload} (sized : u.Sized) (few : u.count < 2 ^ 31) {i : Nat}
    (below : i < u.count) {c : ChunkInfo} (located : u.Located i c) :
    (c.chunkIndex * u.cfg.chunkSize).toInt.toNat = i * u.cfg.chunkSize.toInt.toNat := by
  have inside := (numChunks_eq sized.valid.chunkSize sized.nonempty sized.bound).2 i below
  have index : c.chunkIndex = Int64.ofNat i := by
    rw [located.chunkIndex, ← Int64.toInt_inj, Int32.toInt_toInt64, Int32.toInt_ofNat_of_lt (by omega),
      Int64.toInt_ofNat_of_lt (by omega)]
  rw [index]
  exact congrArg Int.toNat (offset_descriptorAt sized.valid.chunkSize u.fileID sized.bound inside)

end Upload

theorem exists_of_forall₂ {α β : Type} {R : α → β → Prop} {as : List α} {bs : List β}
    (related : List.Forall₂ R as bs) {a : α} (member : a ∈ as) : ∃ b ∈ bs, R a b := by
  induction related with
  | nil => cases member
  | cons head _ ih =>
    rcases List.mem_cons.mp member with rfl | member
    · exact ⟨_, List.mem_cons_self, head⟩
    · obtain ⟨b, inside, holds⟩ := ih member
      exact ⟨b, List.mem_cons_of_mem _ inside, holds⟩

section

variable {u : Upload} (sized : u.Sized) (few : u.count < 2 ^ 31) {S : Set (List UInt8)}
  (collisionFree : Set.InjOn Sha256.sum256 S) (pieces : ∀ i, i < u.count → u.piece i ∈ S)
  {env : DownloadEnv} (replies : ∀ c k data, (env.fetch c k).reply = .ok data → data ∈ S)
include sized few collisionFree pieces replies

theorem write_of_located {c : ChunkInfo} {i : Nat} (below : i < u.count) (located : u.Located i c)
    {w : Write} (done : downloadChunkWithFailover (env.fetch c) c u.cfg.chunkSize = .ok w) :
    w = (i * u.cfg.chunkSize.toInt.toNat, u.piece i) := by
  have checked : c.checksum ≠ [] := by
    rw [located.checksum]
    exact Upload.sum256_ne_nil _
  obtain ⟨turn, data, reply, hash, rfl⟩ := downloadChunkWithFailover_ok checked done
  rw [located.checksum] at hash
  rw [located.offset sized few below, collisionFree (replies c turn data reply) (pieces i below) hash]

theorem mem_writes {chunks finished : List ChunkInfo} {writes : List Write}
    (located : List.Forall₂ u.Located (List.range u.count) chunks) (perm : finished.Perm chunks)
    (fetched : finished.map (fun c => downloadChunkWithFailover (env.fetch c) c u.cfg.chunkSize) =
      writes.map .ok) (w : Write) :
    w ∈ writes ↔ ∃ i, i < u.count ∧ w = (i * u.cfg.chunkSize.toInt.toNat, u.piece i) := by
  constructor
  · intro member
    have written : Except.ok w ∈ writes.map (Except.ok (ε := GoError)) := List.mem_map_of_mem member
    rw [← fetched] at written
    obtain ⟨c, inside, done⟩ := List.mem_map.mp written
    obtain ⟨i, below, here⟩ := exists_of_forall₂ located.flip (perm.mem_iff.mp inside)
    have below := List.mem_range.mp below
    exact ⟨i, below, write_of_located sized few collisionFree pieces replies below here done⟩
  · intro held
    obtain ⟨i, below, rfl⟩ := held
    obtain ⟨c, inside, here⟩ := exists_of_forall₂ located (List.mem_range.mpr below)
    have written := List.mem_map_of_mem
      (f := fun c => downloadChunkWithFailover (env.fetch c) c u.cfg.chunkSize) (perm.mem_iff.mpr inside)
    rw [fetched] at written
    obtain ⟨w, member, done⟩ := List.mem_map.mp written
    have same := write_of_located sized few collisionFree pieces replies below here done.symm
    exact same ▸ member

end

theorem downloaded_is_uploaded {u : Upload} (sized : u.Sized) (few : u.count < 2 ^ 31)
    {S : Set (List UInt8)} (collisionFree : Set.InjOn Sha256.sum256 S)
    (ids : ∀ i, i < u.count → bytes (u.fileID ++ i.repr) ∈ S)
    (pieces : ∀ i, i < u.count → u.piece i ∈ S) {m : FSM} {s later : UploadState}
    (uploaded : UploadRun u (.start m) s) (succeeded : s.phase = .succeeded)
    (goesOn : UploadRun u s later) (only : u.OnlyComplete s.fsm) {env : DownloadEnv}
    (answers : env.metadata.Answers s.fsm later.fsm)
    (replies : ∀ c k data, (env.fetch c k).reply = .ok data → data ∈ S) {outputPath : String}
    {before : Option (List UInt8)}
    (returned : (download env u.fileName outputPath before).err = none) :
    (download env u.fileName outputPath before).file = some u.content := by
  have distinct : u.Distinct := fun i j first second same =>
    computeChunkID_injective collisionFree (ids i first) (ids j second) same
  have recorded := (Upload.run_sound sized distinct uploaded).recorded (.inr succeeded)
  have still := (Upload.run_sound sized distinct (uploaded.trans goesOn)).recorded
    (.inr (Upload.run_succeeded succeeded goesOn))
  obtain ⟨info, chunks, finished, writes, found, perm, fetched, file⟩ := download_ok returned
  obtain ⟨fileSize, chunkSize, located⟩ := Upload.Recorded.getFileByName answers recorded still only found
  rw [file, fileSize]
  rw [chunkSize] at fetched
  have mem_iff := mem_writes sized few collisionFree pieces replies located perm fetched
  have total : u.totalSize.toInt.toNat = u.content.length := by
    have bound := sized.bound
    rw [Upload.totalSize, Int64.toInt_ofNat_of_lt (by omega), Int.toNat_natCast]
  -- the pieces lie in the file, and every byte of it lies in one of them
  refine congrArg some (foldl_writeAt writes ?_ ?_ ?_)
  · intro w member
    obtain ⟨i, below, rfl⟩ := (mem_iff w).mp member
    have inside := (numChunks_eq sized.valid.chunkSize sized.nonempty sized.bound).2 i below
    exact ⟨u.piece_bound inside, fun k => u.getElem?_piece⟩
  · rw [List.length_replicate, total]
  · intro k inside
    obtain ⟨i, below, low, high⟩ := Upload.mem_piece sized inside
    exact .inr ⟨_, (mem_iff _).mpr ⟨i, below, rfl⟩, low, high⟩

def letter : Upload := ⟨⟨65536, 4096, 1⟩, "a.txt", [65], "file-1", by decide⟩

theorem letter_sized : letter.Sized where
  valid := ⟨⟨by decide, by decide⟩, by decide⟩
  nonempty := by decide
  bound := by decide

theorem letter_count : letter.count = 1 := by
  obtain ⟨enough, needed⟩ :=
    numChunks_eq letter_sized.valid.chunkSize letter_sized.nonempty letter_sized.bound
  have size : letter.cfg.chunkSize.toInt.toNat = 65536 := by decide
  have length : letter.content.length = 1 := rfl
  have one := needed 1
  rw [size, length] at enough one
  change 1 ≤ letter.count * 65536 at enough
  change 1 < letter.count → _ at one
  omega

theorem letter_index {i : Nat} (below : i < letter.count) : i = 0 := by
  rw [letter_count] at below
  omega

def registered : FSM :=
  (newEmptyMetadataFsm.handle (fun _ => default) (.registerNode ⟨"n1", "10.0.0.1:9000", 100000, 0, 1⟩)).1

def mostFree : Placement.PlacementStrategy := Placement.mostFreeSpaceStrategy (insertionSorter _)

def letterPlacement : Server.ChunkPlacement := ⟨letter.chunkID 0, ⟨"n1", "10.0.0.1:9000", 100000⟩, []⟩

def letterCommand : CommandCreateFile :=
  { fileID := "file-1", fileName := "a.txt", chunkIDs := [letter.chunkID 0], fileSize := 1
    chunkSize := 65536, createdAt := 2 }

theorem letter_request : letter.request = ⟨"file-1", "a.txt", 1, 65536, [letter.chunkID 0]⟩ := by
  have ids : letter.chunkIDs = [letter.chunkID 0] := by
    rw [letter.chunkIDs_eq, letter_count]
    rfl
  rw [Upload.request, ids]
  rfl

theorem letter_accepted : Server.createFile ⟨true, "n"⟩ registered default mostFree 1 "" 2 letter.request =
    .ok (letterCommand, ⟨"file-1", [letterPlacement]⟩) := by
  have nodes : registered.getLiveNodes default =
      [⟨"n1", "10.0.0.1:9000", .alive, 100000, 0, 1, 1, 1⟩] := by decide +kernel
  have absent : registered.getFile "file-1" = .error errFileNotFound := rfl
  have selected : mostFree.selectNodes [⟨"n1", "10.0.0.1:9000", .alive, 100000, 0, 1, 1, 1⟩] (letter.chunkID 0) 65536
      1 [] = ([⟨"n1", "10.0.0.1:9000", .alive, 100000, 0, 1, 1, 1⟩], none) := rfl
  rw [letter_request]
  simp [Server.createFile, absent, nodes, Server.checkChunkSize, Server.placeChunks, selected]
  rfl

def created : UploadState :=
  ⟨(registered.handle (fun _ => default) (.createFile letterCommand)).1, .sending, [letterPlacement],
    fun _ => .pending 0, [], []⟩

def letterServer : StorageServer :=
  ⟨"n1", ⟨bytes "data", bytes "data/tmp", 1, 4294967296, by decide⟩, false, true⟩

def quiet : PutEnv := ⟨none, fun _ => none, fun _ => none, none, fun _ disk => disk, []⟩

def letterFrame : PutChunkRequest :=
  ⟨letter.chunkID 0, "file-1", [], [65], Sha256.sum256 [65], true⟩

def letterCommit : CommandCommitChunk := ⟨letter.chunkID 0, ["n1"], Sha256.sum256 [65]⟩

theorem letter_stored : ∃ after, letterServer.putChunk quiet ([letterFrame].take 1) .eof emptyDisk =
    (.ok (some letterCommit), after) := by
  have committed : (letterServer.putChunk quiet ([letterFrame].take 1) .eof emptyDisk).1 =
      .ok (some letterCommit) := by decide +kernel
  generalize letterServer.putChunk quiet ([letterFrame].take 1) .eof emptyDisk = outcome at committed
  obtain ⟨_, after⟩ := outcome
  cases committed
  exact ⟨after, rfl⟩

def sent : UploadState := { created with requests := [letterCommit] }

def confirmed : UploadState := { sent with
  fsm := (created.fsm.handle (fun _ => default) (.commitChunk letterCommit)).1
  answered := [letter.chunkID 0] }

def arrived : UploadState := { confirmed with progress := Function.update created.progress 0 .done }

def uploaded : UploadState := { arrived with
  fsm := (arrived.fsm.handle (fun _ => default)
    (.commitFile ⟨letter.fileID, letter.totalSize.toUInt64, []⟩)).1
  phase := .succeeded }

theorem letter_frames :
    letter.frames (descriptorAt "file-1" 1 65536 0) letterPlacement = .ok [letterFrame] := by
  have read : readAt letter.content 0 1 = .ok [65] := by decide +kernel
  have offset : (descriptorAt "file-1" 1 65536 0).offset = 0 := by decide +kernel
  have size : (descriptorAt "file-1" 1 65536 0).size = 1 := by decide +kernel
  rw [Upload.frames, offset, size, read]
  rfl

theorem letter_descriptors : letter.descriptors = [descriptorAt "file-1" 1 65536 0] := by
  have count := letter_count
  rw [Upload.count] at count
  rw [Upload.descriptors, generateDescriptors, count]
  rfl

theorem letter_creates : UploadStep letter (.start registered) created :=
  .createFile ⟨true, "n"⟩ registered default mostFree 1 "" 2 letterCommand _ (fun _ => default) rfl
    letter_accepted (by decide +kernel)

theorem letter_puts : UploadStep letter created sent := by
  have member : descriptorAt "file-1" 1 65536 0 ∈ letter.descriptors := by
    rw [letter_descriptors]
    exact List.mem_singleton_self _
  obtain ⟨after, served⟩ := letter_stored
  exact .putChunk _ letterPlacement _ letterServer quiet 1 .eof emptyDisk after _ (by decide) member
    ⟨List.mem_singleton_self _, rfl⟩ letter_frames (fun _ => le_rfl) served

theorem letterCommit_accepted : (sent.fsm.handle (fun _ => default) (.commitChunk letterCommit)).2 = none := by
  decide +kernel

theorem letter_commits : UploadStep letter sent confirmed := by
  have step := UploadStep.commitChunk (u := letter) (s := sent) letterCommit (fun _ => default)
    (List.mem_singleton_self _)
  rw [if_pos letterCommit_accepted] at step
  exact step

theorem letter_arrives : UploadStep letter confirmed arrived := by
  refine .attemptOk 0 0 (descriptorAt "file-1" 1 65536 0) ?_ rfl (List.mem_singleton_self _)
  rw [letter_descriptors]
  rfl

theorem letter_run : UploadRun letter (.start registered) uploaded := by
  have finish : UploadStep letter arrived uploaded := by
    refine .commitFile (fun _ => default) rfl ?_ (by decide +kernel)
    intro i below
    cases letter_index below
    exact Function.update_self 0 _ created.progress
  exact .tail (.tail (.tail (.tail (.single letter_creates) letter_puts) letter_commits) letter_arrives) finish

def answering (raft : Server.RaftView) (m : FSM) (order : MapOrder) : MetadataClient where
  listFiles := (Server.listFiles raft m order).mapError fun err => .new err.message
  getFile id := (Server.getFile raft m id).mapError fun err => .new err.message

theorem answering_answers (raft : Server.RaftView) (m : FSM) (order : MapOrder) :
    (answering raft m order).Answers m m where
  listFiles _ answered := ⟨raft, order, ok_of_mapError answered⟩
  getFile _ _ answered := ⟨raft, ok_of_mapError answered⟩

def letterEnv : DownloadEnv where
  metadata := answering ⟨true, "n"⟩ uploaded.fsm default
  create := none
  truncate := none
  fetch _ _ := ⟨none, .ok [65], none⟩
  completion := ⟨id, fun _ => .refl _⟩

theorem downloaded_is_uploaded_letter :
    UploadRun letter (.start registered) uploaded ∧
      (download letterEnv letter.fileName "out" none).file = some [65] := by
  have only : letter.OnlyComplete uploaded.fsm := by
    intro id file found _ _
    have keys : uploaded.fsm.fileIndex.keys = {letter.fileID} := by decide +kernel
    generalize uploaded.fsm.fileIndex = files at found keys
    have member := Finmap.mem_keys.mpr (Finmap.mem_of_lookup_eq_some found)
    rw [keys] at member
    exact Finset.mem_singleton.mp member
  have apart : Sha256.sum256 (bytes (letter.fileID ++ "0")) ≠ Sha256.sum256 [65] := by decide +kernel
  have collisionFree : Set.InjOn Sha256.sum256 {bytes (letter.fileID ++ "0"), [65]} := by
    intro first known second also same
    rcases known with rfl | rfl <;> rcases also with rfl | rfl
    · rfl
    · exact absurd same apart
    · exact absurd same.symm apart
    · rfl
  refine ⟨letter_run, downloaded_is_uploaded letter_sized ?_ collisionFree ?_ ?_ letter_run rfl .refl only
    (answering_answers ..) ?_ (by decide +kernel)⟩
  · rw [letter_count]
    decide
  · intro i below
    cases letter_index below
    exact .inl rfl
  · intro i below
    cases letter_index below
    exact .inr rfl
  · intro c k data sent
    cases sent
    exact .inr rfl

end DistributedFs.Client
