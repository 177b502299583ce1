import DistributedFs.Client.RoundTrip
import DistributedFs.Storage.Replication
import DistributedFs.Storage.GetChunk

namespace DistributedFs.Client

open Go Fsm MetadataFSM Storage

/-- What a call of `GRPCClient.GetChunk` meets: a failed dial or open, what the node meets, and a
    stream that breaks. -/
structure ChunkCall where
  dial : Option GoError
  openStream : Option GoError
  serving : GetEnv
  broken : Option GoError

def ChunkCall.quiet : ChunkCall := ⟨none, none, StorageServer.reliable, none⟩

/-- `GRPCClient.GetChunk`: the data of the frames joined, whatever their own checksums are. -/
def grpcGetChunk (call : ChunkCall) (server : StorageServer) (chunkID : String) (disk : Disk) :
    Except GoError (List UInt8) :=
  match call.dial, call.openStream with
  | some err, _ => .error err
  | none, some err => .error (wrap "storageclient: GetChunk stream open failed" err)
  | none, none =>
    match server.getChunk call.serving chunkID disk, call.broken with
    | _, some err => .error (wrap "storageclient: GetChunk recv failed" err)
    | (_, some err), none => .error (wrap "storageclient: GetChunk recv failed" (.new err.text))
    | (frames, none), none => .ok (frames.flatMap Frame.data)

def available (attempts : Nat → Attempt) (chunk : ChunkInfo) : Bool :=
  (List.range chunk.replicas.length).any fun k =>
    match (attempts k).reply with
    | .ok data => decide (Sha256.sum256 data = chunk.checksum)
    | .error _ => false

theorem available_iff {attempts : Nat → Attempt} {chunk : ChunkInfo} :
    available attempts chunk = true ↔ ∃ k, k < chunk.replicas.length ∧ ∃ data,
      (attempts k).reply = .ok data ∧ Sha256.sum256 data = chunk.checksum := by
  simp only [available, List.any_eq_true, List.mem_range]
  constructor
  · rintro ⟨k, below, passes⟩
    refine ⟨k, below, ?_⟩
    cases reply : (attempts k).reply with
    | error err =>
      rw [reply] at passes
      cases passes
    | ok data =>
      rw [reply] at passes
      exact ⟨data, rfl, of_decide_eq_true passes⟩
  · rintro ⟨k, below, data, reply, matched⟩
    refine ⟨k, below, ?_⟩
    rw [reply]
    exact decide_eq_true matched

def Undisturbed (attempts : Nat → Attempt) : Prop :=
  ∀ k, (attempts k).ctxErr = none ∧ (attempts k).writeErr = none

section

variable {attempts : Nat → Attempt} {chunk : ChunkInfo} {chunkSize : Int64}

theorem writeChunk_undisturbed {attempt : Attempt} (forward : ¬chunk.chunkIndex * chunkSize < 0)
    (written : attempt.writeErr = none) (data : List UInt8) :
    writeChunk attempt chunk chunkSize data = .ok ((chunk.chunkIndex * chunkSize).toInt.toNat, data) := by
  simp only [writeChunk, forward, if_false, written]

theorem tryReplicas_undisturbed (undisturbed : Undisturbed attempts) (checked : chunk.checksum ≠ [])
    (forward : ¬chunk.chunkIndex * chunkSize < 0) (replicas : List String) :
    ∀ (k : Nat) (lastErr : GoError), (∃ w, tryReplicas attempts chunk chunkSize k lastErr replicas = .ok w) ↔
      ∃ j, j < replicas.length ∧ ∃ data, (attempts (k + j)).reply = .ok data ∧
        Sha256.sum256 data = chunk.checksum := by
  induction replicas with
  | nil =>
    intro k lastErr
    constructor
    · rintro ⟨w, impossible⟩
      cases impossible
    · rintro ⟨j, below, _⟩
      exact absurd below (Nat.not_lt_zero j)
  | cons addr rest ih =>
    intro k lastErr
    obtain ⟨live, written⟩ := undisturbed k
    -- a turn that moves on leaves the question to the later ones
    have moves (useless : ¬∃ data, (attempts k).reply = .ok data ∧ Sha256.sum256 data = chunk.checksum) :
        (∃ j, j < rest.length ∧ ∃ data, (attempts (k + 1 + j)).reply = .ok data ∧
          Sha256.sum256 data = chunk.checksum) ↔
        ∃ j, j < (addr :: rest).length ∧ ∃ data, (attempts (k + j)).reply = .ok data ∧
          Sha256.sum256 data = chunk.checksum := by
      constructor
      · rintro ⟨j, below, passes⟩
        refine ⟨j + 1, by simpa using below, ?_⟩
        rw [show k + (j + 1) = k + 1 + j by omega]
        exact passes
      · rintro ⟨j, below, passes⟩
        cases j with
        | zero => exact absurd passes useless
        | succ j =>
          refine ⟨j, by simpa using below, ?_⟩
          rw [show k + 1 + j = k + (j + 1) by omega]
          exact passes
    simp only [tryReplicas, live]
    cases reply : (attempts k).reply with
    | error err =>
      rw [ih, moves]
      rintro ⟨data, ok, _⟩
      rw [reply] at ok
      cases ok
    | ok data =>
      by_cases matched : Sha256.sum256 data = chunk.checksum
      · have passed : ¬(chunk.checksum ≠ [] ∧ Sha256.sum256 data ≠ chunk.checksum) := fun both => both.2 matched
        simp only [passed, if_false, writeChunk_undisturbed forward written]
        exact ⟨fun _ => ⟨0, by simp, data, reply, matched⟩, fun _ => ⟨_, rfl⟩⟩
      · have refused : chunk.checksum ≠ [] ∧ Sha256.sum256 data ≠ chunk.checksum := ⟨checked, matched⟩
        simp only [refused, ne_eq, not_false_eq_true, and_self, if_true]
        rw [ih, moves]
        rintro ⟨other, ok, fits⟩
        rw [reply] at ok
        cases ok
        exact matched fits

theorem downloadChunk_undisturbed (undisturbed : Undisturbed attempts) (checked : chunk.checksum ≠ [])
    (forward : ¬chunk.chunkIndex * chunkSize < 0) :
    (∃ w, downloadChunkWithFailover attempts chunk chunkSize = .ok w) ↔ available attempts chunk = true := by
  rw [available_iff]
  unfold downloadChunkWithFailover
  cases replicas : chunk.replicas with
  | nil => simp
  | cons addr rest => simpa using tryReplicas_undisturbed undisturbed checked forward (addr :: rest) 0 (.new "")

end

theorem foldl_finish_failed (results : List (Except GoError Write)) (s : Assembly) :
    (results.foldl Assembly.finish s).failed =
      s.failed + results.countP fun result => result.toOption.isNone := by
  induction results generalizing s with
  | nil => rfl
  | cons result rest ih =>
    rw [List.foldl_cons, ih]
    cases result with
    | ok w => simp [Assembly.finish, Except.toOption]
    | error err =>
      simp only [Assembly.finish, Except.toOption, Option.isNone_none, List.countP_cons_of_pos]
      omega

namespace Upload

variable {u : Upload}

theorem Located.forward (sized : u.Sized) (few : u.count < 2 ^ 31) {i : Nat} (below : i < u.count)
    {c : ChunkInfo} (located : u.Located i c) : ¬c.chunkIndex * u.cfg.chunkSize < 0 := by
  have inside := (numChunks_eq sized.valid.chunkSize sized.nonempty sized.bound).2 i below
  have index : c.chunkIndex = Int64.ofNat i := by
    rw [located.chunkIndex, ← Int64.toInt_inj, Int32.toInt_toInt64, Int32.toInt_ofNat_of_lt (by omega),
      Int64.toInt_ofNat_of_lt (by omega)]
  have offset : (c.chunkIndex * u.cfg.chunkSize).toInt = i * u.cfg.chunkSize.toInt.toNat := by
    rw [index]
    exact offset_descriptorAt sized.valid.chunkSize u.fileID sized.bound inside
  rw [Int64.lt_iff_toInt_lt, offset]
  have zero : (0 : Int64).toInt = 0 := rfl
  omega

theorem Located.available_iff (sized : u.Sized) (few : u.count < 2 ^ 31) {i : Nat} (below : i < u.count)
    {c : ChunkInfo} (located : u.Located i c) {attempts : Nat → Attempt} (undisturbed : Undisturbed attempts) :
    (downloadChunkWithFailover attempts c u.cfg.chunkSize).toOption.isNone = !available attempts c := by
  have checked : c.checksum ≠ [] := by
    rw [located.checksum]
    exact sum256_ne_nil _
  have outcome := downloadChunk_undisturbed undisturbed checked (located.forward sized few below)
  cases done : downloadChunkWithFailover attempts c u.cfg.chunkSize with
  | error err =>
    have missing : available attempts c = false := by
      rw [← Bool.not_eq_true, ← outcome]
      rintro ⟨w, same⟩
      rw [done] at same
      cases same
    rw [missing]
    rfl
  | ok w =>
    rw [outcome.mp ⟨w, done⟩]
    rfl

theorem totalSize_toNat (sized : u.Sized) : u.totalSize.toInt = u.content.length := by
  have bound := sized.bound
  rw [totalSize, Int64.toInt_ofNat_of_lt (by omega)]

theorem count_pos (sized : u.Sized) : 0 < u.count := by
  obtain ⟨i, below, _⟩ := mem_piece sized sized.nonempty
  omega

end Upload

section

variable {u : Upload} (sized : u.Sized) (few : u.count < 2 ^ 31) {env : DownloadEnv} {info : FileInfo}
  {chunks : List ChunkInfo} (chunkSize : info.chunkSize = u.cfg.chunkSize)
  (located : List.Forall₂ u.Located (List.range u.count) chunks)
  (undisturbed : ∀ c, Undisturbed (env.fetch c))
include sized few chunkSize located undisturbed

theorem fetchChunks_failed :
    (fetchChunks env info chunks).failed = chunks.countP fun c => !available (env.fetch c) c := by
  rw [fetchChunks, foldl_finish_failed, Nat.zero_add, List.countP_map]
  rw [((env.completion.perm _).trans (List.mergeSort_perm chunks _)).countP_eq]
  apply List.countP_congr
  intro c member
  obtain ⟨i, position, at_⟩ := exists_of_forall₂ located.flip member
  rw [Function.comp_apply, chunkSize,
    Upload.Located.available_iff sized few (List.mem_range.mp position) at_ (undisturbed c)]

theorem download_returned (fileSize : info.fileSize = u.totalSize) {fileName : String}
    (found : env.metadata.getFileByName fileName = .ok (info, chunks))
    (created : env.create = none) (truncated : env.truncate = none) (outputPath : String)
    (before : Option (List UInt8)) :
    download env fileName outputPath before =
      let lost := chunks.countP fun c => !available (env.fetch c) c
      let result : DownloadResult := ⟨info.fileID, info.fileName, info.fileSize, outputPath, none⟩
      let err := wrap ("download: " ++ lost.repr ++ "/" ++ chunks.length.repr ++ " chunks failed")
        ((fetchChunks env info chunks).firstErr.getD (.new "<nil>"))
      if 0 < lost then ⟨some { result with error := some err }, some err, none⟩
      else ⟨some result, none, some (fetchChunks env info chunks).out⟩ := by
  have forward : ¬info.fileSize < 0 := by
    rw [fileSize, Int64.lt_iff_toInt_lt, Upload.totalSize_toNat sized]
    have zero : (0 : Int64).toInt = 0 := rfl
    omega
  cases chunks with
  | nil =>
    have none := located.length_eq
    have some := Upload.count_pos sized
    rw [List.length_range, List.length_nil] at none
    omega
  | cons first rest =>
    simp only [download, prepareDownload, concludeDownload, found, created, forward, if_false, truncated,
      fetchChunks_failed sized few chunkSize located undisturbed]

end

def ServedBy (env : DownloadEnv) (calls : ChunkInfo → Nat → ChunkCall) (nodes : String → StorageServer)
    (disks : String → Disk) : Prop :=
  ∀ c k addr, c.replicas[k]? = some addr →
    (env.fetch c k).reply = grpcGetChunk (calls c k) (nodes addr) c.chunkID (disks addr)

def HasHolder (calls : ChunkInfo → Nat → ChunkCall) (nodes : String → StorageServer)
    (disks : String → Disk) (c : ChunkInfo) : Prop :=
  ∃ k addr content, c.replicas[k]? = some addr ∧ calls c k = .quiet ∧
    Holding (nodes addr).store c.chunkID content (disks addr) ∧ Sha256.sum256 content = c.checksum

theorem grpcGetChunk_holding {server : StorageServer} {chunkID : String} {content : List UInt8} {disk : Disk}
    (held : Holding server.store chunkID content disk) :
    grpcGetChunk .quiet server chunkID disk = .ok content := by
  obtain ⟨joined, ended⟩ := StorageServer.getChunk_stored held.reads
  have sent : server.getChunk StorageServer.reliable chunkID disk =
      ((server.getChunk StorageServer.reliable chunkID disk).1, none) := Prod.ext rfl ended
  simp only [grpcGetChunk, ChunkCall.quiet]
  rw [sent]
  exact congrArg Except.ok (joined _ _ sent)

theorem available_of_holder {env : DownloadEnv} {calls : ChunkInfo → Nat → ChunkCall}
    {nodes : String → StorageServer} {disks : String → Disk} (served : ServedBy env calls nodes disks)
    {c : ChunkInfo} (holder : HasHolder calls nodes disks c) : available (env.fetch c) c = true := by
  obtain ⟨k, addr, content, listed, quiet, held, matched⟩ := holder
  obtain ⟨below, _⟩ := List.getElem?_eq_some_iff.mp listed
  refine available_iff.mpr ⟨k, below, content, ?_, matched⟩
  rw [served c k addr listed, quiet]
  exact grpcGetChunk_holding held

/-- A download of an uploaded file that is not cancelled and can write its output succeeds exactly if every
    chunk has a replica, among those listed, whose reply fits the checksum, whatever the replicas before it
    send: then the output is the file. Otherwise it counts the chunks that have none and leaves no output.
    One reachable holder for each chunk is enough. -/
theorem download_iff_available {u : Upload} (sized : u.Sized) (few : u.count < 2 ^ 31)
    {S : Set (List UInt8)} (collisionFree : Set.InjOn Sha256.sum256 S)
    (ids : ∀ i, i < u.count → bytes (u.fileID ++ i.repr) ∈ S)
    (pieces : ∀ i, i < u.count → u.piece i ∈ S) {m : FSM} {s later : UploadState}
    (uploaded : UploadRun u (.start m) s) (succeeded : s.phase = .succeeded)
    (goesOn : UploadRun u s later) (only : u.OnlyComplete s.fsm) {env : DownloadEnv}
    (answers : env.metadata.Answers s.fsm later.fsm)
    (replies : ∀ c k data, (env.fetch c k).reply = .ok data → data ∈ S)
    {info : FileInfo} {chunks : List ChunkInfo}
    (found : env.metadata.getFileByName u.fileName = .ok (info, chunks)) (created : env.create = none)
    (truncated : env.truncate = none) (undisturbed : ∀ c, Undisturbed (env.fetch c)) (outputPath : String)
    (before : Option (List UInt8)) :
    let lost := chunks.countP fun c => !available (env.fetch c) c
    (lost = 0 → (download env u.fileName outputPath before).err = none ∧
      (download env u.fileName outputPath before).file = some u.content) ∧
    (0 < lost → (download env u.fileName outputPath before).file = none ∧
      ∃ cause, (download env u.fileName outputPath before).err =
        some (wrap ("download: " ++ lost.repr ++ "/" ++ u.count.repr ++ " chunks failed") cause)) ∧
    ∀ calls nodes disks, ServedBy env calls nodes disks → (∀ c ∈ chunks, HasHolder calls nodes disks c) →
      lost = 0 := by
  have distinct : u.Distinct := fun i j first second same =>
    computeChunkID_injective collisionFree (ids i first) (ids j second) same
  have recorded := (Upload.run_sound sized distinct uploaded).recorded (.inr succeeded)
  have still := (Upload.run_sound sized distinct (uploaded.trans goesOn)).recorded
    (.inr (Upload.run_succeeded succeeded goesOn))
  obtain ⟨fileSize, chunkSize, located⟩ := Upload.Recorded.getFileByName answers recorded still only found
  have returned := download_returned sized few chunkSize located undisturbed fileSize found created truncated
    outputPath before
  have total : chunks.length = u.count := by
    rw [← located.length_eq, List.length_range]
  intro lost
  refine ⟨?_, ?_, ?_⟩
  · intro none
    have ended : (download env u.fileName outputPath before).err = Option.none := by
      rw [returned]
      simp only [show ¬0 < chunks.countP fun c => !available (env.fetch c) c by omega, if_false]
    refine ⟨ended, ?_⟩
    obtain ⟨_, _, finished, writes, same, perm, fetched, file⟩ := download_ok ended
    cases found.symm.trans same
    rw [chunkSize] at fetched
    rw [file, fileSize]
    have mem_iff := mem_writes sized few collisionFree pieces replies located perm fetched
    refine congrArg some (foldl_writeAt writes ?_ ?_ ?_)
    · intro w member
      obtain ⟨i, below, rfl⟩ := (mem_iff w).mp member
      have inside := (numChunks_eq sized.valid.chunkSize sized.nonempty sized.bound).2 i below
      exact ⟨u.piece_bound inside, fun k => u.getElem?_piece⟩
    · rw [List.length_replicate, Upload.totalSize_toNat sized, Int.toNat_natCast]
    · intro k inside
      obtain ⟨i, below, low, high⟩ := Upload.mem_piece sized inside
      exact .inr ⟨_, (mem_iff _).mpr ⟨i, below, rfl⟩, low, high⟩
  · intro some
    rw [returned, ← total]
    simp only [show 0 < chunks.countP fun c => !available (env.fetch c) c from some, if_true]
    exact ⟨trivial, _, rfl⟩
  · intro calls nodes disks served holders
    refine List.countP_eq_zero.mpr ?_
    intro c member
    rw [available_of_holder served (holders c member)]
    exact Bool.false_ne_true

theorem letter_only : letter.OnlyComplete uploaded.fsm := by
  intro id file found _ _
  have keys : uploaded.fsm.fileIndex.keys = {letter.fileID} := by decide +kernel
  generalize uploaded.fsm.fileIndex = files at found keys
  have member := Finmap.mem_keys.mpr (Finmap.mem_of_lookup_eq_some found)
  rw [keys] at member
  exact Finset.mem_singleton.mp member

theorem letter_collisionFree : Set.InjOn Sha256.sum256 {bytes (letter.fileID ++ "0"), [65]} := by
  have apart : Sha256.sum256 (bytes (letter.fileID ++ "0")) ≠ Sha256.sum256 [65] := by decide +kernel
  intro first known second also same
  rcases known with rfl | rfl
  · rcases also with rfl | rfl
    · rfl
    · exact absurd same apart
  · rcases also with rfl | rfl
    · exact absurd same.symm apart
    · rfl

theorem download_iff_available_letter :
    (download letterEnv letter.fileName "out" none).file = some [65] := by
  have listed : ((letterEnv.metadata.getFileByName letter.fileName).toOption.map fun found =>
      found.2.map fun c => (c.checksum, c.replicas)) = some [(Sha256.sum256 [65], ["10.0.0.1:9000"])] := by
    decide +kernel
  cases found : letterEnv.metadata.getFileByName letter.fileName with
  | error err =>
    rw [found] at listed
    cases listed
  | ok answer =>
    obtain ⟨info, chunks⟩ := answer
    simp only [found, Except.toOption, Option.map_some, Option.some.injEq] at listed
    have here : ∀ c ∈ chunks, available (letterEnv.fetch c) c = true := by
      intro c member
      have described := List.mem_map_of_mem (f := fun c => (c.checksum, c.replicas)) member
      rw [listed] at described
      obtain ⟨checksum, replicas⟩ := Prod.mk.inj (List.mem_singleton.mp described)
      refine available_iff.mpr ⟨0, ?_, [65], rfl, checksum.symm⟩
      rw [replicas]
      decide
    have complete := download_iff_available letter_sized (by rw [letter_count]; decide) letter_collisionFree
      (fun i below => by cases letter_index below; exact .inl rfl)
      (fun i below => by cases letter_index below; exact .inr rfl) letter_run rfl .refl letter_only
      (answering_answers ..) (fun c k data sent => by cases sent; exact .inr rfl) found rfl rfl
      (fun _ _ => ⟨rfl, rfl⟩) "out" none
    refine (complete.1 (List.countP_eq_zero.mpr ?_)).2
    intro c member
    rw [here c member]
    exact Bool.false_ne_true

end DistributedFs.Client
