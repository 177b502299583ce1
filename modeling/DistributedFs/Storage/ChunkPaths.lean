import DistributedFs.Storage.DiskStore

namespace DistributedFs.Storage

open Go DiskStore

/-- `cid[low:high]`, or nothing where Go panics. -/
def sliceExpr (cid : GoString) (low high : UInt16) : Option GoString :=
  if low ≤ high ∧ high.toNat ≤ cid.length then some ((cid.drop low.toNat).take (high.toNat - low.toNat))
  else none

def shardLoop (cid : GoString) : List Nat → GoString → Option GoString
  | [], pathBuilder => some pathBuilder
  | i :: rest, pathBuilder =>
    match sliceExpr cid (UInt16.ofNat i * 2) (UInt16.ofNat i * 2 + 2) with
    | none => none
    | some shard => shardLoop cid rest (pathBuilder ++ shard ++ [slash])

def shards (chunkId : GoString) (level : Nat) : List GoString :=
  (List.range level).map fun i => (chunkId.drop (2 * i)).take 2

def Below (dir : GoString) (parts : List GoString) (p : Path) : Prop :=
  (∀ part ∈ parts, Path.Plain part) ∧
    p = ⟨(Path.join [dir]).rooted, (Path.join [dir]).parts ++ parts⟩

theorem sliceExpr_shard {cid : GoString} {level i : Nat} (noWrap : 2 * level < 2 ^ 16)
    (long : 2 * level ≤ cid.length) (inside : i < level) :
    sliceExpr cid (UInt16.ofNat i * 2) (UInt16.ofNat i * 2 + 2) = some ((cid.drop (2 * i)).take 2) := by
  have index : (UInt16.ofNat i).toNat = i := by
    apply UInt16.toNat_ofNat_of_lt'
    show i < 65536
    omega
  have low : (UInt16.ofNat i * 2).toNat = 2 * i := by
    rw [UInt16.toNat_mul, index]
    show i * 2 % 2 ^ 16 = 2 * i
    omega
  have high : (UInt16.ofNat i * 2 + 2).toNat = 2 * i + 2 := by
    rw [UInt16.toNat_add, low]
    show (2 * i + 2) % 2 ^ 16 = 2 * i + 2
    omega
  rw [sliceExpr, if_pos, low, high, Nat.add_sub_cancel_left]
  rw [UInt16.le_iff_toNat_le, low, high]
  omega

theorem shardLoop_eq {cid : GoString} {level : Nat} (noWrap : 2 * level < 2 ^ 16)
    (long : 2 * level ≤ cid.length) {indices : List Nat} (inside : ∀ i ∈ indices, i < level)
    (pathBuilder : GoString) :
    shardLoop cid indices pathBuilder =
      some (pathBuilder ++ indices.flatMap fun i => (cid.drop (2 * i)).take 2 ++ [slash]) := by
  induction indices generalizing pathBuilder with
  | nil => simp [shardLoop]
  | cons i rest ih =>
    rw [shardLoop, sliceExpr_shard noWrap long (inside i List.mem_cons_self)]
    simp only
    rw [ih fun other member => inside other (List.mem_cons_of_mem _ member)]
    simp

section

variable {ds : DiskStore} {chunkId : GoString} (valid : ds.validateChunkId chunkId = .ok ())
include valid

theorem validateChunkId_long : 2 * ds.splitLevel ≤ chunkId.length := by
  unfold validateChunkId at valid
  split at valid
  · cases valid
  · split at valid
    · cases valid
    · omega

theorem validateChunkId_noDotDot : ¬ [dot, dot] <:+: chunkId := by
  intro inside
  simp only [validateChunkId, inside, or_true, if_true] at valid
  split at valid
  · cases valid
  · split at valid <;> cases valid

theorem shard_length {shard : GoString} (member : shard ∈ shards chunkId ds.splitLevel) : shard.length = 2 := by
  obtain ⟨i, below, rfl⟩ := List.mem_map.mp member
  have inside := List.mem_range.mp below
  have long := validateChunkId_long valid
  rw [List.length_take, List.length_drop]
  omega

theorem shard_plain {shard : GoString} (member : shard ∈ shards chunkId ds.splitLevel) : Path.Plain shard := by
  have length := shard_length valid member
  obtain ⟨i, _, rfl⟩ := List.mem_map.mp member
  have part : (chunkId.drop (2 * i)).take 2 <:+: chunkId :=
    (List.take_prefix _ _).isInfix.trans (List.drop_suffix _ _).isInfix
  refine ⟨fun here => validateChunkId_noSlash valid (part.subset here), ?_, ?_, ?_⟩
  · intro same
    rw [same] at length
    cases length
  · intro same
    rw [same] at length
    cases length
  · intro same
    rw [same] at part
    exact validateChunkId_noDotDot valid part

theorem getDirForChunkId_eq :
    getDirForChunkId chunkId ds.splitLevel =
      .ok ((shards chunkId ds.splitLevel).flatMap fun shard => shard ++ [slash]) := by
  obtain ⟨dir, found, _⟩ := pathForChunk_of_valid valid
  rw [found]
  unfold getDirForChunkId at found
  split at found
  · cases found
  · split at found
    · cases found
    · cases found
      rw [shards, List.flatMap_map]

theorem shardLoop_total :
    shardLoop chunkId (List.range (UInt16.ofNat ds.splitLevel).toNat) [] =
      some ((shards chunkId ds.splitLevel).flatMap fun shard => shard ++ [slash]) := by
  have noWrap := ds.noWrap
  have level : (UInt16.ofNat ds.splitLevel).toNat = ds.splitLevel := by
    apply UInt16.toNat_ofNat_of_lt'
    show ds.splitLevel < 65536
    omega
  rw [level, shardLoop_eq noWrap (validateChunkId_long valid) fun i member => List.mem_range.mp member, shards,
    List.flatMap_map]
  rfl

theorem pathForChunk_below :
    ∃ p, ds.pathForChunk chunkId = .ok p ∧
      Below ds.rootDir (shards chunkId ds.splitLevel ++ [chunkId ++ bytes ".chunk"]) p := by
  have file : Path.Plain (chunkId ++ bytes ".chunk") := plain_fileName valid (by decide) (by decide)
  have plain : ∀ shard ∈ shards chunkId ds.splitLevel, Path.Plain shard := fun _ member => shard_plain valid member
  have found : ds.pathForChunk chunkId = .ok (Path.join [ds.rootDir,
      (shards chunkId ds.splitLevel).flatMap fun shard => shard ++ [slash], chunkId ++ bytes ".chunk"]) := by
    simp only [pathForChunk, valid, getDirForChunkId_eq valid]
    rfl
  refine ⟨_, found, ?_, Path.join_dirs ds.rootDir plain file⟩
  intro part member
  rcases List.mem_append.mp member with member | member
  · exact plain part member
  · cases List.mem_singleton.mp member
    exact file

theorem tempPath_below :
    ∃ q, ds.tempPath chunkId = .ok q ∧ Below ds.tempDir [chunkId ++ bytes "..tmp"] q := by
  have file : Path.Plain (chunkId ++ bytes "..tmp") := plain_fileName valid (by decide) (by decide)
  have found : ds.tempPath chunkId = .ok (Path.join [ds.tempDir, chunkId ++ bytes "..tmp"]) := by
    simp only [tempPath, valid]
    rfl
  refine ⟨_, found, ?_, Path.join_file [ds.tempDir] file⟩
  intro part member
  cases List.mem_singleton.mp member
  exact file

end

theorem Below.cleaned {dir : GoString} {parts : List GoString} {p : Path} (below : Below dir parts p) :
    Path.Cleaned p.parts := by
  rw [below.2]
  exact (Path.join_cleaned [dir]).append (.of_plain below.1)

theorem tempPath_valid {ds : DiskStore} {chunkId : GoString} {q : Path} (found : ds.tempPath chunkId = .ok q) :
    ds.validateChunkId chunkId = .ok () := by
  obtain ⟨_, valid, _⟩ := bind_eq_ok found
  exact valid

theorem pathForChunk_cleaned {ds : DiskStore} {chunkId : GoString} {p : Path}
    (found : ds.pathForChunk chunkId = .ok p) : Path.Cleaned p.parts := by
  obtain ⟨_, same, below⟩ := pathForChunk_below (pathForChunk_valid found)
  cases found.symm.trans same
  exact below.cleaned

theorem tempPath_cleaned {ds : DiskStore} {chunkId : GoString} {q : Path}
    (found : ds.tempPath chunkId = .ok q) : Path.Cleaned q.parts := by
  obtain ⟨_, same, below⟩ := tempPath_below (tempPath_valid found)
  cases found.symm.trans same
  exact below.cleaned

def shardDirectory (ds : DiskStore) (chunkId : GoString) (depth : Nat) : Path :=
  ⟨(Path.join [ds.rootDir]).rooted,
    (Path.join [ds.rootDir]).parts ++ (shards chunkId ds.splitLevel).take depth⟩

theorem pathForChunk_ne_shardDirectory {ds : DiskStore} {first second : GoString} {p : Path}
    (chunk : ds.pathForChunk first = .ok p) (valid : ds.validateChunkId second = .ok ()) (depth : Nat) :
    p.text ≠ (shardDirectory ds second depth).text := by
  obtain ⟨_, same, below⟩ := pathForChunk_below (pathForChunk_valid chunk)
  cases chunk.symm.trans same
  have dirs : Path.Cleaned ((shards second ds.splitLevel).take depth) :=
    .of_plain fun part member => shard_plain valid (List.mem_of_mem_take member)
  intro equal
  have equal := Path.text_injective below.cleaned ((Path.join_cleaned [ds.rootDir]).append dirs) equal
  -- the chunk lies deeper than any of the directories
  have deeper := congrArg (fun path : Path => path.parts.length) equal
  simp only [below.2, shardDirectory, List.length_append, List.length_take, shards, List.length_map, List.length_range,
    List.length_singleton] at deeper
  omega

structure Placed (ds : DiskStore) (chunkId : GoString) (p q : Path) : Prop where
  chunk : Below ds.rootDir (shards chunkId ds.splitLevel ++ [chunkId ++ bytes ".chunk"]) p
  levels : (shards chunkId ds.splitLevel).length = ds.splitLevel
  twoBytes : ∀ shard ∈ shards chunkId ds.splitLevel, shard.length = 2
  temp : Below ds.tempDir [chunkId ++ bytes "..tmp"] q
  inRange : ∃ dir, getDirForChunkId chunkId ds.splitLevel = .ok dir ∧
    shardLoop chunkId (List.range (UInt16.ofNat ds.splitLevel).toNat) [] = some dir

theorem placed_of_valid {ds : DiskStore} {chunkId : GoString} (valid : ds.validateChunkId chunkId = .ok ()) :
    ∃ p q, ds.pathForChunk chunkId = .ok p ∧ ds.tempPath chunkId = .ok q ∧ Placed ds chunkId p q := by
  obtain ⟨p, path, chunk⟩ := pathForChunk_below valid
  obtain ⟨q, temp, inside⟩ := tempPath_below valid
  refine ⟨p, q, path, temp, chunk, ?_, fun _ member => shard_length valid member, inside, ?_⟩
  · rw [shards, List.length_map, List.length_range]
  · exact ⟨_, getDirForChunkId_eq valid, shardLoop_total valid⟩

/-- The paths of a store are confined to its directories, and no two of its chunks share one. -/
theorem chunk_paths_confined (ds : DiskStore) :
    (∀ chunkId, (ds.pathForChunk chunkId = .error errInvalidChunkId ∧
        ds.tempPath chunkId = .error errInvalidChunkId) ∨
      ∃ p q, ds.pathForChunk chunkId = .ok p ∧ ds.tempPath chunkId = .ok q ∧ Placed ds chunkId p q) ∧
    (∀ first second p p' q q', ds.pathForChunk first = .ok p → ds.pathForChunk second = .ok p' →
      ds.tempPath first = .ok q → ds.tempPath second = .ok q' → first ≠ second →
      p.text ≠ p'.text ∧ q.text ≠ q'.text) ∧
    (∀ first second p q, ds.pathForChunk first = .ok p → ds.tempPath second = .ok q →
      p.text ≠ q.text ∧ ∀ depth, p.text ≠ (shardDirectory ds second depth).text) := by
  refine ⟨?_, ?_, ?_⟩
  · intro chunkId
    rcases ds.validateChunkId_cases chunkId with valid | invalid
    · exact .inr (placed_of_valid valid)
    · refine .inl ⟨?_, ?_⟩
      · simp only [pathForChunk, invalid]
        rfl
      · simp only [tempPath, invalid]
        rfl
  · intro first second p p' q q' path path' temp temp' different
    constructor
    · intro same
      cases Path.text_injective (pathForChunk_cleaned path) (pathForChunk_cleaned path') same
      exact different (pathForChunk_injective path path')
    · intro same
      cases Path.text_injective (tempPath_cleaned temp) (tempPath_cleaned temp') same
      exact different (tempPath_injective temp temp')
  · intro first second p q path temp
    constructor
    · intro same
      have equal := Path.text_injective (pathForChunk_cleaned path) (tempPath_cleaned temp) same
      exact pathForChunk_ne_tempPath path temp equal
    · exact pathForChunk_ne_shardDirectory path (tempPath_valid temp)

/-- A dot at the end of a shard directory and one at the start of the next are kept apart. -/
example : (DiskStore.pathForChunk ⟨bytes "/data/../store", bytes "", 2, 0, by decide⟩ (bytes "a.b.")).toOption =
    some ⟨true, [bytes "store", bytes "a.", bytes "b.", bytes "a.b..chunk"]⟩ := by decide

end DistributedFs.Storage
