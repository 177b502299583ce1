import DistributedFs.Client.UploadProgress
import DistributedFs.Concurrency.Workers

namespace DistributedFs.Client.UploadProgress

open Go Concurrency Relation

def Phase.left : Phase → Nat
  | .uploading => 6
  | .adding => 5
  | .clamping _ => 4
  | .storing _ => 3
  | .loading _ => 2
  | .reported _ => 1
  | .finished _ => 0

def Phase.told : Phase → Option (Option GoError)
  | .reported err | .finished err => some err
  | _ => none

section

variable {u : Upload} {i : Nat} {bytesDone later : Int64} {x y : Phase} {told : List ProgressInfo}

theorem Act.exists_of_not_released (u : Upload) (i : Nat) (bytesDone : Int64) (busy : x.released = false) :
    ∃ later y told, Act u i bytesDone x later y told := by
  cases x with
  | uploading => exact ⟨_, _, _, .succeeded bytesDone⟩
  | adding => exact ⟨_, _, _, .add bytesDone⟩
  | clamping done => exact ⟨_, _, _, .clamp bytesDone done⟩
  | storing done => exact ⟨_, _, _, .store bytesDone done⟩
  | loading err => exact ⟨_, _, _, .load bytesDone err⟩
  | reported err => exact ⟨_, _, _, .release bytesDone err⟩
  | finished err => cases busy

theorem Act.not_released (acts : Act u i bytesDone x later y told) : x.released = false := by
  cases acts <;> rfl

theorem Act.left_lt (acts : Act u i bytesDone x later y told) : y.left < x.left := by
  cases acts <;> simp [Phase.left]

theorem Act.told_eq (acts : Act u i bytesDone x later y told) :
    (x.told = y.told ∧ told = []) ∨
      ∃ err, x.told = none ∧ y.told = some err ∧ told = [u.info i bytesDone err] := by
  cases acts with
  | load err => exact .inr ⟨err, rfl, rfl, rfl⟩
  | _ => exact .inl ⟨rfl, rfl⟩

end

def Upload.workers (u : Upload) : Workers Nat (Int64 × List ProgressInfo) Phase where
  items := List.range u.total
  limit := u.maxParallelUploads
  fresh _ := .uploading
  released := Phase.released
  act i s x t y := ∃ told, Act u i s.1 x t.1 y told ∧ t.2 = s.2 ++ told
  left := Phase.left
  size := 6
  busy _ := rfl
  fits _ := le_rfl
  live i s x busy := by
    obtain ⟨later, y, told, acts⟩ := Act.exists_of_not_released u i s.1 busy
    exact ⟨(later, s.2 ++ told), y, told, acts, rfl⟩
  ends i s x t y acts := by
    obtain ⟨told, acts, -⟩ := acts
    exact acts.not_released
  less i s x t y acts := by
    obtain ⟨told, acts, -⟩ := acts
    exact acts.left_lt

def State.pool (s : State) : Pool (Int64 × List ProgressInfo) Phase := ⟨(s.bytesDone, s.reports), s.chunks⟩

section

variable {u : Upload} {s t : State}

theorem Step.pool (step : Step u s t) : u.workers.Step s.pool t.pool := by
  cases step with
  | start more room =>
    have next : u.workers.items[s.chunks.length]? = some s.chunks.length := List.getElem?_range more
    exact .start (p := s.pool) next room
  | act before after reports acts => exact .act before after ⟨_, acts, rfl⟩

theorem Step.of_pool {p : Pool (Int64 × List ProgressInfo) Phase} (step : u.workers.Step s.pool p) :
    ∃ t, Step u s t := by
  generalize same : s.pool = q at step
  cases step with
  | start next room =>
    subst same
    have more : s.chunks.length < (List.range u.total).length := (List.getElem?_eq_some_iff.mp next).1
    rw [List.length_range] at more
    exact ⟨_, .start more room⟩
  | act before after acts =>
    obtain ⟨told, acts, -⟩ := acts
    obtain ⟨bytesDone, chunks, reports⟩ := s
    simp only [State.pool, Pool.mk.injEq] at same
    obtain ⟨rfl, rfl⟩ := same
    exact ⟨_, .act before after reports acts⟩

theorem Reachable.pool (reached : Reachable u s) : u.workers.Reachable (0, []) s.pool := by
  induction reached with
  | refl => exact .refl
  | tail _ step ih => exact ih.tail step.pool

def State.told (s : State) : List (Nat × Option GoError) :=
  s.chunks.zipIdx.filterMap fun (x, i) => x.told.map fun err => (i, err)

theorem State.told_split {before after : List Phase} {x : Phase} {bytesDone : Int64} {reports : List ProgressInfo} :
    State.told ⟨bytesDone, before ++ x :: after, reports⟩ =
      State.told ⟨bytesDone, before, reports⟩ ++ ((x.told.map fun err => (before.length, err)).toList ++
        (after.zipIdx (before.length + 1)).filterMap fun (x, i) => x.told.map fun err => (i, err)) := by
  simp only [State.told, List.zipIdx_append, List.zipIdx_cons, List.filterMap_append, List.filterMap_cons,
    Nat.zero_add]
  cases x.told with
  | none => rfl
  | some err => rfl

def Reported (u : Upload) (s : State) : Prop :=
  (∀ info ∈ s.reports, info.chunksTotal = u.total ∧ info.bytesTotal = u.totalBytes) ∧
    (s.reports.map fun info => (info.chunkIndex, info.err)).Perm s.told

theorem Reported.step (reported : Reported u s) (step : Step u s t) : Reported u t := by
  obtain ⟨totals, perm⟩ := reported
  cases step with
  | start more room =>
    refine ⟨totals, ?_⟩
    have same : State.told { s with chunks := s.chunks ++ [.uploading] } = s.told := by
      rw [State.told_split]
      simp [Phase.told, State.told]
    rwa [same]
  | act before after reports acts =>
    rw [State.told_split] at perm
    rcases acts.told_eq with ⟨same, rfl⟩ | ⟨err, untold, now, rfl⟩
    · rw [List.append_nil]
      refine ⟨totals, ?_⟩
      rw [State.told_split, ← same]
      exact perm
    · refine ⟨?_, ?_⟩
      · intro info member
        rcases List.mem_append.mp member with earlier | new
        · exact totals info earlier
        · cases List.mem_singleton.mp new
          exact ⟨rfl, rfl⟩
      · rw [State.told_split, now]
        rw [untold] at perm
        rw [List.map_append]
        exact Workers.perm_middle_concat perm _

theorem Reachable.reported (reached : Reachable u s) : Reported u s := by
  induction reached with
  | refl => exact ⟨by simp [start], .refl _⟩
  | tail _ step ih => exact ih.step step

theorem told_of_released {x : Phase} (left : x.released = true) : ∃ err, x = .finished err := by
  cases x with
  | finished err => exact ⟨err, rfl⟩
  | _ => cases left

theorem State.map_told (left : ∀ x ∈ s.chunks, x.released = true) :
    s.told.map Prod.fst = List.range s.chunks.length := by
  have each : s.told.map Prod.fst = s.chunks.zipIdx.map Prod.snd := by
    unfold State.told
    rw [List.map_filterMap, ← List.filterMap_eq_map]
    apply List.filterMap_congr
    intro item member
    obtain ⟨err, same⟩ := told_of_released (left item.1 (List.fst_mem_of_mem_zipIdx member))
    simp [same, Phase.told]
  rw [each, List.zipIdx_map_snd, List.range_eq_range']

end

/-- Every run of the loop of `Upload` ends, has at most `maxParallelUploads` chunks in hand, and has told
    the progress function of each chunk at most once, with the outcome of that chunk. It stops with every
    chunk reported unless the semaphore has no room at all, and then before the first chunk. -/
theorem upload_reports_each_chunk (u : Upload) :
    WellFounded (fun t s => Step u s t) ∧
    ∀ s, Reachable u s →
      s.chunks.countP (fun x => !x.released) ≤ u.maxParallelUploads ∧ Reported u s ∧
      ((∀ t, ¬Step u s t) →
        if 0 < u.maxParallelUploads then
          (∀ x ∈ s.chunks, ∃ err, x = .finished err) ∧
            (s.reports.map ProgressInfo.chunkIndex).Perm (List.range u.total)
        else s = start) := by
  constructor
  · exact Subrelation.wf (fun step => Step.pool step) (InvImage.wf State.pool (Workers.wellFounded u.workers))
  · intro s reached
    refine ⟨(Workers.Reachable.bounded reached.pool).2, reached.reported, fun stuck => ?_⟩
    have halted : ∀ p, ¬u.workers.Step s.pool p := by
      intro p step
      obtain ⟨t, next⟩ := Step.of_pool step
      exact stuck t next
    split
    · rename_i room
      obtain ⟨length, left⟩ := Workers.complete_of_stuck reached.pool room halted
      refine ⟨fun x member => told_of_released (left x member), ?_⟩
      have perm := reached.reported.2.map Prod.fst
      rw [List.map_map, State.map_told left] at perm
      have all : s.chunks.length = u.total := length.trans List.length_range
      rwa [all] at perm
    · rename_i none
      exact reached.eq_start (Nat.eq_zero_of_not_pos none)

end DistributedFs.Client.UploadProgress
