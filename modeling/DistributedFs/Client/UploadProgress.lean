import DistributedFs.Client.Descriptors
import DistributedFs.Concurrency.Prog
import Mathlib.Logic.Relation

namespace DistributedFs.Client.UploadProgress

open Go Relation

/-- A call of `Client.Upload` with a progress function, after the file was cut into chunks. -/
structure Upload where
  totalBytes : Int64
  chunkSize : Int64
  total : Nat
  maxParallelUploads : Nat
  sized : 0 ≤ totalBytes.toInt
  chunked : 0 < chunkSize.toInt
  nonempty : 0 < total

structure ProgressInfo where
  chunkIndex : Nat
  chunksTotal : Nat
  bytesDone : Int64
  bytesTotal : Int64
  err : Option GoError
deriving DecidableEq

inductive Phase where
  | uploading
  | adding
  | clamping (done : Int64)
  | storing (done : Int64)
  | loading (err : Option GoError)
  | reported (err : Option GoError)
  | finished (err : Option GoError)
deriving DecidableEq

def Phase.released : Phase → Bool
  | .finished _ => true
  | _ => false

def Phase.Succeeded (x : Phase) : Prop := x = .reported none ∨ x = .finished none

structure State where
  bytesDone : Int64
  chunks : List Phase
  reports : List ProgressInfo

def start : State := ⟨0, [], []⟩

/-- `if done > totalBytes { done = totalBytes }`. -/
def Upload.clamp (u : Upload) (done : Int64) : Int64 :=
  if u.totalBytes < done then u.totalBytes else done

def Upload.info (u : Upload) (chunkIndex : Nat) (bytesDone : Int64) (err : Option GoError) : ProgressInfo :=
  ⟨chunkIndex, u.total, bytesDone, u.totalBytes, err⟩

/-- An atomic step of the goroutine of a chunk: the end of its upload, the steps of the
    callback, and the release of the semaphore. -/
inductive Act (u : Upload) (i : Nat) : Int64 → Phase → Int64 → Phase → List ProgressInfo → Prop where
  | failed (bytesDone : Int64) (err : GoError) : Act u i bytesDone .uploading bytesDone (.loading (some err)) []
  | succeeded (bytesDone : Int64) : Act u i bytesDone .uploading bytesDone .adding []
  | add (bytesDone : Int64) :
    Act u i bytesDone .adding (bytesDone + u.chunkSize) (.clamping (bytesDone + u.chunkSize)) []
  | clamp (bytesDone done : Int64) : Act u i bytesDone (.clamping done) bytesDone (.storing (u.clamp done)) []
  | store (bytesDone done : Int64) : Act u i bytesDone (.storing done) done (.loading none) []
  | load (bytesDone : Int64) (err : Option GoError) :
    Act u i bytesDone (.loading err) bytesDone (.reported err) [u.info i bytesDone err]
  | release (bytesDone : Int64) (err : Option GoError) :
    Act u i bytesDone (.reported err) bytesDone (.finished err) []

inductive Step (u : Upload) : State → State → Prop where
  | start {s : State} (more : s.chunks.length < u.total)
    (room : s.chunks.countP (fun x => !x.released) < u.maxParallelUploads) :
    Step u s { s with chunks := s.chunks ++ [.uploading] }
  | act {bytesDone later : Int64} {x y : Phase} {told : List ProgressInfo} (before after : List Phase)
    (reports : List ProgressInfo) (acts : Act u before.length bytesDone x later y told) :
    Step u ⟨bytesDone, before ++ x :: after, reports⟩ ⟨later, before ++ y :: after, reports ++ told⟩

def Reachable (u : Upload) (s : State) : Prop := ReflTransGen (Step u) start s

structure Exact (u : Upload) (s : State) : Prop where
  bounded : ∀ info ∈ s.reports, info.bytesDone ≤ info.bytesTotal
  complete : s.chunks.length = u.total → (∀ x ∈ s.chunks, x.Succeeded) →
    s.bytesDone = u.totalBytes ∧ (s.reports.getLast?.map ProgressInfo.bytesDone) = some u.totalBytes

def Upload.credited (u : Upload) : Nat → Int64
  | 0 => 0
  | j + 1 => u.clamp (u.credited j + u.chunkSize)

theorem Upload.clamp_le (u : Upload) (done : Int64) : u.clamp done ≤ u.totalBytes := by
  unfold Upload.clamp
  split
  · exact Int64.le_refl _
  · rename_i within
    exact Int64.not_lt.mp within

theorem Upload.credited_le (u : Upload) (j : Nat) : u.credited j ≤ u.totalBytes := by
  cases j with
  | zero => exact Int64.le_iff_toInt_le.mpr u.sized
  | succ j => exact u.clamp_le _

section

variable {u : Upload}

def Holds (u : Upload) (j : Nat) (s : State) : Phase → Prop
  | .uploading | .adding => s.bytesDone = u.credited j
  | .clamping done => done = u.credited j + u.chunkSize
  | .storing done => done = u.credited (j + 1)
  | .loading none => s.bytesDone = u.credited (j + 1)
  | .loading (some _) => s.bytesDone = u.credited j
  | .reported err | .finished err =>
    s.bytesDone = u.credited (if err = none then j + 1 else j) ∧
      s.reports.getLast?.map ProgressInfo.bytesDone = some s.bytesDone

structure OneByOne (u : Upload) (s : State) : Prop where
  bounded : ∀ info ∈ s.reports, info.bytesDone ≤ u.totalBytes ∧ info.bytesTotal = u.totalBytes
  newest : s = start ∨ ∃ before x, s.chunks = before ++ [x] ∧ (∀ y ∈ before, ∃ err, y = .finished err) ∧
    Holds u (before.count (.finished none)) s x

theorem Act.not_finished {i : Nat} {bytesDone later : Int64} {x y : Phase} {told : List ProgressInfo}
    (acts : Act u i bytesDone x later y told) (err : Option GoError) : x ≠ .finished err := by
  cases acts <;> exact Phase.noConfusion

theorem eq_newest {before after earlier : List Phase} {x z : Phase} (active : ∀ err, x ≠ .finished err)
    (left : ∀ y ∈ earlier, ∃ err, y = .finished err) (same : before ++ x :: after = earlier ++ [z]) :
    before = earlier ∧ x = z ∧ after = [] := by
  rcases Concurrency.concat_cases same.symm with ⟨none, item, front⟩ | ⟨middle, -, whole⟩
  · exact ⟨front, item, none⟩
  · -- the goroutine would stand among those that have left
    have member : x ∈ earlier := by
      rw [whole]
      exact List.mem_append_right _ List.mem_cons_self
    obtain ⟨err, finished⟩ := left x member
    exact absurd finished (active err)

theorem Holds.act {j i : Nat} {bytesDone later : Int64} {x y : Phase} {told reports : List ProgressInfo}
    {chunks next : List Phase} (acts : Act u i bytesDone x later y told)
    (holds : Holds u j ⟨bytesDone, chunks, reports⟩ x) : Holds u j ⟨later, next, reports ++ told⟩ y := by
  cases acts with
  | failed err => exact holds
  | succeeded => exact holds
  | add =>
    have counter : bytesDone = u.credited j := holds
    rw [counter]
    rfl
  | clamp done =>
    have sum : done = u.credited j + u.chunkSize := holds
    rw [sum]
    rfl
  | store => exact holds
  | load err =>
    refine ⟨?_, ?_⟩
    · cases err with
      | none => exact holds
      | some err => exact holds
    · rw [List.getLast?_concat]
      rfl
  | release err =>
    rw [List.append_nil]
    exact holds

theorem Holds.told_le {j i : Nat} {bytesDone later : Int64} {x y : Phase} {told reports : List ProgressInfo}
    {chunks : List Phase} (acts : Act u i bytesDone x later y told)
    (holds : Holds u j ⟨bytesDone, chunks, reports⟩ x) :
    ∀ info ∈ told, info.bytesDone ≤ u.totalBytes ∧ info.bytesTotal = u.totalBytes := by
  cases acts with
  | load err =>
    intro info member
    cases List.mem_singleton.mp member
    refine ⟨?_, rfl⟩
    cases err with
    | none =>
      have counter : bytesDone = u.credited (j + 1) := holds
      exact counter ▸ u.credited_le _
    | some err =>
      have counter : bytesDone = u.credited j := holds
      exact counter ▸ u.credited_le _
  | _ => exact fun info member => (nomatch member)

theorem OneByOne.start (alone : u.total ≤ 1 ∨ u.maxParallelUploads ≤ 1) {s : State} (one : OneByOne u s)
    (more : s.chunks.length < u.total) (room : s.chunks.countP (fun x => !x.released) < u.maxParallelUploads) :
    OneByOne u { s with chunks := s.chunks ++ [.uploading] } := by
  refine ⟨one.bounded, .inr ?_⟩
  rcases one.newest with first | ⟨before, x, chunks, left, holds⟩
  · subst first
    exact ⟨[], .uploading, rfl, fun y member => (nomatch member), rfl⟩
  · have parallel : u.maxParallelUploads ≤ 1 := by
      rcases alone with single | single
      · rw [chunks, List.length_append, List.length_singleton] at more
        omega
      · exact single
    obtain ⟨err, finished⟩ : ∃ err, x = .finished err := by
      rw [chunks, List.countP_append, List.countP_singleton] at room
      cases x with
      | finished err => exact ⟨err, rfl⟩
      | _ =>
        simp only [Phase.released, Bool.not_false, if_true] at room
        omega
    subst finished
    refine ⟨before ++ [.finished err], .uploading, by rw [chunks], ?_, ?_⟩
    · intro y member
      rcases List.mem_append.mp member with earlier | last
      · exact left y earlier
      · exact ⟨err, List.mem_singleton.mp last⟩
    · have counter := holds.1
      show s.bytesDone = _
      rw [counter, List.count_append, List.count_singleton]
      cases err with
      | none => rfl
      | some err => rfl

theorem OneByOne.step (alone : u.total ≤ 1 ∨ u.maxParallelUploads ≤ 1) {s t : State} (one : OneByOne u s)
    (step : Step u s t) : OneByOne u t := by
  cases step with
  | start more room => exact one.start alone more room
  | act before after reports acts =>
    rcases one.newest with first | ⟨earlier, z, chunks, left, holds⟩
    · cases before <;> cases congrArg State.chunks first
    · obtain ⟨rfl, rfl, rfl⟩ := eq_newest acts.not_finished left chunks
      refine ⟨?_, .inr ⟨before, _, rfl, left, holds.act acts⟩⟩
      intro info member
      rcases List.mem_append.mp member with told | new
      · exact one.bounded info told
      · exact holds.told_le acts info new

theorem Reachable.oneByOne (alone : u.total ≤ 1 ∨ u.maxParallelUploads ≤ 1) {s : State}
    (reached : Reachable u s) : OneByOne u s := by
  induction reached with
  | refl => exact ⟨fun info member => (nomatch member), .inl rfl⟩
  | tail _ step one => exact one.step alone step

theorem OneByOne.exact {s : State} (one : OneByOne u s) (whole : u.credited u.total = u.totalBytes) : Exact u s := by
  refine ⟨fun info member => ?_, fun started successes => ?_⟩
  · rw [(one.bounded info member).2]
    exact (one.bounded info member).1
  · rcases one.newest with first | ⟨before, x, chunks, left, holds⟩
    · subst first
      have nonempty := u.nonempty
      rw [← started] at nonempty
      cases nonempty
    · rw [chunks] at started successes
      have earlier : before.count (.finished none) = before.length := by
        rw [List.count_eq_length]
        intro y member
        obtain ⟨err, rfl⟩ := left y member
        rcases successes _ (List.mem_append_left _ member) with reported | finished
        · cases reported
        · exact finished.symm
      have count : before.count (.finished none) + 1 = u.total := by
        rw [earlier, ← started, List.length_append, List.length_singleton]
      have last : s.bytesDone = u.credited (before.count (.finished none) + 1) ∧
          s.reports.getLast?.map ProgressInfo.bytesDone = some s.bytesDone := by
        rcases successes x (List.mem_append_right _ (List.mem_singleton.mpr rfl)) with rfl | rfl
        · exact holds
        · exact holds
      rw [count, whole] at last
      exact ⟨last.1, last.2.trans (congrArg some last.1)⟩

theorem Reachable.eq_start (blocked : u.maxParallelUploads = 0) {s : State} (reached : Reachable u s) :
    s = start := by
  induction reached with
  | refl => rfl
  | tail _ step same =>
    subst same
    generalize first : start = s at step
    cases step with
    | start more room =>
      rw [blocked] at room
      cases room
    | act before =>
      cases before <;> cases congrArg State.chunks first

theorem exact_start : Exact u start := by
  refine ⟨fun info member => (nomatch member), fun started _ => ?_⟩
  have nonempty := u.nonempty
  rw [← started] at nonempty
  cases nonempty

theorem Reachable.alone {s : State} (reached : Reachable u s) (left : ∀ x ∈ s.chunks, x.released)
    (more : s.chunks.length < u.total) (room : 0 < u.maxParallelUploads) :
    Reachable u ⟨u.clamp (s.bytesDone + u.chunkSize), s.chunks ++ [.finished none],
      s.reports ++ [u.info s.chunks.length (u.clamp (s.bytesDone + u.chunkSize)) none]⟩ := by
  have idle : s.chunks.countP (fun x => !x.released) = 0 := by
    rw [List.countP_eq_zero]
    intro x member
    simp only [left x member, Bool.not_true, Bool.false_eq_true, not_false_eq_true]
  have started := reached.tail (.start more (by omega))
  have succeeded := started.tail (.act s.chunks [] s.reports (.succeeded _))
  have added := succeeded.tail (.act s.chunks [] _ (.add _))
  have clamped := added.tail (.act s.chunks [] _ (.clamp _ _))
  have stored := clamped.tail (.act s.chunks [] _ (.store _ _))
  have loaded := stored.tail (.act s.chunks [] _ (.load _ _))
  have released := loaded.tail (.act s.chunks [] _ (.release _ _))
  simp only [List.append_nil] at released
  exact released

theorem reachable_credited (room : 0 < u.maxParallelUploads) {j : Nat} (bound : j ≤ u.total) :
    ∃ reports, Reachable u ⟨u.credited j, List.replicate j (.finished none), reports⟩ := by
  induction j with
  | zero => exact ⟨[], .refl⟩
  | succ j ih =>
    obtain ⟨reports, reached⟩ := ih (by omega)
    have left : ∀ x ∈ List.replicate j (Phase.finished none), x.released := by
      intro x member
      rw [List.eq_of_mem_replicate member]
      rfl
    have next := reached.alone left (by rw [List.length_replicate]; omega) room
    rw [List.replicate_succ']
    exact ⟨_, next⟩

theorem reachable_overlap (room : 2 ≤ u.maxParallelUploads) {j : Nat} (two : j + 2 ≤ u.total) :
    ∃ reports, Reachable u ⟨u.credited j, List.replicate j (.finished none) ++ [.adding, .adding], reports⟩ := by
  obtain ⟨reports, reached⟩ := reachable_credited (u := u) (j := j) (by omega) (by omega)
  have idle : (List.replicate j (Phase.finished none)).countP (fun x => !x.released) = 0 := by
    rw [List.countP_eq_zero]
    intro x member
    rw [List.eq_of_mem_replicate member]
    decide
  have length : (List.replicate j (Phase.finished none)).length = j := List.length_replicate
  have first := reached.tail (.start (lt_of_eq_of_lt length (by omega)) (lt_of_eq_of_lt idle (by omega)))
  have started := first.tail (.act _ [] _ (.succeeded _))
  have second := started.tail (.start
    (by rw [List.length_append, length]; exact two) (by rw [List.countP_append, idle]; exact room))
  have both := second.tail (.act _ [] _ (.succeeded _))
  simp only [List.append_nil, List.append_assoc, List.singleton_append] at both
  exact ⟨_, both⟩

theorem Step.second {before : List Phase} {a b c : Phase} {bytesDone later : Int64}
    {told reports : List ProgressInfo} (acts : Act u (before ++ [a]).length bytesDone b later c told) :
    Step u ⟨bytesDone, before ++ [a, b], reports⟩ ⟨later, before ++ [a, c], reports ++ told⟩ := by
  have step := Step.act (before ++ [a]) [] reports acts
  rw [List.append_assoc, List.append_assoc] at step
  exact step

theorem succeeded_all (j : Nat) :
    ∀ x ∈ List.replicate j (Phase.finished none) ++ [Phase.reported none, Phase.reported none], x.Succeeded := by
  intro x member
  rcases List.mem_append.mp member with earlier | last
  · exact .inr (List.eq_of_mem_replicate earlier)
  · simp only [List.mem_cons, List.not_mem_nil, or_false, or_self] at last
    exact .inl last

/-- The second callback adds and stores between the first one's `Add` and its `Store`. -/
theorem reachable_lost (room : 2 ≤ u.maxParallelUploads) {j : Nat} (two : j + 2 ≤ u.total) :
    ∃ reports, Reachable u
      ⟨u.credited (j + 1), List.replicate j (.finished none) ++ [.reported none, .reported none], reports⟩ := by
  obtain ⟨reports, reached⟩ := reachable_overlap room two
  have added := reached.tail (.act _ [.adding] _ (.add _))
  have second := ((added.tail (.second (.add _))).tail (.second (.clamp _ _))).tail (.second (.store _ _))
  have first := (second.tail (.act _ [_] _ (.clamp _ _))).tail (.act _ [_] _ (.store _ _))
  exact ⟨_, (first.tail (.act _ [_] _ (.load _ _))).tail (.second (.load _ _))⟩

/-- The second callback adds between the first one's `Store` and its `Load`. -/
theorem reachable_overshoot (room : 2 ≤ u.maxParallelUploads) {j : Nat} (two : j + 2 ≤ u.total) :
    ∃ s i, Reachable u s ∧ u.info i (u.credited (j + 1) + u.chunkSize) none ∈ s.reports := by
  obtain ⟨reports, reached⟩ := reachable_overlap room two
  have added := reached.tail (.act _ [.adding] _ (.add _))
  have stored := (added.tail (.act _ [_] _ (.clamp _ _))).tail (.act _ [_] _ (.store _ _))
  have second := stored.tail (.second (.add _))
  exact ⟨_, _, second.tail (.act _ [_] _ (.load _ _)), List.mem_append_right _ (List.mem_singleton.mpr rfl)⟩

theorem credited_of_exact (room : 0 < u.maxParallelUploads) (exact : ∀ s, Reachable u s → Exact u s) :
    u.credited u.total = u.totalBytes := by
  obtain ⟨reports, reached⟩ := reachable_credited room le_rfl
  apply ((exact _ reached).complete List.length_replicate _).1
  intro x member
  exact .inr (List.eq_of_mem_replicate member)

theorem lt_add_of_credited {j : Nat} (early : u.credited j = u.totalBytes)
    (whole : u.credited (j + 1) = u.totalBytes) : u.totalBytes < u.totalBytes + u.chunkSize := by
  have clamped : u.clamp (u.credited j + u.chunkSize) = u.totalBytes := whole
  rw [early] at clamped
  unfold Upload.clamp at clamped
  split at clamped
  · assumption
  · have none : u.chunkSize = 0 := Int64.add_eq_left.mp clamped
    have positive := u.chunked
    rw [none] at positive
    cases positive

theorem exists_inexact (room : 2 ≤ u.maxParallelUploads) {j : Nat} (two : j + 2 = u.total)
    (whole : u.credited (j + 2) = u.totalBytes) : ∃ s, Reachable u s ∧ ¬ Exact u s := by
  by_cases early : u.credited (j + 1) = u.totalBytes
  · obtain ⟨s, i, reached, told⟩ := reachable_overshoot room two.le
    refine ⟨s, reached, fun exact => ?_⟩
    have bounded := exact.bounded _ told
    rw [Upload.info, early] at bounded
    exact absurd (lt_add_of_credited early whole) (Int64.not_lt.mpr bounded)
  · obtain ⟨reports, reached⟩ := reachable_lost room two.le
    have started : (List.replicate j (Phase.finished none) ++
        [Phase.reported none, Phase.reported none]).length = u.total := by
      rw [List.length_append, List.length_replicate]
      exact two
    refine ⟨_, reached, fun exact => ?_⟩
    exact early (exact.complete started (succeeded_all j)).1

end

theorem Upload.toInt_credited (u : Upload) {j : Nat}
    (fits : ∀ i < j, min (i * u.chunkSize.toInt) u.totalBytes.toInt + u.chunkSize.toInt < 2 ^ 63) :
    (u.credited j).toInt = min (j * u.chunkSize.toInt) u.totalBytes.toInt := by
  have sized := u.sized
  have chunked := u.chunked
  induction j with
  | zero =>
    rw [Nat.cast_zero, zero_mul, min_eq_left sized]
    rfl
  | succ j ih =>
    have before := ih fun i below => fits i (by omega)
    have room := fits j (by omega)
    have product : 0 ≤ (j : ℤ) * u.chunkSize.toInt := by positivity
    have sum : (u.credited j + u.chunkSize).toInt = (u.credited j).toInt + u.chunkSize.toInt := by
      rw [Int64.toInt_add]
      exact Int.bmod_eq_of_le (by omega) (by omega)
    push_cast
    rw [add_mul, one_mul]
    unfold Upload.credited Upload.clamp
    split
    · rename_i past
      rw [Int64.lt_iff_toInt_lt, sum] at past
      omega
    · rename_i within
      rw [Int64.lt_iff_toInt_lt, sum] at within
      omega

theorem Upload.credited_of_countExact (u : Upload)
    (exact : CountExact u.totalBytes.toInt.toNat u.chunkSize.toInt.toNat)
    (count : u.total = u.totalBytes.toInt.toNat ⌈/⌉ u.chunkSize.toInt.toNat) :
    u.credited u.total = u.totalBytes := by
  have sized := u.sized
  have chunked := u.chunked
  have enough := le_ceilDiv_mul (n := u.totalBytes.toInt.toNat) (show 0 < u.chunkSize.toInt.toNat by omega)
  have room := exact.fits
  rw [← count] at enough room
  have cast (i : ℕ) : ((i * u.chunkSize.toInt.toNat : ℕ) : ℤ) = i * u.chunkSize.toInt := by
    rw [Nat.cast_mul, Int.toNat_of_nonneg (by omega)]
  apply Int64.toInt_inj.mp
  rw [u.toInt_credited]
  · have last := cast u.total
    omega
  · intro i below
    have next : (i + 1) * u.chunkSize.toInt.toNat ≤ u.total * u.chunkSize.toInt.toNat :=
      Nat.mul_le_mul_right _ below
    have here := cast i
    rw [Nat.add_mul, Nat.one_mul] at next
    omega

theorem progress_exact_iff (u : Upload) :
    (∀ s, Reachable u s → Exact u s) ↔
      u.maxParallelUploads = 0 ∨
        (u.total = 1 ∨ u.maxParallelUploads = 1) ∧ u.credited u.total = u.totalBytes := by
  have nonempty := u.nonempty
  constructor
  · intro exact
    rcases Nat.eq_zero_or_pos u.maxParallelUploads with blocked | room
    · exact .inl blocked
    · have whole := credited_of_exact room exact
      refine .inr ⟨?_, whole⟩
      by_contra several
      obtain ⟨j, two⟩ : ∃ j, j + 2 = u.total := ⟨u.total - 2, by omega⟩
      obtain ⟨s, reached, wrong⟩ := exists_inexact (by omega) two (two ▸ whole)
      exact wrong (exact s reached)
  · rintro (blocked | ⟨alone, whole⟩) s reached
    · rw [reached.eq_start blocked]
      exact exact_start
    · exact (reached.oneByOne (by omega)).exact whole

def twoChunks : Upload where
  totalBytes := 131072
  chunkSize := 65536
  total := 2
  maxParallelUploads := 4
  sized := by decide
  chunked := by decide
  nonempty := by decide

/-- Both chunks have succeeded and one of them is not counted. -/
theorem lost_update :
    ∃ s, Reachable twoChunks s ∧ (s.chunks.length = 2 ∧ ∀ x ∈ s.chunks, x.Succeeded) ∧ s.bytesDone = 65536 ∧
      ¬ Exact twoChunks s := by
  have counter : twoChunks.credited 1 = 65536 := by decide
  obtain ⟨reports, reached⟩ := reachable_lost (u := twoChunks) (j := 0) (by decide) (by decide)
  rw [counter] at reached
  refine ⟨_, reached, ⟨rfl, succeeded_all 0⟩, rfl, fun exact => ?_⟩
  exact absurd (exact.complete rfl (succeeded_all 0)).1 (by decide : (65536 : Int64) ≠ 131072)

end DistributedFs.Client.UploadProgress
