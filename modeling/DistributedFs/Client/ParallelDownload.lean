import DistributedFs.Client.Download
import DistributedFs.Concurrency.Workers

namespace DistributedFs.Client

open Go Concurrency Relation

/-- The goroutine of a chunk. An error is counted before `errOnce` sees it, and both before the
    progress function is called; the release of the semaphore comes last. -/
inductive FetchPhase where
  | fetching
  | failing (err : GoError)
  | recording (err : GoError)
  | reporting (err : Option GoError)
  | reported (err : Option GoError)
  | finished (err : Option GoError)

structure Fetcher where
  chunk : ChunkInfo
  phase : FetchPhase

structure ChunkReport where
  chunkIndex : Int64
  total : Nat
  err : Option GoError

structure FetchShared where
  assembly : Assembly
  reports : List ChunkReport

structure Fetching where
  env : DownloadEnv
  info : FileInfo
  chunks : List ChunkInfo
  maxParallelDownloads : Nat

namespace FetchPhase

def released : FetchPhase → Bool
  | .finished _ => true
  | _ => false

def left : FetchPhase → Nat
  | .fetching => 5
  | .failing _ => 4
  | .recording _ => 3
  | .reporting _ => 2
  | .reported _ => 1
  | .finished _ => 0

def committed : FetchPhase → Bool
  | .reporting _ | .reported _ | .finished _ => true
  | _ => false

def counted : FetchPhase → Bool
  | .recording _ => true
  | _ => false

def told : FetchPhase → Bool
  | .reported _ | .finished _ => true
  | _ => false

end FetchPhase

namespace Fetching

variable (f : Fetching)

def sorted : List ChunkInfo := f.chunks.mergeSort fun a b => decide (a.chunkIndex ≤ b.chunkIndex)

def result (c : ChunkInfo) : Except GoError Write := downloadChunkWithFailover (f.env.fetch c) c f.info.chunkSize

def outcome (c : ChunkInfo) : Option GoError :=
  match f.result c with
  | .ok _ => none
  | .error err => some err

def report (c : ChunkInfo) (err : Option GoError) : ChunkReport := ⟨c.chunkIndex, f.chunks.length, err⟩

def start : FetchShared := ⟨⟨List.replicate f.info.fileSize.toInt.toNat 0, 0, none⟩, []⟩

inductive Act : FetchShared → Fetcher → FetchShared → Fetcher → Prop where
  | written {s : FetchShared} {c : ChunkInfo} {w : Write} (fetched : f.result c = .ok w) :
    Act s ⟨c, .fetching⟩ { s with assembly := s.assembly.finish (.ok w) } ⟨c, .reporting none⟩
  | failed {s : FetchShared} {c : ChunkInfo} {err : GoError} (fetched : f.result c = .error err) :
    Act s ⟨c, .fetching⟩ s ⟨c, .failing err⟩
  | add {s : FetchShared} {c : ChunkInfo} {err : GoError} :
    Act s ⟨c, .failing err⟩ { s with assembly := { s.assembly with failed := s.assembly.failed + 1 } }
      ⟨c, .recording err⟩
  | once {s : FetchShared} {c : ChunkInfo} {err : GoError} :
    Act s ⟨c, .recording err⟩
      { s with assembly := { s.assembly with firstErr := s.assembly.firstErr.or (some err) } }
      ⟨c, .reporting (some err)⟩
  | report {s : FetchShared} {c : ChunkInfo} {err : Option GoError} :
    Act s ⟨c, .reporting err⟩ { s with reports := s.reports ++ [f.report c err] } ⟨c, .reported err⟩
  | release {s : FetchShared} {c : ChunkInfo} {err : Option GoError} :
    Act s ⟨c, .reported err⟩ s ⟨c, .finished err⟩

variable {f}

theorem Act.exists_of_not_released (s : FetchShared) {g : Fetcher} (busy : g.phase.released = false) :
    ∃ t h, f.Act s g t h := by
  obtain ⟨c, phase⟩ := g
  cases phase with
  | fetching =>
    cases fetched : f.result c with
    | ok w => exact ⟨_, _, .written fetched⟩
    | error err => exact ⟨_, _, .failed fetched⟩
  | failing err => exact ⟨_, _, .add⟩
  | recording err => exact ⟨_, _, .once⟩
  | reporting err => exact ⟨_, _, .report⟩
  | reported err => exact ⟨_, _, .release⟩
  | finished err => cases busy

theorem Act.not_released {s t : FetchShared} {g h : Fetcher} (acts : f.Act s g t h) :
    g.phase.released = false := by
  cases acts <;> rfl

theorem Act.left_lt {s t : FetchShared} {g h : Fetcher} (acts : f.Act s g t h) : h.phase.left < g.phase.left := by
  cases acts <;> simp [FetchPhase.left]

variable (f)

def workers : Workers ChunkInfo FetchShared Fetcher where
  items := f.sorted
  limit := f.maxParallelDownloads
  fresh c := ⟨c, .fetching⟩
  released g := g.phase.released
  act _ := f.Act
  left g := g.phase.left
  size := 5
  busy _ := rfl
  fits _ := le_rfl
  live _ s _ busy := Act.exists_of_not_released s busy
  ends _ _ _ _ _ acts := acts.not_released
  less _ _ _ _ _ acts := acts.left_lt

def Finished (p : Pool FetchShared Fetcher) : Prop :=
  p.workers.length = f.sorted.length ∧ ∀ g ∈ p.workers, g.phase.released = true

def replay (order : List ChunkInfo) : Assembly := (order.map f.result).foldl Assembly.finish f.start.assembly

def Fits (g : Fetcher) : Prop :=
  match g.phase with
  | .fetching => True
  | .failing err | .recording err => f.result g.chunk = .error err
  | .reporting err | .reported err | .finished err => f.outcome g.chunk = err

/-- The run so far is the replay of the chunks that are committed, in the order of their commits. -/
structure Linear (p : Pool FetchShared Fetcher) (order : List ChunkInfo) : Prop where
  started : p.workers.map Fetcher.chunk = f.sorted.take p.workers.length
  fits : ∀ g ∈ p.workers, f.Fits g
  perm : order.Perm ((p.workers.filter (·.phase.committed)).map Fetcher.chunk)
  assembled : p.shared.assembly =
    { f.replay order with failed := (f.replay order).failed + p.workers.countP (·.phase.counted) }
  told : p.shared.reports.Perm ((p.workers.filter (·.phase.told)).map fun g => f.report g.chunk (f.outcome g.chunk))

variable {f}

theorem replay_concat (order : List ChunkInfo) (c : ChunkInfo) :
    f.replay (order ++ [c]) = (f.replay order).finish (f.result c) := by
  simp only [replay, List.map_append, List.map_cons, List.map_nil, List.foldl_append, List.foldl_cons, List.foldl_nil]

theorem Act.chunk_eq {s t : FetchShared} {g h : Fetcher} (acts : f.Act s g t h) : h.chunk = g.chunk := by
  cases acts <;> rfl

theorem Fits.act {s t : FetchShared} {g h : Fetcher} (acts : f.Act s g t h) (fits : f.Fits g) : f.Fits h := by
  cases acts with
  | written fetched => simp only [Fits, outcome, fetched]
  | failed fetched => exact fetched
  | add => exact fits
  | @once c err =>
    have fetched : f.result c = .error err := fits
    simp only [Fits, outcome, fetched]
  | report => exact fits
  | release => exact fits

theorem Linear.start : f.Linear ⟨f.start, []⟩ [] where
  started := rfl
  fits := by simp
  perm := .refl _
  assembled := rfl
  told := .refl _

theorem Linear.begin {p : Pool FetchShared Fetcher} {order : List ChunkInfo} (linear : f.Linear p order)
    {c : ChunkInfo} (next : f.sorted[p.workers.length]? = some c) :
    f.Linear { p with workers := p.workers ++ [⟨c, .fetching⟩] } order := by
  refine ⟨?_, ?_, ?_, ?_, ?_⟩
  · simp only [List.map_append, linear.started, List.length_append, List.length_singleton, List.map_cons, List.map_nil]
    rw [List.take_add_one, next]
    rfl
  · intro g member
    rcases List.mem_append.mp member with earlier | new
    · exact linear.fits g earlier
    · cases List.mem_singleton.mp new
      trivial
  · simpa [List.filter_append, FetchPhase.committed] using linear.perm
  · simpa [List.countP_append, FetchPhase.counted] using linear.assembled
  · simpa [List.filter_append, FetchPhase.told] using linear.told

/-- The commits are the write of the chunk and `errOnce`. -/
theorem Linear.act {s t : FetchShared} {g h : Fetcher} {front back : List Fetcher} {order : List ChunkInfo}
    (linear : f.Linear ⟨s, front ++ g :: back⟩ order) (acts : f.Act s g t h) :
    ∃ order, f.Linear ⟨t, front ++ h :: back⟩ order := by
  have started : (front ++ h :: back).map Fetcher.chunk = f.sorted.take (front ++ h :: back).length := by
    have before := linear.started
    simp only [List.map_append, List.map_cons, List.length_append, List.length_cons, acts.chunk_eq] at before ⊢
    exact before
  have fits : ∀ x ∈ front ++ h :: back, f.Fits x := by
    intro x member
    have before := linear.fits
    simp only [List.mem_append, List.mem_cons] at member before
    rcases member with earlier | same | later
    · exact before x (.inl earlier)
    · exact same ▸ (before g (.inr (.inl rfl))).act acts
    · exact before x (.inr (.inr later))
  obtain ⟨-, held, perm, assembled, told⟩ := linear
  have own : f.Fits g := held g (List.mem_append_right _ List.mem_cons_self)
  dsimp only at perm assembled told
  cases acts with
  | @written c w fetched =>
    refine ⟨order ++ [c], started, fits, ?_, ?_, ?_⟩
    · simp [FetchPhase.committed] at perm ⊢
      exact Workers.perm_middle_concat perm c
    · simp [FetchPhase.counted, assembled, replay_concat, fetched, Assembly.finish]
    · simpa [FetchPhase.told] using told
  | failed fetched =>
    refine ⟨order, started, fits, ?_, ?_, ?_⟩
    · simpa [FetchPhase.committed] using perm
    · simpa [FetchPhase.counted] using assembled
    · simpa [FetchPhase.told] using told
  | add =>
    refine ⟨order, started, fits, ?_, ?_, ?_⟩
    · simpa [FetchPhase.committed] using perm
    · simp [FetchPhase.counted, assembled]
      omega
    · simpa [FetchPhase.told] using told
  | @once c err =>
    have fetched : f.result c = .error err := own
    refine ⟨order ++ [c], started, fits, ?_, ?_, ?_⟩
    · simp [FetchPhase.committed] at perm ⊢
      exact Workers.perm_middle_concat perm c
    · simp [FetchPhase.counted, assembled, replay_concat, fetched, Assembly.finish]
      omega
    · simpa [FetchPhase.told] using told
  | @report c err =>
    have same : f.outcome c = err := own
    refine ⟨order, started, fits, ?_, ?_, ?_⟩
    · simpa [FetchPhase.committed] using perm
    · simpa [FetchPhase.counted] using assembled
    · simp [FetchPhase.told, same] at told ⊢
      exact Workers.perm_middle_concat told _
  | release =>
    refine ⟨order, started, fits, ?_, ?_, ?_⟩
    · simpa [FetchPhase.committed] using perm
    · simpa [FetchPhase.counted] using assembled
    · simpa [FetchPhase.told] using told

theorem Reachable.linear {p : Pool FetchShared Fetcher} (reached : f.workers.Reachable f.start p) :
    ∃ order, f.Linear p order := by
  induction reached with
  | refl => exact ⟨[], .start⟩
  | tail _ step ih =>
    obtain ⟨order, linear⟩ := ih
    cases step with
    | start next room => exact ⟨order, linear.begin next⟩
    | act before after acts => exact linear.act acts

theorem committed_of_released {phase : FetchPhase} (left : phase.released = true) :
    phase.committed = true ∧ phase.counted = false ∧ phase.told = true := by
  cases phase with
  | finished err => exact ⟨rfl, rfl, rfl⟩
  | _ => cases left

theorem Finished.replayed {p : Pool FetchShared Fetcher} (finished : f.Finished p)
    (reached : f.workers.Reachable f.start p) :
    ∃ order, order.Perm f.sorted ∧ p.shared.assembly = f.replay order ∧
      p.shared.reports.Perm (f.sorted.map fun c => f.report c (f.outcome c)) := by
  obtain ⟨length, left⟩ := finished
  obtain ⟨order, linear⟩ := Reachable.linear reached
  have chunks : p.workers.map Fetcher.chunk = f.sorted := by
    rw [linear.started, length, List.take_length]
  have committed : p.workers.filter (·.phase.committed) = p.workers := by
    rw [List.filter_eq_self]
    exact fun g member => (committed_of_released (left g member)).1
  have counted : p.workers.countP (·.phase.counted) = 0 := by
    rw [List.countP_eq_zero]
    intro g member
    rw [(committed_of_released (left g member)).2.1]
    exact Bool.false_ne_true
  have told : p.workers.filter (·.phase.told) = p.workers := by
    rw [List.filter_eq_self]
    exact fun g member => (committed_of_released (left g member)).2.2
  refine ⟨order, ?_, ?_, ?_⟩
  · have perm := linear.perm
    rwa [committed, chunks] at perm
  · have assembled := linear.assembled
    rwa [counted, Nat.add_zero] at assembled
  · have reports := linear.told
    rw [told] at reports
    rwa [← chunks, List.map_map]

theorem exists_completion {order : List ChunkInfo} (perm : order.Perm f.sorted) :
    ∃ c : Completion, c.order f.sorted = order := by
  classical
  refine ⟨⟨fun chunks => if chunks = f.sorted then order else chunks, fun chunks => ?_⟩, if_pos rfl⟩
  split
  · rename_i same
    exact same ▸ perm
  · exact .refl _

abbrev Steps (f : Fetching) : Pool FetchShared Fetcher → Pool FetchShared Fetcher → Prop :=
  ReflTransGen f.workers.Step

theorem Steps.alone (s : FetchShared) (c : ChunkInfo) (front back : List Fetcher) :
    ∃ t err, f.Steps ⟨s, front ++ ⟨c, .fetching⟩ :: back⟩ ⟨t, front ++ ⟨c, .finished err⟩ :: back⟩ ∧
      t.assembly = s.assembly.finish (f.result c) := by
  cases fetched : f.result c with
  | ok w =>
    have written : f.Steps ⟨s, front ++ ⟨c, .fetching⟩ :: back⟩ _ := .single (.act front back (.written fetched))
    exact ⟨_, _, (written.tail (.act front back .report)).tail (.act front back .release), rfl⟩
  | error err =>
    have failed : f.Steps ⟨s, front ++ ⟨c, .fetching⟩ :: back⟩ _ := .single (.act front back (.failed fetched))
    have recorded := (failed.tail (.act front back .add)).tail (.act front back .once)
    exact ⟨_, _, (recorded.tail (.act front back .report)).tail (.act front back .release), rfl⟩

theorem Steps.inOrder {order : List ChunkInfo} {s : FetchShared} {gs : List Fetcher}
    (whole : ∀ g ∈ gs, g.phase = .fetching ∨ g.phase.released = true)
    (perm : order.Perm ((gs.filter fun g => !g.phase.released).map Fetcher.chunk)) :
    ∃ q, f.Steps ⟨s, gs⟩ q ∧ q.workers.length = gs.length ∧ (∀ g ∈ q.workers, g.phase.released = true) ∧
      q.shared.assembly = (order.map f.result).foldl Assembly.finish s.assembly := by
  induction order generalizing s gs with
  | nil =>
    refine ⟨_, .refl, rfl, fun g member => ?_, rfl⟩
    have none := List.map_eq_nil_iff.mp perm.nil_eq.symm
    simpa using List.filter_eq_nil_iff.mp none g member
  | cons c rest ih =>
    obtain ⟨g, pending, chunk⟩ := List.mem_map.mp (perm.subset List.mem_cons_self)
    obtain ⟨member, busy⟩ := List.mem_filter.mp pending
    have fetching : g = ⟨c, .fetching⟩ := by
      rcases whole g member with phase | left
      · rw [← chunk, ← phase]
      · simp [left] at busy
    subst fetching
    obtain ⟨front, back, rfl⟩ := List.append_of_mem member
    obtain ⟨t, err, run, assembly⟩ := Steps.alone (f := f) s c front back
    have others : ∀ g ∈ front ++ ⟨c, .finished err⟩ :: back, g.phase = .fetching ∨ g.phase.released = true := by
      intro g member
      simp only [List.mem_append, List.mem_cons] at member whole
      rcases member with earlier | same | later
      · exact whole g (.inl earlier)
      · exact .inr (same ▸ rfl)
      · exact whole g (.inr (.inr later))
    have remaining : rest.Perm
        (((front ++ ⟨c, .finished err⟩ :: back).filter fun g => !g.phase.released).map Fetcher.chunk) := by
      simp [FetchPhase.released] at perm ⊢
      exact (perm.trans List.perm_middle).cons_inv
    obtain ⟨q, steps, length, left, final⟩ := ih others remaining
    refine ⟨q, run.trans steps, ?_, left, ?_⟩
    · simpa using length
    · rw [final, assembly]
      rfl

theorem Steps.startAll (room : f.sorted.length ≤ f.maxParallelDownloads) {k : Nat} (bound : k ≤ f.sorted.length) :
    f.workers.Reachable f.start ⟨f.start, (f.sorted.take k).map fun c => ⟨c, .fetching⟩⟩ := by
  induction k with
  | zero => exact .refl
  | succ k ih =>
    have length : ((f.sorted.take k).map fun c => (⟨c, .fetching⟩ : Fetcher)).length = k := by
      rw [List.length_map, List.length_take_of_le (by omega)]
    have next : f.sorted[k]? = some (f.sorted[k]) := List.getElem?_eq_getElem bound
    have free : f.workers.active ((f.sorted.take k).map fun c => ⟨c, .fetching⟩) < f.maxParallelDownloads := by
      refine lt_of_le_of_lt List.countP_le_length ?_
      omega
    have step := (ih (by omega)).tail (.start (p := ⟨f.start, _⟩) (by rw [length]; exact next) free)
    rw [List.take_add_one, next, List.map_append]
    exact step

theorem exists_finished (room : f.sorted.length ≤ f.maxParallelDownloads) {order : List ChunkInfo}
    (perm : order.Perm f.sorted) :
    ∃ p, f.workers.Reachable f.start p ∧ f.Finished p ∧ p.shared.assembly = f.replay order := by
  have started := Steps.startAll room le_rfl
  rw [List.take_length] at started
  have fresh : ((f.sorted.map fun c => (⟨c, .fetching⟩ : Fetcher)).filter fun g => !g.phase.released).map
      Fetcher.chunk = f.sorted := by
    simp [List.filter_map, Function.comp_def, FetchPhase.released]
  have whole : ∀ g ∈ f.sorted.map fun c => (⟨c, .fetching⟩ : Fetcher), g.phase = .fetching ∨ g.phase.released = true := by
    intro g member
    obtain ⟨c, -, rfl⟩ := List.mem_map.mp member
    exact .inl rfl
  obtain ⟨q, steps, length, left, assembly⟩ := Steps.inOrder whole (perm.trans (.of_eq fresh.symm))
  rw [List.length_map] at length
  exact ⟨q, started.trans steps, ⟨length, left⟩, assembly⟩

end Fetching

inductive ParallelDownload (env : DownloadEnv) (limit : Nat) (fileName outputPath : String)
    (before : Option (List UInt8)) : Downloaded → Prop where
  | early {o : Downloaded} (stops : prepareDownload env fileName before = .error o) :
    ParallelDownload env limit fileName outputPath before o
  | waited {info : FileInfo} {chunks : List ChunkInfo} {p : Pool FetchShared Fetcher}
    (ready : prepareDownload env fileName before = .ok (info, chunks))
    (reached : (Fetching.workers ⟨env, info, chunks, limit⟩).Reachable (Fetching.start ⟨env, info, chunks, limit⟩) p)
    (finished : Fetching.Finished ⟨env, info, chunks, limit⟩ p) :
    ParallelDownload env limit fileName outputPath before
      (concludeDownload info chunks.length outputPath p.shared.assembly)

section

variable {env : DownloadEnv} {fileName outputPath : String} {before : Option (List UInt8)}

theorem prepareDownload_completion (c : Completion) :
    prepareDownload { env with completion := c } fileName before = prepareDownload env fileName before := rfl

end

/-- Goroutines beside each other give what some order of whole chunks gives, and with room for all of
    them every order. The loop always ends, never has more than `limit` of them in hand, and gets to the
    end unless there is no room at all. -/
theorem parallelDownload_refines (env : DownloadEnv) (limit : Nat) (fileName outputPath : String)
    (before : Option (List UInt8)) :
    (∀ o, ParallelDownload env limit fileName outputPath before o →
      ∃ c, o = download { env with completion := c } fileName outputPath before) ∧
    ∀ info chunks, prepareDownload env fileName before = .ok (info, chunks) →
      let f : Fetching := ⟨env, info, chunks, limit⟩
      (chunks.length ≤ limit → ∀ c, ParallelDownload env limit fileName outputPath before
        (download { env with completion := c } fileName outputPath before)) ∧
      WellFounded (fun q p => f.workers.Step p q) ∧
      ∀ p, f.workers.Reachable f.start p →
        f.workers.active p.workers ≤ limit ∧
        ((∀ q, ¬f.workers.Step p q) → (f.Finished p ↔ 0 < limit)) ∧
        (f.Finished p → p.shared.reports.Perm (f.sorted.map fun c => f.report c (f.outcome c))) := by
  refine ⟨?_, fun info chunks ready => ⟨?_, Workers.wellFounded _, fun p reached => ⟨?_, ?_, ?_⟩⟩⟩
  · intro o returned
    cases returned with
    | early stops =>
      refine ⟨env.completion, ?_⟩
      rw [download, prepareDownload_completion, stops]
    | waited ready reached finished =>
      obtain ⟨order, perm, assembly, -⟩ := finished.replayed reached
      obtain ⟨c, same⟩ := Fetching.exists_completion perm
      refine ⟨c, ?_⟩
      rw [download, prepareDownload_completion, ready, assembly, ← same]
      rfl
  · intro room c
    have length : (Fetching.sorted ⟨env, info, chunks, limit⟩).length ≤ limit := by
      rw [Fetching.sorted, List.length_mergeSort]
      exact room
    obtain ⟨p, reached, finished, assembly⟩ := Fetching.exists_finished length (c.perm _)
    have returned : ParallelDownload env limit fileName outputPath before _ := .waited ready reached finished
    rw [assembly] at returned
    rw [download, prepareDownload_completion, ready]
    exact returned
  · exact (Workers.Reachable.bounded reached).2
  · intro stuck
    constructor
    · intro finished
      by_contra none
      have idle := Workers.Reachable.none_of_no_room reached (Nat.eq_zero_of_not_pos none)
      have length := finished.1
      rw [idle, Fetching.sorted, List.length_mergeSort] at length
      exact (prepareDownload_ok ready).2 (List.length_eq_zero_iff.mp length.symm)
    · exact fun room => Workers.complete_of_stuck reached room stuck
  · intro finished
    obtain ⟨-, -, -, reports⟩ := finished.replayed reached
    exact reports

end DistributedFs.Client
