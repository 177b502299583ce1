import DistributedFs.Concurrency.Protocol
import DistributedFs.Storage.ChunkWriter

namespace DistributedFs.Storage

open Go
open Concurrency (getElem?_set_cases)

structure Sessions where
  disk : Disk
  writers : List ChunkWriter

inductive Action where
  | newChunkWriter (chunkId : GoString) (fault : Option GoError)
  | write (i : Nat) (data : List UInt8) (fault : Option WriteFault)
  | finalize (i : Nat) (expectedChecksum : List UInt8) (faults : Faults RenameCall)
    (removeFault : Option GoError)
  | abort (i : Nat) (fault : Option GoError)

inductive Step (ds : DiskStore) (s : Sessions) : Action → Option GoError → Sessions → Prop where
  | opened (chunkId : GoString) (fault : Option GoError) (cw : ChunkWriter) (disk : Disk)
    (ran : newChunkWriter ds fault chunkId s.disk = (.ok cw, disk)) :
    Step ds s (.newChunkWriter chunkId fault) none ⟨disk, s.writers ++ [cw]⟩
  | refused (chunkId : GoString) (fault : Option GoError) (err : GoError) (disk : Disk)
    (ran : newChunkWriter ds fault chunkId s.disk = (.error err, disk)) :
    Step ds s (.newChunkWriter chunkId fault) (some err) { s with disk := disk }
  | write (i : Nat) (data : List UInt8) (fault : Option WriteFault) (cw : ChunkWriter)
    (found : s.writers[i]? = some cw) :
    Step ds s (.write i data fault) (cw.write fault data s.disk).2
      ⟨(cw.write fault data s.disk).1.2, s.writers.set i (cw.write fault data s.disk).1.1⟩
  | finalize (i : Nat) (expected : List UInt8) (faults : Faults RenameCall)
    (removeFault : Option GoError) (cw : ChunkWriter) (found : s.writers[i]? = some cw)
    (later : ChunkWriter) (disk : Disk) (result : Option GoError)
    (ran : cw.finalize ds faults removeFault expected s.disk = ((later, disk), result)) :
    Step ds s (.finalize i expected faults removeFault) result ⟨disk, s.writers.set i later⟩
  | abort (i : Nat) (fault : Option GoError) (cw : ChunkWriter) (found : s.writers[i]? = some cw) :
    Step ds s (.abort i fault) none
      ⟨(cw.abort fault s.disk).2, s.writers.set i (cw.abort fault s.disk).1⟩

abbrev History := List (Action × Option GoError)

inductive Run (ds : DiskStore) (ok : History → Sessions → Action → Prop) (start : Disk) :
    History → Sessions → Prop where
  | start : Run ds ok start [] ⟨start, []⟩
  | step {history : History} {s later : Sessions} {action : Action} {result : Option GoError}
    (before : Run ds ok start history s) (met : ok history s action)
    (step : Step ds s action result later) : Run ds ok start (history ++ [(action, result)]) later

theorem Run.relax {ds : DiskStore} {ok : History → Sessions → Action → Prop} {start : Disk}
    {history : History} {s : Sessions} (run : Run ds ok start history s) :
    Run ds (fun _ _ _ => True) start history s := by
  induction run with
  | start => exact .start
  | step _ _ step ih => exact ih.step trivial step

def wroteBy (i : Nat) (history : History) : List UInt8 :=
  history.flatMap fun
    | (.write j data _, none) => if j = i then data else []
    | _ => []

def Unbroken (i : Nat) (history : History) : Prop :=
  ∀ data fault err, (Action.write i data fault, some err) ∉ history

/-- No session is opened for a chunk that another one is still writing, and none is finalized
    after a write that failed. -/
def Exclusive (history : History) (s : Sessions) : Action → Prop
  | .newChunkWriter chunkId _ => ∀ cw ∈ s.writers, cw.chunkId = chunkId → cw.isDone = true
  | .finalize i .. => Unbroken i history
  | _ => True

structure Owns (files : FileSystem Path) (cw : ChunkWriter) : Prop where
  allocated : cw.file.inode < files.next
  only : ∀ p, files.links p = some cw.file.inode → p = cw.filepath
  same : ∀ i, files.links cw.filepath = some i → i = cw.file.inode

structure Holds (files : FileSystem Path) (cw : ChunkWriter) : Prop where
  content : files.inodes cw.file.inode = cw.hasher
  offset : cw.file.offset = cw.hasher.length

def Sessions.Live (s : Sessions) (i : Nat) (cw : ChunkWriter) : Prop :=
  s.writers[i]? = some cw ∧ cw.isDone = false

structure Sound (ds : DiskStore) (history : History) (s : Sessions) : Prop where
  temp : ∀ (i : Nat) cw, s.writers[i]? = some cw → ds.tempPath cw.chunkId = .ok cw.filepath
  owns : ∀ i cw, s.Live i cw → Owns s.disk.files cw
  apart : ∀ i j cw other, s.Live i cw → s.Live j other → i ≠ j → cw.file.inode ≠ other.file.inode
  holds : ∀ i cw, s.Live i cw → Unbroken i history →
    Holds s.disk.files cw ∧ cw.hasher = wroteBy i history
  unopened : ∀ i, s.writers.length ≤ i → wroteBy i history = []

theorem wroteBy_append (i : Nat) (history : History) (entry : Action × Option GoError) :
    wroteBy i (history ++ [entry]) = wroteBy i history ++ wroteBy i [entry] := by
  simp [wroteBy]

theorem Unbroken.of_append {i : Nat} {history : History} {entry : Action × Option GoError}
    (unbroken : Unbroken i (history ++ [entry])) : Unbroken i history := by
  intro data fault err member
  exact unbroken data fault err (List.mem_append_left _ member)

structure Untouched (before after : FileSystem Path) (cw : ChunkWriter) : Prop where
  owns : Owns after cw
  content : after.inodes cw.file.inode = before.inodes cw.file.inode

theorem Untouched.refl {files : FileSystem Path} {cw : ChunkWriter} (owns : Owns files cw) :
    Untouched files files cw := ⟨owns, rfl⟩

theorem getElem?_concat_cases {writers : List ChunkWriter} {i : Nat} {added other : ChunkWriter}
    (stored : (writers ++ [added])[i]? = some other) :
    writers[i]? = some other ∨ (i = writers.length ∧ other = added) := by
  rcases Nat.lt_or_ge i writers.length with inside | beyond
  · rw [List.getElem?_append_left inside] at stored
    exact .inl stored
  · rw [List.getElem?_append_right beyond] at stored
    obtain ⟨last, rfl⟩ := List.getElem?_eq_some_iff.mp stored
    rw [List.length_singleton] at last
    exact .inr ⟨by omega, by simp⟩

/-- A call of session `i` keeps all sessions sound if it keeps the files of the others and,
    unless it ends the session, its own. -/
theorem Sound.update {ds : DiskStore} {history : History} {s : Sessions} (sound : Sound ds history s)
    {i : Nat} {cw later : ChunkWriter} (found : s.writers[i]? = some cw) {disk : Disk}
    {entry : Action × Option GoError} (silent : ∀ j, j ≠ i → wroteBy j [entry] = [])
    (path : later.filepath = cw.filepath) (id : later.chunkId = cw.chunkId)
    (inode : later.file.inode = cw.file.inode) (live : later.isDone = false → cw.isDone = false)
    (others : ∀ j other, j ≠ i → s.Live j other → Untouched s.disk.files disk.files other)
    (own : later.isDone = false → Owns disk.files later ∧
      (Unbroken i (history ++ [entry]) →
        Holds disk.files later ∧ later.hasher = wroteBy i (history ++ [entry]))) :
    Sound ds (history ++ [entry]) ⟨disk, s.writers.set i later⟩ := by
  constructor
  · intro j other stored
    rcases getElem?_set_cases stored with ⟨rfl, rfl⟩ | ⟨_, stored⟩
    · rw [id, path]
      exact sound.temp j cw found
    · exact sound.temp j other stored
  · intro j other held
    obtain ⟨stored, alive⟩ := held
    rcases getElem?_set_cases stored with ⟨rfl, rfl⟩ | ⟨away, stored⟩
    · exact (own alive).1
    · exact (others j other away ⟨stored, alive⟩).owns
  · intro j k first second held beside distinct
    obtain ⟨left, alive⟩ := held
    obtain ⟨right, opened⟩ := beside
    rcases getElem?_set_cases left with ⟨rfl, rfl⟩ | ⟨_, former⟩ <;>
      rcases getElem?_set_cases right with ⟨rfl, rfl⟩ | ⟨_, latter⟩
    · exact absurd rfl distinct
    · rw [inode]
      exact sound.apart j k cw second ⟨found, live alive⟩ ⟨latter, opened⟩ distinct
    · rw [inode]
      exact sound.apart j k first cw ⟨former, alive⟩ ⟨found, live opened⟩ distinct
    · exact sound.apart j k first second ⟨former, alive⟩ ⟨latter, opened⟩ distinct
  · intro j other held unbroken
    obtain ⟨stored, alive⟩ := held
    rcases getElem?_set_cases stored with ⟨rfl, rfl⟩ | ⟨away, stored⟩
    · exact (own alive).2 unbroken
    · obtain ⟨holds, hashed⟩ := sound.holds j other ⟨stored, alive⟩ unbroken.of_append
      have untouched := others j other away ⟨stored, alive⟩
      refine ⟨⟨untouched.content.trans holds.content, holds.offset⟩, ?_⟩
      rw [wroteBy_append, silent j away, List.append_nil]
      exact hashed
  · intro j beyond
    rw [List.length_set] at beyond
    have inside := (List.getElem?_eq_some_iff.mp found).1
    have away : j ≠ i := by omega
    rw [wroteBy_append, silent j away, sound.unopened j beyond]
    rfl

theorem create_owns (files : FileSystem Path) (chunkId : GoString) (p : Path) :
    Owns (files.create p).1 ⟨p, (files.create p).2, chunkId, false, []⟩ ∧
      Holds (files.create p).1 ⟨p, (files.create p).2, chunkId, false, []⟩ := by
  unfold FileSystem.create
  cases linked : files.links p with
  | some i =>
    refine ⟨⟨files.allocated p i linked, ?_, ?_⟩, ?_, rfl⟩
    · intro q other
      exact files.unshared q p i other linked
    · intro j other
      exact Option.some.inj (other.symm.trans linked)
    · simp [FileSystem.setInode]
  | none =>
    refine ⟨⟨Nat.lt_succ_self _, ?_, ?_⟩, ?_, rfl⟩
    · intro q other
      simp only [FileSystem.createNew, Function.update_apply] at other
      split at other
      · assumption
      · exact absurd (files.allocated q _ other) (Nat.lt_irrefl _)
    · intro j other
      simpa [FileSystem.createNew] using other.symm
    · simp [FileSystem.createNew]

theorem create_untouched {files : FileSystem Path} {cw : ChunkWriter} (owns : Owns files cw) {p : Path}
    (away : p ≠ cw.filepath) :
    Untouched files (files.create p).1 cw ∧ cw.file.inode ≠ (files.create p).2.inode := by
  unfold FileSystem.create
  cases linked : files.links p with
  | some i =>
    have distinct : cw.file.inode ≠ i := by
      intro same
      subst same
      exact away (owns.only p linked)
    refine ⟨⟨⟨owns.allocated, owns.only, owns.same⟩, ?_⟩, distinct⟩
    simp [FileSystem.setInode, distinct]
  | none =>
    have distinct : cw.file.inode ≠ files.next := Nat.ne_of_lt owns.allocated
    refine ⟨⟨⟨Nat.lt_succ_of_lt owns.allocated, ?_, ?_⟩, ?_⟩, distinct⟩
    · intro q other
      simp only [FileSystem.createNew, Function.update_apply] at other
      split at other
      · exact absurd (Option.some.inj other).symm distinct
      · exact owns.only q other
    · intro j other
      simp only [FileSystem.createNew, Function.update_apply, if_neg (Ne.symm away)] at other
      exact owns.same j other
    · simp [FileSystem.createNew, distinct]

theorem newChunkWriter_ok {ds : DiskStore} {fault : Option GoError} {chunkId : GoString}
    {disk after : Disk} {cw : ChunkWriter}
    (ran : newChunkWriter ds fault chunkId disk = (.ok cw, after)) :
    ∃ p, ds.tempPath chunkId = .ok p ∧ cw = ⟨p, (disk.files.create p).2, chunkId, false, []⟩ ∧
      after.files = (disk.files.create p).1 := by
  unfold newChunkWriter at ran
  split at ran
  · cases ran
  · split at ran
    · cases ran
    · cases ran
    · rename_i p found
      cases ran
      exact ⟨p, found, rfl, rfl⟩

theorem newChunkWriter_error {ds : DiskStore} {fault : Option GoError} {chunkId : GoString}
    {disk after : Disk} {err : GoError}
    (ran : newChunkWriter ds fault chunkId disk = (.error err, after)) : after = disk := by
  unfold newChunkWriter at ran
  split at ran
  · cases ran
    rfl
  · split at ran <;> cases ran <;> rfl

theorem Sound.opened {ds : DiskStore} {history : History} {s : Sessions} (sound : Sound ds history s)
    {chunkId : GoString} {fault : Option GoError} {cw : ChunkWriter} {disk : Disk}
    (exclusive : Exclusive history s (.newChunkWriter chunkId fault))
    (ran : newChunkWriter ds fault chunkId s.disk = (.ok cw, disk)) :
    Sound ds (history ++ [(.newChunkWriter chunkId fault, none)]) ⟨disk, s.writers ++ [cw]⟩ := by
  obtain ⟨p, temp, rfl, files⟩ := newChunkWriter_ok ran
  obtain ⟨owns, holds⟩ := create_owns s.disk.files chunkId p
  have untouched (i : Nat) (other : ChunkWriter) (live : s.Live i other) :
      Untouched s.disk.files disk.files other ∧
        other.file.inode ≠ (s.disk.files.create p).2.inode := by
    rw [files]
    apply create_untouched (sound.owns i other live)
    intro same
    subst same
    have sameChunk := DiskStore.tempPath_injective (sound.temp i other live.1) temp
    have finished := exclusive other (List.mem_of_getElem? live.1) sameChunk
    exact absurd finished (by simp [live.2])
  have silent (i : Nat) : wroteBy i (history ++ [(.newChunkWriter chunkId fault, none)]) =
      wroteBy i history := by
    rw [wroteBy_append]
    exact List.append_nil _
  constructor
  · intro i other stored
    rcases getElem?_concat_cases stored with stored | ⟨_, rfl⟩
    · exact sound.temp i other stored
    · exact temp
  · intro i other held
    obtain ⟨stored, live⟩ := held
    rcases getElem?_concat_cases stored with stored | ⟨_, rfl⟩
    · exact (untouched i other ⟨stored, live⟩).1.owns
    · rw [files]
      exact owns
  · intro i j first second held beside distinct
    obtain ⟨left, live⟩ := held
    obtain ⟨right, alive⟩ := beside
    rcases getElem?_concat_cases left with left | ⟨rfl, rfl⟩ <;>
      rcases getElem?_concat_cases right with right | ⟨rfl, rfl⟩
    · exact sound.apart i j first second ⟨left, live⟩ ⟨right, alive⟩ distinct
    · exact (untouched i first ⟨left, live⟩).2
    · exact (untouched j second ⟨right, alive⟩).2.symm
    · exact absurd rfl distinct
  · intro i other held unbroken
    obtain ⟨stored, live⟩ := held
    rw [silent]
    rcases getElem?_concat_cases stored with stored | ⟨rfl, rfl⟩
    · obtain ⟨held, hashed⟩ := sound.holds i other ⟨stored, live⟩ unbroken.of_append
      have content := (untouched i other ⟨stored, live⟩).1.content
      exact ⟨⟨content.trans held.content, held.offset⟩, hashed⟩
    · rw [files]
      exact ⟨holds, (sound.unopened _ (Nat.le_refl _)).symm⟩
  · intro i beyond
    rw [silent]
    apply sound.unopened i
    simp only [List.length_append, List.length_singleton] at beyond
    omega

theorem write_owns {files : FileSystem Path} {cw : ChunkWriter} (owns : Owns files cw) (f : File)
    (data : List UInt8) : Owns (files.write f data).1 cw := ⟨owns.allocated, owns.only, owns.same⟩

theorem write_untouched {files : FileSystem Path} {cw : ChunkWriter} (owns : Owns files cw) {f : File}
    (apart : cw.file.inode ≠ f.inode) (data : List UInt8) :
    Untouched files (files.write f data).1 cw := by
  refine ⟨write_owns owns f data, ?_⟩
  simp [FileSystem.write, FileSystem.setInode, apart]

theorem put_holds {disk : Disk} {cw : ChunkWriter} (holds : Holds disk.files cw) (data : List UInt8) :
    Holds (cw.put data data disk).2.files (cw.put data data disk).1 := by
  refine ⟨?_, ?_⟩
  · simp only [ChunkWriter.put, FileSystem.write, FileSystem.setInode, Function.update_self]
    rw [holds.content, holds.offset, writeAt_end]
  · simp only [ChunkWriter.put, FileSystem.write, holds.offset, List.length_append]

theorem Sound.put {ds : DiskStore} {history : History} {s : Sessions} (sound : Sound ds history s)
    {i : Nat} {cw : ChunkWriter} (live : s.Live i cw) {data hashed handed : List UInt8}
    {fault : Option WriteFault} {result : Option GoError}
    (whole : result = none → data = handed ∧ hashed = handed) :
    Sound ds (history ++ [(.write i handed fault, result)])
      ⟨(cw.put data hashed s.disk).2, s.writers.set i (cw.put data hashed s.disk).1⟩ := by
  refine sound.update live.1 ?_ rfl rfl rfl (fun _ => live.2) ?_ ?_
  · intro j away
    cases result <;> simp [wroteBy, away.symm]
  · intro j other away alive
    exact write_untouched (sound.owns j other alive) (sound.apart j i other cw alive live away) data
  · intro _
    have owns := write_owns (sound.owns i cw live) cw.file data
    refine ⟨⟨owns.allocated, owns.only, owns.same⟩, ?_⟩
    intro unbroken
    cases result with
    | some err => exact absurd (by simp) (unbroken handed fault err)
    | none =>
      obtain ⟨rfl, rfl⟩ := whole rfl
      obtain ⟨holds, hashed⟩ := sound.holds i cw live unbroken.of_append
      refine ⟨put_holds holds _, ?_⟩
      rw [wroteBy_append]
      simp [ChunkWriter.put, wroteBy, hashed]

theorem Sound.write {ds : DiskStore} {history : History} {s : Sessions} (sound : Sound ds history s)
    {i : Nat} {cw : ChunkWriter} (found : s.writers[i]? = some cw) (data : List UInt8)
    (fault : Option WriteFault) :
    Sound ds (history ++ [(.write i data fault, (cw.write fault data s.disk).2)])
      ⟨(cw.write fault data s.disk).1.2, s.writers.set i (cw.write fault data s.disk).1.1⟩ := by
  unfold ChunkWriter.write
  cases done : cw.isDone with
  | true =>
    refine sound.update found ?_ rfl rfl rfl (fun live => live) ?_ ?_
    · intro j away
      rfl
    · intro j other _ alive
      exact .refl (sound.owns j other alive)
    · intro live
      exact absurd (done.symm.trans live) (by simp)
  | false =>
    cases fault with
    | none => exact sound.put ⟨found, done⟩ fun _ => ⟨rfl, rfl⟩
    | some fault =>
      cases fault with
      | short n err => exact sound.put ⟨found, done⟩ nofun
      | sync err => exact sound.put ⟨found, done⟩ nofun

theorem remove_untouched {before files : FileSystem Path} {cw : ChunkWriter}
    (untouched : Untouched before files cw) (p : Path) : Untouched before (files.remove p) cw := by
  have links (q : Path) (i : Nat) (linked : (files.remove p).links q = some i) :
      files.links q = some i := by
    simp only [FileSystem.remove, Function.update_apply] at linked
    split at linked
    · cases linked
    · exact linked
  refine ⟨⟨untouched.owns.allocated, ?_, ?_⟩, untouched.content⟩
  · intro q linked
    exact untouched.owns.only q (links q _ linked)
  · intro i linked
    exact untouched.owns.same i (links _ i linked)

theorem abort_untouched {before : FileSystem Path} {disk : Disk} {cw : ChunkWriter}
    (untouched : Untouched before disk.files cw) (aborted : ChunkWriter) (fault : Option GoError) :
    Untouched before (aborted.abort fault disk).2.files cw := by
  simp only [ChunkWriter.abort]
  split
  · exact remove_untouched untouched aborted.filepath
  · exact untouched

theorem move_untouched {files : FileSystem Path} {cw : ChunkWriter} (owns : Owns files cw)
    {src dst : Path} {i : Nat} (linked : files.links src = some i) (apart : cw.file.inode ≠ i)
    (away : dst ≠ cw.filepath) : Untouched files (files.move src dst i linked) cw := by
  refine ⟨⟨owns.allocated, ?_, ?_⟩, rfl⟩
  · intro q found
    simp only [FileSystem.move, Function.update_apply] at found
    split at found
    · exact absurd (Option.some.inj found).symm apart
    · split at found
      · cases found
      · exact owns.only q found
  · intro j found
    simp only [FileSystem.move, Function.update_apply, if_neg (Ne.symm away)] at found
    split at found
    · cases found
    · exact owns.same j found

theorem rename_untouched {ds : DiskStore} {history : History} {s : Sessions} (sound : Sound ds history s)
    {i j : Nat} {cw other : ChunkWriter} (live : s.Live i cw) (alive : s.Live j other) (away : j ≠ i)
    {faults : Faults RenameCall} {after : Disk} {result : Option GoError}
    (ran : ds.rename faults cw.filepath cw.chunkId s.disk = (after, result)) :
    Untouched s.disk.files after.files other := by
  rcases DiskStore.rename_cases ran with ⟨rfl, _⟩ | ⟨dest, inode, linked, chunk, files, _⟩
  · exact .refl (sound.owns j other alive)
  · rw [files]
    refine move_untouched (sound.owns j other alive) linked ?_ ?_
    · rw [(sound.owns i cw live).same inode linked]
      exact sound.apart j i other cw alive live away
    · exact DiskStore.pathForChunk_ne_tempPath chunk (sound.temp j other alive.1)

theorem Sound.finalize {ds : DiskStore} {history : History} {s : Sessions} (sound : Sound ds history s)
    {i : Nat} {cw later : ChunkWriter} (found : s.writers[i]? = some cw) {disk : Disk}
    {expected : List UInt8} {faults : Faults RenameCall} {removeFault result : Option GoError}
    (ran : cw.finalize ds faults removeFault expected s.disk = ((later, disk), result)) :
    Sound ds (history ++ [(.finalize i expected faults removeFault, result)])
      ⟨disk, s.writers.set i later⟩ := by
  cases done : cw.isDone with
  | true =>
    simp only [ChunkWriter.finalize, done, if_true] at ran
    cases ran
    refine sound.update found (fun _ _ => rfl) rfl rfl rfl (fun live => live) ?_ ?_
    · intro j other _ alive
      exact .refl (sound.owns j other alive)
    · intro live
      exact absurd (done.symm.trans live) (by simp)
  | false =>
    obtain ⟨rfl, files⟩ := ChunkWriter.finalize_cases done ran
    refine sound.update found (fun _ _ => rfl) rfl rfl rfl (fun _ => done) ?_ ?_
    · intro j other away alive
      rcases files with ⟨_, rfl⟩ | ⟨renamed, err, moved, ⟨_, _, _, rfl⟩ | ⟨_, rfl⟩⟩
      · exact abort_untouched (.refl (sound.owns j other alive)) cw removeFault
      · exact rename_untouched sound ⟨found, done⟩ alive away moved
      · exact abort_untouched (rename_untouched sound ⟨found, done⟩ alive away moved) cw removeFault
    · intro live
      cases live

theorem step_sound {ds : DiskStore} {history : History} {s later : Sessions} {action : Action}
    {result : Option GoError} (sound : Sound ds history s) (exclusive : Exclusive history s action)
    (step : Step ds s action result later) : Sound ds (history ++ [(action, result)]) later := by
  cases step with
  | opened chunkId fault cw disk ran => exact sound.opened exclusive ran
  | refused chunkId fault err disk ran =>
    obtain rfl := newChunkWriter_error ran
    refine ⟨sound.temp, sound.owns, sound.apart, ?_, ?_⟩
    · intro i cw live unbroken
      rw [wroteBy_append]
      simpa [wroteBy] using sound.holds i cw live unbroken.of_append
    · intro i beyond
      rw [wroteBy_append, sound.unopened i beyond]
      rfl
  | write i data fault cw found => exact sound.write found data fault
  | finalize i expected faults removeFault cw found later disk result ran => exact sound.finalize found ran
  | abort i fault cw found =>
    refine sound.update found (fun _ _ => rfl) rfl rfl rfl nofun ?_ nofun
    intro j other _ alive
    exact abort_untouched (.refl (sound.owns j other alive)) cw fault

theorem run_sound {ds : DiskStore} {start : Disk} {history : History} {s : Sessions}
    (run : Run ds Exclusive start history s) : Sound ds history s := by
  induction run with
  | start =>
    constructor
    · intro i cw found
      cases found
    · intro i cw held
      obtain ⟨found, _⟩ := held
      cases found
    · intro i j cw other held
      obtain ⟨found, _⟩ := held
      cases found
    · intro i cw held
      obtain ⟨found, _⟩ := held
      cases found
    · intro i _
      rfl
  | step _ met step ih => exact step_sound ih met step

/-- When `Finalize` returns nil in a run of exclusive sessions, the chunk file holds what the
    session wrote, and the index the expected checksum. -/
theorem committed_is_verified {ds : DiskStore} {start : Disk} {history : History} {s later : Sessions}
    (run : Run ds Exclusive start history s) {i : Nat} {expected : List UInt8}
    {faults : Faults RenameCall} {removeFault : Option GoError}
    (exclusive : Exclusive history s (.finalize i expected faults removeFault))
    (step : Step ds s (.finalize i expected faults removeFault) none later) :
    ∃ (cw : ChunkWriter) (path : Path), s.writers[i]? = some cw ∧ ds.pathForChunk cw.chunkId = .ok path ∧
      later.disk.files.read path = some (wroteBy i history) ∧
      later.disk.checksums.lookup cw.chunkId = some expected := by
  have sound := run_sound run
  cases step with
  | finalize _ _ _ _ cw found closed disk _ ran =>
    cases done : cw.isDone with
    | true =>
      simp only [ChunkWriter.finalize, done, if_true] at ran
      cases ran
    | false =>
      obtain ⟨rfl, ⟨failed, _⟩ | ⟨renamed, err, moved, ⟨_, rfl, matched, rfl⟩ | ⟨failed, _⟩⟩⟩ :=
        ChunkWriter.finalize_cases done ran
      · exact absurd rfl failed
      · rcases DiskStore.rename_cases moved with ⟨_, failed⟩ | ⟨dest, inode, linked, chunk, files, indexed⟩
        · exact absurd rfl failed
        · obtain ⟨holds, hashed⟩ := sound.holds i cw ⟨found, done⟩ exclusive
          obtain rfl := (sound.owns i cw ⟨found, done⟩).same inode linked
          refine ⟨cw, dest, found, chunk, ?_, ?_⟩
          · rw [files, FileSystem.read_move, holds.content, hashed]
          · rw [indexed rfl, holds.content]
            exact congrArg some matched
      · exact absurd rfl failed

def store : DiskStore := ⟨bytes "data", bytes "data/tmp", 2, 4294967296, by decide⟩

def chunk : GoString := bytes "ab12cd"

def writing (hashed : List UInt8) : ChunkWriter :=
  ⟨.join [bytes "data/tmp", chunk ++ bytes "..tmp"], ⟨0, hashed.length⟩, chunk, false, hashed⟩

def halfWay : Sessions :=
  ⟨((writing []).put [1, 2] [1, 2] (newChunkWriter store none chunk emptyDisk).2).2, [writing [1, 2]]⟩

def halfWayHistory : History := [(.newChunkWriter chunk none, none), (.write 0 [1, 2] none, none)]

theorem halfWay_run : Run store Exclusive emptyDisk halfWayHistory halfWay := by
  have started : Run store Exclusive emptyDisk [] ⟨emptyDisk, []⟩ := .start
  have free : Exclusive [] ⟨emptyDisk, []⟩ (.newChunkWriter chunk none) := by
    intro cw member
    cases member
  have opened := started.step free (.opened chunk none (writing []) _ rfl)
  exact opened.step trivial (.write 0 [1, 2] none (writing []) rfl)

def renamed (disk : Disk) : Disk × Option GoError :=
  store.rename (fun _ => none) (writing []).filepath chunk disk

theorem finalize_writing {s : Sessions} {hashed : List UInt8} (found : s.writers[0]? = some (writing hashed))
    (moved : (renamed s.disk).2 = none) :
    Step store s (.finalize 0 (Sha256.sum256 hashed) (fun _ => none) none) none
      ⟨(renamed s.disk).1, s.writers.set 0 { writing hashed with isDone := true }⟩ := by
  refine .finalize 0 _ _ _ (writing hashed) found _ _ _ ?_
  exact ChunkWriter.finalize_renamed rfl (Prod.ext rfl moved)

def secondChunk : GoString := bytes "ef34ab"

def secondWriting (hashed : List UInt8) : ChunkWriter :=
  ⟨.join [bytes "data/tmp", secondChunk ++ bytes "..tmp"], ⟨1, hashed.length⟩, secondChunk, false, hashed⟩

def interleaved : Sessions :=
  let opened := (newChunkWriter store none secondChunk halfWay.disk).2
  let first := ((secondWriting []).put [9] [9] opened).2
  ⟨((writing [1, 2]).put [3] [3] first).2, [writing [1, 2, 3], secondWriting [9]]⟩

def interleavedHistory : History := halfWayHistory ++ [(.newChunkWriter secondChunk none, none)] ++
  [(.write 1 [9] none, none)] ++ [(.write 0 [3] none, none)]

theorem interleaved_run : Run store Exclusive emptyDisk interleavedHistory interleaved := by
  have free : Exclusive halfWayHistory halfWay (.newChunkWriter secondChunk none) := by
    intro cw member same
    cases List.mem_singleton.mp member
    exact absurd same (by decide)
  have opened := halfWay_run.step free (.opened secondChunk none (secondWriting []) _ rfl)
  have wrote := opened.step (by trivial) (.write 1 [9] none (secondWriting []) rfl)
  exact wrote.step trivial (.write 0 [3] none (writing [1, 2]) rfl)

theorem committed_is_verified_interleaved :
    ∃ (cw : ChunkWriter) (path : Path), interleaved.writers[0]? = some cw ∧
      store.pathForChunk cw.chunkId = .ok path ∧
      (renamed interleaved.disk).1.files.read path = some (wroteBy 0 interleavedHistory) ∧
      wroteBy 0 interleavedHistory = [1, 2, 3] ∧
      (renamed interleaved.disk).1.checksums.lookup cw.chunkId = some (Sha256.sum256 [1, 2, 3]) := by
  have unbroken : Unbroken 0 interleavedHistory := by simp [Unbroken, interleavedHistory, halfWayHistory]
  obtain ⟨cw, path, found, chunk, read, indexed⟩ :=
    committed_is_verified interleaved_run unbroken (finalize_writing rfl (by decide +kernel))
  exact ⟨cw, path, found, chunk, read, rfl, indexed⟩

def reopened : Sessions :=
  ⟨(newChunkWriter store none chunk halfWay.disk).2, [writing [1, 2], writing []]⟩

def reopenedHistory : History := halfWayHistory ++ [(.newChunkWriter chunk none, none)]

theorem committed_not_verified_reopened :
    Run store (fun _ _ _ => True) emptyDisk reopenedHistory reopened ∧
      Step store reopened (.finalize 0 (Sha256.sum256 [1, 2]) (fun _ => none) none) none
        ⟨(renamed reopened.disk).1, [{ writing [1, 2] with isDone := true }, writing []]⟩ ∧
      wroteBy 0 reopenedHistory = [1, 2] ∧
      (∃ path, store.pathForChunk chunk = .ok path ∧
        (renamed reopened.disk).1.files.read path = some []) ∧
      (renamed reopened.disk).1.checksums.lookup chunk ≠ some (Sha256.sum256 [1, 2]) := by
  refine ⟨?_, finalize_writing rfl (by decide +kernel), rfl, ⟨_, rfl, by decide +kernel⟩, by decide +kernel⟩
  exact halfWay_run.relax.step trivial (.opened chunk none (writing []) _ rfl)

end DistributedFs.Storage
