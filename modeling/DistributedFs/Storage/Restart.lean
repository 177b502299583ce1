import DistributedFs.Storage.Sessions
import DistributedFs.Storage.StoreRuns

namespace DistributedFs.Storage

open Go WeightedMap DiskStore

/-- A call, or the process ends and a new `DiskStore` is built over the same directory and
    the same index. -/
inductive Event (ds : DiskStore) where
  | call (op : Op ds)
  | reopen

variable {ds : DiskStore}

def Event.step (disk : Disk) : Event ds → Disk
  | .call op => (op.step disk).1
  | .reopen => newDiskStore disk.files disk.checksums

def stateAfter (files : FileSystem Path) (events : List (Event ds)) : Disk :=
  events.foldl Event.step (newDiskStore files ∅)

structure Accounted (ds : DiskStore) (disk : Disk) : Prop where
  size : (DiskStore.size disk).toNat = storedTotal ds disk
  freeSpace : (ds.freeSpace disk).toNat = ds.totalSpace.toNat - storedTotal ds disk
  bounded : storedTotal ds disk ≤ ds.totalSpace.toNat
  noWrap : ∀ op : Op ds, NoWrap (op.subtractions (op.prepare disk))

theorem Represents.accounted {disk : Disk} {m : Contents ds} (repr : Represents ds disk m) :
    Accounted ds disk := by
  have behaves := repr.behaves
  have total := repr.storedTotal_eq
  have used : (DiskStore.size disk).toNat = m.size := repr.used
  refine ⟨used.trans total.symm, ?_, ?_, behaves.noWrap⟩
  · rw [behaves.freeSpace, used, total]
  · rw [total]
    exact m.bounded

theorem Represents.reopen {disk : Disk} {m : Contents ds} (repr : Represents ds disk m)
    (nothing : storedTotal ds disk = 0) :
    Represents ds (newDiskStore disk.files disk.checksums) m where
  indexed := repr.indexed
  stored := repr.stored
  used := by
    rw [← repr.storedTotal_eq, nothing]
    rfl

def ReopenedEmpty (files : FileSystem Path) (events : List (Event ds)) : Prop :=
  ∀ before, before ++ [.reopen] <+: events → storedTotal ds (stateAfter files before) = 0

theorem stateAfter_represents (files : FileSystem Path) (events : List (Event ds))
    (empty : ReopenedEmpty files events) : ∃ m, Represents ds (stateAfter files events) m := by
  induction events using List.reverseRecOn with
  | nil => exact ⟨_, Represents.fresh ds files⟩
  | append_singleton before event ih =>
    have earlier : ReopenedEmpty files before := by
      intro front reached
      exact empty front (reached.trans (List.prefix_append before [event]))
    obtain ⟨m, repr⟩ := ih earlier
    rw [stateAfter, List.foldl_append]
    cases event with
    | call op =>
      obtain ⟨after, stepped, held, _⟩ := repr.call op
      show ∃ m, Represents ds (op.step (stateAfter files before)).1 m
      rw [stepped]
      exact ⟨_, held⟩
    | reopen => exact ⟨m, repr.reopen (empty before (List.prefix_refl _))⟩

/-- The accounting is right in every state of a run if and only if the run reopens the store
    only while it holds no bytes. -/
theorem accounted_iff_reopened_empty (files : FileSystem Path) (events : List (Event ds)) :
    (∀ before, before <+: events → Accounted ds (stateAfter files before)) ↔
      ReopenedEmpty files events := by
  constructor
  · intro accounted before reached
    have after := (accounted _ reached).size
    rw [stateAfter, List.foldl_append] at after
    exact after.symm
  · intro empty before reached
    have earlier : ReopenedEmpty files before := fun front inside => empty front (inside.trans reached)
    obtain ⟨m, repr⟩ := stateAfter_represents files before earlier
    exact repr.accounted

theorem threeBytes_short : ([1, 2, 3] : List UInt8).length < 2 ^ 63 := by decide

def reopenedRun : List (Event store) := [.call (.write chunk ⟨[1, 2, 3], threeBytes_short⟩), .reopen]

/-- The reopened store takes its three bytes for none, and a later overwrite with one byte
    leaves the counter below zero. -/
theorem not_accounted_reopenedRun :
    (¬∀ before, before <+: reopenedRun → Accounted store (stateAfter .empty before)) ∧
      DiskStore.size (stateAfter .empty (reopenedRun ++ [.call (.write chunk ⟨[1], by decide⟩)])) =
        18446744073709551614 := by
  constructor
  · intro accounted
    have size := (accounted _ (List.prefix_refl _)).size
    revert size
    decide +kernel
  · decide +kernel

end DistributedFs.Storage
