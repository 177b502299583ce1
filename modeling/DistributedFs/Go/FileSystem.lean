import DistributedFs.Go.Buffer
import Mathlib.Logic.Function.Basic

namespace Go

/-- Regular files: paths lead to inodes, and no two paths to the same one. An inode lives on
    without a path while it is open. -/
structure FileSystem (P : Type) where
  inodes : Nat → List UInt8
  next : Nat
  links : P → Option Nat
  allocated : ∀ p i, links p = some i → i < next
  unshared : ∀ p q i, links p = some i → links q = some i → p = q

structure File where
  inode : Nat
  offset : Nat

namespace FileSystem

variable {P : Type} [DecidableEq P]

def empty : FileSystem P := ⟨fun _ => [], 0, fun _ => none, by simp, by simp⟩

def setInode (fs : FileSystem P) (i : Nat) (content : List UInt8) : FileSystem P :=
  { fs with inodes := Function.update fs.inodes i content }

def createNew (fs : FileSystem P) (p : P) : FileSystem P where
  inodes := Function.update fs.inodes fs.next []
  next := fs.next + 1
  links := Function.update fs.links p (some fs.next)
  allocated q i linked := by
    simp only [Function.update_apply] at linked
    split at linked
    · cases linked
      omega
    · exact Nat.lt_succ_of_lt (fs.allocated q i linked)
  unshared q r i left right := by
    simp only [Function.update_apply] at left right
    split at left <;> split at right
    · simp_all
    · cases left
      exact absurd (fs.allocated r _ right) (Nat.lt_irrefl _)
    · cases right
      exact absurd (fs.allocated q _ left) (Nat.lt_irrefl _)
    · exact fs.unshared q r i left right

/-- `os.Create`: an existing file is truncated and keeps its inode. -/
def create (fs : FileSystem P) (p : P) : FileSystem P × File :=
  match fs.links p with
  | some i => (fs.setInode i [], ⟨i, 0⟩)
  | none => (fs.createNew p, ⟨fs.next, 0⟩)

def write (fs : FileSystem P) (f : File) (data : List UInt8) : FileSystem P × File :=
  (fs.setInode f.inode (writeAt (fs.inodes f.inode) f.offset data),
    { f with offset := f.offset + data.length })

def read (fs : FileSystem P) (p : P) : Option (List UInt8) := (fs.links p).map fs.inodes

def remove (fs : FileSystem P) (p : P) : FileSystem P where
  inodes := fs.inodes
  next := fs.next
  links := Function.update fs.links p none
  allocated q i linked := by
    simp only [Function.update_apply] at linked
    split at linked
    · cases linked
    · exact fs.allocated q i linked
  unshared q r i left right := by
    simp only [Function.update_apply] at left right
    split at left
    · cases left
    · split at right
      · cases right
      · exact fs.unshared q r i left right

def move (fs : FileSystem P) (src dst : P) (i : Nat) (linked : fs.links src = some i) :
    FileSystem P where
  inodes := fs.inodes
  next := fs.next
  links := Function.update (Function.update fs.links src none) dst (some i)
  allocated q j found := by
    simp only [Function.update_apply] at found
    split at found
    · cases found
      exact fs.allocated src i linked
    · split at found
      · cases found
      · exact fs.allocated q j found
  unshared q r j left right := by
    have only (p : P) (away : p ≠ src) (found : fs.links p = some i) : False :=
      away (fs.unshared p src i found linked)
    simp only [Function.update_apply] at left right
    split at left <;> split at right
    · simp_all
    · split at right
      · cases right
      · cases left
        exact (only r ‹_› right).elim
    · split at left
      · cases left
      · cases right
        exact (only q ‹_› left).elim
    · split at left
      · cases left
      · split at right
        · cases right
        · exact fs.unshared q r j left right

def rename (fs : FileSystem P) (src dst : P) : Option (FileSystem P) :=
  match linked : fs.links src with
  | none => none
  | some i => some (fs.move src dst i linked)

def writeFile (fs : FileSystem P) (p : P) (data : List UInt8) : FileSystem P :=
  let created := fs.create p
  (created.1.write created.2 data).1

theorem rename_eq_some {fs files : FileSystem P} {src dst : P}
    (moved : fs.rename src dst = some files) :
    ∃ i, ∃ linked : fs.links src = some i, files = fs.move src dst i linked := by
  unfold rename at moved
  split at moved
  · cases moved
  · rename_i i linked
    cases moved
    exact ⟨i, linked, rfl⟩

theorem read_move (fs : FileSystem P) (src dst : P) (i : Nat) (linked : fs.links src = some i) :
    (fs.move src dst i linked).read dst = some (fs.inodes i) := by
  simp [read, move]

theorem read_move_apply (fs : FileSystem P) (src dst : P) (i : Nat) (linked : fs.links src = some i)
    (q : P) : (fs.move src dst i linked).read q =
      if q = dst then fs.read src else if q = src then none else fs.read q := by
  by_cases atDst : q = dst
  · subst atDst
    simp [read, move, linked]
  · by_cases atSrc : q = src
    · subst atSrc
      simp [read, move, atDst]
    · simp [read, move, atDst, atSrc]

theorem rename_of_read {fs : FileSystem P} {src : P} {content : List UInt8}
    (present : fs.read src = some content) (dst : P) :
    ∃ files, fs.rename src dst = some files ∧ ∀ q, files.read q =
      if q = dst then some content else if q = src then none else fs.read q := by
  cases linked : fs.links src with
  | none => simp [read, linked] at present
  | some i =>
    refine ⟨fs.move src dst i linked, ?_, ?_⟩
    · unfold rename
      split
      · rename_i none
        cases none.symm.trans linked
      · rename_i j found
        cases found.symm.trans linked
        rfl
    · intro q
      rw [read_move_apply, present]

theorem read_remove (fs : FileSystem P) (p q : P) :
    (fs.remove p).read q = if q = p then none else fs.read q := by
  by_cases here : q = p
  · simp [read, remove, here]
  · simp [read, remove, here]

theorem read_setInode {fs : FileSystem P} {p : P} {i : Nat} (linked : fs.links p = some i)
    (content : List UInt8) (q : P) :
    (fs.setInode i content).read q = if q = p then some content else fs.read q := by
  by_cases here : q = p
  · subst here
    simp [read, setInode, linked]
  · simp only [read, setInode, if_neg here]
    cases other : fs.links q with
    | none => rfl
    | some j =>
      have apart : j ≠ i := by
        intro same
        subst same
        exact here (fs.unshared q p j other linked)
      simp [apart]

theorem links_create (fs : FileSystem P) (p : P) :
    (fs.create p).1.links p = some (fs.create p).2.inode := by
  unfold create
  cases linked : fs.links p with
  | none => simp [createNew]
  | some i => simp [setInode, linked]

theorem read_create (fs : FileSystem P) (p q : P) :
    (fs.create p).1.read q = if q = p then some [] else fs.read q := by
  unfold create
  cases linked : fs.links p with
  | some i => exact read_setInode linked [] q
  | none =>
    by_cases here : q = p
    · subst here
      simp [read, createNew]
    · simp only [read, createNew, Function.update_apply, if_neg here]
      cases other : fs.links q with
      | none => rfl
      | some j =>
        have apart : j ≠ fs.next := Nat.ne_of_lt (fs.allocated q j other)
        simp [apart]

theorem read_write {fs : FileSystem P} {p : P} {f : File} (linked : fs.links p = some f.inode)
    (data : List UInt8) (q : P) : (fs.write f data).1.read q =
      if q = p then some (writeAt (fs.inodes f.inode) f.offset data) else fs.read q :=
  read_setInode linked _ q

theorem read_writeFile (fs : FileSystem P) (p : P) (data : List UInt8) (q : P) :
    (fs.writeFile p data).read q = if q = p then some data else fs.read q := by
  have empty : (fs.create p).1.inodes (fs.create p).2.inode = [] := by
    have read := read_create fs p p
    simpa [FileSystem.read, links_create] using read
  have start : (fs.create p).2.offset = 0 := by
    unfold create
    split <;> rfl
  unfold writeFile
  rw [read_write (links_create fs p), read_create, empty, start]
  by_cases here : q = p
  · simp only [here, if_true]
    exact congrArg some (writeAt_end [] data)
  · simp only [if_neg here]

end FileSystem

end Go
