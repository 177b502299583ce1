import Mathlib.Algebra.BigOperators.Group.List.Basic
import Mathlib.Logic.Relation
import Mathlib.Order.WellFounded
import Mathlib.Tactic.Ring

namespace Concurrency

variable {ι σ φ : Type}

/-- A loop that starts one worker for each item, in order, and has at most `limit` of them in hand: a
    worker goes through its phases by steps that may touch the shared state, and leaves at the end.
    `left` bounds its steps. -/
structure Workers (ι σ φ : Type) where
  items : List ι
  limit : Nat
  fresh : ι → φ
  released : φ → Bool
  act : Nat → σ → φ → σ → φ → Prop
  left : φ → Nat
  size : Nat
  busy : ∀ i, released (fresh i) = false
  fits : ∀ i, left (fresh i) ≤ size
  live : ∀ k s x, released x = false → ∃ t y, act k s x t y
  ends : ∀ k s x t y, act k s x t y → released x = false
  less : ∀ k s x t y, act k s x t y → left y < left x

structure Pool (σ φ : Type) where
  shared : σ
  workers : List φ

namespace Workers

variable (w : Workers ι σ φ)

def active (xs : List φ) : Nat := xs.countP fun x => !w.released x

inductive Step : Pool σ φ → Pool σ φ → Prop where
  | start {p : Pool σ φ} {i : ι} (next : w.items[p.workers.length]? = some i)
    (room : w.active p.workers < w.limit) : Step p { p with workers := p.workers ++ [w.fresh i] }
  | act {s t : σ} {x y : φ} (before after : List φ) (acts : w.act before.length s x t y) :
    Step ⟨s, before ++ x :: after⟩ ⟨t, before ++ y :: after⟩

abbrev Reachable (s : σ) : Pool σ φ → Prop := Relation.ReflTransGen w.Step ⟨s, []⟩

def weight (p : Pool σ φ) : Nat :=
  (w.items.length - p.workers.length) * (w.size + 1) + (p.workers.map w.left).sum

variable {w} {p q : Pool σ φ} {s : σ}

theorem Step.weight_lt (step : w.Step p q) : w.weight q < w.weight p := by
  cases step with
  | @start _ i next room =>
    have more : p.workers.length < w.items.length := (List.getElem?_eq_some_iff.mp next).1
    obtain ⟨k, rest⟩ : ∃ k, w.items.length - p.workers.length = k + 1 :=
      ⟨w.items.length - p.workers.length - 1, by omega⟩
    have fewer : w.items.length - (p.workers ++ [w.fresh i]).length = k := by
      rw [List.length_append, List.length_singleton]
      omega
    simp only [weight, fewer, rest, List.map_append, List.sum_append, List.map_cons, List.map_nil,
      List.sum_cons, List.sum_nil]
    have share : (k + 1) * (w.size + 1) = k * (w.size + 1) + (w.size + 1) := by ring
    have fits := w.fits i
    omega
  | act before after acts =>
    have fewer := w.less _ _ _ _ _ acts
    simp only [weight, List.length_append, List.length_cons, List.map_append, List.sum_append, List.map_cons,
      List.sum_cons]
    omega

theorem wellFounded (w : Workers ι σ φ) : WellFounded fun q p => w.Step p q :=
  Subrelation.wf (fun step => Step.weight_lt step) (measure w.weight).wf

theorem active_append (xs ys : List φ) : w.active (xs ++ ys) = w.active xs + w.active ys := List.countP_append

theorem active_cons (x : φ) (xs : List φ) : w.active (x :: xs) = w.active xs + if w.released x then 0 else 1 := by
  unfold active
  rw [List.countP_cons]
  cases w.released x with
  | true => rfl
  | false => rfl

theorem Step.bounded (step : w.Step p q) (before : p.workers.length ≤ w.items.length ∧ w.active p.workers ≤ w.limit) :
    q.workers.length ≤ w.items.length ∧ w.active q.workers ≤ w.limit := by
  cases step with
  | start next room =>
    have more : p.workers.length < w.items.length := (List.getElem?_eq_some_iff.mp next).1
    rw [List.length_append, List.length_singleton, active_append, active_cons, w.busy]
    have none : w.active [] = 0 := rfl
    simp only [none, Bool.false_eq_true, if_false]
    omega
  | act front back acts =>
    have busy := w.ends _ _ _ _ _ acts
    obtain ⟨length, active⟩ := before
    rw [active_append, active_cons, busy] at active
    rw [active_append, active_cons]
    simp only [List.length_append, List.length_cons] at length ⊢
    refine ⟨length, ?_⟩
    split
    · simp only [Bool.false_eq_true, if_false] at active
      omega
    · simpa using active

theorem Reachable.bounded (reached : w.Reachable s p) : p.workers.length ≤ w.items.length ∧ w.active p.workers ≤ w.limit := by
  induction reached with
  | refl => exact ⟨Nat.zero_le _, Nat.zero_le _⟩
  | tail _ step ih => exact step.bounded ih

theorem released_of_stuck (stuck : ∀ q, ¬w.Step p q) : ∀ x ∈ p.workers, w.released x = true := by
  intro x member
  by_contra busy
  obtain ⟨before, after, split⟩ := List.append_of_mem member
  obtain ⟨t, y, acts⟩ := w.live before.length p.shared x (Bool.not_eq_true _ ▸ busy)
  apply stuck ⟨t, before ++ y :: after⟩
  rw [show p = ⟨p.shared, p.workers⟩ from rfl, split]
  exact .act before after acts

theorem complete_of_stuck (reached : w.Reachable s p) (room : 0 < w.limit) (stuck : ∀ q, ¬w.Step p q) :
    p.workers.length = w.items.length ∧ ∀ x ∈ p.workers, w.released x = true := by
  have left := released_of_stuck stuck
  refine ⟨?_, left⟩
  by_contra short
  have more : p.workers.length < w.items.length := lt_of_le_of_ne reached.bounded.1 short
  have idle : w.active p.workers = 0 := by
    unfold active
    rw [List.countP_eq_zero]
    intro x member
    simp [left x member]
  exact stuck _ (.start (List.getElem?_eq_getElem more) (by omega))

theorem Reachable.none_of_no_room (reached : w.Reachable s p) (room : w.limit = 0) : p = ⟨s, []⟩ := by
  induction reached with
  | refl => rfl
  | tail _ step ih =>
    subst ih
    generalize begin : (⟨s, []⟩ : Pool σ φ) = p at step
    cases step with
    | start next free => omega
    | act before after acts =>
      have none := congrArg Pool.workers begin
      simp at none

theorem perm_middle_concat {α : Type} {xs front back : List α} (same : xs.Perm (front ++ back)) (a : α) :
    (xs ++ [a]).Perm (front ++ a :: back) :=
  (List.perm_append_singleton a xs).trans ((same.cons a).trans List.perm_middle.symm)

end Workers

end Concurrency
