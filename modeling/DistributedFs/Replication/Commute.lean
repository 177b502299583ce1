import DistributedFs.Replication.Log

namespace Replication

/-! An interleaving of two logs is one list whose entries say which log they come from. -/

variable {σ κ α : Type}

def fromLeft (log : List (κ ⊕ κ)) : List κ := log.filterMap Sum.getLeft?

def fromRight (log : List (κ ⊕ κ)) : List κ := log.filterMap Sum.getRight?

def merged (log : List (κ ⊕ κ)) : List κ := log.map (Sum.elim id id)

@[simp] theorem fromLeft_nil : fromLeft ([] : List (κ ⊕ κ)) = [] := rfl

@[simp] theorem fromRight_nil : fromRight ([] : List (κ ⊕ κ)) = [] := rfl

@[simp] theorem fromLeft_inl (a : κ) (log : List (κ ⊕ κ)) : fromLeft (.inl a :: log) = a :: fromLeft log := rfl

@[simp] theorem fromLeft_inr (b : κ) (log : List (κ ⊕ κ)) : fromLeft (.inr b :: log) = fromLeft log := rfl

@[simp] theorem fromRight_inl (a : κ) (log : List (κ ⊕ κ)) : fromRight (.inl a :: log) = fromRight log := rfl

@[simp] theorem fromRight_inr (b : κ) (log : List (κ ⊕ κ)) :
    fromRight (.inr b :: log) = b :: fromRight log := rfl

@[simp] theorem merged_cons (entry : κ ⊕ κ) (log : List (κ ⊕ κ)) :
    merged (entry :: log) = entry.elim id id :: merged log := rfl

def resultsBySide : List (κ ⊕ κ) → List α → List α × List α
  | .inl _ :: rest, result :: results =>
    let others := resultsBySide rest results
    (result :: others.1, others.2)
  | .inr _ :: rest, result :: results =>
    let others := resultsBySide rest results
    (others.1, result :: others.2)
  | _, _ => ([], [])

/-- Entries of the two kinds commute in the states of `inv`, which both kinds keep: each
    returns what it returns without the other, and the state does not show their order. -/
structure Commuting (step : σ → κ → σ × α) (inv : σ → Prop) (left right : κ → Prop) : Prop where
  keepsLeft : ∀ {s a}, inv s → left a → inv (step s a).1
  keepsRight : ∀ {s b}, inv s → right b → inv (step s b).1
  state : ∀ {s a b}, inv s → left a → right b →
    (step (step s b).1 a).1 = (step (step s a).1 b).1
  leftResult : ∀ {s a b}, inv s → left a → right b → (step (step s b).1 a).2 = (step s a).2
  rightResult : ∀ {s a b}, inv s → left a → right b → (step (step s a).1 b).2 = (step s b).2

variable {step : σ → κ → σ × α} {inv : σ → Prop} {left right : κ → Prop}

theorem Commuting.past (commuting : Commuting step inv left right) {s : σ} (holds : inv s)
    {log : List κ} (all : ∀ a ∈ log, left a) {b : κ} (other : right b) :
    (run (fun _ => step) (step s b).1 log).1 = (step (run (fun _ => step) s log).1 b).1 ∧
      (run (fun _ => step) (step s b).1 log).2 = (run (fun _ => step) s log).2 ∧
      (step (run (fun _ => step) s log).1 b).2 = (step s b).2 := by
  induction log generalizing s with
  | nil => exact ⟨rfl, rfl, rfl⟩
  | cons a rest ih =>
    have first : left a := all a (by simp)
    obtain ⟨state, results, result⟩ :=
      ih (commuting.keepsLeft holds first) fun a member => all a (by simp [member])
    simp only [run]
    rw [commuting.state holds first other, commuting.leftResult holds first other, results]
    exact ⟨state, rfl, result.trans (commuting.rightResult holds first other)⟩

/-- Every interleaving of commuting logs ends like the left log followed by the right one, and
    gives every entry the result it has there. -/
theorem Commuting.interleaving (commuting : Commuting step inv left right) {s : σ} (holds : inv s)
    {log : List (κ ⊕ κ)} (lefts : ∀ a ∈ fromLeft log, left a) (rights : ∀ b ∈ fromRight log, right b) :
    (run (fun _ => step) s (merged log)).1 =
        (run (fun _ => step) (run (fun _ => step) s (fromLeft log)).1 (fromRight log)).1 ∧
      resultsBySide log (run (fun _ => step) s (merged log)).2 =
        ((run (fun _ => step) s (fromLeft log)).2,
          (run (fun _ => step) (run (fun _ => step) s (fromLeft log)).1 (fromRight log)).2) := by
  induction log generalizing s with
  | nil => exact ⟨rfl, rfl⟩
  | cons entry rest ih =>
    cases entry with
    | inl a =>
      rw [fromLeft_inl] at lefts
      rw [fromRight_inl] at rights
      have first : left a := lefts a List.mem_cons_self
      have others : ∀ a ∈ fromLeft rest, left a := fun a member => lefts a (List.mem_cons_of_mem _ member)
      obtain ⟨state, results⟩ := ih (commuting.keepsLeft holds first) others rights
      simp only [merged_cons, Sum.elim_inl, id, fromLeft_inl, fromRight_inl, run, resultsBySide, results]
      exact ⟨state, trivial⟩
    | inr b =>
      rw [fromLeft_inr] at lefts
      rw [fromRight_inr] at rights
      have first : right b := rights b List.mem_cons_self
      have others : ∀ b ∈ fromRight rest, right b := fun b member => rights b (List.mem_cons_of_mem _ member)
      obtain ⟨state, results⟩ := ih (commuting.keepsRight holds first) lefts others
      -- the entry that comes first moves behind the whole left log
      obtain ⟨past, same, result⟩ := commuting.past holds lefts first
      rw [past] at state results
      rw [same] at results
      simp only [merged_cons, Sum.elim_inr, id, fromLeft_inr, fromRight_inr, run, resultsBySide, results,
        result]
      exact ⟨state, trivial⟩

end Replication
