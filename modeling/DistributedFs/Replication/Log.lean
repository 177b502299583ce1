import Mathlib.Order.Basic
import Mathlib.Data.Nat.Init

namespace Replication

/-! Runs of a machine that applies a log entry by entry. The step may depend on the
position of the entry, through which choices outside the log enter a run. -/

variable {σ τ κ α : Type}

def run (step : Nat → σ → κ → σ × α) (s : σ) : List κ → σ × List α
  | [] => (s, [])
  | entry :: rest =>
    let after := step 0 s entry
    let last := run (fun i => step (i + 1)) after.1 rest
    (last.1, after.2 :: last.2)

theorem run_append (step : Nat → σ → κ → σ × α) (s : σ) (first second : List κ) :
    run step s (first ++ second) =
      ((run (fun i => step (first.length + i)) (run step s first).1 second).1,
        (run step s first).2 ++
          (run (fun i => step (first.length + i)) (run step s first).1 second).2) := by
  induction first generalizing step s with
  | nil => simp [run]
  | cons entry rest ih =>
    have shifted : (fun i => step (rest.length + i + 1)) = fun i => step (rest.length + 1 + i) := by
      funext i
      congr 1
      omega
    simp only [List.cons_append, run, ih, List.length_cons]
    rw [shifted]

def EveryStep (step : Nat → σ → κ → σ × α) (ok : σ → κ → Prop) (s : σ) : List κ → Prop
  | [] => True
  | entry :: rest =>
    ok s entry ∧ EveryStep (fun i => step (i + 1)) ok (step 0 s entry).1 rest

/-- Two machines in step: from related states they return the same result and come to
    related states, hence so do their runs on one log. -/
theorem run_simulation {step : Nat → σ → κ → σ × α} {step' : Nat → τ → κ → τ × α}
    {ok : σ → κ → Prop} {R : σ → τ → Prop}
    (simulates : ∀ i s t entry, ok s entry → R s t →
      R (step i s entry).1 (step' i t entry).1 ∧ (step i s entry).2 = (step' i t entry).2)
    {s : σ} {t : τ} {log : List κ} (related : R s t) (every : EveryStep step ok s log) :
    R (run step s log).1 (run step' t log).1 ∧ (run step s log).2 = (run step' t log).2 := by
  induction log generalizing step step' s t with
  | nil => exact ⟨related, rfl⟩
  | cons entry rest ih =>
    obtain ⟨later, same⟩ := simulates 0 s t entry every.1 related
    obtain ⟨last, results⟩ := ih (fun i => simulates (i + 1)) later every.2
    exact ⟨last, List.cons_eq_cons.mpr ⟨same, results⟩⟩

theorem everyStep_true (step : Nat → σ → κ → σ × α) (s : σ) (log : List κ) :
    EveryStep step (fun _ _ => True) s log := by
  induction log generalizing step s with
  | nil => trivial
  | cons entry rest ih => exact ⟨trivial, ih _ _⟩

def stateAt (step : Nat → σ → κ → σ × α) (s : σ) (log : List κ) (k : Nat) : σ := (run step s (log.take k)).1

theorem stateAt_succ (step : Nat → σ → κ → σ × α) (s : σ) {log : List κ} {k : Nat} {entry : κ}
    (here : log[k]? = some entry) :
    stateAt step s log (k + 1) = (step k (stateAt step s log k) entry).1 := by
  have inside : k < log.length := by
    by_contra outside
    rw [List.getElem?_eq_none (Nat.le_of_not_lt outside)] at here
    cases here
  have reached : (log.take k).length = k := by
    rw [List.length_take]
    omega
  unfold stateAt
  rw [List.take_add_one, here, run_append]
  simp only [Option.toList_some, run, Nat.add_zero, reached]

theorem stateAt_past (step : Nat → σ → κ → σ × α) (s : σ) {log : List κ} {k : Nat} (past : log[k]? = none) :
    stateAt step s log (k + 1) = stateAt step s log k := by
  unfold stateAt
  rw [List.take_add_one, past, Option.toList_none, List.append_nil]

theorem stateAt_keeps {step : Nat → σ → κ → σ × α} {s : σ} {log : List κ} {P : σ → Prop} {j : Nat}
    (each : ∀ k entry, j ≤ k → log[k]? = some entry → P (stateAt step s log k) →
      P (step k (stateAt step s log k) entry).1)
    (start : P (stateAt step s log j)) {k : Nat} (later : j ≤ k) : P (stateAt step s log k) := by
  induction k, later using Nat.le_induction with
  | base => exact start
  | succ k later ih =>
    cases here : log[k]? with
    | none => rwa [stateAt_past step s here]
    | some entry =>
      rw [stateAt_succ step s here]
      exact each k entry later here ih

end Replication
