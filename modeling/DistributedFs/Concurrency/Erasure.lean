import DistributedFs.Concurrency.Interference

namespace Concurrency

variable {σ L α : Type} {R : L → Type}

/-- How a run is compared with one that leaves out its hidden actions: what the states have in common,
    and the results of an action. -/
structure Erasure (σ L : Type) (R : L → Type) where
  hidden : L → Bool
  related : σ → σ → Prop
  same : (label : L) → R label → R label → Prop

namespace Erasure

variable (e : Erasure σ L R)

/-- The program does nothing hidden, and goes on alike after results that have as much in common. -/
def Blind : Prog L R → Prop
  | .done => True
  | .act label next => e.hidden label = false ∧
      (∀ first second, e.same label first second → next first = next second) ∧ ∀ result, Blind (next result)

def Silent : Prog L R → Prop
  | .done => True
  | .act label next => e.hidden label = true ∧ ∀ result, Silent (next result)

inductive Thins : List (Prog L R) → List (Prog L R) → Prop where
  | nil : Thins [] []
  | keep {prog : Prog L R} {procs others : List (Prog L R)} (blind : e.Blind prog) (rest : Thins procs others) :
    Thins (prog :: procs) (prog :: others)
  | drop {prog : Prog L R} {procs others : List (Prog L R)} (silent : e.Silent prog) (rest : Thins procs others) :
    Thins (prog :: procs) others

structure Unnoticed (world : World σ L R) : Prop where
  hidden : ∀ {label s later t result}, e.hidden label = true → e.related s t → world.exec label s result later →
    e.related later t
  visible : ∀ {label s later t result}, e.hidden label = false → e.related s t → world.exec label s result later →
    ∃ answer after, e.same label result answer ∧ world.exec label t answer after ∧ e.related later after
  spawn : ∀ {s later t prog}, e.related s t → world.spawn s prog later →
    (e.Silent prog ∧ e.related later t) ∨
      (e.Blind prog ∧ ∃ after, world.spawn t prog after ∧ e.related later after)

variable {e}

theorem Blind.andThen {prog last : Prog L R} (first : e.Blind prog) (rest : e.Blind last) :
    e.Blind (prog.andThen last) := by
  induction prog with
  | done => exact rest
  | act label next ih =>
    refine ⟨first.1, fun one other same => ?_, fun result => ih result (first.2.2 result)⟩
    show (next one).andThen last = (next other).andThen last
    rw [first.2.1 one other same]

theorem Thins.concat_keep {procs others : List (Prog L R)} {prog : Prog L R} (thins : e.Thins procs others)
    (blind : e.Blind prog) : e.Thins (procs ++ [prog]) (others ++ [prog]) := by
  induction thins with
  | nil => exact .keep blind .nil
  | keep own _ ih => exact .keep own ih
  | drop own _ ih => exact .drop own ih

theorem Thins.concat_drop {procs others : List (Prog L R)} {prog : Prog L R} (thins : e.Thins procs others)
    (silent : e.Silent prog) : e.Thins (procs ++ [prog]) others := by
  induction thins with
  | nil => exact .drop silent .nil
  | keep own _ ih => exact .keep own ih
  | drop own _ ih => exact .drop own ih

theorem Thins.find {procs others : List (Prog L R)} (thins : e.Thins procs others) {i : Nat} {prog : Prog L R}
    (running : procs[i]? = some prog) :
    (e.Silent prog ∧ ∀ next, e.Silent next → e.Thins (procs.set i next) others) ∨
      (e.Blind prog ∧ ∃ j, others[j]? = some prog ∧
        ∀ next, e.Blind next → e.Thins (procs.set i next) (others.set j next)) := by
  induction thins generalizing i with
  | nil => simp at running
  | @keep first procs others own rest ih =>
    cases i with
    | zero =>
      cases running
      exact .inr ⟨own, 0, rfl, fun next blind => .keep blind rest⟩
    | succ i =>
      rcases ih running with ⟨silent, dropped⟩ | ⟨blind, j, found, kept⟩
      · exact .inl ⟨silent, fun next still => .keep own (dropped next still)⟩
      · exact .inr ⟨blind, j + 1, found, fun next still => .keep own (kept next still)⟩
  | @drop first procs others own rest ih =>
    cases i with
    | zero =>
      cases running
      exact .inl ⟨own, fun next silent => .drop silent rest⟩
    | succ i =>
      rcases ih running with ⟨silent, dropped⟩ | ⟨blind, j, found, kept⟩
      · exact .inl ⟨silent, fun next still => .drop own (dropped next still)⟩
      · exact .inr ⟨blind, j, found, fun next still => .drop own (kept next still)⟩

theorem Unnoticed.steps {world : World σ L R} (unnoticed : e.Unnoticed world) {c last other : Config σ L R}
    {events : List (Event σ L R)} (steps : Steps world c events last) (related : e.related c.state other.state)
    (thins : e.Thins c.procs other.procs) :
    ∃ visible end', Steps world other visible end' ∧ e.related last.state end'.state ∧
      e.Thins last.procs end'.procs ∧
      visible.map Event.label = (events.map Event.label).filter fun label => !e.hidden label := by
  induction steps with
  | refl => exact ⟨[], other, .refl, related, thins, rfl⟩
  | spawn _ prog later allowed ih =>
    obtain ⟨visible, mid, run, states, procs, labels⟩ := ih
    rcases unnoticed.spawn states allowed with ⟨silent, after⟩ | ⟨blind, state, started, after⟩
    · exact ⟨visible, mid, run, after, procs.concat_drop silent, labels⟩
    · exact ⟨visible, _, run.spawn prog state started, after, procs.concat_keep blind, labels⟩
  | act _ i label next running result later ran ih =>
    obtain ⟨visible, mid, run, states, procs, labels⟩ := ih
    rcases procs.find running with ⟨silent, dropped⟩ | ⟨blind, j, found, kept⟩
    · refine ⟨visible, mid, run, unnoticed.hidden silent.1 states ran, dropped _ (silent.2 result), ?_⟩
      simp [labels, silent.1]
    · obtain ⟨answer, state, same, did, after⟩ := unnoticed.visible blind.1 states ran
      have alike : next result = next answer := blind.2.1 _ _ same
      refine ⟨_, _, run.act j label next found answer state did, after, ?_, ?_⟩
      · rw [alike]
        exact kept _ (blind.2.2 answer)
      · simp [labels, blind.1]

end Erasure

end Concurrency
