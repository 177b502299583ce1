namespace Concurrency

/-- A sequential program as its atomic actions: each is a label, and the result of an
    action decides how the program goes on. -/
inductive Prog (L : Type) (R : L → Type) where
  | done
  | act (label : L) (next : R label → Prog L R)

variable {L : Type} {R : L → Type} {σ α : Type}

namespace Prog

def andThen : Prog L R → Prog L R → Prog L R
  | done, last => last
  | act label next, last => act label fun result => (next result).andThen last

def forEach (body : α → Prog L R) : List α → Prog L R
  | [] => done
  | item :: rest => (body item).andThen (forEach body rest)

def runAlone (exec : (label : L) → σ → R label × σ) : Prog L R → σ → List (σ × L) × σ
  | done, s => ([], s)
  | act label next, s =>
    let rest := (next (exec label s).1).runAlone exec (exec label s).2
    ((s, label) :: rest.1, rest.2)

end Prog

structure Config (σ L : Type) (R : L → Type) where
  state : σ
  procs : List (Prog L R)

/-- What an action may return and do to the state, and which programs may be started. -/
structure World (σ L : Type) (R : L → Type) where
  exec : (label : L) → σ → R label → σ → Prop
  spawn : σ → Prog L R → σ → Prop

/-- The runs of a world: programs are started, and their actions interleave freely. The
    trace holds every action with the state it met. -/
inductive Run (world : World σ L R) (start : σ) : List (σ × L) → Config σ L R → Prop where
  | start : Run world start [] ⟨start, []⟩
  | spawn {trace : List (σ × L)} {c : Config σ L R} (before : Run world start trace c)
    (prog : Prog L R) (later : σ) (allowed : world.spawn c.state prog later) :
    Run world start trace ⟨later, c.procs ++ [prog]⟩
  | act {trace : List (σ × L)} {c : Config σ L R} (before : Run world start trace c) (i : Nat)
    (label : L) (next : R label → Prog L R) (running : c.procs[i]? = some (.act label next))
    (result : R label) (later : σ) (ran : world.exec label c.state result later) :
    Run world start (trace ++ [(c.state, label)]) ⟨later, c.procs.set i (next result)⟩

theorem concat_cases {whole pre post : List α} {item last : α} (split : whole ++ [last] = pre ++ item :: post) :
    (post = [] ∧ item = last ∧ pre = whole) ∨ ∃ rest, post = rest ++ [last] ∧ whole = pre ++ item :: rest := by
  rcases List.eq_nil_or_concat post with rfl | ⟨rest, final, rfl⟩
  · obtain ⟨front, back⟩ := List.append_inj' split rfl
    cases back
    exact .inl ⟨rfl, rfl, front.symm⟩
  · rw [List.concat_eq_append, ← List.cons_append, ← List.append_assoc] at split
    obtain ⟨front, back⟩ := List.append_inj' split rfl
    cases back
    exact .inr ⟨rest, List.concat_eq_append, front⟩

theorem Run.runAlone {world : World σ L R} {start : σ} {exec : (label : L) → σ → R label × σ}
    (may : ∀ label s, world.exec label s (exec label s).1 (exec label s).2) (prog : Prog L R)
    {trace : List (σ × L)} {c : Config σ L R} (run : Run world start trace c) {i : Nat}
    (running : c.procs[i]? = some prog) :
    ∃ procs, Run world start (trace ++ (prog.runAlone exec c.state).1)
      ⟨(prog.runAlone exec c.state).2, procs⟩ := by
  induction prog generalizing trace c with
  | done => exact ⟨c.procs, by simpa [Prog.runAlone] using run⟩
  | act label next ih =>
    have stepped := run.act i label next running _ _ (may label c.state)
    have inside := (List.getElem?_eq_some_iff.mp running).1
    obtain ⟨procs, finished⟩ := ih _ stepped (List.getElem?_set_self inside)
    refine ⟨procs, ?_⟩
    simpa only [Prog.runAlone, List.append_assoc, List.singleton_append] using finished

theorem Run.call {world : World σ L R} {start : σ} {exec : (label : L) → σ → R label × σ}
    (may : ∀ label s, world.exec label s (exec label s).1 (exec label s).2) {prog : Prog L R}
    {trace : List (σ × L)} {s later : σ} (run : ∃ procs, Run world start trace ⟨s, procs⟩)
    (allowed : world.spawn s prog later) :
    ∃ procs, Run world start (trace ++ (prog.runAlone exec later).1)
      ⟨(prog.runAlone exec later).2, procs⟩ := by
  obtain ⟨procs, run⟩ := run
  exact (run.spawn prog later allowed).runAlone may prog (i := procs.length) (by simp)

end Concurrency
