import DistributedFs.Concurrency.Prog

namespace Concurrency

variable {σ L α Q : Type} {R : L → Type}

/-- Which actions a program may take: those allowed at its stage, and the stages that an
    action leads to by its result. A result that leads nowhere is one that cannot occur. -/
structure Protocol (Q L : Type) (R : L → Type) where
  allowed : Q → L → Prop
  next : Q → (label : L) → R label → Q → Prop

namespace Protocol

variable (protocol : Protocol Q L R)

def Follows : Q → Prog L R → Prop
  | _, .done => True
  | stage, .act label next => protocol.allowed stage label ∧
      ∀ result later, protocol.next stage label result later → Follows later (next result)

def only (allowed : L → Prop) : Protocol Unit L R := ⟨fun _ => allowed, fun _ _ _ _ => True⟩

variable {protocol}

theorem Follows.act {stage : Q} {label : L} {next : R label → Prog L R}
    (allowed : protocol.allowed stage label) (rest : ∀ result later, protocol.Follows later (next result)) :
    protocol.Follows stage (.act label next) :=
  ⟨allowed, fun result later _ => rest result later⟩

theorem Follows.ite {stage : Q} {P : Prop} [Decidable P] {first second : Prog L R}
    (yes : protocol.Follows stage first) (no : protocol.Follows stage second) :
    protocol.Follows stage (if P then first else second) := by
  split
  · exact yes
  · exact no

theorem Follows.andThen {prog last : Prog L R} {stage : Q} (first : protocol.Follows stage prog)
    (rest : ∀ stage, protocol.Follows stage last) : protocol.Follows stage (prog.andThen last) := by
  induction prog generalizing stage with
  | done => exact rest stage
  | act label next ih => exact ⟨first.1, fun result later reached => ih result (first.2 result later reached)⟩

theorem Follows.onlyAllowed {allowed : L → Prop} {prog : Prog L R} {stage : Q}
    (leads : ∀ stage label result, ∃ later, protocol.next stage label result later)
    (weaker : ∀ stage label, protocol.allowed stage label → allowed label)
    (follows : protocol.Follows stage prog) : (Protocol.only allowed).Follows () prog := by
  induction prog generalizing stage with
  | done => trivial
  | act label next ih =>
    refine ⟨weaker stage label follows.1, ?_⟩
    intro result _ _
    obtain ⟨later, reached⟩ := leads stage label result
    exact ih result (follows.2 result later reached)

end Protocol

theorem getElem?_set_cases {values : List α} {i j : Nat} {value found : α}
    (listed : (values.set i value)[j]? = some found) :
    (j = i ∧ found = value) ∨ (j ≠ i ∧ values[j]? = some found) := by
  by_cases same : j = i
  · subst same
    have inside := (List.getElem?_eq_some_iff.mp listed).1
    rw [List.length_set] at inside
    rw [List.getElem?_set_self inside] at listed
    exact .inl ⟨rfl, (Option.some.inj listed).symm⟩
  · rw [List.getElem?_set_ne (Ne.symm same)] at listed
    exact .inr ⟨same, listed⟩

theorem getElem?_spawned {values : List α} {j : Nat} {value found : α}
    (listed : (values ++ [value])[j]? = some found) : found = value ∨ values[j]? = some found := by
  rw [List.getElem?_append] at listed
  split at listed
  · exact .inr listed
  · exact .inl (List.mem_singleton.mp (List.mem_of_getElem? listed))

inductive ReachedUnder (world : World σ L R) (ok : Config σ L R → Nat → L → Prop) (start : Config σ L R) :
    Config σ L R → Prop where
  | start : ReachedUnder world ok start start
  | spawn {c : Config σ L R} (before : ReachedUnder world ok start c) (prog : Prog L R) (later : σ)
    (allowed : world.spawn c.state prog later) :
    ReachedUnder world ok start ⟨later, c.procs ++ [prog]⟩
  | act {c : Config σ L R} (before : ReachedUnder world ok start c) (i : Nat) (label : L)
    (next : R label → Prog L R) (running : c.procs[i]? = some (.act label next)) (met : ok c i label)
    (result : R label) (later : σ) (ran : world.exec label c.state result later) :
    ReachedUnder world ok start ⟨later, c.procs.set i (next result)⟩

abbrev Reachable (world : World σ L R) := ReachedUnder world fun _ _ _ => True

namespace Config

def turn (exec : (label : L) → σ → R label × σ) (c : Config σ L R) (i : Nat) : Config σ L R :=
  match c.procs[i]? with
  | some (.act label next) =>
    ⟨(exec label c.state).2, c.procs.set i (next (exec label c.state).1)⟩
  | _ => c

def turns (exec : (label : L) → σ → R label × σ) (c : Config σ L R) (order : List Nat) : Config σ L R :=
  order.foldl (turn exec) c

def spawned (c : Config σ L R) (prog : Prog L R) (later : σ) : Config σ L R :=
  ⟨later, c.procs ++ [prog]⟩

def Idle (c : Config σ L R) : Prop := ∀ prog ∈ c.procs, prog = .done

end Config

variable {world : World σ L R} {ok : Config σ L R → Nat → L → Prop} {start c : Config σ L R}
  {exec : (label : L) → σ → R label × σ}

theorem ReachedUnder.turns (reached : Reachable world start c)
    (may : ∀ label s, world.exec label s (exec label s).1 (exec label s).2) (order : List Nat) :
    Reachable world start (c.turns exec order) := by
  induction order generalizing c with
  | nil => exact reached
  | cons i rest ih =>
    refine ih ?_
    unfold Config.turn
    split
    · rename_i label next running
      exact reached.act i label next running trivial _ _ (may label c.state)
    · exact reached

theorem ReachedUnder.runAlone (prog : Prog L R) (i : Nat)
    (may : ∀ label s, world.exec label s (exec label s).1 (exec label s).2)
    (reached : ReachedUnder world ok start c) (running : c.procs[i]? = some prog)
    (others : ∀ j other, j ≠ i → c.procs[j]? = some other → other = .done)
    (met : ∀ s label, (s, label) ∈ (prog.runAlone exec c.state).1 → ∀ procs : List (Prog L R),
      (∀ j other, j ≠ i → procs[j]? = some other → other = .done) → ok ⟨s, procs⟩ i label) :
    ∃ procs, Config.Idle ⟨(prog.runAlone exec c.state).2, procs⟩ ∧
      ReachedUnder world ok start ⟨(prog.runAlone exec c.state).2, procs⟩ := by
  induction prog generalizing c with
  | done =>
    refine ⟨c.procs, ?_, reached⟩
    intro other member
    obtain ⟨j, listed⟩ := List.getElem?_of_mem member
    by_cases same : j = i
    · subst same
      exact Option.some.inj (listed.symm.trans running)
    · exact others j other same listed
  | act label next ih =>
    have stepped := reached.act i label next running (met _ label (by simp [Prog.runAlone]) _ others) _ _
      (may label c.state)
    have inside := (List.getElem?_eq_some_iff.mp running).1
    refine ih _ stepped (List.getElem?_set_self inside) ?_ ?_
    · intro j other differs listed
      rcases getElem?_set_cases listed with ⟨same, _⟩ | ⟨_, listed⟩
      · exact absurd same differs
      · exact others j other differs listed
    · intro s label member
      exact met s label (by simp only [Prog.runAlone]; exact List.mem_cons_of_mem _ member)

theorem ReachedUnder.call {prog : Prog L R} {later : σ}
    (may : ∀ label s, world.exec label s (exec label s).1 (exec label s).2)
    (reached : ReachedUnder world ok start c) (idle : c.Idle)
    (allowed : world.spawn c.state prog later)
    (met : ∀ s label, (s, label) ∈ (prog.runAlone exec later).1 → ∀ procs : List (Prog L R),
      (∀ j other, j ≠ c.procs.length → procs[j]? = some other → other = .done) →
        ok ⟨s, procs⟩ c.procs.length label) :
    ∃ procs, Config.Idle ⟨(prog.runAlone exec later).2, procs⟩ ∧
      ReachedUnder world ok start ⟨(prog.runAlone exec later).2, procs⟩ := by
  refine (reached.spawn prog later allowed).runAlone prog c.procs.length may (by simp) ?_ met
  intro j other differs listed
  rcases List.mem_append.mp (List.mem_of_getElem? listed) with member | member
  · exact idle other member
  · have bound := (List.getElem?_eq_some_iff.mp listed).1
    have inside : j < c.procs.length := by
      simp only [List.length_append, List.length_singleton] at bound
      omega
    rw [List.getElem?_append_left inside] at listed
    exact idle other (List.mem_of_getElem? listed)

theorem Config.turns_beside (idle : List (Prog L R)) (c : Config σ L R) (order : List Nat) :
    Config.turns exec ⟨c.state, idle ++ c.procs⟩ (order.map (idle.length + ·)) =
      ⟨(c.turns exec order).state, idle ++ (c.turns exec order).procs⟩ := by
  induction order generalizing c with
  | nil => rfl
  | cons i rest ih =>
    have step : Config.turn exec ⟨c.state, idle ++ c.procs⟩ (idle.length + i) =
        ⟨(c.turn exec i).state, idle ++ (c.turn exec i).procs⟩ := by
      have here : (idle ++ c.procs)[idle.length + i]? = c.procs[i]? := by
        simp [List.getElem?_append_right]
      simp only [Config.turn, here]
      cases c.procs[i]? with
      | none => rfl
      | some prog =>
        cases prog with
        | done => rfl
        | act label next => simp [List.set_append_right]
    simp only [Config.turns, List.map_cons, List.foldl_cons, step]
    exact ih (c.turn exec i)

theorem ReachedUnder.turns_beside {idle : List (Prog L R)}
    (reached : Reachable world start ⟨c.state, idle ++ c.procs⟩)
    (may : ∀ label s, world.exec label s (exec label s).1 (exec label s).2) (order : List Nat) :
    Reachable world start ⟨(c.turns exec order).state, idle ++ (c.turns exec order).procs⟩ := by
  rw [← Config.turns_beside idle c order]
  exact reached.turns may _

end Concurrency
