import DistributedFs.Concurrency.Interference
import DistributedFs.Concurrency.Protocol

namespace Concurrency

variable {σ L α : Type} {R : L → Type}

theorem ReachedUnder.steps {world : World σ L R} {ok : Config σ L R → Nat → L → Prop} {start c : Config σ L R}
    (reached : ReachedUnder world ok start c) : ∃ events, Steps world start events c := by
  induction reached with
  | start => exact ⟨[], .refl⟩
  | spawn _ prog later allowed ih =>
    obtain ⟨events, steps⟩ := ih
    exact ⟨events, steps.spawn prog later allowed⟩
  | act _ i label next running _ result later ran ih =>
    obtain ⟨events, steps⟩ := ih
    exact ⟨_, steps.act i label next running result later ran⟩

theorem Steps.stable {world : World σ L R} {P : σ → Prop} {c last : Config σ L R} {events : List (Event σ L R)}
    (steps : Steps world c events last) (spawned : ∀ {s prog later}, world.spawn s prog later → P s → P later)
    (acted : ∀ e ∈ events, P e.before → P e.after) (initially : P c.state) : P last.state := by
  induction steps with
  | refl => exact initially
  | spawn _ _ _ allowed ih => exact spawned allowed (ih acted)
  | @act events mid _ i label next _ result later _ ih =>
    have before := ih fun e member => acted e (List.mem_append_left _ member)
    exact acted ⟨i, mid.state, label, result, later⟩ (by simp) before

theorem Steps.through {world : World σ L R} {c last : Config σ L R} {events : List (Event σ L R)}
    (steps : Steps world c events last) {pre post : List (Event σ L R)} {e : Event σ L R}
    (split : events = pre ++ e :: post) : ∃ mid, Steps world c (pre ++ [e]) mid := by
  induction steps generalizing post with
  | refl => simp at split
  | spawn _ _ _ _ ih => exact ih split
  | act before i label next running result later ran ih =>
    rcases concat_cases split with ⟨-, rfl, rfl⟩ | ⟨others, -, earlier⟩
    · exact ⟨_, before.act i label next running result later ran⟩
    · exact ih earlier

theorem Steps.after {world : World σ L R} {c last : Config σ L R} {pre post : List (Event σ L R)}
    {e : Event σ L R} (steps : Steps world c (pre ++ e :: post) last) :
    ∃ procs, Steps world ⟨e.after, procs⟩ post last := by
  induction pre generalizing c with
  | nil =>
    obtain ⟨mid, next, -, -, -, rest⟩ := steps.first
    exact ⟨_, rest⟩
  | cons first others ih =>
    obtain ⟨mid, next, -, -, -, rest⟩ := steps.first
    exact ih rest

theorem Steps.append {world : World σ L R} {c mid last : Config σ L R} {events more : List (Event σ L R)}
    (first : Steps world c events mid) (second : Steps world mid more last) :
    Steps world c (events ++ more) last := by
  induction second with
  | refl => simpa using first
  | spawn _ prog later allowed ih => exact ih.spawn prog later allowed
  | act _ i label next running result later ran ih =>
    rw [← List.append_assoc]
    exact ih.act i label next running result later ran

theorem Steps.between {world : World σ L R} {P : σ → Prop} {c last : Config σ L R}
    {pre between post : List (Event σ L R)} {earlier e : Event σ L R}
    (steps : Steps world c (pre ++ earlier :: (between ++ e :: post)) last)
    (spawned : ∀ {s prog later}, world.spawn s prog later → P s → P later)
    (acted : ∀ x ∈ between, P x.before → P x.after) (initially : P earlier.after) : P e.before := by
  obtain ⟨procs, rest⟩ := steps.after
  obtain ⟨mid, sofar, same⟩ := rest.upTo rfl
  rw [← same]
  exact sofar.stable spawned acted initially

namespace Setting

/-- The program keeps its promise in every action, whatever the others do in between. -/
def Keeps (setting : Setting σ L R) : Prog L R → σ → Prop
  | .done, _ => True
  | .act label next, s => ∀ met, setting.rely s met → ∀ result after, setting.exec label met result after →
      setting.promise label met result after ∧ Keeps setting (next result) after

variable {setting : Setting σ L R} {world : World σ L R} {prog last : Prog L R} {s later : σ}

theorem Keeps.rely (keeps : setting.Keeps prog s) (others : setting.rely s later) : setting.Keeps prog later := by
  cases prog with
  | done => trivial
  | act label next => exact fun met more => keeps met (setting.trans others more)

section

variable (kept : ∀ {label s result later}, setting.exec label s result later →
  setting.promise label s result later → setting.rely s later)
include kept

theorem Keeps.act {label : L} {next : R label → Prog L R}
    (promise : ∀ t result after, setting.rely s t → setting.exec label t result after →
      setting.promise label t result after)
    (rest : ∀ t result, setting.rely s t → setting.Keeps (next result) t) : setting.Keeps (.act label next) s := by
  intro met others result after ran
  have own := promise met result after others ran
  exact ⟨own, rest after result (setting.trans others (kept ran own))⟩

theorem Keeps.andThen (first : setting.Keeps prog s)
    (rest : ∀ t, setting.rely s t → setting.Keeps last t) : setting.Keeps (prog.andThen last) s := by
  induction prog generalizing s with
  | done => exact rest s (setting.refl s)
  | act label next ih =>
    intro met others result after ran
    obtain ⟨own, goes⟩ := first met others result after ran
    have more := setting.trans others (kept ran own)
    exact ⟨own, ih result goes fun t onwards => rest t (setting.trans more onwards)⟩

/-- The rule for programs side by side: where every promise is something that the others can rely on,
    and every program that is started keeps its promise, all promises are kept. -/
theorem parallel {inv : σ → Prop} (stable : ∀ {s later}, setting.rely s later → inv s → inv later)
    (started : ∀ {s prog later}, world.spawn s prog later → inv s →
      setting.rely s later ∧ setting.Keeps prog later)
    {c last : Config σ L R} {events : List (Event σ L R)} (steps : Steps world c events last)
    (ran : ∀ e ∈ events, setting.exec e.label e.before e.result e.after)
    (initially : inv c.state) (running : ∀ prog ∈ c.procs, setting.Keeps prog c.state) :
    inv last.state ∧ (∀ prog ∈ last.procs, setting.Keeps prog last.state) ∧
      ∀ e ∈ events, inv e.before ∧ setting.promise e.label e.before e.result e.after := by
  induction steps with
  | refl => exact ⟨initially, running, by simp⟩
  | spawn _ prog later allowed ih =>
    obtain ⟨holds, procs, promises⟩ := ih ran
    obtain ⟨others, keeps⟩ := started allowed holds
    refine ⟨stable others holds, fun other member => ?_, promises⟩
    rcases List.mem_append.mp member with earlier | new
    · exact (procs other earlier).rely others
    · cases List.mem_singleton.mp new
      exact keeps
  | @act events mid _ i label next own result later _ ih =>
    obtain ⟨holds, procs, promises⟩ := ih fun e member => ran e (List.mem_append_left _ member)
    have here := ran ⟨i, mid.state, label, result, later⟩ (by simp)
    obtain ⟨promise, rest⟩ := procs _ (List.mem_of_getElem? own) mid.state (setting.refl _) result later here
    have others := kept here promise
    refine ⟨stable others holds, fun other member => ?_, fun e member => ?_⟩
    · rcases List.mem_or_eq_of_mem_set member with earlier | same
      · exact (procs other earlier).rely others
      · rw [same]
        exact rest
    · rcases List.mem_append.mp member with earlier | new
      · exact promises e earlier
      · cases List.mem_singleton.mp new
        exact ⟨holds, promise⟩

end

end Setting

end Concurrency
