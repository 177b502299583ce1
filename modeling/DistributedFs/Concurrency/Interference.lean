import DistributedFs.Concurrency.Prog

namespace Concurrency

variable {σ L α : Type} {R : L → Type}

structure Event (σ L : Type) (R : L → Type) where
  proc : Nat
  before : σ
  label : L
  result : R label
  after : σ

/-- The steps of a world between two configurations, with what each action met, returned
    and left, and the process that took it. -/
inductive Steps (world : World σ L R) (c : Config σ L R) : List (Event σ L R) → Config σ L R → Prop where
  | refl : Steps world c [] c
  | spawn {events : List (Event σ L R)} {mid : Config σ L R} (before : Steps world c events mid)
    (prog : Prog L R) (later : σ) (allowed : world.spawn mid.state prog later) :
    Steps world c events ⟨later, mid.procs ++ [prog]⟩
  | act {events : List (Event σ L R)} {mid : Config σ L R} (before : Steps world c events mid) (i : Nat)
    (label : L) (next : R label → Prog L R) (running : mid.procs[i]? = some (.act label next))
    (result : R label) (later : σ) (ran : world.exec label mid.state result later) :
    Steps world c (events ++ [⟨i, mid.state, label, result, later⟩]) ⟨later, mid.procs.set i (next result)⟩

theorem Steps.exec {world : World σ L R} {c last : Config σ L R} {events : List (Event σ L R)}
    (steps : Steps world c events last) :
    ∀ e ∈ events, world.exec e.label e.before e.result e.after := by
  induction steps with
  | refl => exact fun _ member => (List.not_mem_nil member).elim
  | spawn _ _ _ _ ih => exact ih
  | act _ i label next running result later ran ih =>
    intro e member
    rcases List.mem_append.mp member with member | member
    · exact ih e member
    · cases List.mem_singleton.mp member
      exact ran

theorem Steps.keeps {world : World σ L R} {P : Config σ L R → Prop} {c last : Config σ L R}
    {events : List (Event σ L R)} (steps : Steps world c events last)
    (spawn : ∀ c prog later, P c → world.spawn c.state prog later → P ⟨later, c.procs ++ [prog]⟩)
    (act : ∀ c i label (next : R label → Prog L R) result later, P c → c.procs[i]? = some (.act label next) →
      world.exec label c.state result later → P ⟨later, c.procs.set i (next result)⟩) (start : P c) :
    P last ∧ ∀ e ∈ events, ∃ procs, P ⟨e.before, procs⟩ := by
  induction steps with
  | refl => exact ⟨start, fun _ member => (List.not_mem_nil member).elim⟩
  | spawn _ prog later allowed ih => exact ⟨spawn _ prog later ih.1 allowed, ih.2⟩
  | act _ i label next running result later ran ih =>
    obtain ⟨now, earlier⟩ := ih
    refine ⟨act _ i label next result later now running ran, ?_⟩
    intro e member
    rcases List.mem_append.mp member with member | member
    · exact earlier e member
    · cases List.mem_singleton.mp member
      exact ⟨_, now⟩

theorem Steps.waiting {world : World σ L R} {c last : Config σ L R} (steps : Steps world c [] last) {i : Nat}
    {prog : Prog L R} (running : c.procs[i]? = some prog) : last.procs[i]? = some prog := by
  generalize none : ([] : List (Event σ L R)) = events at steps
  induction steps with
  | refl => exact running
  | spawn _ _ _ _ ih =>
    have before := ih none
    rw [List.getElem?_append_left (List.getElem?_eq_some_iff.mp before).1]
    exact before
  | act => simp at none

theorem Steps.first {world : World σ L R} {c last : Config σ L R} {e : Event σ L R}
    {events : List (Event σ L R)} (steps : Steps world c (e :: events) last) :
    ∃ mid next, Steps world c [] mid ∧ mid.state = e.before ∧
      mid.procs[e.proc]? = some (.act e.label next) ∧
      Steps world ⟨e.after, mid.procs.set e.proc (next e.result)⟩ events last := by
  generalize whole : e :: events = all at steps
  induction steps generalizing events with
  | refl => cases whole
  | spawn _ prog later allowed ih =>
    obtain ⟨mid, next, spawned, before, acting, rest⟩ := ih whole
    exact ⟨mid, next, spawned, before, acting, rest.spawn prog later allowed⟩
  | act earlier i label next running result later ran ih =>
    rename_i done mid
    cases done with
    | nil =>
      cases whole
      exact ⟨mid, next, earlier, rfl, running, .refl⟩
    | cons first others =>
      obtain ⟨rfl, rfl⟩ := List.cons.inj whole
      obtain ⟨start, program, spawned, before, acting, rest⟩ := ih rfl
      exact ⟨start, program, spawned, before, acting, rest.act i label next running result later ran⟩

theorem Steps.begun {world : World σ L R} {c last : Config σ L R} {i : Nat} {s later : σ} {label : L}
    {result : R label} {events : List (Event σ L R)} {next : R label → Prog L R}
    (steps : Steps world c (⟨i, s, label, result, later⟩ :: events) last)
    (running : c.procs[i]? = some (.act label next)) :
    ∃ procs, procs[i]? = some (next result) ∧ Steps world ⟨later, procs⟩ events last := by
  obtain ⟨mid, program, spawned, _, acting, rest⟩ := steps.first
  cases (spawned.waiting running).symm.trans acting
  exact ⟨_, List.getElem?_set_self (List.getElem?_eq_some_iff.mp acting).1, rest⟩

theorem Steps.firstOwn {world : World σ L R} {c last : Config σ L R} {events : List (Event σ L R)} {i : Nat}
    {prog : Prog L R} (steps : Steps world c events last) (running : c.procs[i]? = some prog) :
    (∀ e ∈ events, e.proc ≠ i) ∨ ∃ pre e post next procs, events = pre ++ e :: post ∧
      (∀ other ∈ pre, other.proc ≠ i) ∧ e.proc = i ∧ prog = .act e.label next ∧
      procs[i]? = some (next e.result) ∧ Steps world ⟨e.after, procs⟩ post last := by
  induction events generalizing c with
  | nil => exact .inl fun _ member => (List.not_mem_nil member).elim
  | cons e events ih =>
    obtain ⟨mid, next, spawned, _, acting, rest⟩ := steps.first
    have waiting := spawned.waiting running
    by_cases mine : e.proc = i
    · right
      rw [mine] at acting
      refine ⟨[], e, events, next, _, rfl, fun _ member => (List.not_mem_nil member).elim, mine, ?_, ?_, rest⟩
      · exact Option.some.inj (waiting.symm.trans acting)
      · rw [mine]
        exact List.getElem?_set_self (List.getElem?_eq_some_iff.mp acting).1
    · have still : (mid.procs.set e.proc (next e.result))[i]? = some prog := by
        rw [List.getElem?_set_ne mine]
        exact waiting
      rcases ih rest still with none | ⟨pre, own, post, after, procs, split, before, proc, program, resumed, others⟩
      · left
        intro other member
        rcases List.mem_cons.mp member with rfl | member
        · exact mine
        · exact none other member
      · right
        refine ⟨e :: pre, own, post, after, procs, by simp [split], ?_, proc, program, resumed, others⟩
        intro other member
        rcases List.mem_cons.mp member with rfl | member
        · exact mine
        · exact before other member

theorem Steps.passed {world : World σ L R} {c last : Config σ L R} {events : List (Event σ L R)} {i : Nat}
    {label : L} {next : R label → Prog L R} (steps : Steps world c events last)
    (running : c.procs[i]? = some (.act label next)) {e : Event σ L R} (taken : e ∈ events) (own : e.proc = i)
    (other : e.label ≠ label) :
    ∃ pre s result later post procs, events = pre ++ ⟨i, s, label, result, later⟩ :: post ∧ e ∈ post ∧
      world.exec label s result later ∧ procs[i]? = some (next result) ∧ Steps world ⟨later, procs⟩ post last := by
  rcases steps.firstOwn running with idle | ⟨pre, first, post, after, procs, split, others, mine, program, held, rest⟩
  · exact absurd own (idle e taken)
  · obtain ⟨proc, s, acted, result, later⟩ := first
    cases mine
    cases program
    have ran := steps.exec ⟨proc, s, acted, result, later⟩ (by simp [split])
    refine ⟨pre, s, result, later, post, procs, split, ?_, ran, held, rest⟩
    rw [split] at taken
    rcases List.mem_append.mp taken with before | behind
    · exact absurd own (others e before)
    · rcases List.mem_cons.mp behind with rfl | behind
      · exact absurd rfl other
      · exact behind

theorem Steps.upTo {world : World σ L R} {c last : Config σ L R} {events : List (Event σ L R)}
    (steps : Steps world c events last) {pre post : List (Event σ L R)} {e : Event σ L R}
    (split : events = pre ++ e :: post) : ∃ mid, Steps world c pre mid ∧ mid.state = e.before := by
  induction steps generalizing post with
  | refl => simp at split
  | spawn _ _ _ _ ih => exact ih split
  | act before i label next running result later ran ih =>
    rename_i mid
    rcases concat_cases split with ⟨-, rfl, rfl⟩ | ⟨others, -, earlier⟩
    · exact ⟨mid, before, rfl⟩
    · exact ih earlier

theorem Steps.continued {world : World σ L R} {c last : Config σ L R} {events : List (Event σ L R)}
    (steps : Steps world c events last) {i : Nat} {prog : Prog L R} (running : c.procs[i]? = some prog)
    (rest : Prog L R) :
    ∃ left, last.procs[i]? = some left ∧ Steps world ⟨c.state, c.procs.set i (prog.andThen rest)⟩ events
      ⟨last.state, last.procs.set i (left.andThen rest)⟩ := by
  induction steps with
  | refl => exact ⟨prog, running, .refl⟩
  | spawn _ other later allowed ih =>
    obtain ⟨left, held, steps⟩ := ih
    have inside := (List.getElem?_eq_some_iff.mp held).1
    refine ⟨left, by rw [List.getElem?_append_left inside, held], ?_⟩
    have spawned := steps.spawn other later allowed
    rwa [← List.set_append_left _ _ inside] at spawned
  | act _ j label next acting result later ran ih =>
    obtain ⟨left, held, steps⟩ := ih
    have inside := (List.getElem?_eq_some_iff.mp held).1
    by_cases own : j = i
    · subst own
      cases held.symm.trans acting
      refine ⟨next result, List.getElem?_set_self inside, ?_⟩
      have acted := steps.act j label (fun result => (next result).andThen rest) (List.getElem?_set_self inside)
        result later ran
      rw [List.set_set] at acted ⊢
      exact acted
    · refine ⟨left, by rw [List.getElem?_set_ne own, held], ?_⟩
      have acted := steps.act j label next (by rw [List.getElem?_set_ne (Ne.symm own), acting]) result later ran
      rwa [List.set_comm _ _ (Ne.symm own)] at acted

/-- Where a process runs one program and then another, its steps up to the end of the first are steps of the
    first alone. -/
theorem Steps.cut {world : World σ L R} {c last : Config σ L R} {events : List (Event σ L R)}
    (steps : Steps world c events last) {i : Nat} {prog rest : Prog L R}
    (running : c.procs[i]? = some (prog.andThen rest)) :
    (∃ left, last.procs[i]? = some (left.andThen rest) ∧
      Steps world ⟨c.state, c.procs.set i prog⟩ events ⟨last.state, last.procs.set i left⟩) ∨
    ∃ first second mid, events = first ++ second ∧ mid.procs[i]? = some rest ∧
      Steps world ⟨c.state, c.procs.set i prog⟩ first ⟨mid.state, mid.procs.set i .done⟩ ∧
      Steps world mid second last := by
  induction steps with
  | refl => exact .inl ⟨prog, running, .refl⟩
  | spawn _ other later allowed ih =>
    rcases ih with ⟨left, held, steps⟩ | ⟨first, second, mid, split, held, begun, steps⟩
    · have inside := (List.getElem?_eq_some_iff.mp held).1
      refine .inl ⟨left, by rw [List.getElem?_append_left inside, held], ?_⟩
      have spawned := steps.spawn other later allowed
      rwa [← List.set_append_left _ _ inside] at spawned
    · exact .inr ⟨first, second, mid, split, held, begun, steps.spawn other later allowed⟩
  | @act events now before j label next acting result later ran ih =>
    rcases ih with ⟨left, held, steps⟩ | ⟨first, second, mid, split, held, begun, steps⟩
    · have inside := (List.getElem?_eq_some_iff.mp held).1
      by_cases own : j = i
      · subst own
        cases left with
        | done =>
          have single : Steps world now [⟨j, now.state, label, result, later⟩] _ :=
            Steps.refl.act j label next acting result later ran
          exact .inr ⟨events, _, now, rfl, held, steps, single⟩
        | act mine goes =>
          cases held.symm.trans acting
          refine .inl ⟨goes result, List.getElem?_set_self inside, ?_⟩
          have acted := steps.act j _ goes (List.getElem?_set_self inside) result later ran
          rw [List.set_set] at acted ⊢
          exact acted
      · refine .inl ⟨left, by rw [List.getElem?_set_ne own, held], ?_⟩
        have acted := steps.act j label next (by rw [List.getElem?_set_ne (Ne.symm own), acting]) result later ran
        rwa [List.set_comm _ _ (Ne.symm own)] at acted
    · refine .inr ⟨first, second ++ [_], mid, by rw [split, List.append_assoc], held, begun, ?_⟩
      exact steps.act j label next acting result later ran

theorem split_cases {values rest pre post : List α} {value item : α}
    (split : pre ++ item :: post = values ++ value :: rest) :
    (∃ between, pre = values ++ value :: between ∧ rest = between ++ item :: post) ∨ item = value ∨
      item ∈ values := by
  rcases List.append_eq_append_iff.mp split with ⟨middle, rfl, tail⟩ | ⟨middle, rfl, tail⟩
  · cases middle with
    | nil => exact .inr (.inl (List.cons.inj tail).1)
    | cons first others =>
      right
      right
      rw [(List.cons.inj tail).1]
      simp
  · cases middle with
    | nil => exact .inr (.inl (List.cons.inj tail).1.symm)
    | cons first others =>
      obtain ⟨rfl, rest⟩ := List.cons.inj tail
      exact .inl ⟨others, rfl, rest⟩

theorem Steps.runAlone {world : World σ L R} {exec : (label : L) → σ → R label × σ}
    (may : ∀ label s, world.exec label s (exec label s).1 (exec label s).2) (prog : Prog L R) {i : Nat}
    {start c : Config σ L R} {events : List (Event σ L R)} (steps : Steps world start events c)
    (running : c.procs[i]? = some prog) :
    ∃ more procs, Steps world start (events ++ more) ⟨(prog.runAlone exec c.state).2, procs⟩ ∧
      procs[i]? = some .done ∧ (more.map fun e => (e.before, e.label)) = (prog.runAlone exec c.state).1 ∧
      ∀ e ∈ more, e.proc = i ∧ e.result = (exec e.label e.before).1 ∧ e.after = (exec e.label e.before).2 := by
  induction prog generalizing c events with
  | done =>
    refine ⟨[], c.procs, by simpa [Prog.runAlone] using steps, running, rfl, ?_⟩
    exact fun _ member => (List.not_mem_nil member).elim
  | act label next ih =>
    have stepped := steps.act i label next running _ _ (may label c.state)
    have inside := (List.getElem?_eq_some_iff.mp running).1
    obtain ⟨more, procs, longer, ended, trace, own⟩ := ih _ stepped (List.getElem?_set_self inside)
    refine ⟨⟨i, c.state, label, (exec label c.state).1, (exec label c.state).2⟩ :: more, procs, ?_, ended, ?_, ?_⟩
    · simpa [Prog.runAlone] using longer
    · simpa [Prog.runAlone] using trace
    · intro e member
      rcases List.mem_cons.mp member with rfl | member
      · exact ⟨rfl, rfl, rfl⟩
      · exact own e member

theorem Steps.call {world : World σ L R} {exec : (label : L) → σ → R label × σ}
    (may : ∀ label s, world.exec label s (exec label s).1 (exec label s).2) {prog : Prog L R}
    {start c : Config σ L R} {events : List (Event σ L R)} {later : σ} (steps : Steps world start events c)
    (allowed : world.spawn c.state prog later) :
    ∃ more procs, Steps world start (events ++ more) ⟨(prog.runAlone exec later).2, procs⟩ ∧
      (more.map fun e => (e.before, e.label)) = (prog.runAlone exec later).1 ∧
      ∀ e ∈ more, e.after = (exec e.label e.before).2 := by
  obtain ⟨more, procs, longer, _, trace, own⟩ :=
    (steps.spawn prog later allowed).runAlone may prog (i := c.procs.length) (by simp)
  exact ⟨more, procs, longer, trace, fun e member => (own e member).2.2⟩

def ownLog (i : Nat) (events : List (Event σ L R)) : List ((label : L) × R label) :=
  (events.filter (·.proc = i)).map fun e => ⟨e.label, e.result⟩

/-- What one process may do and meet: its own actions, the promise that each of them keeps,
    and what the others may do to the state in between. -/
structure Setting (σ L : Type) (R : L → Type) where
  exec : (label : L) → σ → R label → σ → Prop
  promise : (label : L) → σ → R label → σ → Prop
  rely : σ → σ → Prop
  refl : ∀ s, rely s s
  trans : ∀ {s t u}, rely s t → rely t u → rely s u

namespace Setting

variable (setting : Setting σ L R)

/-- From this state every action of the program keeps the promise, whatever the others do in
    between, and when the program has ended `post` holds of what it did and of the state. -/
def Ensures (post : List ((label : L) × R label) → σ → Prop) :
    List ((label : L) × R label) → Prog L R → σ → Prop
  | did, .done, s => ∀ later, setting.rely s later → post did later
  | did, .act label next, s => ∀ met, setting.rely s met → ∀ result after,
      setting.exec label met result after →
        setting.promise label met result after ∧ Ensures post (did ++ [⟨label, result⟩]) (next result) after

variable {setting} {post goal : List ((label : L) × R label) → σ → Prop} {prog : Prog L R} {s later : σ}
  {did : List ((label : L) × R label)}

theorem Ensures.rely (ensures : setting.Ensures post did prog s) (others : setting.rely s later) :
    setting.Ensures post did prog later := by
  cases prog with
  | done => exact fun last more => ensures last (setting.trans others more)
  | act label next => exact fun met more => ensures met (setting.trans others more)

theorem Ensures.mono (ensures : setting.Ensures post did prog s)
    (weaker : ∀ did s, post did s → goal did s) : setting.Ensures goal did prog s := by
  induction prog generalizing s did with
  | done => exact fun last others => weaker did last (ensures last others)
  | act label next ih =>
    intro met others result after ran
    obtain ⟨kept, rest⟩ := ensures met others result after ran
    exact ⟨kept, ih result rest⟩

theorem Ensures.andThen {last : Prog L R}
    (first : setting.Ensures (fun did s => setting.Ensures post did last s) did prog s) :
    setting.Ensures post did (prog.andThen last) s := by
  induction prog generalizing s did with
  | done => exact first s (setting.refl s)
  | act label next ih =>
    intro met others result after ran
    obtain ⟨kept, rest⟩ := first met others result after ran
    exact ⟨kept, ih result rest⟩

/-- The rule for loops: an invariant over the items that the loop has left behind. -/
theorem Ensures.forEach {inv : List α → List ((label : L) × R label) → σ → Prop} {body : α → Prog L R}
    (items seen : List α)
    (stable : ∀ seen did s later, setting.rely s later → inv seen did s → inv seen did later)
    (each : ∀ before item rest, seen ++ items = before ++ item :: rest → ∀ did s, inv before did s →
      setting.Ensures (inv (before ++ [item])) did (body item) s)
    (holds : inv seen did s) : setting.Ensures (inv (seen ++ items)) did (.forEach body items) s := by
  induction items generalizing seen s did with
  | nil =>
    rw [List.append_nil]
    exact fun last others => stable seen did s last others holds
  | cons item rest ih =>
    have together : seen ++ item :: rest = seen ++ [item] ++ rest := by simp
    apply Ensures.andThen
    refine (each seen item rest rfl did s holds).mono ?_
    intro did s holds
    rw [together] at each ⊢
    exact ih (seen ++ [item]) each holds

theorem Ensures.forEachDistinct {inv : List α → List ((label : L) × R label) → σ → Prop} {body : α → Prog L R}
    {items : List α} (distinct : items.Nodup)
    (stable : ∀ seen did s later, setting.rely s later → inv seen did s → inv seen did later)
    (each : ∀ seen item, item ∈ items → item ∉ seen → ∀ did s, inv seen did s →
      setting.Ensures (inv (seen ++ [item])) did (body item) s)
    (holds : inv [] did s) : setting.Ensures (inv items) did (.forEach body items) s := by
  refine Ensures.forEach items [] stable ?_ holds
  intro seen item rest whole did s holds
  rw [List.nil_append] at whole
  rw [whole] at distinct each
  have unseen : item ∉ seen := by
    intro member
    exact (List.nodup_append.mp distinct).2.2 item member item (by simp) rfl
  exact each seen item (by simp) unseen did s holds

/-- A process that runs among others which keep to the rely keeps its promise in every
    action, and what it ensured at the start is what it still ensures. -/
theorem Ensures.steps {world : World σ L R} {c last : Config σ L R} {events : List (Event σ L R)}
    {i : Nat} (ensures : setting.Ensures post did prog c.state) (running : c.procs[i]? = some prog)
    (steps : Steps world c events last)
    (own : ∀ e ∈ events, e.proc = i → setting.exec e.label e.before e.result e.after)
    (others : ∀ e ∈ events, e.proc ≠ i → setting.rely e.before e.after)
    (spawned : ∀ s prog later, world.spawn s prog later → setting.rely s later) :
    (∀ e ∈ events, e.proc = i → setting.promise e.label e.before e.result e.after) ∧
      ∃ rest, last.procs[i]? = some rest ∧
        setting.Ensures post (did ++ ownLog i events) rest last.state := by
  induction steps with
  | refl =>
    refine ⟨fun _ member => (List.not_mem_nil member).elim, prog, running, ?_⟩
    simpa [ownLog] using ensures
  | spawn _ prog later allowed ih =>
    obtain ⟨kept, rest, here, ensures⟩ := ih own others
    refine ⟨kept, rest, ?_, ensures.rely (spawned _ prog later allowed)⟩
    rw [List.getElem?_append_left (List.getElem?_eq_some_iff.mp here).1]
    exact here
  | act _ j label next acting result later ran ih =>
    rename_i earlier mid _
    have listed : (⟨j, mid.state, label, result, later⟩ : Event σ L R) ∈
        earlier ++ [⟨j, mid.state, label, result, later⟩] := by simp
    obtain ⟨kept, rest, here, ensures⟩ :=
      ih (fun e member => own e (List.mem_append_left _ member))
        (fun e member => others e (List.mem_append_left _ member))
    have inside := (List.getElem?_eq_some_iff.mp here).1
    by_cases mine : j = i
    · subst mine
      cases acting.symm.trans here
      obtain ⟨promised, ensures⟩ := ensures _ (setting.refl _) result later (own _ listed rfl)
      refine ⟨?_, next result, List.getElem?_set_self inside, ?_⟩
      · intro e member mine
        rcases List.mem_append.mp member with member | member
        · exact kept e member mine
        · cases List.mem_singleton.mp member
          exact promised
      · simpa [ownLog] using ensures
    · refine ⟨?_, rest, ?_, ?_⟩
      · intro e member same
        rcases List.mem_append.mp member with member | member
        · exact kept e member same
        · cases List.mem_singleton.mp member
          exact absurd same mine
      · rw [List.getElem?_set_ne mine]
        exact here
      · simpa [ownLog, mine] using ensures.rely (others _ listed mine)

theorem Ensures.finished {world : World σ L R} {c last : Config σ L R} {events : List (Event σ L R)}
    {i : Nat} (ensures : setting.Ensures post [] prog c.state) (running : c.procs[i]? = some prog)
    (steps : Steps world c events last) (ended : last.procs[i]? = some .done)
    (own : ∀ e ∈ events, e.proc = i → setting.exec e.label e.before e.result e.after)
    (others : ∀ e ∈ events, e.proc ≠ i → setting.rely e.before e.after)
    (spawned : ∀ s prog later, world.spawn s prog later → setting.rely s later) :
    post (ownLog i events) last.state := by
  obtain ⟨_, rest, here, ensures⟩ := ensures.steps running steps own others spawned
  cases ended.symm.trans here
  exact ensures _ (setting.refl _)

end Setting

end Concurrency
