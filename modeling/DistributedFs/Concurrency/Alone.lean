import DistributedFs.Concurrency.Interference
import DistributedFs.Concurrency.Protocol

namespace Concurrency

variable {σ L C α : Type} {R : L → Type}

/-- The runs of one program among no others: what it did, with the results it got, and the
    state it leaves. -/
inductive Alone (exec : (label : L) → σ → R label → σ → Prop) :
    Prog L R → σ → List ((label : L) × R label) → σ → Prop where
  | done (s : σ) : Alone exec .done s [] s
  | act {s mid last : σ} {label : L} {next : R label → Prog L R} {result : R label}
    {did : List ((label : L) × R label)} (ran : exec label s result mid)
    (rest : Alone exec (next result) mid did last) :
    Alone exec (.act label next) s (⟨label, result⟩ :: did) last

abbrev CallResult (R : L → Type) : L ⊕ C → Type
  | .inl label => R label
  | .inr _ => Unit

def Prog.inline (body : C → Prog L R) : Prog (L ⊕ C) (CallResult R) → Prog L R
  | .done => .done
  | .act (.inl label) next => .act label fun result => (next result).inline body
  | .act (.inr call) next => (body call).andThen ((next ()).inline body)

inductive CallExec (exec : (label : L) → σ → R label → σ → Prop) (body : C → Prog L R) :
    (action : L ⊕ C) → σ → CallResult R action → σ → Prop where
  | act {label : L} {s later : σ} {result : R label} (ran : exec label s result later) :
    CallExec exec body (.inl label) s result later
  | call {call : C} {s later : σ} {did : List ((label : L) × R label)}
    (ran : Alone exec (body call) s did later) : CallExec exec body (.inr call) s () later

variable {exec : (label : L) → σ → R label → σ → Prop} {prog last : Prog L R} {s later : σ}
  {did log : List ((label : L) × R label)}

namespace Alone

theorem exists_run (total : ∀ label s, ∃ result later, exec label s result later) (prog : Prog L R) (s : σ) :
    ∃ did later, Alone exec prog s did later := by
  induction prog generalizing s with
  | done => exact ⟨[], s, .done s⟩
  | act label next ih =>
    obtain ⟨result, mid, ran⟩ := total label s
    obtain ⟨did, later, rest⟩ := ih result mid
    exact ⟨_, later, .act ran rest⟩

theorem mono {looser : (label : L) → σ → R label → σ → Prop}
    (weaker : ∀ label s result later, exec label s result later → looser label s result later)
    (ran : Alone exec prog s did later) : Alone looser prog s did later := by
  induction ran with
  | done s => exact .done s
  | act ran _ ih => exact .act (weaker _ _ _ _ ran) ih

theorem such {holds : (label : L) → R label → Prop} (ran : Alone exec prog s did later)
    (all : ∀ entry ∈ did, holds entry.1 entry.2) :
    Alone (fun label s result later => exec label s result later ∧ holds label result) prog s did later := by
  induction ran with
  | done s => exact .done s
  | act ran rest ih =>
    have first := all _ List.mem_cons_self
    exact .act ⟨ran, first⟩ (ih fun entry member => all entry (List.mem_cons_of_mem _ member))

theorem split (ran : Alone exec (prog.andThen last) s did later) :
    ∃ first mid second, Alone exec prog s first mid ∧ Alone exec last mid second later := by
  induction prog generalizing s did with
  | done => exact ⟨[], s, did, .done s, ran⟩
  | act label next ih =>
    cases ran with
    | act ran rest =>
      obtain ⟨first, mid, second, begun, ended⟩ := ih _ rest
      exact ⟨_, mid, second, .act ran begun, ended⟩

theorem keeps {allowed : L → Prop} {kept : σ → σ → Prop} (refl : ∀ s, kept s s)
    (trans : ∀ {s mid later}, kept s mid → kept mid later → kept s later)
    (each : ∀ label s result later, exec label s result later → allowed label → kept s later)
    (follows : (Protocol.only allowed).Follows () prog)
    (ran : Alone exec prog s did later) : kept s later := by
  induction ran with
  | done s => exact refl s
  | act ran rest ih =>
    obtain ⟨allowed, next⟩ := follows
    exact trans (each _ _ _ _ ran allowed) (ih (next _ _ trivial))

theorem steps {allowed : L → Prop} {kept : σ → σ → Prop} (refl : ∀ s, kept s s)
    (trans : ∀ {s mid later}, kept s mid → kept mid later → kept s later)
    (each : ∀ label s result later, exec label s result later → allowed label → kept s later)
    {world : World σ L R} (may : ∀ label s result later, exec label s result later →
      world.exec label s result later) (follows : (Protocol.only allowed).Follows () prog)
    (ran : Alone exec prog s did later) {start : Config σ L R} {events : List (Event σ L R)} {i : Nat}
    {procs : List (Prog L R)} (before : Steps world start events ⟨s, procs⟩) (running : procs[i]? = some prog) :
    ∃ more procs, Steps world start (events ++ more) ⟨later, procs⟩ ∧
      ∀ e ∈ more, e.proc = i ∧ kept s e.before := by
  induction ran generalizing events procs with
  | done s =>
    refine ⟨[], procs, by simpa using before, ?_⟩
    exact fun _ member => (List.not_mem_nil member).elim
  | act ran rest ih =>
    obtain ⟨allowed, next⟩ := follows
    have first := each _ _ _ _ ran allowed
    have stepped := before.act i _ _ running _ _ (may _ _ _ _ ran)
    have inside := (List.getElem?_eq_some_iff.mp running).1
    obtain ⟨more, procs, longer, own⟩ := ih (next _ _ trivial) stepped (List.getElem?_set_self inside)
    rw [List.append_assoc] at longer
    refine ⟨_, procs, longer, ?_⟩
    intro e member
    rcases List.mem_cons.mp member with here | member
    · subst here
      exact ⟨rfl, refl _⟩
    · obtain ⟨mine, same⟩ := own e member
      exact ⟨mine, trans first same⟩

theorem of_inline {body : C → Prog L R} {prog : Prog (L ⊕ C) (CallResult R)}
    (ran : Alone exec (prog.inline body) s did later) :
    ∃ log, Alone (CallExec exec body) prog s log later := by
  induction prog generalizing s did with
  | done =>
    cases ran
    exact ⟨[], .done _⟩
  | act action next ih =>
    cases action with
    | inl label =>
      cases ran with
      | act ran rest =>
        obtain ⟨log, rest⟩ := ih _ rest
        exact ⟨_, .act (.act ran) rest⟩
    | inr call =>
      obtain ⟨first, mid, second, begun, ended⟩ := ran.split
      obtain ⟨log, rest⟩ := ih () ended
      exact ⟨_, .act (.call begun) rest⟩

end Alone

namespace Prog

variable {body : C → Prog L R}

theorem andThen_assoc (first second third : Prog L R) :
    (first.andThen second).andThen third = first.andThen (second.andThen third) := by
  induction first with
  | done => rfl
  | act label next ih =>
    show Prog.act label _ = Prog.act label _
    congr 1
    funext result
    exact ih result

theorem andThen_done (prog : Prog L R) : prog.andThen .done = prog := by
  induction prog with
  | done => rfl
  | act label next ih =>
    show Prog.act label _ = Prog.act label _
    congr 1
    funext result
    exact ih result

theorem inline_andThen (first second : Prog (L ⊕ C) (CallResult R)) :
    (first.andThen second).inline body = (first.inline body).andThen (second.inline body) := by
  induction first with
  | done => rfl
  | act action next ih =>
    cases action with
    | inl label =>
      show Prog.act label _ = Prog.act label _
      congr 1
      funext result
      exact ih result
    | inr call =>
      show (body call).andThen _ = ((body call).andThen _).andThen _
      rw [andThen_assoc, ← ih ()]

theorem inline_forEach (items : List α) (each : α → Prog (L ⊕ C) (CallResult R)) :
    (forEach each items).inline body = forEach (fun item => (each item).inline body) items := by
  induction items with
  | nil => rfl
  | cons item rest ih =>
    show ((each item).andThen (forEach each rest)).inline body = _
    rw [inline_andThen, ih]
    rfl

theorem forEach_done {each : α → Prog L R} {items : List α} (idle : ∀ item ∈ items, each item = .done) :
    forEach each items = .done := by
  induction items with
  | nil => rfl
  | cons item rest ih =>
    show (each item).andThen (forEach each rest) = .done
    rw [idle item (by simp), ih fun other member => idle other (by simp [member])]
    rfl

end Prog

namespace Setting

theorem Ensures.of_follows {setting : Setting σ L R} {allowed : L → Prop}
    (kept : ∀ label s result after, allowed label → setting.promise label s result after)
    (follows : (Protocol.only allowed).Follows () prog) :
    setting.Ensures (fun _ _ => True) did prog s := by
  induction prog generalizing s did with
  | done => exact fun _ _ => trivial
  | act label next ih =>
    obtain ⟨allowed, rest⟩ := follows
    intro met _ result after _
    exact ⟨kept label met result after allowed, ih result (rest result () trivial)⟩

def alone (exec : (label : L) → σ → R label → σ → Prop) : Setting σ L R where
  exec := exec
  promise _ _ _ _ := True
  rely := Eq
  refl _ := rfl
  trans := Eq.trans

variable {post : List ((label : L) × R label) → σ → Prop}

theorem Ensures.of_act {label : L} {next : R label → Prog L R}
    (each : ∀ result after, exec label s result after →
      (alone exec).Ensures post (did ++ [⟨label, result⟩]) (next result) after) :
    (alone exec).Ensures post did (.act label next) s := by
  intro met same result after ran
  cases same
  exact ⟨trivial, each result after ran⟩

theorem Ensures.of_done (holds : post did s) : (alone exec).Ensures post did .done s := by
  intro met same
  cases same
  exact holds

theorem Ensures.of_protocol {Q : Type} {protocol : Protocol Q L R} {stage : Q}
    {inv : Q → List ((label : L) × R label) → σ → Prop}
    (each : ∀ stage did label s result after, protocol.allowed stage label → exec label s result after →
      inv stage did s → ∃ later, protocol.next stage label result later ∧
        inv later (did ++ [⟨label, result⟩]) after)
    (follows : protocol.Follows stage prog) (start : inv stage did s) :
    (alone exec).Ensures (fun did s => ∃ stage, inv stage did s) did prog s := by
  induction prog generalizing stage did s with
  | done => exact Ensures.of_done ⟨stage, start⟩
  | act label next ih =>
    obtain ⟨allowed, rest⟩ := follows
    apply Ensures.of_act
    intro result after ran
    obtain ⟨later, reached, holds⟩ := each stage did label s result after allowed ran start
    exact ih result (rest result later reached) holds

theorem Ensures.run (ensures : (alone exec).Ensures post did prog s) (ran : Alone exec prog s log later) :
    post (did ++ log) later := by
  induction ran generalizing did with
  | done s =>
    rw [List.append_nil]
    exact ensures s rfl
  | act ran rest ih =>
    have next := ih (ensures _ rfl _ _ ran).2
    rw [List.append_assoc] at next
    exact next

end Setting

theorem Steps.allowed {world : World σ L R} {c last : Config σ L R}
    {events : List (Event σ L R)} (steps : Steps world c events last) {i : Nat} {allowed : L → Prop}
    (running : c.procs[i]? = some prog) (follows : (Protocol.only allowed).Follows () prog) :
    ∀ e ∈ events, e.proc = i → allowed e.label := by
  let setting : Setting σ L R :=
    ⟨world.exec, fun label _ _ _ => allowed label, fun _ _ => True, fun _ => trivial, fun _ _ => trivial⟩
  have ensures : setting.Ensures (fun _ _ => True) [] prog c.state :=
    Setting.Ensures.of_follows (fun _ _ _ _ may => may) follows
  exact (ensures.steps running steps (fun e member _ => steps.exec e member) (fun _ _ _ => trivial)
    fun _ _ _ _ => trivial).1

end Concurrency
