import DistributedFs.Concurrency.Erasure
import DistributedFs.Concurrency.RelyGuarantee

namespace Concurrency

variable {σ Q L Γ α : Type} {R : L → Type}

/-- A property of programs in a context, which says what is known where the program starts, and
    the contexts that may be met later on. -/
structure Judgement (Γ L : Type) (R : L → Type) where
  holds : Γ → Prog L R → Prop
  later : Γ → Γ → Prop
  refl : ∀ c, later c c
  trans : ∀ {c d e}, later c d → later d e → later c e
  done : ∀ c, holds c .done

namespace Judgement

variable (J : Judgement Γ L R)

/-- In this context the action may be taken: only what follows it is left to show. -/
def Takes (c : Γ) (label : L) : Prop :=
  ∀ next : R label → Prog L R, (∀ d result, J.later c d → J.holds d (next result)) → J.holds c (.act label next)

structure Sequences : Prop where
  andThen : ∀ {c prog last}, J.holds c prog → (∀ d, J.later c d → J.holds d last) → J.holds c (prog.andThen last)

variable {J} {c : Γ}

theorem ite {P : Prop} [Decidable P] {first second : Prog L R} (yes : P → J.holds c first)
    (no : ¬P → J.holds c second) : J.holds c (if P then first else second) := by
  split
  · rename_i holds
    exact yes holds
  · rename_i fails
    exact no fails

theorem Takes.last {label : L} (takes : J.Takes c label) : J.holds c (.act label fun _ => .done) :=
  takes _ fun d _ _ => J.done d

theorem Sequences.forEach (sequences : J.Sequences) {body : α → Prog L R} (items : List α)
    (each : ∀ item ∈ items, ∀ d, J.later c d → J.holds d (body item)) : J.holds c (.forEach body items) := by
  induction items generalizing c with
  | nil => exact J.done c
  | cons item rest ih =>
    refine sequences.andThen (each item List.mem_cons_self c (J.refl c)) fun d onwards => ih ?_
    exact fun other member e more => each other (List.mem_cons_of_mem _ member) e (J.trans onwards more)

end Judgement

def Protocol.within (protocol : Protocol Q L R) (stages : Q → Prop) : Judgement {q // stages q} L R where
  holds stage prog := protocol.Follows stage prog
  later _ _ := True
  refl _ := trivial
  trans _ _ := trivial
  done _ := trivial

theorem Protocol.takes {protocol : Protocol Q L R} {stages : Q → Prop} {stage : {q // stages q}} {label : L}
    (allowed : protocol.allowed stage label)
    (kept : ∀ result later, protocol.next stage label result later → stages later) :
    (protocol.within stages).Takes stage label :=
  fun _ rest => ⟨allowed, fun result later reached => rest ⟨later, kept result later reached⟩ result trivial⟩

theorem Protocol.sequences (protocol : Protocol Q L R) : (protocol.within fun _ => True).Sequences :=
  ⟨fun first rest => first.andThen fun stage => rest ⟨stage, trivial⟩ trivial⟩

def Erasure.blindness (e : Erasure σ L R) : Judgement Unit L R where
  holds _ prog := e.Blind prog
  later _ _ := True
  refl _ := trivial
  trans _ _ := trivial
  done _ := trivial

theorem Erasure.takes {e : Erasure σ L R} {label : L} (visible : e.hidden label = false)
    (strict : ∀ first second, e.same label first second → first = second) (c : Unit) : e.blindness.Takes c label :=
  fun next rest => ⟨visible, fun _ _ same => congrArg next (strict _ _ same), fun result => rest c result trivial⟩

theorem Erasure.sequences (e : Erasure σ L R) : e.blindness.Sequences :=
  ⟨fun {c} _ _ first rest => first.andThen (rest c trivial)⟩

section Keeping

variable {setting : Setting σ L R} {inv : σ → Prop}

def Setting.keeping (setting : Setting σ L R) (inv : σ → Prop) : Judgement {s // inv s} L R where
  holds s prog := setting.Keeps prog s
  later s t := setting.rely s t
  refl s := setting.refl s
  trans := setting.trans
  done _ := trivial

variable (kept : ∀ {label s result later}, setting.exec label s result later →
    setting.promise label s result later → setting.rely s later)
  (stable : ∀ {s t}, setting.rely s t → inv s → inv t)

include kept stable

theorem Setting.takes {s : {s // inv s}} {label : L} (promise : ∀ t : {t // inv t}, setting.rely s t →
      ∀ result after, setting.exec label t result after → setting.promise label t result after) :
    (setting.keeping inv).Takes s label :=
  fun _ rest => Keeps.act kept (fun t result after others => promise ⟨t, stable others s.2⟩ others result after)
    fun t result others => rest ⟨t, stable others s.2⟩ result others

theorem Setting.sequences : (setting.keeping inv).Sequences :=
  ⟨fun {s} _ _ first rest => Keeps.andThen kept first fun t others => rest ⟨t, stable others s.2⟩ others⟩

end Keeping

end Concurrency
