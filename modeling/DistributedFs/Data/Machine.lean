abbrev Machine (ι σ ω : Type) := ι → σ → ω × σ

namespace Machine

variable {ι σ τ ω : Type}

def run (step : Machine ι σ ω) : List ι → σ → List ω × σ
  | [], s => ([], s)
  | input :: rest, s =>
    let first := step input s
    let later := run step rest first.2
    (first.1 :: later.1, later.2)

/-- The steps of `concrete` answer as those of `spec` do and keep the relation. -/
def Simulates (concrete : Machine ι σ ω) (spec : Machine ι τ ω) (related : σ → τ → Prop) : Prop :=
  ∀ input s t, related s t →
    (concrete input s).1 = (spec input t).1 ∧ related (concrete input s).2 (spec input t).2

theorem Simulates.run {concrete : Machine ι σ ω} {spec : Machine ι τ ω} {related : σ → τ → Prop}
    (simulates : Simulates concrete spec related) (inputs : List ι) :
    ∀ {s : σ} {t : τ}, related s t → (concrete.run inputs s).1 = (spec.run inputs t).1 ∧
      related (concrete.run inputs s).2 (spec.run inputs t).2 := by
  induction inputs with
  | nil =>
    intro s t held
    exact ⟨rfl, held⟩
  | cons input rest ih =>
    intro s t held
    obtain ⟨answered, later⟩ := simulates input s t held
    obtain ⟨answers, final⟩ := ih later
    refine ⟨?_, final⟩
    simp only [Machine.run]
    rw [answered, answers]

end Machine
