import Mathlib.Data.List.Sort

namespace Go

variable {α : Type}

structure StrictWeakOrder (less : α → α → Bool) : Prop where
  asymm : ∀ a b, less a b = true → less b a = false
  negTrans : ∀ a b c, less b a = false → less c b = false → less c a = false

/-- What `sort.Sort` and `sort.Slice` are documented to do. Neither is stable, so the order
    of elements that compare equal is open. -/
structure Sorter (α : Type) where
  sort : (α → α → Bool) → List α → List α
  perm : ∀ less values, (sort less values).Perm values
  sorted : ∀ less values, StrictWeakOrder less →
    (sort less values).Pairwise fun first second => less second first = false

/-- Insertion sort, which `sort` itself uses for short slices. -/
def insertionSorter (α : Type) : Sorter α where
  sort less values := values.insertionSort fun first second => less second first = false
  perm less values := List.perm_insertionSort _ values
  sorted less values order := by
    have total : Std.Total fun first second => less second first = false := by
      constructor
      intro a b
      cases above : less b a with
      | false => exact .inl rfl
      | true => exact .inr (order.asymm b a above)
    have trans : IsTrans α fun first second => less second first = false :=
      ⟨fun a b c => order.negTrans a b c⟩
    exact List.pairwise_insertionSort _ values

def firstLeast (less : α → α → Bool) (best : α) (rest : List α) : α :=
  rest.foldl (fun best value => if less value best then value else best) best

theorem firstLeast_mem (less : α → α → Bool) (best : α) (rest : List α) :
    firstLeast less best rest ∈ best :: rest := by
  induction rest generalizing best with
  | nil => exact List.mem_singleton_self best
  | cons value rest ih =>
    have kept := ih (if less value best then value else best)
    simp only [firstLeast, List.foldl_cons, List.mem_cons] at kept ⊢
    rcases kept with here | later
    · rw [here]
      split
      · exact .inr (.inl rfl)
      · exact .inl rfl
    · exact .inr (.inr later)

theorem StrictWeakOrder.flip {less : α → α → Bool} (order : StrictWeakOrder less) :
    StrictWeakOrder fun a b => less b a where
  asymm a b above := order.asymm b a above
  negTrans a b c first second := order.negTrans c b a second first

theorem firstLeast_least {less : α → α → Bool} (order : StrictWeakOrder less) (best : α) (rest : List α) :
    ∀ value ∈ best :: rest, less value (firstLeast less best rest) = false := by
  induction rest generalizing best with
  | nil =>
    intro value member
    cases List.mem_singleton.mp member
    by_contra above
    have self := order.asymm best best (by simpa [firstLeast] using above)
    simp [firstLeast, self] at above
  | cons next rest ih =>
    have later := ih (if less next best then next else best)
    have kept := later _ List.mem_cons_self
    show ∀ value ∈ best :: next :: rest,
      less value (firstLeast less (if less next best then next else best) rest) = false
    intro value member
    rcases List.mem_cons.mp member with rfl | member
    · by_cases smaller : less next value = true
      · rw [if_pos smaller] at kept ⊢
        exact order.negTrans _ next value kept (order.asymm next value smaller)
      · rw [if_neg smaller] at kept ⊢
        exact kept
    · rcases List.mem_cons.mp member with rfl | member
      · by_cases smaller : less value best = true
        · rw [if_pos smaller] at kept ⊢
          exact kept
        · rw [if_neg smaller] at kept ⊢
          exact order.negTrans _ best value kept (by simpa using smaller)
      · exact later value (List.mem_cons_of_mem _ member)

end Go
