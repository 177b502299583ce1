import Mathlib.Data.Finmap
import Mathlib.Data.Finset.Sort
import Mathlib.Data.List.Sort
import Mathlib.Data.String.Basic

namespace Go

/-- A Go map with string keys. Equality is extensional, as a map has no order of its own. -/
abbrev GoMap (α : Type) := Finmap fun _ : String => α

/-- One choice of iteration order for `range` loops over maps: the keys of the
    map, each once. Go fixes nothing more, so every statement quantifies over it. -/
structure MapOrder where
  keys : Finset String → List String
  perm : ∀ s, (keys s : Multiset String) = s.val

theorem MapOrder.mem_keys (order : MapOrder) (s : Finset String) (key : String) :
    key ∈ order.keys s ↔ key ∈ s := by
  rw [← Multiset.mem_coe, order.perm, Finset.mem_val]

theorem MapOrder.nodup (order : MapOrder) (s : Finset String) : (order.keys s).Nodup := by
  rw [← Multiset.coe_nodup, order.perm]
  exact s.nodup

def MapOrder.sorted : MapOrder where
  keys s := Quot.liftOn s.val (List.insertionSort (· ≤ ·)) fun first second same =>
    List.Perm.eq_of_pairwise (fun _ _ _ _ => le_antisymm) (List.pairwise_insertionSort (· ≤ ·) first)
      (List.pairwise_insertionSort (· ≤ ·) second)
      (((List.perm_insertionSort (· ≤ ·) first).trans same).trans
        (List.perm_insertionSort (· ≤ ·) second).symm)
  perm s := by
    obtain ⟨val, _⟩ := s
    induction val using Quotient.inductionOn with
    | h l => exact Quotient.sound (List.perm_insertionSort (· ≤ ·) l)

instance : Inhabited MapOrder := ⟨MapOrder.sorted⟩

namespace GoMap

variable {α β : Type}

theorem lookup_insert (m : GoMap α) (key other : String) (value : α) :
    (m.insert key value).lookup other = if other = key then some value else m.lookup other := by
  by_cases same : other = key
  · subst other
    simp
  · simp [Finmap.lookup_insert_of_ne _ same, same]

def range (order : MapOrder) (m : GoMap α) : List (String × α) :=
  (order.keys m.keys).filterMap fun key => (m.lookup key).map fun value => (key, value)

theorem mem_range (order : MapOrder) (m : GoMap α) (key : String) (value : α) :
    (key, value) ∈ range order m ↔ m.lookup key = some value := by
  simp only [range, List.mem_filterMap, Option.map_eq_some_iff, Prod.mk.injEq]
  constructor
  · intro held
    obtain ⟨key, _, value, found, rfl, rfl⟩ := held
    exact found
  · intro found
    refine ⟨key, ?_, value, found, rfl, rfl⟩
    exact (order.mem_keys _ _).mpr (Finmap.mem_keys.mpr (Finmap.mem_of_lookup_eq_some found))

theorem range_keys_nodup (order : MapOrder) (m : GoMap α) : ((range order m).map Prod.fst).Nodup := by
  rw [range, List.map_filterMap]
  apply (order.nodup m.keys).filterMap
  intro key other found first second
  simp only [Option.map_map, Option.mem_def, Option.map_eq_some_iff, Function.comp_apply] at first second
  obtain ⟨_, _, rfl⟩ := first
  obtain ⟨_, _, same⟩ := second
  exact same.symm

theorem range_ids_nodup (order : MapOrder) {m : GoMap α} {id : α → String}
    (keyed : ∀ key value, m.lookup key = some value → id value = key) :
    (((range order m).map Prod.snd).map id).Nodup := by
  have same : ((range order m).map Prod.snd).map id = (range order m).map Prod.fst := by
    rw [List.map_map]
    apply List.map_congr_left
    intro entry member
    exact keyed entry.1 entry.2 ((mem_range order m _ _).mp member)
  rw [same]
  exact range_keys_nodup order m

instance (m : GoMap α) (P : String → α → Prop) [∀ key value, Decidable (P key value)] :
    Decidable (∀ key value, m.lookup key = some value → P key value) :=
  decidable_of_iff (∀ entry ∈ m.range default, P entry.1 entry.2)
    ⟨fun all key value found => all (key, value) ((mem_range _ m key value).mpr found),
      fun all entry member => all entry.1 entry.2 ((mem_range _ m entry.1 entry.2).mp member)⟩

def filterValues (keep : α → Bool) (m : GoMap α) : GoMap α where
  entries := m.entries.filter fun entry => keep entry.2
  nodupKeys := by
    have distinct := m.nodupKeys
    obtain ⟨entries, _⟩ := m
    induction entries using Quotient.inductionOn with
    | h l =>
      change (l.filter _).NodupKeys
      change l.NodupKeys at distinct
      exact distinct.sublist List.filter_sublist

def insertAll (m : GoMap α) (pairs : List (String × α)) : GoMap α :=
  pairs.foldl (fun m pair => m.insert pair.1 pair.2) m

theorem lookup_insertAll (m : GoMap α) (pairs : List (String × α)) (key : String) :
    (∃ value, (key, value) ∈ pairs ∧ (insertAll m pairs).lookup key = some value) ∨
      ((∀ value, (key, value) ∉ pairs) ∧ (insertAll m pairs).lookup key = m.lookup key) := by
  induction pairs generalizing m with
  | nil => exact .inr ⟨by simp, rfl⟩
  | cons head rest ih =>
    obtain ⟨other, stored⟩ := head
    change (∃ value, _ ∧ (insertAll (m.insert other stored) rest).lookup key = some value) ∨
      (_ ∧ (insertAll (m.insert other stored) rest).lookup key = m.lookup key)
    rcases ih (m.insert other stored) with ⟨value, member, found⟩ | ⟨absent, found⟩
    · exact .inl ⟨value, List.mem_cons_of_mem _ member, found⟩
    · rw [lookup_insert] at found
      by_cases same : key = other
      · rw [if_pos same] at found
        exact .inl ⟨stored, by simp [same], found⟩
      · rw [if_neg same] at found
        exact .inr ⟨by simp [same, absent], found⟩

theorem lookup_insertAll_of_absent (m : GoMap α) {pairs : List (String × α)} {key : String}
    (absent : ∀ entry ∈ pairs, entry.1 ≠ key) : (insertAll m pairs).lookup key = m.lookup key := by
  rcases lookup_insertAll m pairs key with ⟨value, member, _⟩ | ⟨_, found⟩
  · exact absurd rfl (absent _ member)
  · exact found

theorem lookup_insertAll_congr {m other : GoMap α} (pairs : List (String × α)) {key : String}
    (same : other.lookup key = m.lookup key) :
    (insertAll other pairs).lookup key = (insertAll m pairs).lookup key := by
  induction pairs generalizing m other with
  | nil => exact same
  | cons head rest ih =>
    apply ih
    rw [lookup_insert, lookup_insert, same]

theorem insertAll_comm (m : GoMap α) {first second : List (String × α)}
    (apart : ∀ entry ∈ first, ∀ other ∈ second, entry.1 ≠ other.1) :
    insertAll (insertAll m second) first = insertAll (insertAll m first) second := by
  apply Finmap.ext_lookup
  intro key
  by_cases written : ∃ entry ∈ first, entry.1 = key
  · obtain ⟨entry, member, rfl⟩ := written
    have absent (other : String × α) (listed : other ∈ second) : other.1 ≠ entry.1 :=
      (apart entry member other listed).symm
    rw [lookup_insertAll_of_absent _ absent]
    exact lookup_insertAll_congr first (lookup_insertAll_of_absent m absent)
  · have absent (entry : String × α) (member : entry ∈ first) : entry.1 ≠ key :=
      fun same => written ⟨entry, member, same⟩
    rw [lookup_insertAll_of_absent _ absent]
    exact (lookup_insertAll_congr second (lookup_insertAll_of_absent m absent)).symm

theorem insertAll_range (order : MapOrder) (m : GoMap α) : insertAll ∅ (range order m) = m := by
  apply Finmap.ext_lookup
  intro key
  rcases lookup_insertAll ∅ (range order m) key with ⟨value, member, found⟩ | ⟨absent, found⟩
  · rw [found, (mem_range order m key value).mp member]
  · rw [found, Finmap.lookup_empty]
    cases stored : m.lookup key with
    | none => rfl
    | some value => exact absurd ((mem_range order m key value).mpr stored) (absent value)

def mapValues (f : α → β) (m : GoMap α) : GoMap β where
  entries := m.entries.map fun entry => ⟨entry.1, f entry.2⟩
  nodupKeys := by
    have distinct := m.nodupKeys
    obtain ⟨entries, _⟩ := m
    induction entries using Quotient.inductionOn with
    | h l =>
      change (l.map _).NodupKeys
      change l.NodupKeys at distinct
      simpa only [List.NodupKeys, List.keys, List.map_map, Function.comp_def] using distinct

theorem lookup_mapValues (f : α → β) (m : GoMap α) (key : String) :
    (mapValues f m).lookup key = (m.lookup key).map f := by
  induction m using Finmap.induction_on with
  | H a =>
    obtain ⟨l, distinct⟩ := a
    change List.dlookup key (l.map fun entry => (⟨entry.1, f entry.2⟩ : Sigma fun _ : String => β)) =
      (List.dlookup key l).map f
    clear distinct
    induction l with
    | nil => rfl
    | cons head tail ih =>
      obtain ⟨other, value⟩ := head
      by_cases same : key = other
      · subst same
        simp
      · simp only [List.map_cons]
        rw [List.dlookup_cons_ne _ _ same, List.dlookup_cons_ne _ _ same, ih]

theorem mapValues_insert (f : α → β) (m : GoMap α) (key : String) (value : α) :
    mapValues f (m.insert key value) = (mapValues f m).insert key (f value) := by
  apply Finmap.ext_lookup
  intro other
  simp only [lookup_mapValues, lookup_insert]
  split <;> rfl

theorem mapValues_empty (f : α → β) : mapValues f (∅ : GoMap α) = ∅ := rfl

theorem keys_mapValues (f : α → β) (m : GoMap α) : (mapValues f m).keys = m.keys := by
  ext key
  simp only [Finmap.mem_keys, Finmap.mem_iff, lookup_mapValues, Option.map_eq_some_iff]
  constructor
  · intro held
    obtain ⟨_, value, found, _⟩ := held
    exact ⟨value, found⟩
  · intro held
    obtain ⟨value, found⟩ := held
    exact ⟨f value, value, found, rfl⟩

theorem mapValues_comp {γ : Type} (g : β → γ) (f : α → β) (m : GoMap α) :
    mapValues g (mapValues f m) = mapValues (fun value => g (f value)) m := by
  apply Finmap.ext_lookup
  intro key
  simp [lookup_mapValues, Function.comp_def]

theorem range_mapValues (order : MapOrder) (f : α → β) (m : GoMap α) :
    range order (mapValues f m) = (range order m).map fun entry => (entry.1, f entry.2) := by
  simp only [range, keys_mapValues, List.map_filterMap, lookup_mapValues]
  congr 1
  funext key
  cases m.lookup key <;> rfl

end GoMap

end Go
