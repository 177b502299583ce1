import Mathlib.Algebra.Order.Floor.Div
import DistributedFs.Client.Chunker

namespace DistributedFs.Client

open Go

structure Partition (n : ℕ) (chunkSize : Int64) (ds : List ChunkDescriptor) : Prop where
  count : ds.length = n ⌈/⌉ chunkSize.toInt.toNat
  position : ∀ (i : ℕ) d, ds[i]? = some d →
    d.chunkIndex = i ∧ d.offset.toInt = (i * chunkSize.toInt.toNat : ℕ)
  full : ∀ (i : ℕ) d, ds[i]? = some d → i + 1 < ds.length → d.size = chunkSize
  positive : ∀ d ∈ ds, 0 < d.size.toInt
  consecutive : ∀ (i : ℕ) d next, ds[i]? = some d → ds[i + 1]? = some next →
    d.offset.toInt + d.size.toInt = next.offset.toInt
  disjoint : ds.Pairwise fun d e => d.offset.toInt + d.size.toInt ≤ e.offset.toInt
  covers : ∀ b : ℤ, (∃ d ∈ ds, d.offset.toInt ≤ b ∧ b < d.offset.toInt + d.size.toInt) ↔ 0 ≤ b ∧ b < n
  noOverflow : ∀ d ∈ ds, (d.offset + chunkSize).toInt = d.offset.toInt + chunkSize.toInt

/-- The size, rounded to a `float64`, lies past the end of the last chunk but one by more than
    half a unit of the quotient and past the end of the last one by at most that, and the
    end of the last chunk is an `int64`. -/
structure CountExact (n c : ℕ) : Prop where
  past : 1 < n ⌈/⌉ c →
    (((n ⌈/⌉ c - 1 : ℕ) : ℚ) + Float64.ulp ((n ⌈/⌉ c - 1 : ℕ) : ℚ) / 2) * c < Float64.ofInt n
  within : Float64.ofInt n ≤ (((n ⌈/⌉ c : ℕ) : ℚ) + Float64.ulp ((n ⌈/⌉ c : ℕ) : ℚ) / 2) * c
  fits : n ⌈/⌉ c * c < 2 ^ 63

theorem lt_ceilDiv {n c : ℕ} (size : 0 < c) (i : ℕ) : i < n ⌈/⌉ c ↔ i * c < n := by
  have least := ceilDiv_le_iff_le_mul (b := n) (c := i) size
  rw [mul_comm] at least
  omega

theorem le_ceilDiv_mul {n c : ℕ} (size : 0 < c) : n ≤ n ⌈/⌉ c * c := by
  have enough := (lt_ceilDiv (n := n) size (n ⌈/⌉ c)).not.mp (Nat.lt_irrefl _)
  omega

section

variable {n : ℕ} {chunkSize : Int64} (range : n < 2 ^ 63) (sizeOk : ChunkSizeOk chunkSize)
include range sizeOk

theorem numChunks_eq_iff :
    (numChunks (Int64.ofNat n) chunkSize).toNat = n ⌈/⌉ chunkSize.toInt.toNat ↔
      (1 < n ⌈/⌉ chunkSize.toInt.toNat →
        (((n ⌈/⌉ chunkSize.toInt.toNat - 1 : ℕ) : ℚ) +
          Float64.ulp ((n ⌈/⌉ chunkSize.toInt.toNat - 1 : ℕ) : ℚ) / 2) * chunkSize.toInt.toNat <
            Float64.ofInt n) ∧
      Float64.ofInt n ≤ (((n ⌈/⌉ chunkSize.toInt.toNat : ℕ) : ℚ) +
        Float64.ulp ((n ⌈/⌉ chunkSize.toInt.toNat : ℕ) : ℚ) / 2) * chunkSize.toInt.toNat := by
  have low := sizeOk.low
  have high := sizeOk.high
  have total : (Int64.ofNat n).toInt = n := Int64.toInt_ofNat_of_lt (by omega)
  obtain ⟨c, same⟩ : ∃ c : ℕ, chunkSize.toInt = c := ⟨_, (Int.toNat_of_nonneg (by omega)).symm⟩
  rw [numChunks, total, same, Int.toNat_natCast, Float64.div, Float64.ofInt_eq (n := c) (by omega) (by omega)]
  have cpos : (0 : ℚ) < c := by exact_mod_cast (show 0 < c by omega)
  rcases Nat.eq_zero_or_pos n with empty | nonempty
  · have unit := Float64.ulp_pos 0
    simp only [empty, zero_ceilDiv, Float64.ofInt, Nat.cast_zero, Int.cast_zero, Float64.round_zero,
      zero_div, Int.ceil_zero, Int.toNat_zero, Nat.not_lt_zero, false_imp_iff, zero_add, true_and, true_iff]
    positivity
  · obtain ⟨k, count⟩ : ∃ k, n ⌈/⌉ c = k + 1 := by
      have first := (lt_ceilDiv (n := n) (show 0 < c by omega) 0).mpr (by omega)
      exact ⟨n ⌈/⌉ c - 1, by omega⟩
    have inside := (lt_ceilDiv (n := n) (show 0 < c by omega) k).mp (by omega)
    have size : k * 65536 ≤ k * c := Nat.mul_le_mul_left k (by omega)
    have positive : 0 < Float64.ofInt n := Float64.round_pos (by exact_mod_cast nonempty)
    have quotient : 0 < Float64.ofInt n / c := by positivity
    have natural : (⌈Float64.round (Float64.ofInt n / c)⌉.toNat = k + 1) ↔
        ⌈Float64.round (Float64.ofInt n / c)⌉ = k + 1 := by omega
    rw [count, natural, Float64.ceil_round_iff quotient (by omega), lt_div_iff₀ cpos, div_le_iff₀ cpos]
    simp only [Nat.add_sub_cancel, Nat.lt_add_left_iff_pos]

theorem countExact_iff :
    CountExact n chunkSize.toInt.toNat ↔
      (numChunks (Int64.ofNat n) chunkSize).toNat = n ⌈/⌉ chunkSize.toInt.toNat ∧
        n ⌈/⌉ chunkSize.toInt.toNat * chunkSize.toInt.toNat < 2 ^ 63 := by
  rw [numChunks_eq_iff range sizeOk]
  exact ⟨fun ⟨past, within, fits⟩ => ⟨⟨past, within⟩, fits⟩,
    fun ⟨⟨past, within⟩, fits⟩ => ⟨past, within, fits⟩⟩

end

theorem countExact_of_le {n : ℕ} {chunkSize : Int64} (bound : n ≤ 2 ^ 53) (sizeOk : ChunkSizeOk chunkSize) :
    CountExact n chunkSize.toInt.toNat := by
  have low : 65536 ≤ chunkSize.toInt.toNat := by
    have := sizeOk.low
    omega
  have high : chunkSize.toInt.toNat ≤ 67108864 := by
    have := sizeOk.high
    omega
  generalize chunkSize.toInt.toNat = c at low high
  have exact : Float64.ofInt n = n := by
    rcases Nat.eq_zero_or_pos n with empty | nonempty
    · rw [empty]
      exact Float64.round_zero
    · exact Float64.ofInt_eq nonempty bound
  have enough := le_ceilDiv_mul (n := n) (show 0 < c by omega)
  have before (several : 0 < n ⌈/⌉ c) : (n ⌈/⌉ c - 1) * c < n :=
    (lt_ceilDiv (show 0 < c by omega) _).mp (by omega)
  rw [Nat.sub_one_mul] at before
  refine ⟨?_, ?_, ?_⟩
  · intro several
    rw [exact]
    apply Float64.half_ulp_mul_lt (by omega) _ bound
    rw [Nat.sub_one_mul]
    exact before (by omega)
  · have cast : (n : ℚ) ≤ (n ⌈/⌉ c : ℕ) * c := by exact_mod_cast enough
    have unit := Float64.ulp_pos ((n ⌈/⌉ c : ℕ) : ℚ)
    rw [exact, add_mul]
    have natural : 0 ≤ Float64.ulp ((n ⌈/⌉ c : ℕ) : ℚ) / 2 * c := by positivity
    linarith
  · rcases Nat.eq_zero_or_pos (n ⌈/⌉ c) with none | several
    · rw [none, Nat.zero_mul]
      norm_num
    · have last := before several
      omega

section

variable {fileID : String} {totalSize chunkSize : Int64} {d : ChunkDescriptor}

theorem getElem?_generateDescriptors {i : ℕ} :
    (generateDescriptors fileID totalSize chunkSize)[i]? = some d ↔
      i < (numChunks totalSize chunkSize).toNat ∧ d = descriptorAt fileID totalSize chunkSize i := by
  rw [generateDescriptors, List.getElem?_map, Option.map_eq_some_iff]
  constructor
  · rintro ⟨j, found, rfl⟩
    obtain ⟨inside, rfl⟩ := List.getElem?_eq_some_iff.mp found
    rw [List.getElem_range]
    rw [List.length_range] at inside
    exact ⟨inside, rfl⟩
  · rintro ⟨inside, rfl⟩
    exact ⟨i, List.getElem?_range inside, rfl⟩

theorem length_generateDescriptors (fileID : String) :
    (generateDescriptors fileID totalSize chunkSize).length = (numChunks totalSize chunkSize).toNat := by
  rw [generateDescriptors, List.length_map, List.length_range]

end

structure Placed (n : ℕ) (chunkSize : Int64) (i : ℕ) (d : ChunkDescriptor) : Prop where
  index : d.chunkIndex = i
  inside : i * chunkSize.toInt.toNat < n
  offset : d.offset.toInt = (i * chunkSize.toInt.toNat : ℕ)
  size : d.size.toInt = (min chunkSize.toInt.toNat (n - i * chunkSize.toInt.toNat) : ℕ)
  next : (d.offset + chunkSize).toInt = d.offset.toInt + chunkSize.toInt

theorem placed_descriptorAt (fileID : String) {n i : ℕ} {chunkSize : Int64} (range : n < 2 ^ 63)
    (sizeOk : ChunkSizeOk chunkSize) (fits : n ⌈/⌉ chunkSize.toInt.toNat * chunkSize.toInt.toNat < 2 ^ 63)
    (below : i < n ⌈/⌉ chunkSize.toInt.toNat) :
    Placed n chunkSize i (descriptorAt fileID (Int64.ofNat n) chunkSize i) := by
  have low := sizeOk.low
  have inside := (lt_ceilDiv (show 0 < chunkSize.toInt.toNat by omega) i).mp below
  have room : (i + 1) * chunkSize.toInt.toNat < 2 ^ 63 :=
    lt_of_le_of_lt (Nat.mul_le_mul_right _ below) fits
  have offset := toInt_offset sizeOk fileID (Int64.ofNat n) (i := i) (by omega)
  refine ⟨rfl, inside, ?_, toInt_size sizeOk fileID range inside room, ?_⟩
  · rw [offset, Nat.cast_mul]
  · rw [toInt_next sizeOk fileID (Int64.ofNat n) room, offset]
    push_cast
    rw [add_mul, one_mul, Int.toNat_of_nonneg (by omega)]

theorem Placed.ends {n i : ℕ} {chunkSize : Int64} {d : ChunkDescriptor} (placed : Placed n chunkSize i d)
    (positive : 0 < chunkSize.toInt) :
    0 < d.size.toInt ∧ d.offset.toInt + d.size.toInt ≤ n ∧
      ((i + 1) * chunkSize.toInt.toNat < n → d.size.toInt = chunkSize.toInt) := by
  have start := placed.inside
  rw [placed.offset, placed.size, Nat.add_mul, Nat.one_mul]
  omega

section

variable {n : ℕ} {chunkSize : Int64} {ds : List ChunkDescriptor} (positive : 0 < chunkSize.toInt)
  (count : ds.length = n ⌈/⌉ chunkSize.toInt.toNat)
  (placed : ∀ (i : ℕ) d, ds[i]? = some d → Placed n chunkSize i d)
include positive count placed

theorem covers_of_placed (b : ℤ) :
    (∃ d ∈ ds, d.offset.toInt ≤ b ∧ b < d.offset.toInt + d.size.toInt) ↔ 0 ≤ b ∧ b < n := by
  have size : 0 < chunkSize.toInt.toNat := by omega
  constructor
  · rintro ⟨d, member, low, high⟩
    obtain ⟨i, found⟩ := List.mem_iff_getElem?.mp member
    have bound := ((placed i d found).ends positive).2.1
    rw [(placed i d found).offset] at low
    omega
  · rintro ⟨natural, bound⟩
    -- the byte lies in the chunk its quotient names
    have floor : b.toNat / chunkSize.toInt.toNat * chunkSize.toInt.toNat ≤ b.toNat := Nat.div_mul_le_self _ _
    have ceiling : b.toNat < (b.toNat / chunkSize.toInt.toNat + 1) * chunkSize.toInt.toNat := by
      rw [Nat.mul_comm]
      exact Nat.lt_mul_div_succ _ size
    have below : b.toNat / chunkSize.toInt.toNat < ds.length := by
      rw [count, lt_ceilDiv size]
      omega
    have found := List.getElem?_eq_getElem below
    refine ⟨_, List.mem_of_getElem? found, ?_⟩
    rw [(placed _ _ found).offset, (placed _ _ found).size]
    rw [Nat.add_mul, Nat.one_mul] at ceiling
    omega

theorem partition_of_placed : Partition n chunkSize ds := by
  have size : 0 < chunkSize.toInt.toNat := by omega
  have full (i : ℕ) (d : ChunkDescriptor) (found : ds[i]? = some d) (more : i + 1 < ds.length) :
      d.size.toInt = chunkSize.toInt := by
    apply ((placed i d found).ends positive).2.2
    rw [count] at more
    exact (lt_ceilDiv size (i + 1)).mp more
  refine ⟨count, ?_, ?_, ?_, ?_, ?_, covers_of_placed positive count placed, ?_⟩
  · intro i d found
    exact ⟨(placed i d found).index, (placed i d found).offset⟩
  · intro i d found more
    exact Int64.toInt_inj.mp (full i d found more)
  · intro d member
    obtain ⟨i, found⟩ := List.mem_iff_getElem?.mp member
    exact ((placed i d found).ends positive).1
  · intro i d next found after
    have more : i + 1 < ds.length := (List.getElem?_eq_some_iff.mp after).1
    rw [full i d found more, (placed i d found).offset, (placed (i + 1) next after).offset, Nat.add_mul,
      Nat.one_mul]
    omega
  · rw [List.pairwise_iff_getElem]
    intro i j below last order
    have first := List.getElem?_eq_getElem below
    have second := List.getElem?_eq_getElem last
    have step : (i + 1) * chunkSize.toInt.toNat ≤ j * chunkSize.toInt.toNat := Nat.mul_le_mul_right _ order
    rw [full i _ first (by omega), (placed i _ first).offset, (placed j _ second).offset]
    rw [Nat.add_mul, Nat.one_mul] at step
    omega
  · intro d member
    obtain ⟨i, found⟩ := List.mem_iff_getElem?.mp member
    exact (placed i d found).next

end

theorem Partition.fits {n : ℕ} {chunkSize : Int64} {ds : List ChunkDescriptor}
    (positive : 0 < chunkSize.toInt) (parts : Partition n chunkSize ds) :
    n ⌈/⌉ chunkSize.toInt.toNat * chunkSize.toInt.toNat < 2 ^ 63 := by
  rw [← parts.count]
  rcases Nat.eq_zero_or_pos ds.length with none | several
  · rw [none, Nat.zero_mul]
    norm_num
  · have last : ds.length - 1 < ds.length := by omega
    have found := List.getElem?_eq_getElem last
    have bound := Int64.toInt_lt (ds[ds.length - 1].offset + chunkSize)
    rw [parts.noOverflow _ (List.mem_of_getElem? found), (parts.position _ _ found).2, Nat.sub_one_mul] at bound
    have product := Nat.le_mul_of_pos_left chunkSize.toInt.toNat several
    omega

theorem descriptors_partition_iff (fileID : String) {n : ℕ} (range : n < 2 ^ 63) {chunkSize : Int64}
    (sizeOk : ChunkSizeOk chunkSize) :
    Partition n chunkSize (generateDescriptors fileID (Int64.ofNat n) chunkSize) ↔
      CountExact n chunkSize.toInt.toNat := by
  have low := sizeOk.low
  rw [countExact_iff range sizeOk, ← length_generateDescriptors fileID]
  constructor
  · intro parts
    exact ⟨parts.count, parts.fits (by omega)⟩
  · rintro ⟨count, fits⟩
    refine partition_of_placed (by omega) count ?_
    intro i d found
    obtain ⟨below, rfl⟩ := getElem?_generateDescriptors.mp found
    rw [← length_generateDescriptors fileID, count] at below
    exact placed_descriptorAt fileID range sizeOk fits below

theorem descriptors_partition_iff_small :
    Partition 150000 65536 (generateDescriptors "letter" (Int64.ofNat 150000) 65536) :=
  (descriptors_partition_iff "letter" (by decide) ⟨by decide, by decide⟩).mpr
    (countExact_of_le (by decide) ⟨by decide, by decide⟩)

/-- The size has 54 bits and is rounded to a multiple of the chunk size: no descriptor holds
    the last byte. -/
theorem last_byte_lost :
    numChunks (Int64.ofNat (2 ^ 53 + 1)) 65536 = 2 ^ 37 ∧
      ¬ Partition (2 ^ 53 + 1) 65536 (generateDescriptors "letter" (Int64.ofNat (2 ^ 53 + 1)) 65536) := by
  have rounded : Float64.ofInt (2 ^ 53 + 1 : ℕ) = (2 ^ 53 : ℕ) := by
    have exponent : Int.log 2 ((((2 ^ 53 + 1 : ℕ) : ℤ) : ℚ)) = 53 := by
      apply Float64.log_eq
      · norm_num
      · norm_num
    have mantissa : Float64.roundEven ((((2 ^ 53 + 1 : ℕ) : ℤ) : ℚ) * 2 ^ (52 - 53 : ℤ)) = 2 ^ 52 := by
      apply Float64.roundEven_add_half
      · norm_num
      · norm_num
      · norm_num
    rw [Float64.ofInt, Float64.round, Float64.scale, exponent, mantissa]
    norm_num
  have count : numChunks (Int64.ofNat (2 ^ 53 + 1)) 65536 = 2 ^ 37 := by
    have total : (Int64.ofNat (2 ^ 53 + 1)).toInt = (2 ^ 53 + 1 : ℕ) := by decide
    have size : (65536 : Int64).toInt = (65536 : ℕ) := by decide
    have quotient : ((2 ^ 53 : ℕ) : ℚ) / (65536 : ℕ) = ((2 ^ 37 : ℕ) : ℤ) := by norm_num
    rw [numChunks, total, size, rounded, Float64.ofInt_eq (by norm_num) (by norm_num), Float64.div, quotient]
    change ⌈Float64.ofInt (2 ^ 37 : ℕ)⌉ = _
    rw [Float64.ofInt_eq (by norm_num) (by norm_num)]
    norm_num
  refine ⟨count, ?_⟩
  intro parts
  have whole := parts.count
  rw [length_generateDescriptors, count] at whole
  revert whole
  decide

end DistributedFs.Client
