import DistributedFs.Go.Basic
import DistributedFs.Go.Float64
import DistributedFs.Go.Sha256
import DistributedFs.Go.Text

namespace DistributedFs.Client

open Go

def computeChunkID (fileID : String) (index : Nat) : String :=
  hexEncode (Sha256.sum256 (bytes (fileID ++ index.repr)))

structure ChunkDescriptor where
  chunkID : String
  fileID : String
  chunkIndex : Nat
  offset : Int64
  size : Int64

def numChunks (totalSize chunkSize : Int64) : Int :=
  ⌈Float64.div (Float64.ofInt totalSize.toInt) (Float64.ofInt chunkSize.toInt)⌉

def descriptorAt (fileID : String) (totalSize chunkSize : Int64) (i : Nat) : ChunkDescriptor :=
  let offset := Int64.ofNat i * chunkSize
  { chunkID := computeChunkID fileID i, fileID := fileID, chunkIndex := i, offset := offset
    size := if totalSize < offset + chunkSize then totalSize - offset else chunkSize }

def generateDescriptors (fileID : String) (totalSize chunkSize : Int64) : List ChunkDescriptor :=
  (List.range (numChunks totalSize chunkSize).toNat).map (descriptorAt fileID totalSize chunkSize)

def errEOF : GoError := .new "EOF"

/-- `make([]byte, size)` and `ReadAt`, which fails when it cannot fill the buffer. -/
def readAt (content : List UInt8) (offset size : Int64) : Except GoError (List UInt8) :=
  let data := (content.drop offset.toInt.toNat).take size.toInt.toNat
  if offset.toInt < 0 then .error (.new "negative offset")
  else if data.length < size.toInt.toNat then .error errEOF
  else .ok data

structure ChunkSizeOk (chunkSize : Int64) : Prop where
  low : 65536 ≤ chunkSize.toInt
  high : chunkSize.toInt ≤ 67108864

section

variable {content : List UInt8} {chunkSize : Int64} (sizeOk : ChunkSizeOk chunkSize)
include sizeOk

theorem numChunks_eq (positive : 0 < content.length) (bound : content.length ≤ 2 ^ 53) :
    let count := (numChunks (Int64.ofNat content.length) chunkSize).toNat
    content.length ≤ count * chunkSize.toInt.toNat ∧
      ∀ i, i < count → i * chunkSize.toInt.toNat < content.length := by
  have low := sizeOk.low
  have high := sizeOk.high
  obtain ⟨c, same⟩ : ∃ c : ℕ, chunkSize.toInt = c := ⟨_, (Int.toNat_of_nonneg (by omega)).symm⟩
  have total : (Int64.ofNat content.length).toInt = content.length :=
    Int64.toInt_ofNat_of_lt (by omega)
  have ceiling : numChunks (Int64.ofNat content.length) chunkSize = ⌈(content.length : ℚ) / c⌉ := by
    rw [numChunks, total, same]
    exact Float64.ceil_div positive bound (by omega) (by omega)
  have cpos : (0 : ℚ) < c := by exact_mod_cast (show 0 < c by omega)
  rw [ceiling, same, Int.toNat_natCast]
  constructor
  · have upper : (content.length : ℚ) ≤ ⌈(content.length : ℚ) / c⌉ * c :=
      (div_le_iff₀ cpos).mp (Int.le_ceil _)
    have whole : (content.length : ℤ) ≤ ⌈(content.length : ℚ) / c⌉ * c := by exact_mod_cast upper
    have nonneg : 0 ≤ ⌈(content.length : ℚ) / c⌉ := Int.ceil_nonneg (by positivity)
    have cast : ((⌈(content.length : ℚ) / c⌉.toNat * c : ℕ) : ℤ) = ⌈(content.length : ℚ) / c⌉ * c := by
      push_cast
      rw [Int.toNat_of_nonneg nonneg]
    omega
  · intro i below
    have index : (i : ℤ) < ⌈(content.length : ℚ) / c⌉ := by omega
    have strict : (i : ℚ) < content.length / c := by exact_mod_cast Int.lt_ceil.mp index
    rw [lt_div_iff₀ cpos] at strict
    exact_mod_cast strict

theorem toInt_offset (fileID : String) (totalSize : Int64) {i : Nat}
    (fits : i * chunkSize.toInt.toNat < 2 ^ 63) :
    (descriptorAt fileID totalSize chunkSize i).offset.toInt = i * chunkSize.toInt.toNat := by
  have low := sizeOk.low
  have small : i ≤ i * chunkSize.toInt.toNat := Nat.le_mul_of_pos_right i (by omega)
  have product : (i : ℤ) * chunkSize.toInt < 2 ^ 63 := by
    have cast : ((i * chunkSize.toInt.toNat : ℕ) : ℤ) = i * chunkSize.toInt := by
      push_cast
      rw [Int.toNat_of_nonneg (by omega)]
    omega
  have nonneg : 0 ≤ (i : ℤ) * chunkSize.toInt := by positivity
  simp only [descriptorAt, Int64.toInt_mul, Int64.toInt_ofNat_of_lt (show i < 2 ^ 63 by omega)]
  rw [Int.bmod_eq_of_le (by omega) (by omega), Int.toNat_of_nonneg (by omega)]

theorem toInt_next (fileID : String) (totalSize : Int64) {i : Nat}
    (fits : (i + 1) * chunkSize.toInt.toNat < 2 ^ 63) :
    ((descriptorAt fileID totalSize chunkSize i).offset + chunkSize).toInt =
      (i + 1 : ℕ) * chunkSize.toInt.toNat := by
  have low := sizeOk.low
  rw [Nat.add_mul, Nat.one_mul] at fits
  rw [Int64.toInt_add, toInt_offset sizeOk fileID totalSize (by omega)]
  push_cast
  rw [add_mul, one_mul, Int.toNat_of_nonneg (by omega)]
  have cast : ((i * chunkSize.toInt.toNat : ℕ) : ℤ) = i * chunkSize.toInt := by
    push_cast
    rw [Int.toNat_of_nonneg (by omega)]
  exact Int.bmod_eq_of_le (by omega) (by omega)

theorem toInt_size (fileID : String) {n i : ℕ} (range : n < 2 ^ 63)
    (inside : i * chunkSize.toInt.toNat < n) (fits : (i + 1) * chunkSize.toInt.toNat < 2 ^ 63) :
    (descriptorAt fileID (Int64.ofNat n) chunkSize i).size.toInt =
      (min chunkSize.toInt.toNat (n - i * chunkSize.toInt.toNat) : ℕ) := by
  have low := sizeOk.low
  have total : (Int64.ofNat n).toInt = n := Int64.toInt_ofNat_of_lt (by omega)
  have offset := toInt_offset sizeOk fileID (Int64.ofNat n) (i := i) (by omega)
  have next := toInt_next sizeOk fileID (Int64.ofNat n) fits
  rw [Nat.add_mul, Nat.one_mul] at fits
  push_cast at next
  rw [add_mul, one_mul] at next
  have cast : ((i * chunkSize.toInt.toNat : ℕ) : ℤ) = (i : ℤ) * (chunkSize.toInt.toNat : ℤ) :=
    Int.natCast_mul _ _
  change (if Int64.ofNat n < (descriptorAt fileID (Int64.ofNat n) chunkSize i).offset + chunkSize then
    Int64.ofNat n - (descriptorAt fileID (Int64.ofNat n) chunkSize i).offset else chunkSize).toInt = _
  generalize (descriptorAt fileID (Int64.ofNat n) chunkSize i).offset = start at offset next ⊢
  split
  · rename_i past
    rw [Int64.lt_iff_toInt_lt, total, next] at past
    rw [Int64.toInt_sub, total, offset, Int.bmod_eq_of_le (by omega) (by omega)]
    omega
  · rename_i within
    rw [Int64.lt_iff_toInt_lt, total, next] at within
    omega

theorem offset_descriptorAt (fileID : String) (bound : content.length ≤ 2 ^ 53) {i : Nat}
    (inside : i * chunkSize.toInt.toNat < content.length) :
    (descriptorAt fileID (Int64.ofNat content.length) chunkSize i).offset.toInt =
      i * chunkSize.toInt.toNat :=
  toInt_offset sizeOk fileID _ (by omega)

theorem readAt_descriptorAt (fileID : String) (bound : content.length ≤ 2 ^ 53) {i : Nat}
    (inside : i * chunkSize.toInt.toNat < content.length) :
    let d := descriptorAt fileID (Int64.ofNat content.length) chunkSize i
    readAt content d.offset d.size =
      .ok ((content.drop (i * chunkSize.toInt.toNat)).take chunkSize.toInt.toNat) := by
  have high := sizeOk.high
  intro d
  have offset : d.offset.toInt = (i * chunkSize.toInt.toNat : ℕ) := by
    rw [offset_descriptorAt sizeOk fileID bound inside]
    push_cast
    rfl
  have size : d.size.toInt.toNat =
      min chunkSize.toInt.toNat (content.length - i * chunkSize.toInt.toNat) := by
    have fits : (i + 1) * chunkSize.toInt.toNat < 2 ^ 63 := by
      rw [Nat.add_mul, Nat.one_mul]
      omega
    rw [toInt_size sizeOk fileID (by omega) inside fits, Int.toNat_natCast]
  generalize i * chunkSize.toInt.toNat = start at inside offset size ⊢
  have data : (content.drop start).take (min chunkSize.toInt.toNat (content.length - start)) =
      (content.drop start).take chunkSize.toInt.toNat := by
    rw [← List.length_drop, ← List.take_eq_take_min]
  have filled : ((content.drop start).take chunkSize.toInt.toNat).length =
      min chunkSize.toInt.toNat (content.length - start) := by
    rw [List.length_take, List.length_drop]
  simp only [readAt, offset, Int.toNat_natCast, size, data, filled, Nat.lt_irrefl, if_false]
  rw [if_neg (by omega)]

end

theorem computeChunkID_injective {fileID : String} {S : Set (List UInt8)}
    (collisionFree : Set.InjOn Sha256.sum256 S) {i j : Nat} (first : bytes (fileID ++ i.repr) ∈ S)
    (second : bytes (fileID ++ j.repr) ∈ S) (same : computeChunkID fileID i = computeChunkID fileID j) :
    i = j := by
  have hashes := hexEncode_injective same
  have inputs := bytes_injective (collisionFree first second hashes)
  exact decimal_injective ((String.append_right_inj fileID).mp inputs)

end DistributedFs.Client
