import Mathlib.Logic.Function.Basic

namespace Go

abbrev GoString := List UInt8

def bytes (text : String) : GoString := text.toUTF8.data.toList

theorem bytes_injective : Function.Injective bytes := by
  intro first second same
  exact String.toByteArray_inj.mp (ByteArray.ext (Array.toList_inj.mp same))

theorem decimal_injective : Function.Injective Nat.repr := by
  intro first second same
  rw [Nat.repr_eq_ofList_toDigits, Nat.repr_eq_ofList_toDigits] at same
  have values := congrArg (Nat.ofDigitChars 10 · 0) (String.ofList_injective same)
  simpa only [Nat.ofDigitChars_ten_toDigits] using values

def hexDigit (n : Nat) : Char := if n < 10 then Char.ofNat (48 + n) else Char.ofNat (87 + n)

def hexEncode (data : List UInt8) : String :=
  String.ofList (data.flatMap fun byte => [hexDigit (byte.toNat / 16), hexDigit (byte.toNat % 16)])

theorem hexDigit_injective {a b : Nat} (first : a < 16) (second : b < 16)
    (same : hexDigit a = hexDigit b) : a = b := by
  have finite : ∀ x < 16, ∀ y < 16, hexDigit x = hexDigit y → x = y := by decide
  exact finite a first b second same

theorem hexEncode_injective : Function.Injective hexEncode := by
  intro first second same
  have lists := String.ofList_injective same
  clear same
  induction first generalizing second with
  | nil =>
    cases second with
    | nil => rfl
    | cons => simp at lists
  | cons byte rest ih =>
    cases second with
    | nil => simp at lists
    | cons other tail =>
      simp only [List.flatMap_cons, List.cons_append, List.nil_append, List.cons.injEq] at lists
      obtain ⟨high, low, rest_same⟩ := lists
      have below := byte.toNat_lt
      have below' := other.toNat_lt
      have quotient := hexDigit_injective (by omega) (by omega) high
      have remainder := hexDigit_injective (by omega) (by omega) low
      have value : byte.toNat = other.toNat := by omega
      rw [UInt8.toNat_inj.mp value, ih rest_same]

end Go
