import DistributedFs.Go.Basic
import DistributedFs.Go.Map

namespace Go

/-- The leaves that `encoding/json` writes for the fields of a flat struct. Text,
    byte strings, integers and timestamps are taken to survive the encoding. -/
inductive JsonLeaf where
  | str (text : String)
  | uint (value : UInt64)
  | int (value : Int)
  | bool (value : Bool)
  | bytes (value : List UInt8)
  | strs (values : List String)
  | time (value : Time)
deriving DecidableEq

abbrev JsonObject := List (String × JsonLeaf)

namespace JsonObject

def field {α : Type} (object : JsonObject) (tag : String) (zero : α) (read : JsonLeaf → Option α) :
    Except GoError α :=
  match object.lookup tag with
  | none => .ok zero
  | some leaf =>
    match read leaf with
    | some value => .ok value
    | none => .error (.new ("json: cannot unmarshal field " ++ tag))

def str (object : JsonObject) (tag : String) : Except GoError String :=
  object.field tag "" fun | .str text => some text | _ => none

def uint (object : JsonObject) (tag : String) : Except GoError UInt64 :=
  object.field tag 0 fun | .uint value => some value | _ => none

def int (object : JsonObject) (tag : String) : Except GoError Int :=
  object.field tag 0 fun | .int value => some value | _ => none

def bool (object : JsonObject) (tag : String) : Except GoError Bool :=
  object.field tag false fun | .bool value => some value | _ => none

def bytes (object : JsonObject) (tag : String) : Except GoError (List UInt8) :=
  object.field tag [] fun | .bytes value => some value | _ => none

def strs (object : JsonObject) (tag : String) : Except GoError (List String) :=
  object.field tag [] fun | .strs values => some values | _ => none

def time (object : JsonObject) (tag : String) : Except GoError Time :=
  object.field tag 0 fun | .time value => some value | _ => none

end JsonObject

def decodeValues {α β : Type} [Inhabited α] (read : β → Except GoError α) (m : GoMap β) :
    Except GoError (GoMap α) :=
  if ∀ entry ∈ m.entries, (read entry.2).isOk = true then
    .ok (m.mapValues fun value => (read value).toOption.getD default)
  else .error (.new "json: cannot unmarshal map value")

theorem decodeValues_written {α β : Type} [Inhabited α] (read : β → Except GoError α)
    (write : α → β) (kept : α → α) (roundTrip : ∀ value, read (write value) = .ok (kept value))
    (m : GoMap α) : decodeValues read (m.mapValues write) = .ok (m.mapValues kept) := by
  unfold decodeValues
  rw [if_pos, GoMap.mapValues_comp]
  · simp only [roundTrip, Except.toOption, Option.getD_some]
  · intro entry member
    obtain ⟨source, _, rfl⟩ := Multiset.mem_map.mp member
    simp [roundTrip, Except.isOk, Except.toBool]

end Go
