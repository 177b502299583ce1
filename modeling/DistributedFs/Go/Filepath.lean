import DistributedFs.Go.Text
import Mathlib.Data.List.Basic

namespace Go

def slash : UInt8 := 47
def dot : UInt8 := 46

/-- A cleaned path by its parts, so that equal paths are equal values. -/
structure Path where
  rooted : Bool
  parts : List GoString
deriving DecidableEq

namespace Path

def cleanPart (rooted : Bool) (out : List GoString) (part : GoString) : List GoString :=
  if part = [] ∨ part = [dot] then out
  else if part = [dot, dot] then
    match out with
    | [] => if rooted then [] else [part]
    | last :: rest => if last = [dot, dot] then part :: out else rest
  else part :: out

/-- `filepath.Join`: leading empty elements are skipped, and the rest, joined with slashes,
    is cleaned. -/
def join (elems : List GoString) : Path :=
  let elems := elems.dropWhile (· = [])
  let rooted := decide (elems.head?.bind List.head? = some slash)
  ⟨rooted, ((elems.flatMap (List.splitOn slash)).foldl (cleanPart rooted) []).reverse⟩

def child (p : Path) (elem : GoString) : Path :=
  ⟨p.rooted, ((elem.splitOn slash).foldl (cleanPart p.rooted) p.parts.reverse).reverse⟩

def base (p : Path) : Option GoString := p.parts.getLast?

structure Plain (name : GoString) : Prop where
  noSlash : slash ∉ name
  nonempty : name ≠ []
  notDot : name ≠ [dot]
  notDotDot : name ≠ [dot, dot]

theorem splitOn_slash {name : GoString} (noSlash : slash ∉ name) : name.splitOn slash = [name] := by
  apply List.splitOnP_eq_singleton
  intro byte member
  simp only [beq_eq_false_iff_ne]
  intro same
  subst same
  exact noSlash member

theorem base_join (dirs : List GoString) {name : GoString} (plain : Plain name) :
    (join (dirs ++ [name])).base = some name := by
  obtain ⟨front, kept⟩ : ∃ front, (dirs ++ [name]).dropWhile (· = []) = front ++ [name] := by
    rw [List.dropWhile_append]
    split
    · exact ⟨[], by simp [plain.nonempty]⟩
    · exact ⟨_, rfl⟩
  simp only [base, join, kept, List.flatMap_append, List.flatMap_cons, List.flatMap_nil,
    splitOn_slash plain.noSlash, List.append_nil, List.foldl_append, List.foldl_cons, List.foldl_nil]
  simp [cleanPart, plain.nonempty, plain.notDot, plain.notDotDot]

theorem child_join (dirs : List GoString) {name : GoString} (plain : Plain name) :
    (join dirs).child name = join (dirs ++ [name]) := by
  have head : name.head? ≠ some slash := by
    intro first
    exact plain.noSlash (List.mem_of_mem_head? first)
  have kept : (dirs ++ [name]).dropWhile (· = []) = dirs.dropWhile (· = []) ++ [name] := by
    rw [List.dropWhile_append]
    split
    · rename_i none
      rw [List.isEmpty_iff] at none
      simp [none, plain.nonempty]
    · rfl
  simp only [child, join, kept, List.flatMap_append, List.flatMap_cons, List.flatMap_nil,
    List.append_nil, List.foldl_append, List.reverse_reverse]
  cases front : dirs.dropWhile (· = []) with
  | nil => simp [head]
  | cons first rest => rfl

def text (p : Path) : GoString :=
  if p.rooted then slash :: [slash].intercalate p.parts
  else if p.parts = [] then [dot]
  else [slash].intercalate p.parts

structure Cleaned (parts : List GoString) : Prop where
  noSlash : ∀ part ∈ parts, slash ∉ part
  named : ∀ part ∈ parts, part ≠ [] ∧ part ≠ [dot]

theorem Cleaned.append {first second : List GoString} (left : Cleaned first) (right : Cleaned second) :
    Cleaned (first ++ second) := by
  constructor
  · intro part member
    rcases List.mem_append.mp member with member | member
    · exact left.noSlash part member
    · exact right.noSlash part member
  · intro part member
    rcases List.mem_append.mp member with member | member
    · exact left.named part member
    · exact right.named part member

theorem Cleaned.of_plain {names : List GoString} (plain : ∀ name ∈ names, Plain name) : Cleaned names where
  noSlash name member := (plain name member).noSlash
  named name member := ⟨(plain name member).nonempty, (plain name member).notDot⟩

theorem not_mem_of_mem_splitOn {elem part : GoString} (member : part ∈ elem.splitOn slash) : slash ∉ part := by
  induction elem generalizing part with
  | nil =>
    cases List.mem_singleton.mp member
    exact List.not_mem_nil
  | cons byte rest ih =>
    rw [List.splitOn_cons_eq_if_modifyHead] at member
    cases split : rest.splitOn slash with
    | nil => exact absurd split (List.splitOn_ne_nil slash rest)
    | cons first others =>
      rw [split] at ih member
      split at member
      · rcases List.mem_cons.mp member with rfl | member
        · exact List.not_mem_nil
        · exact ih member
      · rename_i other
        rcases List.mem_cons.mp member with rfl | member
        · intro here
          rcases List.mem_cons.mp here with same | here
          · exact other (beq_iff_eq.mpr same.symm)
          · exact ih List.mem_cons_self here
        · exact ih (List.mem_cons_of_mem _ member)

theorem cleanPart_cleaned {rooted : Bool} {out : List GoString} {part : GoString} (cleaned : Cleaned out)
    (noSlash : slash ∉ part) : Cleaned (cleanPart rooted out part) := by
  unfold cleanPart
  split
  · exact cleaned
  · rename_i named
    have single : Cleaned [part] := by
      constructor
      · intro other member
        cases List.mem_singleton.mp member
        exact noSlash
      · intro other member
        cases List.mem_singleton.mp member
        exact not_or.mp named
    split
    · cases out with
      | nil =>
        dsimp only
        split
        · exact cleaned
        · exact single
      | cons last rest =>
        dsimp only
        split
        · exact single.append cleaned
        · constructor
          · exact fun other member => cleaned.noSlash other (List.mem_cons_of_mem _ member)
          · exact fun other member => cleaned.named other (List.mem_cons_of_mem _ member)
    · exact single.append cleaned

theorem join_cleaned (elems : List GoString) : Cleaned (join elems).parts := by
  have folded (rooted : Bool) (parts : List GoString) (noSlash : ∀ part ∈ parts, slash ∉ part)
      {out : List GoString} (cleaned : Cleaned out) : Cleaned (parts.foldl (cleanPart rooted) out) := by
    induction parts generalizing out with
    | nil => exact cleaned
    | cons part rest ih =>
      refine ih (fun other member => noSlash other (List.mem_cons_of_mem _ member)) ?_
      exact cleanPart_cleaned cleaned (noSlash part List.mem_cons_self)
  have pieces : ∀ part ∈ (elems.dropWhile (· = [])).flatMap (List.splitOn slash), slash ∉ part := by
    intro part member
    obtain ⟨elem, _, member⟩ := List.mem_flatMap.mp member
    exact not_mem_of_mem_splitOn member
  have start : Cleaned [] :=
    ⟨fun _ member => absurd member List.not_mem_nil, fun _ member => absurd member List.not_mem_nil⟩
  obtain ⟨noSlash, named⟩ := folded (join elems).rooted _ pieces start
  exact ⟨fun part member => noSlash part (List.mem_reverse.mp member),
    fun part member => named part (List.mem_reverse.mp member)⟩

theorem head?_intercalate {parts : List GoString} (cleaned : Cleaned parts) :
    ([slash].intercalate parts).head? ≠ some slash := by
  intro first
  cases parts with
  | nil => cases first
  | cons part rest =>
    have noSlash := cleaned.noSlash part List.mem_cons_self
    have named := (cleaned.named part List.mem_cons_self).1
    cases part with
    | nil => exact named rfl
    | cons byte tail =>
      have same : byte = slash := by
        cases rest with
        | nil => simpa using first
        | cons => simpa [List.intercalate_cons_cons] using first
      exact noSlash (same ▸ List.mem_cons_self)

theorem parts_of_intercalate {parts : List GoString} (cleaned : Cleaned parts) {body : GoString}
    (joined : [slash].intercalate parts = body) :
    parts = if body = [] then [] else body.splitOn slash := by
  subst joined
  by_cases none : parts = []
  · subst none
    rfl
  · have split := List.splitOn_intercalate slash cleaned.noSlash none
    rw [if_neg, split]
    intro empty
    rw [empty] at split
    cases split
    exact (cleaned.named [] List.mem_cons_self).1 rfl

theorem text_injective {p q : Path} (first : Cleaned p.parts) (second : Cleaned q.parts)
    (same : p.text = q.text) : p = q := by
  obtain ⟨rooted, parts⟩ := p
  obtain ⟨rooted', parts'⟩ := q
  have start {parts : List GoString} (cleaned : Cleaned parts) :
      (text ⟨false, parts⟩).head? ≠ some slash := by
    simp only [text, Bool.false_eq_true, if_false]
    split
    · decide
    · exact head?_intercalate cleaned
  have bodies (joined : [slash].intercalate parts = [slash].intercalate parts') : parts = parts' :=
    (parts_of_intercalate first joined).trans (parts_of_intercalate second rfl).symm
  have dotted {parts : List GoString} (cleaned : Cleaned parts) : [slash].intercalate parts ≠ [dot] := by
    intro joined
    have only : parts = [[dot]] := parts_of_intercalate cleaned joined
    subst only
    exact (cleaned.named [dot] List.mem_cons_self).2 rfl
  cases rooted with
  | true =>
    cases rooted' with
    | true => rw [bodies (List.tail_eq_of_cons_eq same)]
    | false => exact absurd (congrArg List.head? same).symm (start second)
  | false =>
    cases rooted' with
    | true => exact absurd (congrArg List.head? same) (start first)
    | false =>
      simp only [text, Bool.false_eq_true, if_false] at same
      split at same
      · rename_i none
        split at same
        · rename_i none'
          rw [none, none']
        · exact absurd same.symm (dotted second)
      · split at same
        · exact absurd same (dotted first)
        · rw [bodies same]

theorem foldl_cleanPart (rooted : Bool) {parts : List GoString} (out : List GoString)
    (plain : ∀ part ∈ parts, part = [] ∨ Plain part) :
    parts.foldl (cleanPart rooted) out = (parts.filter (· ≠ [])).reverse ++ out := by
  induction parts generalizing out with
  | nil => rfl
  | cons part rest ih =>
    rw [List.foldl_cons, ih _ fun other member => plain other (List.mem_cons_of_mem _ member)]
    rcases plain part List.mem_cons_self with rfl | plain
    · simp [cleanPart]
    · simp [cleanPart, plain.nonempty, plain.notDot, plain.notDotDot]

theorem join_plain (dirs : List GoString) {elem : GoString} {names : List GoString}
    (cut : (elem.splitOn slash).filter (· ≠ []) = names) (plain : ∀ name ∈ names, Plain name)
    (relative : elem.head? ≠ some slash) :
    join (dirs ++ [elem]) = ⟨(join dirs).rooted, (join dirs).parts ++ names⟩ := by
  have parts : ∀ part ∈ elem.splitOn slash, part = [] ∨ Plain part := by
    intro part member
    by_cases empty : part = []
    · exact .inl empty
    · apply Or.inr
      apply plain
      rw [← cut]
      exact List.mem_filter.mpr ⟨member, by simpa using empty⟩
  subst cut
  rw [join, List.dropWhile_append]
  cases kept : dirs.dropWhile (· = []) with
  | nil =>
    by_cases empty : elem = []
    · subst empty
      simp [join, kept]
    · simp [join, kept, empty, relative, foldl_cleanPart _ _ parts]
  | cons first rest =>
    simp [join, kept, List.flatMap_append, foldl_cleanPart _ _ parts]

theorem join_file (dirs : List GoString) {name : GoString} (file : Plain name) :
    join (dirs ++ [name]) = ⟨(join dirs).rooted, (join dirs).parts ++ [name]⟩ := by
  have single : (name.splitOn slash).filter (· ≠ []) = [name] := by
    rw [splitOn_slash file.noSlash]
    simp [file.nonempty]
  refine join_plain dirs single ?_ fun first => file.noSlash (List.mem_of_mem_head? first)
  intro other member
  cases List.mem_singleton.mp member
  exact file

theorem splitOn_dirs {dirs : List GoString} (noSlash : ∀ dir ∈ dirs, slash ∉ dir) :
    (dirs.flatMap fun dir => dir ++ [slash]).splitOn slash = dirs ++ [[]] := by
  induction dirs with
  | nil => rfl
  | cons dir rest ih =>
    rw [List.flatMap_cons, List.append_assoc, List.singleton_append,
      List.splitOn_append_cons_self_of_not_mem (noSlash dir List.mem_cons_self),
      ih fun other member => noSlash other (List.mem_cons_of_mem _ member)]
    rfl

theorem join_dirs (root : GoString) {dirs : List GoString} {name : GoString}
    (plain : ∀ dir ∈ dirs, Plain dir) (file : Plain name) :
    join [root, dirs.flatMap fun dir => dir ++ [slash], name] =
      ⟨(join [root]).rooted, (join [root]).parts ++ (dirs ++ [name])⟩ := by
  have relative : (dirs.flatMap fun dir => dir ++ [slash]).head? ≠ some slash := by
    cases dirs with
    | nil => decide
    | cons first rest =>
      have plain := plain first List.mem_cons_self
      cases first with
      | nil => exact absurd rfl plain.nonempty
      | cons byte tail =>
        intro here
        exact plain.noSlash (Option.some.inj here ▸ List.mem_cons_self)
  have cut : ((dirs.flatMap fun dir => dir ++ [slash]).splitOn slash).filter (· ≠ []) = dirs := by
    have kept : dirs.filter (· ≠ []) = dirs := by
      rw [List.filter_eq_self]
      intro dir member
      simpa using (plain dir member).nonempty
    rw [splitOn_dirs fun dir member => (plain dir member).noSlash, List.filter_append, kept]
    exact List.append_nil dirs
  have sharded := join_plain [root] cut plain relative
  have joined := join_file ([root] ++ [dirs.flatMap fun dir => dir ++ [slash]]) file
  rw [sharded] at joined
  rw [← List.append_assoc]
  exact joined

end Path

end Go
