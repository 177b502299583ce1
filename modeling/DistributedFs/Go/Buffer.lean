namespace Go

def writeAt (content : List UInt8) (offset : Nat) (data : List UInt8) : List UInt8 :=
  (content ++ List.replicate (offset - content.length) 0).take offset ++ data ++
    content.drop (offset + data.length)

theorem writeAt_end (content data : List UInt8) :
    writeAt content content.length data = content ++ data := by
  simp [writeAt]

theorem length_writeAt {content data : List UInt8} {offset : Nat}
    (inside : offset + data.length ≤ content.length) :
    (writeAt content offset data).length = content.length := by
  simp only [writeAt, List.length_append, List.length_take, List.length_replicate, List.length_drop]
  omega

theorem getElem?_writeAt {content data : List UInt8} {offset : Nat}
    (inside : offset + data.length ≤ content.length) (k : Nat) :
    (writeAt content offset data)[k]? =
      if offset ≤ k ∧ k < offset + data.length then data[k - offset]? else content[k]? := by
  have gap : offset - content.length = 0 := by omega
  have front : (content.take offset).length = offset := by
    rw [List.length_take]
    omega
  simp only [writeAt, gap, List.replicate_zero, List.append_nil, List.append_assoc]
  split
  · rename_i covered
    rw [List.getElem?_append_right (by omega), front, List.getElem?_append_left (by omega)]
  · rename_i outside
    rcases Nat.lt_or_ge k offset with before | after
    · rw [List.getElem?_append_left (by omega), List.getElem?_take_of_lt before]
    · rw [List.getElem?_append_right (by omega), front, List.getElem?_append_right (by omega),
        List.getElem?_drop]
      congr 1
      omega

/-- Writes of pieces of one text, in any order, complete a buffer that agrees with the text
    wherever no piece falls. -/
theorem foldl_writeAt {target : List UInt8} (writes : List (Nat × List UInt8)) {content : List UInt8}
    (pieces : ∀ w ∈ writes, w.1 + w.2.length ≤ target.length ∧
      ∀ k, k < w.2.length → w.2[k]? = target[w.1 + k]?)
    (length : content.length = target.length)
    (covered : ∀ k, k < target.length → content[k]? = target[k]? ∨
      ∃ w ∈ writes, w.1 ≤ k ∧ k < w.1 + w.2.length) :
    writes.foldl (fun out w => writeAt out w.1 w.2) content = target := by
  induction writes generalizing content with
  | nil =>
    apply List.ext_getElem?
    intro k
    rcases Nat.lt_or_ge k target.length with inside | outside
    · rcases covered k inside with same | ⟨w, member, _⟩
      · exact same
      · cases member
    · rw [List.getElem?_eq_none outside, List.getElem?_eq_none (by simpa [length] using outside)]
  | cons w rest ih =>
    obtain ⟨bound, piece⟩ := pieces w (by simp)
    have inside : w.1 + w.2.length ≤ content.length := by omega
    refine ih (fun other member => pieces other (by simp [member])) ?_ ?_
    · rw [length_writeAt inside, length]
    · -- a byte is under this write, or as it was before
      intro k within
      rw [getElem?_writeAt inside]
      split
      · rename_i here
        refine .inl ?_
        rw [piece (k - w.1) (by omega)]
        congr 1
        omega
      · rename_i elsewhere
        rcases covered k within with same | ⟨other, member, low, high⟩
        · exact .inl same
        · rcases List.mem_cons.mp member with rfl | member
          · exact absurd ⟨low, high⟩ elsewhere
          · exact .inr ⟨other, member, low, high⟩

end Go
