/-!
# Lines of a text

`splitNewlines` cuts at every newline, so it always gives at least one piece; `joinNewlines` puts
newlines back.  `linesOf` also takes one carriage return off the end of each piece.

    splitNewlines cs = cs.splitOn '\n'                               (splitNewlines_eq_splitOn)
    joined with newlines, lines that hold none are split again       (splitOn_joinNewlines)
    and are lines of the text, unless a carriage return ends one     (linesOf_joinNewlines)
-/

namespace Highlighting.Text

/-! ## Algorithm -/

/-- The pieces between newlines: one more than there are newlines. -/
def splitNewlines : List Char → List (List Char)
  | [] => [[]]
  | c :: cs =>
    if c == '\n' then [] :: splitNewlines cs
    else match splitNewlines cs with
      | [] => [[c]]
      | piece :: pieces => (c :: piece) :: pieces

/-- The piece without one carriage return at its end. -/
def dropReturn (cs : List Char) : List Char :=
  if cs.getLast? == some '\r' then cs.dropLast else cs

/-- The lines of a text, each without a carriage return at its end. -/
def linesOf (s : String) : List String :=
  (splitNewlines s.toList).map fun cs => String.ofList (dropReturn cs)

/-- The text that has these lines. -/
def joinNewlines (lines : List String) : String :=
  String.intercalate "\n" lines

/-! ## Lemmas -/

theorem splitNewlines_ne_nil (cs : List Char) : splitNewlines cs ≠ [] := by
  cases cs with
  | nil => simp [splitNewlines]
  | cons c cs =>
    unfold splitNewlines
    split
    · simp
    · split <;> simp

theorem splitNewlines_newline (cs : List Char) :
    splitNewlines ('\n' :: cs) = [] :: splitNewlines cs := rfl

theorem splitNewlines_cons {c : Char} {cs piece : List Char} {pieces : List (List Char)}
    (hc : c ≠ '\n') (h : splitNewlines cs = piece :: pieces) :
    splitNewlines (c :: cs) = (c :: piece) :: pieces := by
  rw [splitNewlines, if_neg (by simpa using hc), h]

theorem linesOf_ne_nil (s : String) : linesOf s ≠ [] := by
  simp [linesOf, splitNewlines_ne_nil]

theorem newline_not_mem_splitNewlines (cs : List Char) : ∀ piece ∈ splitNewlines cs, '\n' ∉ piece := by
  induction cs with
  | nil => simp [splitNewlines]
  | cons c cs ih =>
    obtain ⟨piece, pieces, h⟩ := List.exists_cons_of_ne_nil (splitNewlines_ne_nil cs)
    by_cases hc : c = '\n'
    · rw [hc, splitNewlines_newline]
      simpa using ih
    · rw [h, List.forall_mem_cons] at ih
      rw [splitNewlines_cons hc h]
      exact List.forall_mem_cons.2 ⟨by simp [Ne.symm hc, ih.1], ih.2⟩

theorem intercalate_splitNewlines (cs : List Char) : ['\n'].intercalate (splitNewlines cs) = cs := by
  induction cs with
  | nil => rfl
  | cons c cs ih =>
    obtain ⟨piece, pieces, h⟩ := List.exists_cons_of_ne_nil (splitNewlines_ne_nil cs)
    by_cases hc : c = '\n'
    · rw [hc, splitNewlines_newline, List.intercalate_cons_of_ne_nil (splitNewlines_ne_nil cs), ih]
      rfl
    · rw [splitNewlines_cons hc h]
      rw [h] at ih
      cases pieces with
      | nil => simpa using ih
      | cons p ps =>
        rw [List.intercalate_cons_cons] at ih ⊢
        rw [← ih, List.cons_append, List.cons_append]

theorem splitNewlines_eq_splitOn (cs : List Char) : splitNewlines cs = cs.splitOn '\n' := by
  have hsplit := List.splitOn_intercalate '\n' (newline_not_mem_splitNewlines cs)
    (splitNewlines_ne_nil cs)
  rw [intercalate_splitNewlines] at hsplit
  exact hsplit.symm

theorem splitNewlines_length (cs : List Char) :
    (splitNewlines cs).length = cs.count '\n' + 1 := by
  induction cs with
  | nil => rfl
  | cons c cs ih =>
    obtain ⟨piece, pieces, h⟩ := List.exists_cons_of_ne_nil (splitNewlines_ne_nil cs)
    by_cases hc : c = '\n'
    · rw [hc, splitNewlines_newline, List.count_cons_self, List.length_cons, ih]
    · rw [splitNewlines_cons hc h, List.count_cons_of_ne hc, ← ih, h]
      rfl

@[simp] theorem toList_joinNewlines (lines : List String) :
    (joinNewlines lines).toList = ['\n'].intercalate (lines.map String.toList) := by
  simp [joinNewlines]

/-- Lines that hold no newline are found again in the text that is made of them. -/
theorem splitOn_joinNewlines {lines : List String} (hne : lines ≠ [])
    (h : ∀ line ∈ lines, '\n' ∉ line.toList) :
    (joinNewlines lines).toList.splitOn '\n' = lines.map String.toList := by
  rw [toList_joinNewlines]
  exact List.splitOn_intercalate '\n' (List.forall_mem_map.2 h) (by simpa using hne)

theorem dropReturn_eq_self_iff {piece : List Char} :
    dropReturn piece = piece ↔ piece.getLast? ≠ some '\r' := by
  unfold dropReturn
  split
  · next h =>
    obtain ⟨front, rfl⟩ := List.getLast?_eq_some_iff.1 (beq_iff_eq.1 h)
    simp
  · next h => simpa using h

/-- Lines that hold no newline and end in no carriage return are the lines of the text that is made
of them. -/
theorem linesOf_joinNewlines {lines : List String} (hne : lines ≠ [])
    (h : ∀ line ∈ lines, '\n' ∉ line.toList)
    (hreturn : ∀ line ∈ lines, line.toList.getLast? ≠ some '\r') :
    linesOf (joinNewlines lines) = lines := by
  rw [linesOf, splitNewlines_eq_splitOn, splitOn_joinNewlines hne h, List.map_map]
  refine (List.map_congr_left fun line hline => ?_).trans (List.map_id lines)
  rw [Function.comp_apply, dropReturn_eq_self_iff.2 (hreturn line hline), String.ofList_toList]
  rfl

theorem mem_of_mem_dropReturn {cs : List Char} {c : Char} (h : c ∈ dropReturn cs) : c ∈ cs := by
  unfold dropReturn at h
  split at h
  · exact List.dropLast_subset cs h
  · exact h

/-- No line of a text holds a newline. -/
theorem newline_not_mem_linesOf (s : String) : ∀ line ∈ linesOf s, '\n' ∉ line.toList := by
  intro line hline hmem
  obtain ⟨piece, hpiece, rfl⟩ := List.mem_map.1 hline
  rw [String.toList_ofList] at hmem
  exact newline_not_mem_splitNewlines _ piece hpiece (mem_of_mem_dropReturn hmem)

end Highlighting.Text
