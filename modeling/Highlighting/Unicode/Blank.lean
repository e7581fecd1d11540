import Highlighting.Unicode.Ranges

/-!
# White space

`isBlank` holds of the characters with the property `White_Space`.  A text is trimmed of them at
both ends.

    white space more at either end changes nothing  (trimChars_append_left, trimChars_append_right)
    what stands around a character that is not blank is trimmed on the far side
                                                                          (trimChars_append_cons)
-/

namespace Highlighting.Unicode

/-- Characters with the property `White_Space`. -/
def blankRanges : Ranges := #[
  (0x9, 0xD), (0x20, 0x20), (0x85, 0x85), (0xA0, 0xA0), (0x1680, 0x1680), (0x2000, 0x200A),
  (0x2028, 0x2029), (0x202F, 0x202F), (0x205F, 0x205F), (0x3000, 0x3000)]

/-- Is `c` white space? -/
def isBlank (c : Char) : Bool :=
  blankRanges.contains c

/-- The characters without white space at either end. -/
def trimChars (cs : List Char) : List Char :=
  ((cs.dropWhile isBlank).reverse.dropWhile isBlank).reverse

/-- The text without white space at either end. -/
def trim (s : String) : String :=
  String.ofList (trimChars s.toList)

/-! ## Lemmas -/

section
variable {cs ds : List Char} {c : Char}

theorem trimChars_append_left (h : ∀ c ∈ cs, isBlank c = true) :
    trimChars (cs ++ ds) = trimChars ds := by
  rw [trimChars, trimChars, List.dropWhile_append_of_pos h]

theorem trimChars_append_right (h : ∀ c ∈ ds, isBlank c = true) :
    trimChars (cs ++ ds) = trimChars cs := by
  have hreverse : ∀ c ∈ ds.reverse, isBlank c = true := fun c hc => h c (List.mem_reverse.1 hc)
  unfold trimChars
  rw [List.dropWhile_append]
  split
  · next hblank =>
    have hnone : ds.dropWhile isBlank = [] := by
      rw [← List.append_nil ds, List.dropWhile_append_of_pos h, List.dropWhile_nil]
    rw [hnone, List.isEmpty_iff.1 hblank]
  · rw [List.reverse_append, List.dropWhile_append_of_pos hreverse]

theorem trimChars_dropWhile (cs : List Char) : trimChars (cs.dropWhile isBlank) = trimChars cs := by
  have hfront : ∀ c ∈ cs.takeWhile isBlank, isBlank c = true :=
    List.all_eq_true.1 List.all_takeWhile
  rw [← trimChars_append_left hfront, List.takeWhile_append_dropWhile]

theorem trimChars_dropWhile_reverse (cs : List Char) :
    trimChars (cs.reverse.dropWhile isBlank).reverse = trimChars cs := by
  have hback : ∀ c ∈ (cs.reverse.takeWhile isBlank).reverse, isBlank c = true := fun c hc =>
    List.all_eq_true.1 List.all_takeWhile c (List.mem_reverse.1 hc)
  rw [← trimChars_append_right hback, ← List.reverse_append, List.takeWhile_append_dropWhile,
    List.reverse_reverse]

theorem dropWhile_append_cons (h : isBlank c = false) :
    (cs ++ c :: ds).dropWhile isBlank = cs.dropWhile isBlank ++ c :: ds := by
  rw [List.dropWhile_append]
  split
  · next hblank =>
    rw [List.isEmpty_iff.1 hblank, List.dropWhile_cons_of_neg (by simp [h])]
    rfl
  · rfl

/-- White space is trimmed off on either side of a character that is none. -/
theorem trimChars_append_cons (h : isBlank c = false) : trimChars (cs ++ c :: ds) =
    cs.dropWhile isBlank ++ c :: (ds.reverse.dropWhile isBlank).reverse := by
  unfold trimChars
  rw [dropWhile_append_cons h, List.reverse_append, List.reverse_cons, List.append_assoc,
    List.singleton_append, dropWhile_append_cons h]
  simp

theorem mem_of_mem_trimChars (h : c ∈ trimChars cs) : c ∈ cs := by
  have hback := (List.dropWhile_sublist isBlank).mem (List.mem_reverse.1 h)
  exact (List.dropWhile_sublist isBlank).mem (List.mem_reverse.1 hback)

end

end Highlighting.Unicode
