/-!
# Byte offsets in a text

Offsets count the bytes of the UTF-8 form.  A text can be cut only between characters:

    byteLength s.toList = s.utf8ByteSize                        (byteLength_toList)
    cut? s n = some (a, b)  ↔  s = a ++ b  and  a has n bytes   (cut?_eq_some_iff)
    cutRange? s i j = some (a, x, b)
                     ↔  s = a ++ x ++ b, and x is from i to j   (cutRange?_eq_some_iff)

so an offset past the end, or inside a character, gives no cut at all.
-/

namespace Highlighting.Text

/-! ## Algorithm -/

/-- Bytes that the characters take. -/
def byteLength : List Char → Nat
  | [] => 0
  | c :: cs => c.utf8Size + byteLength cs

/-- The characters before and after byte `n`; nothing when `n` is past the end or inside a
character. -/
def splitBytes (cs : List Char) (n : Nat) : Option (List Char × List Char) :=
  match cs, n with
  | cs, 0 => some ([], cs)
  | [], _ + 1 => none
  | c :: cs, n + 1 =>
    if c.utf8Size ≤ n + 1 then
      (splitBytes cs (n + 1 - c.utf8Size)).map fun (a, b) => (c :: a, b)
    else none

/-- The text before and after byte `n`. -/
def cut? (s : String) (n : Nat) : Option (String × String) :=
  (splitBytes s.toList n).map fun (a, b) => (String.ofList a, String.ofList b)

/-- The text before byte `start`, from there to byte `stop`, and after it. -/
def cutRange? (s : String) (start stop : Nat) : Option (String × String × String) :=
  if start ≤ stop then
    match cut? s start with
    | none => none
    | some (a, rest) => (cut? rest (stop - start)).map fun (b, c) => (a, b, c)
  else none

/-! ## Lemmas -/

@[simp] theorem byteLength_append (a b : List Char) :
    byteLength (a ++ b) = byteLength a + byteLength b := by
  induction a with
  | nil => simp [byteLength]
  | cons c cs ih => simp [byteLength, ih, Nat.add_assoc]

theorem byteLength_replicate (n : Nat) (c : Char) :
    byteLength (List.replicate n c) = n * c.utf8Size := by
  induction n with
  | zero => exact (Nat.zero_mul _).symm
  | succ n ih => rw [List.replicate_succ, byteLength, ih, Nat.succ_mul, Nat.add_comm]

theorem byteLength_ofList (cs : List Char) : (String.ofList cs).utf8ByteSize = byteLength cs := by
  induction cs with
  | nil => simp [byteLength]
  | cons c cs ih =>
    have hsplit : String.ofList (c :: cs) = String.ofList [c] ++ String.ofList cs := by
      rw [← String.ofList_append]; rfl
    rw [hsplit, String.utf8ByteSize_append, ih, ← String.singleton_eq_ofList,
      String.utf8ByteSize_singleton, byteLength]

/-- Characters take as many bytes together as the text that they make. -/
@[simp] theorem byteLength_toList (s : String) : byteLength s.toList = s.utf8ByteSize := by
  rw [← byteLength_ofList, String.ofList_toList]

theorem splitBytes_append {cs : List Char} {n : Nat} {a b : List Char}
    (h : splitBytes cs n = some (a, b)) : cs = a ++ b := by
  fun_induction splitBytes cs n generalizing a b with
  | case1 cs => simp only [Option.some.injEq, Prod.mk.injEq] at h; rw [← h.1, ← h.2]; rfl
  | case2 => cases h
  | case3 c cs n hle ih =>
    obtain ⟨⟨a', b'⟩, hab, heq⟩ := Option.map_eq_some_iff.1 h
    simp only [Prod.mk.injEq] at heq
    rw [← heq.1, ← heq.2, ih hab, List.cons_append]
  | case4 => cases h

theorem splitBytes_size {cs : List Char} {n : Nat} {a b : List Char}
    (h : splitBytes cs n = some (a, b)) : byteLength a = n := by
  fun_induction splitBytes cs n generalizing a b with
  | case1 cs => simp only [Option.some.injEq, Prod.mk.injEq] at h; rw [← h.1]; rfl
  | case2 => cases h
  | case3 c cs n hle ih =>
    obtain ⟨⟨a', b'⟩, hab, heq⟩ := Option.map_eq_some_iff.1 h
    simp only [Prod.mk.injEq] at heq
    have := ih hab
    rw [← heq.1]
    rw [byteLength]
    omega
  | case4 => cases h

theorem cut?_append {s : String} {n : Nat} {a b : String} (h : cut? s n = some (a, b)) :
    s = a ++ b := by
  obtain ⟨⟨x, y⟩, hxy, heq⟩ := Option.map_eq_some_iff.1 h
  simp only [Prod.mk.injEq] at heq
  rw [← heq.1, ← heq.2, ← String.ofList_append, ← splitBytes_append hxy, String.ofList_toList]

theorem cut?_size {s : String} {n : Nat} {a b : String} (h : cut? s n = some (a, b)) :
    a.utf8ByteSize = n := by
  obtain ⟨⟨x, y⟩, hxy, heq⟩ := Option.map_eq_some_iff.1 h
  simp only [Prod.mk.injEq] at heq
  rw [← heq.1, byteLength_ofList]
  exact splitBytes_size hxy

/-- A text can be cut where one part of it ends and the other begins. -/
theorem splitBytes_of_append (a b : List Char) :
    splitBytes (a ++ b) (byteLength a) = some (a, b) := by
  induction a with
  | nil => rw [List.nil_append, byteLength, splitBytes]
  | cons c cs ih =>
    obtain ⟨m, hm⟩ := Nat.exists_eq_add_of_lt c.utf8Size_pos
    have hsize : byteLength (c :: cs) = m + byteLength cs + 1 := by rw [byteLength]; omega
    have hrest : m + byteLength cs + 1 - c.utf8Size = byteLength cs := by omega
    rw [hsize, List.cons_append, splitBytes, if_pos (by omega), hrest, ih]
    rfl

theorem cut?_eq_some_iff {s : String} {n : Nat} {a b : String} :
    cut? s n = some (a, b) ↔ s = a ++ b ∧ a.utf8ByteSize = n := by
  refine ⟨fun h => ⟨cut?_append h, cut?_size h⟩, ?_⟩
  rintro ⟨rfl, rfl⟩
  rw [cut?, String.toList_append, ← byteLength_toList, splitBytes_of_append]
  simp

theorem cutRange?_eq_some_iff {s : String} {start stop : Nat} {a x b : String} :
    cutRange? s start stop = some (a, x, b) ↔
      s = a ++ x ++ b ∧ a.utf8ByteSize = start ∧ start + x.utf8ByteSize = stop := by
  unfold cutRange?
  constructor
  · intro h
    split at h
    · next hle =>
      split at h
      · cases h
      · next a' rest hstart =>
        obtain ⟨⟨x', b'⟩, hrest, heq⟩ := Option.map_eq_some_iff.1 h
        obtain ⟨rfl, rfl, rfl⟩ : a' = a ∧ x' = x ∧ b' = b := by simpa using heq
        obtain ⟨rfl, ha⟩ := cut?_eq_some_iff.1 hstart
        obtain ⟨rfl, hx⟩ := cut?_eq_some_iff.1 hrest
        exact ⟨(String.append_assoc ..).symm, ha, by omega⟩
    · cases h
  · rintro ⟨rfl, rfl, rfl⟩
    have hstart : cut? (a ++ x ++ b) a.utf8ByteSize = some (a, x ++ b) :=
      cut?_eq_some_iff.2 ⟨String.append_assoc .., rfl⟩
    have hrest : cut? (x ++ b) (a.utf8ByteSize + x.utf8ByteSize - a.utf8ByteSize) = some (x, b) :=
      cut?_eq_some_iff.2 ⟨rfl, (Nat.add_sub_cancel_left ..).symm⟩
    rw [if_pos (Nat.le_add_right _ _), hstart]
    simp only [hrest, Option.map_some]

end Highlighting.Text
