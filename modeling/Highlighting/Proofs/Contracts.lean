import Highlighting.Session

/-!
# What operations ask of those who call them

Most operations on a buffer ask for nothing.  Those that edit lines ask for an open transaction, and
for a place that is there:

    t.insert n col s      line n, cut at col, and no newline in s       (insert_ok_iff)
    t.remove n i j        i ≤ j, and line n, cut at i and at j          (remove_ok_iff)
    t.wrap n col          line n, cut at col                            (wrap_ok_iff)
    t.unwrap n            line n, and one before it                     (unwrap_ok_iff)

A line can be cut at the boundaries of its characters.  `Buffer.Admits` says what each operation asks
for, and `Buffer.AddsUp` what those that add line numbers ask of the machine besides.
-/

namespace Highlighting

namespace Text

/-- A text can be cut at the boundaries of its characters, and nowhere else. -/
theorem cut?_ok_iff (s : String) (n : Nat) :
    (∃ parts, cut? s n = some parts) ↔ String.Pos.Raw.IsValid s ⟨n⟩ := by
  rw [String.Pos.Raw.isValid_iff_exists_append]
  constructor
  · rintro ⟨⟨a, b⟩, h⟩
    obtain ⟨hs, hn⟩ := cut?_eq_some_iff.1 h
    exact ⟨a, b, hs, by simp [String.rawEndPos, hn]⟩
  · rintro ⟨a, b, hs, hn⟩
    exact ⟨(a, b), cut?_eq_some_iff.2 ⟨hs, (congrArg String.Pos.Raw.byteIdx hn).symm⟩⟩

/-- A longer first part of a text begins with a shorter one. -/
theorem exists_append_of_append {a b c d : String} (h : a ++ b = c ++ d)
    (hle : a.utf8ByteSize ≤ c.utf8ByteSize) : ∃ x, c = a ++ x ∧ b = x ++ d := by
  have hchars : a.toList ++ b.toList = c.toList ++ d.toList := by
    rw [← String.toList_append, h, String.toList_append]
  rcases List.append_eq_append_iff.1 hchars with ⟨x, hc, hb⟩ | ⟨x, ha, hd⟩
  · exact ⟨String.ofList x, String.toList_inj.1 (by simp [hc]), String.toList_inj.1 (by simp [hb])⟩
  · have hsize := congrArg byteLength ha
    rw [byteLength_append, byteLength_toList, byteLength_toList, ← byteLength_ofList x] at hsize
    have hnil : String.ofList x = "" := String.utf8ByteSize_eq_zero_iff.1 (by omega)
    obtain rfl : x = [] := by simpa using congrArg String.toList hnil
    exact ⟨"", String.toList_inj.1 (by simpa using ha.symm),
      String.toList_inj.1 (by simpa using hd.symm)⟩

theorem cutRange?_ok_iff (s : String) (start stop : Nat) :
    (∃ parts, cutRange? s start stop = some parts) ↔
      start ≤ stop ∧ String.Pos.Raw.IsValid s ⟨start⟩ ∧ String.Pos.Raw.IsValid s ⟨stop⟩ := by
  rw [← cut?_ok_iff, ← cut?_ok_iff]
  constructor
  · rintro ⟨⟨a, x, b⟩, h⟩
    obtain ⟨rfl, rfl, rfl⟩ := cutRange?_eq_some_iff.1 h
    exact ⟨Nat.le_add_right _ _,
      ⟨(a, x ++ b), cut?_eq_some_iff.2 ⟨String.append_assoc .., rfl⟩⟩,
      (a ++ x, b), cut?_eq_some_iff.2 ⟨rfl, String.utf8ByteSize_append ..⟩⟩
  · rintro ⟨hle, ⟨⟨a, rest⟩, hstart⟩, ⟨c, d⟩, hstop⟩
    obtain ⟨rfl, rfl⟩ := cut?_eq_some_iff.1 hstart
    obtain ⟨hs, rfl⟩ := cut?_eq_some_iff.1 hstop
    obtain ⟨x, rfl, rfl⟩ := exists_append_of_append hs hle
    exact ⟨(a, x, d), cutRange?_eq_some_iff.2
      ⟨(String.append_assoc ..).symm, rfl, (String.utf8ByteSize_append ..).symm⟩⟩

end Text

/-! ## Lines -/

namespace TextStore

variable (t : TextStore) (n : Nat)

theorem line_ok_iff : (∃ l, t.line n = .ok l) ↔ n < t.lines.size := by
  unfold line
  cases hn : t.lines[n]? with
  | none =>
    have := Array.getElem?_eq_none_iff.1 hn
    simp
    omega
  | some l =>
    obtain ⟨hlt, -⟩ := Array.getElem?_eq_some_iff.1 hn
    simpa using hlt

theorem insert_ok_iff (col : Nat) (s : String) :
    (∃ t', t.insert n col s = .ok t') ↔ t.editing = true ∧ '\n' ∉ s.toList ∧
      (s = "" ∨ ∃ l, t.lines[n]? = some l ∧ String.Pos.Raw.IsValid l.text ⟨col⟩) := by
  simp only [← Text.cut?_ok_iff]
  unfold insert
  simp only [bind, Except.bind, pure, Except.pure, throw, throwThe, MonadExceptOf.throw]
  split
  · next he => simp_all
  · next he =>
    split
    · next hs => simp_all [String.contains_char_eq]
    · next hs =>
      split
      · next hempty => simp_all [String.contains_char_eq]
      · next hempty =>
        unfold line
        cases hl : t.lines[n]? with
        | none => simp_all
        | some l =>
          rcases hcut : Text.cut? l.text col with _ | ⟨a, b⟩ <;>
            simp_all [Line.insert?, String.contains_char_eq]

theorem remove_ok_iff (start stop : Nat) :
    (∃ out, t.remove n start stop = .ok out) ↔ t.editing = true ∧ start ≤ stop ∧
      (start = stop ∨ ∃ l, t.lines[n]? = some l ∧ String.Pos.Raw.IsValid l.text ⟨start⟩ ∧
        String.Pos.Raw.IsValid l.text ⟨stop⟩) := by
  unfold remove
  simp only [bind, Except.bind, pure, Except.pure, throw, throwThe, MonadExceptOf.throw]
  split
  · next he => simp_all
  · next he =>
    split
    · next hlt =>
      constructor
      · rintro ⟨out, h⟩
        cases h
      · rintro ⟨-, hle, -⟩
        omega
    · next hle =>
      split
      · next heq => simp_all
      · next hne =>
        unfold line
        cases hl : t.lines[n]? with
        | none => simp_all
        | some l =>
          have hcut := Text.cutRange?_ok_iff l.text start stop
          cases hparts : Text.cutRange? l.text start stop <;> simp_all [Line.delete?]

theorem wrap_ok_iff (col : Nat) :
    (∃ t', t.wrap n col = .ok t') ↔
      t.editing = true ∧ ∃ l, t.lines[n]? = some l ∧ String.Pos.Raw.IsValid l.text ⟨col⟩ := by
  simp only [← Text.cut?_ok_iff]
  unfold wrap
  simp only [bind, Except.bind, pure, Except.pure, throw, throwThe, MonadExceptOf.throw]
  split
  · next he => simp_all
  · next he =>
    unfold line
    cases hl : t.lines[n]? with
    | none => simp_all
    | some l => rcases hcut : Text.cut? l.text col with _ | ⟨a, b⟩ <;> simp_all [Line.splitOff?]

theorem unwrap_ok_iff :
    (∃ t', t.unwrap n = .ok t') ↔ t.editing = true ∧ 1 ≤ n ∧ n < t.lines.size := by
  unfold unwrap
  simp only [bind, Except.bind, pure, Except.pure, throw, throwThe, MonadExceptOf.throw]
  split
  · next he => simp_all
  · next he =>
    split
    · next m b a hb ha =>
      obtain ⟨hm, -⟩ := Array.getElem?_eq_some_iff.1 hb
      simp_all
    · next n _ _ _ hnone =>
      constructor
      · rintro ⟨t', h⟩
        cases h
      · rintro ⟨-, hpos, hlt⟩
        obtain ⟨m, rfl⟩ : ∃ m, n = m + 1 := ⟨n - 1, by omega⟩
        exact absurd (Array.getElem?_eq_getElem (show m < t.lines.size by omega))
          (hnone m _ _ rfl (Array.getElem?_eq_getElem hlt))

end TextStore

/-! ## Buffers -/

/-- What an operation asks of those who call it. -/
def Buffer.Admits (b : Buffer) : BufferOp → Prop
  | .insert line col text => b.store.editing = true ∧ '\n' ∉ text.toList ∧
      (text = "" ∨ ∃ l, b.store.lines[line]? = some l ∧ String.Pos.Raw.IsValid l.text ⟨col⟩)
  | .remove line start stop => b.store.editing = true ∧ start ≤ stop ∧
      (start = stop ∨ ∃ l, b.store.lines[line]? = some l ∧
        String.Pos.Raw.IsValid l.text ⟨start⟩ ∧ String.Pos.Raw.IsValid l.text ⟨stop⟩)
  | .wrap line col => b.store.editing = true ∧
      ∃ l, b.store.lines[line]? = some l ∧ String.Pos.Raw.IsValid l.text ⟨col⟩
  | .unwrap line => b.store.editing = true ∧ 1 ≤ line ∧ line < b.lineCount
  -- an only line has none to be joined to, and is left as it is even outside of a transaction
  | .unwrapLines first last => first ≤ last ∧ last < b.lineCount ∧
      (b.store.editing = true ∨ b.lineCount = 1)
  | .fold line => line < b.lineCount
  | .line n => n < b.lineCount
  | .setText _ | .clear | .editStart | .editEnd | .invalidate | .setTabWidth _ | .ensure _ _
  | .folds | .dump | .text | .takeEvents => True

/-! ## Sums -/

/-- The sums that a search for regions makes come out. -/
def Buffer.SumsGiven (b : Buffer) (s : Shared) : Prop :=
  ∀ line < b.lineCount, ∃ sum, s.sums.add? line b.lookahead = some sum

/-- The sums that the operation makes come out. -/
def Buffer.AddsUp (b : Buffer) (s : Shared) : BufferOp → Prop
  | .ensure line lookahead => ∃ sum, s.sums.add? line lookahead = some sum
  | .fold _ | .folds => b.SumsGiven s
  | _ => True

end Highlighting
