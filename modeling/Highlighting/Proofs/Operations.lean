import Highlighting.Proofs.Rehighlighting
import Highlighting.Session

/-!
# Every operation of a buffer keeps

What is left are the operations made of others: joining several lines, and walking over lines in
search of regions.  A search asks for one line after the other and does nothing else.

    (b.foldRange s n).buffer is b after some asks                     (searches_foldRange)
    asking for lines keeps, and changes no text                       (keeps_asked)
    runOnBuffer, whatever the operation, keeps                        (keeps_runOnBuffer)
-/

namespace Highlighting

namespace Buffer

/-- The buffer and what is shared after some lines have been asked for, one after the other. -/
def asked (b : Buffer) (s : Shared) : List Nat → Buffer × Shared
  | [] => (b, s)
  | line :: lines =>
    asked (b.ensure s line b.lookahead).buffer (b.ensure s line b.lookahead).shared lines

/-- A search for regions asks for these lines, and does nothing else. -/
def Searches {α : Type} (b : Buffer) (s : Shared) (lines : List Nat) (o : Outcome α) : Prop :=
  b.asked s lines = (o.buffer, o.shared)

/-! ## The lines that a search asks for -/

/-- Those of a search for the marker that closes a region. -/
def closeAsks (b : Buffer) (s : Shared) (region : Int) : (count line depth : Nat) → List Nat
  | 0, _, _ => []
  | count + 1, line, depth =>
    line :: match b.ensure s line b.lookahead with
      | ⟨.error _, _, _⟩ => []
      | ⟨.ok (), b, s⟩ =>
        match b.markers line with
        | .error _ => []
        | .ok ms =>
          match matchClose region depth ms with
          | (some _, _) => []
          | (none, depth) => closeAsks b s region count (line + 1) depth

/-- Those of a search for a region by markers. -/
def tokenAsks (b : Buffer) (s : Shared) (line : Nat) : List Nat :=
  line :: match b.ensure s line b.lookahead with
    | ⟨.error _, _, _⟩ => []
    | ⟨.ok (), b, s⟩ =>
      match b.markers line with
      | .error _ => []
      | .ok ms =>
        match firstUnclosed ms with
        | none => []
        | some (region, _) => b.closeAsks s region (b.lineCount - (line + 1)) (line + 1) 1

/-- Those of a search for the region that starts on a line. -/
def foldAsks (b : Buffer) (s : Shared) (line : Nat) : List Nat :=
  if b.lineCount ≤ line then []
  else match b.handle with
    | none => []
    | some h =>
      if h.plain then []
      else match h.folding with
        | .token => b.tokenAsks s line
        | .indentation => []

/-- Those of a search for the regions that start on each of some lines. -/
def foldEachAsks (b : Buffer) (s : Shared) : (count line : Nat) → List Nat
  | 0, _ => []
  | count + 1, line =>
    b.foldAsks s line ++ match b.foldRange s line with
      | ⟨.error _, _, _⟩ => []
      | ⟨.ok _, b, s⟩ => foldEachAsks b s count (line + 1)

/-! ## Searches -/

theorem asked_append (b : Buffer) (s : Shared) (xs ys : List Nat) :
    b.asked s (xs ++ ys) = (b.asked s xs).1.asked (b.asked s xs).2 ys := by
  induction xs generalizing b s with
  | nil => rfl
  | cons x xs ih => exact ih _ _

/-- Asking for lines highlights, and changes no text. -/
theorem keeps_asked {b : Buffer} {s : Shared} (h : b.Orderly s) (lines : List Nat) :
    b.Keeps s (b.asked s lines).1 (b.asked s lines).2 ∧ SameText b (b.asked s lines).1 := by
  induction lines generalizing b s with
  | nil => exact ⟨.refl h, .refl b⟩
  | cons line lines ih =>
    obtain ⟨result, b', s', hrun, hkeeps, hsame, -⟩ := ensure_spec h line b.lookahead
    obtain ⟨hkeeps', hsame'⟩ := ih hkeeps.orderly
    rw [asked, hrun]
    exact ⟨hkeeps.trans hkeeps', hsame.trans hsame'⟩

namespace Searches

variable {α β : Type} {b b' : Buffer} {s s' : Shared} {lines lines' : List Nat} {o : Outcome α}

theorem keeps (k : b.Searches s lines o) (h : b.Orderly s) : b.Keeps s o.buffer o.shared := by
  have hkeeps := (keeps_asked h lines).1
  rw [k] at hkeeps
  exact hkeeps

theorem same (k : b.Searches s lines o) (h : b.Orderly s) : SameText b o.buffer := by
  have hsame := (keeps_asked h lines).2
  rw [k] at hsame
  exact hsame

theorem refl (b : Buffer) (s : Shared) (result : Except Refusal α) :
    b.Searches s [] ⟨result, b, s⟩ :=
  rfl

theorem ask {line : Nat} {result : Except Refusal Unit}
    (hrun : b.ensure s line b.lookahead = ⟨result, b', s'⟩) (k : b'.Searches s' lines o) :
    b.Searches s (line :: lines) o := by
  rw [Searches, asked, hrun]
  exact k

theorem trans {e : Outcome β} (h : b.Searches s lines e)
    (k : e.buffer.Searches e.shared lines' o) : b.Searches s (lines ++ lines') o := by
  rw [Searches, asked_append, h]
  exact k

end Searches

section
variable (b : Buffer) (s : Shared)

theorem searches_findClose (region : Int) (count line depth : Nat) :
    b.Searches s (b.closeAsks s region count line depth)
      (b.findClose s region count line depth) := by
  induction count generalizing b s line depth with
  | zero => exact .refl b s _
  | succ count ih =>
    rcases hrun : b.ensure s line b.lookahead with ⟨result, b', s'⟩
    simp only [findClose, closeAsks, hrun]
    refine .ask hrun ?_
    cases result with
    | error r => exact .refl b' s' _
    | ok u =>
      dsimp only
      cases b'.markers line with
      | error r => exact .refl b' s' _
      | ok ms =>
        dsimp only
        cases matchClose region depth ms with
        | mk found depth' =>
          cases found with
          | some column => exact .refl b' s' _
          | none => exact ih b' s' (line + 1) depth'

theorem searches_tokenRange (line : Nat) :
    b.Searches s (b.tokenAsks s line) (b.tokenRange s line) := by
  rcases hrun : b.ensure s line b.lookahead with ⟨result, b', s'⟩
  simp only [tokenRange, tokenAsks, hrun]
  refine .ask hrun ?_
  cases result with
  | error r => exact .refl b' s' _
  | ok u =>
    dsimp only
    cases b'.markers line with
    | error r => exact .refl b' s' _
    | ok ms =>
      dsimp only
      cases firstUnclosed ms with
      | none => exact .refl b' s' _
      | some opened =>
        obtain ⟨region, column⟩ := opened
        have hclose := searches_findClose b' s' region (b'.lineCount - (line + 1)) (line + 1) 1
        dsimp only
        generalize b'.findClose s' region (b'.lineCount - (line + 1)) (line + 1) 1 = o at hclose
        obtain ⟨result, b'', s''⟩ := o
        cases result <;> exact hclose

theorem searches_foldRange (line : Nat) :
    b.Searches s (b.foldAsks s line) (b.foldRange s line) := by
  unfold foldRange foldAsks
  split
  · exact .refl b s _
  · cases b.handle with
    | none => exact .refl b s _
    | some h =>
      dsimp only
      split
      · exact .refl b s _
      · cases h.folding with
        | token => exact searches_tokenRange b s line
        | indentation => exact .refl b s _

theorem searches_foldEach (count line : Nat) :
    b.Searches s (b.foldEachAsks s count line) (Session.foldEach b s count line) := by
  induction count generalizing b s line with
  | zero => exact .refl b s _
  | succ count ih =>
    unfold foldEachAsks
    refine (searches_foldRange b s line).trans ?_
    unfold Session.foldEach
    generalize b.foldRange s line = o
    obtain ⟨result, b', s'⟩ := o
    cases result with
    | error r => exact .refl b' s' _
    | ok range =>
      have hrest := ih b' s' (line + 1)
      dsimp only at hrest ⊢
      generalize Session.foldEach b' s' count (line + 1) = o at hrest
      obtain ⟨result, b'', s''⟩ := o
      cases result <;> exact hrest

end

/-! ## Joining several lines -/

/-- Joins a line to the one after it; a last line to the one before it, and an only line is left as
it is. -/
def unwrapOne (b : Buffer) (s : Shared) (line : Nat) : Outcome Unit :=
  if line + 1 < b.lineCount then b.unwrap s (line + 1)
  else if line ≠ 0 then b.unwrap s line
  else ⟨.ok (), b, s⟩

theorem unwrapEach_cons (b : Buffer) (s : Shared) (line : Nat) (lines : List Nat) :
    b.unwrapEach s (line :: lines) =
      match b.unwrapOne s line with
      | ⟨.error r, b, s⟩ => ⟨.error r, b, s⟩
      | ⟨.ok (), b, s⟩ => b.unwrapEach s lines :=
  rfl

/-- What is left to join when some joinings have gone well. -/
theorem unwrapEach_append {b b' : Buffer} {s s' : Shared} {xs : List Nat}
    (h : b.unwrapEach s xs = ⟨.ok (), b', s'⟩) (ys : List Nat) :
    b.unwrapEach s (xs ++ ys) = b'.unwrapEach s' ys := by
  induction xs generalizing b s with
  | nil => cases h; rfl
  | cons x xs ih =>
    rw [List.cons_append, unwrapEach_cons]
    rw [unwrapEach_cons] at h
    generalize b.unwrapOne s x = o at h ⊢
    obtain ⟨result, b₁, s₁⟩ := o
    cases result with
    | error r => cases h
    | ok u => exact ih h

/-- The lines to be joined, the last of them first. -/
theorem reverse_range'_succ (first k : Nat) :
    (List.range' first (k + 1)).reverse = (first + k) :: (List.range' first k).reverse := by
  rw [List.range'_concat, List.reverse_append, Nat.one_mul]
  rfl

section
variable {R : Buffer → Shared → Buffer → Shared → Prop} (hrefl : ∀ b s, R b s b s)
  (htrans : ∀ {b b' b'' s s' s''}, R b s b' s' → R b' s' b'' s'' → R b s b'' s'')
  (hunwrap : ∀ b s line, R b s (b.unwrap s line).buffer (b.unwrap s line).shared)
include hrefl htrans hunwrap

omit htrans in
theorem chain_unwrapOne (b : Buffer) (s : Shared) (line : Nat) :
    R b s (b.unwrapOne s line).buffer (b.unwrapOne s line).shared := by
  unfold unwrapOne
  split
  · exact hunwrap b s (line + 1)
  · split
    · exact hunwrap b s line
    · exact hrefl b s

theorem chain_unwrapEach (b : Buffer) (s : Shared) (lines : List Nat) :
    R b s (b.unwrapEach s lines).buffer (b.unwrapEach s lines).shared := by
  induction lines generalizing b s with
  | nil => exact hrefl b s
  | cons line lines ih =>
    have hone := chain_unwrapOne hrefl hunwrap b s line
    rw [unwrapEach_cons]
    generalize b.unwrapOne s line = o at hone ⊢
    obtain ⟨result, b', s'⟩ := o
    cases result with
    | error r => exact hone
    | ok u => exact htrans hone (ih b' s')

/-- What each joining of two lines does to a buffer, and what composes, joining several does. -/
theorem chain_unwrapLines (b : Buffer) (s : Shared) (first last : Nat) :
    R b s (b.unwrapLines s first last).buffer (b.unwrapLines s first last).shared := by
  unfold unwrapLines
  split
  · exact hrefl b s
  · split
    · exact hrefl b s
    · exact chain_unwrapEach hrefl htrans hunwrap b s _

end

section
variable {b : Buffer} {s : Shared} (h : b.Orderly s)
include h

theorem keeps_unwrapLines (first last : Nat) :
    b.Keeps s (b.unwrapLines s first last).buffer (b.unwrapLines s first last).shared :=
  chain_unwrapLines (R := fun b s b' s' => b.Orderly s → b.Keeps s b' s') (fun _ _ h => .refl h)
    (fun hk hk' h => (hk h).trans (hk' (hk h).orderly))
    (fun b s line h => keeps_edited h (b.edited_unwrap s line)) b s first last h

/-! ## Any operation -/

theorem keeps_runOnBuffer (op : BufferOp) :
    b.Keeps s (Session.runOnBuffer b s op).buffer (Session.runOnBuffer b s op).shared := by
  cases op with
  | setText text => exact keeps_setText h text
  | clear => exact keeps_clear h
  | editStart => exact keeps_editStart h
  | editEnd => exact keeps_editEnd h
  | insert line col text => exact keeps_edited h (b.edited_insert s line col text)
  | remove line start stop => exact keeps_edited h (b.edited_remove s line start stop)
  | wrap line col => exact keeps_edited h (b.edited_wrap s line col)
  | unwrap line => exact keeps_edited h (b.edited_unwrap s line)
  | unwrapLines first last => exact keeps_unwrapLines h first last
  | invalidate => exact keeps_invalidate h
  | setTabWidth width => exact keeps_setTabWidth h width
  | ensure line lookahead => exact keeps_ensure h line lookahead
  | fold line => exact (searches_foldRange b s line).keeps h
  | folds => exact (searches_foldEach b s b.lineCount 0).keeps h
  | line n => exact .refl h
  | dump => exact .refl h
  | text => exact .refl h
  | takeEvents => exact keeps_takeEvents h

end

end Buffer

end Highlighting
