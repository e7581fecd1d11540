import Highlighting.Language.Builtin
import Highlighting.Proofs.Quoting
import Highlighting.Proofs.Enclosed
import Highlighting.Proofs.Determinism
import Highlighting.Proofs.Recovery

/-!
# Fenced code

In the built-in language of Markdown, a fence of three or more backticks or tildes opens a block,
and a line that holds as many of them and white space around them closes it; every other line in
between belongs to it:

    the start finds the white space and the fence, and captures the fence      (find_codeFence)
    the end is found on lines on which the fence stands alone, from their start to their end
                                                    (endSource?_codeFence, eq_ofAlone_of_fenceEnd)
    the lines of a block, scanned from the first, are one string each, between two markers
                                                                            (Fenced.fromScratch)
    their markers are those of one region                                     (Fenced.regionAt)

A very long fence is too large to be a pattern.  Then the first line is one string all the same, and
the block ends with it                                    (Fenced.scan_opening_lost, fence_cut)
-/

namespace Highlighting

open Text (Cursor Ahead)
open Pattern (StandsAlone)

/-- Past its first character, a place knows the character before it. -/
theorem Text.Cursor.before_skip_ne_none {text : String} {n : Nat} (hn : 0 < n) (htext : text ≠ "") :
    ((ofString text).skip n).before ≠ none := by
  have hrest : (ofString text).rest ≠ [] := by simpa [ofString, ofChars] using htext
  have hlt := offset_lt_skip hn hrest
  obtain ⟨front, -, hoffset, hbefore⟩ := ((ofString text).ahead_skip n).exists_append
  rw [hbefore, Ne, List.getLast?_eq_none_iff]
  rintro rfl
  rw [hoffset] at hlt
  exact absurd hlt (Nat.not_lt_zero _)

namespace Builtin

/-! ## The construct -/

/-- The construct of a fenced block. -/
def codeFence : Construct :=
  ⟨"fence", ⟨"^\\s*(`\x7b3,\x7d|~\x7b3,\x7d)", .seq (.look .textStart) (.seq Pattern.blanks
    (.group 1 (.alt (.rep 3 none true (.one (.single '`')))
      (.rep 3 none true (.one (.single '~'))))))⟩,
    .derived "^\\s*%1\\s*$", .string, none, 1, 3⟩

/-- What is made for the end of a block with a fence of so many characters. -/
def fenceEnd (f : Char) (n : Nat) : String :=
  fill "^\\s*%1\\s*$" (Pattern.escaped (String.ofList (List.replicate n f)))

theorem fenceEnd_eq (f : Char) (n : Nat) :
    fenceEnd f n = String.ofList (Pattern.alone (List.replicate n f)) := by
  have htemplate : "^\\s*%1\\s*$".toList =
      ['^', '\\', 's', '*', '%', '1', '\\', 's', '*', '$'] := rfl
  rw [fenceEnd, fill, htemplate, Pattern.toList_escaped, String.toList_ofList, Pattern.alone,
    List.append_assoc]
  rfl

theorem byteLength_fence {f : Char} (hf : f = '`' ∨ f = '~') (n : Nat) :
    Text.byteLength (List.replicate n f) = n := by
  rw [Text.byteLength_replicate]
  rcases hf with rfl | rfl <;> exact Nat.mul_one n

theorem exists_compile_fenceEnd {f : Char} (hf : f = '`' ∨ f = '~') {n : Nat}
    (hn : n + 85 ≤ Pattern.weightLimit) : ∃ p, Pattern.compile (fenceEnd f n) = .ok p := by
  rw [fenceEnd_eq]
  exact ⟨_, Pattern.compile_alone_of_le (by rwa [byteLength_fence hf])⟩

theorem compile_fenceEnd_tooLarge {f : Char} (hf : f = '`' ∨ f = '~') {n : Nat}
    (hn : Pattern.weightLimit < n) : Pattern.compile (fenceEnd f n) = .error .tooLarge := by
  rw [fenceEnd_eq]
  exact Pattern.compile_alone_tooLarge (by rwa [byteLength_fence hf])

/-- If there is a pattern for the end, it is that of lines on which the fence stands alone. -/
theorem eq_ofAlone_of_fenceEnd {f : Char} {n : Nat} {p : Pattern}
    (h : Pattern.compile (fenceEnd f n) = .ok p) : p = .ofAlone (List.replicate n f) :=
  Pattern.eq_ofAlone_of_compile (fenceEnd_eq f n ▸ h)

/-- None of the rules of the language is flawed. -/
theorem exists_markdown : ∃ l, markdown = .ok l :=
  ⟨_, rfl⟩

theorem constructs_markdown {l : Language} (hl : markdown = .ok l) : l.plain = false ∧
    l.folding = .token ∧ l.constructs = [codeFence] := by
  obtain ⟨constructs, hks, hconstructs, hplain, hfolding⟩ := inv_assemble hl
  obtain rfl := Except.ok.inj hks
  exact ⟨hplain, hfolding, hconstructs⟩

theorem construct?_codeFence {l : Language} (hl : markdown = .ok l) :
    l.construct? codeFence.id = some codeFence := by
  obtain ⟨-, -, hconstructs⟩ := constructs_markdown hl
  rw [Language.construct?, hconstructs]
  rfl

/-- The lines of a block: one on which a fence of so many characters opens, with spaces or tabs
before it, some on which it does not stand alone, and one on which it does. -/
structure Fenced (f : Char) (n : Nat) (opening : String) (body : List String) (closing : String) :
    Prop where
  char : f = '`' ∨ f = '~'
  length : 3 ≤ n
  opens : ∃ front info, opening.toList = front ++ (List.replicate n f ++ info) ∧
    (∀ x ∈ front, x = ' ' ∨ x = '\t') ∧ info.head? ≠ some f
  within : ∀ text ∈ body, ¬StandsAlone (List.replicate n f) text.toList
  closes : StandsAlone (List.replicate n f) closing.toList

/-- What line `i` of a block holds, `last` being the last: a string from end to end, a marker if it
is the first or the last, and after the last no construct is open. -/
structure HoldsFence (last i : Nat) (text : String) (g : Highlight) : Prop where
  runs : g.runs = runBetween 0 text.utf8ByteSize .string
  markers : g.markers = if i = 0 then [⟨0, 3⟩] else if i = last then [⟨0, -3⟩] else []
  endState : i = last → g.endState = .normal

/-- A line that shows what such a line holds holds it as well. -/
theorem HoldsFence.of_shows {last i : Nat} {text : String} {shown found : Highlight}
    {t u : Contexts} (h : HoldsFence last i text found) (hshows : Shows t shown u found) :
    HoldsFence last i text shown where
  runs := hshows.runs.trans h.runs
  markers := hshows.markers.trans h.markers
  endState hi := by
    have hfound := h.endState hi
    exact congrArg₂ LineState.mk (hshows.construct.trans (congrArg _ hfound))
      (hshows.none_iff.2 (congrArg _ hfound))

section
variable {f : Char} {n : Nat} {front info : List Char} {c : Cursor} (hf : f = '`' ∨ f = '~')
  (hn : 3 ≤ n) (hbefore : c.before = none) (hrest : c.rest = front ++ (List.replicate n f ++ info))
  (hfront : ∀ x ∈ front, x = ' ' ∨ x = '\t') (hinfo : info.head? ≠ some f)

include hf in
/-- A fence character is no white space. -/
theorem isBlank_fence : Unicode.isBlank f = false := by
  rcases hf with rfl | rfl <;> decide +kernel

include hn in
theorem fence_ne_nil (front info : List Char) :
    front ++ (List.replicate n f ++ info) ≠ [] := by
  refine List.ne_nil_of_length_pos ?_
  simp only [List.length_append, List.length_replicate]
  omega

include hf hn hinfo in
/-- Of the two kinds of fences, the one that stands there is taken as far as it goes. -/
theorem head?_ends_fence {r : Reach} (hr : r.here.rest = List.replicate n f ++ info) :
    (Expr.ends (.alt (.rep 3 none true (.one (.single '`')))
      (.rep 3 none true (.one (.single '~')))) r).head? = some (r.skip n) := by
  have hstretch : (CharSet.single f).stretch r.here.rest = n := by
    have hother : ∀ x, info.head? = some x → (CharSet.single f).mem x = false := by
      rintro x hx
      simpa using fun h : x = f => hinfo (h ▸ hx)
    rw [hr, CharSet.stretch_append _ (by simp) hother, List.length_replicate]
  have hother {g : Char} (hg : f ≠ g) : (CharSet.single g).stretch r.here.rest < 3 := by
    obtain ⟨n, rfl⟩ := Nat.exists_eq_succ_of_ne_zero (n := n) (by omega)
    rw [hr, List.replicate_succ, List.cons_append, CharSet.stretch_cons, if_neg (by simpa using hg)]
    decide
  rw [Expr.head?_ends_alt]
  rcases hf with rfl | rfl
  · rw [Expr.head?_ends_many (by omega), hstretch]
    rfl
  · rw [Expr.ends_many_eq_nil (hother (by decide)), Expr.head?_ends_many (by omega), hstretch]
    rfl

include hf hn hbefore hrest hfront hinfo

/-- The start of a block takes the white space and the fence, and captures the fence. -/
theorem find_codeFence : ∃ m, codeFence.start.find c = some m ∧ m.start = c ∧
    m.stop = c.skip (front.length + n) ∧
    Construct.captured m = String.ofList (List.replicate n f) := by
  let r : Reach := ⟨c, []⟩
  let s : Reach := r.skip front.length
  have hs : s.here.rest = List.replicate n f ++ info := by
    rw [Reach.skip_here, Cursor.skip_rest, hrest, List.drop_left]
  have hblank : ∀ x ∈ front, Unicode.isBlank x = true := by
    intro x hx
    rcases hfront x hx with rfl | rfl <;> decide +kernel
  have hends : (Expr.ends codeFence.start.expr r).head? =
      some { s.skip n with groups := [(1, ⟨s.here, (s.skip n).here⟩)] } := by
    refine Expr.head?_ends_seq (Expr.head?_ends_look (by simp [r, Look.holds, hbefore])) ?_
    refine Expr.head?_ends_seq (Pattern.head?_ends_blanks hrest hblank fun x hx => ?_) ?_
    · obtain ⟨n, rfl⟩ := Nat.exists_eq_succ_of_ne_zero (n := n) (by omega)
      obtain rfl : f = x := Option.some.inj hx
      exact isBlank_fence hf
    · rw [Expr.head?_ends_group, head?_ends_fence hf hn hinfo hs]
      rfl
  refine ⟨_, Pattern.find_of_head hends, rfl, Cursor.skip_add c front.length n, ?_⟩
  have hchars := Cursor.upTo_append hs
  rw [List.length_replicate] at hchars
  exact congrArg String.ofList hchars

theorem endSource?_codeFence : codeFence.endSource? c = some (fenceEnd f n) := by
  obtain ⟨m, hm, -, -, hcaptured⟩ := find_codeFence hf hn hbefore hrest hfront hinfo
  rw [Construct.endSource?_of_find (k := codeFence) rfl hm, hcaptured]
  rfl

/-- A block is the next token where it starts. -/
theorem nextToken_codeFence {l : Language} (hl : markdown = .ok l) : ∃ m,
    l.nextToken c = some (.construct codeFence m) ∧ m.start = c ∧
      m.stop = c.skip (front.length + n) := by
  obtain ⟨-, -, hconstructs⟩ := constructs_markdown hl
  obtain ⟨m, hm, hstart, hstop, -⟩ := find_codeFence hf hn hbefore hrest hfront hinfo
  have hne : c.rest ≠ [] := hrest ▸ fence_ne_nil hn front info
  have hfilled := Match.filled_of_skip (hstart.symm ▸ hstop) (by omega) (hstart.symm ▸ hne)
  have hsplit : l.constructs = [] ++ codeFence :: [] := hconstructs
  exact ⟨m, nextToken_here hsplit (Pattern.findFilled_of_find hm hfilled) hstart (by simp), hstart,
    hstop⟩

end

/-! ## The lines of a block -/

namespace Fenced

variable {f : Char} {n : Nat} {opening closing : String} {body : List String}
  (h : Fenced f n opening body closing)
include h

theorem opening_ne : opening ≠ "" := by
  rintro rfl
  obtain ⟨front, info, hopening, -⟩ := h.opens
  exact fence_ne_nil h.length front info hopening.symm

theorem closing_ne : closing ≠ "" := by
  rintro rfl
  obtain ⟨front, back, hclosing, -⟩ := h.closes
  rw [List.append_assoc] at hclosing
  exact fence_ne_nil h.length front back hclosing.symm

/-- The end is not found on the lines in between. -/
theorem findEnd_within (text : String) (htext : text ∈ body) :
    codeFence.findEnd (.ofAlone (List.replicate n f)) (.ofString text) = none := by
  rw [Construct.findEnd_unescaped rfl, Option.eq_none_iff_forall_ne_some]
  exact fun e he => h.within text htext (Pattern.standsAlone_of_find he).2

/-- It is found on the last line, all of which it is. -/
theorem findEnd_closing : ∃ e,
    codeFence.findEnd (.ofAlone (List.replicate n f)) (.ofString closing) = some e ∧
      e.start.offset = 0 ∧ e.stop.offset = closing.utf8ByteSize ∧ e.stop.atEnd = true := by
  obtain ⟨k, rfl⟩ := Nat.exists_eq_add_of_le' h.length
  obtain ⟨e, he, hstart, hstop⟩ :=
    Pattern.find_ofAlone (c := .ofString closing) (isBlank_fence h.char) rfl h.closes
  refine ⟨e, by rw [Construct.findEnd_unescaped rfl]; exact he, by rw [hstart]; rfl, ?_, ?_⟩
  · rw [hstop, Cursor.skip_offset, List.take_length]
    exact (Nat.zero_add _).trans (Text.byteLength_toList closing)
  · rw [hstop, Cursor.atEnd, Cursor.skip_rest, List.drop_length]
    rfl

/-- The block is the first token of the line on which it opens. -/
theorem nextToken_opening {l : Language} (hl : markdown = .ok l) : ∃ m,
    l.nextToken (.ofString opening) = some (.construct codeFence m) ∧ m.start = .ofString opening ∧
      codeFence.endSource? (.ofString opening) = some (fenceEnd f n) ∧ m.stop.before ≠ none := by
  obtain ⟨front, info, hopening, hfront, hinfo⟩ := h.opens
  obtain ⟨m, hnext, hstart, hstop⟩ :=
    nextToken_codeFence (c := .ofString opening) h.char h.length rfl hopening hfront hinfo hl
  have hlength := h.length
  exact ⟨m, hnext, hstart,
    endSource?_codeFence (c := .ofString opening) h.char h.length rfl hopening hfront hinfo,
    hstop ▸ Cursor.before_skip_ne_none (by omega) h.opening_ne⟩

/-- On the first line the block opens, and the end is not found in what follows the fence. -/
theorem scan_opening {p : Pattern} (hp : Pattern.compile (fenceEnd f n) = .ok p) {l : Language}
    (hl : markdown = .ok l) {t : Contexts} (ht : t.Sound) : ∃ s,
    (l.scan t .normal opening).1 = ⟨runBetween 0 opening.utf8ByteSize .string, [⟨0, 3⟩], s⟩ ∧
      Inside l (l.scan t .normal opening).2 s codeFence (.ofAlone (List.replicate n f)) := by
  obtain ⟨hplain, -⟩ := constructs_markdown hl
  have hnumber := construct?_codeFence hl
  obtain ⟨m, hnext, hstart, hsource, hbefore⟩ := h.nextToken_opening hl
  obtain rfl := eq_ofAlone_of_fenceEnd hp
  have hnone : codeFence.findEnd (.ofAlone (List.replicate n f)) m.stop = none := by
    rw [Construct.findEnd_unescaped rfl, Option.eq_none_iff_forall_ne_some]
    exact fun e he => hbefore (Pattern.standsAlone_of_find he).1
  obtain ⟨s, hopened, -, hinside⟩ := scan_opens hplain ht hnumber (by decide) hnext
    (hstart ▸ hsource) hp hnone
  rw [hstart] at hopened
  exact ⟨s, hopened, hinside⟩

/-- So it does when there is no pattern for its end; but then it leaves a state that nobody can go
on with. -/
theorem scan_opening_lost (hp : ∀ p, Pattern.compile (fenceEnd f n) ≠ .ok p) {l : Language}
    (hl : markdown = .ok l) {t : Contexts} (ht : t.Sound) :
    (l.scan t .normal opening).1 =
        ⟨runBetween 0 opening.utf8ByteSize .string, [⟨0, 3⟩], ⟨1, none⟩⟩ ∧
      ∀ w, l.Lost w ⟨1, none⟩ := by
  obtain ⟨hplain, -⟩ := constructs_markdown hl
  obtain ⟨m, hnext, hstart, hsource, -⟩ := h.nextToken_opening hl
  have hopened := scan_opens_lost hplain ht rfl hnext (hstart ▸ hsource) hp
  rw [hstart] at hopened
  exact ⟨hopened, fun w => l.lost_of_isDerived w (construct?_codeFence hl) (by decide) rfl⟩

variable {p : Pattern} (hp : Pattern.compile (fenceEnd f n) = .ok p)
include hp

/-- The lines of a block, scanned from the first. -/
theorem fromScratch {l : Language} (hl : markdown = .ok l) (more : List String) : ∃ s gs,
    (l.fromScratch (opening :: (body ++ closing :: more))).1 =
      ⟨runBetween 0 opening.utf8ByteSize .string, [⟨0, 3⟩], s⟩ :: (body.map (codeFence.whole s) ++
        ⟨runBetween 0 closing.utf8ByteSize .string, [⟨0, -3⟩], .normal⟩ :: gs) := by
  obtain ⟨hplain, -⟩ := constructs_markdown hl
  obtain ⟨s, hopened, hinside⟩ := h.scan_opening hp hl Contexts.sound_fresh
  obtain ⟨e, he, hstart, hstop, hend⟩ := h.findEnd_closing
  have hrun := inTurn_scanLines l .fresh .normal (opening :: (body ++ closing :: more))
  refine ⟨s, ?_⟩
  rw [Language.fromScratch]
  generalize l.scanLines .fresh .normal (opening :: (body ++ closing :: more)) = found at hrun ⊢
  obtain ⟨found, v⟩ := found
  dsimp only at hrun ⊢
  cases hrun with
  | cons hx hrun =>
    rw [hopened] at hrun ⊢
    obtain ⟨u, w, gs, rfl, -⟩ := hrun.encloses hplain (hinside.extend hx) body h.findEnd_within
      h.closing_ne he
    rw [Language.scanFrom_atEnd _ _ _ _ hend, hstart, hstop]
    have hlast : Highlight.after (runBetween 0 closing.utf8ByteSize .string) [⟨0, -3⟩] .blank =
        ⟨runBetween 0 closing.utf8ByteSize .string, [⟨0, -3⟩], .normal⟩ := by
      simp [Highlight.after, Highlight.blank]
    exact ⟨gs, congrArg (fun last => _ :: (_ ++ last :: gs)) hlast⟩

/-- The markers of a block are those of one region. -/
theorem markersOf {l : Language} (hl : markdown = .ok l) (more : List String) : ∃ ms,
    l.markersOf (opening :: (body ++ closing :: more)) =
      [⟨0, 3⟩] :: (List.replicate body.length [] ++ [⟨0, -3⟩] :: ms) := by
  obtain ⟨s, gs, hscratch⟩ := h.fromScratch hp hl more
  refine ⟨gs.map (·.markers), ?_⟩
  rw [Language.markersOf, hscratch, List.map_cons, List.map_append, List.map_map, List.map_cons]
  exact congrArg (fun quiet => _ :: (quiet ++ _)) List.map_const'

theorem holds_fromScratch {l : Language} (hl : markdown = .ok l) (more : List String) {i : Nat}
    (hi : i ≤ body.length + 1) {text : String} {g : Highlight}
    (htext : (opening :: (body ++ closing :: more))[i]? = some text)
    (hg : (l.fromScratch (opening :: (body ++ closing :: more))).1[i]? = some g) :
    HoldsFence (body.length + 1) i text g := by
  obtain ⟨s, gs, hscratch⟩ := h.fromScratch hp hl more
  rw [hscratch] at hg
  cases i with
  | zero =>
    obtain rfl := Option.some.inj htext
    obtain rfl := Option.some.inj hg
    exact ⟨rfl, rfl, fun hlast => absurd hlast (by omega)⟩
  | succ i =>
    rw [List.getElem?_cons_succ] at htext hg
    obtain hlt | rfl := Nat.lt_or_eq_of_le (Nat.le_of_succ_le_succ hi)
    · -- a line in between
      rw [List.getElem?_append_left hlt] at htext
      rw [List.getElem?_append_left (by simpa using hlt), List.getElem?_map, htext] at hg
      obtain rfl := Option.some.inj hg
      exact ⟨rfl, by rw [if_neg (by omega), if_neg (by omega)]; rfl,
        fun hlast => absurd hlast (by omega)⟩
    · rw [List.getElem?_append_right (Nat.le_refl _), Nat.sub_self] at htext
      rw [List.getElem?_append_right (by simp), List.length_map, Nat.sub_self] at hg
      obtain rfl := Option.some.inj htext
      obtain rfl := Option.some.inj hg
      exact ⟨rfl, by rw [if_neg (by omega), if_pos rfl], fun _ => rfl⟩

/-- Lines that are linked hold what the lines of a block hold. -/
theorem holds_of_linked {l : Language} (hl : markdown = .ok l) {more : List String} {t : Contexts}
    (ht : t.Sound) {lines : List Line}
    (htexts : lines.map (·.text) = opening :: (body ++ closing :: more)) {i : Nat}
    (hi : i ≤ body.length + 1) (hlinks : ∀ j ≤ i, Linked l t lines j) :
    ∃ x, lines[i]? = some x ∧ HoldsFence (body.length + 1) i x.text x.highlight := by
  have hlength := congrArg List.length htexts
  simp only [List.length_map, List.length_cons, List.length_append] at hlength
  have hx : lines[i]? = some lines[i] := List.getElem?_eq_getElem (by omega)
  have htext := congrArg (·[i]?) htexts.symm
  simp only [List.getElem?_map, hx, Option.map_some] at htext
  obtain ⟨found, hfound, hshows⟩ := shows_of_linked l t lines i _ ht hlinks hx
  rw [l.fromScratch_take _ _ _ (Nat.lt_succ_self i), htexts] at hfound
  exact ⟨_, hx, (h.holds_fromScratch hp hl more hi htext hfound).of_shows hshows⟩

end Fenced

/-! ## The region of a block -/

/-- Lines without markers close nothing. -/
theorem closeOn_quiet (region : Int) (depth line count : Nat) (rest : List (List Marker)) :
    closeOn region depth line (List.replicate count [] ++ rest) =
      closeOn region depth (line + count) rest := by
  induction count generalizing line with
  | zero => rfl
  | succ count ih =>
    rw [List.replicate_succ, List.cons_append, closeOn, matchClose]
    dsimp only
    rw [ih, Nat.add_assoc, Nat.add_comm 1 count]

/-- The region that starts on the first line of a block ends on its last. -/
theorem Fenced.regionAt {f : Char} {n : Nat} {opening closing : String} {body : List String}
    (hf : Fenced f n opening body closing) {p : Pattern}
    (hp : Pattern.compile (fenceEnd f n) = .ok p) (h : Handle) (hl : markdown = .ok h.language)
    (more : List String) :
    h.regionAt (opening :: (body ++ closing :: more)) 0 = some ⟨⟨0, 0⟩, ⟨body.length + 1, 0⟩⟩ := by
  obtain ⟨-, hfolding, -⟩ := constructs_markdown hl
  have htoken : h.folding = .token := by
    unfold Handle.folding
    split
    · rfl
    · exact hfolding
  obtain ⟨ms, hmarkers⟩ := hf.markersOf hp hl more
  have hopens : firstUnclosed [⟨0, 3⟩] = some (3, 0) := by decide
  have hcloses : matchClose 3 1 [⟨0, -3⟩] = (some 0, 0) := by decide
  rw [h.regionAt_token htoken, hmarkers, regionFrom, List.getElem?_cons_zero, Option.bind_some,
    hopens, Option.bind_some, List.drop_succ_cons, List.drop_zero, closeOn_quiet, closeOn, hcloses,
    Nat.zero_add, Nat.add_comm 1 body.length]
  rfl

end Builtin

/-- A buffer of which nothing counts as highlighted is current. -/
theorem Buffer.current_of_highlightedUpTo {b : Buffer} {s : Shared}
    (h : b.highlightedUpTo s = 0) : b.Current s := by
  intro hp k hk i hi
  rw [b.highlightedUpTo_of_answered s hp] at h
  omega

/-! ## Fences that are too long -/

namespace Builtin

/-- The line that a fence of so many backticks fills. -/
def fenceLine (n : Nat) : String :=
  String.ofList (List.replicate n '`')

theorem toList_fenceLine (n : Nat) : (fenceLine n).toList = List.replicate n '`' :=
  String.toList_ofList

theorem fenced_fenceLine {n : Nat} (hn : 3 ≤ n) :
    Fenced '`' n (fenceLine n) ["b"] (fenceLine n) where
  char := .inl rfl
  length := hn
  opens := ⟨[], [], by simp [toList_fenceLine], by simp, by simp⟩
  within := by
    rintro text htext ⟨front, back, hb, -⟩
    obtain rfl := List.mem_singleton.1 htext
    have hlength := congrArg List.length hb
    have hone : "b".toList.length = 1 := rfl
    simp only [List.length_append, List.length_replicate] at hlength
    omega
  closes := ⟨[], [], by simp [toList_fenceLine], by simp, by simp⟩

theorem linesOf_fenceLine {n : Nat} :
    Text.linesOf (Text.joinNewlines [fenceLine n, "b", fenceLine n]) =
      [fenceLine n, "b", fenceLine n] := by
  have hfence {x : Char} (hx : x ≠ '`') : x ∉ (fenceLine n).toList := by
    rw [toList_fenceLine]
    exact fun hmem => hx (List.eq_of_mem_replicate hmem)
  have hnewline : '\n' ∉ (fenceLine n).toList := hfence (by decide)
  have hreturn : (fenceLine n).toList.getLast? ≠ some '\r' :=
    fun hlast => hfence (by decide) (List.mem_of_getLast? hlast)
  refine Text.linesOf_joinNewlines (by simp) ?_ ?_
  · simp only [List.forall_mem_cons]
    exact ⟨hnewline, by decide, hnewline, by simp⟩
  · simp only [List.forall_mem_cons]
    exact ⟨hreturn, by decide, hreturn, by simp⟩

end Builtin

/-- A session whose one buffer holds a line between two fences under the definition of Markdown. -/
def Session.betweenFences (n : Nat) : Session :=
  (start Settings.standard.resetDelay .standard).after
    [.define "markdown" Builtin.markdown false,
      .newBuffer "text" (some (Text.joinNewlines [Builtin.fenceLine n, "b", Builtin.fenceLine n]))
        none,
      .useHandle "text" "markdown"]

open Builtin in
/-- The buffer is the one that the command line would open. -/
theorem Session.betweenFences_spec {l : Language} (hl : markdown = .ok l) (n : Nat) : ∃ b,
    (betweenFences n).buffers = [("text", b)] ∧ b.Orderly (betweenFences n).shared ∧
      b.Current (betweenFences n).shared ∧ b.store.editing = false ∧
      b.handle = some ⟨languages.length, l, false⟩ ∧
      b.texts = [fenceLine n, "b", fenceLine n] := by
  obtain ⟨ho, hc, hclosed, hh, htexts⟩ := CommandLine.opened_spec .standard
    ⟨languages.length, l, false⟩ (Text.joinNewlines [fenceLine n, "b", fenceLine n]) [] .wrapping
  rw [linesOf_fenceLine] at htexts
  rw [betweenFences, hl]
  exact ⟨_, rfl, ho, hc, hclosed, hh, htexts⟩

open Builtin in
/-- A block whose fence is too long for a pattern ends with its first line, and the line after it is
no string. -/
theorem fence_cut {n : Nat} (hn : Pattern.weightLimit < n) :
    Fenced '`' n (fenceLine n) ["b"] (fenceLine n) ∧
    ∃ b b' s' x, (Session.betweenFences n).buffers = [("text", b)] ∧
      b.texts = [fenceLine n, "b", fenceLine n] ∧
      b.ensure (Session.betweenFences n).shared 2 0 = ⟨.ok (), b', s'⟩ ∧
      b'.lineList[1]? = some x ∧ x.text = "b" ∧ x.highlight.runs = [] := by
  have hlimit : 3 ≤ Pattern.weightLimit := by decide
  have hf := fenced_fenceLine (Nat.le_trans hlimit (Nat.le_of_lt hn))
  obtain ⟨l, hl⟩ := exists_markdown
  obtain ⟨hplain, -⟩ := constructs_markdown hl
  have hnone : ∀ p, Pattern.compile (fenceEnd '`' n) ≠ .ok p := fun p hp => by
    cases (compile_fenceEnd_tooLarge (.inl rfl) hn).symm.trans hp
  obtain ⟨hopened, hlost⟩ := hf.scan_opening_lost hnone hl Contexts.sound_fresh
  have hnext : l.nextToken (.ofString "b") = none := by
    have hall : (markdown.toOption.all fun l => (l.nextToken (.ofString "b")).isNone) = true := by
      decide +kernel
    rw [hl] at hall
    exact Option.isNone_iff_eq_none.1 hall
  have hblank := l.scan_blank_of_lost _ _ (hlost (l.scan .fresh .normal (fenceLine n)).2) hplain
    (by decide) hnext
  obtain ⟨b, hbuffers, ho, hc, hclosed, hh, htexts⟩ := Session.betweenFences_spec hl n
  have hcount : b.lineCount = 3 := by
    rw [← b.texts_length, htexts]
    rfl
  obtain ⟨b', s', hrun, hkeeps, hsame, hlinks⟩ := Buffer.ensure_of_fits ho (Sums.fits_zero _ 2)
  have htexts' : b'.lineList.map (·.text) = [fenceLine n, "b", fenceLine n] :=
    hsame.texts.trans htexts
  obtain ⟨x, hx, hxtext⟩ : ∃ x, b'.lineList[1]? = some x ∧ x.text = "b" := by
    have hget := congrArg (·[1]?) htexts'
    simpa using hget
  obtain ⟨found, hfound, hshows⟩ := shows_of_linked l s'.contexts b'.lineList 1 x
    hkeeps.orderly.sound (fun i hi => hlinks hc hclosed (by omega) _ hh i (by omega)) hx
  rw [htexts', Language.fromScratch, List.take_succ_cons, List.take_succ_cons, List.take_zero,
    l.scanLines_cons, hopened, l.scanLines_cons, hblank] at hfound
  obtain rfl := Option.some.inj hfound
  exact ⟨hf, b, b', s', x, hbuffers, htexts, hrun, hx, hxtext, hshows.runs⟩

open Builtin in
/-- **A fence closes on a line of its own.**  Take any session and a buffer in it without an open
transaction that begins with a fenced block under the definition of Markdown, whatever comes after
the block.  Contexts have been forgotten by passes alone, or nothing of the buffer counts as
highlighted yet.  If there is a pattern for the end of the block, then each of its lines that counts
as highlighted holds what a line of a block is to hold; after asking for the last of them all do; and
the region of the first line is the block.  If the fence is too long for a pattern, the first line is
one string with a marker all the same, but ends in a state that no table lets a line go on from. -/
theorem fence_closes {f : Char} {n : Nat} {opening closing : String} {body : List String}
    (hf : Fenced f n opening body closing) (more : List String) (s : Session) (hs : s.Reachable)
    (name : String) (b : Buffer) (hb : (name, b) ∈ s.buffers) (hclosed : b.store.editing = false)
    (hfrom : s.Undisturbed ∨ b.highlightedUpTo s.shared = 0) (h : Handle) (hh : b.handle = some h)
    (hl : markdown = .ok h.language) (htexts : b.texts = opening :: (body ++ closing :: more)) :
    (∀ p, Pattern.compile (fenceEnd f n) = .ok p →
      (∀ i ≤ body.length + 1, i < b.highlightedUpTo s.shared →
        ∃ x, b.lineList[i]? = some x ∧ HoldsFence (body.length + 1) i x.text x.highlight) ∧
      (∀ lookahead, s.shared.sums.Fits (body.length + 1) lookahead →
        ∃ b' s', b.ensure s.shared (body.length + 1) lookahead = ⟨.ok (), b', s'⟩ ∧
          b'.texts = b.texts ∧ ∀ i ≤ body.length + 1,
            ∃ x, b'.lineList[i]? = some x ∧ HoldsFence (body.length + 1) i x.text x.highlight) ∧
      (b.SumsFit s.shared →
        (b.foldRange s.shared 0).result = .ok (some ⟨⟨0, 0⟩, ⟨body.length + 1, 0⟩⟩))) ∧
    ((∀ p, Pattern.compile (fenceEnd f n) ≠ .ok p) →
      (∀ t : Contexts, t.Sound → (h.language.scan t .normal opening).1 =
        ⟨runBetween 0 opening.utf8ByteSize .string, [⟨0, 3⟩], ⟨1, none⟩⟩) ∧
      ∀ w, h.language.Lost w ⟨1, none⟩) := by
  have ho : b.Orderly s.shared := hs.orderly.buffers _ hb
  have hc : b.Current s.shared :=
    hfrom.elim (fun hs => hs.current _ hb) Buffer.current_of_highlightedUpTo
  have hcount : body.length + 1 < b.lineCount := by
    rw [← b.texts_length, htexts]
    simp only [List.length_cons, List.length_append]
    omega
  refine ⟨fun p hp => ⟨fun i hi hlt => ?_, fun lookahead hfits => ?_, fun hfit => ?_⟩, fun hp =>
    ⟨fun t ht => (hf.scan_opening_lost hp hl ht).1,
      (hf.scan_opening_lost hp hl Contexts.sound_fresh).2⟩⟩
  · have hanswered := b.answered_of_pos s.shared (Nat.zero_lt_of_lt hlt)
    have hfrontier := b.highlightedUpTo_le s.shared
    exact hf.holds_of_linked hp hl ho.sound htexts hi fun j hj =>
      hc.linked hclosed hanswered hh j (by omega)
  · obtain ⟨b', s', hrun, hkeeps, hsame, hlinks⟩ := Buffer.ensure_of_fits ho hfits
    exact ⟨b', s', hrun, hsame.texts, fun i hi => hf.holds_of_linked hp hl hkeeps.orderly.sound
      (hsame.texts.trans htexts) hi fun j hj => hlinks hc hclosed hcount h hh j (by omega)⟩
  · rw [Buffer.foldRange_result ho hc hclosed h hh hfit 0 (by omega), htexts,
      hf.regionAt hp h hl more]

open Builtin in
/-- So not every block closes on a line of its own: between these fences there is a line that is no
string. -/
theorem not_fence_closes_long :
    Fenced '`' 450000 (fenceLine 450000) ["b"] (fenceLine 450000) ∧
    ∃ b b' s' x, (Session.betweenFences 450000).buffers = [("text", b)] ∧
      b.texts = [fenceLine 450000, "b", fenceLine 450000] ∧
      b.ensure (Session.betweenFences 450000).shared 2 0 = ⟨.ok (), b', s'⟩ ∧
      b'.lineList[1]? = some x ∧ x.text = "b" ∧ x.highlight.runs = [] :=
  fence_cut (by decide)

/-- A session whose one buffer begins with a fenced block.  In the block there are a header, an
empty line, a fence of the other kind, a longer one, and one with text after it. -/
def Session.markdownFenced : Session :=
  (start 0 .standard).after
    [.define "markdown" Builtin.markdown false,
      .newBuffer "text" (some " ```rust\n# a\n\n~~~\n````\n``` b\n```  \nc") none,
      .useHandle "text" "markdown"]

theorem fence_closes_markdownFenced :
    Builtin.Fenced '`' 3 " ```rust" ["# a", "", "~~~", "````", "``` b"] "```  " ∧
    ∃ b, ("text", b) ∈ Session.markdownFenced.buffers ∧
      (∃ b' s', b.ensure Session.markdownFenced.shared 6 0 = ⟨.ok (), b', s'⟩ ∧
        ∀ i ≤ 6, ∃ x, b'.lineList[i]? = some x ∧ Builtin.HoldsFence 6 i x.text x.highlight) ∧
      (b.foldRange Session.markdownFenced.shared 0).result =
        .ok (some ⟨⟨0, 0⟩, ⟨6, 0⟩⟩) := by
  have hf : Builtin.Fenced '`' 3 " ```rust" ["# a", "", "~~~", "````", "``` b"] "```  " := {
    char := .inl rfl
    length := Nat.le_refl 3
    opens := ⟨[' '], ['r', 'u', 's', 't'], rfl, by simp, by simp⟩
    within := by decide +kernel
    closes := by decide +kernel }
  obtain ⟨b, hb⟩ : ∃ b, Session.markdownFenced.buffers = [("text", b)] := ⟨_, rfl⟩
  have hall : (Session.markdownFenced.buffers.map fun e => (e.2.store.editing,
      decide (e.2.SumsFit Session.markdownFenced.shared), e.2.handle.map (·.language),
      e.2.texts)) =
      [(false, true, Builtin.markdown.toOption,
        [" ```rust", "# a", "", "~~~", "````", "``` b", "```  ", "c"])] := by
    decide +kernel
  rw [hb] at hall
  simp only [List.map_cons, List.map_nil, List.cons.injEq, and_true, Prod.mk.injEq,
    decide_eq_true_eq] at hall
  obtain ⟨hclosed, hfit, hhandle, htexts⟩ := hall
  obtain ⟨l, hl⟩ := Builtin.exists_markdown
  rw [hl] at hhandle
  obtain ⟨h, hh, rfl⟩ := Option.map_eq_some_iff.1 hhandle
  have hs : Session.markdownFenced.Undisturbed := .after (.start 0 .standard) _ (by simp)
  have hmem : ("text", b) ∈ Session.markdownFenced.buffers := by simp [hb]
  obtain ⟨p, hp⟩ := Builtin.exists_compile_fenceEnd (n := 3) (.inl rfl) (by decide)
  obtain ⟨-, hensure, hregion⟩ := (fence_closes hf ["c"] _ (Session.reachable_after 0 .standard _)
    "text" b hmem hclosed (.inl hs) h hh hl htexts).1 p hp
  obtain ⟨b', s', hrun, -, hlines⟩ := hensure 0 (Sums.fits_zero _ _)
  exact ⟨hf, b, hmem, ⟨b', s', hrun, hlines⟩, hregion hfit⟩

end Highlighting
