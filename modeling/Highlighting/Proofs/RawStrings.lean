import Highlighting.Language.Builtin
import Highlighting.Proofs.Quoting
import Highlighting.Proofs.Enclosed
import Highlighting.Proofs.Recovery

/-!
# Raw strings

In the built-in language of Rust, a raw string opens at an `r` with some hashes and a quote, and
closes at the first quote that as many hashes follow, whatever stands in between and however many
lines that is:

    the start finds r, n hashes and a quote, and captures the hashes      (find_rawString)
    the end is literal for a quote and n hashes                           (isLiteral_rawEnd)
    it is found where the string is to close, and nowhere before          (IsLiteral.find_behind)
    the first line is the string's, and so is the last up to the end
                                               (scan_rawOpening, findEnd_rawClosing)

With very many hashes the end is too large to be a pattern.  Then the first line is the string's all
the same, and the string ends with it                      (scan_rawOpening_lost, rawString_cut)
-/

namespace Highlighting

open Text (Cursor Ahead byteLength)

/-! ## Where a text stands first -/

/-- A text whose first character does not come again in it cannot begin before another one and reach
into it. -/
theorem prefix_of_prefix_append {x : Char} {ds front back : List Char} (hx : x ∉ ds)
    (hfront : front ≠ []) (h : x :: ds <+: front ++ x :: back) : x :: ds <+: front := by
  rcases List.prefix_or_prefix_of_prefix h (List.prefix_append front (x :: back)) with hle | hle
  · exact hle
  obtain ⟨tail, htail⟩ := hle
  cases tail with
  | nil =>
    obtain rfl : front = x :: ds := by rw [← htail, List.append_nil]
    exact List.prefix_refl _
  | cons y ys =>
    rw [← htail, List.prefix_append_right_inj, List.cons_prefix_cons] at h
    obtain rfl := h.1
    obtain ⟨z, zs, rfl⟩ := List.exists_cons_of_ne_nil hfront
    obtain ⟨-, rfl⟩ := List.cons.inj htail
    exact absurd (List.mem_append_right zs (.head ys)) hx

namespace Pattern.IsLiteral

variable {p : Pattern} {d : List Char} {c : Cursor}

/-- Where the text stands nowhere, nothing is found. -/
theorem find_eq_none (hp : p.IsLiteral d) (h : ¬d <:+: c.rest) : p.find c = .none := by
  cases hm : p.find c with
  | none => rfl
  | some m =>
    obtain ⟨n, -, -, -, hpre, -⟩ := hp.first hm
    exact absurd (hpre.isInfix.trans (List.drop_suffix n c.rest).isInfix) h

/-- The text is found behind a front in which it does not stand. -/
theorem find_behind {x : Char} {ds front back : List Char} (hp : p.IsLiteral (x :: ds))
    (hx : x ∉ ds) (hfront : ¬x :: ds <:+: front) (hc : c.rest = front ++ x :: ds ++ back) :
    ∃ m, p.find c = some m ∧ m.stop = c.skip (front.length + (x :: ds).length) := by
  have hhere : x :: ds <+: c.rest.drop front.length := by
    rw [hc, List.append_assoc, List.drop_left]
    exact List.prefix_append _ _
  obtain ⟨m', hm', -⟩ := hp.found (c.skip front.length) (by rwa [Cursor.skip_rest])
  obtain ⟨m, hm, -⟩ := find_le (c.ahead_skip front.length) hm'
  obtain ⟨n, -, -, hstop, hpre, hfirst⟩ := hp.first hm
  refine ⟨m, hm, ?_⟩
  obtain rfl | hlt := Nat.eq_or_lt_of_le (hfirst _ hhere)
  · exact hstop
  have hne : front.drop n ≠ [] := by simpa using hlt
  rw [hc, List.append_assoc, List.cons_append, List.drop_append_of_le_length (Nat.le_of_lt hlt)]
    at hpre
  exact absurd ((prefix_of_prefix_append hx hne hpre).isInfix.trans
    (List.drop_suffix n front).isInfix) hfront

end Pattern.IsLiteral

/-! ## The construct -/

namespace Builtin

/-- The construct of a raw string. -/
def rawString : Construct :=
  ⟨"raw_string", ⟨"\\br(#*)\"", .seq (.look .wordEdge) (.seq (.one (.single 'r'))
    (.seq (.group 1 (.rep 0 none true (.one (.single '#')))) (.one (.single '"'))))⟩,
    .derived "\"%1", .string, none, 2, 0⟩

/-- So many hashes. -/
def hashes (n : Nat) : String :=
  String.ofList (List.replicate n '#')

/-- What closes a raw string with so many hashes. -/
def rawDelimiter (n : Nat) : List Char :=
  '"' :: List.replicate n '#'

/-- What is made for the end of a raw string with so many hashes. -/
def rawEnd (n : Nat) : String :=
  fill "\"%1" (Pattern.escaped (hashes n))

theorem rawEnd_eq (n : Nat) : rawEnd n = String.ofList (Pattern.quoted (rawDelimiter n)) := by
  have htemplate : "\"%1".toList = ['"', '%', '1'] := rfl
  rw [rawEnd, fill, htemplate, Pattern.toList_escaped, hashes, String.toList_ofList, rawDelimiter,
    Pattern.quoted_cons, if_neg (by decide)]
  exact congrArg (fun cs => String.ofList ('"' :: cs)) (List.append_nil _)

/-- Of the constructs of the language, only one that starts with a slash stands before it. -/
theorem constructs_rust {l : Language} (hl : rust = .ok l) : l.plain = false ∧
    l.construct? rawString.id = some rawString ∧
    ∃ comment back, l.constructs = [comment] ++ rawString :: back ∧
      comment.start.expr.literal? = some ['/', '*'] := by
  obtain ⟨constructs, hks, hconstructs, hplain, -⟩ := inv_assemble hl
  obtain rfl := Except.ok.inj hks
  refine ⟨hplain, ?_, _, _, hconstructs, rfl⟩
  rw [Language.construct?, hconstructs]
  rfl

theorem toList_wordList (words : List String) : (wordList words).toList =
    ['\\', 'b', '('] ++ ['|'].intercalate (words.map String.toList) ++ [')', '\\', 'b'] := by
  simp [wordList, String.toList_intercalate]

/-- None of the rules of the language is flawed. -/
theorem exists_rust : ∃ l, rust = .ok l := by
  have hmake (name : String) (kind : TokenKind) (priority : Int) {source : String}
      (h : ∃ p, Pattern.compile source = .ok p) :
      ∃ rule, TokenRule.make name source kind priority = .ok rule := by
    obtain ⟨p, hp⟩ := h
    rw [TokenRule.make, compileFor, hp]
    exact ⟨_, rfl⟩
  refine exists_assemble _ rfl ?_
  simp only [braces, List.forall_mem_append, List.forall_mem_cons]
  refine ⟨⟨⟨⟨_, rfl⟩, ⟨_, rfl⟩, ⟨_, rfl⟩, ⟨_, rfl⟩, ⟨_, rfl⟩,
    hmake _ _ _ (Pattern.exists_compile (toList_wordList _) (by decide +kernel)),
    hmake _ _ _ (Pattern.exists_compile (toList_wordList _) (by decide +kernel)), ⟨_, rfl⟩,
    hmake _ _ _ (Pattern.exists_compile String.toList_append (by decide +kernel)), by simp⟩,
    ⟨_, rfl⟩, ⟨_, rfl⟩, by simp⟩, ⟨_, rfl⟩, by simp⟩

section
variable {n : Nat} {c : Cursor} {rest : List Char} (hbefore : c.before = none)
  (hrest : c.rest = 'r' :: (List.replicate n '#' ++ '"' :: rest))
include hbefore hrest

/-- The start of a raw string takes the `r`, the hashes and the quote, and captures the hashes. -/
theorem find_rawString : ∃ m, rawString.start.find c = some m ∧ m.start = c ∧
    m.stop = c.skip (n + 2) ∧ Construct.captured m = hashes n := by
  let r : Reach := ⟨c, []⟩
  let s : Reach := (r.skip 1).skip n
  have hone : (r.skip 1).here.rest = List.replicate n '#' ++ '"' :: rest := by simp [r, hrest]
  have htwo : s.here.rest = '"' :: rest := by
    rw [Reach.skip_here, Cursor.skip_rest, hone, List.drop_left' List.length_replicate]
  have hstretch : (CharSet.single '#').stretch (r.skip 1).here.rest = n := by
    rw [hone, CharSet.stretch_append _ (by simp) (by simp), List.length_replicate]
  have hmany : (Expr.ends (.rep 0 none true (.one (.single '#'))) (r.skip 1)).head? = some s := by
    rw [Expr.head?_ends_many (Nat.zero_le _), hstretch]
  have hends : (Expr.ends rawString.start.expr r).head? =
      some (Reach.skip { s with groups := [(1, ⟨(r.skip 1).here, s.here⟩)] } 1) := by
    refine Expr.head?_ends_seq (Expr.head?_ends_look ?_) (Expr.head?_ends_seq (t := r.skip 1) ?_
      (Expr.head?_ends_seq (by rw [Expr.head?_ends_group, hmany]; rfl) ?_))
    · have hword : Unicode.isWord 'r' = true := by decide +kernel
      simp [r, Look.holds, Look.wordBefore, Look.wordAfter, hbefore, hrest, hword]
    · rw [Expr.ends_single, if_pos (by simp [r, hrest])]
      rfl
    · rw [Expr.ends_single, if_pos (by simp [htwo])]
      rfl
  refine ⟨_, Pattern.find_of_head hends, rfl, ?_, ?_⟩
  · simp only [s, Reach.skip_here, Cursor.skip_add, r]
    rw [Nat.add_comm 1 n]
  · have hchars := Cursor.upTo_append hone
    rw [List.length_replicate] at hchars
    exact congrArg String.ofList hchars

theorem endSource?_rawString : rawString.endSource? c = some (rawEnd n) := by
  obtain ⟨m, hm, -, -, hcaptured⟩ := find_rawString hbefore hrest
  have hsource := Construct.endSource?_of_find (k := rawString) rfl hm
  rwa [hcaptured] at hsource

/-- A raw string is the next token where it starts. -/
theorem nextToken_rawString {l : Language} (hl : rust = .ok l) : ∃ m,
    l.nextToken c = some (.construct rawString m) ∧ m.start = c ∧ m.stop = c.skip (n + 2) := by
  obtain ⟨-, -, comment, back, hconstructs, hcomment⟩ := constructs_rust hl
  obtain ⟨m, hm, hstart, hstop, -⟩ := find_rawString hbefore hrest
  have hfilled := Match.filled_of_skip (hstart.symm ▸ hstop) (Nat.succ_pos _)
    (by simp [hstart, hrest])
  refine ⟨m, nextToken_here hconstructs (Pattern.findFilled_of_find hm hfilled) hstart ?_, hstart,
    hstop⟩
  intro b hb
  obtain rfl := List.mem_singleton.1 hb
  have hat := Expr.matchAt_literal _ _ hcomment c
  rw [if_neg (by simp [hrest])] at hat
  exact Option.map_eq_none_iff.1 hat

end

/-- The line on which a raw string with so many hashes opens. -/
def rawOpening (n : Nat) (first : String) : String :=
  "r" ++ hashes n ++ "\"" ++ first

/-- The line on which it closes. -/
def rawClosing (n : Nat) (last rest : String) : String :=
  last ++ "\"" ++ hashes n ++ rest

theorem rest_rawOpening (n : Nat) (first : String) : (Cursor.ofString (rawOpening n first)).rest =
    'r' :: (List.replicate n '#' ++ '"' :: first.toList) := by
  simp [Cursor.ofString, Cursor.ofChars, rawOpening, hashes]

theorem rest_rawClosing (n : Nat) (last rest : String) :
    (Cursor.ofString (rawClosing n last rest)).rest =
      last.toList ++ rawDelimiter n ++ rest.toList := by
  simp [Cursor.ofString, Cursor.ofChars, rawClosing, hashes, rawDelimiter]

theorem byteLength_rawDelimiter (n : Nat) : byteLength (rawDelimiter n) = n + 1 := by
  rw [rawDelimiter, byteLength, Text.byteLength_replicate, Nat.add_comm]
  exact congrArg (· + 1) (Nat.mul_one n)

theorem exists_compile_rawEnd {n : Nat} (h : n + 1 < Pattern.weightLimit) :
    ∃ p, Pattern.compile (rawEnd n) = .ok p := by
  rw [rawEnd_eq]
  exact Pattern.exists_compile_quoted (by rwa [byteLength_rawDelimiter])

theorem compile_rawEnd_tooLarge {n : Nat} (h : Pattern.weightLimit < n + 1) :
    Pattern.compile (rawEnd n) = .error .tooLarge := by
  rw [rawEnd_eq]
  exact Pattern.compile_quoted_tooLarge (by rwa [byteLength_rawDelimiter])

theorem isLiteral_rawEnd {n : Nat} {p : Pattern} (h : Pattern.compile (rawEnd n) = .ok p) :
    p.IsLiteral (rawDelimiter n) :=
  Pattern.isLiteral_of_compile (rawEnd_eq n ▸ h)

/-- The place after the delimiter. -/
theorem skip_rawClosing (n : Nat) (last rest : String) {c : Cursor}
    (hc : c = (Cursor.ofString (rawClosing n last rest)).skip
      (last.toList.length + (rawDelimiter n).length)) :
    c.offset = last.utf8ByteSize + (n + 1) ∧ c.rest = rest.toList := by
  subst hc
  rw [Cursor.skip_offset, Cursor.skip_rest, rest_rawClosing, ← List.length_append, List.take_left,
    List.drop_left, Text.byteLength_append, byteLength_rawDelimiter, Text.byteLength_toList]
  exact ⟨Nat.zero_add _, rfl⟩

/-! ## The lines of a raw string -/

section
variable {n : Nat} {p : Pattern} (hp : p.IsLiteral (rawDelimiter n))
include hp

/-- The end is not found where the delimiter does not stand. -/
theorem findEnd_rawString {c : Cursor} (hc : ¬rawDelimiter n <:+: c.rest) :
    rawString.findEnd p c = none := by
  rw [Construct.findEnd_unescaped rfl]
  exact hp.find_eq_none hc

/-- On the last line it is found at the delimiter. -/
theorem findEnd_rawClosing {last : String} (hlast : ¬rawDelimiter n <:+: last.toList)
    (rest : String) : ∃ e,
    rawString.findEnd p (.ofString (rawClosing n last rest)) = some e ∧
      e.stop.offset = last.utf8ByteSize + (n + 1) ∧ e.stop.rest = rest.toList ∧
      Ahead (.ofString (rawClosing n last rest)) e.stop := by
  obtain ⟨e, he, hstop⟩ := hp.find_behind (c := .ofString (rawClosing n last rest))
    (by simp [List.mem_replicate]) hlast (rest_rawClosing n last rest)
  obtain ⟨hoffset, hrest⟩ := skip_rawClosing n last rest hstop
  rw [← Construct.findEnd_unescaped (k := rawString) rfl] at he
  exact ⟨e, he, hoffset, hrest, hstop ▸ Cursor.ahead_skip _ _⟩

end

section
variable {l : Language} (hl : rust = .ok l) {n : Nat} {first : String} {t : Contexts} (ht : t.Sound)
include hl ht

/-- On the first line the string opens, and what follows the quote belongs to it. -/
theorem scan_rawOpening {p : Pattern} (hp : Pattern.compile (rawEnd n) = .ok p)
    (hfirst : ¬rawDelimiter n <:+: first.toList) : ∃ id,
    (l.scan t .normal (rawOpening n first)).1 = rawString.whole ⟨2, some id⟩ (rawOpening n first) ∧
      Inside l (l.scan t .normal (rawOpening n first)).2 ⟨2, some id⟩ rawString p := by
  obtain ⟨hplain, hnumber, -⟩ := constructs_rust hl
  have hsource := endSource?_rawString rfl (rest_rawOpening n first)
  obtain ⟨m, hnext, hstart, hstop⟩ := nextToken_rawString rfl (rest_rawOpening n first) hl
  have hcontent : m.stop.rest = first.toList := by
    rw [hstop, Cursor.skip_rest, rest_rawOpening, List.drop_succ_cons, List.drop_append]
    simp
  obtain ⟨⟨number, context⟩, hopened, rfl, hinside⟩ := scan_opens hplain ht hnumber (by decide)
    hnext (hstart ▸ hsource) hp (findEnd_rawString (isLiteral_rawEnd hp) (hcontent ▸ hfirst))
  obtain ⟨id, rfl, -⟩ := hinside.live rfl
  rw [hstart] at hopened
  exact ⟨id, hopened, hinside⟩

/-- So it does when there is no pattern for its end; but then it leaves a state that nobody can go
on with. -/
theorem scan_rawOpening_lost (hp : ∀ p, Pattern.compile (rawEnd n) ≠ .ok p) :
    (l.scan t .normal (rawOpening n first)).1 = rawString.whole ⟨2, none⟩ (rawOpening n first) ∧
      ∀ w, l.Lost w ⟨2, none⟩ := by
  obtain ⟨hplain, hnumber, -⟩ := constructs_rust hl
  have hsource := endSource?_rawString rfl (rest_rawOpening n first)
  obtain ⟨m, hnext, hstart, -⟩ := nextToken_rawString rfl (rest_rawOpening n first) hl
  have hopened := scan_opens_lost hplain ht rfl hnext (hstart ▸ hsource) hp
  rw [hstart] at hopened
  exact ⟨hopened, fun w => l.lost_of_isDerived w hnumber (by decide) rfl⟩

end

end Builtin

open Builtin in
/-- A raw string whose delimiter is too long for a pattern ends with its first line, and the lines
after it are scanned as if there were none. -/
theorem rawString_cut {n : Nat} (hn : Pattern.weightLimit < n + 1) :
    ∃ l, Builtin.rust = .ok l ∧
      (∀ text ∈ ["a", "", "b"], ¬rawDelimiter n <:+: text.toList) ∧
      (l.scanLines .fresh .normal [rawOpening n "a", "b", rawClosing n "" " c"]).1 =
        rawString.whole ⟨2, none⟩ (rawOpening n "a") ::
          (l.scanLines (l.scan .fresh .normal (rawOpening n "a")).2 .normal
            ["b", rawClosing n "" " c"]).1 := by
  obtain ⟨l, hl⟩ := exists_rust
  have htoolarge := compile_rawEnd_tooLarge hn
  obtain ⟨hopened, hlost⟩ : (l.scan .fresh .normal (rawOpening n "a")).1 = _ ∧ _ :=
    scan_rawOpening_lost hl Contexts.sound_fresh fun p hp => by cases htoolarge.symm.trans hp
  refine ⟨l, hl, fun text htext hin => ?_, ?_⟩
  · have hshort : ∀ text ∈ ["a", "", "b"], text.toList.length ≤ 1 := by decide
    have hlength := hshort text htext
    have hle := hin.length_le
    rw [rawDelimiter, List.length_cons, List.length_replicate] at hle
    have hlimit : 1 < Pattern.weightLimit := by decide
    omega
  · rw [← l.scanLines_eq_of_lost _ _ (hlost _) (show "b" ≠ "" by decide), l.scanLines_cons, hopened]
    rfl

open Builtin in
/-- **A raw string closes at its own delimiter.**  A raw string with some number of hashes opens on
one line, goes on over any number of lines and closes on another; the delimiter does not stand in
what is between.  The lines are scanned in turn, from a table of any content, which may grow in the
meantime.  If there is a pattern for the delimiter, then the first line and those in the middle hold
one string each, from end to end, and no marker, and end in one state, inside of construct 2 with a
context that is in use; and the last line begins with a string that goes up to the place after the
delimiter, and holds from there on what a scan from the normal state finds, without a marker before
that place.  If the delimiter is too long for a pattern, then the first line holds the same, but
ends in a state that no table lets a line go on from. -/
theorem rawString_closes {l : Language} (hl : Builtin.rust = .ok l) (n : Nat)
    (first last rest : String) (middle : List String)
    (hfree : ∀ text ∈ first :: last :: middle, ¬rawDelimiter n <:+: text.toList)
    {t v : Contexts} (ht : t.Sound) {found : List Highlight}
    (hrun : InTurn l t .normal
      (rawOpening n first :: (middle ++ [rawClosing n last rest])) found v) :
    (∀ p, Pattern.compile (rawEnd n) = .ok p →
      ∃ id u c, c.offset = last.utf8ByteSize + (n + 1) ∧ c.rest = rest.toList ∧
        Ahead (.ofString (rawClosing n last rest)) c ∧
        (l.scan t .normal (rawOpening n first)).2.resolve id = some p ∧ u.resolve id = some p ∧
        p.IsLiteral (rawDelimiter n) ∧
        found = (rawOpening n first :: middle).map
            (fun text => ⟨runBetween 0 text.utf8ByteSize .string, [], ⟨2, some id⟩⟩) ++
          [(l.scanFrom u .normal c).1.after [⟨0, c.offset, TokenKind.string.id⟩] []] ∧
        ∀ m ∈ (l.scanFrom u .normal c).1.markers, c.offset ≤ m.offset) ∧
    ((∀ p, Pattern.compile (rawEnd n) ≠ .ok p) →
      found.head? = some (rawString.whole ⟨2, none⟩ (rawOpening n first)) ∧
        ∀ w, l.Lost w ⟨2, none⟩) := by
  obtain ⟨hplain, -⟩ := constructs_rust hl
  refine ⟨fun p hp => ?_, fun hp => ?_⟩
  case refine_2 =>
    obtain ⟨hopened, hlost⟩ : (l.scan t .normal (rawOpening n first)).1 = _ ∧ _ :=
      scan_rawOpening_lost hl ht hp
    cases hrun
    exact ⟨congrArg some hopened, hlost⟩
  have hliteral := isLiteral_rawEnd hp
  obtain ⟨hfirst, hlast, hmiddle⟩ : _ ∧ _ ∧ _ := by simpa only [List.forall_mem_cons] using hfree
  obtain ⟨id, hopened, hinside⟩ := scan_rawOpening hl ht hp hfirst
  obtain ⟨e, he, hoffset, hrest, hahead⟩ := findEnd_rawClosing hliteral hlast rest
  cases hrun with
  | cons hx hrun =>
    rw [hopened] at hrun ⊢
    obtain ⟨u, w, gs, hfound, hu, hux, -, hnil⟩ := hrun.encloses hplain (hinside.extend hx) middle
      (fun text htext => findEnd_rawString hliteral (hmiddle text htext)) (by simp [rawClosing]) he
    cases hnil
    refine ⟨id, u, e.stop, hoffset, hrest, hahead, hinside.resolve rfl rfl, hu.resolve rfl rfl,
      hliteral, ?_, fun m hm => ?_⟩
    · have hruns : runBetween 0 e.stop.offset .string = [⟨0, e.stop.offset, TokenKind.string.id⟩] :=
        if_pos (by omega)
      rw [hfound]
      exact congrArg (fun runs => _ :: (_ ++ [Highlight.after runs [] _])) hruns
    · obtain ⟨d, hlaid⟩ := (l.scanFrom_laid u .normal e.stop).2
      obtain ⟨-, a, ha, hat⟩ := hlaid.exists_place m hm
      exact hat ▸ ha.offset_le

open Builtin in
/-- So not every raw string closes at its own delimiter: where the first line of this one ends there
is no context, and the line in the middle is scanned from the normal state. -/
theorem not_rawString_closes_long :
    ∃ l, Builtin.rust = .ok l ∧
      (∀ text ∈ ["a", "", "b"], ¬rawDelimiter 450000 <:+: text.toList) ∧
      (l.scanLines .fresh .normal
          [rawOpening 450000 "a", "b", rawClosing 450000 "" " c"]).1 =
        rawString.whole ⟨2, none⟩ (rawOpening 450000 "a") ::
          (l.scanLines (l.scan .fresh .normal (rawOpening 450000 "a")).2 .normal
            ["b", rawClosing 450000 "" " c"]).1 :=
  rawString_cut (by decide)

open Builtin in
/-- The lines hold a quote with one hash, an open brace, and the start and end of a comment. -/
theorem rawString_closes_twoHashes : ∃ l, Builtin.rust = .ok l ∧
    (∀ text ∈ ["a\"#\x7b", "*/", "", "// \"#"], ¬rawDelimiter 2 <:+: text.toList) ∧
    ∃ u c, c.offset = 5 ∧ c.rest = [';'] ∧
      (l.scanLines .fresh .normal ["r##\"a\"#\x7b", "", "// \"#", "*/\"##;"]).1.map (·.runs) =
        [[⟨0, 8, TokenKind.string.id⟩], [], [⟨0, 5, TokenKind.string.id⟩],
          ⟨0, 5, TokenKind.string.id⟩ :: (l.scanFrom u .normal c).1.runs] := by
  obtain ⟨l, hl⟩ := exists_rust
  have hfree : ∀ text ∈ ["a\"#\x7b", "*/", "", "// \"#"], ¬rawDelimiter 2 <:+: text.toList := by
    decide +kernel
  have hopening : rawOpening 2 "a\"#\x7b" = "r##\"a\"#\x7b" := by decide +kernel
  have hclosing : rawClosing 2 "*/" ";" = "*/\"##;" := by decide +kernel
  obtain ⟨p, hp⟩ := exists_compile_rawEnd (n := 2) (by decide)
  obtain ⟨id, u, c, hoffset, hrest, -, -, -, -, hfound, -⟩ := (rawString_closes hl 2 "a\"#\x7b"
    "*/" ";" ["", "// \"#"] hfree Contexts.sound_fresh (inTurn_scanLines l .fresh .normal _)).1 p hp
  rw [hopening, hclosing] at hfound
  refine ⟨l, hl, hfree, u, c, hoffset, hrest, (congrArg (List.map (·.runs)) hfound).trans ?_⟩
  rw [hoffset]
  rfl

end Highlighting
