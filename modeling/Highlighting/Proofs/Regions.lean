import Highlighting.Proofs.Incremental

/-!
# Regions from scratch

What a search for the region of a line answers is a function of the texts and the definition alone:
it reads the markers that highlighting from scratch finds, whatever has been highlighted before and
however the search itself makes the frontier move.

    (b.foldRange s n).result = h.regionAt b.texts n       (foldRange_result, foldRange_closed)
-/

namespace Highlighting

/-! ## Algorithm -/

/-- The fold markers of the lines of a text, highlighted from scratch. -/
def Language.markersOf (l : Language) (texts : List String) : List (List Marker) :=
  (l.fromScratch texts).1.map (·.markers)

/-- The place of the marker that closes the last of `depth` regions of a type, on lines with these
markers, numbered from `line` on. -/
def closeOn (region : Int) : (depth line : Nat) → List (List Marker) → Option Position
  | _, _, [] => none
  | depth, line, ms :: rest =>
    match matchClose region depth ms with
    | (some column, _) => some ⟨line, column⟩
    | (none, depth) => closeOn region depth (line + 1) rest

/-- The region that starts on line `n` of lines with these markers. -/
def regionFrom (lines : List (List Marker)) (n : Nat) : Option FoldRange :=
  (lines[n]?.bind firstUnclosed).bind fun opened =>
    (closeOn opened.1 1 (n + 1) (lines.drop (n + 1))).map fun stop => ⟨⟨n, opened.2⟩, stop⟩

/-- The region that starts on line `n` of a text under a definition. -/
def Handle.regionAt (h : Handle) (texts : List String) (n : Nat) : Option FoldRange :=
  if h.plain then none
  else match h.folding with
    | .token => regionFrom (h.language.markersOf texts) n
    | .indentation => none

/-! ## Markers -/

@[simp] theorem Language.markersOf_length (l : Language) (texts : List String) :
    (l.markersOf texts).length = texts.length := by
  simp [markersOf, fromScratch]

/-- Each marker opens or closes a region. -/
theorem Language.markersOf_ne_zero (l : Language) (texts : List String) (n : Nat)
    (ms : List Marker) (h : (l.markersOf texts)[n]? = some ms) : ∀ m ∈ ms, m.value ≠ 0 := by
  obtain ⟨x, hx, rfl⟩ := List.mem_map.1 (List.mem_of_getElem? h)
  exact l.scanLines_markers .fresh .normal texts x hx

theorem Language.markersOf_plain (l : Language) (texts : List String) (n : Nat)
    (ms : List Marker) (h : (l.markersOf texts)[n]? = some ms) (hp : l.plain = true) : ms = [] := by
  obtain ⟨x, hx, rfl⟩ := List.mem_map.1 (List.mem_of_getElem? h)
  exact l.scanLines_plain .fresh .normal texts hp x hx

/-- Under token folding, the region is that of the markers, of which a handle that is plain has
none. -/
theorem Handle.regionAt_token (h : Handle) (hf : h.folding = .token) (texts : List String)
    (n : Nat) : h.regionAt texts n = regionFrom (h.language.markersOf texts) n := by
  unfold regionAt
  split
  · next hp =>
    have hplain : h.language.plain = true := by
      simp only [Handle.plain, Bool.and_eq_true] at hp
      exact hp.2
    rw [regionFrom]
    cases hn : (h.language.markersOf texts)[n]? with
    | none => rfl
    | some ms =>
      rw [h.language.markersOf_plain texts n ms hn hplain]
      rfl
  · rw [hf]

/-- What is found on a line does not depend on the lines after it. -/
theorem Language.fromScratch_take (l : Language) (texts : List String) (k n : Nat) (hn : n < k) :
    (l.fromScratch (texts.take k)).1[n]? = (l.fromScratch texts).1[n]? := by
  have happ := l.scanLines_append .fresh .normal (texts.take k) (texts.drop k)
  rw [List.take_append_drop] at happ
  rw [fromScratch, fromScratch, happ]
  rcases Nat.lt_or_ge n (texts.take k).length with hlt | hge
  · rw [List.getElem?_append_left (by rw [scanLines_length]; exact hlt)]
  · have hdrop : texts.drop k = [] := by
      rw [List.length_take] at hge
      exact List.drop_of_length_le (by omega)
    rw [hdrop, scanLines, List.append_nil]

/-- An outcome is its result with what the outcome leaves. -/
theorem Outcome.eq_of_result {α : Type} {o : Outcome α} {result : Except Refusal α}
    (h : o.result = result) : o = ⟨result, o.buffer, o.shared⟩ := by
  rw [← h]

namespace Buffer

/-- Where the lines are linked, the markers are those found from scratch. -/
theorem markers_of_linked (b : Buffer) (s : Shared) (l : Language) (n : Nat) (ho : b.Orderly s)
    (hlinks : ∀ i, i ≤ n → Linked l s.contexts b.lineList i) (hn : n < b.lineCount) :
    ∃ ms, b.markers n = .ok ms ∧ (l.markersOf b.texts)[n]? = some ms := by
  have hlt : n < b.lineList.length := hn
  have hx : b.lineList[n]? = some b.lineList[n] := List.getElem?_eq_getElem hlt
  have hline : b.store.lines[n]? = some b.lineList[n] := by
    rw [← hx]
    simp [lineList]
  obtain ⟨found, hfound, hshows⟩ := shows_of_linked l s.contexts b.lineList n _ ho.sound hlinks hx
  rw [l.fromScratch_take _ _ _ (Nat.lt_succ_self n)] at hfound
  refine ⟨b.lineList[n].highlight.markers, ?_, ?_⟩
  · simp only [markers, TextStore.line, hline]
    rfl
  · rw [Language.markersOf, List.getElem?_map]
    show (l.fromScratch (b.lineList.map (·.text))).1[n]?.map _ = _
    rw [hfound, hshows.markers]
    rfl

/-! ## Searches -/

/-- The sums that a search for regions makes come out right, if they come out. -/
def SumsExact (b : Buffer) (s : Shared) : Prop :=
  ∀ line < b.lineCount, s.sums.Exact line b.lookahead

/-- The sums that a search for regions makes come out, and right. -/
def SumsFit (b : Buffer) (s : Shared) : Prop :=
  ∀ line < b.lineCount, s.sums.Fits line b.lookahead

instance (b : Buffer) (s : Shared) : Decidable (b.SumsFit s) :=
  inferInstanceAs (Decidable (∀ line < b.lineCount, s.sums.Fits line b.lookahead))

/-- A search answers this, unless one of its sums is refused. -/
def Finds {α : Type} (b : Buffer) (s : Shared) (result : Except Refusal α) (a : α) : Prop :=
  result = .ok a ∨
    (∃ line < b.lineCount, s.sums.add? line b.lookahead = none) ∧ result = .error .overflow

section
variable {α : Type} {b b' : Buffer} {s s' : Shared} {result : Except Refusal α} {a : α}

theorem SumsFit.exact (h : b.SumsFit s) : b.SumsExact s :=
  fun line hline => (h line hline).exact

theorem sumsFit_of_unbounded (h : s.sums = .unbounded) : b.SumsFit s :=
  fun line _ => h ▸ Sums.fits_unbounded line b.lookahead

theorem SumsExact.of_same (h : b.SumsExact s) (hsame : SameText b b') (hsums : s'.sums = s.sums) :
    b'.SumsExact s' :=
  hsame.sums (P := Sums.Exact) hsums h

theorem SumsFit.of_same (h : b.SumsFit s) (hsame : SameText b b') (hsums : s'.sums = s.sums) :
    b'.SumsFit s' :=
  hsame.sums (P := Sums.Fits) hsums h

theorem Finds.of_same (h : b'.Finds s' result a) (hsame : SameText b b') (hsums : s'.sums = s.sums) :
    b.Finds s result a := by
  unfold Finds at h
  rwa [hsame.lineCount, hsame.lookahead, hsums] at h

theorem Finds.ok_of_fit (h : b.Finds s result a) (hfit : b.SumsFit s) : result = .ok a := by
  rcases h with h | ⟨⟨line, hline, hnone⟩, -⟩
  · exact h
  · cases (hfit line hline).symm.trans hnone

end

section
variable {b : Buffer} {s : Shared} (h : b.Orderly s) (hc : b.Current s)
  (hclosed : b.store.editing = false) (k : Handle) (hk : b.handle = some k)
include h hc hclosed hk

/-- After a line has been asked for, its markers are those found from scratch, and the search may
go on; unless it is refused. -/
theorem markers_after_ensure {line lookahead : Nat} (hexact : s.sums.Exact line lookahead)
    (hline : line < b.lineCount) :
    (∃ b' s' ms, b.ensure s line lookahead = ⟨.ok (), b', s'⟩ ∧ b'.Orderly s' ∧ b'.Current s' ∧
      SameText b b' ∧ s'.sums = s.sums ∧ b'.store.editing = false ∧ b'.handle = some k ∧
      b'.markers line = .ok ms ∧ (k.language.markersOf b.texts)[line]? = some ms) ∨
    s.sums.add? line lookahead = none ∧
      ∃ b' s', b.ensure s line lookahead = ⟨.error .overflow, b', s'⟩ := by
  obtain ⟨result, b', s', hrun, hkeeps, hsame, rfl | ⟨hnone, rfl⟩, hlinks⟩ :=
    ensure_spec h line lookahead
  · obtain ⟨ms, hms, hscratch⟩ := b'.markers_of_linked s' k.language line hkeeps.orderly
      (hlinks rfl hexact hc hclosed hline k hk) (by rw [hsame.lineCount]; exact hline)
    exact .inl ⟨b', s', ms, hrun, hkeeps.orderly, hkeeps.current hc, hsame, hkeeps.shared.sums,
      hsame.editing.trans hclosed, hsame.handle.trans hk, hms, hsame.texts ▸ hscratch⟩
  · exact .inr ⟨hnone, b', s', hrun⟩

theorem finds_findClose (hexact : b.SumsExact s) (region : Int) (count line depth : Nat)
    (hcount : line + count = b.lineCount) :
    b.Finds s (b.findClose s region count line depth).result
      (closeOn region depth line ((k.language.markersOf b.texts).drop line)) := by
  induction count generalizing b s line depth with
  | zero =>
    rw [List.drop_of_length_le (by simp; omega)]
    exact .inl rfl
  | succ count ih =>
    have hline : line < b.lineCount := by omega
    rcases markers_after_ensure h hc hclosed k hk (hexact line hline) hline with
      ⟨b', s', ms, hrun, ho', hc', hsame, hsums, hclosed', hk', hms, hscratch⟩ |
      ⟨hnone, b', s', hrun⟩
    · have hcons : (k.language.markersOf b.texts).drop line =
          ms :: (k.language.markersOf b.texts).drop (line + 1) := by
        obtain ⟨hlt, rfl⟩ := List.getElem?_eq_some_iff.1 hscratch
        exact List.drop_eq_getElem_cons hlt
      rw [hcons]
      simp only [findClose, hrun, hms, closeOn]
      cases matchClose region depth ms with
      | mk found depth' =>
        cases found with
        | some column => exact .inl rfl
        | none =>
          have hrest := ih ho' hc' hclosed' hk' (hexact.of_same hsame hsums) (line + 1) depth'
            (by rw [hsame.lineCount]; omega)
          rw [hsame.texts] at hrest
          exact hrest.of_same hsame hsums
    · simp only [findClose, hrun]
      exact .inr ⟨⟨line, hline, hnone⟩, rfl⟩

theorem finds_tokenRange (hexact : b.SumsExact s) (line : Nat) (hline : line < b.lineCount) :
    b.Finds s (b.tokenRange s line).result (regionFrom (k.language.markersOf b.texts) line) := by
  rcases markers_after_ensure h hc hclosed k hk (hexact line hline) hline with
    ⟨b', s', ms, hrun, ho', hc', hsame, hsums, hclosed', hk', hms, hscratch⟩ |
    ⟨hnone, b', s', hrun⟩
  · simp only [tokenRange, hrun, hms, regionFrom, hscratch, Option.bind_some]
    cases hopened : firstUnclosed ms with
    | none => exact .inl rfl
    | some opened =>
      obtain ⟨region, column⟩ := opened
      have hclose := finds_findClose ho' hc' hclosed' k hk' (hexact.of_same hsame hsums) region
        (b'.lineCount - (line + 1)) (line + 1) 1 (by rw [hsame.lineCount]; omega)
      replace hclose := hclose.of_same hsame hsums
      rw [hsame.texts] at hclose
      dsimp only
      rcases hclose with hclose | ⟨hrefused, hclose⟩
      · rw [Outcome.eq_of_result hclose]
        exact .inl rfl
      · rw [Outcome.eq_of_result hclose]
        exact .inr ⟨hrefused, rfl⟩
  · simp only [tokenRange, hrun]
    exact .inr ⟨⟨line, hline, hnone⟩, rfl⟩

/-- Outside of transactions, the region of a line is that found from scratch. -/
theorem finds_foldRange (hexact : b.SumsExact s) (line : Nat) (hline : line < b.lineCount) :
    b.Finds s (b.foldRange s line).result (k.regionAt b.texts line) := by
  unfold foldRange Handle.regionAt
  rw [if_neg (by omega), hk]
  dsimp only
  split
  · exact .inl rfl
  · cases k.folding with
    | token => exact finds_tokenRange h hc hclosed k hk hexact line hline
    | indentation => exact .inl rfl

theorem foldRange_result (hfit : b.SumsFit s) (line : Nat) (hline : line < b.lineCount) :
    (b.foldRange s line).result = .ok (k.regionAt b.texts line) :=
  (finds_foldRange h hc hclosed k hk hfit.exact line hline).ok_of_fit hfit

end

/-- What a buffer without an open transaction answers, from its texts and definition. -/
theorem foldRange_closed {b : Buffer} {s : Shared} (h : b.Orderly s) (hc : b.Current s)
    (hclosed : b.store.editing = false) (hfit : b.SumsFit s) (n : Nat) :
    (b.foldRange s n).result =
      if b.texts.length ≤ n then .error (.noLine n)
      else .ok (b.handle.bind fun k => k.regionAt b.texts n) := by
  rw [b.texts_length]
  split
  · next hpast =>
    unfold foldRange
    rw [if_pos hpast]
  · next hline =>
    cases hk : b.handle with
    | none =>
      unfold foldRange
      rw [if_neg hline, hk]
      rfl
    | some k => exact foldRange_result h hc hclosed k hk hfit n (by omega)

end Buffer

end Highlighting
