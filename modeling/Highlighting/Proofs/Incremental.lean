import Highlighting.Proofs.Reachability

/-!
# Incremental highlighting equals highlighting from scratch

Whatever was done to the buffers of a session, what a buffer shows before its frontier is what
scanning its lines in order from the first would find, in a table of its own: the same runs, the
same markers, and states of one meaning.

    buffer outside of transactions, line before the frontier  →  as found from scratch
                                                                        (shows_fromScratch)
-/

namespace Highlighting

/-- What a line carries, in its table, is what was found in another: it differs by the numbers of
contexts at most, and the contexts that it names are in use. -/
structure Shows (t : Contexts) (shown : Highlight) (u : Contexts) (found : Highlight) : Prop where
  runs : shown.runs = found.runs
  markers : shown.markers = found.markers
  construct : shown.endState.construct = found.endState.construct
  none_iff : shown.endState.context = none ↔ found.endState.context = none
  context : ∀ id, shown.endState.context = some id → ∃ id' p q,
    found.endState.context = some id' ∧ t.resolve id = some p ∧ u.resolve id' = some q ∧
      p.source = q.source

/-- The last of some lines, scanned in order in two tables, shows in the one what it shows in the
other. -/
theorem shows_scanLines (l : Language) (t u : Contexts) (texts : List String) (n : Nat)
    (ht : t.Sound) (hu : u.Sound) (hn : texts.length = n + 1) :
    ∃ shown found, (l.scanLines t .normal texts).1[n]? = some shown ∧
      (l.scanLines u .normal texts).1[n]? = some found ∧
      Shows (l.scanLines t .normal texts).2 shown (l.scanLines u .normal texts).2 found := by
  obtain ⟨hruns, hmarkers, hagree, hnone⟩ := l.scanLines_agree t u .normal .normal texts ht hu
    t.issued_normal u.issued_normal (.normal t u) Iff.rfl
  have hlive := (l.scanLines_grows t .normal texts ht t.issued_normal).2.2.2 t.live_normal
  have hlen := l.scanLines_length t .normal texts
  have hlen' := l.scanLines_length u .normal texts
  generalize l.scanLines t .normal texts = shown at *
  generalize l.scanLines u .normal texts = found at *
  obtain ⟨shown, t'⟩ := shown
  obtain ⟨found, u'⟩ := found
  dsimp only at *
  have hs : shown[n]? = some shown[n] := List.getElem?_eq_getElem (by omega)
  have hf : found[n]? = some found[n] := List.getElem?_eq_getElem (by omega)
  rw [endAfter_last _ _ n _ hs (by omega)] at hagree hnone hlive
  rw [endAfter_last _ _ n _ hf (by omega)] at hagree hnone
  have hr := congrArg (·[n]?) hruns
  have hm := congrArg (·[n]?) hmarkers
  simp only [List.getElem?_map, hs, hf, Option.map_some, Option.some.injEq] at hr hm
  refine ⟨_, _, hs, hf, hr, hm, hagree.construct, hnone, ?_⟩
  intro id hid
  obtain ⟨p, hp⟩ := hlive id hid
  have hmeaning := hagree.meaning
  rw [hid] at hmeaning
  change t'.resolve id = _ at hmeaning
  rw [hp] at hmeaning
  obtain ⟨id', hid', hq⟩ := Option.bind_eq_some_iff.1 hmeaning.symm
  exact ⟨id', p, p, hid', hp, hq, rfl⟩

/-- Linked lines show what is found from scratch. -/
theorem shows_of_linked (l : Language) (t : Contexts) (lines : List Line) (n : Nat) (x : Line)
    (ht : t.Sound) (hlinks : ∀ i, i ≤ n → Linked l t lines i) (hx : lines[n]? = some x) :
    ∃ found, (l.fromScratch ((lines.map (·.text)).take (n + 1))).1[n]? = some found ∧
      Shows t x.highlight (l.fromScratch ((lines.map (·.text)).take (n + 1))).2 found := by
  have hn : n < lines.length := (List.getElem?_eq_some_iff.1 hx).1
  obtain ⟨shown, found, hshown, hfound, hshows⟩ := shows_scanLines l t .fresh
    ((lines.map (·.text)).take (n + 1)) n ht Contexts.sound_fresh (by simp; omega)
  -- the lines as they are, scanned again in the present table
  have hscan := scanLines_linked l t lines (n + 1) hn fun i hi => hlinks i (by omega)
  rw [List.map_take] at hscan
  rw [hscan, List.getElem?_map, List.getElem?_take_of_lt (Nat.lt_succ_self n), hx] at hshown
  obtain rfl := Option.some.inj hshown
  rw [hscan] at hshows
  exact ⟨found, hfound, hshows⟩

/-- In every session in which contexts have been forgotten by passes alone, each line before the
frontier of a buffer without an open transaction shows what is found when the lines up to it are
scanned in order, from the default state and with no context yet. -/
theorem shows_fromScratch (s : Session) (hs : s.Undisturbed) (name : String) (b : Buffer)
    (hb : (name, b) ∈ s.buffers) (hclosed : b.store.editing = false) (i : Nat)
    (hi : i < min (b.highlightedUpTo s.shared) b.lineCount) :
    ∃ h x found, b.handle = some h ∧ b.store.lines[i]? = some x ∧
      (h.language.fromScratch (b.texts.take (i + 1))).1.getLast? = some found ∧
      Shows s.shared.contexts x.highlight
        (h.language.fromScratch (b.texts.take (i + 1))).2 found := by
  have ho : b.Orderly s.shared := hs.orderly.buffers _ hb
  have hc : b.Current s.shared := hs.current _ hb
  have hlt : i < b.lineList.length := by
    rw [Buffer.lineList_length]
    omega
  have hx : b.lineList[i]? = some b.lineList[i] := List.getElem?_eq_getElem hlt
  have hp : s.shared.pending b.slot = false ∧ i < b.frontier := by
    unfold Buffer.highlightedUpTo at hi
    split at hi
    · omega
    · next hp => exact ⟨by simpa using hp, by omega⟩
  cases hh : b.handle with
  | none =>
    have := ho.unhighlighted hh
    omega
  | some h =>
    have hlinks : ∀ j, j ≤ i → Linked h.language s.shared.contexts b.lineList j := by
      intro j hj
      rcases hc hp.1 h hh j (by omega) with hlink | ht
      · exact hlink
      · rw [TextStore.Touched, hclosed] at ht
        cases ht.1
    obtain ⟨found, hfound, hshows⟩ := shows_of_linked h.language s.shared.contexts b.lineList i _
      ho.sound hlinks hx
    have hlen : (h.language.fromScratch (b.texts.take (i + 1))).1.length = i + 1 := by
      rw [Language.fromScratch, Language.scanLines_length, List.length_take, b.texts_length]
      omega
    refine ⟨h, _, found, rfl, by simp [Buffer.lineList], ?_, hshows⟩
    rw [List.getLast?_eq_getElem?, hlen]
    exact hfound

/-- A session with one buffer that has been highlighted, edited and highlighted again: what was a
line is two, and the second brace has moved to the second of them. -/
def Session.bracesEdited : Session :=
  (start 0 .standard).after
    [.define "braces" (.ok .braces) false, .newBuffer "text" (some "\x7b\x7d") none,
      .useHandle "text" "braces", .buffer "text" (.ensure 0 0), .buffer "text" .editStart,
      .buffer "text" (.wrap 0 1), .buffer "text" .editEnd]

theorem shows_fromScratch_bracesEdited :
    ∃ b, ("text", b) ∈ Session.bracesEdited.buffers ∧ ∃ h x found, b.handle = some h ∧
      b.store.lines[1]? = some x ∧
      (h.language.fromScratch (b.texts.take 2)).1.getLast? = some found ∧
      Shows Session.bracesEdited.shared.contexts x.highlight
        (h.language.fromScratch (b.texts.take 2)).2 found := by
  have hs : Session.bracesEdited.Undisturbed := .after (.start 0 .standard) _ (by simp)
  obtain ⟨b, hb⟩ : ∃ b, Session.bracesEdited.buffers = [("text", b)] := ⟨_, rfl⟩
  have hall : (Session.bracesEdited.buffers.all fun e => !e.2.store.editing &&
      decide (1 < min (e.2.highlightedUpTo Session.bracesEdited.shared) e.2.lineCount)) = true := by
    decide +kernel
  rw [hb] at hall
  simp only [List.all_cons, List.all_nil, Bool.and_true, Bool.and_eq_true, Bool.not_eq_true',
    decide_eq_true_eq] at hall
  have hmem : ("text", b) ∈ Session.bracesEdited.buffers := by simp [hb]
  exact ⟨b, hmem, shows_fromScratch _ hs "text" b hmem hall.1 1 hall.2⟩

end Highlighting
