import Highlighting.Language.Scan
import Highlighting.Proofs.Interning

/-!
# Scanning and the table of contexts

A scan only adds to the table.  What it finds depends on the numbers that the table gives out no
more than their meaning does:

    a second scan, in the table the first left or any later one, finds the same and adds nothing
                                                                                  (scan_again)
    two scans from states of one meaning, each in its own table, find the same runs and markers and
    end in states of one meaning                                                  (scan_agree)
-/

namespace Highlighting

open Text (Cursor)

/-! ## States of one meaning -/

/-- State `s` of table `t` and state `v` of table `u` are inside the same construct, and what they
hold ends it in the same way, if it is known at all. -/
structure Agree (t : Contexts) (s : LineState) (u : Contexts) (v : LineState) : Prop where
  construct : s.construct = v.construct
  meaning : s.context.bind t.resolve = v.context.bind u.resolve

namespace Agree

theorem refl (t : Contexts) (s : LineState) : Agree t s t s :=
  ⟨rfl, rfl⟩

theorem normal (t u : Contexts) : Agree t .normal u .normal :=
  ⟨rfl, rfl⟩

theorem isInside {t u : Contexts} {s v : LineState} (h : Agree t s u v) :
    s.isInside = v.isInside := by
  simp [LineState.isInside, h.construct]

end Agree

/-- The context that a state holds, if any, is in use. -/
def Contexts.Live (t : Contexts) (s : LineState) : Prop :=
  ∀ id, s.context = some id → ∃ p, t.resolve id = some p

theorem Contexts.live_normal (t : Contexts) : t.Live .normal :=
  fun _ h => by cases h

theorem Contexts.Live.issued {t : Contexts} {s : LineState} (hs : t.Live s) (ht : t.Sound) :
    t.Issued s := by
  intro id hid
  obtain ⟨p, hp⟩ := hs id hid
  exact t.lt_of_resolve ht id p hp

/-- A later table says of an issued state what the table said. -/
theorem Contexts.Extends.meaning {t u : Contexts} (h : t.Extends u) {s : LineState}
    (hs : t.Issued s) : s.context.bind u.resolve = s.context.bind t.resolve := by
  cases hc : s.context with
  | none => rfl
  | some id => exact h.resolve id (hs id hc)

theorem Contexts.Live.extend {t u : Contexts} {s : LineState} (hs : t.Live s) (ht : t.Sound)
    (h : t.Extends u) : u.Live s := by
  intro id hid
  obtain ⟨p, hp⟩ := hs id hid
  exact ⟨p, (h.resolve id (t.lt_of_resolve ht id p hp)).trans hp⟩

theorem Agree.extend {t t' u u' : Contexts} {s v : LineState} (h : Agree t s u v)
    (ht : t.Extends t') (hu : u.Extends u') (hs : t.Issued s) (hv : u.Issued v) :
    Agree t' s u' v :=
  ⟨h.construct, by rw [ht.meaning hs, hu.meaning hv, h.meaning]⟩

/-! ## Constructs -/

namespace Construct

variable (k : Construct) (c : Cursor) (t u : Contexts) (s v : LineState)

/-- The source of the pattern that ends the construct when it opens at a place, if that pattern is
made on the spot. -/
def endSource? (k : Construct) (c : Cursor) : Option String :=
  match k.ending with
  | .fixed _ => none
  | .derived template =>
    (k.start.find c).map fun m => fill template (Pattern.escaped (captured m))

theorem endSource?_of_find {k : Construct} {c : Cursor} {template : String} {m : Match}
    (hk : k.ending = .derived template) (hm : k.start.find c = some m) :
    k.endSource? c = some (fill template (Pattern.escaped (captured m))) := by
  simp only [endSource?, hk, hm, Option.map_some]

/-- A construct opens without a context, or with that of a source which depends on the text
alone. -/
theorem openState_cases :
    (k.endSource? c = none ∧ ∀ t, k.openState c t = (⟨k.id, none⟩, t)) ∨
    ∃ source, k.endSource? c = some source ∧
      ∀ t, k.openState c t = (⟨k.id, (t.intern source).1⟩, (t.intern source).2) := by
  unfold openState endSource?
  cases k.ending with
  | fixed p => exact .inl ⟨rfl, fun _ => rfl⟩
  | derived template =>
    cases k.start.find c with
    | none => exact .inl ⟨rfl, fun _ => rfl⟩
    | some m => exact .inr ⟨_, rfl, fun _ => rfl⟩

@[simp] theorem openState_id : (k.openState c t).1.construct = k.id := by
  rcases k.openState_cases c with ⟨-, h⟩ | ⟨source, -, h⟩
  · rw [h]
  · rw [h]

/-- Opening a construct keeps the laws, forgets nothing and gives a state whose context is in
use. -/
theorem openState_grows (ht : t.Sound) :
    (k.openState c t).2.Sound ∧ t.Extends (k.openState c t).2 ∧
      (k.openState c t).2.Live (k.openState c t).1 := by
  rcases k.openState_cases c with ⟨-, h⟩ | ⟨source, -, h⟩
  · rw [h]; exact ⟨ht, .refl t, fun _ h => by cases h⟩
  · rw [h]
    refine ⟨ht.intern _, t.intern_extends _, ?_⟩
    intro id hid
    obtain ⟨p, -, hp⟩ := t.intern_resolve ht source id hid
    exact ⟨p, hp⟩

theorem openState_again (ht : t.Sound) (hu : u.Sound) (h : (k.openState c t).2.Extends u) :
    k.openState c u = ((k.openState c t).1, u) := by
  rcases k.openState_cases c with ⟨-, ho⟩ | ⟨source, -, ho⟩
  · rw [ho, ho]
  · rw [ho] at h
    rw [ho, ho, Contexts.intern_again t u ht hu source h]

theorem openState_agree (ht : t.Sound) (hu : u.Sound) :
    Agree (k.openState c t).2 (k.openState c t).1 (k.openState c u).2 (k.openState c u).1 ∧
      ((k.openState c t).1.context = none ↔ (k.openState c u).1.context = none) := by
  rcases k.openState_cases c with ⟨-, ho⟩ | ⟨source, -, ho⟩
  · rw [ho, ho]; exact ⟨⟨rfl, rfl⟩, Iff.rfl⟩
  · rw [ho, ho]
    have hnone : (t.intern source).1 = none ↔ (u.intern source).1 = none := by
      rw [Contexts.intern_eq_none t ht, Contexts.intern_eq_none u hu]
    refine ⟨⟨rfl, ?_⟩, hnone⟩
    show (t.intern source).1.bind (t.intern source).2.resolve =
      (u.intern source).1.bind (u.intern source).2.resolve
    cases hi : (t.intern source).1 with
    | none => rw [hnone.1 hi]; rfl
    | some i =>
      cases hj : (u.intern source).1 with
      | none => rw [hnone.2 hj] at hi; cases hi
      | some j =>
        obtain ⟨p, hp, hr⟩ := Contexts.intern_resolve t ht source i hi
        obtain ⟨q, hq, hr'⟩ := Contexts.intern_resolve u hu source j hj
        rw [hp] at hq
        obtain rfl := Except.ok.inj hq
        exact hr.trans hr'.symm

theorem endPattern?_agree (h : Agree t s u v) : k.endPattern? s t = k.endPattern? v u := by
  unfold endPattern?
  split
  · rfl
  · exact h.meaning

end Construct

namespace Language

variable (l : Language) (t u : Contexts) (s v : LineState)

theorem resume?_agree (h : Agree t s u v) : l.resume? s t = l.resume? v u := by
  unfold resume?
  rw [h.construct]
  congr 1
  funext k
  rw [k.endPattern?_agree t u s v h]

/-! ## One scan -/

/-- A scan keeps the laws and forgets nothing.  The state in which it ends has been issued, and its
context is in use if that of the first state was. -/
theorem scanFrom_grows (c : Cursor) (ht : t.Sound) (hs : t.Issued s) :
    (l.scanFrom t s c).2.Sound ∧ t.Extends (l.scanFrom t s c).2 ∧
      (l.scanFrom t s c).2.Issued (l.scanFrom t s c).1.endState ∧
      (t.Live s → (l.scanFrom t s c).2.Live (l.scanFrom t s c).1.endState) := by
  induction t, s, c using scanFrom.induct l with
  | case1 t s c hc => rw [scanFrom_atEnd l t s c hc]; exact ⟨ht, .refl t, hs, id⟩
  | case2 t s c hc hin hr ih =>
    rw [scanFrom_lost l t s c hc hin hr]
    obtain ⟨h₁, h₂, h₃, h₄⟩ := ih ht t.issued_normal
    exact ⟨h₁, h₂, h₃, fun _ => h₄ t.live_normal⟩
  | case3 t s c hc hin k p hr he =>
    rw [scanFrom_inside l t s c hc hin hr he]
    exact ⟨ht, .refl t, hs, id⟩
  | case4 t s c hc hin k p hr e he _ _ _ ih =>
    rw [scanFrom_leaves l t s c hc hin hr he]
    obtain ⟨h₁, h₂, h₃, h₄⟩ := ih ht t.issued_normal
    exact ⟨h₁, h₂, h₃, fun _ => h₄ t.live_normal⟩
  | case5 t s c hc hin hn => rw [scanFrom_blank l t s c hc hin hn]; exact ⟨ht, .refl t, hs, id⟩
  | case6 t s c hc hin r m hn _ _ _ ih =>
    rw [scanFrom_rule l t s c hc hin hn]
    exact ih ht hs
  | case7 t s c hc hin k m hn _ he =>
    rw [scanFrom_opens l t s c hc hin hn he]
    obtain ⟨ho, hx, hl⟩ := k.openState_grows m.start t ht
    exact ⟨ho, hx, hl.issued ho, fun _ => hl⟩
  | case8 t s c hc hin k m hn _ e he _ _ _ ih =>
    rw [scanFrom_spans l t s c hc hin hn he]
    obtain ⟨ho, hx, -⟩ := k.openState_grows m.start t ht
    obtain ⟨h₁, h₂, h₃, h₄⟩ := ih ho (hs.mono hx.nextId_le)
    exact ⟨h₁, hx.trans h₂, h₃, fun hl => h₄ (hl.extend ht hx)⟩

/-- A second scan finds the same and adds nothing. -/
theorem scanFrom_again (c : Cursor) (ht : t.Sound) (hu : u.Sound) (hs : t.Issued s)
    (h : (l.scanFrom t s c).2.Extends u) : l.scanFrom u s c = ((l.scanFrom t s c).1, u) := by
  have hgrows := l.scanFrom_grows t s c ht hs
  have hresume : l.resume? s u = l.resume? s t :=
    l.resume?_agree u t s s ⟨rfl, (hgrows.2.1.trans h).meaning hs⟩
  induction t, s, c using scanFrom.induct l with
  | case1 t s c hc => rw [scanFrom_atEnd l t s c hc, scanFrom_atEnd l u s c hc]
  | case2 t s c hc hin hr ih =>
    rw [scanFrom_lost l t s c hc hin hr] at h ⊢
    rw [scanFrom_lost l u s c hc hin (hresume.trans hr)]
    exact ih ht t.issued_normal h (l.scanFrom_grows t _ c ht t.issued_normal)
      (l.resume?_agree u t _ _ (.normal u t))
  | case3 t s c hc hin k p hr he =>
    rw [scanFrom_inside l t s c hc hin hr he,
      scanFrom_inside l u s c hc hin (hresume.trans hr) he]
  | case4 t s c hc hin k p hr e he _ _ _ ih =>
    rw [scanFrom_leaves l t s c hc hin hr he] at h ⊢
    rw [scanFrom_leaves l u s c hc hin (hresume.trans hr) he]
    rw [ih ht t.issued_normal h (l.scanFrom_grows t _ _ ht t.issued_normal)
      (l.resume?_agree u t _ _ (.normal u t))]
  | case5 t s c hc hin hn =>
    rw [scanFrom_blank l t s c hc hin hn, scanFrom_blank l u s c hc hin hn]
  | case6 t s c hc hin r m hn _ _ _ ih =>
    rw [scanFrom_rule l t s c hc hin hn] at h ⊢
    rw [scanFrom_rule l u s c hc hin hn]
    rw [ih ht hs h (l.scanFrom_grows t s _ ht hs) hresume]
  | case7 t s c hc hin k m hn _ he =>
    obtain ⟨hos, -, hol⟩ := k.openState_grows m.start t ht
    rw [scanFrom_opens l t s c hc hin hn he] at h ⊢
    have ho := k.openState_again m.start t u ht hu h
    have hag : Agree u (k.openState m.start t).1 (k.openState m.start t).2
        (k.openState m.start t).1 := ⟨rfl, h.meaning (hol.issued hos)⟩
    rw [scanFrom_opens l u s c hc hin hn (by rw [ho, k.endPattern?_agree _ _ _ _ hag]; exact he),
      ho]
  | case8 t s c hc hin k m hn _ e he _ _ _ ih =>
    obtain ⟨hos, hox, hol⟩ := k.openState_grows m.start t ht
    have hs' := hs.mono hox.nextId_le
    have hrest := l.scanFrom_grows _ s e.stop hos hs'
    rw [scanFrom_spans l t s c hc hin hn he] at h ⊢
    have hx := hrest.2.1.trans h
    have ho := k.openState_again m.start t u ht hu hx
    have hag : Agree u (k.openState m.start t).1 (k.openState m.start t).2
        (k.openState m.start t).1 := ⟨rfl, hx.meaning (hol.issued hos)⟩
    rw [scanFrom_spans l u s c hc hin hn (by rw [ho, k.endPattern?_agree _ _ _ _ hag]; exact he),
      ho]
    rw [ih hos hs' h hrest (l.resume?_agree u _ s s ⟨rfl, hx.meaning hs'⟩)]

/-! ## Two scans -/

/-- Two scans from states of one meaning find the same and end in states of one meaning; that these
hold a context or none is the same as well, if it was at first. -/
theorem scanFrom_agree (c : Cursor) (ht : t.Sound) (hu : u.Sound) (hs : t.Issued s)
    (hv : u.Issued v) (h : Agree t s u v) :
    (l.scanFrom t s c).1.runs = (l.scanFrom u v c).1.runs ∧
    (l.scanFrom t s c).1.markers = (l.scanFrom u v c).1.markers ∧
    Agree (l.scanFrom t s c).2 (l.scanFrom t s c).1.endState
      (l.scanFrom u v c).2 (l.scanFrom u v c).1.endState ∧
    ((s.context = none ↔ v.context = none) →
      ((l.scanFrom t s c).1.endState.context = none ↔
        (l.scanFrom u v c).1.endState.context = none)) := by
  have hresume : l.resume? v u = l.resume? s t := (l.resume?_agree t u s v h).symm
  have hinside := h.isInside
  induction t, s, c using scanFrom.induct l generalizing u v with
  | case1 t s c hc =>
    rw [scanFrom_atEnd l t s c hc, scanFrom_atEnd l u v c hc]
    exact ⟨rfl, rfl, h, id⟩
  | case2 t s c hc hin hr ih =>
    rw [scanFrom_lost l t s c hc hin hr,
      scanFrom_lost l u v c hc (hinside ▸ hin) (hresume.trans hr)]
    have hn := Agree.normal t u
    obtain ⟨h₁, h₂, h₃, h₄⟩ := ih u _ ht hu t.issued_normal u.issued_normal hn
      (l.resume?_agree t u _ _ hn).symm rfl
    exact ⟨h₁, h₂, h₃, fun _ => h₄ Iff.rfl⟩
  | case3 t s c hc hin k p hr he =>
    rw [scanFrom_inside l t s c hc hin hr he,
      scanFrom_inside l u v c hc (hinside ▸ hin) (hresume.trans hr) he]
    exact ⟨rfl, rfl, h, id⟩
  | case4 t s c hc hin k p hr e he _ _ _ ih =>
    rw [scanFrom_leaves l t s c hc hin hr he,
      scanFrom_leaves l u v c hc (hinside ▸ hin) (hresume.trans hr) he]
    have hn := Agree.normal t u
    obtain ⟨h₁, h₂, h₃, h₄⟩ := ih u _ ht hu t.issued_normal u.issued_normal hn
      (l.resume?_agree t u _ _ hn).symm rfl
    exact ⟨congrArg (_ ++ ·) h₁, congrArg (_ ++ ·) h₂, h₃, fun _ => h₄ Iff.rfl⟩
  | case5 t s c hc hin hn =>
    rw [scanFrom_blank l t s c hc hin hn, scanFrom_blank l u v c hc (hinside ▸ hin) hn]
    exact ⟨rfl, rfl, h, id⟩
  | case6 t s c hc hin r m hn _ _ _ ih =>
    rw [scanFrom_rule l t s c hc hin hn, scanFrom_rule l u v c hc (hinside ▸ hin) hn]
    obtain ⟨h₁, h₂, h₃, h₄⟩ := ih u v ht hu hs hv h hresume hinside
    exact ⟨congrArg (_ ++ ·) h₁, congrArg (_ ++ ·) h₂, h₃, h₄⟩
  | case7 t s c hc hin k m hn _ he =>
    obtain ⟨ho, hnone⟩ := k.openState_agree m.start t u ht hu
    rw [scanFrom_opens l t s c hc hin hn he, scanFrom_opens l u v c hc (hinside ▸ hin) hn
      (by rw [← k.endPattern?_agree _ _ _ _ ho]; exact he)]
    exact ⟨rfl, rfl, ho, fun _ => hnone⟩
  | case8 t s c hc hin k m hn _ e he _ _ _ ih =>
    obtain ⟨ho, -⟩ := k.openState_agree m.start t u ht hu
    obtain ⟨hts, htx, -⟩ := k.openState_grows m.start t ht
    obtain ⟨hus, hux, -⟩ := k.openState_grows m.start u hu
    rw [scanFrom_spans l t s c hc hin hn he, scanFrom_spans l u v c hc (hinside ▸ hin) hn
      (by rw [← k.endPattern?_agree _ _ _ _ ho]; exact he)]
    have h' := h.extend htx hux hs hv
    obtain ⟨h₁, h₂, h₃, h₄⟩ := ih _ v hts hus (hs.mono htx.nextId_le) (hv.mono hux.nextId_le) h'
      (l.resume?_agree _ _ s v h').symm hinside
    exact ⟨congrArg (_ ++ ·) h₁, congrArg (_ ++ ·) h₂, h₃, h₄⟩

/-! ## Markers -/

theorem ne_zero_of_mem_markerAt (offset : Nat) (value : Int) (m : Marker)
    (hm : m ∈ markerAt offset value) : m.value ≠ 0 := by
  unfold markerAt at hm
  split at hm
  · cases hm
  · next hvalue =>
    obtain rfl := List.mem_singleton.1 hm
    exact hvalue

/-- Each marker that a scan leaves opens or closes a region. -/
theorem scanFrom_markers (c : Cursor) : ∀ m ∈ (l.scanFrom t s c).1.markers, m.value ≠ 0 := by
  induction t, s, c using scanFrom.induct l with
  | case1 t s c hc => rw [scanFrom_atEnd l t s c hc]; exact fun m hm => by cases hm
  | case2 t s c hc hin hr ih => rw [scanFrom_lost l t s c hc hin hr]; exact ih
  | case3 t s c hc hin k p hr he =>
    rw [scanFrom_inside l t s c hc hin hr he]
    exact fun m hm => by cases hm
  | case4 t s c hc hin k p hr e he _ _ _ ih =>
    rw [scanFrom_leaves l t s c hc hin hr he, Highlight.after_markers]
    intro m hm
    rcases List.mem_append.1 hm with hm | hm
    · exact ne_zero_of_mem_markerAt _ _ m hm
    · exact ih m hm
  | case5 t s c hc hin hn =>
    rw [scanFrom_blank l t s c hc hin hn]
    exact fun m hm => by cases hm
  | case6 t s c hc hin r m hn _ _ _ ih =>
    rw [scanFrom_rule l t s c hc hin hn, Highlight.after_markers]
    intro m hm
    rcases List.mem_append.1 hm with hm | hm
    · exact ne_zero_of_mem_markerAt _ _ m hm
    · exact ih m hm
  | case7 t s c hc hin k m hn _ he =>
    rw [scanFrom_opens l t s c hc hin hn he]
    exact ne_zero_of_mem_markerAt _ _
  | case8 t s c hc hin k m hn _ e he _ _ _ ih =>
    rw [scanFrom_spans l t s c hc hin hn he, Highlight.after_markers]
    intro m hm
    rcases List.mem_append.1 hm with hm | hm
    · rcases List.mem_append.1 hm with hm | hm
      · exact ne_zero_of_mem_markerAt _ _ m hm
      · exact ne_zero_of_mem_markerAt _ _ m hm
    · exact ih m hm

/-! ## Whole lines -/

theorem scan_grows (text : String) (ht : t.Sound) (hs : t.Issued s) :
    (l.scan t s text).2.Sound ∧ t.Extends (l.scan t s text).2 ∧
      (l.scan t s text).2.Issued (l.scan t s text).1.endState ∧
      (t.Live s → (l.scan t s text).2.Live (l.scan t s text).1.endState) := by
  unfold scan
  split
  · exact ⟨ht, .refl t, t.issued_normal, fun _ => t.live_normal⟩
  · exact l.scanFrom_grows t s _ ht hs

theorem scan_markers (text : String) : ∀ m ∈ (l.scan t s text).1.markers, m.value ≠ 0 := by
  unfold scan
  split
  · exact fun m hm => by cases hm
  · exact l.scanFrom_markers t s _

theorem scan_again (text : String) (ht : t.Sound) (hu : u.Sound) (hs : t.Issued s)
    (h : (l.scan t s text).2.Extends u) : l.scan u s text = ((l.scan t s text).1, u) := by
  unfold scan at h ⊢
  split
  · rfl
  · next hp =>
    rw [if_neg hp] at h
    exact l.scanFrom_again t u s _ ht hu hs h

theorem scan_agree (text : String) (ht : t.Sound) (hu : u.Sound) (hs : t.Issued s)
    (hv : u.Issued v) (h : Agree t s u v) :
    (l.scan t s text).1.runs = (l.scan u v text).1.runs ∧
    (l.scan t s text).1.markers = (l.scan u v text).1.markers ∧
    Agree (l.scan t s text).2 (l.scan t s text).1.endState
      (l.scan u v text).2 (l.scan u v text).1.endState ∧
    ((s.context = none ↔ v.context = none) →
      ((l.scan t s text).1.endState.context = none ↔
        (l.scan u v text).1.endState.context = none)) := by
  unfold scan
  split
  · exact ⟨rfl, rfl, .normal t u, fun _ => Iff.rfl⟩
  · exact l.scanFrom_agree t u s v _ ht hu hs hv h

end Language

end Highlighting
