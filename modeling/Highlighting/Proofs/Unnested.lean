import Mathlib.Data.List.Nodup
import Highlighting.Language.File
import Highlighting.Proofs.Histories

/-!
# Constructs do not nest

While a construct is open nothing is looked for but its end, so that its marker and the one that
closes it stand next to each other, even when whole lines lie between them.  `Unnested l o ms o'`
says so of the marks `ms` of some lines, the construct `o` being open before them and `o'` after
them:

    Unnested l a xs b, Unnested l b ys c  →  Unnested l a (xs ++ ys) c            (Unnested.append)
    the marks of lines scanned in order are unnested                          (unnested_scanLines)

This needs that a construct is known by its number, that no rule puts markers of its region, and
that its end, where it is made on the spot, is a pattern.  Definition files give numbers of their
own to all constructs (DefinitionFile.Says.separate).
-/

namespace Highlighting

open Text (Cursor)
open Contexts (History)

/-! ## Languages with regions of their own -/

/-- The region is one that a construct opens and closes. -/
def Language.HasRegion (l : Language) (region : Int) : Prop :=
  ∃ k ∈ l.constructs, k.region = region

/-- The constructs have numbers and regions of their own. -/
structure Language.Separate (l : Language) : Prop where
  ids : (l.constructs.map (·.id)).Nodup
  id_ne_zero : ∀ k ∈ l.constructs, k.id ≠ 0
  /-- A region is a type, or 0 where there is none. -/
  region_nonneg : ∀ k ∈ l.constructs, 0 ≤ k.region
  /-- No rule opens or closes the region of a construct. -/
  own : ∀ k ∈ l.constructs, k.region ≠ 0 → ∀ r ∈ l.rules, (r.fold.natAbs : Int) ≠ k.region

/-! ## Marks -/

/-- No construct's region is opened or closed within that of another. -/
inductive Unnested (l : Language) :
    Option Construct → List (Marker × Origin) → Option Construct → Prop
  | nil (o : Option Construct) : Unnested l o [] o
  | rule {r : TokenRule} {m : Marker} {ms : List (Marker × Origin)} {o : Option Construct} :
      r ∈ l.rules → m.region = r.fold.natAbs → Unnested l none ms o →
      Unnested l none ((m, .rule r) :: ms) o
  | opens {k : Construct} {m : Marker} {ms : List (Marker × Origin)} {o : Option Construct} :
      k ∈ l.constructs → m.opens = true → m.region = k.region → Unnested l (some k) ms o →
      Unnested l none ((m, .construct k) :: ms) o
  | closes {k : Construct} {m : Marker} {ms : List (Marker × Origin)} {o : Option Construct} :
      k ∈ l.constructs → m.closes = true → m.region = k.region → Unnested l none ms o →
      Unnested l (some k) ((m, .construct k) :: ms) o

namespace Marker

theorem region_ne_zero {m : Marker} (h : m.opens = true ∨ m.closes = true) : m.region ≠ 0 := by
  simp only [opens, closes, decide_eq_true_eq, region] at h ⊢
  omega

theorem not_opens_of_closes {m : Marker} (h : m.closes = true) : ¬m.opens = true := by
  simp only [opens, closes, decide_eq_true_eq] at h ⊢
  omega

end Marker

namespace Unnested

variable {l : Language} {a b c : Option Construct} {xs ys ms : List (Marker × Origin)}

theorem append (h : Unnested l a xs b) (h' : Unnested l b ys c) : Unnested l a (xs ++ ys) c := by
  induction h with
  | nil => exact h'
  | rule hr hm _ ih => exact .rule hr hm (ih h')
  | opens hk ho hm _ ih => exact .opens hk ho hm (ih h')
  | closes hk hc hm _ ih => exact .closes hk hc hm (ih h')

/-- A marker of a rule is of no construct's region. -/
theorem not_hasRegion (hl : l.Separate) {r : TokenRule} (hr : r ∈ l.rules) {m : Marker}
    (hm : m.region = r.fold.natAbs) (h : m.opens = true ∨ m.closes = true) :
    ¬l.HasRegion m.region := by
  rintro ⟨k, hk, hregion⟩
  have hne := Marker.region_ne_zero h
  exact hl.own k hk (hregion ▸ hne) r hr (by rw [← hm, hregion])

/-- After the marker that opens a construct's region comes the one that closes it, put by the same
construct, or none. -/
theorem followed (hl : l.Separate) (h : Unnested l a ms b) (i : Nat) (m : Marker) (o : Origin)
    (hi : ms[i]? = some (m, o)) (hopens : m.opens = true) (hregion : l.HasRegion m.region) :
    ∃ k ∈ l.constructs, o = .construct k ∧ k.region = m.region ∧
      ((∃ n, ms[i + 1]? = some (n, .construct k) ∧ n.closes = true ∧ n.region = m.region) ∨
        (i + 1 = ms.length ∧ b = some k)) := by
  induction h generalizing i with
  | nil => cases hi
  | rule hr hm _ ih =>
    cases i with
    | zero =>
      obtain ⟨rfl, -⟩ : _ = m ∧ _ := by simpa using hi
      exact absurd hregion (not_hasRegion hl hr hm (.inl hopens))
    | succ i => simpa using ih i (by simpa using hi)
  | @opens k n ms b hk ho hm htail ih =>
    cases i with
    | zero =>
      obtain ⟨rfl, rfl⟩ : n = m ∧ .construct k = o := by simpa using hi
      refine ⟨k, hk, rfl, hm.symm, ?_⟩
      cases htail with
      | nil => exact .inr ⟨rfl, rfl⟩
      | @closes _ n' _ _ _ hc hm' _ => exact .inl ⟨n', rfl, hc, hm'.trans hm.symm⟩
    | succ i => simpa using ih i (by simpa using hi)
  | @closes k n ms b hk hc hm _ ih =>
    cases i with
    | zero =>
      obtain ⟨rfl, -⟩ : n = m ∧ _ := by simpa using hi
      exact absurd hopens (Marker.not_opens_of_closes hc)
    | succ i => simpa using ih i (by simpa using hi)

/-- Before the marker that closes a construct's region comes the one that opens it, put by the same
construct, unless the construct was open from the beginning. -/
theorem preceded (hl : l.Separate) (h : Unnested l a ms b) (i : Nat) (m : Marker) (o : Origin)
    (hi : ms[i]? = some (m, o)) (hcloses : m.closes = true) (hregion : l.HasRegion m.region) :
    (∃ k, i = 0 ∧ a = some k ∧ o = .construct k ∧ k.region = m.region) ∨
      ∃ j n, i = j + 1 ∧ ms[j]? = some (n, o) ∧ n.opens = true ∧ n.region = m.region := by
  induction h generalizing i with
  | nil => cases hi
  | rule hr hm _ ih =>
    cases i with
    | zero =>
      obtain ⟨rfl, -⟩ : _ = m ∧ _ := by simpa using hi
      exact absurd hregion (not_hasRegion hl hr hm (.inr hcloses))
    | succ i =>
      rcases ih i (by simpa using hi) with ⟨k, -, hnone, -⟩ | ⟨j, n, rfl, hj⟩
      · cases hnone
      · exact .inr ⟨j + 1, n, rfl, by simpa using hj⟩
  | @opens k n ms b hk ho hm _ ih =>
    cases i with
    | zero =>
      obtain ⟨rfl, -⟩ : n = m ∧ _ := by simpa using hi
      exact absurd ho (Marker.not_opens_of_closes hcloses)
    | succ i =>
      rcases ih i (by simpa using hi) with ⟨k', rfl, hk', rfl, hm'⟩ | ⟨j, n, rfl, hj⟩
      · obtain rfl := Option.some.inj hk'
        exact .inr ⟨0, n, rfl, rfl, ho, hm.trans hm'⟩
      · exact .inr ⟨j + 1, n, rfl, by simpa using hj⟩
  | @closes k n ms b hk hc hm _ ih =>
    cases i with
    | zero =>
      obtain ⟨rfl, rfl⟩ : n = m ∧ .construct k = o := by simpa using hi
      exact .inl ⟨k, rfl, rfl, rfl, hm.symm⟩
    | succ i =>
      rcases ih i (by simpa using hi) with ⟨k', -, hnone, -⟩ | ⟨j, n, rfl, hj⟩
      · cases hnone
      · exact .inr ⟨j + 1, n, rfl, by simpa using hj⟩

/-! ### The marks of one stride -/

/-- The marks that a rule puts. -/
theorem token {r : TokenRule} (hr : r ∈ l.rules) (offset : Nat) (h : Unnested l none ms b) :
    Unnested l none (Stride.put (.rule r) (markerAt offset r.fold) ++ ms) b := by
  unfold markerAt
  split
  · exact h
  · exact .rule hr rfl h

end Unnested

/-- The construct, if its markers can be seen. -/
def Construct.marked? (k : Construct) : Option Construct :=
  if k.region = 0 then none else some k

namespace Unnested

variable {l : Language} {b : Option Construct} {ms : List (Marker × Origin)} {k : Construct}

theorem opening (hl : l.Separate) (hk : k ∈ l.constructs) (offset : Nat)
    (h : Unnested l k.marked? ms b) :
    Unnested l none (Stride.put (.construct k) (markerAt offset k.region) ++ ms) b := by
  have hregion := hl.region_nonneg k hk
  unfold Construct.marked? at h
  unfold markerAt
  split at h
  · next hzero => rw [if_pos hzero]; exact h
  · next hne =>
    rw [if_neg hne]
    refine .opens hk ?_ ?_ h
    · simp only [Marker.opens, decide_eq_true_eq]
      omega
    · simp only [Marker.region]
      omega

theorem closing (hl : l.Separate) (hk : k ∈ l.constructs) (offset : Nat)
    (h : Unnested l none ms b) :
    Unnested l k.marked? (Stride.put (.construct k) (markerAt offset (-k.region)) ++ ms) b := by
  have hregion := hl.region_nonneg k hk
  unfold Construct.marked? markerAt
  split
  · next hzero => rw [if_pos (by omega)]; exact h
  · next hne =>
    rw [if_neg (by omega)]
    refine .closes hk ?_ ?_ h
    · simp only [Marker.closes, decide_eq_true_eq]
      omega
    · simp only [Marker.region]
      omega

end Unnested

/-! ## Ends -/

/-- A construct that has opened can be resumed, if its end is a pattern. -/
theorem Construct.exists_endPattern (k : Construct) (t : Contexts) (ht : t.Sound) (c : Cursor)
    (m : Match) (hm : k.findStart c = some m)
    (hend : ∀ source ∈ k.endSource? m.start, ∃ p, Pattern.compile source = .ok p) :
    ∃ p, k.endPattern? (k.openState m.start t).1 (k.openState m.start t).2 = some p := by
  have hagain := Pattern.find_again (Pattern.find_of_findFilled hm).1
  cases hk : k.ending with
  | fixed p => exact ⟨p, by simp only [endPattern?, hk]⟩
  | derived template =>
    rcases k.openState_cases m.start with ⟨hnone, -⟩ | ⟨source, hsource, ho⟩
    · simp only [endSource?, hk, hagain, Option.map_some] at hnone
      cases hnone
    · obtain ⟨p, hp⟩ := hend source hsource
      cases hid : (t.intern source).1 with
      | none =>
        obtain ⟨flaw, hflaw⟩ := (t.intern_eq_none ht source).1 hid
        rw [hp] at hflaw
        cases hflaw
      | some id =>
        obtain ⟨q, -, hq⟩ := t.intern_resolve ht source id hid
        exact ⟨q, by simp only [endPattern?, hk, ho, hid, Option.bind_some, hq]⟩

namespace Language

variable (l : Language) (t : Contexts) (s : LineState)

/-- The construct that a state is inside of, if its markers can be seen. -/
def openIn (l : Language) (s : LineState) : Option Construct :=
  if s.isInside then (l.construct? s.construct).bind Construct.marked? else none

/-- The construct that a state is inside of can be resumed. -/
def Resumes (l : Language) (t : Contexts) (s : LineState) : Prop :=
  s.isInside = true → l.plain = false ∧ ∃ k p, l.resume? s t = some (k, p)

theorem resumes_normal : l.Resumes t .normal :=
  fun h => by cases h

theorem openIn_outside (h : ¬s.isInside = true) : l.openIn s = none :=
  if_neg h

variable {l}

theorem construct?_of_openIn {s : LineState} {k : Construct} (h : l.openIn s = some k) :
    s.isInside = true ∧ l.construct? s.construct = some k := by
  unfold openIn at h
  split at h
  · next hin =>
    obtain ⟨k', hk', hk⟩ := Option.bind_eq_some_iff.1 h
    unfold Construct.marked? at hk
    split at hk
    · cases hk
    · exact ⟨hin, Option.some.inj hk ▸ hk'⟩
  · cases h

/-- A construct is found by its number. -/
theorem Separate.construct?_of_mem (hl : l.Separate) {k : Construct} (hk : k ∈ l.constructs) :
    l.construct? k.id = some k := by
  cases h : l.construct? k.id with
  | none => exact absurd (List.find?_eq_none.1 h k hk) (by simp)
  | some k' =>
    obtain ⟨hk', hid⟩ := construct?_eq_some h
    rw [List.inj_on_of_nodup_map hl.ids hk' hk hid]

/-- The state in which a construct has opened is inside of it. -/
theorem Separate.inside (hl : l.Separate) {k : Construct} (hk : k ∈ l.constructs)
    (hs : s.construct = k.id) : s.isInside = true ∧ l.openIn s = k.marked? := by
  have hin : s.isInside = true := by simpa [LineState.isInside, hs] using hl.id_ne_zero k hk
  refine ⟨hin, ?_⟩
  rw [openIn, if_pos hin, hs, hl.construct?_of_mem hk, Option.bind_some]

/-! ## Scans -/

/-- The marks of a scan are unnested, and it ends where it can be resumed. -/
theorem unnested_scanFrom (hl : l.Separate) (hplain : l.plain = false) (c : Cursor) (ht : t.Sound)
    (hs : l.Resumes t s)
    (hends : ∀ source ∈ (l.stridesFrom t s c).flatMap Stride.sources,
      ∃ p, Pattern.compile source = .ok p) :
    Unnested l (l.openIn s) ((l.stridesFrom t s c).flatMap Stride.marks)
        (l.openIn (l.scanFrom t s c).1.endState) ∧
      l.Resumes (l.scanFrom t s c).2 (l.scanFrom t s c).1.endState := by
  fun_induction stridesFrom l t s c with
  | case1 t s c hc => rw [scanFrom_atEnd l t s c hc]; exact ⟨.nil _, hs⟩
  | case2 t s c hc hin hr ih =>
    obtain ⟨-, k, p, hsome⟩ := hs hin
    rw [hr] at hsome
    cases hsome
  | case3 t s c hc hin k p hr he =>
    rw [scanFrom_inside l t s c hc hin hr he]
    exact ⟨.nil _, hs⟩
  | case4 t s c hc hin k p hr e he ih =>
    rw [scanFrom_leaves l t s c hc hin hr he]
    obtain ⟨hk, hid⟩ := construct?_eq_some (resume?_eq_some_iff.1 hr).1
    obtain ⟨hrest, hresumes⟩ := ih ht (l.resumes_normal t) (by simpa [Stride.sources] using hends)
    refine ⟨?_, hresumes⟩
    rw [(hl.inside s hk hid.symm).2]
    exact .closing hl hk _ hrest
  | case5 t s c hc hin hn =>
    rw [scanFrom_blank l t s c hc hin hn]
    exact ⟨.nil _, hs⟩
  | case6 t s c hc hin r m hn ih =>
    rw [scanFrom_rule l t s c hc hin hn]
    obtain ⟨hrest, hresumes⟩ := ih ht hs (by simpa [Stride.sources] using hends)
    refine ⟨?_, hresumes⟩
    rw [l.openIn_outside s hin] at hrest ⊢
    exact .token (nextToken_rule hn).1 _ hrest
  | case7 t s c hc hin k m hn he =>
    rw [scanFrom_opens l t s c hc hin hn he]
    obtain ⟨hk, hm⟩ := nextToken_construct hn
    obtain ⟨-, hopen⟩ := hl.inside (k.openState m.start t).1 hk (k.openState_id m.start t)
    refine ⟨?_, fun _ => ⟨hplain, k, ?_⟩⟩
    · rw [l.openIn_outside s hin, hopen]
      exact .opening hl hk _ (.nil _)
    · obtain ⟨p, hp⟩ := k.exists_endPattern t ht c m hm (by simpa [Stride.sources] using hends)
      refine ⟨p, resume?_eq_some_iff.2 ⟨?_, hp⟩⟩
      rw [k.openState_id]
      exact hl.construct?_of_mem hk
  | case8 t s c hc hin k m hn e he ih =>
    rw [scanFrom_spans l t s c hc hin hn he]
    obtain ⟨hk, -⟩ := nextToken_construct hn
    simp only [List.flatMap_cons, List.mem_append] at hends
    obtain ⟨hrest, hresumes⟩ := ih (k.openState_grows m.start t ht).1 (fun h => absurd h hin)
      fun source hsource => hends source (.inr hsource)
    refine ⟨?_, hresumes⟩
    rw [l.openIn_outside s hin] at hrest ⊢
    rw [List.flatMap_cons, Stride.marks, List.append_assoc]
    exact .opening hl hk _ (.closing hl hk _ hrest)

theorem unnested_scan (hl : l.Separate) (text : String) (ht : t.Sound) (hs : l.Resumes t s)
    (hends : ∀ source ∈ (l.strides t s text).flatMap Stride.sources,
      ∃ p, Pattern.compile source = .ok p) :
    Unnested l (l.openIn s) ((l.strides t s text).flatMap Stride.marks)
        (l.openIn (l.scan t s text).1.endState) ∧
      l.Resumes (l.scan t s text).2 (l.scan t s text).1.endState := by
  unfold scan
  unfold strides at hends ⊢
  split
  · next hplain =>
    have hout : ¬s.isInside = true := fun hin => by simp [(hs hin).1] at hplain
    rw [l.openIn_outside s hout]
    exact ⟨.nil _, l.resumes_normal t⟩
  · next hplain =>
    rw [if_neg hplain] at hends
    exact unnested_scanFrom t s hl (by simpa using hplain) _ ht hs hends

/-- The marks of lines scanned in order are unnested. -/
theorem unnested_scanLines (hl : l.Separate) (texts : List String) (ht : t.Sound)
    (hissued : t.Issued s) (hs : l.Resumes t s)
    (hends : ∀ source ∈ (l.stridesOfLines t s texts).flatMap Stride.sources,
      ∃ p, Pattern.compile source = .ok p) :
    Unnested l (l.openIn s) ((l.stridesOfLines t s texts).flatMap Stride.marks)
      (l.openIn (endAfter s (l.scanLines t s texts).1)) := by
  induction texts generalizing t s with
  | nil => exact .nil _
  | cons text texts ih =>
    simp only [stridesOfLines, List.flatMap_append, List.mem_append] at hends ⊢
    obtain ⟨hfirst, hresumes⟩ := unnested_scan t s hl text ht hs
      fun source hsource => hends source (.inl hsource)
    obtain ⟨hsound, -, hissued, -⟩ := l.scan_grows t s text ht hissued
    exact hfirst.append (ih _ _ hsound hissued hresumes
      fun source hsource => hends source (.inr hsource))

/-- Take a language whose constructs have numbers and regions of their own, any table, and any lines
that are scanned in order from the default state, so that every end made on the spot is a pattern.
In the sequence of all their markers, each that opens the region of a construct was put by one, and
is followed at once by a marker of the same construct that closes it, or it is the last one, and
the lines end inside of that construct.  Each that closes the region of a construct follows at once
on a marker of the same construct that opens it. -/
theorem constructs_unnested (l : Language) (hl : l.Separate) (log : List TableEvent) (t : Contexts)
    (ht : History log t) (texts : List String)
    (hends : ∀ source ∈ (l.stridesOfLines t .normal texts).flatMap Stride.sources,
      ∃ p, Pattern.compile source = .ok p) :
    let marks := (l.stridesOfLines t .normal texts).flatMap Stride.marks
    let last := endAfter .normal (l.scanLines t .normal texts).1
    marks.map (·.1) = (l.scanLines t .normal texts).1.flatMap (·.markers) ∧
    (∀ i m o, marks[i]? = some (m, o) → m.opens = true → l.HasRegion m.region →
      ∃ k ∈ l.constructs, o = .construct k ∧ k.region = m.region ∧
        ((∃ n, marks[i + 1]? = some (n, .construct k) ∧ n.closes = true ∧ n.region = m.region) ∨
          (i + 1 = marks.length ∧ last.isInside = true ∧ l.construct? last.construct = some k))) ∧
    ∀ i m o, marks[i]? = some (m, o) → m.closes = true → l.HasRegion m.region →
      ∃ j n, i = j + 1 ∧ marks[j]? = some (n, o) ∧ n.opens = true ∧ n.region = m.region := by
  intro marks last
  have h : Unnested l none marks (l.openIn last) := unnested_scanLines t .normal hl texts
    ht.recorded.sound t.issued_normal (l.resumes_normal t) hends
  refine ⟨(l.scanLines_strides t .normal texts).1.symm, ?_, ?_⟩
  · intro i m o hi hopens hregion
    obtain ⟨k, hk, ho, hm, hnext | ⟨hlen, hopen⟩⟩ := h.followed hl i m o hi hopens hregion
    · exact ⟨k, hk, ho, hm, .inl hnext⟩
    · exact ⟨k, hk, ho, hm, .inr ⟨hlen, construct?_of_openIn hopen⟩⟩
  · intro i m o hi hcloses hregion
    rcases h.preceded hl i m o hi hcloses hregion with ⟨k, -, hnone, -⟩ | hprev
    · cases hnone
    · exact hprev

theorem separate_fenced : fenced.Separate :=
  ⟨by decide, by decide, by decide, by decide⟩

theorem constructs_unnested_fenced :
    ∃ n, ((fenced.stridesOfLines .fresh .normal ["<=\x7b", "\x7d>", "=>\x7b"]).flatMap
      Stride.marks)[1]? = some (n, .construct fence) ∧ n.closes = true ∧ n.region = 2 := by
  have hends : ∀ source ∈ (fenced.stridesOfLines .fresh .normal
      ["<=\x7b", "\x7d>", "=>\x7b"]).flatMap Stride.sources,
      ∃ p, Pattern.compile source = .ok p := by
    have hsources : (fenced.stridesOfLines .fresh .normal
        ["<=\x7b", "\x7d>", "=>\x7b"]).flatMap Stride.sources = ["=>"] := by
      decide +kernel
    rw [hsources]
    intro source hsource
    obtain rfl := List.mem_singleton.1 hsource
    exact ⟨⟨"=>", .seq (.one (.single '=')) (.one (.single '>'))⟩, by decide +kernel⟩
  obtain ⟨-, hopen, -⟩ := constructs_unnested fenced separate_fenced [] .fresh .fresh
    ["<=\x7b", "\x7d>", "=>\x7b"] hends
  obtain ⟨k, hk, -, -, ⟨n, hn, hcloses, hregion⟩ | ⟨hlen, -⟩⟩ := hopen 0 ⟨0, 2⟩ (.construct fence)
    (by decide +kernel) (by decide) ⟨fence, by decide, by decide⟩
  · obtain rfl : k = fence := List.mem_singleton.1 hk
    exact ⟨n, hn, hcloses, hregion⟩
  · exact absurd hlen (by decide +kernel)

end Language

end Highlighting
