import Highlighting.Proofs.OpenRegions
import Highlighting.Proofs.Regions

/-!
# Partners of fold markers

In a text each close marker is joined to the latest open marker of its type that has none yet.  A
region ought to end at the partner of the marker that it starts with.  The search for its end counts
on from 1, as if the line opened one region of the type; a line that leaves several open has its
region start with the outermost of them and end with the partner of the innermost:

    regionFrom lines n = regionTo (place of the outermost) (partner of the innermost)
                                                                      (regionFrom_eq_some)

The partner of the outermost is found just when it alone is left open, or the innermost is not
closed, or two closes stand at one place:

    any line of a buffer that folds by tokens                           (foldRange_partner)
-/

namespace Highlighting

open Brackets

/-! ## Algorithm -/

/-- A fold marker of a text: the line that it is on, and its index among the markers there. -/
structure Mark where
  line : Nat
  index : Nat
  marker : Marker
  deriving Repr, DecidableEq

namespace Mark

def opens (m : Mark) : Bool :=
  m.marker.opens

def place (m : Mark) : Position :=
  ⟨m.line, m.marker.offset⟩

end Mark

/-- The markers of a type on a line. -/
def lineMarks (region : Int) (line : Nat) (ms : List Marker) : List Mark :=
  (ms.zipIdx.filter fun m => m.1.region = region).map fun m => ⟨line, m.2, m.1⟩

/-- The markers of a type on lines that are numbered from `line` on. -/
def marks (region : Int) : (line : Nat) → List (List Marker) → List Mark
  | _, [] => []
  | line, ms :: rest => lineMarks region line ms ++ marks region (line + 1) rest

/-- The open markers of a type that are not closed on their line, the innermost first. -/
def leftOpen (region : Int) (line : Nat) (ms : List Marker) : List Mark :=
  unmatched Mark.opens [] (lineMarks region line ms)

/-- What a marker of a type is joined to in a text whose lines have these markers. -/
def partnerIn (region : Int) (lines : List (List Marker)) (x : Mark) : Option Mark :=
  partner Mark.opens (marks region 0 lines) x

/-- The region from a place to a marker, if there is one. -/
def regionTo (start : Position) (stop : Option Mark) : Option FoldRange :=
  stop.map fun y => ⟨start, y.place⟩

/-! ## Marks -/

section
variable (region : Int) (line : Nat) (ms : List Marker) (lines : List (List Marker))

theorem map_marker_lineMarks :
    (lineMarks region line ms).map (·.marker) = markersFor region ms := by
  unfold lineMarks markersFor
  rw [List.map_map]
  show ((ms.zipIdx.filter ((fun m => decide (m.region = region)) ∘ Prod.fst)).map Prod.fst) = _
  rw [← List.filter_map, List.zipIdx_map_fst]

theorem line_of_mem_lineMarks {x : Mark} (hx : x ∈ lineMarks region line ms) : x.line = line := by
  obtain ⟨m, -, rfl⟩ := List.mem_map.1 hx
  rfl

theorem le_line_of_mem_marks {x : Mark} (hx : x ∈ marks region line lines) : line ≤ x.line := by
  induction lines generalizing line with
  | nil => cases hx
  | cons ms rest ih =>
    rcases List.mem_append.1 hx with hx | hx
    · exact Nat.le_of_eq (line_of_mem_lineMarks region line ms hx).symm
    · exact Nat.le_of_succ_le (ih _ hx)

theorem lineMarks_nodup : (lineMarks region line ms).Nodup := by
  have hindices : (ms.zipIdx.map Prod.snd).Nodup := by
    rw [List.zipIdx_map_snd]
    exact List.nodup_range'
  refine List.Nodup.of_map Mark.index ?_
  show ((List.map _ _).map _).Nodup
  rw [List.map_map]
  exact hindices.sublist (List.filter_sublist.map Prod.snd)

theorem marks_nodup : (marks region line lines).Nodup := by
  induction lines generalizing line with
  | nil => exact List.nodup_nil
  | cons ms rest ih =>
    refine List.nodup_append.2 ⟨lineMarks_nodup region line ms, ih _, ?_⟩
    rintro x hx y hy rfl
    have hline := line_of_mem_lineMarks region line ms hx
    have hrest := le_line_of_mem_marks region (line + 1) rest hy
    omega

theorem marks_append (rest : List (List Marker)) :
    marks region line (lines ++ rest) =
      marks region line lines ++ marks region (line + lines.length) rest := by
  induction lines generalizing line with
  | nil => rfl
  | cons ms lines ih =>
    simp only [List.cons_append, marks, ih, List.append_assoc, List.length_cons]
    rw [Nat.add_right_comm, Nat.add_assoc]

/-- The markers before a line, on it and after it. -/
theorem marks_split (n : Nat) (hn : lines[n]? = some ms) :
    marks region line lines =
      marks region line (lines.take n) ++ lineMarks region (line + n) ms ++
        marks region (line + n + 1) (lines.drop (n + 1)) := by
  obtain ⟨hlt, rfl⟩ := List.getElem?_eq_some_iff.1 hn
  have hlen : (lines.take n).length = n := by
    rw [List.length_take]
    omega
  have happ := marks_append region line (lines.take n) (lines.drop n)
  rw [List.take_append_drop, hlen, List.drop_eq_getElem_cons hlt] at happ
  rw [happ, marks, List.append_assoc]

theorem map_marker_leftOpen :
    (leftOpen region line ms).map (·.marker) = openMarkers region ms := by
  unfold leftOpen openMarkers
  rw [← map_marker_lineMarks region line ms]
  exact (unmatched_map Mark.opens [] _ (·.marker) Marker.opens fun _ => rfl).symm

theorem line_of_mem_leftOpen {x : Mark} (hx : x ∈ leftOpen region line ms) : x.line = line := by
  rcases mem_unmatched Mark.opens [] _ hx with hx | hx
  · cases hx
  · exact line_of_mem_lineMarks region line ms hx

end

/-! ## Searches -/

/-- On one line, the search counts as it would among the markers of the type alone. -/
theorem matchClose_eq (region : Int) (depth : Nat) (ms : List Marker) :
    matchClose region depth ms =
      match closing Marker.opens depth (markersFor region ms) with
      | some m => (some m.offset, 0)
      | none => (none, depthAfter Marker.opens depth (markersFor region ms)) := by
  induction ms generalizing depth with
  | nil => rfl
  | cons m ms ih =>
    unfold matchClose markersFor
    by_cases hregion : m.region = region
    · rw [if_pos hregion, List.filter_cons_of_pos (by simpa using hregion)]
      simp only [closing, depthAfter]
      split
      · exact ih (depth + 1)
      · split
        · rfl
        · exact ih (depth - 1)
    · rw [if_neg hregion, List.filter_cons_of_neg (by simpa using hregion)]
      exact ih depth

/-- So does the search over several lines. -/
theorem closeOn_eq (region : Int) (depth line : Nat) (lines : List (List Marker)) :
    closeOn region depth line lines =
      (closing Mark.opens depth (marks region line lines)).map Mark.place := by
  induction lines generalizing depth line with
  | nil => rfl
  | cons ms rest ih =>
    have hclose := closing_map Mark.opens (lineMarks region line ms) (·.marker) Marker.opens
      (fun _ => rfl) depth
    have hdepth := depthAfter_map Mark.opens (lineMarks region line ms) (·.marker) Marker.opens
      (fun _ => rfl) depth
    rw [map_marker_lineMarks] at hclose hdepth
    rw [closeOn, matchClose_eq, hclose, hdepth, marks, closing_append]
    cases hfound : closing Mark.opens depth (lineMarks region line ms) with
    | some m =>
      have hline := line_of_mem_lineMarks region line ms (mem_of_closing _ _ depth m hfound)
      simp [Mark.place, hline]
    | none => exact ih _ (line + 1)

/-! ## Partners -/

section
variable (region : Int) (lines : List (List Marker)) (n : Nat) (ms : List Marker)
  (hn : lines[n]? = some ms)
include hn

/-- A marker that its line leaves open, `p` others inside of it, is joined to the marker that closes
the last of `p + 1` regions on the lines after it. -/
theorem partnerIn_leftOpen (p : Nat) (x : Mark) (hx : (leftOpen region n ms)[p]? = some x) :
    partnerIn region lines x =
      closing Mark.opens (p + 1) (marks region (n + 1) (lines.drop (n + 1))) := by
  have hsplit := marks_split region 0 ms lines n hn
  rw [Nat.zero_add] at hsplit
  have hall := marks_nodup region 0 lines
  rw [hsplit] at hall
  rw [partnerIn, hsplit]
  refine partner_append Mark.opens _ _ hall p x ?_
  obtain ⟨k, hbase⟩ := unmatched_base Mark.opens (lineMarks region n ms)
  unfold leftOpen at hx
  rw [unmatched_append, hbase, List.getElem?_append_left (List.getElem?_eq_some_iff.1 hx).1]
  exact hx

variable (outer inner : Mark) (houter : (leftOpen region n ms).getLast? = some outer)
  (hinner : (leftOpen region n ms).head? = some inner)
include houter hinner

/-- If the innermost of the regions that a line leaves open is not closed, the outermost is not. -/
theorem partnerIn_outer_none (h : partnerIn region lines inner = none) :
    partnerIn region lines outer = none := by
  rw [List.getLast?_eq_getElem?] at houter
  rw [List.head?_eq_getElem?] at hinner
  rw [partnerIn_leftOpen region lines n ms hn 0 inner hinner] at h
  rw [partnerIn_leftOpen region lines n ms hn _ outer houter]
  exact closing_none_of_le Mark.opens _ _ _ (by omega) h

/-- If several are left open, no close belongs to both the innermost and the outermost. -/
theorem partnerIn_ne (hmany : leftOpen region n ms ≠ [outer]) (y z : Mark)
    (hy : partnerIn region lines inner = some y) (hz : partnerIn region lines outer = some z) :
    y ≠ z := by
  have hlen : 1 < (leftOpen region n ms).length := by
    match hleft : leftOpen region n ms with
    | [] => simp [hleft] at houter
    | [x] =>
      rw [hleft] at houter hmany
      exact absurd (by simpa using houter) hmany
    | _ :: _ :: _ => simp
  rw [List.getLast?_eq_getElem?] at houter
  rw [List.head?_eq_getElem?] at hinner
  rw [partnerIn_leftOpen region lines n ms hn 0 inner hinner] at hy
  rw [partnerIn_leftOpen region lines n ms hn _ outer houter] at hz
  exact closing_ne Mark.opens _ (marks_nodup ..) _ _ (by omega) (by omega) y z hy hz

/-- When the regions to the two partners are the same. -/
theorem regionTo_partners_iff (start : Position) :
    regionTo start (partnerIn region lines inner) = regionTo start (partnerIn region lines outer) ↔
      leftOpen region n ms = [outer] ∨ partnerIn region lines inner = none ∨
      ∃ y z, partnerIn region lines inner = some y ∧ partnerIn region lines outer = some z ∧
        y ≠ z ∧ y.place = z.place := by
  constructor
  · intro heq
    by_cases hone : leftOpen region n ms = [outer]
    · exact .inl hone
    cases hy : partnerIn region lines inner with
    | none => exact .inr (.inl rfl)
    | some y =>
      rw [hy] at heq
      obtain ⟨z, hz, hstop⟩ := Option.map_eq_some_iff.1 heq.symm
      have hne := partnerIn_ne region lines n ms hn outer inner houter hinner hone y z hy hz
      exact .inr (.inr ⟨y, z, rfl, hz, hne, (FoldRange.mk.inj hstop).2.symm⟩)
  · rintro (hone | hnone | ⟨y, z, hy, hz, -, hplace⟩)
    · rw [hone] at hinner
      obtain rfl : outer = inner := by simpa using hinner
      rfl
    · rw [hnone, partnerIn_outer_none region lines n ms hn outer inner houter hinner hnone]
    · rw [hy, hz]
      simp [regionTo, hplace]

end

/-- The region that is found starts with the outermost of the markers of its type that the line
leaves open, and ends with the partner of the innermost. -/
theorem regionFrom_eq_some (lines : List (List Marker)) (n : Nat) (ms : List Marker)
    (hn : lines[n]? = some ms) (hms : ∀ m ∈ ms, m.value ≠ 0) (region : Int) (offset : Nat)
    (h : firstUnclosed ms = some (region, offset)) :
    ∃ outer inner, (leftOpen region n ms).getLast? = some outer ∧
      (leftOpen region n ms).head? = some inner ∧ outer.place = ⟨n, offset⟩ ∧
      regionFrom lines n = regionTo ⟨n, offset⟩ (partnerIn region lines inner) := by
  obtain ⟨m, hm, rfl⟩ := firstUnclosed_eq_some ms hms region offset h
  rw [← map_marker_leftOpen region n ms, List.getLast?_map] at hm
  obtain ⟨outer, houter, rfl⟩ := Option.map_eq_some_iff.1 hm
  have hline := line_of_mem_leftOpen region n ms (List.mem_of_getLast? houter)
  obtain ⟨inner, hinner⟩ : ∃ inner, (leftOpen region n ms).head? = some inner := by
    cases hleft : leftOpen region n ms with
    | nil => simp [hleft] at houter
    | cons inner _ => exact ⟨inner, rfl⟩
  refine ⟨outer, inner, houter, hinner, by rw [Mark.place, hline], ?_⟩
  rw [List.head?_eq_getElem?] at hinner
  rw [partnerIn_leftOpen region lines n ms hn 0 inner hinner, regionFrom, hn, Option.bind_some, h,
    Option.bind_some, closeOn_eq, Option.map_map]
  rfl

/-- Take any session in which contexts have been forgotten by passes alone, a buffer in it without
an open transaction whose definition folds by tokens, and a line; no sum of a line number and the
lookahead is too large, as none is where sums are unbounded.  No region starts on a line that leaves
none open.  Otherwise the answer starts with the outermost of the open markers of the type
that is picked, and ends with the partner of the innermost of them, opens and closes balancing in
between.  This is the partner of the marker at the start just when the line leaves open that one
only, when the innermost is not closed (nor is then the outermost), or when the two partners stand
at one place. -/
theorem foldRange_partner (s : Session) (hs : s.Undisturbed) (name : String) (b : Buffer)
    (hb : (name, b) ∈ s.buffers) (hclosed : b.store.editing = false) (h : Handle)
    (hh : b.handle = some h) (hf : h.folding = .token) (hfit : b.SumsFit s.shared) (n : Nat)
    (hn : n < b.lineCount) :
    ∃ ms, (b.ensure s.shared n b.lookahead).buffer.markers n = .ok ms ∧
      (h.language.markersOf b.texts)[n]? = some ms ∧
      (firstUnclosed ms = none → (b.foldRange s.shared n).result = .ok none) ∧
      ∀ region offset, firstUnclosed ms = some (region, offset) →
        ∃ outer inner, (leftOpen region n ms).getLast? = some outer ∧
          (leftOpen region n ms).head? = some inner ∧ outer.place = ⟨n, offset⟩ ∧
          (∀ x y, partnerIn region (h.language.markersOf b.texts) x = some y ↔
            Encloses Mark.opens (marks region 0 (h.language.markersOf b.texts)) x y) ∧
          (b.foldRange s.shared n).result =
            .ok (regionTo ⟨n, offset⟩ (partnerIn region (h.language.markersOf b.texts) inner)) ∧
          ((b.foldRange s.shared n).result =
              .ok (regionTo ⟨n, offset⟩ (partnerIn region (h.language.markersOf b.texts) outer)) ↔
            leftOpen region n ms = [outer] ∨
            partnerIn region (h.language.markersOf b.texts) inner = none ∨
            ∃ y z, partnerIn region (h.language.markersOf b.texts) inner = some y ∧
              partnerIn region (h.language.markersOf b.texts) outer = some z ∧
              y ≠ z ∧ y.place = z.place) := by
  have ho : b.Orderly s.shared := hs.orderly.buffers _ hb
  have hc : b.Current s.shared := hs.current _ hb
  obtain ⟨b', s', ms, hrun, -, -, -, -, -, -, hms, hlines⟩ | ⟨hnone, -⟩ :=
    Buffer.markers_after_ensure ho hc hclosed h hh (hfit n hn).exact hn
  case inr => cases (hfit n hn).symm.trans hnone
  have hresult := Buffer.foldRange_result ho hc hclosed h hh hfit n hn
  rw [h.regionAt_token hf] at hresult
  refine ⟨ms, by rw [hrun]; exact hms, hlines, fun hnone => ?_, fun region offset hsome => ?_⟩
  · rw [hresult, regionFrom, hlines, Option.bind_some, hnone]
    rfl
  obtain ⟨outer, inner, houter, hinner, hplace, hregion⟩ := regionFrom_eq_some _ n ms hlines
    (h.language.markersOf_ne_zero b.texts n ms hlines) region offset hsome
  rw [hregion] at hresult
  refine ⟨outer, inner, houter, hinner, hplace, ?_, hresult, ?_⟩
  · intro x y
    exact partner_eq_some_iff Mark.opens _ (marks_nodup region 0 _) x y
  · rw [hresult, Except.ok.injEq]
    exact regionTo_partners_iff region _ n ms hlines outer inner houter hinner ⟨n, offset⟩

/-- A session whose one buffer has a text that opens two regions on its first line. -/
def Session.bracesNested : Session :=
  (start 0 .standard).after
    [.define "braces" (.ok .braces) false, .newBuffer "text" (some "\x7b\x7b\n\x7d\n\x7d") none,
      .useHandle "text" "braces"]

theorem foldRange_partner_bracesNested :
    ∃ b outer z, ("text", b) ∈ Session.bracesNested.buffers ∧ outer.place = ⟨0, 0⟩ ∧
      partnerIn 1 (Language.braces.markersOf b.texts) outer = some z ∧ z.place = ⟨2, 0⟩ ∧
      (b.foldRange Session.bracesNested.shared 0).result = .ok (some ⟨⟨0, 0⟩, ⟨1, 0⟩⟩) := by
  have hs : Session.bracesNested.Undisturbed := .after (.start 0 .standard) _ (by simp)
  obtain ⟨b, hb⟩ : ∃ b, Session.bracesNested.buffers = [("text", b)] := ⟨_, rfl⟩
  have hall : (Session.bracesNested.buffers.map fun e => (e.2.store.editing,
      e.2.handle.map fun h => (h.language, h.folding), e.2.texts, e.2.lineCount)) =
      [(false, some (.braces, .token), ["\x7b\x7b", "\x7d", "\x7d"], 3)] := by
    decide +kernel
  have hfit : (Session.bracesNested.buffers.all
      fun e => decide (e.2.SumsFit Session.bracesNested.shared)) = true := by
    decide +kernel
  rw [hb] at hall hfit
  simp only [List.map_cons, List.map_nil, List.cons.injEq, and_true, Prod.mk.injEq,
    List.all_cons, List.all_nil, Bool.and_true, decide_eq_true_eq] at hall hfit
  obtain ⟨hclosed, hhandle, htexts, hcount⟩ := hall
  obtain ⟨h, hh, hkind⟩ := Option.map_eq_some_iff.1 hhandle
  obtain ⟨hlanguage, hf⟩ := Prod.mk.inj hkind
  have hmem : ("text", b) ∈ Session.bracesNested.buffers := by simp [hb]
  have hlines : Language.braces.markersOf ["\x7b\x7b", "\x7d", "\x7d"] =
      [[⟨0, 1⟩, ⟨1, 1⟩], [⟨0, -1⟩], [⟨0, -1⟩]] := by
    decide +kernel
  obtain ⟨ms, -, hms, -, hopened⟩ := foldRange_partner _ hs "text" b hmem hclosed h hh hf hfit
    0 (by omega)
  simp only [hlanguage, htexts, hlines] at hms hopened
  obtain rfl := Option.some.inj hms
  obtain ⟨outer, inner, houter, hinner, hplace, -, hresult, -⟩ := hopened 1 0 (by decide)
  obtain rfl : ⟨0, 0, ⟨0, 1⟩⟩ = outer := Option.some.inj houter
  obtain rfl : ⟨0, 1, ⟨1, 1⟩⟩ = inner := Option.some.inj hinner
  refine ⟨b, _, ⟨2, 0, ⟨0, -1⟩⟩, hmem, hplace, ?_, rfl, hresult⟩
  rw [htexts, hlines]
  decide

end Highlighting
