import Highlighting.Proofs.Partners

/-!
# Which region a line leaves open

Among the markers of each type on a line, each close belongs to the latest open before it that has
none yet, and to no open when there is no such one.  Of each type, the first open that is left
without a close says where the region of that type starts.  `firstUnclosed` picks the leftmost of
these starts, and of several at one place that of the smallest type:

    firstUnclosed ms = none             ↔  no open of any type is left without a close
    firstUnclosed ms = some (q, n)      ↔  the region of type q starts at n, and no region of
                                           another type starts further left   (firstUnclosed_leftmost)

The entries of the search have one depth and one offset for each type, the opens a place in the line
each; `mem_iff_starts` joins the two.
-/

namespace Highlighting

open Brackets

/-- The markers of a type that open a region on a line which no marker there closes, from left to
right. -/
def unclosed (region : Int) (ms : List Marker) : List Mark :=
  (lineMarks region 0 ms).filter fun x =>
    x.opens && (partner Mark.opens (lineMarks region 0 ms) x).isNone

/-- The first of the markers of a type that open a region without a close stands at this offset. -/
def StartsAt (ms : List Marker) (region : Int) (offset : Nat) : Prop :=
  ∃ x, (unclosed region ms).head? = some x ∧ x.marker.offset = offset

/-! ## The leftmost of several -/

namespace OpenRegion

variable {a b c : OpenRegion}

theorem precedes_iff :
    a.precedes b = true ↔ a.offset < b.offset ∨ a.offset = b.offset ∧ a.region ≤ b.region := by
  simp [precedes]

theorem precedes_refl (a : OpenRegion) : a.precedes a = true :=
  precedes_iff.2 (.inr ⟨rfl, Int.le_refl _⟩)

theorem precedes_total (a b : OpenRegion) : a.precedes b = true ∨ b.precedes a = true := by
  rw [precedes_iff, precedes_iff]
  omega

theorem precedes_trans (hab : a.precedes b = true) (hbc : b.precedes c = true) :
    a.precedes c = true := by
  rw [precedes_iff] at *
  omega

theorem leftmost_eq_none_iff (rs : List OpenRegion) : leftmost rs = none ↔ rs = [] := by
  cases rs with
  | nil => simp [leftmost]
  | cons r rs =>
    unfold leftmost
    split
    · simp
    · split <;> simp

theorem leftmost_precedes (rs : List OpenRegion) (r : OpenRegion) (h : leftmost rs = some r) :
    ∀ q ∈ rs, r.precedes q = true := by
  induction rs generalizing r with
  | nil => cases h
  | cons a rs ih =>
    unfold leftmost at h
    split at h
    · next hrest =>
      obtain rfl := Option.some.inj h
      rw [leftmost_eq_none_iff] at hrest
      simp [hrest, precedes_refl]
    · next q hrest =>
      intro p hp
      split at h
      · next haq =>
        obtain rfl := Option.some.inj h
        rcases List.mem_cons.1 hp with rfl | hp
        · exact precedes_refl p
        · exact precedes_trans haq (ih q hrest p hp)
      · next haq =>
        obtain rfl := Option.some.inj h
        rcases List.mem_cons.1 hp with rfl | hp
        · exact (precedes_total _ _).resolve_left haq
        · exact ih q hrest p hp

end OpenRegion

/-! ## Entries and starts -/

section
variable (ms : List Marker) (region : Int) (offset : Nat)

/-- The opens without a close are those that are left on the stack. -/
theorem unclosed_eq : unclosed region ms = (leftOpen region 0 ms).reverse :=
  filter_unpaired Mark.opens _ (lineMarks_nodup region 0 ms)

/-- The first of them lies at the bottom. -/
theorem startsAt_iff : StartsAt ms region offset ↔
    ∃ outer, (openMarkers region ms).getLast? = some outer ∧ outer.offset = offset := by
  unfold StartsAt
  rw [unclosed_eq, List.head?_reverse, ← map_marker_leftOpen region 0 ms, List.getLast?_map]
  constructor
  · rintro ⟨x, hx, rfl⟩
    exact ⟨x.marker, by rw [hx]; rfl, rfl⟩
  · rintro ⟨outer, houter, rfl⟩
    obtain ⟨x, hx, rfl⟩ := Option.map_eq_some_iff.1 houter
    exact ⟨x, hx, rfl⟩

theorem unclosed_eq_nil_iff : unclosed region ms = [] ↔ ∀ n, ¬StartsAt ms region n := by
  unfold StartsAt
  cases unclosed region ms <;> simp

end

/-- The search has an entry of a type and an offset just when the region of that type starts
there. -/
theorem OpenRegion.Tracks.mem_iff_starts {ms : List Marker} {rs : List OpenRegion}
    (h : Tracks ms rs) (region : Int) (offset : Nat) :
    (∃ r ∈ rs, r.region = region ∧ r.offset = offset) ↔ StartsAt ms region offset := by
  rw [startsAt_iff]
  constructor
  · rintro ⟨r, hr, rfl, rfl⟩
    have hfind := find?_of_mem rs h.nodup r hr
    rw [h.kept, summary] at hfind
    obtain ⟨outer, houter, heq⟩ := Option.map_eq_some_iff.1 hfind
    exact ⟨outer, houter, congrArg (·.offset) heq⟩
  · rintro ⟨outer, houter, rfl⟩
    have hfind := h.kept region
    rw [summary, houter] at hfind
    exact ⟨_, List.mem_of_find?_eq_some hfind, rfl, rfl⟩

/-- **The region that is picked starts furthest left.**  Whatever the markers of a line are, as long
as none is 0: no region is picked just when every open of every type has its close.  Otherwise, of
the types that have an open without a close, take for each the first such open; the region that is
picked is the leftmost of these, and of those at one place the one of the smallest type. -/
theorem firstUnclosed_leftmost (ms : List Marker) (hms : ∀ m ∈ ms, m.value ≠ 0) :
    (firstUnclosed ms = none ↔ ∀ region, unclosed region ms = []) ∧
    ∀ region offset, firstUnclosed ms = some (region, offset) ↔
      StartsAt ms region offset ∧
      ∀ q n, StartsAt ms q n → offset < n ∨ offset = n ∧ region ≤ q := by
  have htracks := OpenRegion.tracks_foldl_step ms hms
  unfold firstUnclosed
  generalize ms.foldl OpenRegion.step [] = rs at htracks
  have hstarts := htracks.mem_iff_starts
  constructor
  · rw [Option.map_eq_none_iff, OpenRegion.leftmost_eq_none_iff, List.eq_nil_iff_forall_not_mem]
    simp only [unclosed_eq_nil_iff, ← hstarts]
    exact ⟨fun h region n ⟨r, hr, _⟩ => h r hr, fun h r hr => h r.region r.offset ⟨r, hr, rfl, rfl⟩⟩
  · intro region offset
    rw [Option.map_eq_some_iff]
    constructor
    · rintro ⟨r, hr, heq⟩
      obtain ⟨rfl, rfl⟩ := Prod.mk.inj heq
      refine ⟨(hstarts ..).1 ⟨r, OpenRegion.mem_of_leftmost rs r hr, rfl, rfl⟩, fun q n hq => ?_⟩
      obtain ⟨p, hp, rfl, rfl⟩ := (hstarts q n).2 hq
      exact OpenRegion.precedes_iff.1 (OpenRegion.leftmost_precedes rs r hr p hp)
    · rintro ⟨hstart, hleast⟩
      -- what is picked and what is claimed precede each other
      obtain ⟨p, hp, hpair⟩ := (hstarts region offset).2 hstart
      cases hleft : OpenRegion.leftmost rs with
      | none =>
        rw [(OpenRegion.leftmost_eq_none_iff rs).1 hleft] at hp
        cases hp
      | some r =>
        have hmem := OpenRegion.mem_of_leftmost rs r hleft
        have hrp := OpenRegion.precedes_iff.1 (OpenRegion.leftmost_precedes rs r hleft p hp)
        have hpr := hleast r.region r.offset ((hstarts ..).1 ⟨r, hmem, rfl, rfl⟩)
        refine ⟨r, rfl, Prod.ext ?_ ?_⟩ <;> simp only <;> omega

/-- A stray close, a region that is closed and opened again, one that is closed for good, and two
that start at one place. -/
theorem firstUnclosed_leftmost_reopened :
    let ms : List Marker := [⟨0, -1⟩, ⟨1, 2⟩, ⟨2, 1⟩, ⟨3, -1⟩, ⟨4, 3⟩, ⟨4, 1⟩, ⟨5, -2⟩, ⟨6, 1⟩]
    (∀ m ∈ ms, m.value ≠ 0) ∧ firstUnclosed ms = some (1, 4) ∧ StartsAt ms 1 4 ∧
      StartsAt ms 3 4 ∧ unclosed 2 ms = [] ∧
      ∀ q n, StartsAt ms q n → 4 < n ∨ 4 = n ∧ 1 ≤ q := by
  intro ms
  have hms : ∀ m ∈ ms, m.value ≠ 0 := by decide
  have hpicked : firstUnclosed ms = some (1, 4) := by decide
  obtain ⟨hstart, hleast⟩ := ((firstUnclosed_leftmost ms hms).2 1 4).1 hpicked
  exact ⟨hms, hpicked, hstart, ⟨⟨0, 4, ⟨4, 3⟩⟩, by decide, rfl⟩, by decide, hleast⟩

end Highlighting
