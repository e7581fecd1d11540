import Mathlib.Data.List.Induction
import Highlighting.Folding.Markers
import Highlighting.Proofs.Brackets

/-!
# Regions that a line leaves open

For each type, the regions that are open after some markers of a line could be kept on a stack.
`firstUnclosed` keeps of each stack only its depth and where the region at its bottom was opened,
and loses nothing by that as long as no marker is 0:

    the entry of the type = what is kept of its stack             (tracks_foldl_step)

So the region that is picked is the outermost of those of its type that the line leaves open:

    the marker that opens it lies at the bottom of the stack  (firstUnclosed_eq_some)
-/

namespace Highlighting

open Brackets

/-! ## Algorithm -/

/-- The markers of regions of a type. -/
def markersFor (region : Int) (ms : List Marker) : List Marker :=
  ms.filter fun m => m.region = region

/-- The open markers of a type that are not closed after those of a line, the latest first. -/
def openMarkers (region : Int) (ms : List Marker) : List Marker :=
  unmatched Marker.opens [] (markersFor region ms)

namespace OpenRegion

/-- What is kept of a stack of open markers. -/
def summary (region : Int) (stack : List Marker) : Option OpenRegion :=
  stack.getLast?.map fun m => ⟨region, m.offset, stack.length⟩

/-! ## Lists of open regions -/

section
variable (rs : List OpenRegion) (region q : Int) (offset : Nat)

theorem map_region_openOne :
    (openOne region offset rs).map (·.region) = rs.map (·.region) ∨
      region ∉ rs.map (·.region) ∧
        (openOne region offset rs).map (·.region) = rs.map (·.region) ++ [region] := by
  induction rs with
  | nil => exact .inr ⟨by simp, rfl⟩
  | cons r rs ih =>
    unfold openOne
    split
    · exact .inl rfl
    · next hne =>
      rcases ih with ih | ⟨hnot, ih⟩
      · exact .inl (by simp [ih])
      · exact .inr ⟨by simp [hnot, Ne.symm hne], by simp [ih]⟩

theorem closeOne_sublist : ((closeOne region rs).map (·.region)).Sublist (rs.map (·.region)) := by
  induction rs with
  | nil => exact .slnil
  | cons r rs ih =>
    unfold closeOne
    split
    · split
      · exact .cons _ (.refl _)
      · exact .refl _
    · exact ih.cons_cons _

theorem find?_openOne :
    (openOne region offset rs).find? (·.region = q) =
      if region = q then
        some (match rs.find? (·.region = q) with
          | none => ⟨region, offset, 1⟩
          | some r => { r with depth := r.depth + 1 })
      else rs.find? (·.region = q) := by
  induction rs with
  | nil => by_cases hq : region = q <;> simp [openOne, hq]
  | cons r rs ih =>
    unfold openOne
    split
    · next hr =>
      subst hr
      by_cases hq : r.region = q <;> simp [hq]
    · next hr =>
      by_cases hq : r.region = q
      · have hne : ¬region = q := fun h => hr (hq.trans h.symm)
        simp [hq, hne]
      · simpa [hq] using ih

theorem find?_closeOne (hn : (rs.map (·.region)).Nodup) :
    (closeOne region rs).find? (·.region = q) =
      if region = q then
        (rs.find? (·.region = q)).bind fun r =>
          if r.depth = 1 then none else some { r with depth := r.depth - 1 }
      else rs.find? (·.region = q) := by
  induction rs with
  | nil => by_cases hq : region = q <;> simp [closeOne, hq]
  | cons r rs ih =>
    rw [List.map_cons, List.nodup_cons] at hn
    unfold closeOne
    split
    · next hr =>
      subst hr
      have hrest : r.region = q → rs.find? (·.region = q) = none := by
        rintro rfl
        refine List.find?_eq_none.2 fun p hp heq => hn.1 ?_
        rw [← of_decide_eq_true heq]
        exact List.mem_map_of_mem hp
      by_cases hq : r.region = q
      · split
        · next hd => simp [hq, hd, hrest hq]
        · next hd => simp [hq, hd]
      · split <;> simp [hq]
    · next hr =>
      by_cases hq : r.region = q
      · have hne : ¬region = q := fun h => hr (hq.trans h.symm)
        simp [hq, hne]
      · simpa [hq] using ih hn.2

end

/-! ## Stacks -/

theorem summary_cons (region : Int) (m : Marker) (stack : List Marker) :
    summary region (m :: stack) =
      some (match summary region stack with
        | none => ⟨region, m.offset, 1⟩
        | some r => { r with depth := r.depth + 1 }) := by
  cases hstack : stack.getLast? with
  | none =>
    rw [List.getLast?_eq_none_iff] at hstack
    subst hstack
    rfl
  | some last => simp [summary, List.getLast?_cons, hstack]

theorem summary_tail (region : Int) (stack : List Marker) :
    summary region stack.tail =
      (summary region stack).bind fun r =>
        if r.depth = 1 then none else some { r with depth := r.depth - 1 } := by
  match stack with
  | [] => rfl
  | [_] => rfl
  | _ :: m :: stack => simp [summary, List.getLast?_cons]

/-- One more marker is pushed on the stack of its type, or takes the top of it away. -/
theorem openMarkers_concat (q : Int) (ms : List Marker) (m : Marker) :
    openMarkers q (ms ++ [m]) =
      if m.region = q then
        if m.opens then m :: openMarkers q ms else (openMarkers q ms).tail
      else openMarkers q ms := by
  unfold openMarkers markersFor
  rw [List.filter_append]
  by_cases hq : m.region = q
  · rw [unmatched_append]
    simp [hq, unmatched]
  · simp [hq]

/-! ## Steps -/

/-- No type has two entries, and each entry is what is kept of the stack of its type. -/
structure Tracks (ms : List Marker) (rs : List OpenRegion) : Prop where
  nodup : (rs.map (·.region)).Nodup
  kept : ∀ q, rs.find? (·.region = q) = summary q (openMarkers q ms)

theorem Tracks.step {ms : List Marker} {rs : List OpenRegion} (h : Tracks ms rs) (m : Marker)
    (hm : m.value ≠ 0) : Tracks (ms ++ [m]) (step rs m) := by
  unfold OpenRegion.step
  split
  · next hcloses =>
    have hopens : m.opens = false := by
      simp only [Marker.closes, Marker.opens, decide_eq_true_eq, decide_eq_false_iff_not]
        at hcloses ⊢
      omega
    refine ⟨h.nodup.sublist (closeOne_sublist rs m.region), ?_⟩
    intro q
    rw [find?_closeOne rs m.region q h.nodup, h.kept q, openMarkers_concat, hopens]
    split
    · exact (summary_tail q _).symm
    · rfl
  · next hcloses =>
    have hregion : m.region = m.value := by
      simp only [Marker.closes, Marker.region, decide_eq_true_eq] at hcloses ⊢
      omega
    have hopens : m.opens = true := by
      simp only [Marker.closes, Marker.opens, decide_eq_true_eq] at hcloses ⊢
      omega
    constructor
    · rcases map_region_openOne rs m.value m.offset with heq | ⟨hnot, heq⟩
      · rw [heq]
        exact h.nodup
      · rw [heq]
        refine List.nodup_append.2 ⟨h.nodup, List.nodup_singleton _, fun a ha b hb heq => ?_⟩
        rw [List.mem_singleton.1 hb] at heq
        exact hnot (heq ▸ ha)
    · intro q
      rw [find?_openOne, h.kept q, openMarkers_concat, hopens, hregion]
      split
      · next hq =>
        subst hq
        rw [if_pos rfl, summary_cons]
      · rfl

theorem tracks_foldl_step (ms : List Marker) (hms : ∀ m ∈ ms, m.value ≠ 0) :
    Tracks ms (ms.foldl OpenRegion.step []) := by
  induction ms using List.reverseRecOn with
  | nil => exact ⟨List.nodup_nil, fun _ => rfl⟩
  | append_singleton ms m ih =>
    rw [List.foldl_append]
    refine (ih fun x hx => hms x (List.mem_append_left _ hx)).step m (hms m ?_)
    exact List.mem_append_right _ (.head _)

theorem mem_of_leftmost (rs : List OpenRegion) (r : OpenRegion) (h : leftmost rs = some r) :
    r ∈ rs := by
  induction rs with
  | nil => cases h
  | cons a rs ih =>
    unfold leftmost at h
    cases hrest : leftmost rs with
    | none =>
      rw [hrest] at h
      obtain rfl := Option.some.inj h
      exact .head _
    | some q =>
      rw [hrest] at h ih
      dsimp only at h
      split at h
      · obtain rfl := Option.some.inj h
        exact .head _
      · exact .tail _ (ih h)

theorem find?_of_mem (rs : List OpenRegion) (hn : (rs.map (·.region)).Nodup) (r : OpenRegion)
    (hr : r ∈ rs) : rs.find? (·.region = r.region) = some r := by
  induction rs with
  | nil => cases hr
  | cons a rs ih =>
    rw [List.map_cons, List.nodup_cons] at hn
    rcases List.mem_cons.1 hr with rfl | hr
    · simp
    · have hne : a.region ≠ r.region := fun heq => hn.1 (heq ▸ List.mem_map_of_mem hr)
      rw [List.find?_cons_of_neg (by simpa using hne)]
      exact ih hn.2 hr

end OpenRegion

/-- The region that is picked is opened by the open marker of its type that lies at the bottom of
the stack. -/
theorem firstUnclosed_eq_some (ms : List Marker) (hms : ∀ m ∈ ms, m.value ≠ 0) (region : Int)
    (offset : Nat) (h : firstUnclosed ms = some (region, offset)) :
    ∃ outer, (openMarkers region ms).getLast? = some outer ∧ outer.offset = offset := by
  obtain ⟨r, hr, heq⟩ := Option.map_eq_some_iff.1 h
  obtain ⟨rfl, rfl⟩ := Prod.mk.inj heq
  have htracks := OpenRegion.tracks_foldl_step ms hms
  have hfind := OpenRegion.find?_of_mem _ htracks.nodup r (OpenRegion.mem_of_leftmost _ r hr)
  rw [htracks.kept, OpenRegion.summary] at hfind
  obtain ⟨outer, houter, heq⟩ := Option.map_eq_some_iff.1 hfind
  exact ⟨outer, houter, congrArg (·.offset) heq⟩

end Highlighting
