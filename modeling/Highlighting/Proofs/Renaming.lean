import Highlighting.Proofs.Histories

/-!
# Scanning up to the numbers of contexts

A scan reads and writes the table of contexts, yet what it finds does not depend on the numbers in
it.  Two states that wait for an end of one source, whatever its numbers in their tables, lead to
the same runs and markers and to two such states again:

    Renames t s u v  ↔  Agree t s u v, in tables that keep their laws          (renames_iff_agree)
    Renames t s u v  →  scans from s and v find the same                       (scan_renamed)

The tables may hold quite different contexts, of different histories.
-/

namespace Highlighting

open Contexts (History)

/-! ## States up to numbers -/

/-- The source of the end that a state waits for; none when there is no such context in use. -/
def Contexts.sourceOf (t : Contexts) (s : LineState) : Option String :=
  (s.context.bind t.resolve).map (·.source)

/-- State `s` of table `t` and state `v` of table `u` are inside the same construct, and wait for
an end of the same source, or for none that is known. -/
structure Renames (t : Contexts) (s : LineState) (u : Contexts) (v : LineState) : Prop where
  construct : s.construct = v.construct
  source : t.sourceOf s = u.sourceOf v

/-- The context that a state holds, if any, was given out in this history. -/
def GivenIn (log : List TableEvent) (s : LineState) : Prop :=
  ∀ id, s.context = some id → ∃ source, .interned source (some id) ∈ log

variable {t u : Contexts} {s v : LineState}

theorem Agree.renames (h : Agree t s u v) : Renames t s u v :=
  ⟨h.construct, by rw [Contexts.sourceOf, Contexts.sourceOf, h.meaning]⟩

/-- What a state waits for was read from its source. -/
theorem Contexts.Sound.compile_sourceOf (ht : t.Sound) {p : Pattern}
    (h : s.context.bind t.resolve = some p) : Pattern.compile p.source = .ok p := by
  obtain ⟨id, -, hp⟩ := Option.bind_eq_some_iff.1 h
  exact ht.compiled id p (t.mem_of_resolve id p hp)

/-- A source is read in one way only, so that states which wait for one source wait for one
pattern. -/
theorem renames_iff_agree (ht : t.Sound) (hu : u.Sound) : Renames t s u v ↔ Agree t s u v := by
  refine ⟨fun h => ⟨h.construct, ?_⟩, Agree.renames⟩
  have hsource := h.source
  unfold Contexts.sourceOf at hsource
  cases hp : s.context.bind t.resolve with
  | none =>
    rw [hp, Option.map_none, eq_comm, Option.map_eq_none_iff] at hsource
    exact hsource.symm
  | some p =>
    rw [hp, Option.map_some, eq_comm, Option.map_eq_some_iff] at hsource
    obtain ⟨q, hq, heq⟩ := hsource
    have hcp := ht.compile_sourceOf hp
    have hcq := hu.compile_sourceOf hq
    rw [heq] at hcq
    rw [hq, Except.ok.inj (hcp.symm.trans hcq)]

theorem Contexts.Recorded.issued {log : List TableEvent} (h : Contexts.Recorded log t)
    (hs : GivenIn log s) : t.Issued s :=
  fun id hid => (h.given id).2 (hs id hid)

/-! ## Tables that only grow -/

/-- All that stands in `t` stands in `u` too, behind what has been added. -/
structure Contexts.Keeps (t u : Contexts) : Prop where
  live : t.live <:+ u.live
  resolve : ∀ id p, t.resolve id = some p → u.resolve id = some p
  idOf? : ∀ source id, t.idOf? source = some id → u.idOf? source = some id

namespace Contexts

theorem live_intern (t : Contexts) (source : String) : t.live <:+ (t.intern source).2.live := by
  rcases t.intern_cases source with ⟨id, -, h⟩ | ⟨-, -, h⟩ | ⟨p, -, -, h⟩
  · exact ⟨[], by simp [h]⟩
  · exact ⟨[], by simp [h]⟩
  · exact ⟨[(t.nextId, p)], by simp [h]⟩

theorem live_internAll (t : Contexts) (sources : List String) :
    t.live <:+ (t.internAll sources).live := by
  induction sources generalizing t with
  | nil => exact List.suffix_rfl
  | cons source sources ih => exact (t.live_intern source).trans (ih _)

end Contexts

namespace Language

theorem scan_keeps (l : Language) (text : String) (ht : t.Sound) (hs : t.Issued s) :
    t.Keeps (l.scan t s text).2 where
  live := by
    rw [(l.scan_strides t s text).2]
    exact t.live_internAll _
  resolve id p hp := by
    rw [(l.scan_grows t s text ht hs).2.1.resolve id (t.lt_of_resolve ht id p hp), hp]
  idOf? := (l.scan_grows t s text ht hs).2.1.idOf?

/-- Take two tables with any histories, and in each a state without a context or with one that was
given out, so that both are inside the same construct and what they hold resolves to the same
source or not at all.  Then scans of a line from them find the same runs and markers, and end inside
the same construct with what resolves, in the tables as they are afterwards, to the same source or
not at all; and nothing that stood in a table is lost. -/
theorem scan_renamed (l : Language) (text : String) (log₁ log₂ : List TableEvent)
    (t u : Contexts) (ht : History log₁ t) (hu : History log₂ u) (s v : LineState)
    (hs : GivenIn log₁ s) (hv : GivenIn log₂ v) (h : Renames t s u v) :
    (l.scan t s text).1.runs = (l.scan u v text).1.runs ∧
    (l.scan t s text).1.markers = (l.scan u v text).1.markers ∧
    Renames (l.scan t s text).2 (l.scan t s text).1.endState
      (l.scan u v text).2 (l.scan u v text).1.endState ∧
    t.Keeps (l.scan t s text).2 ∧ u.Keeps (l.scan u v text).2 := by
  have hrt := ht.recorded
  have hru := hu.recorded
  have hst := hrt.issued hs
  have hvu := hru.issued hv
  obtain ⟨hruns, hmarkers, hend, -⟩ := l.scan_agree t u s v text hrt.sound hru.sound hst hvu
    ((renames_iff_agree hrt.sound hru.sound).1 h)
  exact ⟨hruns, hmarkers, hend.renames, l.scan_keeps text hrt.sound hst,
    l.scan_keeps text hru.sound hvu⟩

/-- Within a fence that is known as 0 to one table and as 1 to the other. -/
theorem scan_renamed_fenced :
    let t := (Contexts.fresh.intern "=>").2
    let u := ((Contexts.fresh.intern "b").2.intern "=>").2
    let h := fenced.scan t ⟨1, some 0⟩ "\x7d=>\x7b<=="
    let g := fenced.scan u ⟨1, some 1⟩ "\x7d=>\x7b<=="
    h.1.runs = g.1.runs ∧ h.1.markers = g.1.markers ∧
      Renames h.2 h.1.endState g.2 g.1.endState := by
  obtain ⟨hruns, hmarkers, hend, -⟩ := scan_renamed fenced "\x7d=>\x7b<==" _ _ _ _
    (.intern "=>" .fresh) (.intern "=>" (.intern "b" .fresh)) ⟨1, some 0⟩ ⟨1, some 1⟩
    (by rintro id ⟨⟩; exact ⟨"=>", by decide +kernel⟩)
    (by rintro id ⟨⟩; exact ⟨"=>", by decide +kernel⟩)
    ⟨rfl, by decide +kernel⟩
  exact ⟨hruns, hmarkers, hend⟩

end Language

end Highlighting
