import Highlighting.Contexts
import Highlighting.Line

/-!
# Interning

The table of contexts keeps its laws whatever is interned and however often it is emptied: each
number and each source stands in it once, every number in it has been given out, and every pattern
in it was read from its source.

    t.Sound  →  (t.intern source).2.Sound                                  (Sound.intern)
    t.Sound  →  (t.intern source).2 says of old numbers what t says        (intern_extends)
    interning again, in any later table, gives the same number and nothing new   (intern_again)
-/

namespace Highlighting.Contexts

/-- The laws of the table. -/
structure Sound (t : Contexts) : Prop where
  below : ∀ e ∈ t.live, e.1 < t.nextId
  ids : (t.live.map (·.1)).Nodup
  sources : (t.live.map (·.2.source)).Nodup
  compiled : ∀ id p, (id, p) ∈ t.live → Pattern.compile p.source = .ok p

/-- `u` comes later than `t` and nothing was forgotten in between: what `t` says of the numbers it
has given out, and of the sources it has, holds in `u`. -/
structure Extends (t u : Contexts) : Prop where
  nextId_le : t.nextId ≤ u.nextId
  resolve : ∀ id, id < t.nextId → u.resolve id = t.resolve id
  idOf? : ∀ source id, t.idOf? source = some id → u.idOf? source = some id

/-- The context that a state holds, if any, has been given out. -/
def Issued (t : Contexts) (s : LineState) : Prop :=
  ∀ id, s.context = some id → id < t.nextId

/-! ## What the table says -/

theorem sound_fresh : fresh.Sound :=
  ⟨by simp [fresh], by simp [fresh], by simp [fresh], by simp [fresh]⟩

theorem Sound.emptied (t : Contexts) : t.emptied.Sound :=
  ⟨by simp [Contexts.emptied], by simp [Contexts.emptied], by simp [Contexts.emptied],
    by simp [Contexts.emptied]⟩

theorem mem_of_resolve (t : Contexts) (id : Nat) (p : Pattern) (h : t.resolve id = some p) :
    (id, p) ∈ t.live := by
  obtain ⟨as, bs, hl, -⟩ := List.lookup_eq_some_iff.1 h
  rw [hl]
  simp

theorem lt_of_resolve (t : Contexts) (ht : t.Sound) (id : Nat) (p : Pattern)
    (h : t.resolve id = some p) : id < t.nextId :=
  ht.below _ (mem_of_resolve t id p h)

theorem resolve_of_mem (t : Contexts) (ht : t.Sound) (id : Nat) (p : Pattern)
    (h : (id, p) ∈ t.live) : t.resolve id = some p := by
  obtain ⟨as, bs, hl⟩ := List.append_of_mem h
  refine List.lookup_eq_some_iff.2 ⟨as, bs, hl, ?_⟩
  intro e he
  have hn := ht.ids
  rw [hl, List.map_append, List.nodup_append] at hn
  have := hn.2.2 e.1 (List.mem_map_of_mem he) id (by simp)
  simpa using this.symm

theorem idOf?_eq_some (t : Contexts) (source : String) (id : Nat) (h : t.idOf? source = some id) :
    ∃ p, (id, p) ∈ t.live ∧ p.source = source := by
  obtain ⟨⟨n, p⟩, hf, rfl⟩ := Option.map_eq_some_iff.1 h
  exact ⟨p, List.mem_of_find?_eq_some hf, by simpa using List.find?_some hf⟩

theorem idOf?_of_mem (t : Contexts) (ht : t.Sound) (id : Nat) (p : Pattern)
    (h : (id, p) ∈ t.live) : t.idOf? p.source = some id := by
  obtain ⟨as, bs, hl⟩ := List.append_of_mem h
  have hs := ht.sources
  rw [hl, List.map_append, List.nodup_append] at hs
  have hno : as.find? (fun e => e.2.source == p.source) = none := by
    refine List.find?_eq_none.2 fun e he => ?_
    have := hs.2.2 e.2.source (List.mem_map_of_mem (f := (·.2.source)) he) p.source (by simp)
    simpa using this
  unfold idOf?
  rw [hl, List.find?_append, hno]
  simp

theorem idOf?_eq_none (t : Contexts) (source : String) (h : t.idOf? source = none) :
    ∀ e ∈ t.live, e.2.source ≠ source := by
  intro e he
  have := List.find?_eq_none.1 (Option.map_eq_none_iff.1 h) e he
  simpa using this

/-! ## Later tables -/

namespace Extends

theorem refl (t : Contexts) : Extends t t :=
  ⟨Nat.le_refl _, fun _ _ => rfl, fun _ _ h => h⟩

theorem trans {t u v : Contexts} (h : Extends t u) (k : Extends u v) : Extends t v where
  nextId_le := Nat.le_trans h.nextId_le k.nextId_le
  resolve id hid := (k.resolve id (Nat.lt_of_lt_of_le hid h.nextId_le)).trans (h.resolve id hid)
  idOf? source id hs := k.idOf? source id (h.idOf? source id hs)

end Extends

theorem Issued.mono {t u : Contexts} {s : LineState} (hs : t.Issued s)
    (h : t.nextId ≤ u.nextId) : u.Issued s :=
  fun id hid => Nat.lt_of_lt_of_le (hs id hid) h

theorem issued_normal (t : Contexts) : t.Issued .normal :=
  fun _ h => by cases h

/-! ## Interning -/

/-- The three ways of interning: the source is there, is no pattern, or gets the next number. -/
theorem intern_cases (t : Contexts) (source : String) :
    (∃ id, t.idOf? source = some id ∧ t.intern source = (some id, t)) ∨
    (t.idOf? source = none ∧ (∃ flaw, Pattern.compile source = .error flaw) ∧
      t.intern source = (none, t)) ∨
    (∃ p, t.idOf? source = none ∧ Pattern.compile source = .ok p ∧
      t.intern source = (some t.nextId, ⟨(t.nextId, p) :: t.live, t.nextId + 1⟩)) := by
  unfold intern
  cases hid : t.idOf? source with
  | some id => exact .inl ⟨id, rfl, rfl⟩
  | none =>
    cases hc : Pattern.compile source with
    | error flaw => exact .inr (.inl ⟨rfl, ⟨flaw, rfl⟩, rfl⟩)
    | ok p => exact .inr (.inr ⟨p, rfl, rfl, rfl⟩)

theorem Sound.intern {t : Contexts} (ht : t.Sound) (source : String) :
    (t.intern source).2.Sound := by
  rcases intern_cases t source with ⟨id, -, h⟩ | ⟨-, -, h⟩ | ⟨p, hno, hp, h⟩
  · rw [h]; exact ht
  · rw [h]; exact ht
  · rw [h]
    have hsource := Pattern.compile_source hp
    refine ⟨?_, ?_, ?_, ?_⟩
    · intro e he
      rcases List.mem_cons.1 he with rfl | he
      · exact Nat.lt_succ_self _
      · exact Nat.lt_succ_of_lt (ht.below e he)
    · refine List.nodup_cons.2 ⟨fun hm => ?_, ht.ids⟩
      obtain ⟨e, he, heq⟩ := List.mem_map.1 hm
      have := ht.below e he
      simp only at heq
      omega
    · refine List.nodup_cons.2 ⟨fun hm => ?_, ht.sources⟩
      obtain ⟨e, he, heq⟩ := List.mem_map.1 hm
      exact idOf?_eq_none t source hno e he (heq.trans hsource)
    · intro id q hq
      rcases List.mem_cons.1 hq with heq | hq
      · obtain ⟨-, rfl⟩ := Prod.mk.inj heq
        rw [hsource, hp]
      · exact ht.compiled id q hq

theorem intern_extends (t : Contexts) (source : String) : Extends t (t.intern source).2 := by
  rcases intern_cases t source with ⟨id, -, h⟩ | ⟨-, -, h⟩ | ⟨p, hno, hp, h⟩
  · rw [h]; exact .refl t
  · rw [h]; exact .refl t
  · rw [h]
    refine ⟨Nat.le_succ _, ?_, ?_⟩
    · intro id hid
      have hne : (id == t.nextId) = false := by simp; omega
      simp [Contexts.resolve, List.lookup_cons, hne]
    · intro s id hs
      have hsource := Pattern.compile_source hp
      have hne : (p.source == s) = false := by
        rw [hsource, beq_eq_false_iff_ne]
        rintro rfl
        rw [hno] at hs
        cases hs
      unfold Contexts.idOf? at hs ⊢
      rw [List.find?_cons_of_neg (by simp [hne])]
      exact hs

/-- The number that interning gives resolves to the pattern of the source. -/
theorem intern_resolve (t : Contexts) (ht : t.Sound) (source : String) (id : Nat)
    (h : (t.intern source).1 = some id) :
    ∃ p, Pattern.compile source = .ok p ∧ (t.intern source).2.resolve id = some p := by
  rcases intern_cases t source with ⟨n, hn, hi⟩ | ⟨-, -, hi⟩ | ⟨p, -, hp, hi⟩
  · rw [hi] at h ⊢
    obtain rfl := Option.some.inj h
    obtain ⟨p, hm, rfl⟩ := idOf?_eq_some t source n hn
    exact ⟨p, ht.compiled n p hm, resolve_of_mem t ht n p hm⟩
  · rw [hi] at h; cases h
  · rw [hi] at h ⊢
    obtain rfl := Option.some.inj h
    exact ⟨p, hp, by simp [Contexts.resolve]⟩

/-- What is no pattern gets no number. -/
theorem intern_eq_none (t : Contexts) (ht : t.Sound) (source : String) :
    (t.intern source).1 = none ↔ ∃ flaw, Pattern.compile source = .error flaw := by
  rcases intern_cases t source with ⟨n, hn, hi⟩ | ⟨-, hf, hi⟩ | ⟨p, -, hp, hi⟩
  · rw [hi]
    obtain ⟨p, hm, rfl⟩ := idOf?_eq_some t source n hn
    simp [ht.compiled n p hm]
  · rw [hi]; exact ⟨fun _ => hf, fun _ => rfl⟩
  · rw [hi]; simp [hp]

/-- Interning a source once more, in the table it left or any later one, gives the same number and
changes nothing. -/
theorem intern_again (t u : Contexts) (ht : t.Sound) (hu : u.Sound) (source : String)
    (h : Extends (t.intern source).2 u) : u.intern source = ((t.intern source).1, u) := by
  cases hn : (t.intern source).1 with
  | none =>
    obtain ⟨flaw, hf⟩ := (intern_eq_none t ht source).1 hn
    rcases intern_cases u source with ⟨n, hn, hi⟩ | ⟨-, -, hi⟩ | ⟨p, -, hp, -⟩
    · obtain ⟨p, hm, rfl⟩ := idOf?_eq_some u source n hn
      have := hu.compiled n p hm
      rw [hf] at this
      cases this
    · exact hi
    · rw [hf] at hp; cases hp
  | some id =>
    obtain ⟨p, hp, hr⟩ := intern_resolve t ht source id hn
    have hid := idOf?_of_mem _ (ht.intern source) id p (mem_of_resolve _ id p hr)
    rw [Pattern.compile_source hp] at hid
    unfold intern
    rw [h.idOf? source id hid]

end Highlighting.Contexts
