/-!
# The latest that counts

Where things come one after the other and what comes later overrules what came before, the latest
that has some property counts: the latest definition of a name, the latest line that sets a key.
`Latest` says which one that is, and what happens to it when lists are joined or sifted:

    one more thing at the end    that, if it has the property             (latest_concat)
    two lists joined             that of the second, if it has any        (latest_append)
    a list sifted                what lacks the property means nothing    (latest_filter)
    one more thing inside        nothing, if the property comes again     (latest_insert)
    what a list yields           what its latest of that kind yields      (latest_filterMap)
-/

namespace Highlighting

/-- `a` is the latest of the list that has the property. -/
def Latest {α : Type} (p : α → Prop) (as : List α) (a : α) : Prop :=
  ∃ before after, as = before ++ a :: after ∧ p a ∧ ∀ b ∈ after, ¬p b

variable {α β : Type} {p : α → Prop} {as bs : List α} {a b : α}

namespace Latest

theorem mem (h : Latest p as a) : a ∈ as := by
  obtain ⟨before, after, rfl, -, -⟩ := h
  exact List.mem_append_right before (.head after)

theorem holds (h : Latest p as a) : p a := by
  obtain ⟨-, -, -, ha, -⟩ := h
  exact ha

end Latest

theorem not_latest_nil : ¬Latest p [] a := by
  rintro ⟨before, after, hsplit, -⟩
  exact List.append_ne_nil_of_right_ne_nil before (List.cons_ne_nil a after) hsplit.symm

theorem latest_append : Latest p (as ++ bs) a ↔
    Latest p bs a ∨ (∀ b ∈ bs, ¬p b) ∧ Latest p as a := by
  constructor
  · rintro ⟨before, after, hsplit, ha, hafter⟩
    rcases List.append_eq_append_iff.1 hsplit with ⟨rest, -, hbs⟩ | ⟨rest, has, hrest⟩
    · exact .inl ⟨rest, after, hbs, ha, hafter⟩
    -- The first list ends behind `a`, or `a` stands first in the second.
    · cases rest with
      | nil => exact .inl ⟨[], after, hrest.symm, ha, hafter⟩
      | cons c rest =>
        obtain ⟨rfl, rfl⟩ := List.cons.inj hrest
        obtain ⟨hrest, hbs⟩ := List.forall_mem_append.1 hafter
        exact .inr ⟨hbs, before, rest, has, ha, hrest⟩
  · rintro (⟨before, after, rfl, ha, hafter⟩ | ⟨hbs, before, after, rfl, ha, hafter⟩)
    · exact ⟨as ++ before, after, (List.append_assoc _ _ _).symm, ha, hafter⟩
    · refine ⟨before, after ++ bs, by simp, ha, ?_⟩
      exact List.forall_mem_append.2 ⟨hafter, hbs⟩

theorem latest_singleton : Latest p [b] a ↔ p b ∧ a = b := by
  constructor
  · intro h
    obtain rfl := List.mem_singleton.1 h.mem
    exact ⟨h.holds, rfl⟩
  · rintro ⟨hb, rfl⟩
    exact ⟨[], [], rfl, hb, List.forall_mem_nil _⟩

theorem latest_concat : Latest p (as ++ [b]) a ↔ p b ∧ a = b ∨ ¬p b ∧ Latest p as a := by
  rw [latest_append, latest_singleton, List.forall_mem_singleton]

theorem latest_cons : Latest p (b :: as) a ↔
    Latest p as a ∨ (∀ c ∈ as, ¬p c) ∧ p b ∧ a = b := by
  rw [← List.singleton_append, latest_append, latest_singleton]

/-- There is a latest one as soon as there is one. -/
theorem exists_latest_iff : (∃ a, Latest p as a) ↔ ∃ a ∈ as, p a := by
  constructor
  · rintro ⟨a, h⟩
    exact ⟨a, h.mem, h.holds⟩
  · intro h
    induction as with
    | nil => simp at h
    | cons b as ih =>
      by_cases hlater : ∃ c ∈ as, p c
      · obtain ⟨c, hc⟩ := ih hlater
        exact ⟨c, latest_cons.2 (.inl hc)⟩
      · have hnone : ∀ c ∈ as, ¬p c := fun c hc hpc => hlater ⟨c, hc, hpc⟩
        obtain ⟨a, ha, hpa⟩ := h
        rcases List.mem_cons.1 ha with rfl | ha
        · exact ⟨a, latest_cons.2 (.inr ⟨hnone, hpa, rfl⟩)⟩
        · exact absurd hpa (hnone a ha)

/-- Only what has the property counts, in the order in which it comes. -/
theorem latest_filter [DecidablePred p] : Latest p (as.filter p) a ↔ Latest p as a := by
  induction as with
  | nil => rfl
  | cons b as ih =>
    by_cases hb : p b
    · have hnone : (∀ c ∈ as.filter p, ¬p c) ↔ ∀ c ∈ as, ¬p c := by
        simp only [List.mem_filter, decide_eq_true_eq, and_imp]
        exact ⟨fun h c hc hpc => h c hc hpc hpc, fun h c hc _ => h c hc⟩
      rw [List.filter_cons_of_pos (by simpa using hb), latest_cons, latest_cons, ih, hnone]
    · rw [List.filter_cons_of_neg (by simpa using hb), latest_cons, ih]
      simp [hb]

/-- What comes before another one with the property, or does not have it, changes nothing. -/
theorem latest_insert (h : p b → ∃ c ∈ bs, p c) :
    Latest p (as ++ b :: bs) a ↔ Latest p (as ++ bs) a := by
  by_cases hb : p b
  · obtain ⟨c, hc, hpc⟩ := h hb
    have hsome : ¬∀ b ∈ bs, ¬p b := fun hnone => hnone c hc hpc
    rw [latest_append, latest_append, latest_cons]
    simp [hsome]
  · rw [latest_append, latest_append, latest_cons]
    simp [hb]

/-- What a list yields is, at its latest, what the latest yields that yields such a thing. -/
theorem latest_filterMap {f : α → Option β} {q : β → Prop} {y : β} :
    Latest q (as.filterMap f) y ↔
      ∃ a, Latest (fun a => ∃ y, f a = some y ∧ q y) as a ∧ f a = some y := by
  induction as with
  | nil => simp [not_latest_nil]
  | cons c as ih =>
    simp only [latest_cons, or_and_right, exists_or, ← ih]
    cases hc : f c with
    | none => simp [hc]
    | some z =>
      have hnone : (∀ y ∈ as.filterMap f, ¬q y) ↔ ∀ a ∈ as, ¬∃ y, f a = some y ∧ q y := by
        simp only [List.forall_mem_filterMap, not_exists, not_and]
      rw [List.filterMap_cons_some hc, latest_cons, hnone]
      refine or_congr_right ?_
      constructor
      · rintro ⟨hlater, hz, rfl⟩
        exact ⟨c, ⟨hlater, ⟨y, rfl, hz⟩, rfl⟩, hc⟩
      · rintro ⟨a, ⟨hlater, ⟨x, hx, hqx⟩, rfl⟩, hy⟩
        obtain rfl := Option.some.inj hx
        exact ⟨hlater, hqx, Option.some.inj (hy.symm.trans hc)⟩

end Highlighting
