import Mathlib.Data.List.Dedup
import Mathlib.Data.List.Induction
import Highlighting.Proofs.Sharing
import Highlighting.Proofs.Strides

/-!
# The history of the table

Sources are interned, by themselves and while lines are scanned, and now and then the table is
emptied.  `History log t` says that the table has come about in this way, and the log of what
happened tells what is in it:

    History log t  →  t gives a source the number n  ↔  it got n since the last emptying
    History log t  →  n is below the next number  ↔  some source has got n     (History.recorded)
    whatever is done to the table in a session, it has the history that is logged
                                                                             (history_operateAll)

A number is given once, so that one which was given before the table was emptied never resolves
again.
-/

namespace Highlighting

/-- What happens to the table of contexts. -/
inductive TableEvent
  /-- A source was interned, and got a number if it is a pattern. -/
  | interned (source : String) (id : Option Nat)
  /-- Every context was forgotten. -/
  | emptied
  deriving Repr, DecidableEq

/-- The source that was interned. -/
def TableEvent.source? : TableEvent → Option String
  | interned source _ => some source
  | emptied => none

/-- What has happened since the table was emptied for the last time. -/
def recent (log : List TableEvent) : List TableEvent :=
  log.foldl (fun es e => if e = .emptied then [] else es ++ [e]) []

@[simp] theorem recent_interned (log : List TableEvent) (source : String) (id : Option Nat) :
    recent (log ++ [.interned source id]) = recent log ++ [.interned source id] := by
  simp [recent]

@[simp] theorem recent_emptied (log : List TableEvent) : recent (log ++ [.emptied]) = [] := by
  simp [recent]

theorem recent_append (xs ys : List TableEvent) (h : .emptied ∉ ys) :
    recent (xs ++ ys) = recent xs ++ ys := by
  induction ys generalizing xs with
  | nil => simp
  | cons e ys ih =>
    rw [List.append_cons, ih _ fun hys => h (.tail _ hys)]
    cases e with
    | interned source id => simp
    | emptied => exact absurd (.head _) h

theorem mem_recent {xs ys : List TableEvent} (source : String) (id : Option Nat)
    (h : .emptied ∉ ys) : .interned source id ∈ recent (xs ++ .interned source id :: ys) := by
  rw [List.append_cons, recent_append _ _ h, recent_interned]
  simp

theorem recent_suffix (log : List TableEvent) : recent log <:+ log := by
  induction log using List.reverseRecOn with
  | nil => exact List.suffix_rfl
  | append_singleton log e ih =>
    cases e with
    | interned source id =>
      rw [recent_interned]
      obtain ⟨front, hfront⟩ := ih
      exact ⟨front, by rw [← List.append_assoc, hfront]⟩
    | emptied =>
      rw [recent_emptied]
      exact List.nil_suffix

namespace Contexts

/-! ## Interning -/

/-- What happens when some sources are interned, one after the other. -/
def internings (t : Contexts) : List String → List TableEvent
  | [] => []
  | source :: sources =>
    .interned source (t.intern source).1 :: (t.intern source).2.internings sources

theorem idOf?_intern (t : Contexts) (source s : String) :
    (t.intern source).2.idOf? s = if s = source then (t.intern source).1 else t.idOf? s := by
  rcases t.intern_cases source with ⟨id, hid, h⟩ | ⟨hno, -, h⟩ | ⟨p, hno, hp, h⟩
  · rw [h]
    split
    · next hs => rw [hs, hid]
    · rfl
  · rw [h]
    split
    · next hs => rw [hs, hno]
    · rfl
  · rw [h]
    have hsource := Pattern.compile_source hp
    unfold idOf?
    split
    · next hs => simp [hs, hsource]
    · next hs =>
      rw [List.find?_cons_of_neg (by simpa [hsource] using Ne.symm hs)]

theorem intern_of_idOf? (t : Contexts) (source : String) (id : Nat)
    (h : t.idOf? source = some id) : t.intern source = (some id, t) := by
  unfold intern
  rw [h]

/-- What is no pattern leaves the table as it was. -/
theorem intern_flawed (t : Contexts) (ht : t.Sound) (source : String) (flaw : Flaw)
    (h : Pattern.compile source = .error flaw) : t.intern source = (none, t) := by
  have hnone := (t.intern_eq_none ht source).2 ⟨flaw, h⟩
  rcases t.intern_cases source with ⟨id, -, hi⟩ | ⟨-, -, hi⟩ | ⟨p, -, -, hi⟩
  · rw [hi] at hnone; cases hnone
  · exact hi
  · rw [hi] at hnone; cases hnone

/-- The numbers given so far are the former ones and that which interning gives. -/
theorem lt_nextId_intern (t : Contexts) (ht : t.Sound) (source : String) (n : Nat) :
    n < (t.intern source).2.nextId ↔ n < t.nextId ∨ (t.intern source).1 = some n := by
  rcases t.intern_cases source with ⟨id, hid, h⟩ | ⟨-, -, h⟩ | ⟨p, -, -, h⟩
  · rw [h]
    obtain ⟨p, hp, -⟩ := t.idOf?_eq_some source id hid
    have := ht.below _ hp
    simp only [Option.some.injEq]
    omega
  · rw [h]; simp
  · rw [h]
    simp only [Option.some.injEq]
    omega

/-! ## Histories -/

/-- The table has come about by these events, the oldest first. -/
inductive History : List TableEvent → Contexts → Prop
  | fresh : History [] .fresh
  | intern {log : List TableEvent} {t : Contexts} (source : String) : History log t →
      History (log ++ [.interned source (t.intern source).1]) (t.intern source).2
  | empty {log : List TableEvent} {t : Contexts} : History log t →
      History (log ++ [.emptied]) t.emptied

/-- What a log tells about the table. -/
structure Recorded (log : List TableEvent) (t : Contexts) : Prop where
  sound : t.Sound
  inUse : ∀ source id, t.idOf? source = some id ↔ .interned source (some id) ∈ recent log
  given : ∀ id, id < t.nextId ↔ ∃ source, .interned source (some id) ∈ log
  answered : ∀ source id, .interned source id ∈ log →
    (id = none ↔ ∃ flaw, Pattern.compile source = .error flaw)

theorem recorded_fresh : Recorded [] .fresh :=
  ⟨sound_fresh, by simp [idOf?, fresh, recent], by simp [fresh], by simp⟩

theorem Recorded.intern {log : List TableEvent} {t : Contexts} (h : Recorded log t)
    (source : String) :
    Recorded (log ++ [.interned source (t.intern source).1]) (t.intern source).2 where
  sound := h.sound.intern source
  inUse s id := by
    rw [idOf?_intern, recent_interned, List.mem_append, List.mem_singleton, ← h.inUse s id]
    split
    · next hs =>
      subst hs
      constructor
      · intro hid
        exact .inr (by rw [hid])
      · rintro (hid | hid)
        · rw [t.intern_of_idOf? s id hid]
        · exact (TableEvent.interned.inj hid).2.symm
    · next hs =>
      refine ⟨.inl, ?_⟩
      rintro (hid | hid)
      · exact hid
      · exact absurd (TableEvent.interned.inj hid).1 hs
  given id := by
    rw [t.lt_nextId_intern h.sound, h.given]
    constructor
    · rintro (⟨s, hs⟩ | hid)
      · exact ⟨s, List.mem_append_left _ hs⟩
      · exact ⟨source, by simp [hid]⟩
    · rintro ⟨s, hs⟩
      rcases List.mem_append.1 hs with hs | hs
      · exact .inl ⟨s, hs⟩
      · exact .inr (TableEvent.interned.inj (List.mem_singleton.1 hs)).2.symm
  answered s id hs := by
    rcases List.mem_append.1 hs with hs | hs
    · exact h.answered s id hs
    · obtain ⟨rfl, rfl⟩ := TableEvent.interned.inj (List.mem_singleton.1 hs)
      exact t.intern_eq_none h.sound s

theorem Recorded.empty {log : List TableEvent} {t : Contexts} (h : Recorded log t) :
    Recorded (log ++ [.emptied]) t.emptied where
  sound := .emptied t
  inUse := by simp [idOf?, emptied]
  given id := by
    rw [show t.emptied.nextId = t.nextId from rfl, h.given]
    simp
  answered s id hs := h.answered s id (by simpa using hs)

namespace History

variable {log xs ys : List TableEvent} {t : Contexts}

theorem recorded (h : History log t) : Recorded log t := by
  induction h with
  | fresh => exact recorded_fresh
  | intern source _ ih => exact ih.intern source
  | empty _ ih => exact ih.empty

/-- The last event is one of the two that there are. -/
theorem snoc_cases {e : TableEvent} (h : History (log ++ [e]) t) :
    (∃ source u, History log u ∧ e = .interned source (u.intern source).1 ∧
      t = (u.intern source).2) ∨
    ∃ u, History log u ∧ e = .emptied ∧ t = u.emptied := by
  generalize hlog : log ++ [e] = log' at h
  cases h with
  | fresh => simp at hlog
  | @intern _ u source hu =>
    obtain ⟨rfl, he⟩ := List.append_inj' hlog rfl
    exact .inl ⟨source, u, hu, List.singleton_inj.1 he, rfl⟩
  | @empty _ u hu =>
    obtain ⟨rfl, he⟩ := List.append_inj' hlog rfl
    exact .inr ⟨u, hu, List.singleton_inj.1 he, rfl⟩

/-- A table with a history was there at each moment of it. -/
theorem of_append (h : History (xs ++ ys) t) : ∃ u, History xs u := by
  induction ys using List.reverseRecOn generalizing t with
  | nil => exact ⟨t, by simpa using h⟩
  | append_singleton ys e ih =>
    rw [← List.append_assoc] at h
    rcases h.snoc_cases with ⟨source, u, hu, -⟩ | ⟨u, hu, -⟩
    · exact ih hu
    · exact ih hu

/-- When a source was interned, it got the number that the table of that moment had for it. -/
theorem at_interned {source : String} {id : Option Nat}
    (h : History (xs ++ .interned source id :: ys) t) :
    ∃ u, History xs u ∧ (u.intern source).1 = id := by
  rw [List.append_cons] at h
  obtain ⟨v, hv⟩ := of_append h
  rcases hv.snoc_cases with ⟨s, u, hu, he, -⟩ | ⟨u, -, he, -⟩
  · obtain ⟨rfl, rfl⟩ := TableEvent.interned.inj he
    exact ⟨u, hu, rfl⟩
  · cases he

/-- What got a number is in use until the table is emptied. -/
theorem exists_resolve {source : String} {id : Nat}
    (h : History (xs ++ .interned source (some id) :: ys) t) (hempty : .emptied ∉ ys) :
    ∃ p, t.resolve id = some p ∧ p.source = source := by
  have hr := h.recorded
  obtain ⟨p, hp, hsource⟩ := t.idOf?_eq_some source id
    ((hr.inUse source id).2 (mem_recent source (some id) hempty))
  exact ⟨p, t.resolve_of_mem hr.sound id p hp, hsource⟩

/-- What got a number is no longer in use once the table has been emptied. -/
theorem resolve_eq_none {source : String} {id : Nat}
    (h : History (xs ++ .interned source (some id) :: ys) t) (hempty : .emptied ∈ ys) :
    t.resolve id = none := by
  induction ys using List.reverseRecOn generalizing t with
  | nil => cases hempty
  | append_singleton ys e ih =>
    rw [← List.cons_append, ← List.append_assoc] at h
    rcases h.snoc_cases with ⟨s, u, hu, rfl, rfl⟩ | ⟨u, -, -, rfl⟩
    · have hgiven : id < u.nextId := (hu.recorded.given id).2 ⟨source, by simp⟩
      rw [(u.intern_extends s).resolve id hgiven]
      exact ih hu (by simpa using hempty)
    · rfl

/-- Until the table is emptied, a source gets the answer that it got before. -/
theorem answer_eq {source : String} {i j : Option Nat}
    (h : History (xs ++ .interned source i :: ys) t) (hempty : .emptied ∉ ys)
    (hj : (t.intern source).1 = j) : i = j := by
  have hr := h.recorded
  cases i with
  | none =>
    obtain ⟨flaw, hflaw⟩ := (hr.answered source none (by simp)).1 rfl
    rw [← hj, t.intern_flawed hr.sound source flaw hflaw]
  | some id =>
    have hid := (hr.inUse source id).2 (mem_recent source (some id) hempty)
    rw [← hj, t.intern_of_idOf? source id hid]

/-- Until the table is emptied, a number is given to no other source. -/
theorem source_eq {p q : String} {id : Nat} (h : History (xs ++ .interned p (some id) :: ys) t)
    (hempty : .emptied ∉ ys) (hq : (t.intern q).1 = some id) : p = q := by
  have hr := h.recorded
  obtain ⟨a, ha, hp⟩ := h.exists_resolve hempty
  obtain ⟨b, hb, hres⟩ := t.intern_resolve hr.sound q id hq
  rw [(t.intern_extends q).resolve id (t.lt_of_resolve hr.sound id a ha), ha] at hres
  obtain rfl := Option.some.inj hres
  rw [← hp, Pattern.compile_source hb]

/-- A source that is not in use gets a number that nothing got before. -/
theorem not_mem_of_created {source : String} {id : Nat} (h : History log t)
    (hid : (t.intern source).1 = some id) (hnew : ∀ i, .interned source i ∉ recent log)
    (other : String) : .interned other (some id) ∉ log := by
  have hr := h.recorded
  intro hmem
  have hlt : id < t.nextId := (hr.given id).2 ⟨other, hmem⟩
  rcases t.intern_cases source with ⟨n, hn, -⟩ | ⟨-, -, hi⟩ | ⟨p, -, -, hi⟩
  · exact hnew _ ((hr.inUse source n).1 hn)
  · rw [hi] at hid
    cases hid
  · rw [hi] at hid
    obtain rfl := Option.some.inj hid
    exact Nat.lt_irrefl _ hlt

/-- The history goes on with sources that are interned one after the other. -/
theorem internAll (h : History log t) (sources : List String) :
    History (log ++ t.internings sources) (t.internAll sources) := by
  induction sources generalizing log t with
  | nil => rw [internings, List.append_nil]; exact h
  | cons source sources ih =>
    rw [internings, List.append_cons]
    exact ih (h.intern source)

end History

/-- The sources that have been interned since the last emptying and are patterns, each once. -/
def sourcesInUse (log : List TableEvent) : List String :=
  (((recent log).filterMap (·.source?)).filter fun source =>
    (Pattern.compile source).isOk).dedup

/-- The table holds a context for each of the patterns interned since it was emptied. -/
theorem History.size_eq {log : List TableEvent} {t : Contexts} (h : History log t) :
    t.size = (sourcesInUse log).length := by
  have hr := h.recorded
  have hperm : (t.live.map (·.2.source)).Perm (sourcesInUse log) := by
    refine (List.perm_ext_iff_of_nodup hr.sound.sources (List.nodup_dedup _)).2 fun source => ?_
    rw [List.mem_dedup, List.mem_filter, List.mem_filterMap]
    constructor
    · intro hmem
      obtain ⟨⟨id, p⟩, he, rfl⟩ := List.mem_map.1 hmem
      refine ⟨⟨_, (hr.inUse _ id).1 (t.idOf?_of_mem hr.sound id p he), rfl⟩, ?_⟩
      rw [hr.sound.compiled id p he]
      rfl
    · rintro ⟨⟨e, he, hsource⟩, hok⟩
      cases e with
      | emptied => cases hsource
      | interned s id =>
        obtain rfl := Option.some.inj hsource
        have hlog := (recent_suffix log).mem he
        cases id with
        | none =>
          obtain ⟨flaw, hflaw⟩ := (hr.answered s none hlog).1 rfl
          rw [hflaw] at hok
          cases hok
        | some id =>
          obtain ⟨p, hp, rfl⟩ := t.idOf?_eq_some s id ((hr.inUse s id).2 he)
          exact List.mem_map_of_mem (f := (·.2.source)) hp
  rw [← hperm.length_eq, List.length_map]
  rfl

end Contexts

/-! ## What is done to the table -/

/-- What can be done to the table that the buffers of a session share. -/
inductive TableOp
  | intern (source : String)
  | resolve (id : Nat)
  /-- Time passes: so much before each of the looks at the clock to come. -/
  | wait (pauses : List Nat)
  | reset
  | suppress (on : Bool)
  /-- A line is scanned, begun in a state. -/
  | scan (language : Language) (state : LineState) (text : String)

namespace Shared

/-- What happens to the table, and what is shared afterwards. -/
def operate (s : Shared) : TableOp → List TableEvent × Shared
  | .intern source => ([.interned source (s.intern source).1], (s.intern source).2)
  | .resolve _ => ([], s)
  | .wait pauses => ([], s.wait pauses)
  | .reset => (if s.reset.1 then [.emptied] else [], s.reset.2)
  | .suppress on => ([], s.suppress on)
  | .scan l state text =>
    (s.contexts.internings ((l.strides s.contexts state text).flatMap Stride.sources),
      { s with contexts := (l.scan s.contexts state text).2 })

/-- The log of all that happens to the table, and what is shared in the end. -/
def operateAll (s : Shared) : List TableOp → List TableEvent × Shared
  | [] => ([], s)
  | op :: ops =>
    let (es, s) := s.operate op
    let (log, s) := operateAll s ops
    (es ++ log, s)

open Contexts (History)

variable {log : List TableEvent} {s : Shared}

theorem history_operate (h : History log s.contexts) (op : TableOp) :
    History (log ++ (s.operate op).1) (s.operate op).2.contexts := by
  cases op with
  | intern source => exact h.intern source
  | resolve id => rw [operate, List.append_nil]; exact h
  | wait pauses => rw [operate, List.append_nil]; exact h
  | reset =>
    rcases s.reset_cases with ⟨since, pauses, -, hreset⟩ | ⟨since, pauses, hreset⟩
    · rw [operate, hreset]; exact h.empty
    · rw [operate, hreset, if_neg Bool.false_ne_true, List.append_nil]; exact h
  | suppress on => rw [operate, List.append_nil]; exact h
  | scan l state text =>
    rw [operate, (l.scan_strides s.contexts state text).2]
    exact h.internAll _

/-- Whatever is done to the table, it has the history that is logged. -/
theorem history_operateAll (h : History log s.contexts) (ops : List TableOp) :
    History (log ++ (s.operateAll ops).1) (s.operateAll ops).2.contexts := by
  induction ops generalizing log s with
  | nil => rw [operateAll, List.append_nil]; exact h
  | cons op ops ih =>
    simp only [operateAll]
    rw [← List.append_assoc]
    exact ih (history_operate h op)

/-- The table keeps what the log of its history promises. -/
structure Faithful (log : List TableEvent) (s : Shared) : Prop where
  /-- A pattern that is interned gets a number, and the number resolves to it. -/
  interns : ∀ source p, Pattern.compile source = .ok p → p.source = source ∧
    ∃ id, (s.intern source).1 = some id ∧ (s.intern source).2.contexts.resolve id = some p
  /-- The number goes on resolving to it until the table is emptied, -/
  resolves : ∀ xs ys source id, log = xs ++ .interned source (some id) :: ys → .emptied ∉ ys →
    ∃ p, s.contexts.resolve id = some p ∧ p.source = source
  /-- and never again from then on. -/
  gone : ∀ xs ys source id, log = xs ++ .interned source (some id) :: ys → .emptied ∈ ys →
    s.contexts.resolve id = none
  /-- As long as the table is not emptied, one source gets one answer, and one number stands for
  one source. -/
  same : ∀ xs ys zs p q i j,
    log = xs ++ .interned p i :: ys ++ .interned q j :: zs → .emptied ∉ ys →
      (p = q → i = j) ∧ ∀ id, i = some id → j = some id → p = q
  /-- There are as many contexts as patterns have been interned since the last emptying. -/
  count : s.contexts.size = (Contexts.sourcesInUse log).length
  /-- A source that was not interned since the last emptying gets a number that nothing got
  before. -/
  created : ∀ xs ys source id, log = xs ++ .interned source (some id) :: ys →
    (∀ i, .interned source i ∉ recent xs) → ∀ other, .interned other (some id) ∉ xs
  /-- What is no pattern leaves everything as it was, -/
  flawed : ∀ source flaw, Pattern.compile source = .error flaw → s.intern source = (none, s)
  /-- and so does a refused reset to the table. -/
  refused : s.reset.1 = false → s.reset.2.contexts = s.contexts

/-- Whatever was done to the table of a session, and in whatever order, it keeps what the log of its
history promises. -/
theorem faithful_operateAll (resetDelay : Nat) (sums : Sums) (ops : List TableOp) :
    Faithful ((fresh resetDelay sums).operateAll ops).1
      ((fresh resetDelay sums).operateAll ops).2 := by
  have h : History ((fresh resetDelay sums).operateAll ops).1
      ((fresh resetDelay sums).operateAll ops).2.contexts := @history_operateAll [] _ .fresh ops
  generalize (fresh resetDelay sums).operateAll ops = run at h
  obtain ⟨log, s⟩ := run
  have hsound := h.recorded.sound
  refine ⟨?_, ?_, ?_, ?_, h.size_eq, ?_, ?_, ?_⟩
  · intro source p hp
    refine ⟨Pattern.compile_source hp, ?_⟩
    cases hid : (s.intern source).1 with
    | none =>
      obtain ⟨flaw, hflaw⟩ := (s.contexts.intern_eq_none hsound source).1 hid
      rw [hp] at hflaw
      cases hflaw
    | some id =>
      obtain ⟨q, hq, hres⟩ := s.contexts.intern_resolve hsound source id hid
      obtain rfl := Except.ok.inj (hp.symm.trans hq)
      exact ⟨id, rfl, hres⟩
  · rintro xs ys source id rfl hempty
    exact h.exists_resolve hempty
  · rintro xs ys source id rfl hempty
    exact h.resolve_eq_none hempty
  · rintro xs ys zs p q i j rfl hempty
    obtain ⟨u, hu, hj⟩ := h.at_interned
    constructor
    · rintro rfl
      exact hu.answer_eq hempty hj
    · rintro id rfl rfl
      exact hu.source_eq hempty hj
  · rintro xs ys source id rfl hnew other
    obtain ⟨u, hu, hid⟩ := h.at_interned
    exact hu.not_mem_of_created hid hnew other
  · intro source flaw hflaw
    rw [intern, s.contexts.intern_flawed hsound source flaw hflaw]
  · intro hrefused
    rcases s.reset_cases with ⟨since, pauses, -, hreset⟩ | ⟨since, pauses, hreset⟩
    · rw [hreset] at hrefused
      cases hrefused
    · rw [hreset]

/-- A number that was given is not given again, even to its own source. -/
example : ((fresh 0).operateAll [.intern "a", .intern "(", .intern "b", .intern "a", .reset,
    .intern "a"]).1 = [.interned "a" (some 0), .interned "(" none, .interned "b" (some 1),
      .interned "a" (some 0), .emptied, .interned "a" (some 2)] := by
  decide +kernel

end Shared

end Highlighting
