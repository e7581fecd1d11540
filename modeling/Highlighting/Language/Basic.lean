import Highlighting.Language.Rule

/-!
# Languages

A language is an ordered set of rules and constructs with some settings.  Wherever a token is
looked for, the earliest one wins; of those at one place a construct wins over a rule, a rule of
higher priority over one of lower, and what was added earlier over what was added later.
-/

namespace Highlighting

open Text (Cursor)

/-- How the regions of a language are found. -/
inductive FoldStyle
  /-- By the markers of the tokens. -/
  | token
  /-- By indentation, which finds none. -/
  | indentation
  deriving Repr, DecidableEq

/-- A language definition. -/
structure Language where
  name : String
  /-- Extensions of the files that are in the language, without the dot. -/
  extensions : List String
  /-- In the order in which they are preferred. -/
  rules : List TokenRule
  constructs : List Construct
  folding : FoldStyle
  /-- The way of indenting that documents in the language prefer. -/
  indentation : Option String
  /-- Is nothing highlighted at all? -/
  plain : Bool
  deriving Repr, DecidableEq

namespace Language

/-- A language without rules. -/
def named (name : String) : Language :=
  ⟨name, [], [], [], .token, none, false⟩

/-- The name of the language of plain text. -/
def plainName : String :=
  "None"

/-- Plain text, in which nothing is highlighted. -/
def plainText : Language :=
  { named plainName with plain := true }

/-- The language, used for files with one more extension. -/
def addExtension (l : Language) (extension : String) : Language :=
  { l with extensions := l.extensions ++ [extension] }

/-- Puts a rule behind all that have its priority or a higher one. -/
def insertRule (r : TokenRule) : List TokenRule → List TokenRule
  | [] => [r]
  | a :: as => if a.priority < r.priority then r :: a :: as else a :: insertRule r as

/-- The language with one more rule.  Rules stand by descending priority, and in the order of their
addition where priorities are equal. -/
def addRule (l : Language) (r : TokenRule) : Language :=
  { l with rules := insertRule r l.rules }

/-- The language with one more construct. -/
def addConstruct (l : Language) (k : Construct) : Language :=
  { l with constructs := l.constructs ++ [k] }

/-- Is there a construct that makes its end on the spot? -/
def usesContexts (l : Language) : Bool :=
  l.constructs.any (·.isDerived)

/-- The construct of a number; of several with one number, the first. -/
def construct? (l : Language) (id : Nat) : Option Construct :=
  l.constructs.find? (·.id == id)

/-- The construct that a state is inside of, and the pattern that ends it; none when there is no
such construct or its context is gone. -/
def resume? (l : Language) (s : LineState) (t : Contexts) : Option (Construct × Pattern) :=
  (l.construct? s.construct).bind fun k => (k.endPattern? s t).map fun p => (k, p)

/-! ## The next token -/

/-- A token found on a line. -/
inductive Token
  | construct (k : Construct) (m : Match)
  | rule (r : TokenRule) (m : Match)

/-- Of what is found, the earliest; of two at one place, the one listed first. -/
def earliest {α : Type} (find : α → Option Match) : List α → Option (α × Match)
  | [] => none
  | a :: as =>
    match find a, earliest find as with
    | none, later => later
    | some m, none => some (a, m)
    | some m, some (b, n) =>
      if n.start.offset < m.start.offset then some (b, n) else some (a, m)

/-- The next token at or after a place. -/
def nextToken (l : Language) (c : Cursor) : Option Token :=
  match earliest (·.findStart c) l.constructs, earliest (·.find c) l.rules with
  | none, none => none
  | some (k, m), none => some (.construct k m)
  | none, some (r, n) => some (.rule r n)
  | some (k, m), some (r, n) =>
    if n.start.offset < m.start.offset then some (.rule r n) else some (.construct k m)

/-! ## Lemmas -/

/-- Adding rules changes the rules alone, whatever else the language has. -/
theorem foldl_addRule (l : Language) (rs : List TokenRule) : rs.foldl addRule l =
    { l with rules := rs.foldl (fun ordered r => insertRule r ordered) l.rules } := by
  induction rs generalizing l with
  | nil => rfl
  | cons r rs ih => exact ih (l.addRule r)

theorem foldl_addConstruct (l : Language) (ks : List Construct) :
    ks.foldl addConstruct l = { l with constructs := l.constructs ++ ks } := by
  induction ks generalizing l with
  | nil => rw [List.append_nil]; rfl
  | cons k ks ih => rw [List.foldl_cons, ih, addConstruct, List.append_assoc]; rfl

theorem construct?_eq_some {l : Language} {id : Nat} {k : Construct}
    (h : l.construct? id = some k) : k ∈ l.constructs ∧ k.id = id :=
  ⟨List.mem_of_find?_eq_some h, by simpa using List.find?_some h⟩

theorem resume?_eq_some_iff {l : Language} {s : LineState} {t : Contexts} {k : Construct}
    {p : Pattern} :
    l.resume? s t = some (k, p) ↔
      l.construct? s.construct = some k ∧ k.endPattern? s t = some p := by
  simp only [resume?, Option.bind_eq_some_iff, Option.map_eq_some_iff, Prod.mk.injEq]
  constructor
  · rintro ⟨_, hk, _, hp, rfl, rfl⟩
    exact ⟨hk, hp⟩
  · rintro ⟨hk, hp⟩
    exact ⟨k, hk, p, hp, rfl, rfl⟩

theorem earliest_eq_none_iff {α : Type} {find : α → Option Match} {as : List α} :
    earliest find as = none ↔ ∀ a ∈ as, find a = none := by
  induction as with
  | nil => simp [earliest]
  | cons a as ih =>
    rw [List.forall_mem_cons, ← ih, earliest]
    cases find a with
    | none => simp
    | some m =>
      cases earliest find as with
      | none => simp
      | some found => simp only; split <;> simp

theorem earliest_le {α : Type} {find : α → Option Match} {a b : α} {m n : Match} {as : List α}
    (h : earliest find as = some (a, m)) (hmem : b ∈ as) (hn : find b = some n) :
    m.start.offset ≤ n.start.offset := by
  induction as generalizing a m with
  | nil => cases hmem
  | cons c cs ih =>
    unfold earliest at h
    split at h
    · next hc =>
      rcases List.mem_cons.1 hmem with rfl | hmem
      · rw [hc] at hn
        cases hn
      · exact ih h hmem
    · next hc hcs =>
      cases h
      rcases List.mem_cons.1 hmem with rfl | hmem
      · obtain rfl := Option.some.inj (hc.symm.trans hn)
        exact Nat.le_refl _
      · rw [earliest_eq_none_iff.1 hcs b hmem] at hn
        cases hn
    · next o d p hc hcs =>
      have hle : min o.start.offset p.start.offset ≤ n.start.offset := by
        rcases List.mem_cons.1 hmem with rfl | hmem
        · obtain rfl := Option.some.inj (hc.symm.trans hn)
          exact Nat.min_le_left _ _
        · exact Nat.le_trans (Nat.min_le_right _ _) (ih hcs hmem)
      split at h <;> cases h <;> omega

/-- All that is found for what is listed before begins later. -/
theorem earliest_split {α : Type} {find : α → Option Match} {a : α} {m : Match} {as : List α}
    (h : earliest find as = some (a, m)) : ∃ front back, as = front ++ a :: back ∧
      find a = some m ∧ ∀ b ∈ front, ∀ n, find b = some n → m.start.offset < n.start.offset := by
  induction as generalizing a m with
  | nil => cases h
  | cons b bs ih =>
    unfold earliest at h
    split at h
    · next hb =>
      obtain ⟨front, back, rfl, ha, hfront⟩ := ih h
      refine ⟨b :: front, back, rfl, ha, List.forall_mem_cons.2 ⟨fun n hn => ?_, hfront⟩⟩
      rw [hb] at hn
      cases hn
    · next hb _ =>
      cases h
      exact ⟨[], bs, rfl, hb, fun _ hmem => absurd hmem List.not_mem_nil⟩
    · next n c o hb hbs =>
      split at h
      · next hlt =>
        cases h
        obtain ⟨front, back, rfl, hc, hfront⟩ := ih hbs
        refine ⟨b :: front, back, rfl, hc, List.forall_mem_cons.2 ⟨fun n' hn' => ?_, hfront⟩⟩
        obtain rfl := Option.some.inj (hb.symm.trans hn')
        exact hlt
      · cases h
        exact ⟨[], bs, rfl, hb, fun _ hmem => absurd hmem List.not_mem_nil⟩

theorem find_of_earliest {α : Type} {find : α → Option Match} {a : α} {m : Match} {as : List α}
    (h : earliest find as = some (a, m)) : a ∈ as ∧ find a = some m := by
  obtain ⟨front, back, rfl, hm, -⟩ := earliest_split h
  exact ⟨List.mem_append_right front (.head back), hm⟩

theorem nextToken_eq_none_iff {l : Language} {c : Cursor} :
    l.nextToken c = none ↔
      (∀ k ∈ l.constructs, k.findStart c = none) ∧ ∀ r ∈ l.rules, r.find c = none := by
  rw [← earliest_eq_none_iff, ← earliest_eq_none_iff]
  unfold nextToken
  split
  · next hk hr => simp [hk, hr]
  · next hk hr => simp [hk]
  · next hk hr => simp [hr]
  · next hk hr => split <;> simp [hk]

theorem nextToken_atEnd (l : Language) (c : Cursor) (hc : c.atEnd = true) :
    l.nextToken c = none :=
  nextToken_eq_none_iff.2 ⟨fun _ _ => if_pos hc, fun _ _ => if_pos hc⟩

theorem not_atEnd_of_nextToken {l : Language} {c : Cursor} {token : Token}
    (h : l.nextToken c = some token) : ¬c.atEnd = true := by
  intro hc
  rw [l.nextToken_atEnd c hc] at h
  cases h

/-- A construct that is next is the earliest, and no rule has anything before it. -/
theorem earliest_of_nextToken_construct {l : Language} {c : Cursor} {k : Construct} {m : Match}
    (h : l.nextToken c = some (.construct k m)) :
    earliest (·.findStart c) l.constructs = some (k, m) ∧
      ∀ r ∈ l.rules, ∀ n, r.find c = some n → m.start.offset ≤ n.start.offset := by
  unfold nextToken at h
  split at h
  · cases h
  · next hk hr =>
    cases h
    refine ⟨hk, fun r hmem n hn => ?_⟩
    rw [earliest_eq_none_iff.1 hr r hmem] at hn
    cases hn
  · cases h
  · next hk hr =>
    split at h
    · cases h
    · next hle =>
      cases h
      exact ⟨hk, fun r hmem n hn => Nat.le_trans (Nat.le_of_not_lt hle) (earliest_le hr hmem hn)⟩

/-- A rule that is next is the earliest, and each construct has what it has behind it. -/
theorem earliest_of_nextToken_rule {l : Language} {c : Cursor} {r : TokenRule} {m : Match}
    (h : l.nextToken c = some (.rule r m)) :
    earliest (·.find c) l.rules = some (r, m) ∧
      ∀ k ∈ l.constructs, ∀ n, k.findStart c = some n → m.start.offset < n.start.offset := by
  unfold nextToken at h
  split at h
  · cases h
  · cases h
  · next hk hr =>
    cases h
    refine ⟨hr, fun k hmem n hn => ?_⟩
    rw [earliest_eq_none_iff.1 hk k hmem] at hn
    cases hn
  · next hk hr =>
    split at h
    · next hlt =>
      cases h
      exact ⟨hr, fun k hmem n hn => Nat.lt_of_lt_of_le hlt (earliest_le hk hmem hn)⟩
    · cases h

theorem nextToken_construct {l : Language} {c : Cursor} {k : Construct} {m : Match}
    (h : l.nextToken c = some (.construct k m)) : k ∈ l.constructs ∧ k.findStart c = some m :=
  find_of_earliest (earliest_of_nextToken_construct h).1

theorem nextToken_rule {l : Language} {c : Cursor} {r : TokenRule} {m : Match}
    (h : l.nextToken c = some (.rule r m)) : r ∈ l.rules ∧ r.find c = some m :=
  find_of_earliest (earliest_of_nextToken_rule h).1

end Language

end Highlighting
