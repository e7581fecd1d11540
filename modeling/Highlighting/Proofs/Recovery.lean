import Highlighting.Proofs.Strides

/-!
# Recovering from a state that cannot be resumed

A line may begin inside of a construct that nobody can go on with: the language has no construct of
that number, or has one whose end was made on the spot and has been forgotten since.  Such a state
is dropped by the first line that has text on it, and that line is scanned as from the default
state; an empty line before it passes the state on as it is.

    l.Lost t s  ↔  s is inside of a construct, and resume? finds nothing to go on with   (lost_iff)
    one line    →  as from the default state, or empty and the state passed on       (scan_of_lost)
    no token    →  nothing, and the default state                              (scan_blank_of_lost)
    text first  →  many lines as from the default state                      (scanLines_eq_of_lost)
    many lines  →  runs, markers and table as from the default state on every line, and end states
                   as well from the first line with text on                       (scanLines_of_lost)
-/

namespace Highlighting.Language

open Text (Cursor)

/-- The state is inside of a construct that cannot be gone on with: the language has none of its
number, or has one whose end was made on the spot and is not in the table. -/
def Lost (l : Language) (t : Contexts) (s : LineState) : Prop :=
  s.isInside = true ∧ ∀ k, l.construct? s.construct = some k →
    k.isDerived = true ∧ s.context.bind t.resolve = none

variable (l : Language) (t : Contexts) (s : LineState)

/-! ## One line -/

theorem lost_iff : l.Lost t s ↔ s.isInside = true ∧ l.resume? s t = none := by
  unfold Lost resume?
  cases hk : l.construct? s.construct with
  | none => simp
  | some k =>
    simp only [Option.some.injEq, forall_eq', Option.bind_some, Option.map_eq_none_iff]
    unfold Construct.isDerived Construct.endPattern?
    cases k.ending <;> simp

/-- So is a state inside of a construct that makes its end on the spot, with no end made. -/
theorem lost_of_isDerived {k : Construct} (hk : l.construct? k.id = some k) (hid : k.id ≠ 0)
    (hderived : k.isDerived = true) : l.Lost t ⟨k.id, none⟩ := by
  refine ⟨bne_iff_ne.2 hid, fun k' hk' => ?_⟩
  obtain rfl := Option.some.inj (hk.symm.trans hk')
  exact ⟨hderived, rfl⟩

theorem scan_empty (hp : l.plain = false) : l.scan t s "" = (⟨[], [], s⟩, t) := by
  rw [scan, if_neg (by simp [hp]), scanFrom_atEnd l t s _ rfl]

/-- From a lost state a line is scanned as from the default one, unless there is nothing on it:
then the state is passed on. -/
theorem scan_of_lost (hs : l.Lost t s) (text : String) :
    l.scan t s text = l.scan t .normal text ∨
    text = "" ∧ l.scan t s text = (⟨[], [], s⟩, t) ∧
      l.scan t .normal text = (⟨[], [], .normal⟩, t) := by
  obtain ⟨hin, hresume⟩ := (l.lost_iff t s).1 hs
  cases hp : l.plain with
  | true =>
    left
    rw [scan, scan, if_pos hp, if_pos hp]
  | false =>
    by_cases htext : text = ""
    · subst htext
      exact .inr ⟨rfl, l.scan_empty t s hp, l.scan_empty t .normal hp⟩
    · left
      have hc : ¬(Cursor.ofString text).atEnd = true := mt Cursor.atEnd_ofString.1 htext
      rw [scan, scan, if_neg (by simp [hp]), if_neg (by simp [hp]),
        l.scanFrom_lost t s _ hc hin hresume]

/-- Where nothing starts on the line, the construct is over without a trace. -/
theorem scan_blank_of_lost (hs : l.Lost t s) (hp : l.plain = false) {text : String}
    (htext : text ≠ "") (hnext : l.nextToken (.ofString text) = none) :
    l.scan t s text = (⟨[], [], .normal⟩, t) := by
  obtain ⟨hin, hresume⟩ := (l.lost_iff t s).1 hs
  have hc : ¬(Cursor.ofString text).atEnd = true := mt Cursor.atEnd_ofString.1 htext
  rw [scan, if_neg (by simp [hp]), l.scanFrom_lost t s _ hc hin hresume,
    l.scanFrom_blank t .normal _ hc (by decide) hnext]

/-! ## Many lines -/

/-- With text on the first of them, lines are scanned from a lost state as from the default one. -/
theorem scanLines_eq_of_lost (hs : l.Lost t s) {text : String} (htext : text ≠ "")
    (texts : List String) :
    l.scanLines t s (text :: texts) = l.scanLines t .normal (text :: texts) := by
  obtain hsame | ⟨hempty, -⟩ := l.scan_of_lost t s hs text
  · simp only [scanLines, hsame]
  · exact absurd hempty htext

/-- **A state that cannot be resumed leaves no trace.**  Whatever the language, the table and the
lines are, each of the lines holds the same runs and markers as when they are scanned from the
default state, and the table is the same after them.  From the first line with text on they also end
in the same states. -/
theorem scanLines_of_lost (hs : l.Lost t s) (texts : List String) :
    (l.scanLines t s texts).2 = (l.scanLines t .normal texts).2 ∧
    ∀ n < texts.length, ∃ found found',
      (l.scanLines t s texts).1[n]? = some found ∧
      (l.scanLines t .normal texts).1[n]? = some found' ∧
      found.runs = found'.runs ∧ found.markers = found'.markers ∧
      ((∃ j ≤ n, ∃ text, texts[j]? = some text ∧ text ≠ "") →
        found.endState = found'.endState) := by
  induction texts with
  | nil => exact ⟨rfl, fun n hn => absurd hn (Nat.not_lt_zero n)⟩
  | cons text texts ih =>
    rcases l.scan_of_lost t s hs text with hsame | ⟨rfl, hlost, hnormal⟩
    · -- the two runs have met, and stay together
      have hlines : l.scanLines t s (text :: texts) = l.scanLines t .normal (text :: texts) := by
        simp only [scanLines, hsame]
      rw [hlines]
      refine ⟨rfl, fun n hn => ?_⟩
      obtain ⟨found, hfound⟩ : ∃ found, (l.scanLines t .normal (text :: texts)).1[n]? = some found :=
        ⟨_, List.getElem?_eq_getElem (by rw [scanLines_length]; exact hn)⟩
      exact ⟨found, found, hfound, hfound, rfl, rfl, fun _ => rfl⟩
    · obtain ⟨htable, hrest⟩ := ih
      simp only [scanLines, hlost, hnormal]
      refine ⟨htable, fun n hn => ?_⟩
      cases n with
      | zero =>
        refine ⟨_, _, rfl, rfl, rfl, rfl, ?_⟩
        rintro ⟨j, hj, text, htext, hne⟩
        obtain rfl := Nat.le_zero.1 hj
        exact absurd (Option.some.inj htext).symm hne
      | succ n =>
        obtain ⟨found, found', hfound, hfound', hruns, hmarkers, hend⟩ :=
          hrest n (Nat.lt_of_succ_lt_succ hn)
        refine ⟨found, found', hfound, hfound', hruns, hmarkers, ?_⟩
        rintro ⟨j, hj, text, htext, hne⟩
        cases j with
        | zero => exact absurd (Option.some.inj htext).symm hne
        | succ j => exact hend ⟨j, Nat.le_of_succ_le_succ hj, text, htext, hne⟩

/-- Inside of a fence whose end has been forgotten: the empty line passes that on, and the line
after it opens a fence of its own, whose end is made anew. -/
theorem scanLines_of_lost_fenced :
    fenced.Lost .fresh ⟨1, some 7⟩ ∧
    (fenced.scanLines .fresh ⟨1, some 7⟩ ["", "\x7b<=", "=>"]).2 =
      (fenced.scanLines .fresh .normal ["", "\x7b<=", "=>"]).2 ∧
    ∃ found found', (fenced.scanLines .fresh ⟨1, some 7⟩ ["", "\x7b<=", "=>"]).1[1]? = some found ∧
      (fenced.scanLines .fresh .normal ["", "\x7b<=", "=>"]).1[1]? = some found' ∧
      found.markers = found'.markers ∧ found.endState = found'.endState := by
  have hlost : fenced.Lost .fresh ⟨1, some 7⟩ := by
    refine ⟨rfl, fun k hk => ?_⟩
    obtain rfl : fence = k := Option.some.inj hk
    exact ⟨rfl, rfl⟩
  obtain ⟨htable, hlines⟩ := scanLines_of_lost fenced .fresh ⟨1, some 7⟩ hlost ["", "\x7b<=", "=>"]
  obtain ⟨found, found', hfound, hfound', -, hmarkers, hend⟩ := hlines 1 (by decide)
  exact ⟨hlost, htable, found, found', hfound, hfound', hmarkers,
    hend ⟨1, Nat.le_refl 1, _, rfl, by decide⟩⟩

end Highlighting.Language
