import Highlighting.Proofs.Layout
import Highlighting.Proofs.Searching

/-!
# Lines inside of a construct

A construct that makes its end on the spot opens on one line, holds all of the lines on which that
end is not found, and closes on the first line on which it is:

    the line on which it opens     ends in the state s, inside of k, with p for its end
                                                                                   (scan_opens)
    the same, with an end that     ends inside of k, with nothing to go on with
    cannot be made                                                            (scan_opens_lost)
    a line without p, begun in s   belongs to k from end to end, and ends in s
                                                                           (Inside.scan_within)
    a line with p, begun in s      belongs to k up to the end of p, and is scanned from the normal
                                   state from there on                     (Inside.scan_leaves)

The lines are scanned in turn, each from the state in which the one before it ended.  Other lines
may be scanned in between, so that the table grows (`InTurn`); as long as it is not emptied, the
construct goes on (InTurn.within, InTurn.encloses).
-/

namespace Highlighting

open Text (Cursor Ahead)

/-! ## The token at the place -/

theorem earliest_of_split {α : Type} {find : α → Option Match} {a : α} {m : Match}
    {front back : List α} (ha : find a = some m)
    (hfront : ∀ b ∈ front, ∀ n, find b = some n → m.start.offset < n.start.offset)
    (hback : ∀ b ∈ back, ∀ n, find b = some n → m.start.offset ≤ n.start.offset) :
    Language.earliest find (front ++ a :: back) = some (a, m) := by
  induction front with
  | nil =>
    rw [List.nil_append, Language.earliest, ha]
    cases hlater : Language.earliest find back with
    | none => rfl
    | some e =>
      obtain ⟨hmem, hfind⟩ := Language.find_of_earliest hlater
      exact if_neg (Nat.not_lt.2 (hback _ hmem _ hfind))
  | cons b bs ih =>
    rw [List.forall_mem_cons] at hfront
    rw [List.cons_append, Language.earliest, ih hfront.2]
    cases hb : find b with
    | none => rfl
    | some n => exact if_pos (hfront.1 n hb)

/-- A construct that starts at the place is the next token, unless one that is listed before it
starts there too. -/
theorem nextToken_here {l : Language} {c : Cursor} {k : Construct} {m : Match}
    {front back : List Construct} (hl : l.constructs = front ++ k :: back)
    (hm : k.findStart c = some m) (hstart : m.start = c)
    (hfront : ∀ b ∈ front, b.start.expr.matchAt c = none) :
    l.nextToken c = some (.construct k m) := by
  have hearliest : Language.earliest (·.findStart c) l.constructs = some (k, m) := by
    rw [hl]
    refine earliest_of_split hm (fun b hb n hn => ?_) fun b _ n hn => ?_
    · have hfind := (Pattern.find_of_findFilled hn).1
      refine hstart ▸ Nat.lt_of_not_le fun hle => ?_
      have hat := Expr.matchAt_of_findAlong hfind
      rw [(Pattern.find_start hfind).eq_of_offset_le hle, hfront b hb] at hat
      cases hat
    · exact hstart ▸ (Pattern.findFilled_ahead hn).1.offset_le
  unfold Language.nextToken
  rw [hearliest]
  cases hrule : Language.earliest (·.find c) l.rules with
  | none => rfl
  | some e =>
    have hle := (Pattern.findFilled_ahead (Language.find_of_earliest hrule).2).1.offset_le
    exact if_neg (Nat.not_lt.2 (hstart ▸ hle))

/-! ## One line -/

/-- An end that cannot be escaped is the first match of its pattern. -/
theorem Construct.findEnd_unescaped {k : Construct} (hk : k.escape = none) (p : Pattern)
    (c : Cursor) : k.findEnd p c = p.find c := by
  rw [findEnd, hk, findUnescaped]
  split
  · next h => exact h.symm
  · next m h => rw [if_neg (by simp [isEscaped]), h]

/-- In the state, lines belong to the construct up to where the pattern is found. -/
structure Inside (l : Language) (t : Contexts) (s : LineState) (k : Construct) (p : Pattern) :
    Prop where
  inside : s.isInside = true
  resumes : l.resume? s t = some (k, p)
  issued : t.Issued s

/-- What a line of a construct holds when it lies between the first and the last. -/
def Construct.whole (k : Construct) (s : LineState) (text : String) : Highlight :=
  ⟨runBetween 0 text.utf8ByteSize k.kind, [], s⟩

section
variable {l : Language} {t u : Contexts} {s : LineState} {k : Construct} {p : Pattern}

/-- As long as nothing is forgotten, the construct goes on. -/
theorem Inside.extend (h : Inside l t s k p) (hx : t.Extends u) : Inside l u s k p where
  inside := h.inside
  resumes := (l.resume?_agree t u s s ⟨rfl, (hx.meaning h.issued).symm⟩).symm.trans h.resumes
  issued := h.issued.mono hx.nextId_le

/-- The state is that of a context which is in use. -/
theorem Inside.live (h : Inside l t s k p) {template : String} (hk : k.ending = .derived template) :
    ∃ id, s.context = some id ∧ t.resolve id = some p := by
  have hend := (Language.resume?_eq_some_iff.1 h.resumes).2
  unfold Construct.endPattern? at hend
  rw [hk] at hend
  exact Option.bind_eq_some_iff.1 hend

theorem Inside.resolve (h : Inside l t s k p) {template : String}
    (hk : k.ending = .derived template) {id : Nat} (hid : s.context = some id) :
    t.resolve id = some p := by
  obtain ⟨live, hlive, hresolve⟩ := h.live hk
  obtain rfl := Option.some.inj (hlive.symm.trans hid)
  exact hresolve

/-- Where a construct opens, its end is made and known from then on. -/
theorem inside_openState {c : Cursor} {source : String} (ht : t.Sound)
    (hk : l.construct? k.id = some k) (hid : k.id ≠ 0) (hsource : k.endSource? c = some source)
    (hp : Pattern.compile source = .ok p) :
    Inside l (k.openState c t).2 (k.openState c t).1 k p := by
  obtain ⟨hnone, -⟩ | ⟨source', hsource', hopen⟩ := k.openState_cases c
  · rw [hsource] at hnone; cases hnone
  obtain rfl : source' = source := Option.some.inj (hsource'.symm.trans hsource)
  have hsome : (t.intern source').1 ≠ none := fun hnone => by
    obtain ⟨flaw, hflaw⟩ := (t.intern_eq_none ht source').1 hnone
    rw [hp] at hflaw
    cases hflaw
  obtain ⟨id, hintern⟩ := Option.ne_none_iff_exists'.1 hsome
  obtain ⟨q, hq, hresolve⟩ := t.intern_resolve ht source' id hintern
  obtain rfl : p = q := Except.ok.inj (hp.symm.trans hq)
  rw [hopen, hintern]
  refine ⟨by simpa [LineState.isInside] using hid, Language.resume?_eq_some_iff.2 ⟨hk, ?_⟩, ?_⟩
  · unfold Construct.endSource? at hsource
    unfold Construct.endPattern?
    split
    · next heq => rw [heq] at hsource; cases hsource
    · exact hresolve
  · rintro _ ⟨⟩
    exact Contexts.lt_of_resolve _ (ht.intern _) _ _ hresolve

variable (hplain : l.plain = false)
include hplain

theorem scan_opens {m : Match} {source text : String} (ht : t.Sound)
    (hk : l.construct? k.id = some k) (hid : k.id ≠ 0)
    (hnext : l.nextToken (.ofString text) = some (.construct k m))
    (hsource : k.endSource? m.start = some source) (hp : Pattern.compile source = .ok p)
    (hend : k.findEnd p m.stop = none) :
    ∃ s, (l.scan t .normal text).1 = ⟨runBetween m.start.offset text.utf8ByteSize k.kind,
        markerAt m.start.offset k.region, s⟩ ∧
      s.construct = k.id ∧ Inside l (l.scan t .normal text).2 s k p := by
  have hinside := inside_openState ht hk hid hsource hp
  have hpattern := (Language.resume?_eq_some_iff.1 hinside.resumes).2
  have hc := Language.not_atEnd_of_nextToken hnext
  have hscan := l.scanFrom_opens t .normal (.ofString text) hc (by decide) hnext
    (by rw [hpattern]; exact hend)
  rw [Cursor.endOffset_ofString] at hscan
  rw [Language.scan, if_neg (by rw [hplain]; decide), hscan]
  exact ⟨_, rfl, k.openState_id m.start t, hinside⟩

theorem scan_opens_lost {m : Match} {source template text : String} (ht : t.Sound)
    (hk : k.ending = .derived template)
    (hnext : l.nextToken (.ofString text) = some (.construct k m))
    (hsource : k.endSource? m.start = some source) (hp : ∀ p, Pattern.compile source ≠ .ok p) :
    (l.scan t .normal text).1 = ⟨runBetween m.start.offset text.utf8ByteSize k.kind,
      markerAt m.start.offset k.region, ⟨k.id, none⟩⟩ := by
  have hopen : (k.openState m.start t).1 = ⟨k.id, none⟩ := by
    obtain ⟨-, hopen⟩ | ⟨source', hsource', hopen⟩ := k.openState_cases m.start
    · rw [hopen]
    · obtain rfl : source' = source := Option.some.inj (hsource'.symm.trans hsource)
      have hnone : (t.intern source').1 = none := by
        rw [t.intern_eq_none ht]
        cases hcompile : Pattern.compile source' with
        | error flaw => exact ⟨flaw, rfl⟩
        | ok p => exact absurd hcompile (hp p)
      rw [hopen, hnone]
  have hend : k.endPattern? (k.openState m.start t).1 (k.openState m.start t).2 = none := by
    rw [hopen, Construct.endPattern?, hk]
    rfl
  have hc := Language.not_atEnd_of_nextToken hnext
  have hscan := l.scanFrom_opens t .normal (.ofString text) hc (by decide) hnext
    (by rw [hend]; rfl)
  rw [Cursor.endOffset_ofString, hopen] at hscan
  rw [Language.scan, if_neg (by rw [hplain]; decide), hscan]

namespace Inside

variable (h : Inside l t s k p)
include h

theorem scan_within {text : String} (hend : k.findEnd p (.ofString text) = none) :
    l.scan t s text = (k.whole s text, t) := by
  rw [Language.scan, if_neg (by rw [hplain]; decide)]
  by_cases hc : (Cursor.ofString text).atEnd = true
  · rw [Language.scanFrom_atEnd _ _ _ _ hc, Cursor.atEnd_ofString.1 hc]
    rfl
  · rw [Language.scanFrom_inside _ _ _ _ hc h.inside h.resumes hend, Cursor.endOffset_ofString]
    rfl

theorem scan_leaves {text : String} {e : Match} (htext : text ≠ "")
    (hend : k.findEnd p (.ofString text) = some e) : l.scan t s text =
      ((l.scanFrom t .normal e.stop).1.after (runBetween 0 e.stop.offset k.kind)
        (markerAt e.start.offset (-k.region)), (l.scanFrom t .normal e.stop).2) := by
  rw [Language.scan, if_neg (by rw [hplain]; decide)]
  have hc : ¬(Cursor.ofString text).atEnd = true := mt Cursor.atEnd_ofString.1 htext
  exact Language.scanFrom_leaves _ _ _ _ hc h.inside h.resumes hend

end Inside

end

/-! ## Lines in turn -/

/-- The lines are scanned in turn, each from the state in which the one before it ended, and hold
what stands in the list.  In between, the table may grow. -/
inductive InTurn (l : Language) :
    Contexts → LineState → List String → List Highlight → Contexts → Prop
  | nil (t : Contexts) (s : LineState) : InTurn l t s [] [] t
  | cons {t u v : Contexts} {s : LineState} {text : String} {texts : List String}
      {hs : List Highlight} : (l.scan t s text).2.Extends u →
      InTurn l u (l.scan t s text).1.endState texts hs v →
      InTurn l t s (text :: texts) ((l.scan t s text).1 :: hs) v

/-- Lines that are scanned without a break are scanned in turn. -/
theorem inTurn_scanLines (l : Language) (t : Contexts) (s : LineState) (texts : List String) :
    InTurn l t s texts (l.scanLines t s texts).1 (l.scanLines t s texts).2 := by
  induction texts generalizing t s with
  | nil => exact .nil t s
  | cons text texts ih => exact .cons (.refl _) (ih _ _)

section
variable {l : Language} {t v : Contexts} {s : LineState} {k : Construct} {p : Pattern}
  {texts : List String} {hs : List Highlight} (hplain : l.plain = false)
include hplain

/-- Lines without the end belong to the construct, however many they are. -/
theorem InTurn.within (h : Inside l t s k p) (body : List String)
    (hbody : ∀ text ∈ body, k.findEnd p (.ofString text) = none)
    (hrun : InTurn l t s (body ++ texts) hs v) :
    ∃ u gs, hs = body.map (k.whole s) ++ gs ∧ Inside l u s k p ∧ t.Extends u ∧
      InTurn l u s texts gs v := by
  induction body generalizing t hs with
  | nil => exact ⟨t, hs, rfl, h, .refl t, hrun⟩
  | cons text body ih =>
    rw [List.forall_mem_cons] at hbody
    have hscan := h.scan_within hplain hbody.1
    cases hrun with
    | cons hx hrun =>
      rw [hscan] at hx hrun ⊢
      obtain ⟨u, gs, rfl, hu, hux, hrest⟩ := ih (h.extend hx) hbody.2 hrun
      exact ⟨u, gs, rfl, hu, hx.trans hux, hrest⟩

/-- A construct that is open encloses the lines up to that on which its end is found. -/
theorem InTurn.encloses (h : Inside l t s k p) {closing : String} {e : Match} (body : List String)
    (hbody : ∀ text ∈ body, k.findEnd p (.ofString text) = none) (hclosing : closing ≠ "")
    (hend : k.findEnd p (.ofString closing) = some e)
    (hrun : InTurn l t s (body ++ closing :: texts) hs v) :
    ∃ u w gs, hs = body.map (k.whole s) ++ (l.scanFrom u .normal e.stop).1.after
        (runBetween 0 e.stop.offset k.kind) (markerAt e.start.offset (-k.region)) :: gs ∧
      Inside l u s k p ∧ t.Extends u ∧ (l.scanFrom u .normal e.stop).2.Extends w ∧
      InTurn l w (l.scanFrom u .normal e.stop).1.endState texts gs v := by
  obtain ⟨u, gs, rfl, hu, hux, hrest⟩ := hrun.within hplain h body hbody
  have hscan := hu.scan_leaves hplain hclosing hend
  cases hrest with
  | cons hx hrest =>
    rw [hscan] at hx hrest ⊢
    exact ⟨u, _, _, rfl, hu, hux, hx, hrest⟩

end

end Highlighting
