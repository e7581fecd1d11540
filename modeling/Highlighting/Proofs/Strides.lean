import Highlighting.Proofs.FromScratch

/-!
# The strides of a scan

A scan goes along a line in strides: it takes a token, goes past the end of a construct that was
open, or opens a construct, and with it past its end if that is on the line.  The list of strides
tells who put a marker and what was interned, which the outcome of the scan no longer shows:

    the markers of a scan are those that its strides put, and its table is the one that it was
    given, with the sources of its strides interned                            (scan_strides)
    so it is with lines scanned in order                                       (scanLines_strides)
-/

namespace Highlighting

open Text (Cursor)

/-- A rule or a construct, as the one that puts a marker. -/
inductive Origin
  | rule (r : TokenRule)
  | construct (k : Construct)
  deriving DecidableEq

/-- What a scan does in one go. -/
inductive Stride
  /-- A construct that was open ends. -/
  | leaves (k : Construct) (e : Match)
  /-- A rule takes its match. -/
  | takes (r : TokenRule) (m : Match)
  /-- A construct opens and stays open. -/
  | opens (k : Construct) (m : Match)
  /-- A construct opens and ends. -/
  | spans (k : Construct) (m e : Match)

namespace Stride

/-- The markers with who put them. -/
def put (o : Origin) (ms : List Marker) : List (Marker × Origin) :=
  ms.map fun m => (m, o)

/-- The markers that a stride puts. -/
def marks : Stride → List (Marker × Origin)
  | leaves k e => put (.construct k) (markerAt e.start.offset (-k.region))
  | takes r m => put (.rule r) (markerAt m.start.offset r.fold)
  | opens k m => put (.construct k) (markerAt m.start.offset k.region)
  | spans k m e =>
    put (.construct k) (markerAt m.start.offset k.region) ++
      put (.construct k) (markerAt e.start.offset (-k.region))

/-- The source of the end that a stride makes on the spot, if it makes one. -/
def sources : Stride → List String
  | leaves _ _ => []
  | takes _ _ => []
  | opens k m => (k.endSource? m.start).toList
  | spans k m _ => (k.endSource? m.start).toList

@[simp] theorem map_put (o : Origin) (ms : List Marker) : (put o ms).map (·.1) = ms := by
  simp [put, Function.comp_def]

end Stride

/-- The table after some sources have been interned, one after the other. -/
def Contexts.internAll (t : Contexts) (sources : List String) : Contexts :=
  sources.foldl (fun t source => (t.intern source).2) t

theorem Contexts.internAll_append (t : Contexts) (xs ys : List String) :
    t.internAll (xs ++ ys) = (t.internAll xs).internAll ys :=
  List.foldl_append

/-- Opening a construct interns the source of its end. -/
theorem Construct.openState_table (k : Construct) (c : Cursor) (t : Contexts) :
    (k.openState c t).2 = t.internAll (k.endSource? c).toList := by
  rcases k.openState_cases c with ⟨hnone, h⟩ | ⟨source, hsome, h⟩
  · rw [h, hnone]; rfl
  · rw [h, hsome]; rfl

namespace Language

/-- The strides of a scan from a place on. -/
def stridesFrom (l : Language) (t : Contexts) (s : LineState) (c : Cursor) : List Stride :=
  if c.atEnd then []
  else if _hs : s.isInside then
    match l.resume? s t with
    | none => stridesFrom l t .normal c
    | some (k, p) =>
      match _he : k.findEnd p c with
      | none => []
      | some e => .leaves k e :: stridesFrom l t .normal e.stop
  else
    match _hn : l.nextToken c with
    | none => []
    | some (.rule r m) => .takes r m :: stridesFrom l t s m.stop
    | some (.construct k m) =>
      match _he : (k.endPattern? (k.openState m.start t).1 (k.openState m.start t).2).bind
        (k.findEnd · m.stop) with
      | none => [.opens k m]
      | some e => .spans k m e :: stridesFrom l (k.openState m.start t).2 s e.stop
termination_by remaining s c
decreasing_by
  · exact remaining_leave _hs (Nat.le_refl _)
  · exact remaining_leave _hs
      ((Construct.findEnd_ahead _he).1.trans (Construct.findEnd_ahead _he).2).length_le
  · exact remaining_move (Pattern.findFilled_stop (nextToken_rule _hn).2)
  · have hend := Construct.bind_findEnd_ahead _he
    have := (hend.1.trans hend.2).length_le
    have := Pattern.findFilled_stop (nextToken_construct _hn).2
    exact remaining_move (by omega)

/-- The strides of the scan of a line. -/
def strides (l : Language) (t : Contexts) (s : LineState) (text : String) : List Stride :=
  if l.plain then [] else l.stridesFrom t s (.ofString text)

/-- The strides of lines that are scanned in order. -/
def stridesOfLines (l : Language) (t : Contexts) (s : LineState) : List String → List Stride
  | [] => []
  | text :: texts =>
    let (h, u) := l.scan t s text
    l.strides t s text ++ stridesOfLines l u h.endState texts

/-- A construct for examples, which is closed by as many equals signs as have opened it. -/
def fence : Construct :=
  ⟨"fence", ⟨"<(=*)", .seq (.one (.single '<')) (.group 1 (.rep 0 none true (.one (.single '='))))⟩,
    .derived "%1>", .string, none, 1, 2⟩

/-- A language for examples, with braces and fences. -/
def fenced : Language :=
  { named "Fenced" with rules := braces.rules, constructs := [fence] }

example : (fenced.stridesOfLines .fresh .normal ["<=\x7b", "=>"]).flatMap Stride.sources =
    ["=>"] := by
  decide +kernel

variable (l : Language) (t : Contexts) (s : LineState)

/-- The markers of a scan are those that its strides put, and its table has the sources of its
strides interned. -/
theorem scanFrom_strides (c : Cursor) :
    (l.scanFrom t s c).1.markers = ((l.stridesFrom t s c).flatMap Stride.marks).map (·.1) ∧
      (l.scanFrom t s c).2 = t.internAll ((l.stridesFrom t s c).flatMap Stride.sources) := by
  fun_induction stridesFrom l t s c with
  | case1 t s c hc => rw [scanFrom_atEnd l t s c hc]; exact ⟨rfl, rfl⟩
  | case2 t s c hc hin hr ih => rw [scanFrom_lost l t s c hc hin hr]; exact ih
  | case3 t s c hc hin k p hr he =>
    rw [scanFrom_inside l t s c hc hin hr he]
    exact ⟨rfl, rfl⟩
  | case4 t s c hc hin k p hr e he ih =>
    rw [scanFrom_leaves l t s c hc hin hr he]
    simp [Stride.marks, Stride.sources, ih]
  | case5 t s c hc hin hn =>
    rw [scanFrom_blank l t s c hc hin hn]
    exact ⟨rfl, rfl⟩
  | case6 t s c hc hin r m hn ih =>
    rw [scanFrom_rule l t s c hc hin hn]
    simp [Stride.marks, Stride.sources, ih]
  | case7 t s c hc hin k m hn he =>
    rw [scanFrom_opens l t s c hc hin hn he]
    simp [Stride.marks, Stride.sources, k.openState_table]
  | case8 t s c hc hin k m hn e he ih =>
    rw [scanFrom_spans l t s c hc hin hn he]
    simp [Stride.marks, Stride.sources, Contexts.internAll_append, ← k.openState_table, ih]

theorem scan_strides (text : String) :
    (l.scan t s text).1.markers = ((l.strides t s text).flatMap Stride.marks).map (·.1) ∧
      (l.scan t s text).2 = t.internAll ((l.strides t s text).flatMap Stride.sources) := by
  unfold scan strides
  split
  · exact ⟨rfl, rfl⟩
  · exact l.scanFrom_strides t s _

theorem scanLines_strides (texts : List String) :
    (l.scanLines t s texts).1.flatMap (·.markers) =
        ((l.stridesOfLines t s texts).flatMap Stride.marks).map (·.1) ∧
      (l.scanLines t s texts).2 =
        t.internAll ((l.stridesOfLines t s texts).flatMap Stride.sources) := by
  induction texts generalizing t s with
  | nil => exact ⟨rfl, rfl⟩
  | cons text texts ih =>
    obtain ⟨hmarkers, htable⟩ := l.scan_strides t s text
    obtain ⟨ihmarkers, ihtable⟩ := ih (l.scan t s text).2 (l.scan t s text).1.endState
    simp only [scanLines, stridesOfLines, List.flatMap_cons, List.flatMap_append, List.map_append,
      Contexts.internAll_append, ← htable]
    exact ⟨by rw [hmarkers, ihmarkers], ihtable⟩

end Language

end Highlighting
