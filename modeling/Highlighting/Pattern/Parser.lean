import Highlighting.Pattern.Bracket

/-!
# Reading a pattern

The text of a pattern is read from left to right into a draft: the branches and items of the
group being read, and the groups around it.  Each step takes at least one character, so a pattern
is read in as many steps as it has characters.

Flags set inside a group hold to its end, through later branches too.
-/

namespace Highlighting.Pattern

/-- How letters, dots, line anchors and repetitions are read. -/
structure Flags where
  ignoreCase : Bool
  multiLine : Bool
  dotAll : Bool
  swapGreed : Bool
  deriving Repr, DecidableEq

/-- No flag set. -/
def Flags.cleared : Flags :=
  ⟨false, false, false, false⟩

/-! ## Counts -/

/-- Decimal digits with white space around them; no number without a digit. -/
def decimal (cs : List Char) : Option Nat × List Char :=
  let cs := cs.dropWhile Unicode.isBlank
  let digits := cs.takeWhile Char.isDigit
  let rest := (cs.dropWhile Char.isDigit).dropWhile Unicode.isBlank
  if digits.isEmpty then (none, rest)
  else (some (digits.foldl (fun n c => 10 * n + (c.toNat - '0'.toNat)) 0), rest)

/-- Reads a count after its brace: `n`, `n,` or `n,m`. -/
def count (cs : List Char) : Except Flaw ((Nat × Option Nat) × List Char) :=
  match decimal cs with
  | (least, '\x7d' :: rest) =>
    match least with
    | some n => .ok ((n, some n), rest)
    | none => .error .badCount
  | (least, ',' :: '\x7d' :: rest) =>
    match least with
    | some n => .ok ((n, none), rest)
    | none => .error .badCount
  | (least, ',' :: rest) =>
    match least, decimal rest with
    | some n, (some m, '\x7d' :: rest) =>
      if n ≤ m then .ok ((n, some m), rest) else .error .badCount
    | some _, (some _, _) => .error .unclosedCount
    | _, _ => .error .badCount
  | _ => .error .unclosedCount

/-! ## Groups and flags -/

/-- What stands after an opening parenthesis. -/
inductive Opening
  /-- A captured group, perhaps with a name. -/
  | captured (name : Option String)
  /-- A group that is not captured, with its flags. -/
  | plain (flags : Flags)
  /-- Flags for the rest of the group around them. -/
  | flags (flags : Flags)
  deriving Repr, DecidableEq

/-- Sets or clears the flag of a letter; none when the letter is no flag. -/
def Flags.set? (f : Flags) (on : Bool) : Char → Option Flags
  | 'i' => some { f with ignoreCase := on }
  | 'm' => some { f with multiLine := on }
  | 's' => some { f with dotAll := on }
  | 'U' => some { f with swapGreed := on }
  | 'u' => if on then some f else none
  | _ => none

/-- Reads flag letters to the colon or parenthesis that ends them.  A letter or a hyphen may come
once, and a hyphen not last. -/
def flagLetters (f : Flags) (seen : List Char) : List Char → Except Flaw (Opening × List Char)
  | [] => .error .badFlags
  | ':' :: cs => if seen.head? == some '-' then .error .badFlags else .ok (.plain f, cs)
  | ')' :: cs =>
    if seen.head? == some '-' then .error .badFlags
    else if seen.isEmpty then .error .nothingToRepeat
    else .ok (.flags f, cs)
  | c :: cs =>
    if c ∈ seen then .error .badFlags
    else if c == '-' then flagLetters f (c :: seen) cs
    else match f.set? ('-' ∉ seen) c with
      | some f => flagLetters f (c :: seen) cs
      | none => .error .badFlags

/-- May the character stand in the name of a group? -/
def isNameChar (first : Bool) (c : Char) : Bool :=
  c == '_' || (Unicode.isWord c && (!first || !Unicode.isDigit c)) ||
    (!first && (c == '.' || c == '[' || c == ']'))

/-- The name of a group, up to the angle bracket that ends it. -/
def groupName (cs : List Char) : Except Flaw (Opening × List Char) :=
  match cs.takeWhile (· != '>'), cs.dropWhile (· != '>') with
  | c :: name, _ :: rest =>
    if isNameChar true c && name.all (isNameChar false) then
      .ok (.captured (some (String.ofList (c :: name))), rest)
    else .error .badGroupName
  | _, _ => .error .badGroupName

/-- Reads what follows an opening parenthesis. -/
def opening (f : Flags) : List Char → Except Flaw (Opening × List Char)
  | '?' :: '=' :: _ => .error .lookAround
  | '?' :: '!' :: _ => .error .lookAround
  | '?' :: '<' :: '=' :: _ => .error .lookAround
  | '?' :: '<' :: '!' :: _ => .error .lookAround
  | '?' :: 'P' :: '<' :: cs => groupName cs
  | '?' :: '<' :: cs => groupName cs
  | '?' :: cs => flagLetters f [] cs
  | cs => .ok (.captured none, cs)

/-! ## The draft -/

/-- A group read so far: finished branches and the items of the present one, latest first.  A flag
setting leaves an item without an expression, which cannot be repeated. -/
structure Level where
  branches : List Expr
  items : List (Option Expr)
  deriving Repr, DecidableEq

namespace Level

/-- Nothing read. -/
def fresh : Level :=
  ⟨[], []⟩

/-- One more item. -/
def push (l : Level) (e : Expr) : Level :=
  { l with items := some e :: l.items }

/-- The present branch. -/
def branch (l : Level) : Expr :=
  .sequence (l.items.reverse.filterMap id)

/-- The next branch begins. -/
def bar (l : Level) : Level :=
  ⟨l.branch :: l.branches, []⟩

/-- All branches. -/
def expr (l : Level) : Expr :=
  .choice (l.branch :: l.branches).reverse

/-- Repeats the last item. -/
def repeatLast (l : Level) (least : Nat) (most : Option Nat) (greedy : Bool) :
    Except Flaw Level :=
  match l.items with
  | some e :: items => .ok { l with items := some (.rep least most greedy e) :: items }
  | _ => .error .nothingToRepeat

end Level

/-- A group that is still open: its number if it is captured, and what surrounds it. -/
structure OpenGroup where
  index : Option Nat
  flags : Flags
  level : Level
  deriving Repr, DecidableEq

/-- A pattern read so far. -/
structure Draft where
  flags : Flags
  level : Level
  outer : List OpenGroup
  captured : Nat
  names : List String
  deriving Repr, DecidableEq

namespace Draft

/-- Nothing read. -/
def start : Draft :=
  ⟨.cleared, .fresh, [], 0, []⟩

/-- One more item. -/
def push (d : Draft) (e : Expr) : Draft :=
  { d with level := d.level.push e }

/-- One more set. -/
def pushSet (d : Draft) (s : CharSet) : Draft :=
  d.push (.one s)

/-- A character that stands for itself. -/
def pushChar (d : Draft) (c : Char) : Draft :=
  d.pushSet ((CharSet.single c).cased d.flags.ignoreCase)

/-- A parenthesis opens. -/
def openGroup (d : Draft) : Opening → Except Flaw Draft
  | .captured name =>
    match name with
    | some n =>
      if n ∈ d.names then .error (.repeatedGroupName n)
      else .ok { d with
        level := .fresh
        outer := ⟨some (d.captured + 1), d.flags, d.level⟩ :: d.outer
        captured := d.captured + 1
        names := n :: d.names }
    | none => .ok { d with
        level := .fresh
        outer := ⟨some (d.captured + 1), d.flags, d.level⟩ :: d.outer
        captured := d.captured + 1 }
  | .plain flags => .ok { d with
      flags := flags
      level := .fresh
      outer := ⟨none, d.flags, d.level⟩ :: d.outer }
  | .flags flags => .ok { d with
      flags := flags
      level := { d.level with items := none :: d.level.items } }

/-- A parenthesis closes. -/
def closeGroup (d : Draft) : Except Flaw Draft :=
  match d.outer with
  | [] => .error .unopenedGroup
  | g :: outer =>
    let body := d.level.expr
    let e := match g.index with
      | some i => .group i body
      | none => body
    .ok { d with flags := g.flags, level := g.level.push e, outer := outer }

/-- Repeats the last item; a question mark that follows asks for few instead of many. -/
def repetition (d : Draft) (least : Nat) (most : Option Nat) (cs : List Char) :
    Except Flaw (Draft × List Char) := do
  let (lazily, rest) := match cs with
    | '?' :: cs => (true, cs)
    | cs => (false, cs)
  let level ← d.level.repeatLast least most (lazily == d.flags.swapGreed)
  return ({ d with level := level }, rest)

/-- Reads one piece of a pattern, which begins with `c`. -/
def step (d : Draft) (c : Char) (cs : List Char) : Except Flaw (Draft × List Char) :=
  match c with
  | '(' => do
    let (o, rest) ← opening d.flags cs
    return (← d.openGroup o, rest)
  | ')' => return (← d.closeGroup, cs)
  | '|' => .ok ({ d with level := d.level.bar }, cs)
  | '[' => do
    let (s, rest) ← bracket d.flags.ignoreCase cs
    return (d.pushSet s, rest)
  | '*' => d.repetition 0 none cs
  | '+' => d.repetition 1 none cs
  | '?' => d.repetition 0 (some 1) cs
  | '\x7b' => do
    let ((least, most), rest) ← count cs
    d.repetition least most rest
  | '.' => .ok (d.pushSet (if d.flags.dotAll then .all else .notNewline), cs)
  | '^' => .ok (d.push (.look (if d.flags.multiLine then .lineStart else .textStart)), cs)
  | '$' => .ok (d.push (.look (if d.flags.multiLine then .lineEnd else .textEnd)), cs)
  | '\\' => do
    let (e, rest) ← escape cs
    match e with
    | .char c => return (d.pushChar c, rest)
    | .set s => return (d.pushSet s, rest)
    | .look l => return (d.push (.look l), rest)
  | c => .ok (d.pushChar c, cs)

/-- Reads a pattern to its end. -/
def run : (steps : Nat) → Draft → List Char → Except Flaw Expr
  | _, d, [] => if d.outer.isEmpty then .ok d.level.expr else .error .unclosedGroup
  | 0, _, _ :: _ => .error .tooLarge
  | steps + 1, d, c :: cs => do
    let (d, rest) ← d.step c cs
    run steps d rest

end Draft

/-! ## Size -/

/-- How many states a set takes: one for each byte of a character, and many for a named class. -/
def setWeight : CharSet → Nat
  | .nothing => 1
  | .span _ last => last.utf8Size
  | .word => 1500
  | .digit => 100
  | .blank => 20
  | .either a b => setWeight a + setWeight b
  | .both a b => setWeight a + setWeight b
  | .without a b => setWeight a + setWeight b
  | .onlyOne a b => setWeight a + setWeight b
  | .outside a => setWeight a
  | .anyCase a => setWeight a

/-- How many states an expression takes with every repetition written out. -/
def weight : Expr → Nat
  | .empty => 1
  | .one s => setWeight s
  | .look _ => 1
  | .group _ e => weight e + 2
  | .seq a b => weight a + weight b
  | .alt a b => weight a + weight b + 1
  | .rep least most _ e => (max least (most.getD 1) + 1) * weight e + 1

/-- How many states a pattern may take: 10 MiB of 32 bytes each.  So not every text is a pattern,
even if every character in it stands for itself. -/
def weightLimit : Nat :=
  10 * 1024 * 1024 / 32

/-- Reads a pattern. -/
def parse (source : String) : Except Flaw Expr := do
  let cs := source.toList
  let e ← Draft.run cs.length .start cs
  if weight e ≤ weightLimit then return e else .error .tooLarge

end Highlighting.Pattern
