import Highlighting.Pattern.Escape

/-!
# Classes in brackets

A bracket holds characters, ranges, escapes, named classes and further brackets, and operators
between them.  Its set is taken from left to right: an operator combines all that stands before it
with the union of what stands after it, up to the next operator.
-/

namespace Highlighting.Pattern

/-- An operation between the sets in a bracket. -/
inductive SetOp
  | both
  | without
  | onlyOne
  deriving Repr, DecidableEq

/-- The bracket being read: what stood before the last operator, and the union since then. -/
structure Bracket where
  left : Option (SetOp × CharSet)
  items : CharSet
  deriving Repr, DecidableEq

namespace Bracket

/-- A bracket with these items. -/
def start (items : CharSet) : Bracket :=
  ⟨none, items⟩

/-- One more set in the union. -/
def add (b : Bracket) (s : CharSet) : Bracket :=
  { b with items := .either b.items s }

/-- The set read so far.  Operators are taken from left to right. -/
def value (ignoreCase : Bool) (b : Bracket) : CharSet :=
  match b.left with
  | none => b.items
  | some (op, left) =>
    let left := left.cased ignoreCase
    let right := b.items.cased ignoreCase
    match op with
    | .both => .both left right
    | .without => .without left right
    | .onlyOne => .onlyOne left right

/-- An operator has been read. -/
def operator (ignoreCase : Bool) (b : Bracket) (op : SetOp) : Bracket :=
  ⟨some (op, b.value ignoreCase), .nothing⟩

end Bracket

/-- One character or escape of a bracket. -/
def bracketItem : List Char → Except Flaw (Escape × List Char)
  | [] => .error .unclosedClass
  | '\\' :: cs => escape cs
  | c :: cs => .ok (.char c, cs)

/-- The set an item stands for by itself. -/
def Escape.asSet : Escape → Except Flaw CharSet
  | .char c => .ok (.single c)
  | .set s => .ok s
  | .look _ => .error .notACharacter

/-- A single item, or two of them with a hyphen between. -/
def bracketSpan (cs : List Char) : Except Flaw (CharSet × List Char) := do
  let (first, rest) ← bracketItem cs
  match rest with
  | [] => .error .unclosedClass
  | '-' :: ']' :: _ => return (← first.asSet, rest)
  | '-' :: '-' :: _ => return (← first.asSet, rest)
  | '-' :: rest =>
    let (last, rest) ← bracketItem rest
    match first, last with
    | .char a, .char b => if a ≤ b then .ok (.span a b, rest) else .error .badRange
    | _, _ => .error .notACharacter
  | rest => return (← first.asSet, rest)

/-- A class with a name, such as `[:alpha:]`, after its bracket. -/
def namedClass? (cs : List Char) : Option (CharSet × List Char) :=
  match cs with
  | ':' :: cs =>
    let (negate, cs) := match cs with
      | '^' :: cs => (true, cs)
      | cs => (false, cs)
    match cs.dropWhile (· != ':') with
    | ':' :: ']' :: rest =>
      (CharSet.ofClassName? (String.ofList (cs.takeWhile (· != ':')))).map
        fun s => (s.negatedIf negate, rest)
    | _ => none
  | _ => none

/-- Hyphens and a closing bracket stand for themselves where a bracket begins. -/
def bracketHead (items : CharSet) : List Char → CharSet × List Char
  | '-' :: cs => bracketHead (.either items (.single '-')) cs
  | ']' :: cs => if items == .nothing then (.single ']', cs) else (items, ']' :: cs)
  | cs => (items, cs)

/-- Reads a bracket to its end.  `outer` holds the brackets around it, innermost first, and with
each bracket goes whether it is negated. -/
def bracketBody (ignoreCase : Bool) :
    (steps : Nat) → (outer : List (Bool × Bracket)) → Bool × Bracket → List Char →
      Except Flaw (CharSet × List Char)
  | 0, _, _, _ => .error .unclosedClass
  | _ + 1, _, _, [] => .error .unclosedClass
  | steps + 1, outer, (negate, b), c :: cs =>
    match c, cs with
    | '[', cs =>
      match namedClass? cs with
      | some (s, rest) => bracketBody ignoreCase steps outer (negate, b.add s) rest
      | none =>
        let (inner, cs) := match cs with
          | '^' :: cs => (true, cs)
          | cs => (false, cs)
        let (items, rest) := bracketHead .nothing cs
        bracketBody ignoreCase steps ((negate, b) :: outer) (inner, .start items) rest
    | ']', cs =>
      let s := ((b.value ignoreCase).cased ignoreCase).negatedIf negate
      match outer with
      | [] => .ok (s, cs)
      | (negate, b) :: outer => bracketBody ignoreCase steps outer (negate, b.add s) cs
    | '&', '&' :: cs =>
      bracketBody ignoreCase steps outer (negate, b.operator ignoreCase .both) cs
    | '-', '-' :: cs =>
      bracketBody ignoreCase steps outer (negate, b.operator ignoreCase .without) cs
    | '~', '~' :: cs =>
      bracketBody ignoreCase steps outer (negate, b.operator ignoreCase .onlyOne) cs
    | c, cs => do
      let (s, rest) ← bracketSpan (c :: cs)
      bracketBody ignoreCase steps outer (negate, b.add s) rest

/-- Reads a bracket after its opening. -/
def bracket (ignoreCase : Bool) (cs : List Char) : Except Flaw (CharSet × List Char) :=
  let (negate, cs) := match cs with
    | '^' :: cs => (true, cs)
    | cs => (false, cs)
  let (items, rest) := bracketHead .nothing cs
  bracketBody ignoreCase (rest.length + 1) [] (negate, .start items) rest

end Highlighting.Pattern
