import Highlighting.Pattern.Expr
import Highlighting.Pattern.Flaw

/-!
# Escapes in a pattern

What a backslash and the characters after it stand for: a character, a set or a condition.  Letters
and digits have no meaning after a backslash unless one is listed here; that keeps them free, and is
an error.
-/

namespace Highlighting.Pattern

/-- What stands for itself only after a backslash. -/
def isMeta (c : Char) : Bool :=
  c ∈ ['\\', '.', '+', '*', '?', '(', ')', '|', '[', ']', '\x7b', '\x7d', '^', '$', '#', '&', '-',
    '~']

/-- A backslash and what follows it. -/
inductive Escape
  | char (c : Char)
  | set (s : CharSet)
  | look (l : Look)
  deriving Repr, DecidableEq

/-- The value of a hexadecimal digit. -/
def hexValue? (c : Char) : Option Nat :=
  if c.isDigit then some (c.toNat - '0'.toNat)
  else if 'a' ≤ c && c ≤ 'f' then some (c.toNat - 'a'.toNat + 10)
  else if 'A' ≤ c && c ≤ 'F' then some (c.toNat - 'A'.toNat + 10)
  else none

/-- The number that hexadecimal digits spell; there must be one, and nothing but them. -/
def hexNumber? (cs : List Char) : Option Nat :=
  if cs.isEmpty then none
  else cs.foldl (fun n c => do return 16 * (← n) + (← hexValue? c)) (some 0)

/-- The character of a code point that has one. -/
def charOf? (n : Nat) : Option Char :=
  if n.isValidChar then some (Char.ofNat n) else none

/-- A code point written with exactly `digits` digits, or with any number in braces. -/
def hexEscape (digits : Nat) (cs : List Char) : Except Flaw (Escape × List Char) :=
  let (spelled, rest) := match cs with
    | '\x7b' :: cs => (cs.takeWhile (· != '\x7d'), (cs.dropWhile (· != '\x7d')).drop 1)
    | cs => (cs.take digits, cs.drop digits)
  let complete : Bool := match cs with
    | '\x7b' :: cs => cs.contains '\x7d'
    | cs => digits ≤ cs.length
  match hexNumber? spelled >>= charOf? with
  | some c => if complete then .ok (.char c, rest) else .error .badCodePoint
  | none => .error .badCodePoint

/-- A kind of word boundary in braces.  Braces that hold anything else first are a count, which is
left to be read. -/
def boundary (cs : List Char) : Except Flaw (Escape × List Char) :=
  let named (c : Char) : Bool := c.isAlpha || c == '-'
  match cs with
  | '\x7b' :: c :: cs =>
    if named c then
      match (c :: cs).dropWhile named with
      | '\x7d' :: rest =>
        match String.ofList ((c :: cs).takeWhile named) with
        | "start" => .ok (.look .wordStart, rest)
        | "end" => .ok (.look .wordEnd, rest)
        | "start-half" => .ok (.look .noWordBefore, rest)
        | "end-half" => .ok (.look .noWordAfter, rest)
        | _ => .error .unknownBoundary
      | _ => .error .unknownBoundary
    else .ok (.look .wordEdge, '\x7b' :: c :: cs)
  | ['\x7b'] => .error .unclosedCount
  | cs => .ok (.look .wordEdge, cs)

/-- Reads what follows a backslash. -/
def escape : List Char → Except Flaw (Escape × List Char)
  | [] => .error .trailingEscape
  | c :: cs =>
    match c with
    | 'x' => hexEscape 2 cs
    | 'u' => hexEscape 4 cs
    | 'U' => hexEscape 8 cs
    | 'd' => .ok (.set .digit, cs)
    | 'D' => .ok (.set (.outside .digit), cs)
    | 's' => .ok (.set .blank, cs)
    | 'S' => .ok (.set (.outside .blank), cs)
    | 'w' => .ok (.set .word, cs)
    | 'W' => .ok (.set (.outside .word), cs)
    | 'a' => .ok (.char '\x07', cs)
    | 'f' => .ok (.char '\x0c', cs)
    | 't' => .ok (.char '\t', cs)
    | 'n' => .ok (.char '\n', cs)
    | 'r' => .ok (.char '\r', cs)
    | 'v' => .ok (.char '\x0b', cs)
    | 'A' => .ok (.look .textStart, cs)
    | 'z' => .ok (.look .textEnd, cs)
    | 'b' => boundary cs
    | 'B' => .ok (.look .notWordEdge, cs)
    | '<' => .ok (.look .wordStart, cs)
    | '>' => .ok (.look .wordEnd, cs)
    | 'p' => .error .unknownProperty
    | 'P' => .error .unknownProperty
    | c =>
      if c.isDigit then .error .backReference
      else if c.toNat < 128 && !c.isAlpha then .ok (.char c, cs)
      else .error (.unknownEscape c)

end Highlighting.Pattern
