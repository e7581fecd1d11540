import Highlighting.Pattern.CharSet
import Highlighting.Text.Cursor

/-!
# Pattern expressions

What a pattern says, with all flags resolved: sets of characters, conditions on a place, captured
groups, sequence, choice and repetition.
-/

namespace Highlighting

open Text (Cursor)

/-- A condition on a place in a text. -/
inductive Look
  | textStart
  | textEnd
  | lineStart
  | lineEnd
  | wordEdge
  | notWordEdge
  | wordStart
  | wordEnd
  | noWordBefore
  | noWordAfter
  deriving Repr, DecidableEq

/-- A pattern expression. -/
inductive Expr
  /-- Takes no character. -/
  | empty
  /-- Takes one character of the set. -/
  | one (set : CharSet)
  /-- Takes no character, at a place where the condition holds. -/
  | look (condition : Look)
  /-- Remembers what the body takes as the group of this number. -/
  | group (index : Nat) (body : Expr)
  /-- The first, then the second. -/
  | seq (first second : Expr)
  /-- One of the two, the first preferred. -/
  | alt (first second : Expr)
  /-- The body so many times, preferring more when greedy and fewer otherwise. -/
  | rep (least : Nat) (most : Option Nat) (greedy : Bool) (body : Expr)
  deriving Repr, DecidableEq

namespace Look

/-- Is there a word character before the place? -/
def wordBefore (k : Cursor) : Bool :=
  k.before.any Unicode.isWord

/-- Is there a word character after the place? -/
def wordAfter (k : Cursor) : Bool :=
  k.rest.head?.any Unicode.isWord

/-- Does the condition hold at the place?  The text before the place counts, wherever a search
began. -/
def holds : Look → Cursor → Bool
  | textStart, k => k.before.isNone
  | textEnd, k => k.rest.isEmpty
  | lineStart, k => k.before.isNone || k.before == some '\n'
  | lineEnd, k => k.rest.isEmpty || k.rest.head? == some '\n'
  | wordEdge, k => wordBefore k != wordAfter k
  | notWordEdge, k => wordBefore k == wordAfter k
  | wordStart, k => !wordBefore k && wordAfter k
  | wordEnd, k => wordBefore k && !wordAfter k
  | noWordBefore, k => !wordBefore k
  | noWordAfter, k => !wordAfter k

end Look

namespace Expr

/-- The expressions one after the other. -/
def sequence : List Expr → Expr
  | [] => empty
  | [e] => e
  | e :: es => seq e (sequence es)

/-- One of the expressions, earlier ones preferred. -/
def choice : List Expr → Expr
  | [] => empty
  | [e] => e
  | e :: es => alt e (choice es)

end Expr

end Highlighting
