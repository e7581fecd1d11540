import Highlighting.Error
import Highlighting.Text.Newlines
import Highlighting.Unicode.Blank
import Highlighting.Unicode.Lowercase

/-!
# Settings

A settings file assigns numbers to keys, one assignment a line.  What a key is worth is what its
last assignment says; keys that mean nothing are passed over, and so are comments and lines without
an assignment.
-/

namespace Highlighting

/-- What can be set. -/
structure Settings where
  /-- So many contexts in use make a buffer ask for a reset. -/
  maxContexts : Nat
  /-- Milliseconds that must pass between two resets. -/
  resetDelay : Nat
  tabWidth : Nat
  /-- How many more lines a search for a region highlights at each step. -/
  lookahead : Nat
  deriving Repr, DecidableEq

namespace Settings

/-- What holds when nothing is set. -/
def standard : Settings :=
  ⟨512, 30000, 8, 0⟩

/-! ## Assignments -/

/-- The key and the value of a line, if it assigns one.  The key is in lower case, and white space
around both is left out. -/
def assignment? (line : List Char) : Option (String × String) :=
  match Unicode.trimChars line with
  | [] => none
  | '#' :: _ => none
  | cs =>
    match cs.dropWhile (· != '=') with
    | [] => none
    | _ :: value =>
      some (Unicode.lowercase (Unicode.trim (String.ofList (cs.takeWhile (· != '=')))),
        Unicode.trim (String.ofList value))

/-- The assignments of a file, in order. -/
def assignments (contents : String) : List (String × String) :=
  (Text.splitNewlines contents.toList).filterMap assignment?

/-- What the last assignment of a key says. -/
def lastValue (key : String) (as : List (String × String)) : Option String :=
  as.foldl (fun found a => if a.1 == key then some a.2 else found) none

/-! ## Numbers -/

/-- The largest number that can be set. -/
def maxNumber : Nat :=
  UInt64.size - 1

/-- Decimal digits, perhaps after a plus sign, for a number that is not too large. -/
def number? (s : String) : Option Nat :=
  let digits := match s.toList with
    | '+' :: cs => cs
    | cs => cs
  if digits.isEmpty || !digits.all Char.isDigit then none
  else
    let n := digits.foldl (fun n c => 10 * n + (c.toNat - '0'.toNat)) 0
    if n ≤ maxNumber then some n else none

/-- The number that is set for a key, if there is one. -/
def setting (key : String) (as : List (String × String)) : Except Error (Option Nat) :=
  match lastValue key as with
  | none => .ok none
  | some value =>
    match number? value with
    | some n => .ok (some n)
    | none => .error (.badSetting key value)

/-! ## Files -/

/-- The settings that a file makes.  There must be room for one context, and a tab is between 1 and
16 wide. -/
def ofContents (contents : String) : Except Error Settings := do
  let as := assignments contents
  let maxContexts ← setting "max-dynamic-contexts" as
  let resetDelay ← setting "dynamic-reset-delay-ms" as
  let tabWidth ← setting "tab-width" as
  let lookahead ← setting "fold-lookahead" as
  return {
    maxContexts := (maxContexts.map fun n => max n 1).getD standard.maxContexts
    resetDelay := resetDelay.getD standard.resetDelay
    tabWidth := (tabWidth.map fun n => min (max n 1) 16).getD standard.tabWidth
    lookahead := lookahead.getD standard.lookahead }

/-- The settings of a file that may be missing or flawed; nothing is set then. -/
def load (contents : Option String) : Settings :=
  match contents with
  | none => standard
  | some contents => (ofContents contents).toOption.getD standard

end Settings

end Highlighting
