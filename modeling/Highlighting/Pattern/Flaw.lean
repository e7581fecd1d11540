/-!
# Flawed patterns

Why a text is no pattern.  Nothing else is told about a flaw than its kind, and the piece of the
text that shows it where that is short.
-/

namespace Highlighting

/-- Why a text is no pattern. -/
inductive Flaw
  | unclosedGroup
  | unopenedGroup
  | unclosedClass
  | unclosedCount
  | badCount
  | nothingToRepeat
  | trailingEscape
  | unknownEscape (c : Char)
  | badCodePoint
  | backReference
  | lookAround
  | badFlags
  | badGroupName
  | repeatedGroupName (name : String)
  | badRange
  | notACharacter
  | unknownProperty
  | unknownBoundary
  | tooLarge
  deriving Repr, DecidableEq

end Highlighting
