import Highlighting.Pattern.Flaw

/-!
# What can go wrong with a definition, a name or a setting

Highlighting itself never fails.  An error says what was wrong; its wording is in `message` alone.
-/

namespace Highlighting

/-- Why a definition could not be built, found or configured. -/
inductive Error
  /-- A file could not be read, or holds no text. -/
  | unreadable
  /-- The source of a definition is malformed, or its fields are not those of a definition. -/
  | malformed
  /-- A pattern of the rule is flawed. -/
  | flawedRule (rule : String) (flaw : Flaw)
  | unknownDefinition (name : String)
  | unknownToken (name : String)
  /-- A rule that makes its end on the spot has no place for the captured text in it. -/
  | noPlaceholder (rule : String)
  | priorityRange (rule : String) (value : Int)
  | foldRange (rule : String) (value : Int)
  | tooManyConstructs
  /-- A setting is no number. -/
  | badSetting (key value : String)
  deriving Repr, DecidableEq

/-- What stands in a derived end for the text that the start captured. -/
def placeholder : String :=
  "%1"

/-- The wording of an error. -/
def Error.message : Error → String
  | unreadable => "I/O error"
  | malformed => "TOML error"
  | flawedRule rule _ => s!"Invalid rule '{rule}'"
  | unknownDefinition name => s!"No such highlighting definition: {name}"
  | unknownToken name => s!"Unknown token type: {name}"
  | noPlaceholder rule =>
    s!"Invalid definition: dynamic rule '{rule}' has no {placeholder} in its end pattern"
  | priorityRange rule value =>
    s!"Invalid definition: {rule}: priority {value} out of range"
  | foldRange rule value =>
    s!"Invalid definition: {rule}: fold value {value} out of range"
  | tooManyConstructs => "Invalid definition: too many multiline rules"
  | badSetting key value => s!"Invalid config value for '{key}': {value}"

end Highlighting
