import Highlighting.Language.Basic

/-!
# Definitions in use

Buffers and catalogs hold languages through handles.  A handle is told from another by its number
alone, so that a language that is defined twice over is still two definitions.
-/

namespace Highlighting

/-- A definition in use.  Two handles are the same when their numbers are. -/
structure Handle where
  id : Nat
  language : Language
  /-- Is it an observer around the definition?  An observer scans as the definition does, but goes
  by a name of its own and has none of the definition's settings. -/
  observer : Bool
  deriving Repr, DecidableEq

namespace Handle

/-- The name that a buffer reports. -/
def name (h : Handle) : String :=
  if h.observer then "Recording" else h.language.name

/-- Does it highlight nothing? -/
def plain (h : Handle) : Bool :=
  !h.observer && h.language.plain

/-- How its regions are found. -/
def folding (h : Handle) : FoldStyle :=
  if h.observer then .token else h.language.folding

/-- The way of indenting it prefers. -/
def indentation (h : Handle) : Option String :=
  if h.observer then none else h.language.indentation

end Handle

end Highlighting
