import Highlighting.Language.Basic
import Highlighting.Toml.Document

/-!
# Definition files

A definition file is a TOML document with the fields of a language.  It is read in two steps: the
fields are taken from the document, each of the right type, and the language is built from the
fields.  Keys that mean nothing are passed over.

An error in a rule is reported for the first rule that has one, patterns before constructs, and
within a rule in the order in which its fields are looked at.
-/

namespace Highlighting

open Toml (Node Entries)

/-! ## Fields -/

/-- The fields of a rule. -/
structure RuleFields where
  name : String
  regex : String
  token : String
  priority : Int
  fold : Int
  deriving Repr, DecidableEq

/-- The fields of a construct. -/
structure ConstructFields where
  name : String
  start : String
  stop : String
  token : String
  derived : Bool
  escape : Option Char
  fold : Int
  deriving Repr, DecidableEq

/-- The fields of a definition file. -/
structure DefinitionFile where
  name : String
  extensions : List String
  indentation : Option String
  folding : FoldStyle
  rules : List RuleFields
  constructs : List ConstructFields
  deriving Repr, DecidableEq

/-- The fields of an entry, by name or by position. -/
inductive Fields
  | named (es : Entries)
  | listed (items : List Node)

namespace Fields

/-- The fields of a table or an array. -/
def ofNode? : Node → Option Fields
  | .table _ es => some (named es)
  | .array items => some (listed items)
  | _ => none

/-- The field of a name, which stands at a position where fields are listed. -/
def get? (f : Fields) (name : String) (position : Nat) : Option Node :=
  match f with
  | named es => es.lookup name
  | listed items => items[position]?

/-- A field that must be there. -/
def required {α : Type} (f : Fields) (name : String) (position : Nat) (read : Node → Option α) :
    Option α :=
  (f.get? name position).bind read

/-- A field that may be missing. -/
def optional {α : Type} (f : Fields) (name : String) (position : Nat) (read : Node → Option α)
    (absent : α) : Option α :=
  match f.get? name position with
  | none => some absent
  | some node => read node

end Fields

/-- The fields of a rule in an entry. -/
def RuleFields.ofNode? (n : Node) : Option RuleFields := do
  let f ← Fields.ofNode? n
  let name ← f.required "name" 0 Node.string?
  let regex ← f.required "regex" 1 Node.string?
  let token ← f.required "token" 2 Node.string?
  let priority ← f.optional "priority" 3 Node.integer? 0
  let fold ← f.optional "fold" 4 Node.integer? 0
  return ⟨name, regex, token, priority, fold⟩

/-- The fields of a construct in an entry. -/
def ConstructFields.ofNode? (n : Node) : Option ConstructFields := do
  let f ← Fields.ofNode? n
  let name ← f.required "name" 0 Node.string?
  let start ← f.required "start" 1 Node.string?
  let stop ← f.required "end" 2 Node.string?
  let token ← f.required "token" 3 Node.string?
  let derived ← f.optional "dynamic" 4 Node.boolean? false
  let escape ← f.optional "escape" 5 (fun n => n.char?.map some) none
  let fold ← f.optional "fold" 6 Node.integer? 0
  return ⟨name, start, stop, token, derived, escape, fold⟩

/-- The fold style with a name. -/
def FoldStyle.ofName? : String → Option FoldStyle
  | "token" => some .token
  | "indentation" => some .indentation
  | _ => none

/-- The fold style that a value names: as a string, or as the key of a table with nothing in it. -/
def FoldStyle.ofNode? : Node → Option FoldStyle
  | .scalar (.string s) => ofName? s
  | .table _ [(key, value)] => if value.isVoid then ofName? key else none
  | _ => none

/-- The fields of a definition in a document. -/
def DefinitionFile.ofEntries? (es : Entries) : Option DefinitionFile := do
  let f := Fields.named es
  let list {α : Type} (read : Node → Option α) (n : Node) : Option (List α) :=
    n.items?.bind (·.mapM read)
  let name ← f.required "name" 0 Node.string?
  let extensions ← f.optional "extensions" 1 (list Node.string?) []
  let indentation ← f.optional "indentation" 2 (fun n => n.string?.map some) none
  let folding ← f.optional "folding" 3 FoldStyle.ofNode? .token
  let rules ← f.optional "pattern" 4 (list RuleFields.ofNode?) []
  let constructs ← f.optional "multiline" 5 (list ConstructFields.ofNode?) []
  return ⟨name, extensions, indentation, folding, rules, constructs⟩

/-! ## Building -/

/-- The kind with a name. -/
def TokenKind.named (name : String) : Except Error TokenKind :=
  match TokenKind.ofName? name with
  | some k => .ok k
  | none => .error (.unknownToken name)

/-- The value of a marker, which must fit into 16 bits. -/
def foldValue (rule : String) (value : Int) : Except Error Int :=
  if Int16.minValue.toInt ≤ value ∧ value ≤ Int16.maxValue.toInt then .ok value
  else .error (.foldRange rule value)

/-- The priority of a rule, which must fit into 32 bits. -/
def priorityValue (rule : String) (value : Int) : Except Error Int :=
  if Int32.minValue.toInt ≤ value ∧ value ≤ Int32.maxValue.toInt then .ok value
  else .error (.priorityRange rule value)

/-- The rule with these fields. -/
def RuleFields.build (f : RuleFields) : Except Error TokenRule := do
  let priority ← priorityValue f.name f.priority
  let kind ← TokenKind.named f.token
  let rule ← TokenRule.make f.name f.regex kind priority
  let fold ← foldValue f.name f.fold
  return rule.withFold fold

/-- The largest number of a construct. -/
def maxConstructs : Nat :=
  255

/-- The construct with these fields, with a number. -/
def ConstructFields.build (f : ConstructFields) (id : Nat) : Except Error Construct := do
  if maxConstructs < id then throw .tooManyConstructs
  let kind ← TokenKind.named f.token
  let k ←
    if f.derived then Construct.makeDerived f.name f.start f.stop kind id
    else Construct.makeFixed f.name f.start f.stop kind id
  let k := match f.escape with
    | some c => k.withEscape c
    | none => k
  let fold ← foldValue f.name f.fold
  return k.withFold fold

/-- The constructs with these fields, numbered from `id` on. -/
def buildConstructs (id : Nat) : List ConstructFields → Except Error (List Construct)
  | [] => .ok []
  | f :: fs => do
    let k ← f.build id
    return k :: (← buildConstructs (id + 1) fs)

/-- The language of a definition file. -/
def DefinitionFile.build (d : DefinitionFile) : Except Error Language := do
  let rules ← d.rules.mapM RuleFields.build
  let constructs ← buildConstructs 1 d.constructs
  let l : Language := { Language.named d.name with
    extensions := d.extensions, indentation := d.indentation, folding := d.folding }
  return constructs.foldl Language.addConstruct (rules.foldl Language.addRule l)

/-- The language that the source of a definition file defines. -/
def Language.ofSource (source : String) : Except Error Language :=
  match (Toml.document? source).bind DefinitionFile.ofEntries? with
  | none => .error .malformed
  | some d => d.build

end Highlighting
