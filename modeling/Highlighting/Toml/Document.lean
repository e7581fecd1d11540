import Highlighting.Toml.Number
import Highlighting.Toml.Text

/-!
# TOML documents

A document is read into statements, one a line, and the statements build a table.  A key is given
once.  A header may add to a table that the header of an inner table implied, but not to one that
has a header or values of its own, and a dotted key adds only to what dotted keys made.
-/

namespace Highlighting.Toml

/-! ## Building tables -/

/-- Changes the table at a path.  Tables that are missing on the way are made; of several tables
with one header, the last is meant.  With `dotted` the path is part of a dotted key, which passes
no table that has a header. -/
def changeAt (dotted : Bool) : (path : List String) → (TableForm → Entries → Option Entries) →
    TableForm → Entries → Option Entries
  | [], change, form, es => change form es
  | key :: path, change, _, es =>
    match es.lookup key with
    | none =>
      let form : TableForm := if dotted then .dotted else .implied
      (changeAt dotted path change form []).map fun inner => es ++ [(key, .table form inner)]
    | some (.table form inner) =>
      if form == .inline || (dotted && form == .declared) then none
      else (changeAt dotted path change form inner).map fun inner =>
        Entries.set key (.table form inner) es
    | some (.tables items) =>
      match items.getLast? with
      | some (.table form inner) =>
        (changeAt dotted path change form inner).map fun inner =>
          Entries.set key (.tables (items.dropLast ++ [.table form inner])) es
      | _ => none
    | some _ => none

/-- Gives a key its value.  The key must be new, and its table be one that dotted keys made, unless
it is the present one. -/
def assign (path : List String) (key : String) (value : Node) (form : TableForm) (es : Entries) :
    Option Entries :=
  changeAt true path (fun form es =>
    if !path.isEmpty && form != .dotted then none
    else if (es.lookup key).isSome then none
    else some (es ++ [(key, value)])) form es

/-- Gives a table its header. -/
def declareTable (path : List String) (key : String) (es : Entries) : Option Entries :=
  changeAt false path (fun _ es =>
    match es.lookup key with
    | none => some (es ++ [(key, .table .declared [])])
    | some (.table .implied inner) => some (Entries.set key (.table .declared inner) es)
    | some _ => none) .declared es

/-- Adds a table with a header in double brackets. -/
def declareItem (path : List String) (key : String) (es : Entries) : Option Entries :=
  changeAt false path (fun _ es =>
    match es.lookup key with
    | none => some (es ++ [(key, .tables [.table .declared []])])
    | some (.tables items) =>
      some (Entries.set key (.tables (items ++ [.table .declared []])) es)
    | some _ => none) .declared es

/-! ## Values -/

/-- Values with commas between them, each with filler around it, in so many rounds. -/
def arrayItems (value : List Char → Option (Node × List Char)) :
    (rounds : Nat) → List Char → List Node × List Char
  | 0, cs => ([], cs)
  | rounds + 1, cs =>
    match value (skipFiller cs.length cs) with
    | none => ([], cs)
    | some (v, rest) =>
      match skipFiller rest.length rest with
      | ',' :: rest =>
        let (vs, rest) := arrayItems value rounds rest
        (v :: vs, rest)
      | rest => ([v], rest)

/-- A key and a value with an equals sign between them. -/
def assignment? (value : List Char → Option (Node × List Char)) (cs : List Char) :
    Option ((List String × Node) × List Char) := do
  let (key, rest) ← key? cs
  match rest with
  | '=' :: rest =>
    let (v, rest) ← value (skipSpaces rest)
    return ((key, v), rest)
  | _ => none

/-- Assignments with commas between them, in so many rounds.  No comma follows the last. -/
def inlineEntries (value : List Char → Option (Node × List Char)) :
    (rounds : Nat) → List Char → Entries → Option (Entries × List Char)
  | 0, _, _ => none
  | rounds + 1, cs, es =>
    match assignment? value cs with
    | none => none
    | some ((key, v), rest) =>
      match key.getLast? with
      | none => none
      | some last =>
        match assign key.dropLast last v .inline es with
        | none => none
        | some es =>
          match skipSpaces rest with
          | ',' :: rest => inlineEntries value rounds rest es
          | rest => some (es, rest)

/-- A value that lies at most so deep. -/
def value? : (depth : Nat) → List Char → Option (Node × List Char)
  | depth, cs =>
    match cs with
    | '[' :: cs =>
      match depth with
      | 0 => none
      | depth + 1 =>
        let (items, rest) := arrayItems (value? depth) cs.length cs
        match skipFiller rest.length rest with
        | ']' :: rest => some (.array items, rest)
        | _ => none
    | '\x7b' :: cs =>
      match depth with
      | 0 => none
      | depth + 1 =>
        match skipSpaces cs with
        | '\x7d' :: rest => some (.table .inline [], rest)
        | cs =>
          match inlineEntries (value? depth) cs.length cs [] with
          | some (es, '\x7d' :: rest) => some (.table .inline es, rest)
          | _ => none
    | 't' :: 'r' :: 'u' :: 'e' :: rest => some (.scalar (.boolean true), rest)
    | 'f' :: 'a' :: 'l' :: 's' :: 'e' :: rest => some (.scalar (.boolean false), rest)
    | c :: _ =>
      if c == '"' || c == '\'' then (string? cs).map fun (s, rest) => (.scalar (.string s), rest)
      else (numeric cs).map fun (s, rest) => (.scalar s, rest)
    | [] => none

/-! ## Statements -/

/-- A line of a document. -/
inductive Statement
  | table (key : List String)
  | item (key : List String)
  | assign (key : List String) (value : Node)

/-- A line of a document that is neither empty nor a comment. -/
def statement? (cs : List Char) : Option (Statement × List Char) :=
  match cs with
  | '[' :: '[' :: cs =>
    match key? cs with
    | some (key, ']' :: ']' :: rest) => (lineEnd? rest).map fun rest => (.item key, rest)
    | _ => none
  | '[' :: cs =>
    match key? cs with
    | some (key, ']' :: rest) => (lineEnd? rest).map fun rest => (.table key, rest)
    | _ => none
  | cs =>
    match assignment? (value? (depthLimit - 1)) cs with
    | some ((key, v), rest) => (lineEnd? rest).map fun rest => (.assign key v, rest)
    | none => none

/-- The statements of a text, in so many rounds. -/
def statements : (rounds : Nat) → List Char → Option (List Statement)
  | 0, cs => if cs.isEmpty then some [] else none
  | rounds + 1, cs =>
    match skipSpaces cs with
    | [] => some []
    | '#' :: cs => (lineEnd? ('#' :: cs)).bind (statements rounds)
    | '\n' :: cs => statements rounds cs
    | '\r' :: '\n' :: cs => statements rounds cs
    | cs =>
      match statement? cs with
      | none => none
      | some (s, rest) => (statements rounds rest).map (s :: ·)

/-- The statements that build a table, the present header being `header`. -/
def build : (header : List String) → Entries → List Statement → Option Entries
  | _, es, [] => some es
  | header, es, s :: ss =>
    match s with
    | .table key =>
      key.getLast?.bind fun last =>
        (declareTable key.dropLast last es).bind fun es => build key es ss
    | .item key =>
      key.getLast?.bind fun last =>
        (declareItem key.dropLast last es).bind fun es => build key es ss
    | .assign key value =>
      key.getLast?.bind fun last =>
        (changeAt false header (assign key.dropLast last value) .declared es).bind fun es =>
          build header es ss

/-- Reads a document.  A byte order mark at its start is passed over. -/
def document? (source : String) : Option Entries :=
  let cs := match source.toList with
    | '\ufeff' :: cs => cs
    | cs => cs
  (statements (cs.length + 1) cs).bind (build [] [])

end Highlighting.Toml
