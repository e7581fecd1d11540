import Highlighting.Toml.Reading

/-!
# Strings and keys of a TOML document

A string stands in single quotes as it is, or in double quotes with escapes; with three quotes it
goes over several lines.  A key is a string on one line or a bare word, or several of them with dots
between.
-/

namespace Highlighting.Toml

/-! ## Strings -/

/-- The character that hexadecimal digits name. -/
def scalarOf? (digits : List Char) : Option Char :=
  let value? (c : Char) : Option Nat :=
    if c.isDigit then some (c.toNat - '0'.toNat)
    else if 'a' ≤ c && c ≤ 'f' then some (c.toNat - 'a'.toNat + 10)
    else if 'A' ≤ c && c ≤ 'F' then some (c.toNat - 'A'.toNat + 10)
    else none
  (digits.mapM value?).bind fun ds =>
    let n := ds.foldl (fun n d => 16 * n + d) 0
    if n.isValidChar then some (Char.ofNat n) else none

/-- What stands after a backslash. -/
def escaped? : List Char → Option (List Char × List Char)
  | 'b' :: cs => some (['\x08'], cs)
  | 't' :: cs => some (['\t'], cs)
  | 'n' :: cs => some (['\n'], cs)
  | 'f' :: cs => some (['\x0c'], cs)
  | 'r' :: cs => some (['\r'], cs)
  | '"' :: cs => some (['"'], cs)
  | '\\' :: cs => some (['\\'], cs)
  | 'u' :: cs =>
    if cs.length < 4 then none else (scalarOf? (cs.take 4)).map fun c => ([c], cs.drop 4)
  | 'U' :: cs =>
    if cs.length < 8 then none else (scalarOf? (cs.take 8)).map fun c => ([c], cs.drop 8)
  | _ => none

/-- A piece of a string in double quotes. -/
def basicPiece : List Char → Option (List Char × List Char)
  | '\\' :: cs => escaped? cs
  | c :: cs => if c != '"' && isVisible c then some ([c], cs) else none
  | [] => none

/-- A piece of a string in single quotes. -/
def literalPiece : List Char → Option (List Char × List Char)
  | c :: cs => if c != '\'' && isVisible c then some ([c], cs) else none
  | [] => none

/-- A backslash at the end of a line: it and all white space after it are left out. -/
def continuation? (cs : List Char) : Option (List Char × List Char) :=
  (newline? (skipSpaces cs)).map fun rest => ([], skipBlank rest)

/-- A piece of a string over several lines.  Up to two quotes in a row are part of it. -/
def multilinePiece (quote : Char) (piece : List Char → Option (List Char × List Char))
    (cs : List Char) : Option (List Char × List Char) :=
  match newline? cs with
  | some rest => some (['\n'], rest)
  | none =>
    match cs with
    | a :: b :: c :: rest =>
      if a == quote then
        if b == quote && c == quote then none else some ([a], b :: c :: rest)
      else piece cs
    | a :: rest => if a == quote then some ([a], rest) else piece cs
    | [] => none

/-- The end of a string over several lines: three quotes, before which two more may stand. -/
def multilineClose (quote : Char) (cs : List Char) : Option (List Char × List Char) :=
  let quotes := (cs.take 5).takeWhile (· == quote)
  if 3 ≤ quotes.length then some (quotes.drop 3, cs.drop quotes.length) else none

/-- A string on one line, after its opening quote. -/
def singleLine (quote : Char) (piece : List Char → Option (List Char × List Char))
    (cs : List Char) : Option (String × List Char) :=
  let (pieces, rest) := many piece cs.length cs
  match rest with
  | c :: rest => if c == quote then some (String.ofList pieces.flatten, rest) else none
  | [] => none

/-- A string over several lines, after its opening quotes.  A newline right after them is left
out. -/
def multiline (quote : Char) (piece : List Char → Option (List Char × List Char))
    (cs : List Char) : Option (String × List Char) :=
  let cs := (newline? cs).getD cs
  let (pieces, rest) := many (multilinePiece quote piece) cs.length cs
  (multilineClose quote rest).map fun (quotes, rest) =>
    (String.ofList (pieces.flatten ++ quotes), rest)

/-- A piece of a string in double quotes over several lines. -/
def basicMultilinePiece : List Char → Option (List Char × List Char)
  | '\\' :: cs => (continuation? cs).or (escaped? cs)
  | cs => basicPiece cs

/-- A string of any kind. -/
def string? : List Char → Option (String × List Char)
  | '"' :: '"' :: '"' :: cs => multiline '"' basicMultilinePiece cs
  | '\'' :: '\'' :: '\'' :: cs => multiline '\'' literalPiece cs
  | '"' :: cs => singleLine '"' basicPiece cs
  | '\'' :: cs => singleLine '\'' literalPiece cs
  | _ => none

/-! ## Keys -/

/-- May the character stand in a key without quotes? -/
def isBare (c : Char) : Bool :=
  (c.toNat < 128 && c.isAlphanum) || c == '_' || c == '-'

/-- One part of a key. -/
def keyPart? : List Char → Option (String × List Char)
  | '"' :: cs => singleLine '"' basicPiece cs
  | '\'' :: cs => singleLine '\'' literalPiece cs
  | cs =>
    let part := cs.takeWhile isBare
    if part.isEmpty then none else some (String.ofList part, cs.dropWhile isBare)

/-- A key has fewer parts than this, and values lie less deep. -/
def depthLimit : Nat :=
  80

/-- A key of one part or of several with dots between them. -/
def key? (cs : List Char) : Option (List String × List Char) := do
  let (first, rest) ← keyPart? (skipSpaces cs)
  let more (cs : List Char) : Option (String × List Char) :=
    match skipSpaces cs with
    | '.' :: cs => keyPart? (skipSpaces cs)
    | _ => none
  let (others, rest) := many more rest.length rest
  if others.length + 1 < depthLimit then return (first :: others, skipSpaces rest) else none

end Highlighting.Toml
