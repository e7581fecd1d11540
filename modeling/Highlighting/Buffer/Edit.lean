import Highlighting.Buffer.Pass

/-!
# Editing a buffer

Edits go to the store.  Splitting and joining lines also moves the frontier, so that each line
that is neither split nor joined stays on its side of it.  When the outermost transaction closes,
the changed lines are highlighted again, from one line before them to one line after, unless they
lie past the frontier.
-/

namespace Highlighting.Buffer

/-- Opens a transaction. -/
def editStart (b : Buffer) : Buffer :=
  { b with store := b.store.start.2 }

/-- Closes a transaction. -/
def editEnd (b : Buffer) (s : Shared) : Outcome Unit :=
  let (outermost, store) := b.store.finish
  let b := { b with store := store }
  if !outermost || !store.changed then ⟨.ok (), b, s⟩
  else match store.first, store.last with
    | some first, some last =>
      if last < first then ⟨.error (.invertedChange first last), b, s⟩
      else if b.handle.isNone then ⟨.ok (), b, s⟩
      else
        let (b, s) := b.sync s
        if b.frontier < first then ⟨.ok (), b, s⟩
        else b.pass s (first - 1) (last + 1) true
    | _, _ => ⟨.error .unknownChange, b, s⟩

/-- The buffer with a new store, or as it was when the edit was refused. -/
def withStore {α : Type} (b : Buffer) (s : Shared) (r : Except Refusal (α × TextStore)) :
    Outcome α :=
  match r with
  | .error r => ⟨.error r, b, s⟩
  | .ok (a, store) => ⟨.ok a, { b with store := store }, s⟩

/-- Inserts a text without newlines. -/
def insert (b : Buffer) (s : Shared) (line col : Nat) (text : String) : Outcome Unit :=
  b.withStore s ((b.store.insert line col text).map fun t => ((), t))

/-- Removes part of a line, and gives the text that was there. -/
def remove (b : Buffer) (s : Shared) (line start stop : Nat) : Outcome String :=
  b.withStore s (b.store.remove line start stop)

/-- Splits a line. -/
def wrap (b : Buffer) (s : Shared) (line col : Nat) : Outcome Unit :=
  let (b, s) := b.sync s
  match b.store.wrap line col with
  | .error r => ⟨.error r, b, s⟩
  | .ok store =>
    let frontier := if line + 1 < b.frontier then b.frontier + 1 else b.frontier
    ⟨.ok (), { b with store := store, frontier := frontier }, s⟩

/-- Joins a line to the one before it. -/
def unwrap (b : Buffer) (s : Shared) (line : Nat) : Outcome Unit :=
  let (b, s) := b.sync s
  match b.store.unwrap line with
  | .error r => ⟨.error r, b, s⟩
  | .ok store =>
    let frontier := if line < b.frontier then b.frontier - 1 else b.frontier
    ⟨.ok (), { b with store := store, frontier := frontier }, s⟩

/-- Joins the lines with these numbers to the ones after them, in the order given.  A last line is
joined to the one before it instead, and an only line left as it is. -/
def unwrapEach (b : Buffer) (s : Shared) : List Nat → Outcome Unit
  | [] => ⟨.ok (), b, s⟩
  | line :: lines =>
    let o : Outcome Unit :=
      if line + 1 < b.lineCount then b.unwrap s (line + 1)
      else if line ≠ 0 then b.unwrap s line
      else ⟨.ok (), b, s⟩
    match o with
    | ⟨.error r, b, s⟩ => ⟨.error r, b, s⟩
    | ⟨.ok (), b, s⟩ => unwrapEach b s lines

/-- Joins each of the lines `first` to `last` to the one after it, the last of them first. -/
def unwrapLines (b : Buffer) (s : Shared) (first last : Nat) : Outcome Unit :=
  if last < first then ⟨.error (.invertedLines first last), b, s⟩
  else if b.lineCount ≤ last then ⟨.error (.noLine last), b, s⟩
  else b.unwrapEach s (List.range' first (last + 1 - first)).reverse

/-! ## Settings -/

/-- Uses another definition.  A definition that highlights nothing leaves a buffer that had none
as it was. -/
def setHandle (b : Buffer) (h : Handle) : Buffer :=
  if (b.handle.map (·.id)) = some h.id then b
  else
    let stale := !h.plain || b.handle.isSome
    let b := { b with handle := some h }
    let b := if stale then b.invalidate else b
    let b := b.emit (.definition h.name)
    match h.indentation with
    | some mode => { b with indentation := some mode }
    | none => b

/-- Changes the width of a tab.  Regions by indentation depend on it. -/
def setTabWidth (b : Buffer) (width : Nat) : Buffer :=
  if width = 0 ∨ width = b.tabWidth then b
  else
    let b := { b with tabWidth := width }
    if b.handle.any fun h => h.folding == .indentation then b.invalidate else b

end Highlighting.Buffer
