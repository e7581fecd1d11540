import Highlighting.Buffer.Edit
import Highlighting.Catalog
import Highlighting.Folding.Range
import Highlighting.Settings

/-!
# Sessions

A session holds buffers, slots and handles under names, one catalog, and what the buffers share.
An operation takes it to the next state and gives an answer, or says why it was refused or failed.
-/

namespace Highlighting

/-- All that is alive at one moment. -/
structure Session where
  shared : Shared
  settings : Settings
  catalog : Catalog
  /-- The number of the next handle. -/
  nextHandle : Nat
  handles : List (String × Handle)
  slots : List (String × Nat)
  buffers : List (String × Buffer)

/-- Why an operation of a session gave no answer. -/
inductive Failure
  | refused (r : Refusal)
  | failed (e : Error)
  /-- Nothing has that name. -/
  | missing (name : String)
  deriving Repr, DecidableEq

/-- What an operation of a session answers. -/
inductive Answer
  | done
  | flag (b : Bool)
  | count (n : Option Nat)
  | text (s : Option String)
  | texts (ss : List String)
  | line (l : Line)
  | lines (ls : List Line)
  | range (r : Option FoldRange)
  | ranges (rs : List (Option FoldRange))
  | events (es : List Event)
  | language (l : Language)

/-- An operation on one buffer. -/
inductive BufferOp
  | setText (text : String)
  | clear
  | editStart
  | editEnd
  | insert (line col : Nat) (text : String)
  | remove (line start stop : Nat)
  | wrap (line col : Nat)
  | unwrap (line : Nat)
  | unwrapLines (first last : Nat)
  | invalidate
  | setTabWidth (width : Nat)
  | ensure (line lookahead : Nat)
  | fold (line : Nat)
  | folds
  | line (n : Nat)
  | dump
  | text
  | takeEvents
  deriving Repr, DecidableEq

/-- An operation on a session. -/
inductive Op
  /-- Keeps a definition under a name, perhaps behind an observer. -/
  | define (name : String) (language : Except Error Language) (observer : Bool)
  | dropHandle (name : String)
  /-- The texts that a handle has scanned since they were last asked for. -/
  | seen (name : String)
  | sameHandle (first second : String)
  | addLanguage (language : Except Error Language)
  | loadSource (source : String)
  | get (name : String) (keep : Option String)
  | plain (keep : Option String)
  | forPath (path : String) (keep : Option String)
  | detect (path : String)
  | names
  /-- How many hold the definition of this name, the catalog left out. -/
  | useCount (name : String)
  | intern (source : String)
  | resolve (id : Nat)
  | contextCount
  /-- Time passes: so much before each of the looks at the clock to come. -/
  | wait (pauses : List Nat)
  | reset
  | suppress (on : Bool)
  | suppressed
  | requestRebuild
  | openSlots
  | register (slot : String)
  | dropSlot (slot : String)
  | pending (slot : String)
  | takeRebuild (slot : String)
  | newBuffer (name : String) (text : Option String) (settings : Option Settings)
  | dropBuffer (name : String)
  | useHandle (name handle : String)
  | useNamed (name language : String)
  | buffer (name : String) (op : BufferOp)

namespace Session

/-- A session in which nothing has happened. -/
def start (resetDelay : Nat) (settings : Settings) (sums : Sums := .wrapping) : Session :=
  { shared := .fresh resetDelay sums
    settings := settings
    catalog := .builtin
    nextHandle := Builtin.languages.length
    handles := []
    slots := []
    buffers := [] }

/-- What comes of an operation. -/
abbrev Result := Except Failure Answer × Session

/-- The entries without those of a name. -/
def without {α : Type} (name : String) (entries : List (String × α)) : List (String × α) :=
  entries.filter fun e => e.1 != name

/-- The entries with one of a name, which replaces those that were there. -/
def put {α : Type} (name : String) (a : α) (entries : List (String × α)) : List (String × α) :=
  (name, a) :: without name entries

/-! ## Buffers -/

/-- The buffer of a name with what an operation left behind. -/
def store {α : Type} (s : Session) (name : String) (o : Outcome α) : Session :=
  { s with shared := o.shared, buffers := put name o.buffer s.buffers }

/-- The regions that start on each of the lines, `count` of them from `line` on. -/
def foldEach (b : Buffer) (s : Shared) : (count line : Nat) → Outcome (List (Option FoldRange))
  | 0, _ => ⟨.ok [], b, s⟩
  | count + 1, line =>
    match b.foldRange s line with
    | ⟨.error r, b, s⟩ => ⟨.error r, b, s⟩
    | ⟨.ok range, b, s⟩ =>
      match foldEach b s count (line + 1) with
      | ⟨.error r, b, s⟩ => ⟨.error r, b, s⟩
      | ⟨.ok ranges, b, s⟩ => ⟨.ok (range :: ranges), b, s⟩

/-- An outcome with another result. -/
def conclude {α : Type} (o : Outcome α) (answer : α → Answer) : Outcome Answer :=
  ⟨o.result.map answer, o.buffer, o.shared⟩

/-- What an operation does to a buffer. -/
def runOnBuffer (b : Buffer) (s : Shared) : BufferOp → Outcome Answer
  | .setText text => ⟨.ok .done, b.setText text, s⟩
  | .clear => ⟨.ok .done, b.clear, s⟩
  | .editStart => ⟨.ok .done, b.editStart, s⟩
  | .editEnd => conclude (b.editEnd s) fun _ => .done
  | .insert line col text => conclude (b.insert s line col text) fun _ => .done
  | .remove line start stop => conclude (b.remove s line start stop) fun t => .text (some t)
  | .wrap line col => conclude (b.wrap s line col) fun _ => .done
  | .unwrap line => conclude (b.unwrap s line) fun _ => .done
  | .unwrapLines first last => conclude (b.unwrapLines s first last) fun _ => .done
  | .invalidate => ⟨.ok .done, b.invalidate, s⟩
  | .setTabWidth width => ⟨.ok .done, b.setTabWidth width, s⟩
  | .ensure line lookahead => conclude (b.ensure s line lookahead) fun _ => .done
  | .fold line => conclude (b.foldRange s line) .range
  | .folds => conclude (foldEach b s b.lineCount 0) .ranges
  | .line n => ⟨(b.store.line n).map .line, b, s⟩
  | .dump => ⟨.ok (.lines b.store.lines.toList), b, s⟩
  | .text => ⟨.ok (.text (some b.store.text)), b, s⟩
  | .takeEvents =>
    let (es, b, s) := b.takeEvents s
    ⟨.ok (.events es), b, s⟩

/-- The session without the buffer of a name. -/
def closeBuffer (s : Session) (name : String) : Session :=
  match s.buffers.lookup name with
  | none => s
  | some b => { s with shared := s.shared.release b.slot, buffers := without name s.buffers }

/-- The session without the slot of a name. -/
def closeSlot (s : Session) (name : String) : Session :=
  match s.slots.lookup name with
  | none => s
  | some slot => { s with shared := s.shared.release slot, slots := without name s.slots }

/-! ## Handles -/

/-- Keeps a handle under a name, if one is given. -/
def keep (s : Session) (name : Option String) (h : Handle) : Session :=
  match name with
  | some n => { s with handles := put n h s.handles }
  | none => s

/-- A new handle of a language. -/
def newHandle (s : Session) (l : Language) (observer : Bool) : Handle × Session :=
  (⟨s.nextHandle, l, observer⟩, { s with nextHandle := s.nextHandle + 1 })

/-- Adds a language to the catalog. -/
def addLanguage (s : Session) (l : Language) : Session :=
  let (h, s) := s.newHandle l false
  { s with catalog := s.catalog.add h }

/-- How many handles and buffers hold the handle of this number. -/
def holders (s : Session) (id : Nat) : Nat :=
  (s.handles.filter fun e => e.2.id == id).length +
    (s.buffers.filter fun e => e.2.handle.any fun h => h.id == id).length

/-! ## Operations -/

/-- The operation on the buffer of a name. -/
def withBuffer (s : Session) (name : String) (f : Buffer → Result) : Result :=
  match s.buffers.lookup name with
  | none => (.error (.missing name), s)
  | some b => f b

/-- Uses a handle in the buffer of a name. -/
def useHandle (s : Session) (name : String) (h : Handle) : Result :=
  s.withBuffer name fun b =>
    (.ok .done, { s with buffers := put name (b.setHandle h) s.buffers })

/-- Takes a session to the next state. -/
def step (s : Session) : Op → Result
  | .define name language observer =>
    match language with
    | .error e => (.error (.failed e), s)
    | .ok l =>
      let (h, s) := s.newHandle l observer
      (.ok .done, s.keep (some name) h)
  | .dropHandle name =>
    (.ok (.flag (s.handles.lookup name).isSome), { s with handles := without name s.handles })
  | .seen name =>
    match s.handles.lookup name with
    | none => (.error (.missing name), s)
    | some h =>
      let (texts, shared) := s.shared.takeScans h.id
      (.ok (.texts texts), { s with shared := shared })
  | .sameHandle first second =>
    match s.handles.lookup first, s.handles.lookup second with
    | some a, some b => (.ok (.flag (a.id == b.id)), s)
    | none, _ => (.error (.missing first), s)
    | _, none => (.error (.missing second), s)
  | .addLanguage language =>
    match language with
    | .error e => (.error (.failed e), s)
    | .ok l => (.ok (.text (some l.name)), s.addLanguage l)
  | .loadSource source =>
    match Language.ofSource source with
    | .error e => (.error (.failed e), s)
    | .ok l => (.ok (.language l), s.addLanguage l)
  | .get name keepAs =>
    match s.catalog.get name with
    | .error e => (.error (.failed e), s)
    | .ok h => (.ok (.text (some h.name)), s.keep keepAs h)
  | .plain keepAs => (.ok (.text (some s.catalog.plain.name)), s.keep keepAs s.catalog.plain)
  | .forPath path keepAs =>
    let h := s.catalog.forPath path
    (.ok (.text (some h.name)), s.keep keepAs h)
  | .detect path => (.ok (.text (s.catalog.detect? path)), s)
  | .names => (.ok (.texts s.catalog.names), s)
  | .useCount name =>
    (.ok (.count ((s.catalog.languages.lookup name).map fun h => s.holders h.id)), s)
  | .intern source =>
    let (id, shared) := s.shared.intern source
    (.ok (.count id), { s with shared := shared })
  | .resolve id => (.ok (.text ((s.shared.contexts.resolve id).map (·.source))), s)
  | .contextCount => (.ok (.count (some s.shared.contexts.size)), s)
  | .wait pauses => (.ok .done, { s with shared := s.shared.wait pauses })
  | .reset =>
    let (granted, shared) := s.shared.reset
    (.ok (.flag granted), { s with shared := shared })
  | .suppress on => (.ok .done, { s with shared := s.shared.suppress on })
  | .suppressed => (.ok (.flag s.shared.suppressed), s)
  | .requestRebuild => (.ok .done, { s with shared := s.shared.requestRebuild })
  | .openSlots => (.ok (.count (some s.shared.slots.length)), s)
  | .register name =>
    let s := s.closeSlot name
    let (slot, shared) := s.shared.register
    (.ok .done, { s with shared := shared, slots := put name slot s.slots })
  | .dropSlot name => (.ok (.flag (s.slots.lookup name).isSome), s.closeSlot name)
  | .pending name =>
    match s.slots.lookup name with
    | none => (.error (.missing name), s)
    | some slot => (.ok (.flag (s.shared.pending slot)), s)
  | .takeRebuild name =>
    match s.slots.lookup name with
    | none => (.error (.missing name), s)
    | some slot =>
      let (pending, shared) := s.shared.takeRebuild slot
      (.ok (.flag pending), { s with shared := shared })
  | .newBuffer name text settings =>
    let s := s.closeBuffer name
    let use := settings.getD s.settings
    let (b, shared) := Buffer.create use.maxContexts use.tabWidth use.lookahead s.shared
    let b := match text with
      | some t => b.setText t
      | none => b
    (.ok .done, { s with shared := shared, buffers := put name b s.buffers })
  | .dropBuffer name => (.ok (.flag (s.buffers.lookup name).isSome), s.closeBuffer name)
  | .useHandle name handle =>
    match s.handles.lookup handle with
    | none => (.error (.missing handle), s)
    | some h => s.useHandle name h
  | .useNamed name language =>
    match s.catalog.get language with
    | .error e => (.error (.failed e), s)
    | .ok h => s.useHandle name h
  | .buffer name op =>
    s.withBuffer name fun b =>
      let o := runOnBuffer b s.shared op
      (o.result.mapError .refused, s.store name o)

end Session

end Highlighting
