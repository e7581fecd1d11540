import Highlighting.Contexts

/-!
# What the buffers of a session share

All buffers scan with one table of contexts.  It can only be emptied as a whole, which invalidates
the highlighting of every open buffer; each of them holds a slot through which it is asked to
rebuild.

Resets are granted only so long after one another.  How much time passes between two looks at the
clock is not for the table to say: the pauses are given beforehand, and the clock stands still when
they are used up.

They also share the machine they run on.  A line number takes 64 bits there, and what becomes of a
sum that does not fit depends on how the program was built.
-/

namespace Highlighting

/-- A line that was scanned: by which handle, and what its number and text were. -/
structure ScanRecord where
  handle : Nat
  line : Nat
  text : String
  deriving Repr, DecidableEq

/-- How line numbers are added. -/
inductive Sums
  /-- A sum has no bound. -/
  | unbounded
  /-- A sum that does not fit is refused. -/
  | checked
  /-- A sum that does not fit loses its highest bit. -/
  | wrapping
  deriving Repr, DecidableEq

namespace Sums

/-- The largest line number. -/
def top : Nat :=
  UInt64.size - 1

/-- The sum of two line numbers, unless it is refused. -/
def add? : Sums → Nat → Nat → Option Nat
  | unbounded, a, b => some (a + b)
  | checked, a, b => if b ≤ top - a then some (a + b) else none
  | wrapping, a, b => some (if b ≤ top - a then a + b else a + b - (top + 1))

/-- Adding the two gives their sum. -/
def Fits (m : Sums) (a b : Nat) : Prop :=
  m.add? a b = some (a + b)

instance (m : Sums) (a b : Nat) : Decidable (m.Fits a b) :=
  inferInstanceAs (Decidable (m.add? a b = some (a + b)))

/-- Adding the two gives nothing but their sum. -/
def Exact (m : Sums) (a b : Nat) : Prop :=
  ∀ c, m.add? a b = some c → c = a + b

theorem fits_unbounded (a b : Nat) : unbounded.Fits a b :=
  rfl

/-- What there is room for can be added on every machine. -/
theorem fits_of_le {a b : Nat} (h : b ≤ top - a) (m : Sums) : m.Fits a b := by
  cases m with
  | unbounded => rfl
  | checked => exact if_pos h
  | wrapping => exact congrArg some (if_pos h)

@[simp] theorem fits_zero (m : Sums) (a : Nat) : m.Fits a 0 :=
  fits_of_le (Nat.zero_le _) m

theorem Fits.exact {m : Sums} {a b : Nat} (h : m.Fits a b) : m.Exact a b :=
  fun _ hc => Option.some.inj (hc.symm.trans h)

end Sums

/-- What the buffers of a session share. -/
structure Shared where
  contexts : Contexts
  /-- Milliseconds that must pass between two resets. -/
  resetDelay : Nat
  /-- Milliseconds from the last reset to the last look at the clock; none before the first. -/
  sinceReset : Option Nat
  /-- Milliseconds that pass before each of the next looks at the clock. -/
  pauses : List Nat
  /-- Are resets refused for the time being? -/
  suppressed : Bool
  /-- The slots in use, each with whether a rebuild is pending. -/
  slots : List (Nat × Bool)
  /-- The next slot to be given. -/
  nextSlot : Nat
  /-- The lines scanned, the latest first. -/
  scans : List ScanRecord
  /-- How line numbers are added; that never changes. -/
  sums : Sums
  deriving Repr, DecidableEq

namespace Shared

/-- Nothing shared yet. -/
def fresh (resetDelay : Nat) (sums : Sums := .wrapping) : Shared :=
  ⟨.fresh, resetDelay, none, [], false, [], 0, [], sums⟩

/-! ## Contexts -/

/-- Looks at the clock, the time since the last reset having been `elapsed` at the last look: how
much it is now. -/
def look (s : Shared) (elapsed : Nat) : Nat × Shared :=
  let now := elapsed + s.pauses.headD 0
  (now, { s with sinceReset := some now, pauses := s.pauses.tail })

/-- Empties the table of contexts. -/
def empty (s : Shared) : Shared :=
  { s with contexts := s.contexts.emptied, sinceReset := some 0 }

/-- Empties the table of contexts, if that is granted; says whether it was.  It is refused while
resets are suppressed, and too soon after the last one. -/
def reset (s : Shared) : Bool × Shared :=
  if s.suppressed then (false, s)
  else match s.sinceReset with
    | none => (true, s.empty)
    | some elapsed =>
      let (now, s) := s.look elapsed
      if now < s.resetDelay then (false, s) else (true, s.empty)

/-- Lets these pauses lie before the looks at the clock to come. -/
def wait (s : Shared) (pauses : List Nat) : Shared :=
  { s with pauses := s.pauses ++ pauses }

/-- Refuses or allows resets. -/
def suppress (s : Shared) (on : Bool) : Shared :=
  { s with suppressed := on }

/-- Makes or finds a context. -/
def intern (s : Shared) (source : String) : Option Nat × Shared :=
  let (id, contexts) := s.contexts.intern source
  (id, { s with contexts := contexts })

/-! ## Slots -/

/-- Gives out a slot. -/
def register (s : Shared) : Nat × Shared :=
  (s.nextSlot, { s with slots := s.slots ++ [(s.nextSlot, false)], nextSlot := s.nextSlot + 1 })

/-- Takes a slot back. -/
def release (s : Shared) (slot : Nat) : Shared :=
  { s with slots := s.slots.filter fun e => e.1 != slot }

/-- Is a rebuild pending for the slot? -/
def pending (s : Shared) (slot : Nat) : Bool :=
  s.slots.any fun e => e.1 == slot && e.2

/-- Answers the pending rebuild of a slot; says whether one was pending. -/
def takeRebuild (s : Shared) (slot : Nat) : Bool × Shared :=
  (s.pending slot,
    { s with slots := s.slots.map fun e => if e.1 == slot then (e.1, false) else e })

/-- Asks every open slot for a rebuild. -/
def requestRebuild (s : Shared) : Shared :=
  { s with slots := s.slots.map fun e => (e.1, true) }

/-! ## Scans -/

/-- Notes that a line was scanned. -/
def noteScan (s : Shared) (handle line : Nat) (text : String) : Shared :=
  { s with scans := ⟨handle, line, text⟩ :: s.scans }

/-- The texts that a handle has scanned, oldest first; they are forgotten. -/
def takeScans (s : Shared) (handle : Nat) : List String × Shared :=
  (((s.scans.filter fun r => r.handle == handle).map (·.text)).reverse,
    { s with scans := s.scans.filter fun r => r.handle != handle })

end Shared

end Highlighting
