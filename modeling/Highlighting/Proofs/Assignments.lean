import Mathlib.Data.List.Induction
import Mathlib.Data.List.TakeWhile
import Mathlib.Data.Nat.Digits.Defs
import Highlighting.Proofs.Definitions
import Highlighting.Proofs.Latest
import Highlighting.Settings

/-!
# What a settings file says

A settings file gives keys values, line by line, in any order and as often as it likes; the keys are
then looked at in an order of their own.  `Assigns` and `Denotes` say what a line and a value mean,
whatever the way in which they are read, and the latest line that gives a key a value counts:

    key and value read from a line            Assigns line key value      (assignment?_eq_some_iff)
    the last value of a key                   Gives contents key value                  (gives_iff)
    the number read from a value              Denotes value n                (number?_eq_some_iff)
    the checks of a file, key by key          Key.Offends                     (checks_ofContents)
    lines moved, or added to no effect        Revised lines lines'             (givenBy_revised)
    settings or error, for any file           last_assignments_decide
-/

namespace Highlighting.Settings

/-! ## Lines -/

/-- The line gives a key a value: it is neither blank nor a comment, and before its first equals
sign stands the key, behind it the value, white space aside, and of the key also case. -/
structure Assigns (line key value : String) : Prop where
  filled : Unicode.trim line ≠ ""
  noComment : (Unicode.trim line).toList.head? ≠ some '#'
  split : ∃ before after, line.toList = before ++ '=' :: after ∧ '=' ∉ before ∧
    Unicode.lowercase (Unicode.trim (String.ofList before)) = key ∧
    Unicode.trim (String.ofList after) = value

/-- The line gives the key some value. -/
def AssignsTo (line key : String) : Prop :=
  ∃ value, Assigns line key value

theorem isBlank_equals : Unicode.isBlank '=' = false := by
  decide

theorem isBlank_return : Unicode.isBlank '\r' = true := by
  decide

theorem assignment?_of_trim {cs ds : List Char}
    (h : Unicode.trimChars cs = Unicode.trimChars ds) : assignment? cs = assignment? ds := by
  unfold assignment?
  rw [h]

theorem assignment?_of_notMem {cs : List Char} (h : '=' ∉ cs) : assignment? cs = none := by
  have htrimmed : (Unicode.trimChars cs).dropWhile (· != '=') = [] := by
    rw [List.dropWhile_eq_nil_iff]
    intro c hc
    rw [bne_iff_ne]
    rintro rfl
    exact h (Unicode.mem_of_mem_trimChars hc)
  unfold assignment?
  split
  · rfl
  · rfl
  · rw [htrimmed]

/-- A line is divided at its first equals sign. -/
theorem divide_equals {front : List Char} (back : List Char) (h : '=' ∉ front) :
    (front ++ '=' :: back).takeWhile (· != '=') = front ∧
      (front ++ '=' :: back).dropWhile (· != '=') = '=' :: back := by
  have hall : ∀ c ∈ front, (c != '=') = true := fun c hc => by
    rw [bne_iff_ne]
    rintro rfl
    exact h hc
  rw [List.takeWhile_append_of_pos hall, List.dropWhile_append_of_pos hall]
  simp

/-- A line with an equals sign assigns what stands behind the first, unless it is a comment. -/
theorem assignment?_split {before : List Char} (after : List Char) (h : '=' ∉ before) :
    assignment? (before ++ '=' :: after) =
      if (Unicode.trimChars (before ++ '=' :: after)).head? = some '#' then none
      else some (Unicode.lowercase (Unicode.trim (String.ofList before)),
        Unicode.trim (String.ofList after)) := by
  have htrim : Unicode.trimChars (before ++ '=' :: after) = before.dropWhile Unicode.isBlank ++
      '=' :: (after.reverse.dropWhile Unicode.isBlank).reverse :=
    Unicode.trimChars_append_cons isBlank_equals
  have hkey := Unicode.trimChars_dropWhile before
  have hvalue := Unicode.trimChars_dropWhile_reverse after
  have hfront : '=' ∉ before.dropWhile Unicode.isBlank := fun hmem =>
    h ((List.dropWhile_sublist _).mem hmem)
  generalize before.dropWhile Unicode.isBlank = front at htrim hkey hfront
  generalize (after.reverse.dropWhile Unicode.isBlank).reverse = back at htrim hvalue
  obtain ⟨htake, hdrop⟩ := divide_equals back hfront
  unfold assignment?
  rw [htrim]
  split
  · next hnil => simp at hnil
  · next hcomment => simp [hcomment]
  · next hne hcomment =>
    have hhead : (front ++ '=' :: back).head? ≠ some '#' := by
      intro hhead
      obtain ⟨rest, hrest⟩ := List.head?_eq_some_iff.1 hhead
      exact hcomment rest hrest
    rw [if_neg hhead, hdrop, htake]
    simp only [Unicode.trim, String.toList_ofList, hkey, hvalue]

theorem assignment?_eq_some_iff (line key value : String) :
    assignment? line.toList = some (key, value) ↔ Assigns line key value := by
  have htrim : (Unicode.trim line).toList = Unicode.trimChars line.toList := String.toList_ofList
  constructor
  · intro h
    have hmem : '=' ∈ line.toList := by
      by_contra hnot
      rw [assignment?_of_notMem hnot] at h
      cases h
    obtain ⟨before, after, hsplit, hbefore⟩ := List.eq_append_cons_of_mem hmem
    rw [hsplit, assignment?_split after hbefore] at h
    split at h
    · cases h
    · next hcomment =>
      obtain ⟨rfl, rfl⟩ := Prod.mk.inj (Option.some.inj h)
      refine ⟨fun hempty => ?_, ?_, before, after, hsplit, hbefore, rfl, rfl⟩
      · rw [hempty, hsplit, Unicode.trimChars_append_cons isBlank_equals] at htrim
        simp at htrim
      · rwa [htrim, hsplit]
  · rintro ⟨-, hcomment, before, after, hsplit, hbefore, rfl, rfl⟩
    rw [htrim, hsplit] at hcomment
    rw [hsplit, assignment?_split after hbefore, if_neg hcomment]

/-- A carriage return at the end of a line means nothing. -/
theorem assignments_eq (contents : String) :
    assignments contents = (Text.linesOf contents).filterMap (assignment? ·.toList) := by
  have hreturn (piece : List Char) : assignment? (Text.dropReturn piece) = assignment? piece := by
    apply assignment?_of_trim
    unfold Text.dropReturn
    split
    · next hlast =>
      obtain ⟨front, rfl⟩ := List.getLast?_eq_some_iff.1 (beq_iff_eq.1 hlast)
      rw [List.dropLast_concat]
      exact (Unicode.trimChars_append_right (List.forall_mem_singleton.2 isBlank_return)).symm
    · rfl
  rw [assignments, Text.linesOf, List.filterMap_map]
  apply List.filterMap_congr
  intro piece _
  rw [Function.comp_apply, String.toList_ofList, hreturn]

theorem assignsTo_iff (line key : String) :
    AssignsTo line key ↔ ∃ a, assignment? line.toList = some a ∧ a.1 = key := by
  simp only [AssignsTo, ← assignment?_eq_some_iff]
  constructor
  · rintro ⟨v, hv⟩
    exact ⟨(key, v), hv, rfl⟩
  · rintro ⟨⟨_, v⟩, ha, rfl⟩
    exact ⟨v, ha⟩

instance (line key : String) : Decidable (AssignsTo line key) :=
  decidable_of_iff ((assignment? line.toList).any (·.1 == key) = true) <| by
    rw [Option.any_eq_true, assignsTo_iff]
    simp only [beq_iff_eq]

/-! ## Values -/

/-- Some lines give a key a value: the latest line that gives it one gives it this. -/
def GivenBy (lines : List String) (key value : String) : Prop :=
  ∃ line, Latest (AssignsTo · key) lines line ∧ Assigns line key value

/-- A file gives a key a value. -/
def Gives (contents key value : String) : Prop :=
  GivenBy (Text.linesOf contents) key value

theorem lastValue_eq_some_iff (key value : String) (as : List (String × String)) :
    lastValue key as = some value ↔ Latest (·.1 = key) as (key, value) := by
  induction as using List.reverseRecOn with
  | nil => simp [lastValue, not_latest_nil]
  | append_singleton as a ih =>
    have hconcat : lastValue key (as ++ [a]) =
        if a.1 == key then some a.2 else lastValue key as := by
      rw [lastValue, List.foldl_append]
      rfl
    rw [hconcat, latest_concat, ← ih]
    by_cases hkey : a.1 = key
    · subst hkey
      simp [Prod.ext_iff, eq_comm]
    · simp [hkey]

theorem gives_iff (contents key value : String) :
    lastValue key (assignments contents) = some value ↔ Gives contents key value := by
  rw [lastValue_eq_some_iff, assignments_eq, latest_filterMap]
  simp only [← assignsTo_iff, assignment?_eq_some_iff]
  rfl

/-! ## Numbers -/

/-- The decimal digits of a number that 64 bits hold. -/
structure Decimal (cs : List Char) (n : Nat) : Prop where
  filled : cs ≠ []
  digits : ∀ c ∈ cs, c.isDigit = true
  value : n = Nat.ofDigits 10 (cs.reverse.map fun c => c.toNat - '0'.toNat)
  fits : n < 2 ^ 64

/-- The value is a number, perhaps with a plus sign in front. -/
def Denotes (value : String) (n : Nat) : Prop :=
  Decimal value.toList n ∨ ∃ cs, value.toList = '+' :: cs ∧ Decimal cs n

theorem foldl_digits (cs : List Char) :
    cs.foldl (fun n c => 10 * n + (c.toNat - '0'.toNat)) 0 =
      Nat.ofDigits 10 (cs.reverse.map fun c => c.toNat - '0'.toNat) := by
  rw [Nat.ofDigits_eq_foldr, List.foldr_map, List.foldr_reverse]
  simp only [Nat.cast_id, Nat.add_comm]

/-- The number that digits make, if they are digits and 64 bits hold it. -/
def ofDigits? (cs : List Char) : Option Nat :=
  if cs.isEmpty || !cs.all Char.isDigit then none
  else
    let n := cs.foldl (fun n c => 10 * n + (c.toNat - '0'.toNat)) 0
    if n ≤ maxNumber then some n else none

theorem ofDigits?_eq_some_iff (cs : List Char) (n : Nat) :
    ofDigits? cs = some n ↔ Decimal cs n := by
  have hmax (m : Nat) : m ≤ maxNumber ↔ m < 2 ^ 64 := by
    rw [maxNumber, UInt64.size]
    omega
  simp only [ofDigits?, foldl_digits, hmax]
  constructor
  · intro h
    split at h
    · cases h
    · next hdigits =>
      split at h
      · next hfits =>
        obtain rfl := Option.some.inj h
        simp only [Bool.or_eq_true, Bool.not_eq_true', not_or, List.isEmpty_iff,
          Bool.not_eq_false, List.all_eq_true] at hdigits
        exact ⟨hdigits.1, hdigits.2, rfl, hfits⟩
      · cases h
  · rintro ⟨hfilled, hdigits, rfl, hfits⟩
    rw [if_neg (by simpa [hfilled] using hdigits), if_pos hfits]

theorem number?_signed {value : String} {cs : List Char} (h : value.toList = '+' :: cs) :
    number? value = ofDigits? cs := by
  unfold number?
  rw [h]
  rfl

theorem number?_unsigned {value : String} (h : ∀ cs, value.toList ≠ '+' :: cs) :
    number? value = ofDigits? value.toList := by
  unfold number?
  split
  · next cs hplus => exact absurd hplus (h cs)
  · rfl

theorem number?_eq_some_iff (value : String) (n : Nat) :
    number? value = some n ↔ Denotes value n := by
  by_cases hplus : ∃ cs, value.toList = '+' :: cs
  · obtain ⟨cs, hcs⟩ := hplus
    -- The sign is no digit, so that the digits start behind it.
    have hsign : ¬Decimal value.toList n := fun h =>
      absurd (h.digits '+' (hcs ▸ .head _)) (by decide)
    rw [number?_signed hcs, ofDigits?_eq_some_iff, Denotes, or_iff_right hsign, hcs]
    simp
  · have hunsigned : ¬∃ cs, value.toList = '+' :: cs ∧ Decimal cs n := fun ⟨cs, hcs, _⟩ =>
      hplus ⟨cs, hcs⟩
    rw [number?_unsigned (not_exists.1 hplus), ofDigits?_eq_some_iff, Denotes,
      or_iff_left hunsigned]

/-! ## Keys -/

/-- The keys that mean something. -/
inductive Key
  | maxContexts
  | resetDelay
  | tabWidth
  | lookahead
  deriving DecidableEq

namespace Key

/-- The keys in the order in which their values are looked at. -/
def all : List Key :=
  [maxContexts, resetDelay, tabWidth, lookahead]

/-- How a file writes the key. -/
def name : Key → String
  | maxContexts => "max-dynamic-contexts"
  | resetDelay => "dynamic-reset-delay-ms"
  | tabWidth => "tab-width"
  | lookahead => "fold-lookahead"

/-- What the key sets. -/
def field : Key → Settings → Nat
  | maxContexts, s => s.maxContexts
  | resetDelay, s => s.resetDelay
  | tabWidth, s => s.tabWidth
  | lookahead, s => s.lookahead

/-- The number that the key sets for one that was given. -/
def bounded : Key → Nat → Nat
  | maxContexts, n => max n 1
  | resetDelay, n => n
  | tabWidth, n => min (max n 1) 16
  | lookahead, n => n

/-- A file sets the key to a number: to that of its value, within its bounds, if it gives the key a
value, and to the standard one otherwise. -/
def Sets (k : Key) (contents : String) (n : Nat) : Prop :=
  (∃ value m, Gives contents k.name value ∧ Denotes value m ∧ n = k.bounded m) ∨
    (∀ value, ¬Gives contents k.name value) ∧ n = k.field standard

/-- A file gives the key a value that is no number. -/
def Offends (k : Key) (contents value : String) : Prop :=
  Gives contents k.name value ∧ ∀ n, ¬Denotes value n

theorem mem_all (k : Key) : k ∈ all := by
  cases k <;> decide

/-- What is wrong with the value of the key. -/
def fault? (k : Key) (contents : String) : Option Error :=
  match setting k.name (assignments contents) with
  | .ok _ => none
  | .error e => some e

theorem checks_setting (k : Key) (contents : String) :
    Checks (setting k.name (assignments contents)) (k.fault? contents).toList := by
  unfold fault?
  split
  · next n hn => exact ⟨n, hn⟩
  · next e he => exact he

theorem setting_cases (k : Key) (contents : String) :
    (lastValue k.name (assignments contents) = none ∧
      setting k.name (assignments contents) = .ok none) ∨
    ∃ value, lastValue k.name (assignments contents) = some value ∧
      ((∃ n, number? value = some n ∧ setting k.name (assignments contents) = .ok (some n)) ∨
        number? value = none ∧
          setting k.name (assignments contents) = .error (.badSetting k.name value)) := by
  unfold setting
  cases lastValue k.name (assignments contents) with
  | none => exact .inl ⟨rfl, rfl⟩
  | some value =>
    refine .inr ⟨value, rfl, ?_⟩
    dsimp only
    cases number? value with
    | none => exact .inr ⟨rfl, rfl⟩
    | some n => exact .inl ⟨n, rfl, rfl⟩

theorem fault?_eq_some_iff (k : Key) (contents : String) (e : Error) :
    k.fault? contents = some e ↔
      ∃ value, k.Offends contents value ∧ e = .badSetting k.name value := by
  simp only [Offends, ← gives_iff, ← number?_eq_some_iff, ← Option.eq_none_iff_forall_ne_some]
  unfold fault?
  rcases k.setting_cases contents with ⟨hvalue, h⟩ | ⟨value, hvalue, ⟨n, hn, h⟩ | ⟨hn, h⟩⟩
  · simp [h, hvalue]
  · simp [h, hvalue, hn]
  · simp [h, hvalue, hn, eq_comm]

theorem fault?_eq_none_iff (k : Key) (contents : String) :
    k.fault? contents = none ↔ ∀ value, ¬k.Offends contents value := by
  rw [Option.eq_none_iff_forall_ne_some]
  constructor
  · intro hnone value hvalue
    exact hnone _ ((k.fault?_eq_some_iff contents _).2 ⟨value, hvalue, rfl⟩)
  · intro hnone e he
    obtain ⟨value, hvalue, -⟩ := (k.fault?_eq_some_iff contents e).1 he
    exact hnone value hvalue

theorem sets_of_setting {k : Key} {contents : String} {found : Option Nat}
    (hfound : setting k.name (assignments contents) = .ok found) :
    k.Sets contents ((found.map k.bounded).getD (k.field standard)) := by
  simp only [Sets, ← gives_iff, ← number?_eq_some_iff]
  rcases k.setting_cases contents with ⟨hvalue, h⟩ | ⟨value, hvalue, ⟨n, hn, h⟩ | ⟨hn, h⟩⟩
  · obtain rfl := Except.ok.inj (h.symm.trans hfound)
    simp [hvalue]
  · obtain rfl := Except.ok.inj (h.symm.trans hfound)
    exact .inl ⟨value, n, hvalue, hn, rfl⟩
  · rw [h] at hfound
    cases hfound

end Key

theorem checks_ofContents (contents : String) :
    Checks (ofContents contents) (Key.all.filterMap (·.fault? contents)) := by
  have hfaults : Key.all.filterMap (·.fault? contents) =
      (Key.maxContexts.fault? contents).toList ++ ((Key.resetDelay.fault? contents).toList ++
        ((Key.tabWidth.fault? contents).toList ++ (Key.lookahead.fault? contents).toList)) := by
    simp [List.filterMap_eq_flatMap_toList, Key.all]
  rw [hfaults]
  refine (Key.maxContexts.checks_setting contents).bind fun maxContexts _ => ?_
  refine (Key.resetDelay.checks_setting contents).bind fun resetDelay _ => ?_
  refine (Key.tabWidth.checks_setting contents).bind fun tabWidth _ => ?_
  exact (Key.lookahead.checks_setting contents).map _

theorem sets_of_ofContents {contents : String} {s : Settings} (h : ofContents contents = .ok s)
    (k : Key) : k.Sets contents (k.field s) := by
  obtain ⟨maxContexts, hmax, h⟩ := exists_of_bind_ok h
  obtain ⟨resetDelay, hdelay, h⟩ := exists_of_bind_ok h
  obtain ⟨tabWidth, hwidth, h⟩ := exists_of_bind_ok h
  obtain ⟨lookahead, hahead, h⟩ := exists_of_bind_ok h
  obtain rfl := Except.ok.inj h
  -- Two of the keys have no bounds, and what is found for them is taken as it is.
  cases k with
  | maxContexts => exact Key.sets_of_setting (k := .maxContexts) hmax
  | resetDelay =>
    have hsets := Key.sets_of_setting (k := .resetDelay) hdelay
    cases resetDelay <;> exact hsets
  | tabWidth => exact Key.sets_of_setting (k := .tabWidth) hwidth
  | lookahead =>
    have hsets := Key.sets_of_setting (k := .lookahead) hahead
    cases lookahead <;> exact hsets

/-- What is set depends only on the values that the file gives the keys. -/
theorem ofContents_congr {contents contents' : String}
    (h : ∀ (k : Key) value, Gives contents k.name value ↔ Gives contents' k.name value) :
    ofContents contents = ofContents contents' := by
  have hsetting (k : Key) :
      setting k.name (assignments contents) = setting k.name (assignments contents') := by
    have hvalue : lastValue k.name (assignments contents) =
        lastValue k.name (assignments contents') := by
      apply Option.ext
      intro value
      rw [gives_iff, gives_iff, h]
    unfold setting
    rw [hvalue]
  have hmax := hsetting .maxContexts
  have hdelay := hsetting .resetDelay
  have hwidth := hsetting .tabWidth
  have hahead := hsetting .lookahead
  simp only [Key.name] at hmax hdelay hwidth hahead
  simp only [ofContents, hmax, hdelay, hwidth, hahead]

/-! ## Other files that say the same -/

/-- The line means nothing before those lines: it is blank or a comment, assigns nothing or assigns
to an unknown key, or one of the lines assigns to the same key again. -/
inductive Idle (after : List String) (line : String) : Prop
  | blank (h : Unicode.trim line = "")
  | comment (h : (Unicode.trim line).toList.head? = some '#')
  | bare (h : '=' ∉ line.toList)
  | unknown {key : String} (h : AssignsTo line key) (hkey : ∀ k : Key, k.name ≠ key)
  | overruled {key : String} (h : AssignsTo line key)
      (hafter : ∃ later ∈ after, AssignsTo later key)

/-- How the lines of a file may be changed: they change places, but those that assign to one key
stay in order, and lines that mean nothing where they stand are added, as often as one likes. -/
inductive Revised : List String → List String → Prop
  | reordered {lines lines' : List String} : lines.Perm lines' →
      (∀ key, lines.filter (AssignsTo · key) = lines'.filter (AssignsTo · key)) →
      Revised lines lines'
  | extended (before : List String) {line : String} (after : List String) : Idle after line →
      Revised (before ++ after) (before ++ line :: after)
  | trans {lines lines' lines'' : List String} : Revised lines lines' → Revised lines' lines'' →
      Revised lines lines''

/-- A line assigns to one key. -/
theorem AssignsTo.unique {line key key' : String} (h : AssignsTo line key)
    (h' : AssignsTo line key') : key = key' := by
  obtain ⟨v, hv⟩ := h
  obtain ⟨v', hv'⟩ := h'
  rw [← assignment?_eq_some_iff] at hv hv'
  exact (Prod.mk.inj (Option.some.inj (hv.symm.trans hv'))).1

/-- What means nothing and yet assigns to a key is followed by another assignment to it. -/
theorem Idle.exists_later {after : List String} {line : String} (hidle : Idle after line) {k : Key}
    (hline : AssignsTo line k.name) : ∃ later ∈ after, AssignsTo later k.name := by
  obtain ⟨v, hv⟩ := id hline
  cases hidle with
  | blank h => exact absurd h hv.filled
  | comment h => exact absurd h hv.noComment
  | bare h =>
    obtain ⟨before, after, hsplit, -⟩ := hv.split
    exact absurd (hsplit ▸ List.mem_append_right before (.head after)) h
  | unknown h hkey => exact absurd (hline.unique h) (hkey k)
  | overruled h hafter => rwa [hline.unique h]

/-- Lines of which no two assign to one key may change places at will. -/
theorem Revised.of_apart {lines lines' : List String} (before after : List String)
    (hperm : lines.Perm lines')
    (hapart : lines.Pairwise fun line line' => ∀ key, ¬(AssignsTo line key ∧ AssignsTo line' key)) :
    Revised (before ++ lines ++ after) (before ++ lines' ++ after) := by
  refine .reordered ((hperm.append_left before).append_right after) fun key => ?_
  have hfilter := hperm.filter (AssignsTo · key)
  have hsame : lines.filter (AssignsTo · key) = lines'.filter (AssignsTo · key) := by
    match hlines : lines.filter (AssignsTo · key) with
    | [] => exact (hlines ▸ hfilter).nil_eq
    | [line] => exact (hlines ▸ hfilter).singleton_eq
    | line :: line' :: rest =>
      have hassigns (l : String) (hl : l ∈ line :: line' :: rest) : AssignsTo l key := by
        rw [← hlines, List.mem_filter] at hl
        exact of_decide_eq_true hl.2
      have htwo := List.rel_of_pairwise_cons (hlines ▸ hapart.filter _) (.head rest)
      exact absurd ⟨hassigns line (.head _), hassigns line' (.tail _ (.head _))⟩ (htwo key)
  simp only [List.filter_append, hsame]

theorem givenBy_revised {lines lines' : List String} (h : Revised lines lines') (k : Key)
    (value : String) : GivenBy lines k.name value ↔ GivenBy lines' k.name value := by
  induction h with
  | @reordered lines lines' _ horder =>
    have hlatest (line : String) : Latest (AssignsTo · k.name) lines line ↔
        Latest (AssignsTo · k.name) lines' line := by
      rw [← latest_filter, horder, latest_filter]
    simp only [GivenBy, hlatest]
  | extended before after hidle =>
    have hlater := hidle.exists_later (k := k)
    simp only [GivenBy, latest_insert (p := (AssignsTo · k.name)) hlater]
  | trans _ _ ih ih' => exact ih.trans ih'

/-- **The last assignment of each key decides.**  Settings can be read from a file exactly when the
last value of each key that has one is a number; then each is the number of that value, within its
bounds, or the standard one.  Otherwise the error names the first key, in the order of the keys,
whose last value is no number, and that value.  So lines that assign different keys may change
places, and lines that assign nothing, or nothing that counts, may be added. -/
theorem last_assignments_decide (contents : String) :
    ((∃ s, ofContents contents = .ok s) ↔
      ∀ (k : Key) value, Gives contents k.name value → ∃ n, Denotes value n) ∧
    (∀ s, ofContents contents = .ok s → ∀ k : Key, k.Sets contents (k.field s)) ∧
    (∀ e, ofContents contents = .error e ↔ ∃ before k after value,
      Key.all = before ++ k :: after ∧ (∀ k' ∈ before, ∀ v, ¬k'.Offends contents v) ∧
        k.Offends contents value ∧ e = .badSetting k.name value) ∧
    ∀ contents', Revised (Text.linesOf contents) (Text.linesOf contents') →
      ofContents contents' = ofContents contents := by
  have hchecks := checks_ofContents contents
  refine ⟨?_, fun s hs => sets_of_ofContents hs, fun e => ?_, fun contents' h => ?_⟩
  · rw [hchecks.ok_iff, List.filterMap_eq_nil_iff]
    simp only [Key.mem_all, forall_const, Key.fault?_eq_none_iff, Key.Offends, not_and, not_forall,
      not_not]
  · rw [hchecks.error_iff, List.head?_filterMap, List.findSome?_eq_some_iff]
    simp only [Key.fault?_eq_some_iff, Key.fault?_eq_none_iff]
    constructor
    · rintro ⟨before, k, after, hall, ⟨value, hvalue, rfl⟩, hbefore⟩
      exact ⟨before, k, after, value, hall, hbefore, hvalue, rfl⟩
    · rintro ⟨before, k, after, value, hall, hbefore, hvalue, rfl⟩
      exact ⟨before, k, after, hall, ⟨value, hvalue, rfl⟩, hbefore⟩
  · exact (ofContents_congr (givenBy_revised h)).symm

/-- A settings file for examples. -/
def twoSet : String :=
  "tab-width = 4\nfold-lookahead=2"

/-- The same with other line ends, the lines in the other order, a comment, a blank line, an unknown
key and a former value that is no number. -/
def twoSetRevised : String :=
  "# widths\r\nfold-lookahead=x\r\n\nfold-lookahead=2\r\ncolour = red\ntab-width = 4"

/-- A file with two values that are no numbers. -/
def twoFlawed : String :=
  "fold-lookahead = x\n TAB-WIDTH = 4 = 5 \n"

theorem revised_twoSet : Revised (Text.linesOf twoSet) (Text.linesOf twoSetRevised) := by
  have hlines : Text.linesOf twoSet = ["tab-width = 4", "fold-lookahead=2"] := by
    decide +kernel
  have hrevised : Text.linesOf twoSetRevised = ["# widths", "fold-lookahead=x", "",
      "fold-lookahead=2", "colour = red", "tab-width = 4"] := by
    decide +kernel
  have hwidth : AssignsTo "tab-width = 4" "tab-width" := by decide +kernel
  have hahead : AssignsTo "fold-lookahead=2" "fold-lookahead" := by decide +kernel
  have hformer : AssignsTo "fold-lookahead=x" "fold-lookahead" := by decide +kernel
  have hcolour : AssignsTo "colour = red" "colour" := by decide +kernel
  have hapart (key : String) :
      ¬(AssignsTo "tab-width = 4" key ∧ AssignsTo "fold-lookahead=2" key) := by
    rintro ⟨h, h'⟩
    exact absurd ((hwidth.unique h).trans (h'.unique hahead)) (by decide)
  rw [hlines, hrevised]
  have hswapped : Revised ["tab-width = 4", "fold-lookahead=2"]
      ["fold-lookahead=2", "tab-width = 4"] := by
    have hpair : List.Pairwise (fun line line' => ∀ key,
        ¬(AssignsTo line key ∧ AssignsTo line' key)) ["tab-width = 4", "fold-lookahead=2"] :=
      List.pairwise_pair.2 hapart
    exact .of_apart [] [] (.swap _ _ _) hpair
  have hunknown : Idle ["tab-width = 4"] "colour = red" :=
    .unknown hcolour fun k => by cases k <;> decide
  have hblank : Idle ["fold-lookahead=2", "colour = red", "tab-width = 4"] "" :=
    .blank (by decide +kernel)
  have hoverruled : Idle ["", "fold-lookahead=2", "colour = red", "tab-width = 4"]
      "fold-lookahead=x" :=
    .overruled hformer ⟨"fold-lookahead=2", by simp, hahead⟩
  have hcomment : Idle ["fold-lookahead=x", "", "fold-lookahead=2", "colour = red",
      "tab-width = 4"] "# widths" :=
    .comment (by decide +kernel)
  refine hswapped.trans ?_
  refine .trans (.extended ["fold-lookahead=2"] _ hunknown) ?_
  refine .trans (.extended [] _ hblank) ?_
  refine .trans (.extended [] _ hoverruled) ?_
  exact .extended [] _ hcomment

theorem last_assignments_decide_twoSet :
    ofContents twoSetRevised = .ok { standard with tabWidth := 4, lookahead := 2 } ∧
    Key.tabWidth.Sets twoSet 4 ∧
    ofContents twoFlawed = .error (.badSetting "tab-width" "4 = 5") ∧
    Key.tabWidth.Offends twoFlawed "4 = 5" := by
  have hset : ofContents twoSet = .ok { standard with tabWidth := 4, lookahead := 2 } := by rfl
  have hflawed : ofContents twoFlawed = .error (.badSetting "tab-width" "4 = 5") := by rfl
  obtain ⟨-, hsets, -, hrevised⟩ := last_assignments_decide twoSet
  obtain ⟨-, -, herror, -⟩ := last_assignments_decide twoFlawed
  obtain ⟨before, k, after, value, -, -, hoffends, he⟩ := (herror _).1 hflawed
  have hk : k = .tabWidth ∧ value = "4 = 5" := by
    cases k <;> simp_all [Key.name]
  obtain ⟨rfl, rfl⟩ := hk
  exact ⟨(hrevised _ revised_twoSet).trans hset, hsets _ hset .tabWidth, hflawed, hoffends⟩

end Highlighting.Settings
