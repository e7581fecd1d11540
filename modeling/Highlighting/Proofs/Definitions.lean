import Mathlib.Data.List.Forall2
import Mathlib.Data.List.Infix
import Highlighting.Language.File
import Highlighting.Proofs.Precedence
import Highlighting.Proofs.Unnested

/-!
# What a definition file says

Building a language from a definition file runs checks, one after the other, and stops at the first
that fails.  `faults` runs all of them and lists what is wrong, in the same order; a file without
faults is `Valid`, and the language that is built from it is the one that it says:

    d.build = .error e  ↔  e is the first of d.faults                        (checks_build)
    d.faults = []       ↔  d.Valid                                           (faults_eq_nil_iff)
    d.build = .ok l     →  d.Says l                                          (says_of_build)
    d.Says l            →  l scans as any language made by hand of the same rules and constructs
                                                                             (Says.scan_made)
                           and its constructs do not nest, unless a rule uses the region of one
                                                                              (Says.separate)
-/

namespace Highlighting

/-! ## Checks in order -/

/-- The computation fails with the first of the faults, and succeeds if there are none. -/
def Checks {α : Type} (x : Except Error α) : List Error → Prop
  | [] => ∃ a, x = .ok a
  | e :: _ => x = .error e

namespace Checks

variable {α β : Type} {x : Except Error α} {faults others : List Error}

theorem ok_iff (h : Checks x faults) : (∃ a, x = .ok a) ↔ faults = [] := by
  cases faults with
  | nil => exact iff_of_true h rfl
  | cons e es =>
    refine iff_of_false (fun ⟨a, ha⟩ => ?_) (List.cons_ne_nil e es)
    rw [show x = .error e from h] at ha
    cases ha

theorem error_iff (h : Checks x faults) (e : Error) : x = .error e ↔ faults.head? = some e := by
  cases faults with
  | nil =>
    obtain ⟨a, rfl⟩ := h
    exact iff_of_false (fun h => by cases h) (by simp)
  | cons e' es =>
    rw [show x = .error e' from h]
    simp

/-- What runs the checks of one list, then those of another, runs those of both. -/
theorem bind {f : α → Except Error β} (h : Checks x faults)
    (hf : ∀ a, x = .ok a → Checks (f a) others) : Checks (x >>= f) (faults ++ others) := by
  cases faults with
  | nil =>
    obtain ⟨a, rfl⟩ := h
    exact hf a rfl
  | cons e es =>
    rw [show x = .error e from h]
    rfl

theorem pure (a : α) : Checks (.ok a) [] :=
  ⟨a, rfl⟩

/-- What comes after the last check changes nothing. -/
theorem map (h : Checks x faults) (f : α → β) : Checks (x >>= fun a => .ok (f a)) faults := by
  rw [← List.append_nil faults]
  exact h.bind fun a _ => .pure (f a)

theorem mapM {f : α → Except Error β} {faultsOf : α → List Error}
    (h : ∀ a, Checks (f a) (faultsOf a)) (as : List α) :
    Checks (as.mapM f) (as.flatMap faultsOf) := by
  induction as with
  | nil => exact .pure []
  | cons a as ih =>
    rw [List.mapM_cons, List.flatMap_cons]
    exact (h a).bind fun b _ => ih.map (b :: ·)

end Checks

/-! ## Faults -/

/-- The error of a check that fails. -/
def faultUnless (condition : Prop) [Decidable condition] (e : Error) : List Error :=
  if condition then [] else [e]

/-- What is wrong with the name of a kind. -/
def kindFaults (name : String) : List Error :=
  faultUnless (∃ kind ∈ TokenKind.all, kind.name = name) (.unknownToken name)

/-- What is wrong with a pattern of a rule. -/
def patternFaults (rule source : String) : List Error :=
  match Pattern.compile source with
  | .ok _ => []
  | .error flaw => [.flawedRule rule flaw]

/-- What is wrong with the value of a marker. -/
def foldFaults (rule : String) (value : Int) : List Error :=
  faultUnless (-32768 ≤ value ∧ value ≤ 32767) (.foldRange rule value)

/-- What is wrong with a priority. -/
def priorityFaults (rule : String) (value : Int) : List Error :=
  faultUnless (-2147483648 ≤ value ∧ value ≤ 2147483647) (.priorityRange rule value)

/-- What is wrong with the fields of a rule. -/
def RuleFields.faults (f : RuleFields) : List Error :=
  priorityFaults f.name f.priority ++ kindFaults f.token ++ patternFaults f.name f.regex ++
    foldFaults f.name f.fold

namespace ConstructFields

/-- What is wrong with the place for the captured text. -/
def placeholderFaults (f : ConstructFields) : List Error :=
  faultUnless (['%', '1'] <:+: f.stop.toList) (.noPlaceholder f.name)

/-- What is wrong with start and end.  An end that is made on the spot is looked at first. -/
def endFaults (f : ConstructFields) : List Error :=
  if f.derived then
    f.placeholderFaults ++ patternFaults f.name (fill f.stop "x") ++ patternFaults f.name f.start
  else patternFaults f.name f.start ++ patternFaults f.name f.stop

/-- What is wrong with the fields of the construct of a number. -/
def faults (f : ConstructFields) (number : Nat) : List Error :=
  faultUnless (number ≤ 255) .tooManyConstructs ++ kindFaults f.token ++ f.endFaults ++
    foldFaults f.name f.fold

end ConstructFields

/-- All that is wrong with a definition file: with its rules, then with its constructs. -/
def DefinitionFile.faults (d : DefinitionFile) : List Error :=
  d.rules.flatMap RuleFields.faults ++ (d.constructs.zipIdx 1).flatMap fun e => e.1.faults e.2

/-! ## Building runs the checks -/

theorem checks_if {α : Type} {condition : Prop} [Decidable condition] (a : α) (e : Error) :
    Checks (if condition then .ok a else .error e) (faultUnless condition e) := by
  unfold faultUnless
  split
  · exact .pure a
  · rfl

theorem checks_named (name : String) : Checks (TokenKind.named name) (kindFaults name) := by
  have hfind : (TokenKind.ofName? name).isSome = true ↔
      ∃ kind ∈ TokenKind.all, kind.name = name := by
    rw [TokenKind.ofName?, List.find?_isSome]
    simp only [beq_iff_eq]
  unfold TokenKind.named kindFaults faultUnless
  split
  · next k hk => rw [if_pos (hfind.1 (by simp [hk]))]; exact .pure k
  · next hk => rw [if_neg (mt hfind.2 (by simp [hk]))]; rfl

theorem checks_compileFor (rule source : String) :
    Checks (compileFor rule source) (patternFaults rule source) := by
  unfold compileFor patternFaults
  cases Pattern.compile source with
  | ok p => exact .pure p
  | error flaw => rfl

theorem checks_foldValue (rule : String) (value : Int) :
    Checks (foldValue rule value) (foldFaults rule value) := by
  have hrange : Int16.minValue.toInt ≤ value ∧ value ≤ Int16.maxValue.toInt ↔
      -32768 ≤ value ∧ value ≤ 32767 := by
    rw [show Int16.minValue.toInt = -32768 from rfl, show Int16.maxValue.toInt = 32767 from rfl]
  simp only [foldValue, foldFaults, hrange]
  exact checks_if value _

theorem checks_priorityValue (rule : String) (value : Int) :
    Checks (priorityValue rule value) (priorityFaults rule value) := by
  have hrange : Int32.minValue.toInt ≤ value ∧ value ≤ Int32.maxValue.toInt ↔
      -2147483648 ≤ value ∧ value ≤ 2147483647 := by
    rw [show Int32.minValue.toInt = -2147483648 from rfl,
      show Int32.maxValue.toInt = 2147483647 from rfl]
  simp only [priorityValue, priorityFaults, hrange]
  exact checks_if value _

theorem RuleFields.checks_build (f : RuleFields) : Checks f.build f.faults := by
  simp only [build, faults, List.append_assoc]
  refine (checks_priorityValue f.name f.priority).bind fun priority _ => ?_
  refine (checks_named f.token).bind fun kind _ => ?_
  refine .bind ?_ fun rule _ => (checks_foldValue f.name f.fold).map rule.withFold
  exact (checks_compileFor f.name f.regex).map fun p =>
    (⟨f.name, p, kind, priority, 0⟩ : TokenRule)

theorem hasPlaceholder_iff (cs : List Char) : hasPlaceholder cs = true ↔ ['%', '1'] <:+: cs := by
  fun_induction hasPlaceholder cs with
  | case1 => simp
  | case2 cs => exact iff_of_true rfl (List.prefix_append ['%', '1'] cs).isInfix
  | case3 c cs h ih =>
    rw [ih, List.infix_cons_iff, or_iff_right]
    rintro ⟨rest, hrest⟩
    obtain ⟨rfl, rfl⟩ := List.cons.inj hrest
    exact h rest rfl rfl

section
variable (name start stop : String) (kind : TokenKind) (id : Nat)

theorem checks_makeFixed : Checks (Construct.makeFixed name start stop kind id)
    (patternFaults name start ++ patternFaults name stop) :=
  (checks_compileFor name start).bind fun p _ =>
    (checks_compileFor name stop).map fun q =>
      (⟨name, p, .fixed q, kind, none, id, 0⟩ : Construct)

theorem checks_makeDerived : Checks (Construct.makeDerived name start stop kind id)
    (faultUnless (['%', '1'] <:+: stop.toList) (.noPlaceholder name) ++
      patternFaults name (fill stop "x") ++ patternFaults name start) := by
  simp only [Construct.makeDerived, hasPlaceholder_iff, faultUnless]
  generalize fill stop "x" = filled
  split
  · rw [List.nil_append]
    refine (checks_compileFor name filled).bind fun _ _ => ?_
    exact (checks_compileFor name start).map fun p =>
      (⟨name, p, .derived stop, kind, none, id, 0⟩ : Construct)
  · rfl

end

namespace ConstructFields

variable (f : ConstructFields) (number : Nat)

/-- The construct with the start and end of the fields, fixed or made on the spot. -/
def make (f : ConstructFields) (kind : TokenKind) (number : Nat) : Except Error Construct :=
  if f.derived then Construct.makeDerived f.name f.start f.stop kind number
  else Construct.makeFixed f.name f.start f.stop kind number

theorem checks_make (kind : TokenKind) : Checks (f.make kind number) f.endFaults := by
  unfold make endFaults
  split
  · exact checks_makeDerived f.name f.start f.stop kind number
  · exact checks_makeFixed f.name f.start f.stop kind number

/-- The construct with the escape and the region of the fields. -/
def finish (f : ConstructFields) (k : Construct) (fold : Int) : Construct :=
  (match f.escape with
    | some c => k.withEscape c
    | none => k).withFold fold

theorem build_eq : f.build number =
    (if number ≤ 255 then .ok () else .error .tooManyConstructs) >>= fun _ =>
      TokenKind.named f.token >>= fun kind => f.make kind number >>= fun k =>
        foldValue f.name f.fold >>= fun fold => .ok (f.finish k fold) := by
  obtain ⟨name, start, stop, token, derived, escape, fold⟩ := f
  unfold build
  dsimp only
  by_cases hn : number ≤ 255
  · have hlt : ¬maxConstructs < number := Nat.not_lt.2 hn
    rw [if_neg hlt, if_pos hn]
    cases derived <;> rfl
  · have hlt : maxConstructs < number := Nat.lt_of_not_le hn
    rw [if_pos hlt, if_neg hn]
    rfl

theorem checks_build : Checks (f.build number) (f.faults number) := by
  rw [build_eq, faults, List.append_assoc, List.append_assoc]
  refine (checks_if () _).bind fun _ _ => ?_
  refine (checks_named f.token).bind fun kind _ => ?_
  exact (f.checks_make number kind).bind fun k _ =>
    (checks_foldValue f.name f.fold).map (f.finish k)

end ConstructFields

theorem checks_buildConstructs (fs : List ConstructFields) (number : Nat) :
    Checks (buildConstructs number fs) ((fs.zipIdx number).flatMap fun e => e.1.faults e.2) := by
  induction fs generalizing number with
  | nil => exact .pure []
  | cons f fs ih =>
    rw [List.zipIdx_cons, List.flatMap_cons]
    exact (f.checks_build number).bind fun k _ => (ih (number + 1)).map (k :: ·)

theorem DefinitionFile.checks_build (d : DefinitionFile) : Checks d.build d.faults := by
  refine (Checks.mapM RuleFields.checks_build d.rules).bind fun rules _ => ?_
  exact (checks_buildConstructs d.constructs 1).map _

/-! ## Valid files -/

/-- The fields are those of a rule. -/
structure RuleFields.Valid (f : RuleFields) : Prop where
  priority : -2147483648 ≤ f.priority ∧ f.priority ≤ 2147483647
  token : ∃ kind : TokenKind, kind.name = f.token
  regex : ∃ p, Pattern.compile f.regex = .ok p
  fold : -32768 ≤ f.fold ∧ f.fold ≤ 32767

/-- The fields are those of a construct. -/
structure ConstructFields.Valid (f : ConstructFields) : Prop where
  token : ∃ kind : TokenKind, kind.name = f.token
  start : ∃ p, Pattern.compile f.start = .ok p
  stop : if f.derived then
      ['%', '1'] <:+: f.stop.toList ∧ ∃ p, Pattern.compile (fill f.stop "x") = .ok p
    else ∃ p, Pattern.compile f.stop = .ok p
  fold : -32768 ≤ f.fold ∧ f.fold ≤ 32767

/-- The file defines a language. -/
structure DefinitionFile.Valid (d : DefinitionFile) : Prop where
  rules : ∀ f ∈ d.rules, f.Valid
  count : d.constructs.length ≤ 255
  constructs : ∀ f ∈ d.constructs, f.Valid

@[simp] theorem faultUnless_eq_nil_iff (condition : Prop) [Decidable condition] (e : Error) :
    faultUnless condition e = [] ↔ condition := by
  simp [faultUnless]

@[simp] theorem kindFaults_eq_nil_iff (name : String) :
    kindFaults name = [] ↔ ∃ kind : TokenKind, kind.name = name := by
  have hall (kind : TokenKind) : kind ∈ TokenKind.all := by cases kind <;> decide
  simp [kindFaults, hall]

@[simp] theorem patternFaults_eq_nil_iff (rule source : String) :
    patternFaults rule source = [] ↔ ∃ p, Pattern.compile source = .ok p := by
  unfold patternFaults
  split <;> simp_all

theorem RuleFields.faults_eq_nil_iff (f : RuleFields) : f.faults = [] ↔ f.Valid := by
  simp only [faults, List.append_eq_nil_iff, priorityFaults, foldFaults, faultUnless_eq_nil_iff,
    kindFaults_eq_nil_iff, patternFaults_eq_nil_iff]
  exact ⟨fun ⟨⟨⟨hp, ht⟩, hr⟩, hf⟩ => ⟨hp, ht, hr, hf⟩,
    fun ⟨hp, ht, hr, hf⟩ => ⟨⟨⟨hp, ht⟩, hr⟩, hf⟩⟩

namespace ConstructFields

theorem endFaults_eq_nil_iff (f : ConstructFields) :
    f.endFaults = [] ↔ (∃ p, Pattern.compile f.start = .ok p) ∧
      if f.derived then
        ['%', '1'] <:+: f.stop.toList ∧ ∃ p, Pattern.compile (fill f.stop "x") = .ok p
      else ∃ p, Pattern.compile f.stop = .ok p := by
  unfold endFaults placeholderFaults
  split <;> simp only [List.append_eq_nil_iff, faultUnless_eq_nil_iff, patternFaults_eq_nil_iff]
  exact and_comm

theorem faults_eq_nil_iff (f : ConstructFields) (number : Nat) :
    f.faults number = [] ↔ number ≤ 255 ∧ f.Valid := by
  simp only [faults, List.append_eq_nil_iff, foldFaults, faultUnless_eq_nil_iff,
    kindFaults_eq_nil_iff, endFaults_eq_nil_iff]
  exact ⟨fun ⟨⟨⟨hn, ht⟩, hs, he⟩, hf⟩ => ⟨hn, ht, hs, he, hf⟩,
    fun ⟨hn, ht, hs, he, hf⟩ => ⟨⟨⟨hn, ht⟩, hs, he⟩, hf⟩⟩

end ConstructFields

theorem DefinitionFile.faults_eq_nil_iff (d : DefinitionFile) : d.faults = [] ↔ d.Valid := by
  simp only [faults, List.append_eq_nil_iff, List.flatMap_eq_nil_iff,
    RuleFields.faults_eq_nil_iff, ConstructFields.faults_eq_nil_iff]
  constructor
  · rintro ⟨hrules, hconstructs⟩
    have hnumbered (i : Nat) (hi : i < d.constructs.length) : i + 1 ≤ 255 ∧ d.constructs[i].Valid :=
      hconstructs (d.constructs[i], i + 1)
        (List.mk_mem_zipIdx_iff_le_and_getElem?_sub.2 ⟨Nat.le_add_left 1 i, by simp [hi]⟩)
    refine ⟨hrules, Nat.le_of_not_lt fun hlt => ?_, fun f hf => ?_⟩
    · exact absurd (hnumbered 255 hlt).1 (by decide)
    · obtain ⟨i, hi, rfl⟩ := List.getElem_of_mem hf
      exact (hnumbered i hi).2
  · rintro ⟨hrules, hcount, hconstructs⟩
    refine ⟨hrules, fun ⟨f, number⟩ he => ?_⟩
    obtain ⟨-, hlt, hf⟩ := List.mem_zipIdx he
    exact ⟨by omega, hconstructs f (hf ▸ List.getElem_mem _)⟩

/-! ## What is built -/

/-- The rule is the one that the fields say. -/
structure RuleFields.Says (f : RuleFields) (r : TokenRule) : Prop where
  name : r.name = f.name
  pattern : Pattern.compile f.regex = .ok r.pattern
  kind : r.kind.name = f.token
  priority : r.priority = f.priority
  fold : r.fold = f.fold

/-- The construct is the one that the fields say, with its number. -/
structure ConstructFields.Says (f : ConstructFields) (number : Nat) (k : Construct) : Prop where
  name : k.name = f.name
  start : Pattern.compile f.start = .ok k.start
  ending : if f.derived then k.ending = .derived f.stop
    else ∃ p, Pattern.compile f.stop = .ok p ∧ k.ending = .fixed p
  kind : k.kind.name = f.token
  escape : k.escape = f.escape
  id : k.id = number
  region : k.region = f.fold.natAbs

/-- The language is the one that the file says, `rules` being the rules in the order of the file. -/
structure DefinitionFile.Says (d : DefinitionFile) (rules : List TokenRule) (l : Language) :
    Prop where
  name : l.name = d.name
  extensions : l.extensions = d.extensions
  indentation : l.indentation = d.indentation
  folding : l.folding = d.folding
  plain : l.plain = false
  said : List.Forall₂ RuleFields.Says d.rules rules
  rules : l.rules = rules.mergeSort fun a b => decide (b.priority ≤ a.priority)
  constructs : List.Forall₂ (fun e k => e.1.Says e.2 k) (d.constructs.zipIdx 1) l.constructs

theorem name_of_named {name : String} {kind : TokenKind} (h : TokenKind.named name = .ok kind) :
    kind.name = name := by
  unfold TokenKind.named at h
  split at h
  · next k hk => cases h; simpa using List.find?_some hk
  · cases h

theorem compile_of_compileFor {rule source : String} {p : Pattern}
    (h : compileFor rule source = .ok p) : Pattern.compile source = .ok p := by
  unfold compileFor at h
  split at h
  · next hp => cases h; exact hp
  · cases h

theorem eq_of_foldValue {rule : String} {value fold : Int} (h : foldValue rule value = .ok fold) :
    fold = value := by
  unfold foldValue at h
  split at h <;> cases h
  rfl

theorem eq_of_priorityValue {rule : String} {value priority : Int}
    (h : priorityValue rule value = .ok priority) : priority = value := by
  unfold priorityValue at h
  split at h <;> cases h
  rfl

theorem RuleFields.says_of_build {f : RuleFields} {r : TokenRule} (h : f.build = .ok r) :
    f.Says r := by
  obtain ⟨priority, hpriority, h⟩ := exists_of_bind_ok h
  obtain ⟨kind, hkind, h⟩ := exists_of_bind_ok h
  obtain ⟨rule, hrule, h⟩ := exists_of_bind_ok h
  obtain ⟨fold, hfold, h⟩ := exists_of_bind_ok h
  obtain ⟨p, hp, hrule⟩ := exists_of_bind_ok hrule
  cases hrule
  cases h
  exact ⟨rfl, compile_of_compileFor hp, name_of_named hkind, eq_of_priorityValue hpriority,
    eq_of_foldValue hfold⟩

namespace ConstructFields

variable {f : ConstructFields} {number : Nat} {kind : TokenKind} {k : Construct}

theorem inv_make (h : f.make kind number = .ok k) : ∃ p ending,
    k = ⟨f.name, p, ending, kind, none, number, 0⟩ ∧ Pattern.compile f.start = .ok p ∧
      if f.derived then ending = .derived f.stop
      else ∃ q, Pattern.compile f.stop = .ok q ∧ ending = .fixed q := by
  unfold make at h
  split at h
  · next hderived =>
    unfold Construct.makeDerived at h
    split at h
    · obtain ⟨_, -, h⟩ := exists_of_bind_ok h
      obtain ⟨p, hp, h⟩ := exists_of_bind_ok h
      cases h
      exact ⟨p, _, rfl, compile_of_compileFor hp, by rw [if_pos hderived]⟩
    · cases h
  · next hfixed =>
    obtain ⟨p, hp, h⟩ := exists_of_bind_ok h
    obtain ⟨q, hq, h⟩ := exists_of_bind_ok h
    cases h
    refine ⟨p, _, rfl, compile_of_compileFor hp, ?_⟩
    rw [if_neg hfixed]
    exact ⟨q, compile_of_compileFor hq, rfl⟩

theorem says_of_build (h : f.build number = .ok k) : f.Says number k := by
  rw [build_eq] at h
  obtain ⟨_, -, h⟩ := exists_of_bind_ok h
  obtain ⟨kind, hkind, h⟩ := exists_of_bind_ok h
  obtain ⟨made, hmade, h⟩ := exists_of_bind_ok h
  obtain ⟨fold, hfold, h⟩ := exists_of_bind_ok h
  obtain ⟨p, ending, rfl, hp, hending⟩ := inv_make hmade
  obtain rfl := eq_of_foldValue hfold
  cases h
  unfold finish
  cases hescape : f.escape <;>
    exact ⟨rfl, hp, hending, name_of_named hkind, hescape.symm, rfl, rfl⟩

end ConstructFields

theorem says_of_mapM {fs : List RuleFields} {rs : List TokenRule}
    (h : fs.mapM RuleFields.build = .ok rs) : List.Forall₂ RuleFields.Says fs rs := by
  induction fs generalizing rs with
  | nil => cases h; exact .nil
  | cons f fs ih =>
    rw [List.mapM_cons] at h
    obtain ⟨r, hr, h⟩ := exists_of_bind_ok h
    obtain ⟨rs', hrs, h⟩ := exists_of_bind_ok h
    cases h
    exact .cons (RuleFields.says_of_build hr) (ih hrs)

theorem says_of_buildConstructs {fs : List ConstructFields} {number : Nat} {ks : List Construct}
    (h : buildConstructs number fs = .ok ks) :
    List.Forall₂ (fun e k => e.1.Says e.2 k) (fs.zipIdx number) ks := by
  induction fs generalizing number ks with
  | nil => cases h; exact .nil
  | cons f fs ih =>
    obtain ⟨k, hk, h⟩ := exists_of_bind_ok h
    obtain ⟨ks', hks, h⟩ := exists_of_bind_ok h
    cases h
    exact .cons (ConstructFields.says_of_build hk) (ih hks)

/-! ## Languages made by hand -/

namespace Language

/-- Rules that are added to none are put into the stable order of descending priority. -/
theorem stablyOrdered_addRule (l : Language) (hl : l.rules = []) (rs : List TokenRule) :
    StablyOrdered (fun r => -r.priority) rs (rs.foldl addRule l).rules := by
  have hordered := stablyOrdered_rules l.name (rs.map .rule)
  rw [made, List.foldl_map, List.filterMap_map] at hordered
  have hrules : (rs.foldl (fun l r => l.add (.rule r)) (named l.name)).rules =
      (rs.foldl addRule l).rules := by
    show (rs.foldl addRule (named l.name)).rules = _
    rw [foldl_addRule, foldl_addRule, hl]
    rfl
  rw [hrules] at hordered
  simpa [Function.comp_def, Origin.rule?] using hordered

end Language

namespace DefinitionFile

theorem says_of_build {d : DefinitionFile} {l : Language} (h : d.build = .ok l) :
    ∃ rules, d.Says rules l := by
  obtain ⟨rules, hrules, h⟩ := exists_of_bind_ok h
  obtain ⟨constructs, hconstructs, h⟩ := exists_of_bind_ok h
  cases h
  have hordered := (Language.stablyOrdered_addRule { Language.named d.name with
    extensions := d.extensions, indentation := d.indentation, folding := d.folding } rfl rules)
  rw [Language.foldl_addConstruct]
  refine ⟨rules, ?_, ?_, ?_, ?_, ?_, says_of_mapM hrules, ?_, ?_⟩
  · rw [Language.foldl_addRule]; rfl
  · rw [Language.foldl_addRule]
  · rw [Language.foldl_addRule]
  · rw [Language.foldl_addRule]
  · rw [Language.foldl_addRule]; rfl
  · simpa using hordered.unique (.mergeSort _ _) fun _ => rfl
  · rw [Language.foldl_addRule]
    exact says_of_buildConstructs hconstructs

namespace Says

variable {d : DefinitionFile} {rules : List TokenRule} {l : Language} (h : d.Says rules l)
include h

/-- The constructs have the numbers 1, 2, …. -/
theorem numbered : l.constructs.map (·.id) = List.range' 1 d.constructs.length := by
  have hids : (d.constructs.zipIdx 1).map (·.2) = l.constructs.map (·.id) := by
    rw [← List.forall₂_eq_eq_eq, List.forall₂_map_left_iff, List.forall₂_map_right_iff]
    exact h.constructs.imp fun _ _ hsaid => hsaid.id.symm
  rw [← hids, List.zipIdx_map_snd]

/-- What a construct says, it says of fields in the file. -/
theorem exists_fields {k : Construct} (hk : k ∈ l.constructs) :
    ∃ f ∈ d.constructs, ∃ number, f.Says number k := by
  obtain ⟨hlength, hsaid⟩ := List.forall₂_iff_get.1 h.constructs
  obtain ⟨i, hi, rfl⟩ := List.getElem_of_mem hk
  have hmem := List.getElem_mem (l := d.constructs.zipIdx 1) (hlength.symm ▸ hi)
  exact ⟨_, (List.mem_zipIdx hmem).2.2 ▸ List.getElem_mem _, _, hsaid i _ hi⟩

theorem bounds (hvalid : d.Valid) (hfold : ∀ f ∈ d.constructs, f.fold ≠ -32768) :
    ∀ k ∈ l.constructs, k.id ≠ 0 ∧ k.id ≤ 255 ∧ 0 ≤ k.region ∧ k.region ≤ 32767 := by
  intro k hk
  have hid := List.mem_map_of_mem (f := (·.id)) hk
  rw [h.numbered, List.mem_range'_1] at hid
  have hcount := hvalid.count
  obtain ⟨f, hf, number, hsaid⟩ := h.exists_fields hk
  have hrange := (hvalid.constructs f hf).fold
  have hne := hfold f hf
  rw [hsaid.region]
  exact ⟨by omega, by omega, by omega, by omega⟩

/-- The constructs have numbers and regions of their own, unless a rule uses the region of one. -/
theorem separate (hown : ∀ k ∈ l.constructs, k.region ≠ 0 →
    ∀ r ∈ l.rules, (r.fold.natAbs : Int) ≠ k.region) : l.Separate where
  ids := h.numbered ▸ List.nodup_range'
  id_ne_zero k hk := by
    have hid := List.mem_map_of_mem (f := (·.id)) hk
    rw [h.numbered, List.mem_range'_1] at hid
    omega
  region_nonneg k hk := by
    obtain ⟨f, -, number, hsaid⟩ := h.exists_fields hk
    rw [hsaid.region]
    exact Int.natCast_nonneg _
  own := hown

/-- However it is made by hand, a language of the same rules and constructs scans alike. -/
theorem scan_made (name : String) (as : List Origin) (hrules : as.filterMap Origin.rule? = rules)
    (hconstructs : as.filterMap Origin.construct? = l.constructs) (t : Contexts) (s : LineState)
    (text : String) : (Language.made name as).scan t s text = l.scan t s text := by
  have hsame : (Language.made name as).rules = l.rules := by
    rw [h.rules, ← hrules]
    simpa using (Language.stablyOrdered_rules name as).unique (.mergeSort _ _) fun _ => rfl
  rw [Language.scan, Language.scan, Language.plain_made, h.plain,
    Language.scanFrom_eq_of_rules t s _ hsame]
  rw [Language.constructs_made, hconstructs]

end Says

end DefinitionFile

/-- **A definition file defines what it says.**  Whatever the fields of a file are (a construct with
a value of -32768, whose opposite is out of range, left aside): a language is built exactly of a
valid file; what is built is what the file says, its constructs are numbered from 1 on and its
regions are types, and it scans as every language that is made by hand of the same rules and
constructs; and if the file is not valid, the error is the first of its faults. -/
theorem definition_built (d : DefinitionFile) (hfold : ∀ f ∈ d.constructs, f.fold ≠ -32768) :
    (∀ source, (Toml.document? source).bind DefinitionFile.ofEntries? = some d →
      Language.ofSource source = d.build) ∧
    ((∃ l, d.build = .ok l) ↔ d.Valid) ∧
    (∀ l, d.build = .ok l → ∃ rules, d.Says rules l ∧
      l.constructs.map (·.id) = List.range' 1 d.constructs.length ∧
      (∀ k ∈ l.constructs, k.id ≠ 0 ∧ k.id ≤ 255 ∧ 0 ≤ k.region ∧ k.region ≤ 32767) ∧
      ∀ (name : String) (as : List Origin), as.filterMap Origin.rule? = rules →
        as.filterMap Origin.construct? = l.constructs →
        ∀ t s text, (Language.made name as).scan t s text = l.scan t s text) ∧
    ∀ e, d.build = .error e ↔ d.faults.head? = some e := by
  have hvalid : (∃ l, d.build = .ok l) ↔ d.Valid :=
    d.checks_build.ok_iff.trans d.faults_eq_nil_iff
  refine ⟨fun source hd => ?_, hvalid, fun l hl => ?_, d.checks_build.error_iff⟩
  · rw [Language.ofSource, hd]
  · obtain ⟨rules, hsaid⟩ := DefinitionFile.says_of_build hl
    exact ⟨rules, hsaid, hsaid.numbered, hsaid.bounds (hvalid.1 ⟨l, hl⟩) hfold, hsaid.scan_made⟩

/-- A definition file for examples, with a fence whose value points the other way. -/
def wordsFile : DefinitionFile :=
  ⟨"Words", ["txt"], none, .token,
    [⟨"word", "[a-z]+", "Keyword", 0, 0⟩, ⟨"brace", "\\\x7b", "Punctuation", 5, 1⟩],
    [⟨"fence", "^(`+)", "^%1$", "String", true, none, -3⟩]⟩

/-- The same with a second rule before all others and a fence of an unknown kind. -/
def wordsFileFlawed : DefinitionFile :=
  { wordsFile with
    rules := [⟨"word", "[a-z]+", "Keyword", 0, 0⟩,
      ⟨"brace", "\\\x7b", "Punctuation", 2147483648, 1⟩]
    constructs := [⟨"fence", "^(`+)", "^%1$", "Fence", true, none, -3⟩] }

/-- A definition file for examples.  Its one construct is a region, though its value is negative. -/
def notesFile : DefinitionFile :=
  ⟨"Notes", [], none, .token, [], [⟨"note", "<", ">", "Comment", false, none, -2⟩]⟩

/-- The source of that file. -/
def notesSource : String :=
  "name = 'Notes'\n[[multiline]]\nname = 'note'\nstart = '<'\nend = '>'\n" ++
    "token = 'Comment'\nfold = -2"

/-- The rules stand by their priority, the fence has number 1 and a type of region; of two faults
the first is reported.  A source with a note defines a language that has one construct. -/
theorem definition_built_words :
    wordsFile.Valid ∧
    (∃ l rules, wordsFile.build = .ok l ∧ wordsFile.Says rules l ∧
      l.rules.map (·.name) = ["brace", "word"] ∧
      l.constructs.map (fun k => (k.id, k.region)) = [(1, 3)]) ∧
    wordsFileFlawed.faults = [.priorityRange "brace" 2147483648, .unknownToken "Fence"] ∧
    wordsFileFlawed.build = .error (.priorityRange "brace" 2147483648) ∧
    ∃ l, Language.ofSource notesSource = .ok l ∧ l.name = "Notes" ∧ l.rules = [] ∧
      l.constructs.map (fun k => (k.name, k.id, k.region)) = [("note", 1, 2)] := by
  have hbuilt : ∃ l, wordsFile.build = .ok l ∧ l.rules.map (·.name) = ["brace", "word"] ∧
      l.constructs.map (fun k => (k.id, k.region)) = [(1, 3)] := by
    refine ⟨_, rfl, ?_, ?_⟩ <;> rfl
  have hfaults : wordsFileFlawed.faults =
      [.priorityRange "brace" 2147483648, .unknownToken "Fence"] := by
    decide +kernel
  have hread : (Toml.document? notesSource).bind DefinitionFile.ofEntries? = some notesFile := by
    decide +kernel
  have hnotes : ∃ l, notesFile.build = .ok l ∧ l.name = "Notes" ∧ l.rules = [] ∧
      l.constructs.map (fun k => (k.name, k.id, k.region)) = [("note", 1, 2)] := by
    refine ⟨_, rfl, ?_, ?_, ?_⟩ <;> rfl
  obtain ⟨l, hl, hrules, hconstructs⟩ := hbuilt
  obtain ⟨-, hvalid, hsaid, -⟩ := definition_built wordsFile (by decide)
  obtain ⟨-, -, -, herror⟩ := definition_built wordsFileFlawed (by decide)
  obtain ⟨hsource, -⟩ := definition_built notesFile (by decide)
  obtain ⟨rules, hsaid, -⟩ := hsaid l hl
  exact ⟨hvalid.1 ⟨l, hl⟩, ⟨l, rules, hl, hsaid, hrules, hconstructs⟩, hfaults,
    (herror _).2 (by rw [hfaults]; rfl), by rwa [hsource notesSource hread]⟩

end Highlighting
