import Mathlib.Data.List.Nodup
import Mathlib.Data.String.Basic
import Highlighting.Proofs.Latest
import Highlighting.Proofs.Reachability

/-!
# What was added to the catalog

The catalog keeps two tables, of languages by name and of names by extension, and the second speaks
of the first.  Languages are added again and again, under names that are taken and with extensions
that others have listed.  What the catalog tells is said by the history of additions alone:

    one more language is added  →  the tables follow the history with it at the end  (Follows.add)
    c.Follows history           →  c.Tells history                               (Follows.tells)
    a step of a session adds what it is asked to add, and nothing else             (adds_step)
    any run of a session        →  its catalog tells what was added  (lookups_follow_additions)
-/

namespace Highlighting

/-- Does the language list the extension, whatever the case of either? -/
def Handle.Lists (h : Handle) (e : String) : Prop :=
  ∃ x ∈ h.language.extensions, Unicode.lowercase x = Unicode.lowercase e

/-- The language that an operation adds to the catalog, if it adds one. -/
def Op.added? : Op → Option Language
  | .addLanguage language => language.toOption
  | .loadSource source => (Language.ofSource source).toOption
  | _ => none

namespace Catalog

/-- The tables hold what the latest additions say. -/
structure Follows (c : Catalog) (history : List Handle) : Prop where
  languages : ∀ name h, c.languages.lookup name = some h ↔
    Latest (·.language.name = name) history h
  extensions : ∀ e name, c.extensions.lookup (Unicode.lowercase e) = some name ↔
    ∃ h, Latest (·.Lists e) history h ∧ h.language.name = name
  distinct : (c.languages.map (·.1)).Nodup

/-- Every answer of the catalog is what the latest additions say. -/
structure Tells (c : Catalog) (history : List Handle) : Prop where
  detect : ∀ path name, c.detect? path = some name ↔ ∃ e h, Text.extension? path = some e ∧
    Latest (·.Lists e) history h ∧ h.language.name = name
  undetected : ∀ path, c.detect? path = none ↔
    ∀ e, Text.extension? path = some e → ∀ h ∈ history, ¬h.Lists e
  get : ∀ name h, c.get name = .ok h ↔ Latest (·.language.name = name) history h
  unknown : ∀ name e, c.get name = .error e ↔
    e = .unknownDefinition name ∧ ∀ h ∈ history, h.language.name ≠ name
  forPath : ∀ path name, c.detect? path = some name →
    ∃ h, c.get name = .ok h ∧ c.forPath path = h
  fallback : ∀ path, c.detect? path = none → c.forPath path = c.plain
  sorted : c.names.Pairwise (· < ·)
  names : ∀ name, name ∈ c.names ↔ ∃ h, c.get name = .ok h

/-! ## Adding a language -/

theorem lookup_without_of_ne {α : Type} {name other : String} (h : other ≠ name)
    (entries : List (String × α)) :
    (Session.without name entries).lookup other = entries.lookup other := by
  induction entries with
  | nil => rfl
  | cons e entries ih =>
    obtain ⟨key, a⟩ := e
    by_cases hkey : key = name
    · subst hkey
      have hskip : Session.without key ((key, a) :: entries) = Session.without key entries := by
        simp [Session.without]
      rw [hskip, ih, List.lookup_cons, beq_false_of_ne h]
    · have hkeep : Session.without name ((key, a) :: entries) =
          (key, a) :: Session.without name entries := by
        simp [Session.without, hkey]
      rw [hkeep, List.lookup_cons, List.lookup_cons, ih]

section
variable (c : Catalog) (h : Handle)

theorem lookup_languages_add (name : String) (k : Handle) :
    (c.add h).languages.lookup name = some k ↔ h.language.name = name ∧ k = h ∨
      h.language.name ≠ name ∧ c.languages.lookup name = some k := by
  have hadd : (c.add h).languages = Session.put h.language.name h c.languages := rfl
  by_cases hname : h.language.name = name
  · subst hname
    rw [hadd, Session.lookup_put]
    simp [eq_comm]
  · have hother : (c.add h).languages.lookup name = c.languages.lookup name := by
      rw [hadd, Session.put, List.lookup_cons, beq_false_of_ne (Ne.symm hname)]
      exact lookup_without_of_ne (Ne.symm hname) c.languages
    simp [hother, hname]

/-- What the language lists is its own from now on, in whatever case it is listed, and how often. -/
theorem lookup_extensions_add (e name : String) :
    (c.add h).extensions.lookup (Unicode.lowercase e) = some name ↔
      h.Lists e ∧ h.language.name = name ∨
        ¬h.Lists e ∧ c.extensions.lookup (Unicode.lowercase e) = some name := by
  have hadd : (c.add h).extensions = (h.language.extensions.map fun x =>
      (Unicode.lowercase x, h.language.name)).reverse ++ c.extensions := rfl
  rw [hadd, List.lookup_append]
  generalize hlisted : (h.language.extensions.map fun x =>
    (Unicode.lowercase x, h.language.name)).reverse = listed
  have hmem (p : String × String) : p ∈ listed ↔
      ∃ x ∈ h.language.extensions, (Unicode.lowercase x, h.language.name) = p := by
    rw [← hlisted, List.mem_reverse, List.mem_map]
  cases hfound : listed.lookup (Unicode.lowercase e) with
  | some owner =>
    obtain ⟨x, hx, hp⟩ := (hmem _).1 (Session.mem_of_lookup hfound)
    obtain ⟨hlower, rfl⟩ := Prod.mk.inj hp
    have hlists : h.Lists e := ⟨x, hx, hlower⟩
    simp [hlists]
  | none =>
    have hnot : ¬h.Lists e := by
      rintro ⟨x, hx, hlower⟩
      have hne := List.lookup_eq_none_iff.1 hfound _ ((hmem _).2 ⟨x, hx, rfl⟩)
      simp [hlower] at hne
    simp [hnot]

theorem distinct_add (hc : (c.languages.map (·.1)).Nodup) :
    ((c.add h).languages.map (·.1)).Nodup := by
  have hadd : (c.add h).languages.map (·.1) =
      h.language.name :: (Session.without h.language.name c.languages).map (·.1) := rfl
  rw [hadd, List.nodup_cons]
  constructor
  · intro hmem
    obtain ⟨e, he, hname⟩ := List.mem_map.1 hmem
    exact (Session.mem_without he).2 hname
  · exact hc.sublist (List.filter_sublist.map _)

end

namespace Follows

variable {c : Catalog} {history : List Handle}

theorem empty : Catalog.empty.Follows [] where
  languages := by simp [Catalog.empty, not_latest_nil]
  extensions := by simp [Catalog.empty, not_latest_nil]
  distinct := List.nodup_nil

theorem add (hc : c.Follows history) (h : Handle) : (c.add h).Follows (history ++ [h]) where
  languages name k := by
    rw [lookup_languages_add, latest_concat, hc.languages]
  extensions e name := by
    rw [lookup_extensions_add, hc.extensions]
    simp only [latest_concat, or_and_right, exists_or, and_assoc, exists_and_left,
      exists_eq_left]
  distinct := c.distinct_add h hc.distinct

/-- After any additions the tables follow the history with these at its end. -/
theorem foldl_add (hc : c.Follows history) (hs : List Handle) :
    (hs.foldl Catalog.add c).Follows (history ++ hs) := by
  induction hs generalizing c history with
  | nil => simpa using hc
  | cons h hs ih =>
    have hadded := ih (hc.add h)
    rwa [List.append_assoc, List.singleton_append] at hadded

end Follows

/-! ## What is told -/

section
variable (c : Catalog) (name : String)

theorem get_ok_iff (h : Handle) : c.get name = .ok h ↔ c.languages.lookup name = some h := by
  unfold get
  split
  · next k hk => simp [hk]
  · next hnone => simp [hnone]

theorem get_error_iff (e : Error) :
    c.get name = .error e ↔ e = .unknownDefinition name ∧ c.languages.lookup name = none := by
  unfold get
  split
  · next k hk => simp [hk]
  · next hnone => simp [hnone, eq_comm]

theorem detect?_eq_some_iff (path : String) : c.detect? path = some name ↔
    ∃ e, Text.extension? path = some e ∧
      c.extensions.lookup (Unicode.lowercase e) = some name := by
  rw [detect?, Option.bind_eq_some_iff]

theorem mem_names_iff : name ∈ c.names ↔ ∃ h, c.languages.lookup name = some h := by
  rw [← Option.isSome_iff_exists, List.lookup_isSome_iff, names, List.mem_mergeSort, List.mem_map]
  simp only [beq_iff_eq, @eq_comm _ name]

/-- The names ascend, and none stands there twice, if no two languages have one. -/
theorem sorted_names (hc : (c.languages.map (·.1)).Nodup) : c.names.Pairwise (· < ·) := by
  have hle : c.names.Pairwise fun a b => (!decide (b < a)) = true := by
    apply List.pairwise_mergeSort
    · intro x y z hxy hyz
      simp only [Bool.not_eq_true', decide_eq_false_iff_not, not_lt] at hxy hyz ⊢
      exact hxy.trans hyz
    · intro x y
      simp only [Bool.or_eq_true, Bool.not_eq_true', decide_eq_false_iff_not, not_lt]
      exact le_total x y
  have hne : c.names.Nodup := (List.mergeSort_perm _ _).nodup_iff.2 hc
  refine (hle.and hne).imp ?_
  rintro a b ⟨hab, hne⟩
  simp only [Bool.not_eq_true', decide_eq_false_iff_not, not_lt] at hab
  exact lt_of_le_of_ne hab hne

end

namespace Follows

variable {c : Catalog} {history : List Handle} (hc : c.Follows history)
include hc

theorem exists_language_iff (name : String) :
    (∃ h, c.languages.lookup name = some h) ↔ ∃ h ∈ history, h.language.name = name := by
  simp only [hc.languages, exists_latest_iff]

theorem exists_extension_iff (e : String) :
    (∃ name, c.extensions.lookup (Unicode.lowercase e) = some name) ↔ ∃ h ∈ history, h.Lists e := by
  simp only [hc.extensions, ← exists_latest_iff]
  exact ⟨fun ⟨_, h, hh, _⟩ => ⟨h, hh⟩, fun ⟨h, hh⟩ => ⟨_, h, hh, rfl⟩⟩

/-- A name that is detected is the name of a language. -/
theorem exists_detected {path name : String} (hpath : c.detect? path = some name) :
    ∃ h, c.languages.lookup name = some h := by
  obtain ⟨e, -, he⟩ := (c.detect?_eq_some_iff name path).1 hpath
  obtain ⟨h, hlatest, hname⟩ := (hc.extensions e name).1 he
  exact (hc.exists_language_iff name).2 ⟨h, hlatest.mem, hname⟩

theorem tells : c.Tells history where
  detect path name := by
    rw [detect?_eq_some_iff]
    simp only [hc.extensions, exists_and_left]
  undetected path := by
    rw [Option.eq_none_iff_forall_ne_some]
    constructor
    · intro hnone e he h hh hlists
      obtain ⟨name, hname⟩ := (hc.exists_extension_iff e).2 ⟨h, hh, hlists⟩
      exact hnone name ((c.detect?_eq_some_iff name path).2 ⟨e, he, hname⟩)
    · intro hnone name hname
      obtain ⟨e, he, hlookup⟩ := (c.detect?_eq_some_iff name path).1 hname
      obtain ⟨h, hh, hlists⟩ := (hc.exists_extension_iff e).1 ⟨name, hlookup⟩
      exact hnone e he h hh hlists
  get name h := by
    rw [get_ok_iff, hc.languages]
  unknown name e := by
    have hnone : c.languages.lookup name = none ↔ ∀ h ∈ history, h.language.name ≠ name := by
      rw [Option.eq_none_iff_forall_ne_some, ← not_exists, hc.exists_language_iff]
      simp
    rw [get_error_iff, hnone]
  forPath path name hpath := by
    obtain ⟨h, hh⟩ := hc.exists_detected hpath
    refine ⟨h, (c.get_ok_iff name h).2 hh, ?_⟩
    rw [Catalog.forPath, hpath, Option.bind_some, hh, Option.getD_some]
  fallback path hpath := by
    rw [Catalog.forPath, hpath, Option.bind_none, Option.getD_none]
  sorted := c.sorted_names hc.distinct
  names name := by
    simp only [mem_names_iff, get_ok_iff]

end Follows

/-- The handles of the built-in languages, in order. -/
def builtinHandles : List Handle :=
  Builtin.languages.zipIdx.map fun e => ⟨e.2, e.1, false⟩

theorem follows_builtin : Catalog.builtin.Follows builtinHandles := by
  have hbuiltin : Catalog.builtin = builtinHandles.foldl add Catalog.empty := by
    rw [builtinHandles, List.foldl_map]
    rfl
  rw [hbuiltin]
  exact Follows.empty.foldl_add builtinHandles

end Catalog

/-! ## Sessions -/

namespace Session

/-- The handle that an operation adds to the catalog, if it adds one. -/
def added? (s : Session) (op : Op) : Option Handle :=
  op.added?.map fun l => ⟨s.nextHandle, l, false⟩

/-- The handles that some operations add to the catalog, one after the other. -/
def additions (s : Session) : List Op → List Handle
  | [] => []
  | op :: ops => (s.added? op).toList ++ (s.step op).2.additions ops

/-- The handles that are added to the catalog from the start of a session on: those of the built-in
languages, and those that the operations add. -/
def history (resetDelay : Nat) (settings : Settings) (sums : Sums) (ops : List Op) : List Handle :=
  Catalog.builtinHandles ++ (start resetDelay settings sums).additions ops

/-- What a step may do to the catalog: add what it is asked to add, and use up its number. -/
structure Adds (s : Session) (h? : Option Handle) (s' : Session) : Prop where
  catalog : s'.catalog = h?.toList.foldl Catalog.add s.catalog
  nextHandle : s.nextHandle + h?.toList.length ≤ s'.nextHandle

section
variable (s : Session)

theorem adds_keep (name : Option String) (h : Handle) : s.Adds none (s.keep name h) := by
  cases name <;> exact ⟨rfl, Nat.le_refl _⟩

theorem adds_closeBuffer (name : String) : s.Adds none (s.closeBuffer name) := by
  unfold closeBuffer
  split <;> exact ⟨rfl, Nat.le_refl _⟩

theorem adds_closeSlot (name : String) : s.Adds none (s.closeSlot name) := by
  unfold closeSlot
  split <;> exact ⟨rfl, Nat.le_refl _⟩

theorem adds_step (op : Op) : s.Adds (s.added? op) (s.step op).2 := by
  cases op with
  | addLanguage language =>
    cases language with
    | error e => exact ⟨rfl, Nat.le_refl _⟩
    | ok l => exact ⟨rfl, Nat.le_refl _⟩
  | loadSource source =>
    simp only [added?, Op.added?, step]
    cases Language.ofSource source with
    | error e => exact ⟨rfl, Nat.le_refl _⟩
    | ok l => exact ⟨rfl, Nat.le_refl _⟩
  | define name language observer =>
    cases language with
    | error e => exact ⟨rfl, Nat.le_refl _⟩
    | ok l => exact ⟨rfl, Nat.le_succ _⟩
  | get name keepAs =>
    simp only [step]
    split
    · exact ⟨rfl, Nat.le_refl _⟩
    · exact s.adds_keep keepAs _
  | plain keepAs => exact s.adds_keep keepAs _
  | forPath path keepAs => exact s.adds_keep keepAs _
  | register name =>
    obtain ⟨hcatalog, hnext⟩ := s.adds_closeSlot name
    exact ⟨hcatalog, hnext⟩
  | dropSlot name => exact s.adds_closeSlot name
  | newBuffer name text settings =>
    obtain ⟨hcatalog, hnext⟩ := s.adds_closeBuffer name
    exact ⟨hcatalog, hnext⟩
  | dropBuffer name => exact s.adds_closeBuffer name
  | seen _ | sameHandle _ _ | pending _ | takeRebuild _ | useHandle _ _ | useNamed _ _
  | buffer _ _ =>
    simp only [step, Session.useHandle, withBuffer]
    (repeat' split) <;> exact ⟨rfl, Nat.le_refl _⟩
  | _ => exact ⟨rfl, Nat.le_refl _⟩

theorem catalog_after (ops : List Op) :
    (s.after ops).catalog = (s.additions ops).foldl Catalog.add s.catalog := by
  induction ops generalizing s with
  | nil => rfl
  | cons op ops ih =>
    rw [additions, List.foldl_append, ← (s.adds_step op).catalog]
    exact ih (s.step op).2

/-- Each addition has a number of its own, which none before it has had. -/
theorem additions_ascend (ops : List Op) :
    (∀ h ∈ s.additions ops, s.nextHandle ≤ h.id) ∧
      (s.additions ops).Pairwise (·.id < ·.id) := by
  induction ops generalizing s with
  | nil => exact ⟨List.forall_mem_nil _, .nil⟩
  | cons op ops ih =>
    obtain ⟨hlater, hascend⟩ := ih (s.step op).2
    have hnext := (s.adds_step op).nextHandle
    unfold additions
    cases hadded : s.added? op with
    | none =>
      rw [hadded] at hnext
      exact ⟨fun h hh => Nat.le_trans hnext (hlater h hh), hascend⟩
    | some k =>
      rw [hadded] at hnext
      have hk : s.nextHandle = k.id := by
        obtain ⟨l, -, rfl⟩ := Option.map_eq_some_iff.1 hadded
        rfl
      have hfurther (h : Handle) (hh : h ∈ (s.step op).2.additions ops) : k.id < h.id :=
        hk ▸ Nat.lt_of_lt_of_le hnext (hlater h hh)
      rw [hk]
      constructor
      · exact List.forall_mem_cons.2 ⟨Nat.le_refl _, fun h hh => (hfurther h hh).le⟩
      · exact List.pairwise_cons.2 ⟨hfurther, hascend⟩

end

theorem follows_history (resetDelay : Nat) (settings : Settings) (sums : Sums) (ops : List Op) :
    ((start resetDelay settings sums).after ops).catalog.Follows
      (history resetDelay settings sums ops) := by
  have hstart : (start resetDelay settings sums).catalog = Catalog.builtin := by
    rw [start]
  rw [catalog_after, hstart, history]
  exact Catalog.follows_builtin.foldl_add _

theorem history_ascends (resetDelay : Nat) (settings : Settings) (sums : Sums) (ops : List Op) :
    (history resetDelay settings sums ops).Pairwise (·.id < ·.id) := by
  obtain ⟨hlater, hascend⟩ := (start resetDelay settings sums).additions_ascend ops
  have hids : Catalog.builtinHandles.map (·.id) = List.range' 0 Builtin.languages.length := by
    rw [Catalog.builtinHandles, List.map_map]
    exact List.zipIdx_map_snd 0 Builtin.languages
  refine List.pairwise_append.2 ⟨?_, hascend, fun h hh k hk => ?_⟩
  · rw [← List.pairwise_map (f := Handle.id), hids]
    exact List.pairwise_lt_range'
  · have hid := List.mem_map_of_mem (f := Handle.id) hh
    rw [hids, List.mem_range'_1] at hid
    have hfirst : Builtin.languages.length ≤ k.id := hlater k hk
    omega

/-- Plain text is among the languages of the catalog, so that files of no known extension get a
handle from there. -/
theorem get_plainName (resetDelay : Nat) (settings : Settings) (sums : Sums) (ops : List Op) :
    ((start resetDelay settings sums).after ops).catalog.get Language.plainName =
      .ok ((start resetDelay settings sums).after ops).catalog.plain := by
  have hfollows := follows_history resetDelay settings sums ops
  generalize ((start resetDelay settings sums).after ops).catalog = c at hfollows
  have hbuiltin : (⟨0, .plainText, false⟩ : Handle) ∈ history resetDelay settings sums ops := by
    refine List.mem_append_left _ ?_
    rw [Catalog.builtinHandles, Builtin.languages, List.zipIdx_cons, List.map_cons]
    exact .head _
  obtain ⟨h, hh⟩ := (hfollows.exists_language_iff Language.plainName).2 ⟨_, hbuiltin, rfl⟩
  rw [c.get_ok_iff, Catalog.plain, hh, Option.getD_some]

/-- **The catalog tells what was added last.**  After any operations of a session, among them
additions of languages and of sources that define none: the language of a file is, by name, the
latest that was added and lists the extension of the file; the language of a name is the latest that
was added under it, and the one that a file with a known extension gets; the known names are told in
ascending order, each once.  Every addition has a handle of its own, plain text is a language like
others, and a source that defines no language leaves all as it was. -/
theorem lookups_follow_additions (resetDelay : Nat) (settings : Settings) (sums : Sums)
    (ops : List Op) :
    ((start resetDelay settings sums).after ops).catalog.Tells
      (history resetDelay settings sums ops) ∧
    (history resetDelay settings sums ops).Pairwise (·.id < ·.id) ∧
    ((start resetDelay settings sums).after ops).catalog.get Language.plainName =
      .ok ((start resetDelay settings sums).after ops).catalog.plain ∧
    ∀ source e, Language.ofSource source = .error e →
      ((start resetDelay settings sums).after ops).step (.loadSource source) =
        (.error (.failed e), (start resetDelay settings sums).after ops) := by
  refine ⟨(follows_history resetDelay settings sums ops).tells,
    history_ascends resetDelay settings sums ops, get_plainName resetDelay settings sums ops, fun source e he => ?_⟩
  simp only [step, he]

/-- Additions for examples: a language takes an extension from another one, a source defines
nothing, and the language is replaced by one of its name that lists other extensions. -/
def iniReplaced : List Op :=
  [.addLanguage (.ok (Builtin.base "Ini" ["INI", "Rs"])), .loadSource "name =",
    .addLanguage (.ok (Builtin.base "Ini" ["cfg"]))]

theorem additions_iniReplaced (s : Session) : s.additions iniReplaced =
    [⟨s.nextHandle, Builtin.base "Ini" ["INI", "Rs"], false⟩,
      ⟨s.nextHandle + 1, Builtin.base "Ini" ["cfg"], false⟩] :=
  rfl

/-- A file gets the language that has replaced the one which listed its extension. -/
theorem lookups_follow_additions_iniReplaced : ∃ h : Handle,
    h.language = Builtin.base "Ini" ["cfg"] ∧ ¬h.Lists "RS" ∧
    ((start 0 .standard).after iniReplaced).catalog.detect? "src/main.RS" = some "Ini" ∧
    ((start 0 .standard).after iniReplaced).catalog.get "Ini" = .ok h ∧
    ((start 0 .standard).after iniReplaced).catalog.forPath "src/main.RS" = h ∧
    ((start 0 .standard).after iniReplaced).step (.loadSource "name =") =
      (.error (.failed .malformed), (start 0 .standard).after iniReplaced) := by
  obtain ⟨htells, -, -, hflawed⟩ := lookups_follow_additions 0 .standard .wrapping iniReplaced
  have hdetect : ((start 0 .standard).after iniReplaced).catalog.detect? "src/main.RS" =
      some "Ini" := by
    decide +kernel
  have hmalformed : Language.ofSource "name =" = .error .malformed := rfl
  obtain ⟨h, hget, hpath⟩ := htells.forPath _ _ hdetect
  have hlanguage : h.language = Builtin.base "Ini" ["cfg"] := by
    have hlatest := (htells.get "Ini" h).1 hget
    rw [history, additions_iniReplaced, ← List.singleton_append, ← List.append_assoc,
      latest_concat] at hlatest
    rcases hlatest with ⟨-, rfl⟩ | ⟨hname, -⟩
    · rfl
    · exact absurd rfl hname
  refine ⟨h, hlanguage, ?_, hdetect, hget, hpath, hflawed _ _ hmalformed⟩
  rintro ⟨x, hx, hlower⟩
  rw [hlanguage] at hx
  obtain rfl := List.mem_singleton.1 hx
  exact absurd hlower (by decide +kernel)

end Session

end Highlighting
