import Highlighting.CommandLine
import Highlighting.Proofs.Regions

/-!
# What the answers depend on

The region of a line is found from scratch, so two buffers with the same text and definition give
the same answers: whatever was done to them before, whatever else their sessions hold, and whatever
the settings are.  The same goes for the program, which prints the regions of one buffer, and for
how much time passes while it runs.  The settings may make a lookahead so large that it cannot be
added to a line number; where sums are bounded, that is left out.

    two buffers of any two undisturbed sessions, and any two settings files    (answers_determined)
-/

namespace Highlighting

/-- What of a handle the answers depend on: the definition, and whether an observer is around it. -/
def Handle.definition (h : Handle) : Language × Bool :=
  (h.language, h.observer)

theorem Handle.regionAt_congr (h k : Handle) (heq : h.definition = k.definition)
    (texts : List String) (n : Nat) : h.regionAt texts n = k.regionAt texts n := by
  obtain ⟨id, language, observer⟩ := h
  obtain ⟨id', language', observer'⟩ := k
  obtain ⟨rfl, rfl⟩ := Prod.mk.inj heq
  rfl

namespace Session

/-- The answer of a buffer without an open transaction, from its texts and definition. -/
theorem foldRange_undisturbed (s : Session) (hs : s.Undisturbed) (name : String) (b : Buffer)
    (hb : (name, b) ∈ s.buffers) (hclosed : b.store.editing = false) (hfit : b.SumsFit s.shared)
    (n : Nat) :
    (b.foldRange s.shared n).result =
      if b.texts.length ≤ n then .error (.noLine n)
      else .ok (b.handle.bind fun h => h.regionAt b.texts n) :=
  Buffer.foldRange_closed (hs.orderly.buffers _ hb) (hs.current _ hb) hclosed hfit n

end Session

namespace Buffer

/-- The answers for several lines, one after the other. -/
theorem foldEach_result {b : Buffer} {s : Shared} (h : b.Orderly s) (hc : b.Current s)
    (hclosed : b.store.editing = false) (hfit : b.SumsFit s) (k : Handle) (hk : b.handle = some k)
    (count line : Nat) (hcount : line + count = b.lineCount) :
    (Session.foldEach b s count line).result =
      .ok ((List.range' line count).map (k.regionAt b.texts)) := by
  induction count generalizing b s line with
  | zero => rfl
  | succ count ih =>
    have hone := foldRange_result h hc hclosed k hk hfit line (by omega)
    have hkeeps := (searches_foldRange b s line).keeps h
    have hsame := (searches_foldRange b s line).same h
    have hrest := ih hkeeps.orderly (hkeeps.current hc)
      (hsame.editing.trans hclosed) (hfit.of_same hsame hkeeps.shared.sums)
      (hsame.handle.trans hk) (line + 1)
      (by rw [hsame.lineCount]; omega)
    rw [hsame.texts] at hrest
    unfold Session.foldEach
    rw [Outcome.eq_of_result hone]
    dsimp only
    rw [Outcome.eq_of_result hrest]
    rfl

end Buffer

/-- The lookahead can be added to every line number of the text. -/
def Settings.SumsFit (settings : Settings) (text : String) (sums : Sums) : Prop :=
  ∀ line < (Text.linesOf text).length, sums.Fits line settings.lookahead

namespace CommandLine

/-- The buffer whose regions the program prints, and what it shares. -/
def opened (settings : Settings) (h : Handle) (text : String) (pauses : List Nat) (sums : Sums) :
    Buffer × Shared :=
  let (b, s) := Buffer.create settings.maxContexts settings.tabWidth settings.lookahead
    ((Shared.fresh settings.resetDelay sums).wait pauses)
  ((b.setText text).setHandle h, s)

section
variable (settings settings' : Settings) (h : Handle) (text : String) (pauses pauses' : List Nat)
  (sums sums' : Sums)

theorem opened_spec :
    (opened settings h text pauses sums).1.Orderly (opened settings h text pauses sums).2 ∧
      (opened settings h text pauses sums).1.Current (opened settings h text pauses sums).2 ∧
      (opened settings h text pauses sums).1.store.editing = false ∧
      (opened settings h text pauses sums).1.handle = some h ∧
      (opened settings h text pauses sums).1.texts = Text.linesOf text := by
  have hempty := Buffer.orderly_create settings.maxContexts settings.tabWidth settings.lookahead
    ((Shared.fresh settings.resetDelay sums).wait pauses) Contexts.sound_fresh
  have htext := Buffer.keeps_setText hempty text
  have hhandle := Buffer.keeps_setHandle htext.orderly h
  refine ⟨hhandle.orderly, hhandle.current (htext.current fun _ _ hk => by cases hk), ?_,
    Buffer.handle_setHandle _ h rfl, ?_⟩
  · show TextStore.editing (Buffer.setHandle _ h).store = false
    rw [Buffer.store_setHandle]
    rfl
  · show Buffer.texts (Buffer.setHandle _ h) = _
    rw [Buffer.texts_setHandle, Buffer.texts_setText]

/-- The regions that the program prints are found from scratch, and depend neither on the settings
nor on the clock. -/
theorem regions_eq (hfit : settings.SumsFit text sums) :
    regions settings h text pauses sums =
      ((List.range' 0 (Text.linesOf text).length).map (h.regionAt (Text.linesOf text))).filterMap
        id := by
  obtain ⟨ho, hc, hclosed, hh, htexts⟩ := opened_spec settings h text pauses sums
  have hcount : (opened settings h text pauses sums).1.lineCount =
      (Text.linesOf text).length := by
    rw [← Buffer.texts_length, htexts]
  have hlookahead : (opened settings h text pauses sums).1.lookahead = settings.lookahead := by
    show (Buffer.setHandle _ h).lookahead = _
    rw [Buffer.lookahead_setHandle]
    rfl
  have hfit : (opened settings h text pauses sums).1.SumsFit
      (opened settings h text pauses sums).2 := by
    intro line hline
    rw [hlookahead]
    exact hfit line (hcount ▸ hline)
  have hresult := Buffer.foldEach_result ho hc hclosed hfit h hh _ 0 (Nat.zero_add _)
  rw [hcount, htexts] at hresult
  rw [← hcount] at hresult ⊢
  simp only [opened] at hresult ⊢
  simp only [regions, hresult]

theorem report_eq (read : String → Option String) (r : Request) (file : String)
    (hfit : ∀ text, read file = some text → settings.SumsFit text sums)
    (hfit' : ∀ text, read file = some text → settings'.SumsFit text sums') :
    report settings read r file pauses sums = report settings' read r file pauses' sums' := by
  cases hread : read file with
  | none => simp only [report, hread]
  | some text =>
    have hregions (h : Handle) :
        regions settings h text pauses sums = regions settings' h text pauses' sums' := by
      rw [regions_eq _ _ _ _ _ (hfit text hread), regions_eq _ _ _ _ _ (hfit' text hread)]
    simp only [report, hread, hregions]

end

/-- The lookahead that a settings file makes can be added to every line number of every file. -/
def SumsFit (settings : Option String) (read : String → Option String) (sums : Sums) : Prop :=
  ∀ file text, read file = some text → (Settings.load settings).SumsFit text sums

theorem sumsFit_unbounded (settings : Option String) (read : String → Option String) :
    SumsFit settings read .unbounded :=
  fun _ _ _ _ _ => Sums.fits_unbounded _ _

theorem run_eq (args : List String) {settings settings' : Option String}
    {read : String → Option String} (pauses pauses' : List Nat) {sums sums' : Sums}
    (hfit : SumsFit settings read sums) (hfit' : SumsFit settings' read sums') :
    run args settings read pauses sums = run args settings' read pauses' sums' := by
  have hreport (r : Request) (file : String) :
      report (.load settings) read r file pauses sums =
        report (.load settings') read r file pauses' sums' :=
    report_eq _ _ pauses pauses' sums sums' read r file (hfit file) (hfit' file)
  simp only [run, hreport]

end CommandLine

/-- Take any two sessions in which contexts have been forgotten by passes alone, and in each a
buffer without an open transaction.  If both have the same text under the same definition, they
answer the same for every line.  What the program prints, and how it ends, is the same for any two
settings files, be they well-formed or not, and however much time passes between the looks at the
clock.  All this where no sum is too large, as none is where sums are unbounded. -/
theorem answers_determined :
    (∀ (s₁ s₂ : Session) (name₁ name₂ : String) (b₁ b₂ : Buffer),
      s₁.Undisturbed → s₂.Undisturbed →
      (name₁, b₁) ∈ s₁.buffers → (name₂, b₂) ∈ s₂.buffers →
      b₁.store.editing = false → b₂.store.editing = false →
      b₁.SumsFit s₁.shared → b₂.SumsFit s₂.shared →
      b₁.texts = b₂.texts → b₁.handle.map (·.definition) = b₂.handle.map (·.definition) →
      ∀ n, (b₁.foldRange s₁.shared n).result = (b₂.foldRange s₂.shared n).result) ∧
    ∀ (args : List String) (settings₁ settings₂ : Option String) (read : String → Option String)
      (pauses₁ pauses₂ : List Nat) (sums₁ sums₂ : Sums),
      CommandLine.SumsFit settings₁ read sums₁ → CommandLine.SumsFit settings₂ read sums₂ →
      (CommandLine.run args settings₁ read pauses₁ sums₁).out =
        (CommandLine.run args settings₂ read pauses₂ sums₂).out ∧
      (CommandLine.run args settings₁ read pauses₁ sums₁).code =
        (CommandLine.run args settings₂ read pauses₂ sums₂).code := by
  constructor
  · intro s₁ s₂ name₁ name₂ b₁ b₂ hs₁ hs₂ hb₁ hb₂ hc₁ hc₂ hfit₁ hfit₂ htexts hdef n
    rw [s₁.foldRange_undisturbed hs₁ name₁ b₁ hb₁ hc₁ hfit₁,
      s₂.foldRange_undisturbed hs₂ name₂ b₂ hb₂ hc₂ hfit₂, htexts]
    cases hh₁ : b₁.handle with
    | none =>
      rw [hh₁] at hdef
      rw [Option.map_eq_none_iff.1 hdef.symm]
    | some h₁ =>
      rw [hh₁] at hdef
      obtain ⟨h₂, hh₂, hsame⟩ := Option.map_eq_some_iff.1 hdef.symm
      rw [hh₂, Option.bind_some, Option.bind_some, h₁.regionAt_congr h₂ hsame.symm]
  · intro args settings₁ settings₂ read pauses₁ pauses₂ sums₁ sums₂ hfit₁ hfit₂
    rw [CommandLine.run_eq args pauses₁ pauses₂ hfit₁ hfit₂]
    exact ⟨rfl, rfl⟩

/-- A session whose one buffer has had the text of `Session.bracesEdited` from the beginning, under
other settings, beside a context that is in use and where sums have no bound. -/
def Session.bracesGiven : Session :=
  (start 5 .standard .unbounded).after
    [.define "braces" (.ok .braces) false, .intern "a",
      .newBuffer "copy" (some "\x7b\n\x7d") (some ⟨1, 5, 4, 3⟩), .useHandle "copy" "braces"]

theorem answers_determined_braces :
    (∃ b₁ b₂, ("text", b₁) ∈ Session.bracesEdited.buffers ∧
      ("copy", b₂) ∈ Session.bracesGiven.buffers ∧ b₁.texts = b₂.texts ∧
      ∀ n, (b₁.foldRange Session.bracesEdited.shared n).result =
        (b₂.foldRange Session.bracesGiven.shared n).result) ∧
    (CommandLine.run ["a.rs"] (some "fold-lookahead = 3") (fun _ => some "\x7b\n\x7d") [7]).out =
      (CommandLine.run ["a.rs"] (some "tab") (fun _ => some "\x7b\n\x7d") [] .unbounded).out := by
  obtain ⟨b₁, hb₁⟩ : ∃ b, Session.bracesEdited.buffers = [("text", b)] := ⟨_, rfl⟩
  obtain ⟨b₂, hb₂⟩ : ∃ b, Session.bracesGiven.buffers = [("copy", b)] := ⟨_, rfl⟩
  have hclosed : (Session.bracesEdited.buffers.all fun e => !e.2.store.editing) = true ∧
      (Session.bracesGiven.buffers.all fun e => !e.2.store.editing) = true := by
    decide +kernel
  have hfit : (Session.bracesEdited.buffers.all
      fun e => decide (e.2.SumsFit Session.bracesEdited.shared)) = true := by
    decide +kernel
  have htexts : (Session.bracesEdited.buffers.map fun e => e.2.texts) =
      Session.bracesGiven.buffers.map fun e => e.2.texts := by
    decide +kernel
  have hdef : (Session.bracesEdited.buffers.map fun e => e.2.handle.map (·.definition)) =
      Session.bracesGiven.buffers.map fun e => e.2.handle.map (·.definition) := by
    decide +kernel
  rw [hb₁, hb₂] at hclosed htexts hdef
  rw [hb₁] at hfit
  simp only [List.all_cons, List.all_nil, Bool.and_true, Bool.not_eq_true', List.map_cons,
    List.map_nil, List.cons.injEq, and_true, decide_eq_true_eq] at hclosed hfit htexts hdef
  have hmem₁ : ("text", b₁) ∈ Session.bracesEdited.buffers := by simp [hb₁]
  have hmem₂ : ("copy", b₂) ∈ Session.bracesGiven.buffers := by simp [hb₂]
  have hsettings : CommandLine.SumsFit (some "fold-lookahead = 3")
      (fun _ => some "\x7b\n\x7d") .wrapping := by
    rintro file _ ⟨⟩ line hline
    have hlookahead : (Settings.load (some "fold-lookahead = 3")).lookahead = 3 := by
      decide +kernel
    have hcount : (Text.linesOf "\x7b\n\x7d").length = 2 := by decide +kernel
    have htop : 4 ≤ Sums.top := by decide
    exact Sums.fits_of_le (by omega) _
  refine ⟨⟨b₁, b₂, hmem₁, hmem₂, htexts, answers_determined.1 _ _ "text" "copy" b₁ b₂
    (.after (.start 0 .standard) _ (by simp)) (.after (.start 5 .standard) _ (by simp))
    hmem₁ hmem₂ hclosed.1 hclosed.2 hfit (Buffer.sumsFit_of_unbounded rfl) htexts hdef⟩, ?_⟩
  exact (answers_determined.2 ["a.rs"] (some "fold-lookahead = 3") (some "tab") _ [7] [] _ _
    hsettings (CommandLine.sumsFit_unbounded _ _)).1

end Highlighting
