import Highlighting.Language.Basic

/-!
# Built-in languages

Rules and constructs of the languages that are known from the start.  Braces are regions of type 1
and block comments of type 2; what is peculiar to one language starts at 3.
-/

namespace Highlighting.Builtin

open TokenRule (make)
open Construct (makeFixed makeDerived)

/-! ## Parts -/

/-- The type of regions in braces. -/
def braceRegion : Int := 1

/-- The type of regions in block comments. -/
def commentRegion : Int := 2

/-- The type of regions between conditional directives. -/
def directiveRegion : Int := 3

/-- The type of regions in fenced code. -/
def fenceRegion : Int := 3

/-- A pattern that matches each of the words where it stands alone. -/
def wordList (words : List String) : String :=
  "\\b(" ++ String.intercalate "|" words ++ ")\\b"

/-- A language that is used for files with these extensions. -/
def base (name : String) (extensions : List String) : Language :=
  extensions.foldl Language.addExtension (.named name)

/-- The language with these constructs and rules, unless one of them is flawed. -/
def assemble (l : Language) (constructs : List (Except Error Construct))
    (rules : List (Except Error TokenRule)) : Except Error Language := do
  let constructs ← constructs.mapM id
  let rules ← rules.mapM id
  return rules.foldl Language.addRule (constructs.foldl Language.addConstruct l)

/-- A rule that puts a marker at each match. -/
def folding (name source : String) (kind : TokenKind) (priority fold : Int) :
    Except Error TokenRule :=
  (TokenRule.make name source kind priority).map (·.withFold fold)

/-- A construct whose end a backslash escapes. -/
def escapable (name delimiter : String) (id : Nat) : Except Error Construct :=
  (Construct.makeFixed name delimiter delimiter .string id).map (·.withEscape '\\')

/-- A construct that is a region. -/
def region (value : Int) (k : Except Error Construct) : Except Error Construct :=
  k.map (·.withFold value)

/-- Block comments between a slash and a star. -/
def blockComment : Except Error Construct :=
  region commentRegion (makeFixed "block_comment" "/\\*" "\\*/" .comment 1)

/-- Rules that open and close a region at braces. -/
def braces : List (Except Error TokenRule) :=
  [folding "open_brace" "\\\x7b" .punctuation 50 braceRegion,
    folding "close_brace" "\\\x7d" .punctuation 50 (-braceRegion)]

/-! ## Rust -/

/-- Keywords of Rust. -/
def rustKeywords : List String :=
  ["as", "async", "await", "break", "const", "continue", "crate", "dyn", "else", "enum",
    "extern", "false", "fn", "for", "if", "impl", "in", "let", "loop", "match", "mod", "move",
    "mut", "pub", "ref", "return", "self", "Self", "static", "struct", "super", "trait", "true",
    "type", "union", "unsafe", "use", "where", "while"]

/-- Primitive types of Rust. -/
def rustPrimitives : List String :=
  ["bool", "char", "str", "u8", "u16", "u32", "u64", "u128", "usize", "i8", "i16", "i32", "i64",
    "i128", "isize", "f32", "f64"]

/-- Rust.  The closing quote of a raw string needs the hashes of its opening quote. -/
def rust : Except Error Language :=
  assemble { base "Rust" ["rs"] with indentation := some "cstyle" }
    [blockComment,
      makeDerived "raw_string" "\\br(#*)\"" "\"%1" .string 2,
      escapable "string" "\"" 3]
    ([make "line_comment" "//.*$" .comment 100,
      make "attribute" "#!?\\[[^\\]]*\\]" .decorator 95,
      make "char" "'(?:[^'\\\\]|\\\\.)'" .char 90,
      make "lifetime" "'\\w+" .lifetime 89,
      make "macro" "\\b\\w+!" .macroCall 85,
      make "keyword" (wordList rustKeywords) .keyword 80,
      make "primitive" (wordList rustPrimitives) .type 75,
      make "type_name" "\\b[A-Z][a-zA-Z0-9_]*\\b" .type 60,
      make "number"
        ("\\b(?:0x[0-9a-fA-F_]+|0b[01_]+|0o[0-7_]+|\\d[\\d_]*(?:\\.\\d[\\d_]*)?" ++
         "(?:[eE][+-]?\\d+)?)\\w*\\b") .number 65] ++ braces ++
      [make "operator" "[+\\-*/%&|^!<>=@]+" .operator 40])

/-! ## C -/

/-- Keywords of C. -/
def cKeywords : List String :=
  ["auto", "break", "case", "char", "const", "continue", "default", "do", "double", "else",
    "enum", "extern", "float", "for", "goto", "if", "inline", "int", "long", "register",
    "restrict", "return", "short", "signed", "sizeof", "static", "struct", "switch", "typedef",
    "union", "unsigned", "void", "volatile", "while"]

/-- Keywords that C++ adds. -/
def cppKeywords : List String :=
  ["bool", "catch", "class", "constexpr", "delete", "explicit", "false", "friend", "mutable",
    "namespace", "new", "noexcept", "nullptr", "operator", "private", "protected", "public",
    "template", "this", "throw", "true", "try", "typename", "using", "virtual"]

/-- C, which also serves for C++. -/
def c : Except Error Language :=
  assemble { base "C" ["c", "h", "cpp", "hpp", "cc", "cxx"] with indentation := some "cstyle" }
    [blockComment, escapable "string" "\"" 2]
    ([make "line_comment" "//.*$" .comment 100,
      folding "pp_if" "^\\s*#\\s*if(?:n?def)?\\b" .preprocessor 97 directiveRegion,
      folding "pp_endif" "^\\s*#\\s*endif\\b" .preprocessor 96 (-directiveRegion),
      make "preprocessor" "^\\s*#\\s*\\w+" .preprocessor 95,
      make "char" "'(?:[^'\\\\]|\\\\.)'" .char 90,
      make "keyword" (wordList cKeywords) .keyword 80,
      make "cpp_keyword" (wordList cppKeywords) .keyword 79,
      make "number"
        ("\\b(?:0[xX][0-9a-fA-F]+|\\d+(?:\\.\\d*)?(?:[eE][+-]?\\d+)?)[uUlLfF]*" ++
         "\\b") .number 65] ++ braces ++
      [make "operator" "[+\\-*/%&|^!<>=~?:]+" .operator 40])

/-! ## Python -/

/-- Keywords of Python. -/
def pythonKeywords : List String :=
  ["False", "None", "True", "and", "as", "assert", "async", "await", "break", "class",
    "continue", "def", "del", "elif", "else", "except", "finally", "for", "from", "global", "if",
    "import", "in", "is", "lambda", "nonlocal", "not", "or", "pass", "raise", "return", "try",
    "while", "with", "yield"]

/-- Python. -/
def python : Except Error Language :=
  assemble { base "Python" ["py", "pyw", "pyi"] with
      indentation := some "python", folding := .indentation }
    [makeFixed "triple_double" "\"\"\"" "\"\"\"" .string 1,
      makeFixed "triple_single" "'''" "'''" .string 2,
      escapable "double_string" "\"" 3,
      escapable "single_string" "'" 4]
    [make "comment" "#.*$" .comment 100,
      make "decorator" "@\\w+" .decorator 95,
      make "keyword" (wordList pythonKeywords) .keyword 80,
      make "function" "\\bdef\\s+\\w+" .function 85,
      make "number"
        "\\b(?:0[xX][0-9a-fA-F_]+|\\d[\\d_]*(?:\\.\\d[\\d_]*)?(?:[eE][+-]?\\d+)?j?)\\b" .number 65,
      make "operator" "[+\\-*/%&|^~<>=!]+" .operator 40]

/-! ## Markdown -/

/-- Markdown.  A fence closes on a line that holds the same run of backticks or tildes and nothing
else. -/
def markdown : Except Error Language :=
  assemble (base "Markdown" ["md", "markdown", "mkd"])
    [region fenceRegion
      (makeDerived "fence" "^\\s*(`\x7b3,\x7d|~\x7b3,\x7d)" "^\\s*%1\\s*$" .string 1)]
    [make "header" "^#\x7b1,6\x7d\\s+.*$" .heading 100,
      make "bold" "\\*\\*[^*]+\\*\\*|__[^_]+__" .type 90,
      make "inline_code" "`[^`]+`" .string 88,
      make "italic" "\\*[^*]+\\*|_[^_]+_" .special 85,
      make "image" "!\\[[^\\]]*\\]\\([^)]+\\)" .macroCall 81,
      make "link" "\\[[^\\]]+\\](?:\\([^)]+\\)|\\[[^\\]]*\\])" .function 80,
      make "list" "^\\s*(?:[-*+]|\\d+\\.)\\s" .keyword 70,
      make "quote" "^\\s*>.*$" .comment 70]

/-! ## All of them -/

/-- The built-in languages that could be built, plain text first. -/
def languages : List Language :=
  .plainText :: [rust, c, python, markdown].filterMap (·.toOption)

/-! ## Lemmas -/

section
variable {l l' : Language} {ks : List (Except Error Construct)} {constructs : List Construct}
  {rs : List (Except Error TokenRule)}

/-- What is assembled has the constructs of its parts, and is otherwise as it was begun. -/
theorem inv_assemble (h : assemble l ks rs = .ok l') :
    ∃ constructs, ks.mapM id = .ok constructs ∧ l'.constructs = l.constructs ++ constructs ∧
      l'.plain = l.plain ∧ l'.folding = l.folding := by
  obtain ⟨constructs, hks, h⟩ := exists_of_bind_ok h
  obtain ⟨rules, -, h⟩ := exists_of_bind_ok h
  cases h
  rw [Language.foldl_addRule, Language.foldl_addConstruct]
  exact ⟨constructs, hks, rfl, rfl, rfl⟩

/-- Something is assembled unless a part is flawed. -/
theorem exists_assemble (l : Language) (hks : ks.mapM id = .ok constructs)
    (hrs : ∀ r ∈ rs, ∃ rule, r = .ok rule) : ∃ l', assemble l ks rs = .ok l' := by
  have hrules : ∃ rules, rs.mapM id = .ok rules := by
    induction rs with
    | nil => exact ⟨[], rfl⟩
    | cons r rs ih =>
      rw [List.forall_mem_cons] at hrs
      obtain ⟨⟨rule, rfl⟩, hrs⟩ := hrs
      obtain ⟨rules, hrules⟩ := ih hrs
      rw [List.mapM_cons, hrules]
      exact ⟨rule :: rules, rfl⟩
  obtain ⟨rules, hrules⟩ := hrules
  rw [assemble, hks, hrules]
  exact ⟨_, rfl⟩

end

end Highlighting.Builtin
