import GoPages.Package
import GoPages.Proofs.Sorting
import GoPages.Proofs.Text.Bytes

/-!
# Sources that are given by their lines

`sourcesOf` writes sources as lists of lines, so that an application can be given in full. Taking a
long text apart into its characters is what makes an evaluation slow; `Package.load_sourcesOf` reads
such sources from the characters of their lines.
-/

namespace GoPages

/-- The characters of lines, each with its line feed. -/
def charsOfLines (lines : List String) : List Char :=
  lines.flatMap fun line => line.toList ++ ['\n']

private theorem charsOfLines_eq (lines : List String) :
    charsOfLines lines = lines.flatMap fun line => Text.chars line ++ ['\n'] := by
  simp only [charsOfLines, Text.chars_eq_toList]

/-- The sources with these names and lines. -/
def sourcesOf (files : List (String × List String)) : List Source :=
  files.map fun f => ⟨f.1, String.ofList (charsOfLines f.2)⟩

/-- The declarations of a file, read from the characters of its text. -/
def SourceFile.parseChars (name : String) (cs : List Char) : Except SyntaxError SourceFile :=
  match lexemes ⟨name, 1, 1⟩ (withoutMark cs) with
  | .error e => .error ⟨.lexical e.fault, e.location⟩
  | .ok (placed, finish) =>
    let lexed := assemble finish false placed
    match Parser.sourceFile name lexed.comments (Cursor.start lexed) with
    | .error e => .error e
    | .ok (file, _) => .ok file

/-- A text is parsed as its characters are. -/
theorem SourceFile.parse_eq_parseChars (name source : String) :
    parse name source = parseChars name source.toList := by
  rw [parse, tokenize, parseChars]
  cases lexemes ⟨name, 1, 1⟩ (withoutMark source.toList) <;> rfl

namespace Package

/-- Reads files from their lines, up to the first syntax error. -/
def parseLines : List (String × List String) → Except LoadError (List SourceFile)
  | [] => .ok []
  | f :: rest =>
    match SourceFile.parseChars f.1 (f.2.flatMap fun line => Text.chars line ++ ['\n']) with
    | .error e => .error (.malformed e)
    | .ok file =>
      match parseLines rest with
      | .error e => .error e
      | .ok files => .ok (file :: files)

/-- Sources are parsed from the characters of their lines. -/
private theorem parseAll_sourcesOf (files : List (String × List String)) :
    parseAll (sourcesOf files) = parseLines files := by
  induction files with
  | nil => rfl
  | cons f rest ih =>
    rewrite [sourcesOf, List.map_cons, ← sourcesOf, parseAll, parseLines, ih,
      SourceFile.parse_eq_parseChars, String.toList_ofList, charsOfLines_eq]
    rfl

/-- Sources that are given by their lines are read from them. -/
theorem load_sourcesOf (files : List (String × List String)) :
    load (sourcesOf files) =
      match parseLines (sortBy (fun a b => !decide (b.1 < a.1)) files) with
      | .error e => .error e
      | .ok parsed =>
        ofFiles (Digest.hex (Digest.sha256 (digestInput (inNameOrder (sourcesOf files)))))
          parsed := by
  have hsorted : inNameOrder (sourcesOf files) =
      sourcesOf (sortBy (fun a b => !decide (b.1 < a.1)) files) := by
    rewrite [inNameOrder, sourcesOf, sortBy_map]
    rfl
  rewrite [load, ← parseAll_sourcesOf, hsorted]
  cases parseAll (sourcesOf (sortBy (fun a b => !decide (b.1 < a.1)) files)) <;> rfl

/-- Sources are loaded when something has been evaluated of their package. -/
theorem exists_load_of_any {sources : List Source} {test : Package → Bool}
    (h : (load sources).toOption.any test = true) :
    ∃ p, load sources = .ok p ∧ test p = true := by
  cases hload : load sources with
  | error e =>
    rw [hload] at h
    cases h
  | ok p =>
    rw [hload, Except.toOption, Option.any_some] at h
    exact ⟨p, rfl, h⟩

end Package

end GoPages
