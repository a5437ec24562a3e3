import GoPages.Token.Lexeme

/-!
# The tokens of a source text

`tokenize` cuts a text into lexemes, each with its location, and then keeps the tokens and the
comments.

* `lexemes` is the first step. The location of a lexeme is reached by moving over the lexemes before
  it; quoted literals and runes never move to a new line. `Lexes` is the relation that it computes.
* `assemble` is the second step. At a line feed, at a block comment that holds one and at the end of
  the file it puts the implied semicolon if the last token may end a statement.

A byte order mark at the start of the text is not part of it.
-/

namespace GoPages

/-- A lexeme with the location of its first byte. -/
structure Placed where
  location : Location
  lexeme : Lexeme
deriving DecidableEq

/-- A fault with the location where the lexeme would start. -/
structure LexError where
  fault : LexFault
  location : Location
deriving DecidableEq

/-- The tokens of a source text before its end, the location of the end, and the comments. -/
structure Lexed where
  tokens : List Token
  finish : Location
  comments : List Comment
deriving DecidableEq

/-- The tokens of a source text, the end of the file being the last one. -/
def Lexed.allTokens (lexed : Lexed) : List Token :=
  lexed.tokens ++ [Token.endOfFile lexed.finish]

namespace Lexeme

/-- Is the lexeme a literal that ends on the line where it starts? -/
def staysOnLine (x : Lexeme) : Bool :=
  match x.cls with
  | .token .char => true
  | .token .string => x.text.head? != some '\x60'
  | _ => false

/-- The location after a lexeme that starts at `l`. -/
def after (x : Lexeme) (l : Location) : Location :=
  if x.staysOnLine then l.skip x.text else l.advance x.text

end Lexeme

/-- The lexemes of a text that starts at `l`, with the location of its end. -/
def lexemes (l : Location) : List Char → Except LexError (List Placed × Location)
  | [] => .ok ([], l)
  | c :: cs =>
    match h : Lexeme.scan c cs with
    | .error fault => .error ⟨fault, l⟩
    | .ok (x, rest) =>
      have := Lexeme.length_lt_of_scan h
      match lexemes (x.after l) rest with
      | .error e => .error e
      | .ok (placed, finish) => .ok (⟨l, x⟩ :: placed, finish)
termination_by cs => cs.length

/-- The comment of a comment lexeme. A carriage return at the end of a line comment belongs to the
line's end. -/
def Placed.comment (p : Placed) : Comment :=
  match p.lexeme.cls with
  | .lineComment =>
    ⟨String.ofList ((Text.stripEnd? ['\r'] p.lexeme.text).getD p.lexeme.text), p.location,
      p.location.line⟩
  | _ => ⟨String.ofList p.lexeme.text, p.location, (p.lexeme.after p.location).line⟩

/-- The token of a token lexeme. -/
def Placed.token (p : Placed) (kind : TokenKind) : Token :=
  ⟨kind, String.ofList p.lexeme.text, p.location⟩

/-- The semicolon at `l`, if the line structure implies one there. -/
def impliedAt (pending : Bool) (l : Location) : List Token :=
  if pending then [Token.impliedSemicolon l] else []

/-- The tokens and comments among lexemes that end at `finish`. The first argument says whether the
token before them may end a statement. -/
def assemble (finish : Location) : (pending : Bool) → List Placed → Lexed
  | pending, [] => ⟨impliedAt pending finish, finish, []⟩
  | pending, p :: rest =>
    match p.lexeme.cls with
    | .blank => assemble finish pending rest
    | .newline =>
      let lexed := assemble finish false rest
      { lexed with tokens := impliedAt pending p.location ++ lexed.tokens }
    | .lineComment =>
      let lexed := assemble finish pending rest
      { lexed with comments := p.comment :: lexed.comments }
    | .blockComment =>
      -- a comment of several lines ends its line where it starts
      let breaks := p.lexeme.text.contains '\n'
      let lexed := assemble finish (pending && !breaks) rest
      { lexed with
        tokens := impliedAt (pending && breaks) p.location ++ lexed.tokens
        comments := p.comment :: lexed.comments }
    | .token kind =>
      let token := p.token kind
      let lexed := assemble finish (endsStatement kind token.text) rest
      { lexed with tokens := token :: lexed.tokens }

/-- The text without a byte order mark at its start. -/
def withoutMark : List Char → List Char
  | '\ufeff' :: cs => cs
  | cs => cs

/-- The tokens and comments of the source text of a file. -/
def tokenize (file source : String) : Except LexError Lexed :=
  match lexemes ⟨file, 1, 1⟩ (withoutMark source.toList) with
  | .error e => .error e
  | .ok (placed, finish) => .ok (assemble finish false placed)

/-! ### Taking a text apart -/

/-- A fault in a lexeme stands at its start. -/
theorem lexemes_cons_of_error {l : Location} {c : Char} {cs : List Char} {fault : LexFault}
    (h : Lexeme.scan c cs = .error fault) : lexemes l (c :: cs) = .error ⟨fault, l⟩ := by
  rw [lexemes]
  split <;> simp_all

/-- After a lexeme the others are read from the location that it leads to. -/
theorem lexemes_cons_of_ok {l : Location} {c : Char} {cs rest : List Char} {x : Lexeme}
    (h : Lexeme.scan c cs = .ok (x, rest)) :
    lexemes l (c :: cs) = (lexemes (x.after l) rest).map fun r => (⟨l, x⟩ :: r.1, r.2) := by
  rw [lexemes]
  split
  · simp_all
  · next x' rest' h' =>
    obtain ⟨rfl, rfl⟩ : x = x' ∧ rest = rest' := by simpa [h] using h'
    cases lexemes (x.after l) rest <;> rfl

/-- A text that starts at a location is taken apart into lexemes, up to the location of its end. -/
inductive Lexes : Location → List Char → List Placed → Location → Prop
  | done (l : Location) : Lexes l [] [] l
  | step {l finish : Location} {c : Char} {cs rest : List Char} {x : Lexeme} {placed : List Placed}
      (hscan : Lexeme.scan c cs = .ok (x, rest)) (hrest : Lexes (x.after l) rest placed finish) :
      Lexes l (c :: cs) (⟨l, x⟩ :: placed) finish

/-- What holds of the lexemes of a text is proved by induction on how it is taken apart. -/
theorem lexemes_eq_ok_iff {l finish : Location} {cs : List Char} {placed : List Placed} :
    lexemes l cs = .ok (placed, finish) ↔ Lexes l cs placed finish := by
  constructor
  · intro h
    fun_induction lexemes l cs generalizing placed finish with
    | case1 l =>
      cases h
      exact .done l
    | case2 => cases h
    | case3 => cases h
    | case4 l c cs x rest hscan _ placed' finish' hrest ih =>
      cases h
      exact .step hscan (ih hrest)
  · intro h
    induction h with
    | done l => rw [lexemes]
    | step hscan _ ih =>
      rw [lexemes_cons_of_ok hscan, ih]
      rfl

/-! ### What a text consists of -/

/-- The lexemes of a text make up the text. -/
theorem flatMap_text_of_lexemes {l finish : Location} {cs : List Char} {placed : List Placed}
    (h : lexemes l cs = .ok (placed, finish)) :
    placed.flatMap (fun p => p.lexeme.text) = cs := by
  rw [lexemes_eq_ok_iff] at h
  induction h with
  | done => rfl
  | step hscan _ ih =>
    rw [List.flatMap_cons, ih]
    exact (Lexeme.scan_append hscan).1

/-- The lexemes of a text have been scanned. -/
theorem exists_scan_of_mem_lexemes {l finish : Location} {cs : List Char} {placed : List Placed}
    (h : lexemes l cs = .ok (placed, finish)) :
    ∀ p ∈ placed, ∃ c ds rest, Lexeme.scan c ds = .ok (p.lexeme, rest) := by
  rw [lexemes_eq_ok_iff] at h
  induction h with
  | done => exact List.forall_mem_nil _
  | @step _ _ c cs rest x _ hscan _ ih =>
    exact List.forall_mem_cons.mpr ⟨⟨c, cs, rest, hscan⟩, ih⟩

/-- The tokens and comments of a text are assembled from its lexemes. -/
theorem exists_assemble_of_tokenize {file source : String} {lexed : Lexed}
    (h : tokenize file source = .ok lexed) :
    ∃ placed finish, lexemes ⟨file, 1, 1⟩ (withoutMark source.toList) = .ok (placed, finish) ∧
      assemble finish false placed = lexed := by
  rw [tokenize] at h
  split at h
  · cases h
  · next placed finish hplaced => exact ⟨placed, finish, hplaced, Except.ok.inj h⟩

/-- A text is read when something has been evaluated of its tokens and comments. -/
theorem exists_tokenize_of_any {file source : String} {test : Lexed → Bool}
    (h : (tokenize file source).toOption.any test = true) :
    ∃ lexed, tokenize file source = .ok lexed ∧ test lexed = true := by
  cases hlexed : tokenize file source with
  | error e =>
    rw [hlexed] at h
    cases h
  | ok lexed =>
    rw [hlexed, Except.toOption, Option.any_some] at h
    exact ⟨lexed, rfl, h⟩

end GoPages
