import GoPages.Text.Alphabetic
import GoPages.Text.Numeric
import GoPages.Text.Pieces
import GoPages.Token

/-!
# Lexemes

A source text is a sequence of lexemes: blanks, line feeds, comments and tokens. `Lexeme.scan` reads
the one at the start of a text that is not empty, and gives nothing but what can stand there
(`scans_of_scan`). Nothing is lost and something is read: the lexeme's text is not empty and stands
before what follows it (`scan_append`).

* A quoted literal ends with its quote on the same line; a backslash takes the character after it
  along, whatever it is (`quotedRest?`).
* A raw literal and a block comment may run over several lines (`rawRest?`, `blockRest?`).
* A number takes letters, digits, underscores and points, and a sign right after an exponent letter
  (`numberSpan`).
-/

namespace GoPages

/-- What a piece of source text is. -/
inductive LexemeClass where
  /-- A space, a tab or a carriage return. -/
  | blank
  | newline
  | lineComment
  | blockComment
  | token (kind : TokenKind)
deriving DecidableEq

/-- A piece of source text with its class. -/
structure Lexeme where
  cls : LexemeClass
  text : List Char
deriving DecidableEq

/-- The ways in which a text can fail to start with a lexeme. -/
inductive LexFault where
  | commentNotTerminated
  | stringNotTerminated
  | rawStringNotTerminated
  | runeNotTerminated
  | invalidCharacter (c : Char)
deriving DecidableEq

/-- The wording of a fault. -/
def LexFault.message : LexFault → String
  | commentNotTerminated => "comment not terminated"
  | stringNotTerminated => "string literal not terminated"
  | rawStringNotTerminated => "raw string literal not terminated"
  | runeNotTerminated => "rune literal not terminated"
  | invalidCharacter c => "invalid character " ++ Text.quoteChar c

namespace Lexeme

/-- May an identifier start with the character? -/
def startsIdent (c : Char) : Bool := c == '_' || Text.isAlphabetic c

/-- May an identifier go on with the character? -/
def continuesIdent (c : Char) : Bool := c == '_' || Text.isAlphabetic c || Text.isNumeric c

/-! ### The ends of literals and comments -/

/-- Cuts a literal with the quote `mark` after its end, given the text after its opening quote. -/
def quotedRest? (mark : Char) : List Char → Option (List Char × List Char)
  | [] => none
  | ['\\'] => none
  | '\\' :: c :: rest => (quotedRest? mark rest).map fun (body, rest) => ('\\' :: c :: body, rest)
  | c :: rest =>
    if c = '\n' then none
    else if c = mark then some ([c], rest)
    else (quotedRest? mark rest).map fun (body, rest) => (c :: body, rest)

/-- Cuts a raw literal after its end, given the text after its opening quote. -/
def rawRest? : List Char → Option (List Char × List Char)
  | [] => none
  | c :: rest =>
    if c = '\x60' then some ([c], rest)
    else (rawRest? rest).map fun (body, rest) => (c :: body, rest)

/-- Cuts a block comment after its end, given the text after its opening. -/
def blockRest? : List Char → Option (List Char × List Char)
  | [] => none
  | '*' :: '/' :: rest => some (['*', '/'], rest)
  | c :: rest => (blockRest? rest).map fun (body, rest) => (c :: body, rest)

/-- Is the character a letter that may introduce a signed exponent? -/
def isExponentLetter (c : Char) : Bool := c == 'e' || c == 'E' || c == 'p' || c == 'P'

/-- Cuts a text after the characters of a number. -/
def numberSpan : List Char → List Char × List Char
  | [] => ([], [])
  | [c] => if c.isAlphanum || c == '_' || c == '.' then ([c], []) else ([], [c])
  | c :: d :: rest =>
    if isExponentLetter c && (d == '+' || d == '-') then
      let (body, rest) := numberSpan rest
      (c :: d :: body, rest)
    else if c.isAlphanum || c == '_' || c == '.' then
      let (body, rest) := numberSpan (d :: rest)
      (c :: body, rest)
    else ([], c :: d :: rest)

/-- The first operator of the table that the text starts with, and what follows it. -/
def operator? (cs : List Char) : Option (String × List Char) :=
  operators.findSome? fun op => (Text.strip? op.toList cs).map fun rest => (op, rest)

/-- The kind of a word. -/
def wordKind (word : List Char) : TokenKind :=
  if keywords.contains (String.ofList word) then .keyword else .ident

/-- The lexeme of an opening text and a body cut after it, or a fault if there is no end. -/
def closed (cls : LexemeClass) (opening : List Char) (fault : LexFault) :
    Option (List Char × List Char) → Except LexFault (Lexeme × List Char)
  | none => .error fault
  | some (body, rest) => .ok (⟨cls, opening ++ body⟩, rest)

/-- The lexeme at the start of a text that starts with neither a blank, a comment, a literal nor a
word. -/
def scanOperator (c : Char) (cs : List Char) : Except LexFault (Lexeme × List Char) :=
  match operator? (c :: cs) with
  | some (op, rest) =>
    .ok (⟨.token (if op = ";" then .semicolon else .op), op.toList⟩, rest)
  | none => .error (.invalidCharacter c)

/-- Does a number start with `c`, when `cs` follows it? -/
def startsNumber (c : Char) (cs : List Char) : Bool :=
  c.isDigit || (c == '.' && (cs.head?.map Char.isDigit).getD false)

/-- The lexeme at the start of the text `c :: cs`, and what follows it. -/
def scan (c : Char) (cs : List Char) : Except LexFault (Lexeme × List Char) :=
  if c = '\n' then .ok (⟨.newline, [c]⟩, cs)
  else if c = ' ' ∨ c = '\t' ∨ c = '\r' then .ok (⟨.blank, [c]⟩, cs)
  else if c = '/' ∧ cs.head? = some '/' then
    .ok (⟨.lineComment, c :: cs.takeWhile (· != '\n')⟩, cs.dropWhile (· != '\n'))
  else if c = '/' ∧ cs.head? = some '*' then
    closed .blockComment (c :: cs.take 1) .commentNotTerminated (blockRest? (cs.drop 1))
  else if c = '"' then closed (.token .string) [c] .stringNotTerminated (quotedRest? c cs)
  else if c = '\x60' then closed (.token .string) [c] .rawStringNotTerminated (rawRest? cs)
  else if c = '\'' then closed (.token .char) [c] .runeNotTerminated (quotedRest? c cs)
  else if startsNumber c cs then
    let (body, rest) := numberSpan cs
    .ok (⟨.token .number, c :: body⟩, rest)
  else if startsIdent c then
    let word := c :: cs.takeWhile continuesIdent
    .ok (⟨.token (wordKind word), word⟩, cs.dropWhile continuesIdent)
  else scanOperator c cs

/-! ### What stands at the start of a text -/

/-- A token of the kind and text stands at the start of the text `c :: cs`, before `rest`. -/
inductive Reads : (c : Char) → (cs : List Char) → TokenKind → (text rest : List Char) → Prop
  | string {cs body rest : List Char} (h : quotedRest? '"' cs = some (body, rest)) :
      Reads '"' cs .string ('"' :: body) rest
  | raw {cs body rest : List Char} (h : rawRest? cs = some (body, rest)) :
      Reads '\x60' cs .string ('\x60' :: body) rest
  | rune {cs body rest : List Char} (h : quotedRest? '\'' cs = some (body, rest)) :
      Reads '\'' cs .char ('\'' :: body) rest
  | number {c : Char} {cs : List Char} (h : startsNumber c cs) :
      Reads c cs .number (c :: (numberSpan cs).1) (numberSpan cs).2
  | word {c : Char} {cs : List Char} (h : startsIdent c) :
      Reads c cs (wordKind (c :: cs.takeWhile continuesIdent)) (c :: cs.takeWhile continuesIdent)
        (cs.dropWhile continuesIdent)
  | operator {c : Char} {cs rest : List Char} {op : String}
      (h : operator? (c :: cs) = some (op, rest))
      (hcomment : c = '/' → cs.head? ≠ some '/' ∧ cs.head? ≠ some '*')
      (hnumber : startsNumber c cs = false) :
      Reads c cs (if op = ";" then .semicolon else .op) op.toList rest

/-- The lexeme stands at the start of the text `c :: cs`, before `rest`. -/
inductive Scans : (c : Char) → (cs : List Char) → Lexeme → (rest : List Char) → Prop
  | newline {cs : List Char} : Scans '\n' cs ⟨.newline, ['\n']⟩ cs
  | blank {c : Char} {cs : List Char} (h : c = ' ' ∨ c = '\t' ∨ c = '\r') :
      Scans c cs ⟨.blank, [c]⟩ cs
  | lineComment {cs : List Char} (h : cs.head? = some '/') :
      Scans '/' cs ⟨.lineComment, '/' :: cs.takeWhile (· != '\n')⟩ (cs.dropWhile (· != '\n'))
  | blockComment {cs body rest : List Char} (h : blockRest? cs = some (body, rest)) :
      Scans '/' ('*' :: cs) ⟨.blockComment, '/' :: '*' :: body⟩ rest
  | token {c : Char} {cs text rest : List Char} {kind : TokenKind}
      (h : Reads c cs kind text rest) : Scans c cs ⟨.token kind, text⟩ rest

/-- A closed lexeme consists of its opening and of the body that has been cut. -/
theorem exists_of_closed {cls : LexemeClass} {opening rest : List Char} {fault : LexFault}
    {cut : Option (List Char × List Char)} {x : Lexeme}
    (h : closed cls opening fault cut = .ok (x, rest)) :
    ∃ body, cut = some (body, rest) ∧ x = ⟨cls, opening ++ body⟩ := by
  cases cut with
  | none => cases h
  | some p =>
    cases h
    exact ⟨p.1, rfl, rfl⟩

/-- All that the scanner can give. -/
theorem scans_of_scan {c : Char} {cs rest : List Char} {x : Lexeme}
    (h : scan c cs = .ok (x, rest)) : Scans c cs x rest := by
  -- one branch for each rule of the scanner, in their order
  unfold scan at h
  split at h
  · next hc =>
    cases h
    subst hc
    exact .newline
  split at h
  · next hc =>
    cases h
    exact .blank hc
  split at h
  · next hc =>
    obtain ⟨rfl, hhead⟩ := hc
    cases h
    exact .lineComment hhead
  split at h
  · next hc =>
    obtain ⟨rfl, hhead⟩ := hc
    obtain ⟨ds, rfl⟩ := List.head?_eq_some_iff.mp hhead
    obtain ⟨body, hcut, rfl⟩ := exists_of_closed h
    exact .blockComment hcut
  split at h
  · next hc =>
    subst hc
    obtain ⟨body, hcut, rfl⟩ := exists_of_closed h
    exact .token (.string hcut)
  split at h
  · next hc =>
    subst hc
    obtain ⟨body, hcut, rfl⟩ := exists_of_closed h
    exact .token (.raw hcut)
  split at h
  · next hc =>
    subst hc
    obtain ⟨body, hcut, rfl⟩ := exists_of_closed h
    exact .token (.rune hcut)
  split at h
  · next hnumber =>
    cases h
    exact .token (.number hnumber)
  split at h
  · next hident =>
    cases h
    exact .token (.word hident)
  · next hline hblock _ _ _ hnumber _ =>
    -- an operator comes last, so a slash or a point in it starts no comment and no number
    rw [scanOperator] at h
    split at h
    · next hop =>
      cases h
      refine .token (.operator hop (fun hc => ⟨fun hhead => hline ⟨hc, hhead⟩, fun hhead => ?_⟩)
        (Bool.not_eq_true _ ▸ hnumber))
      exact hblock ⟨hc, hhead⟩
    · cases h

/-! ### Nothing is lost -/

/-- A quoted literal is cut off the text, and nothing is lost. -/
theorem quotedRest?_append {mark : Char} {cs body rest : List Char}
    (h : quotedRest? mark cs = some (body, rest)) : body ++ rest = cs := by
  fun_induction quotedRest? mark cs generalizing body rest with
  | case1 => simp at h
  | case2 => simp at h
  | case3 c cs ih =>
    obtain ⟨⟨b, r⟩, hb, heq⟩ := Option.map_eq_some_iff.1 h
    cases heq
    simp [ih hb]
  | case4 => simp at h
  | case5 =>
    cases h
    rfl
  | case6 c cs _ _ _ _ ih =>
    obtain ⟨⟨b, r⟩, hb, heq⟩ := Option.map_eq_some_iff.1 h
    cases heq
    simp [ih hb]

/-- A raw literal is cut off the text, and nothing is lost. -/
theorem rawRest?_append {cs body rest : List Char} (h : rawRest? cs = some (body, rest)) :
    body ++ rest = cs := by
  induction cs generalizing body rest with
  | nil => simp [rawRest?] at h
  | cons c cs ih =>
    rw [rawRest?] at h
    split at h
    · cases h
      rfl
    · obtain ⟨⟨b, r⟩, hb, heq⟩ := Option.map_eq_some_iff.1 h
      cases heq
      simp [ih hb]

private theorem blockRest?_append {cs body rest : List Char}
    (h : blockRest? cs = some (body, rest)) : body ++ rest = cs := by
  fun_induction blockRest? cs generalizing body rest with
  | case1 => simp at h
  | case2 =>
    cases h
    rfl
  | case3 c cs _ ih =>
    obtain ⟨⟨b, r⟩, hb, heq⟩ := Option.map_eq_some_iff.1 h
    cases heq
    simp [ih hb]

/-- A number and what follows it make up the text. -/
theorem numberSpan_append (cs : List Char) : (numberSpan cs).1 ++ (numberSpan cs).2 = cs := by
  fun_induction numberSpan cs <;> simp_all

/-- An operator is one of the listed ones and stands at the start of the text. -/
theorem operator?_append {cs rest : List Char} {op : String}
    (h : operator? cs = some (op, rest)) : op ∈ operators ∧ op.toList ++ rest = cs := by
  obtain ⟨o, ho, hs⟩ := List.exists_of_findSome?_eq_some h
  obtain ⟨r, hr, heq⟩ := Option.map_eq_some_iff.1 hs
  cases heq
  exact ⟨ho, (Text.strip?_eq_some_iff.1 hr).symm⟩

/-- Every operator has a character. -/
theorem toList_ne_nil_of_mem_operators {op : String} (h : op ∈ operators) : op.toList ≠ [] := by
  revert op
  decide

/-- A token is not empty and stands before what follows it. -/
theorem Reads.append {c : Char} {cs text rest : List Char} {kind : TokenKind}
    (h : Reads c cs kind text rest) : text ++ rest = c :: cs ∧ text ≠ [] := by
  cases h with
  | string h => simp [quotedRest?_append h]
  | raw h => simp [rawRest?_append h]
  | rune h => simp [quotedRest?_append h]
  | number => simp [numberSpan_append]
  | word => simp
  | operator h =>
    obtain ⟨hmem, happ⟩ := operator?_append h
    exact ⟨happ, toList_ne_nil_of_mem_operators hmem⟩

/-- The lexeme and what follows it make up the text, and the lexeme is not empty. -/
theorem scan_append {c : Char} {cs rest : List Char} {x : Lexeme}
    (h : scan c cs = .ok (x, rest)) : x.text ++ rest = c :: cs ∧ x.text ≠ [] := by
  cases scans_of_scan h with
  | newline => simp
  | blank => simp
  | lineComment => simp
  | blockComment h => simp [blockRest?_append h]
  | token h => exact h.append

/-- What follows a lexeme is shorter. -/
theorem length_lt_of_scan {c : Char} {cs rest : List Char} {x : Lexeme}
    (h : scan c cs = .ok (x, rest)) : rest.length < cs.length + 1 := by
  obtain ⟨happ, hne⟩ := scan_append h
  have hlen := congrArg List.length happ
  have := List.length_pos_iff.2 hne
  simp only [List.length_append, List.length_cons] at hlen
  omega

end Lexeme

end GoPages
