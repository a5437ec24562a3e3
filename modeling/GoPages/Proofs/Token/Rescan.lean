import GoPages.Proofs.Token.Shapes
import Mathlib.Data.List.Basic

/-!
# Tokens are read back from their texts

`Lexeme.Reads` says without order of precedence how a token can stand at the start of a text, and it
is what the scanner does (`scan_eq_ok_iff`): what a token starts with decides which rule applies.

So the scanner can be asked about other texts with the same token at their start. A token is read
from its own text alone (`isWhole_of_scan`), and what follows a text does not matter if it starts
with a delimiter (`scan_append_delimiter`). A word is read before every text that does not go on
with it (`scan_word`), and so is an operator, unless it starts with a slash (`scan_operator`).
-/

namespace GoPages

namespace Lexeme

/-! ### First characters -/

/-- A character that starts an identifier is none that does not. -/
theorem startsIdent_ne {c d : Char} (h : startsIdent c) (hd : startsIdent d = false) : c ≠ d := by
  rintro rfl
  rw [hd] at h
  cases h

private theorem startsNumber_ne {c d : Char} {cs : List Char} (h : startsNumber c cs)
    (hdigit : d.isDigit = false) (hpoint : d ≠ '.') : c ≠ d := by
  rintro rfl
  simp [startsNumber, hdigit, hpoint] at h

/-- What starts an identifier starts no number. -/
theorem startsNumber_eq_false {c : Char} (h : startsIdent c) (cs : List Char) :
    startsNumber c cs = false := by
  have hdigit : c.isDigit = false := by
    by_contra hc
    rw [Bool.not_eq_false] at hc
    rw [startsIdent, Bool.or_eq_true, beq_iff_eq] at h
    rcases h with rfl | h
    · cases hc
    · have hle := Text.le_toNat_of_isAlphabetic h
      have htoNat : c.toNat = c.val.toNat := rfl
      have hnine : '9'.val.toNat = 57 := rfl
      simp only [Char.isDigit, Bool.and_eq_true, decide_eq_true_eq, UInt32.le_iff_toNat_le] at hc
      omega
  have hpoint : c ≠ '.' := startsIdent_ne h (by decide)
  simp [startsNumber, hdigit, hpoint]

/-- What an operator starts with starts nothing else, but for comments and numbers. -/
def startsOperator (c : Char) : Bool :=
  !(['\n', ' ', '\t', '\r', '"', '\x60', '\''].contains c || startsIdent c)

/-- The first character of an operator starts operators. -/
private theorem startsOperator_of_operator? {c : Char} {cs rest : List Char} {op : String}
    (h : operator? (c :: cs) = some (op, rest)) : startsOperator c := by
  obtain ⟨hmem, happ⟩ := operator?_append h
  have hall : (operators.all fun op => op.toList.head?.all startsOperator) = true := by decide
  have hop := List.all_eq_true.mp hall op hmem
  cases htext : op.toList with
  | nil => exact absurd htext (toList_ne_nil_of_mem_operators hmem)
  | cons d ds =>
    rw [htext, List.cons_append] at happ
    obtain ⟨rfl, -⟩ := List.cons.inj happ
    simpa [htext] using hop

/-! ### The scanner -/

/-- What is scanned as a token can stand there as one. -/
private theorem reads_of_scan {c : Char} {cs text rest : List Char} {kind : TokenKind}
    (h : scan c cs = .ok (⟨.token kind, text⟩, rest)) : Reads c cs kind text rest := by
  cases scans_of_scan h with
  | token h => exact h

/-- What can stand at the start of a text as a token is scanned as this token. -/
theorem scan_of_reads {c : Char} {cs text rest : List Char} {kind : TokenKind}
    (h : Reads c cs kind text rest) : scan c cs = .ok (⟨.token kind, text⟩, rest) := by
  cases h with
  | string h => simp [scan, h, closed]
  | raw h => simp [scan, h, closed]
  | rune h => simp [scan, h, closed]
  | number h =>
    have hne {d : Char} (hdigit : d.isDigit = false) (hpoint : d ≠ '.') : c ≠ d :=
      startsNumber_ne h hdigit hpoint
    simp [scan, h, hne]
  | word h =>
    have hne {d : Char} (hd : startsIdent d = false) : c ≠ d := startsIdent_ne h hd
    have hnumber := startsNumber_eq_false h cs
    rw [scan, if_neg (hne (by decide)), if_neg, if_neg, if_neg, if_neg (hne (by decide)),
      if_neg (hne (by decide)), if_neg (hne (by decide)), hnumber, if_neg Bool.false_ne_true,
      if_pos h]
    · exact fun hc => hne (by decide) hc.1
    · exact fun hc => hne (by decide) hc.1
    · rintro (hc | hc | hc)
      · exact hne (by decide) hc
      · exact hne (by decide) hc
      · exact hne (by decide) hc
  | operator h hcomment hnumber =>
    have hstart := startsOperator_of_operator? h
    simp only [startsOperator, Bool.not_eq_true', Bool.or_eq_false_iff, List.contains_eq_mem,
      decide_eq_false_iff_not, List.mem_cons, List.not_mem_nil, or_false, not_or] at hstart
    obtain ⟨⟨hnewline, hspace, htab, hreturn, hquote, hback, hrune⟩, hident⟩ := hstart
    have hline : ¬(c = '/' ∧ cs.head? = some '/') := fun hc => (hcomment hc.1).1 hc.2
    have hblock : ¬(c = '/' ∧ cs.head? = some '*') := fun hc => (hcomment hc.1).2 hc.2
    simp [scan, hnewline, hspace, htab, hreturn, hline, hblock, hquote, hback, hrune, hnumber,
      hident, scanOperator, h]

/-- The scanner reads the tokens that stand at the start of a text. -/
theorem scan_eq_ok_iff {c : Char} {cs text rest : List Char} {kind : TokenKind} :
    scan c cs = .ok (⟨.token kind, text⟩, rest) ↔ Reads c cs kind text rest :=
  ⟨reads_of_scan, scan_of_reads⟩

/-! ### A token alone -/

/-- A literal goes on over a character that is neither its end nor an escape. -/
theorem quotedRest?_cons {mark c : Char} (cs : List Char) (hc : c ≠ '\\') :
    quotedRest? mark (c :: cs) =
      if c = '\n' then none
      else if c = mark then some ([c], cs)
      else (quotedRest? mark cs).map fun (body, rest) => (c :: body, rest) := by
  rw [quotedRest?]
  · exact fun h => absurd h hc
  · exact fun _ _ h => absurd h hc

/-- The end of a quoted literal does not depend on what follows it. -/
private theorem quotedRest?_append_right {mark : Char} {cs body rest : List Char}
    (h : quotedRest? mark cs = some (body, rest)) (tail : List Char) :
    quotedRest? mark (body ++ tail) = some (body, tail) := by
  -- a backslash is taken by the first two cases, so the later ones are about other characters
  have hne {c : Char} {cs : List Char} (hlone : c = '\\' → cs = [] → False)
      (hpair : ∀ d ds, c = '\\' → cs = d :: ds → False) : c ≠ '\\' := by
    intro hc
    cases cs with
    | nil => exact hlone hc rfl
    | cons d ds => exact hpair d ds hc rfl
  fun_induction quotedRest? mark cs generalizing body rest with
  | case1 => cases h
  | case2 => cases h
  | case3 c cs ih =>
    obtain ⟨⟨b, r⟩, hb, heq⟩ := Option.map_eq_some_iff.1 h
    cases heq
    rw [List.cons_append, List.cons_append, quotedRest?, ih hb]
    rfl
  | case4 => cases h
  | case5 cs hlone hpair hline =>
    cases h
    rw [List.singleton_append, quotedRest?_cons _ (hne hlone hpair), if_neg hline, if_pos rfl]
  | case6 c cs hlone hpair hline hmark ih =>
    obtain ⟨⟨b, r⟩, hb, heq⟩ := Option.map_eq_some_iff.1 h
    cases heq
    rw [List.cons_append, quotedRest?_cons _ (hne hlone hpair), if_neg hline, if_neg hmark, ih hb]
    rfl

/-- The end of a raw literal does not depend on what follows it. -/
private theorem rawRest?_append_right {cs body rest : List Char}
    (h : rawRest? cs = some (body, rest))
    (tail : List Char) : rawRest? (body ++ tail) = some (body, tail) := by
  induction cs generalizing body rest with
  | nil => cases h
  | cons c cs ih =>
    rw [rawRest?] at h
    split at h
    · next hc =>
      cases h
      rw [List.singleton_append, rawRest?, if_pos hc]
    · next hc =>
      obtain ⟨⟨b, r⟩, hb, heq⟩ := Option.map_eq_some_iff.1 h
      cases heq
      rw [List.cons_append, rawRest?, if_neg hc, ih hb]
      rfl

/-- Is the character part of a number wherever it stands in it? -/
def continuesNumber (c : Char) : Bool := c.isAlphanum || c == '_' || c == '.'

private theorem numberSpan_cons {c d : Char} (cs : List Char)
    (hsign : ¬(isExponentLetter c && (d == '+' || d == '-')) = true) (hc : continuesNumber c) :
    numberSpan (c :: d :: cs) = (c :: (numberSpan (d :: cs)).1, (numberSpan (d :: cs)).2) := by
  rw [continuesNumber] at hc
  rw [numberSpan, if_neg hsign, if_pos hc]

/-- A number is all of its own text. -/
private theorem numberSpan_numberSpan (cs : List Char) :
    numberSpan (numberSpan cs).1 = ((numberSpan cs).1, []) := by
  fun_induction numberSpan cs with
  | case1 => rfl
  | case2 c hc => simp [numberSpan, hc]
  | case3 => rfl
  | case4 c d cs hsign body rest hspan ih =>
    rw [hspan] at ih
    rw [numberSpan, if_pos hsign, ih]
  | case5 c d cs hsign hc body rest hspan ih =>
    have happ := numberSpan_append (d :: cs)
    rw [hspan] at ih happ
    cases body with
    | nil => simp [numberSpan, hc]
    | cons e body =>
      obtain ⟨rfl, -⟩ := List.cons.inj happ
      rw [numberSpan_cons body hsign hc, ih]
  | case6 => rfl

private theorem head?_numberSpan {c : Char} (cs : List Char) (hc : continuesNumber c) :
    (numberSpan (c :: cs)).1.head? = some c := by
  rw [continuesNumber] at hc
  cases cs with
  | nil => simp [numberSpan, hc]
  | cons d ds =>
    rw [numberSpan]
    split
    · rfl
    · rfl

private theorem continuesNumber_of_isDigit {c : Char} (h : c.isDigit) : continuesNumber c := by
  simp [continuesNumber, Char.isAlphanum, h]

private theorem startsNumber_numberSpan {c : Char} {cs : List Char} (h : startsNumber c cs) :
    startsNumber c (numberSpan cs).1 := by
  rw [startsNumber, Bool.or_eq_true, Bool.and_eq_true] at h
  rcases h with h | ⟨hpoint, hdigit⟩
  · rw [startsNumber, h, Bool.true_or]
  · cases cs with
    | nil => cases hdigit
    | cons d ds =>
      have hd : continuesNumber d := continuesNumber_of_isDigit hdigit
      rw [startsNumber, head?_numberSpan ds hd, hpoint, Bool.true_and]
      exact Bool.or_eq_true_iff.mpr (.inr hdigit)

/-- An operator is read from its own text. -/
private theorem operator?_toList {op : String} (h : op ∈ operators) :
    operator? op.toList = some (op, []) := by
  have hall : (operators.all fun op => operator? op.toList == some (op, [])) = true := by decide
  exact eq_of_beq (List.all_eq_true.mp hall op h)

/-- A shorter text starts no number where a longer one does not. -/
theorem startsNumber_of_head? {c : Char} {cs ds : List Char}
    (h : ∀ d, ds.head? = some d → cs.head? = some d) (hcs : startsNumber c cs = false) :
    startsNumber c ds = false := by
  cases ds with
  | nil => simp_all [startsNumber]
  | cons d ds =>
    have hhead := h d rfl
    simp_all [startsNumber]

/-- A token is read from its own text. -/
theorem Reads.alone {c : Char} {cs text rest : List Char} {kind : TokenKind}
    (h : Reads c cs kind text rest) : ∃ ds, text = c :: ds ∧ Reads c ds kind text [] := by
  cases h with
  | @string _ body _ h =>
    have halone := quotedRest?_append_right h []
    rw [List.append_nil] at halone
    exact ⟨body, rfl, .string halone⟩
  | @raw _ body _ h =>
    have halone := rawRest?_append_right h []
    rw [List.append_nil] at halone
    exact ⟨body, rfl, .raw halone⟩
  | @rune _ body _ h =>
    have halone := quotedRest?_append_right h []
    rw [List.append_nil] at halone
    exact ⟨body, rfl, .rune halone⟩
  | number h =>
    have hreads := Reads.number (startsNumber_numberSpan h)
    rw [numberSpan_numberSpan] at hreads
    exact ⟨_, rfl, hreads⟩
  | word h =>
    have hreads := @Reads.word c (cs.takeWhile continuesIdent) h
    have hrest : (cs.takeWhile continuesIdent).dropWhile continuesIdent = [] :=
      List.dropWhile_eq_nil_iff.mpr fun d hd => List.mem_takeWhile_imp hd
    rw [List.takeWhile_idem, hrest] at hreads
    exact ⟨_, rfl, hreads⟩
  | @operator _ _ rest op h hcomment hnumber =>
    obtain ⟨hmem, happ⟩ := operator?_append h
    obtain ⟨ds, hds⟩ : ∃ ds, op.toList = c :: ds := by
      cases hop : op.toList with
      | nil => exact absurd hop (toList_ne_nil_of_mem_operators hmem)
      | cons d ds =>
        rw [hop] at happ
        exact ⟨ds, by rw [(List.cons.inj happ).1]⟩
    -- without the text after it an operator still does not start a comment or a number, since all
    -- that it looks at is its own text
    have hhead : ∀ d, ds.head? = some d → cs.head? = some d := by
      rw [hds, List.cons_append] at happ
      rw [← (List.cons.inj happ).2]
      exact fun d hd => by rw [List.head?_append, hd, Option.some_or]
    refine ⟨ds, hds, .operator (by rw [← hds]; exact operator?_toList hmem) ?_ ?_⟩
    · exact fun hc =>
        ⟨fun hd => (hcomment hc).1 (hhead _ hd), fun hd => (hcomment hc).2 (hhead _ hd)⟩
    · exact startsNumber_of_head? hhead hnumber

/-! ### A token before a delimiter -/

/-- The characters with which no token goes on. -/
def delimiters : List Char := [' ', '(', ')', '[', ']', '\x7b', '\x7d', ',', ';']

/-- A delimiter goes on neither a number, nor a name, nor an operator. -/
theorem spec_of_mem_delimiters {d : Char} (hd : d ∈ delimiters) :
    (continuesNumber d = false ∧ (d == '+' || d == '-') = false) ∧
      (d.isDigit = false ∧ continuesIdent d = false) ∧
      ∀ op ∈ operators, op.toList.tail.contains d = false := by
  have hall : (delimiters.all fun d => (!continuesNumber d && !(d == '+' || d == '-')) &&
      ((!d.isDigit && !continuesIdent d) &&
        operators.all fun op => !op.toList.tail.contains d)) = true := by
    decide
  have hspec := List.all_eq_true.mp hall d hd
  simpa only [Bool.and_eq_true, Bool.not_eq_true', List.all_eq_true] using hspec

private theorem numberSpan_of_continuesNumber {c : Char} (cs : List Char)
    (hc : continuesNumber c = false) : numberSpan (c :: cs) = ([], c :: cs) := by
  have hletter : isExponentLetter c = false := by
    by_contra h
    rw [Bool.not_eq_false, isExponentLetter] at h
    simp only [Bool.or_eq_true, beq_iff_eq] at h
    rcases h with ((rfl | rfl) | rfl) | rfl <;> cases hc
  rw [continuesNumber] at hc
  cases cs <;> simp [numberSpan, hletter, hc]

/-- A text is cut at the same character if a delimiter and more follow it. -/
private theorem span_append {p : Char → Bool} {d : Char} (hd : p d = false) (cs tail : List Char) :
    (cs ++ d :: tail).takeWhile p = cs.takeWhile p ∧
      (cs ++ d :: tail).dropWhile p = cs.dropWhile p ++ d :: tail := by
  induction cs with
  | nil => simp [hd]
  | cons c cs ih =>
    by_cases hc : p c
    · simp [hc, ih]
    · simp [hc]

private theorem strip?_append {start : List Char} {d : Char} (hd : d ∉ start)
    (cs tail : List Char) :
    Text.strip? start (cs ++ d :: tail) = (Text.strip? start cs).map (· ++ d :: tail) := by
  induction start generalizing cs with
  | nil => rfl
  | cons a start ih =>
    rw [List.mem_cons, not_or] at hd
    cases cs with
    | nil => simp [Text.strip?, Ne.symm hd.1]
    | cons c cs =>
      rw [List.cons_append, Text.strip?, Text.strip?]
      split
      · exact ih hd.2 cs
      · rfl

/-- What follows a text does not matter to the operator at its start, if it does not matter to any
operator. -/
theorem operator?_append_of_strip? {cs tail : List Char}
    (h : ∀ op ∈ operators, Text.strip? op.toList (cs ++ tail) =
      (Text.strip? op.toList cs).map (· ++ tail)) :
    operator? (cs ++ tail) = (operator? cs).map fun cut => (cut.1, cut.2 ++ tail) := by
  rw [operator?, operator?, List.map_findSome?, ← List.head?_filterMap, ← List.head?_filterMap]
  refine congrArg List.head? (List.filterMap_congr fun op hop => ?_)
  rw [h op hop, Function.comp_apply, Option.map_map, Option.map_map]
  rfl

section Delimiter

variable {d : Char} (hd : d ∈ delimiters) (tail : List Char)
include hd

private theorem numberSpan_append_delimiter (cs : List Char) :
    numberSpan (cs ++ d :: tail) = ((numberSpan cs).1, (numberSpan cs).2 ++ d :: tail) := by
  obtain ⟨hnumber, hsign⟩ := (spec_of_mem_delimiters hd).1
  fun_induction numberSpan cs with
  | case1 => exact numberSpan_of_continuesNumber tail hnumber
  | case2 c hc =>
    rw [List.singleton_append, numberSpan_cons tail (by simp [hsign]) hc,
      numberSpan_of_continuesNumber tail hnumber]
    simp
  | case3 c hc => exact numberSpan_of_continuesNumber _ (Bool.not_eq_true _ ▸ hc)
  | case4 c e cs hsign' body rest hspan ih =>
    rw [hspan] at ih
    rw [List.cons_append, List.cons_append, numberSpan, if_pos hsign', ih]
  | case5 c e cs hsign' hc body rest hspan ih =>
    rw [hspan] at ih
    rw [List.cons_append, List.cons_append, numberSpan_cons _ hsign' hc, ← List.cons_append, ih]
  | case6 c e cs _ hc => exact numberSpan_of_continuesNumber _ (Bool.not_eq_true _ ▸ hc)

/-- No operator is made longer by a delimiter. -/
private theorem operator?_append_delimiter (c : Char) (cs : List Char) :
    operator? (c :: cs ++ d :: tail) =
      (operator? (c :: cs)).map fun cut => (cut.1, cut.2 ++ d :: tail) := by
  have hall (op : String) (hop : op ∈ operators) : d ∉ op.toList.tail := by
    simpa using (spec_of_mem_delimiters hd).2.2 op hop
  refine operator?_append_of_strip? fun op hop => ?_
  -- the first character of an operator may be a delimiter, but there is a text before the delimiter
  cases htext : op.toList with
  | nil => exact absurd htext (toList_ne_nil_of_mem_operators hop)
  | cons a start =>
    have hstart := hall op hop
    rw [htext, List.tail_cons] at hstart
    rw [List.cons_append, Text.strip?, Text.strip?]
    split
    · exact strip?_append hstart cs tail
    · rfl

private theorem head?_append_delimiter_ne (cs : List Char) {e : Char} (he : e ∉ delimiters)
    (hcs : cs.head? ≠ some e) : (cs ++ d :: tail).head? ≠ some e := by
  cases cs with
  | nil =>
    intro h
    rw [List.nil_append, List.head?_cons, Option.some.injEq] at h
    exact he (h ▸ hd)
  | cons c cs => exact hcs

/-- No delimiter makes a point start a number. -/
private theorem startsNumber_append_delimiter (c : Char) (cs : List Char) :
    startsNumber c (cs ++ d :: tail) = startsNumber c cs := by
  have hdigit : d.isDigit = false := (spec_of_mem_delimiters hd).2.1.1
  cases cs with
  | nil => simp [startsNumber, hdigit]
  | cons e cs => rfl

/-- A text before a delimiter starts with the tokens with which it starts alone. -/
theorem Reads.append_delimiter {c : Char} {cs text rest : List Char} {kind : TokenKind}
    (h : Reads c cs kind text rest) : Reads c (cs ++ d :: tail) kind text (rest ++ d :: tail) := by
  -- a literal ends at its own mark, and every other token before the delimiter
  cases h with
  | string h =>
    rw [← quotedRest?_append h, List.append_assoc]
    exact .string (quotedRest?_append_right h _)
  | raw h =>
    rw [← rawRest?_append h, List.append_assoc]
    exact .raw (rawRest?_append_right h _)
  | rune h =>
    rw [← quotedRest?_append h, List.append_assoc]
    exact .rune (quotedRest?_append_right h _)
  | number h =>
    rw [← startsNumber_append_delimiter hd tail] at h
    have hreads := Reads.number h
    rwa [numberSpan_append_delimiter hd tail] at hreads
  | word h =>
    have hident : continuesIdent d = false := (spec_of_mem_delimiters hd).2.1.2
    have hreads := @Reads.word c (cs ++ d :: tail) h
    rwa [(span_append hident cs tail).1, (span_append hident cs tail).2] at hreads
  | operator h hcomment hnumber =>
    refine .operator (by rw [← List.cons_append, operator?_append_delimiter hd, h]; rfl) ?_ ?_
    · exact fun hc => ⟨head?_append_delimiter_ne hd tail cs (by decide) (hcomment hc).1,
        head?_append_delimiter_ne hd tail cs (by decide) (hcomment hc).2⟩
    · rw [startsNumber_append_delimiter hd, hnumber]

end Delimiter

/-! ### Tokens of their texts -/

/-- Is the text of the lexeme read as the lexeme? -/
def IsWhole (x : Lexeme) : Prop := ∃ c cs, x.text = c :: cs ∧ scan c cs = .ok (x, [])

/-- A token that is read from a text is read from its own text. -/
theorem isWhole_of_scan {c : Char} {cs text rest : List Char} {kind : TokenKind}
    (h : scan c cs = .ok (⟨.token kind, text⟩, rest)) : IsWhole ⟨.token kind, text⟩ := by
  obtain ⟨ds, rfl, halone⟩ := (scan_eq_ok_iff.mp h).alone
  exact ⟨c, ds, rfl, scan_of_reads halone⟩

/-- What follows a text does not matter to its first token, if it starts with a delimiter. -/
theorem scan_append_delimiter {c : Char} {cs text rest : List Char} {kind : TokenKind}
    (h : scan c cs = .ok (⟨.token kind, text⟩, rest)) {d : Char} (hd : d ∈ delimiters)
    (tail : List Char) :
    scan c (cs ++ d :: tail) = .ok (⟨.token kind, text⟩, rest ++ d :: tail) :=
  scan_of_reads ((scan_eq_ok_iff.mp h).append_delimiter hd tail)

/-! ### A token before a text that does not go on with it -/

/-- The characters that make an operator a beginning of a longer one. -/
def extensions (op : String) : List Char :=
  operators.flatMap fun o => ((Text.strip? op.toList o.toList).bind List.head?).toList

/-- An operator is read before a text that does not make it a longer one. -/
private theorem operator?_append_right {op : String} (hop : op ∈ operators) {tail : List Char}
    (htail : ∀ d, tail.head? = some d → d ∉ extensions op) :
    operator? (op.toList ++ tail) = some (op, tail) := by
  have hstrip (o : String) (ho : o ∈ operators) : Text.strip? o.toList (op.toList ++ tail) =
      (Text.strip? o.toList op.toList).map (· ++ tail) := by
    cases hshort : Text.strip? o.toList op.toList with
    | some rest =>
      rw [Text.strip?_eq_some_iff] at hshort
      rw [Option.map_some, Text.strip?_eq_some_iff, hshort, List.append_assoc]
    | none =>
      rw [Option.map_none, Option.eq_none_iff_forall_ne_some]
      intro rest hlong
      rw [Text.strip?_eq_some_iff] at hlong
      -- neither text is a beginning of the other
      rcases List.append_eq_append_iff.mp hlong with ⟨more, ho', hmore⟩ | ⟨more, hop', -⟩
      · cases more with
        | nil =>
          rw [List.append_nil] at ho'
          rw [ho', Text.strip?_eq_some_iff.mpr (List.append_nil _).symm] at hshort
          cases hshort
        | cons d more =>
          refine htail d (by rw [hmore]; rfl) (List.mem_flatMap.mpr ⟨o, ho, ?_⟩)
          rw [Text.strip?_eq_some_iff.mpr ho']
          exact Option.mem_toList.mpr rfl
      · rw [Text.strip?_eq_some_iff.mpr hop'] at hshort
        cases hshort
  rw [operator?_append_of_strip? hstrip, operator?_toList hop]
  rfl

/-- No operator starts a number, and of the operators only the point alone becomes a number by what
follows it. -/
theorem startsNumber_of_mem_operators {op : String} (hop : op ∈ operators) {c : Char}
    {cs tail : List Char} (htext : op.toList = c :: cs)
    (htail : ∀ d, tail.head? = some d → op = "." → d.isDigit = false) :
    startsNumber c (cs ++ tail) = false := by
  -- only the first character matters, unless the operator is the point alone
  have hall : (operators.all fun op => op.toList.head?.all fun c =>
      !startsNumber c op.toList.tail) = true := by
    decide
  have halone : startsNumber c cs = false := by
    simpa [htext] using List.all_eq_true.mp hall op hop
  cases cs with
  | cons d ds => exact halone
  | nil =>
    rw [startsNumber, Bool.or_eq_false_iff] at halone ⊢
    refine ⟨halone.1, ?_⟩
    rw [List.nil_append, Bool.and_eq_false_iff]
    by_cases hc : c = '.'
    · have hpoint : op = "." := by
        rw [← String.toList_inj, htext, hc]
        rfl
      cases tail with
      | nil => exact .inr rfl
      | cons d tail => exact .inr (htail d rfl hpoint)
    · exact .inl (beq_false_of_ne hc)

/-- An operator is read before a text that does not make it longer. -/
theorem scan_operator {op : String} (hop : op ∈ operators) (hslash : op.toList.head? ≠ some '/')
    {tail : List Char}
    (htail : ∀ d, tail.head? = some d → d ∉ extensions op ∧ (op = "." → d.isDigit = false)) :
    ∃ c cs, op.toList = c :: cs ∧ scan c (cs ++ tail) =
      .ok (⟨.token (if op = ";" then .semicolon else .op), op.toList⟩, tail) := by
  obtain ⟨c, cs, htext⟩ : ∃ c cs, op.toList = c :: cs :=
    List.exists_cons_of_ne_nil (toList_ne_nil_of_mem_operators hop)
  refine ⟨c, cs, htext, scan_of_reads (.operator ?_ ?_ ?_)⟩
  · rw [← List.cons_append, ← htext]
    exact operator?_append_right hop fun d hd => (htail d hd).1
  · rintro rfl
    rw [htext] at hslash
    exact absurd rfl hslash
  · exact startsNumber_of_mem_operators hop htext fun d hd => (htail d hd).2

/-- A word is read before a text that does not go on with it. -/
theorem scan_word {c : Char} {cs tail : List Char} (hstart : startsIdent c)
    (hword : ∀ d ∈ cs, continuesIdent d)
    (htail : ∀ d, tail.head? = some d → continuesIdent d = false) :
    scan c (cs ++ tail) = .ok (⟨.token (wordKind (c :: cs)), c :: cs⟩, tail) := by
  have htailSpan : tail.takeWhile continuesIdent = [] ∧ tail.dropWhile continuesIdent = tail := by
    cases tail with
    | nil => exact ⟨rfl, rfl⟩
    | cons d tail =>
      have hd := htail d rfl
      exact ⟨List.takeWhile_cons_of_neg (by simp [hd]), List.dropWhile_cons_of_neg (by simp [hd])⟩
  have hscan := scan_of_reads (@Reads.word c (cs ++ tail) hstart)
  rwa [List.takeWhile_append_of_pos hword, List.dropWhile_append_of_pos hword, htailSpan.1,
    htailSpan.2, List.append_nil] at hscan

private theorem startsIdent_of_reads {c : Char} {cs text rest : List Char} {kind : TokenKind}
    (h : Reads c cs kind text rest) (hkind : kind = .ident) : startsIdent c := by
  cases h with
  | word hstart => exact hstart
  | operator =>
    split at hkind
    · cases hkind
    · cases hkind
  | _ => cases hkind

/-- A text that is read as a name is a word, and no keyword. -/
theorem isWord_of_isWhole {text : List Char} (h : IsWhole ⟨.token .ident, text⟩) :
    ∃ c cs, text = c :: cs ∧ startsIdent c ∧ (∀ d ∈ cs, continuesIdent d) ∧
      wordKind (c :: cs) = .ident := by
  obtain ⟨c, cs, htext, hscan⟩ := h
  have hstart := startsIdent_of_reads (scan_eq_ok_iff.mp hscan) rfl
  have hword := scan_of_reads (@Reads.word c cs hstart)
  rw [hscan] at hword
  simp only [Except.ok.injEq, Prod.mk.injEq, Lexeme.mk.injEq, LexemeClass.token.injEq] at hword
  obtain ⟨⟨hkind, htake⟩, hrest⟩ := hword
  dsimp only at htext
  rw [htext] at htake
  rw [← htake] at hkind
  exact ⟨c, cs, htext, hstart, List.dropWhile_eq_nil_iff.mp hrest.symm, hkind.symm⟩

end Lexeme

end GoPages
