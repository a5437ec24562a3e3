import GoPages.Proofs.Text.Quoted
import GoPages.Proofs.Token.Spelling

/-!
# Texts that write tokens

`Writes text ss` says that a text is read as tokens of the spellings `ss` wherever it stands, if
what follows it does not go on with a word (`EndsWord`), and that a statement may end after it. So
texts that write tokens can be put together: one after the other (`Writes.append`), after a blank,
an operator or a keyword, and with commas or semicolons between them (`writes_intercalate`).

An operator that is the beginning of no other can stand before every text (`isFinal`). The point and
the star need a text that does not make them longer.
-/

namespace GoPages

/-! ### Single tokens -/

/-- The text does not start with a character of a word. -/
def EndsWord (tail : List Char) : Prop := ∀ d, tail.head? = some d → Lexeme.continuesIdent d = false

/-- A word ends at the end of the text. -/
theorem endsWord_nil : EndsWord [] := fun _ hd => nomatch hd

/-- A word ends before a character that does not continue it. -/
theorem endsWord_cons {d : Char} (hd : Lexeme.continuesIdent d = false) (tail : List Char) :
    EndsWord (d :: tail) := by
  intro e he
  cases he
  exact hd

/-- Is the operator the beginning of no other operator, number or comment? -/
def isFinal (op : String) : Bool :=
  operators.contains op && (Lexeme.extensions op).isEmpty && op.toList.head? != some '/' &&
    op != "." && op != ";"

namespace Spells

variable {pending : Bool} {tail : List Char} {ss : List Spelling}

/-- An operator is read before a text that does not make it longer. -/
theorem operator {op : String} (hop : op ∈ operators) (hkind : op ≠ ";")
    (hslash : op.toList.head? ≠ some '/')
    (htail : ∀ d, tail.head? = some d →
      d ∉ Lexeme.extensions op ∧ (op = "." → d.isDigit = false))
    (h : Spells (endsStatement .op op) tail ss) :
    Spells pending (op.toList ++ tail) ((.op, op) :: ss) := by
  obtain ⟨c, cs, htext, hscan⟩ := Lexeme.scan_operator hop hslash htail
  rw [if_neg hkind] at hscan
  have htoken := @Spells.token pending _ _ ss _ _ _ hscan
  rw [String.ofList_toList] at htoken
  rw [htext]
  exact htoken h

/-- An operator that is the beginning of no other is read before every text. -/
theorem final {op : String} (hop : isFinal op = true) (h : Spells (endsStatement .op op) tail ss) :
    Spells pending (op.toList ++ tail) ((.op, op) :: ss) := by
  simp only [isFinal, Bool.and_eq_true, List.contains_iff_mem, List.isEmpty_iff, bne_iff_ne] at hop
  obtain ⟨⟨⟨⟨hmem, hext⟩, hslash⟩, hpoint⟩, hkind⟩ := hop
  refine .operator hmem hkind hslash (fun d _ => ⟨?_, fun h => absurd h hpoint⟩) h
  rw [hext]
  exact List.not_mem_nil

/-- A semicolon spells itself, and no statement may end after it. -/
theorem semicolon (h : Spells false tail ss) :
    Spells pending (';' :: tail) ((.semicolon, ";") :: ss) := by
  have hscan : Lexeme.scan ';' tail = .ok (⟨.token .semicolon, [';']⟩, tail) := rfl
  exact .token hscan h

/-- An identifier spells itself if the text after it does not go on with it. -/
theorem ident {name : String} (hname : Lexeme.IsWhole ⟨.token .ident, name.toList⟩)
    (htail : EndsWord tail) (h : Spells true tail ss) :
    Spells pending (name.toList ++ tail) ((.ident, name) :: ss) := by
  obtain ⟨c, cs, htext, hstart, hword, hkind⟩ := Lexeme.isWord_of_isWhole hname
  have hscan := Lexeme.scan_word hstart hword htail
  rw [hkind] at hscan
  have htoken := @Spells.token pending _ _ ss _ _ _ hscan
  rw [← htext, String.ofList_toList] at htoken
  rw [htext]
  exact htoken h

/-- A keyword spells itself if the text after it does not go on with it. -/
theorem keyword {word : String} (hmem : word ∈ keywords) (htail : EndsWord tail)
    (h : Spells (endsStatement .keyword word) tail ss) :
    Spells pending (word.toList ++ tail) ((.keyword, word) :: ss) := by
  have hall : (keywords.all fun word => word.toList.head?.any Lexeme.startsIdent &&
      word.toList.all Lexeme.continuesIdent) = true := by
    decide
  have hword := List.all_eq_true.mp hall word hmem
  cases htext : word.toList with
  | nil =>
    rw [htext] at hword
    cases hword
  | cons c cs =>
    rw [htext, List.head?_cons, Option.any_some, Bool.and_eq_true, List.all_cons, Bool.and_eq_true,
      List.all_eq_true] at hword
    have hkind : Lexeme.wordKind (c :: cs) = .keyword := by
      rw [Lexeme.wordKind, ← htext, String.ofList_toList, if_pos (List.contains_iff_mem.mpr hmem)]
    have hscan := Lexeme.scan_word hword.1 hword.2.2 htail
    rw [hkind] at hscan
    have htoken := @Spells.token pending _ _ ss _ _ _ hscan
    rw [← htext, String.ofList_toList] at htoken
    exact htoken h

/-- A quoted text spells a string literal. -/
theorem quote {s : String} (hs : Text.allShown s = true) (h : Spells true tail ss) :
    Spells pending ((Text.quote s).toList ++ tail) ((.string, Text.quote s) :: ss) := by
  obtain ⟨cs, htext, hscan⟩ := Lexeme.scan_quote hs tail
  have htoken := @Spells.token pending _ _ ss _ _ _ hscan
  rw [String.ofList_toList] at htoken
  rw [htext]
  exact htoken h

end Spells

/-! ### Texts put together -/

/-- Wherever the text stands, it is read as these tokens, if what follows does not go on with a
word. A statement may end after the text. -/
def Writes (text : String) (ss : List Spelling) : Prop :=
  ∀ pending tail rest, EndsWord tail → Spells true tail rest →
    Spells pending (text.toList ++ tail) (ss ++ rest)

/-- Does the text start with a character of the kind? -/
def startsBy (p : Char → Bool) (text : String) : Bool := text.toList.head?.any p

/-- Does no word go on with the text? -/
def breaksWord (text : String) : Bool := startsBy (fun d => !Lexeme.continuesIdent d) text

/-- What a text starts with does not depend on what is added after it. -/
theorem startsBy_append {p : Char → Bool} {a : String} (ha : startsBy p a = true) (b : String) :
    startsBy p (a ++ b) = true := by
  rw [startsBy] at ha ⊢
  rw [String.toList_append]
  cases htext : a.toList with
  | nil => simp [htext] at ha
  | cons d cs => rwa [htext] at ha

/-- A text that ends words still does with more after it. -/
theorem breaksWord_append {a : String} (ha : breaksWord a = true) (b : String) :
    breaksWord (a ++ b) = true :=
  startsBy_append ha b

private theorem endsWord_of_breaksWord {text : String} (h : breaksWord text = true)
    (tail : List Char) : EndsWord (text.toList ++ tail) := by
  rw [breaksWord, startsBy] at h
  cases htext : text.toList with
  | nil => simp [htext] at h
  | cons d cs =>
    rw [htext, List.head?_cons, Option.any_some, Bool.not_eq_true'] at h
    exact endsWord_cons h (cs ++ tail)

namespace Writes

variable {a b : String} {s t : List Spelling}

/-- Texts that write tokens write all of them one after the other, if the second one ends words. -/
theorem append (ha : Writes a s) (hb : Writes b t) (hbreak : breaksWord b = true) :
    Writes (a ++ b) (s ++ t) := by
  intro pending tail rest hend h
  rw [String.toList_append, List.append_assoc, List.append_assoc]
  exact ha pending _ _ (endsWord_of_breaksWord hbreak tail) (hb true tail rest hend h)

/-- A blank can be put before a text that writes tokens. -/
theorem blank (hb : Writes b t) : Writes (" " ++ b) t := by
  intro pending tail rest hend h
  rw [String.toList_append]
  exact .blank (hb pending tail rest hend h)

/-- An identifier writes itself. -/
theorem ident {name : String} (hname : Lexeme.IsWhole ⟨.token .ident, name.toList⟩) :
    Writes name [(.ident, name)] :=
  fun _ _ _ hend h => .ident hname hend h

/-- A quoted text writes a string literal. -/
theorem quote {s : String} (hs : Text.allShown s = true) :
    Writes (Text.quote s) [(.string, Text.quote s)] :=
  fun _ _ _ _ h => .quote hs h

/-- A keyword writes itself before a text that ends words. -/
theorem keyword {word : String} (hmem : word ∈ keywords) (hb : Writes b t)
    (hbreak : breaksWord b = true) : Writes (word ++ b) ((.keyword, word) :: t) := by
  intro pending tail rest hend h
  rw [String.toList_append, List.append_assoc]
  exact .keyword hmem (endsWord_of_breaksWord hbreak tail) (hb _ tail rest hend h)

/-- An operator before a text. -/
theorem op {op : String} (hop : isFinal op = true) (hb : Writes b t) :
    Writes (op ++ b) ((.op, op) :: t) := by
  intro pending tail rest hend h
  rw [String.toList_append, List.append_assoc]
  exact .final hop (hb _ tail rest hend h)

/-- A closing bracket alone. -/
theorem closing {op : String} (hop : isFinal op = true) (hends : endsStatement .op op = true) :
    Writes op [(.op, op)] := by
  intro pending tail rest _ h
  rw [← hends] at h
  exact .final hop h

/-- A point before a name. -/
theorem point {name : String} (hname : Lexeme.IsWhole ⟨.token .ident, name.toList⟩) :
    Writes ("." ++ name) [(.op, "."), (.ident, name)] := by
  obtain ⟨c, cs, htext, hstart, -⟩ := Lexeme.isWord_of_isWhole hname
  intro pending tail rest hend h
  rw [String.toList_append, List.append_assoc]
  refine .operator (by decide) (by decide) (by decide) (fun d hd => ?_) (.ident hname hend h)
  rw [htext, List.cons_append, List.head?_cons, Option.some.injEq] at hd
  subst hd
  have hnumber := Lexeme.startsNumber_eq_false hstart []
  rw [Lexeme.startsNumber, Bool.or_eq_false_iff] at hnumber
  -- neither another point nor a digit starts a name
  refine ⟨fun hpoint => ?_, fun _ => hnumber.1⟩
  obtain rfl := List.mem_singleton.mp (show c ∈ ['.'] from hpoint)
  exact absurd hstart (by decide)

/-- A star before a text that does not start with an equals sign. -/
theorem star (hb : Writes b t) (hstart : startsBy (· != '=') b = true) :
    Writes ("*" ++ b) ((.op, "*") :: t) := by
  intro pending tail rest hend h
  rw [startsBy] at hstart
  rw [String.toList_append, List.append_assoc]
  refine .operator (by decide) (by decide) (by decide) (fun d hd => ?_) (hb _ tail rest hend h)
  cases htext : b.toList with
  | nil => simp [htext] at hstart
  | cons c cs =>
    rw [htext, List.cons_append, List.head?_cons, Option.some.injEq] at hd
    rw [htext, List.head?_cons, Option.any_some, bne_iff_ne] at hstart
    subst hd
    -- only an equals sign makes a star longer
    refine ⟨fun heq => hstart ?_, fun h => absurd h (by decide)⟩
    exact List.mem_singleton.mp (show c ∈ ['='] from heq)

end Writes

/-! ### Lists -/

/-- The spelling of a comma. -/
def commaSpelling : List Spelling := [(.op, ",")]

/-- The spelling of a semicolon between two declarations. -/
def semicolonSpelling : List Spelling := [(.semicolon, ";")]

/-- The texts can stand on both sides of the separator. -/
def Separates (sep : String) (ss : List Spelling) : Prop :=
  ∀ a s b t, Writes a s → Writes b t → Writes (a ++ sep ++ b) (s ++ ss ++ t)

/-- A comma and a blank separate texts that write tokens. -/
theorem separates_comma : Separates ", " commaSpelling := by
  intro a s b t ha hb
  have hcomma : ", " = "," ++ " " := rfl
  rw [hcomma, String.append_assoc, String.append_assoc, List.append_assoc]
  exact ha.append (.op (by decide) hb.blank) (breaksWord_append (by decide) _)

/-- A semicolon and a blank separate texts that write tokens. -/
theorem separates_semicolon : Separates "; " semicolonSpelling := by
  intro a s b t ha hb pending tail rest hend h
  have htext : (a ++ "; " ++ b).toList ++ tail =
      a.toList ++ ';' :: (' ' :: (b.toList ++ tail)) := by
    rw [String.toList_append, String.toList_append, List.append_assoc, List.append_assoc]
    rfl
  rw [htext, List.append_assoc, List.append_assoc]
  refine ha pending _ _ (endsWord_cons (by decide) _) ?_
  exact .semicolon (.blank (hb false tail rest hend h))

/-- Items with separators between them. -/
theorem writes_intercalate {ι : Type} {sep : String} {ss : List Spelling} (hsep : Separates sep ss)
    {text : ι → String} {spelling : ι → List Spelling} {items : List ι} (hne : items ≠ [])
    (h : ∀ x ∈ items, Writes (text x) (spelling x)) :
    Writes (sep.intercalate (items.map text)) (ss.intercalate (items.map spelling)) := by
  induction items with
  | nil => exact absurd rfl hne
  | cons x items ih =>
    obtain ⟨hx, hitems⟩ := List.forall_mem_cons.mp h
    cases items with
    | nil => simpa using hx
    | cons y items =>
      have hrest := ih (List.cons_ne_nil y items) hitems
      rw [List.map_cons, List.map_cons] at hrest ⊢
      rw [List.map_cons, List.map_cons, String.intercalate_cons_cons, List.intercalate_cons_cons]
      exact hsep _ _ _ _ hx hrest

/-- A bracketed part of a text is set off. -/
theorem append_group (a b c d : String) : a ++ b ++ c ++ d = a ++ (b ++ c ++ d) := by
  rw [String.append_assoc, String.append_assoc, String.append_assoc]

/-- Items with separators between them, in brackets. -/
theorem writes_brackets {ι : Type} {opening closing sep : String} {ss : List Spelling}
    (hopening : isFinal opening = true) (hclosing : isFinal closing = true)
    (hends : endsStatement .op closing = true) (hbreak : breaksWord closing = true)
    (hsep : Separates sep ss) {text : ι → String} {spelling : ι → List Spelling} {items : List ι}
    (h : ∀ x ∈ items, Writes (text x) (spelling x)) :
    Writes (opening ++ sep.intercalate (items.map text) ++ closing)
      ((.op, opening) :: (ss.intercalate (items.map spelling) ++ [(.op, closing)])) := by
  have hclose := Writes.closing hclosing hends
  rw [String.append_assoc]
  refine .op hopening ?_
  cases items with
  | nil =>
    rw [List.map_nil, List.map_nil, String.intercalate_nil, String.empty_append]
    exact hclose
  | cons x items =>
    exact (writes_intercalate hsep (List.cons_ne_nil x items) h).append hclose hbreak

end GoPages
