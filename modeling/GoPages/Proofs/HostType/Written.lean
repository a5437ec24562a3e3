import GoPages.HostType.Render
import GoPages.Proofs.Parser.Yields
import GoPages.Proofs.Text.Nested

/-!
# Resolved types as they are written

A resolved type can be any value of `HostType`. `HostType.IsWritten` says of a type that its parts
are as they come up in Go: names are words, import paths are of ordinary characters, and the lengths
of arrays have closed brackets.

The text of such a type has no semicolons and no quotes outside of brackets
(`HostType.nested_render`), nor has that of a field without its tag (`HostType.nested_fieldBody`).
-/

namespace GoPages

open Text (Nested isPlain)

/-! ### Words -/

/-- Can the text be the name of a type? -/
def isWord (s : String) : Bool :=
  !s.toList.isEmpty && s.toList.all Lexeme.continuesIdent && !keywords.contains s

/-- Can the character stand in names and paths? It is no bracket, quotation mark, blank, semicolon
or star. -/
def isOrdinary (c : Char) : Bool := isPlain c && !([' ', ';', '*'].contains c)

/-- Is the text an import path of ordinary characters? -/
def isOrdinaryPath (path : String) : Bool := path != "" && path.toList.all isOrdinary

/-- The characters of names are ordinary, and none is a point. -/
private theorem isOrdinary_of_continuesIdent {c : Char} (h : Lexeme.continuesIdent c) :
    isOrdinary c ∧ c ≠ '.' := by
  have hall : (['(', '[', '\x7b', ')', ']', '\x7d', '"', ' ', ';', '*', '.'].all fun d =>
      !Lexeme.continuesIdent d) = true := by
    decide
  have hne : c ∉ ['(', '[', '\x7b', ')', ']', '\x7d', '"', ' ', ';', '*', '.'] := by
    intro hmem
    have hc := List.all_eq_true.mp hall c hmem
    rw [h] at hc
    cases hc
  simp only [List.mem_cons, List.not_mem_nil, or_false, not_or] at hne
  simp [isOrdinary, isPlain, Text.isOpening, Text.isClosing, hne]

/-- An ordinary character is not one that is not. -/
theorem ne_of_isOrdinary {c d : Char} (h : isOrdinary c) (hd : isOrdinary d = false) : c ≠ d := by
  rintro rfl
  rw [hd] at h
  cases h

section Words

variable {s : String}

/-- A word is not empty, has the characters of names, and is no keyword. -/
theorem isWord_iff : isWord s ↔ s.toList ≠ [] ∧ (∀ c ∈ s.toList, Lexeme.continuesIdent c) ∧
    s ∉ keywords := by
  simp [isWord, and_assoc]

/-- The names in a source are words. -/
theorem Ident.IsWord.isWord {id : Ident} (h : id.IsWord) : isWord id.name := by
  obtain ⟨c, cs, htext, hstart, hword, hkind⟩ := Lexeme.isWord_of_isWhole h
  refine isWord_iff.mpr ⟨by simp [htext], ?_, fun hmem => ?_⟩
  · rw [htext]
    refine List.forall_mem_cons.mpr ⟨?_, hword⟩
    rw [Lexeme.startsIdent] at hstart
    rw [Lexeme.continuesIdent, hstart, Bool.true_or]
  · rw [Lexeme.wordKind, ← htext, String.ofList_toList, if_pos (by simpa using hmem)] at hkind
    cases hkind

/-- The characters of a word are ordinary, and none is a point. -/
theorem ordinary_of_isWord (h : isWord s) : ∀ c ∈ s.toList, isOrdinary c ∧ c ≠ '.' :=
  fun c hc => isOrdinary_of_continuesIdent ((isWord_iff.mp h).2.1 c hc)

/-- A word after the path of a package, if it is not the one that is analysed. -/
theorem ordinary_of_path {path : String} (hpath : path = "" ∨ isOrdinaryPath path) (h : isWord s) :
    ∀ c ∈ (if path = "" then s else path ++ "." ++ s).toList, isOrdinary c := by
  have hword : ∀ c ∈ s.toList, isOrdinary c := fun c hc => (ordinary_of_isWord h c hc).1
  rcases hpath with rfl | hpath
  · exact hword
  · simp only [isOrdinaryPath, Bool.and_eq_true, bne_iff_ne, List.all_eq_true] at hpath
    rw [if_neg hpath.1, String.toList_append, String.toList_append]
    refine List.forall_mem_append.mpr ⟨List.forall_mem_append.mpr ⟨hpath.2, ?_⟩, hword⟩
    exact List.forall_mem_singleton.mpr (by decide)

end Words

namespace HostType

/-! ### Types as they are written -/

/-- Can an embedded field have the type? -/
def canEmbed : HostType → Bool
  | basic _ | error | named _ _ _ | typeParam _ | pointer _ | interface _ => true
  | _ => false

/-- The name of a type, or of what it points to. Of a type without a name it is the word that it
starts with. -/
def typeName : HostType → String
  | basic name | typeParam name | named _ name _ => name
  | error => "error"
  | pointer elem => typeName elem
  | slice _ | array _ _ => ""
  | map _ _ => "map"
  | chan _ => "chan"
  | func _ _ _ => "func"
  | struct _ => "struct"
  | interface _ => "interface"
  | invalid => "invalid"

/-- The parts of the type are as they are written in Go: names are words, import paths are of
ordinary characters, and the lengths of arrays have closed brackets. -/
inductive IsWritten : HostType → Prop
  | basic {name : String} (h : isWord name) : IsWritten (basic name)
  | error : IsWritten error
  | named {path name : String} {args : List HostType} (hpath : path = "" ∨ isOrdinaryPath path)
    (h : isWord name) (hargs : ∀ arg ∈ args, IsWritten arg) : IsWritten (named path name args)
  | typeParam {name : String} (h : isWord name) : IsWritten (typeParam name)
  | pointer {elem : HostType} (h : IsWritten elem) : IsWritten (pointer elem)
  | slice {elem : HostType} (h : IsWritten elem) : IsWritten (slice elem)
  | array {len : String} {elem : HostType} (hlen : Nested (fun _ => false) len.toList)
    (h : IsWritten elem) : IsWritten (array len elem)
  | map {key value : HostType} (hkey : IsWritten key) (hvalue : IsWritten value) :
    IsWritten (map key value)
  | chan {elem : HostType} (h : IsWritten elem) : IsWritten (chan elem)
  | func {params results : List HostType} (variadic : Bool)
    (hparams : ∀ t ∈ params, IsWritten t) (hresults : ∀ t ∈ results, IsWritten t) :
    IsWritten (func params results variadic)
  | struct {fields : List StructField}
    (hname : ∀ f ∈ fields, f.embedded = false → isWord f.name)
    (hembedded : ∀ f ∈ fields, f.embedded = true →
      f.type.canEmbed ∧ f.isExported = isExported f.type.typeName)
    (hfield : ∀ f ∈ fields, IsWritten f.type) : IsWritten (struct fields)
  | interface (empty : Bool) : IsWritten (interface empty)

/-- A field of a type whose parts are as they are written. -/
structure FieldIsWritten (f : StructField) : Prop where
  name : f.embedded = false → isWord f.name
  embedded : f.embedded = true → f.type.canEmbed ∧ f.isExported = isExported f.type.typeName
  type : IsWritten f.type

/-- A struct type is written if all of its fields are. -/
theorem isWritten_struct {fields : List StructField} :
    IsWritten (struct fields) ↔ ∀ f ∈ fields, FieldIsWritten f := by
  refine ⟨fun h => ?_, fun h => ?_⟩
  · cases h with
    | struct hname hembedded hfield =>
      exact fun f hf => ⟨hname f hf, hembedded f hf, hfield f hf⟩
  · exact .struct (fun f hf => (h f hf).name) (fun f hf => (h f hf).embedded) fun f hf =>
      (h f hf).type

/-! ### Texts of lists -/

/-- The texts of types are those of each type. -/
theorem renderList_eq (ts : List HostType) : renderList ts = ts.map render := by
  induction ts with
  | nil => rfl
  | cons t ts ih => rw [renderList, ih, List.map_cons]

/-- A field on one line. -/
def fieldText (f : StructField) : String :=
  renderStructField f.name f.embedded f.type.render f.tag

/-- The texts of fields are those of each field. -/
theorem renderFields_eq (fields : List StructField) :
    renderFields fields = fields.map fieldText := by
  induction fields with
  | nil => rfl
  | cons f fields ih => rw [renderFields, ih, List.map_cons, fieldText]

/-! ### Texts in pieces -/

/-- Does the character separate fields, or start a tag? -/
def isBreak (c : Char) : Bool := c == ';' || c == '"'

/-- Ordinary characters have no brackets and no marks among them. -/
theorem nested_of_isOrdinary {marks : Char → Bool} {cs : List Char}
    (h : ∀ c ∈ cs, isOrdinary c) (hmarks : ∀ c, isOrdinary c → marks c = false) :
    Nested marks cs := by
  refine .of_forall fun c hc => ⟨?_, hmarks c (h c hc)⟩
  have hc := h c hc
  rw [isOrdinary, Bool.and_eq_true] at hc
  exact hc.1

private theorem isBreak_of_isOrdinary {c : Char} (h : isOrdinary c) : isBreak c = false := by
  have hsemicolon : c ≠ ';' := ne_of_isOrdinary h (by decide)
  have hquote : c ≠ '"' := ne_of_isOrdinary h (by decide)
  simp [isBreak, hsemicolon, hquote]

/-- Texts stay nested when they are joined by a plain separator. -/
private theorem nested_intercalate (sep : String) (hsep : sep.toList.all isPlain)
    {texts : List String} (h : ∀ s ∈ texts, Nested (fun _ => false) s.toList) :
    Nested (fun _ => false) (sep.intercalate texts).toList := by
  rw [String.toList_intercalate]
  induction texts with
  | nil => exact .nil
  | cons s texts ih =>
    obtain ⟨hs, htexts⟩ := List.forall_mem_cons.mp h
    cases texts with
    | nil => simpa using hs
    | cons s' texts =>
      rw [List.map_cons, List.map_cons, List.intercalate_cons_cons]
      have hsep : Nested (fun _ => false) sep.toList :=
        .of_forall fun c hc => ⟨List.all_eq_true.mp hsep c hc, rfl⟩
      exact (hs.append hsep).append (ih htexts)

private theorem nested_commaList {texts : List String}
    (h : ∀ s ∈ texts, Nested (fun _ => false) s.toList) :
    Nested (fun _ => false) (commaList texts).toList :=
  nested_intercalate ", " (by decide) h

/-- The text of a named type is nested if those of its arguments are. -/
theorem nested_renderNamed {marks : Char → Bool} (hordinary : ∀ c, isOrdinary c → marks c = false)
    (hopen : marks '[' = false) {path name : String} {texts : List String}
    (hpath : path = "" ∨ isOrdinaryPath path) (h : isWord name)
    (htexts : ∀ s ∈ texts, Nested (fun _ => false) s.toList) :
    Nested marks (renderNamed path name texts).toList := by
  rw [renderNamed, String.toList_append]
  refine (nested_of_isOrdinary (ordinary_of_path hpath h) hordinary).append ?_
  split
  · exact .nil
  · rw [String.toList_append, String.toList_append]
    exact .brackets (by decide) (by decide) hopen (nested_commaList htexts)

variable {t : HostType}

/-- A variadic parameter is written with three points, and then as its type or the type of its
items. -/
theorem exists_of_variadicText (t : HostType) : ∃ text, variadicText t t.render = "..." ++ text ∧
    (text = t.render ∨ ∃ elem, t = slice elem ∧ text = elem.render) := by
  cases t with
  | slice elem =>
    refine ⟨elem.render, ?_, .inr ⟨elem, rfl, rfl⟩⟩
    rw [variadicText, isSlice, if_pos rfl, render, String.toList_append]
    exact congrArg ("..." ++ ·) String.ofList_toList
  | _ => exact ⟨_, rfl, .inl rfl⟩

/-- The texts of parameters are nested, the last one also as that of a variadic parameter. -/
private theorem nested_renderParams (variadic : Bool) {params : List HostType}
    (h : ∀ t ∈ params, Nested isBreak t.render.toList ∧
      ∀ elem, t = slice elem → Nested isBreak elem.render.toList) :
    ∀ s ∈ renderParams variadic params, Nested (fun _ => false) s.toList := by
  induction params with
  | nil => exact List.forall_mem_nil _
  | cons t params ih =>
    obtain ⟨⟨ht, helem⟩, hparams⟩ := List.forall_mem_cons.mp h
    rw [renderParams]
    refine List.forall_mem_cons.mpr ⟨?_, ih hparams⟩
    refine (?_ : Nested isBreak _).mono nofun
    split
    · obtain ⟨text, heq, htext⟩ := exists_of_variadicText t
      have hnested : Nested isBreak text.toList := by
        rcases htext with rfl | ⟨elem, helem', rfl⟩
        · exact ht
        · exact helem elem helem'
      rw [heq, String.toList_append]
      exact .plain (by decide) (by decide) (.plain (by decide) (by decide)
        (.plain (by decide) (by decide) hnested))
    · exact ht

/-- A text between brackets after a word. -/
theorem nested_bracketed {marks : Char → Bool} (word : List Char) (o c : Char) {inner : List Char}
    (hword : (word.all fun d => isPlain d && !marks d) = true) (ho : Text.isOpening o)
    (hc : Text.isClosing c) (hopen : marks o = false) (hinner : Nested (fun _ => false) inner) :
    Nested marks (word ++ o :: (inner ++ [c])) :=
  (Nested.of_all hword).append (.brackets ho hc hopen hinner)

private theorem nested_renderResults {results : List HostType}
    (h : ∀ t ∈ results, Nested isBreak t.render.toList) :
    Nested isBreak (renderResults (results.map render)).toList := by
  match results with
  | [] => exact .nil
  | [t] =>
    rw [List.map_singleton, renderResults, String.toList_append]
    exact .plain (by decide) (by decide) (h t (List.mem_singleton_self t))
  | t :: u :: results =>
    have hinner : ∀ s ∈ (t :: u :: results).map render, Nested (fun _ => false) s.toList :=
      List.forall_mem_map.mpr fun t ht => (h t ht).mono nofun
    have hbrackets : Nested isBreak _ := nested_bracketed [' '] '(' ')' (by decide) (by decide)
      (by decide) (by decide) (nested_commaList hinner)
    simpa [renderResults] using hbrackets

/-- The text of an interface type has no marks outside of its braces. -/
theorem nested_interface {marks : Char → Bool} (empty : Bool)
    (hword : ("interface".toList.all fun d => isPlain d && !marks d) = true)
    (hopen : marks '\x7b' = false) : Nested marks (interface empty).render.toList := by
  have hbraces {inner : List Char} (hinner : Nested (fun _ => false) inner) :=
    nested_bracketed "interface".toList '\x7b' '\x7d' hword (by decide) (by decide) hopen hinner
  cases empty with
  | true => exact hbraces .nil
  | false => exact hbraces (.of_all (x := "...".toList) (by decide))

/-- A field without its tag. -/
def fieldBody (f : StructField) : String :=
  if f.embedded then f.type.render else f.name ++ " " ++ f.type.render

/-- The text of a field without its tag is nested if that of its type is. -/
theorem nested_fieldBody {f : StructField} (hname : f.embedded = false → isWord f.name)
    (htype : Nested isBreak f.type.render.toList) : Nested isBreak (fieldBody f).toList := by
  rw [fieldBody]
  split
  · exact htype
  · next hembedded =>
    have hword := ordinary_of_isWord (hname (Bool.eq_false_iff.mpr hembedded))
    rw [String.toList_append, String.toList_append, List.append_assoc]
    exact (nested_of_isOrdinary (fun c hc => (hword c hc).1) fun c => isBreak_of_isOrdinary).append
      (.plain (by decide) (by decide) htype)

/-- The text of a field is its name and its type, and then its tag in quotes. -/
theorem toList_fieldText (f : StructField) : (fieldText f).toList =
    (fieldBody f).toList ++ if f.tag = "" then [] else ' ' :: (Text.quote f.tag).toList := by
  rw [fieldText, renderStructField, String.toList_append, ← fieldBody]
  split
  · rfl
  · rw [String.toList_append]
    rfl

/-- A tag is in quotes, so the text of a field with its tag has no semicolon outside of brackets and
quotes. -/
theorem nested_fieldText {f : StructField} (hname : f.embedded = false → isWord f.name)
    (htype : Nested isBreak f.type.render.toList) :
    Nested (· == ';') (fieldText f).toList := by
  rw [toList_fieldText]
  refine ((nested_fieldBody hname htype).mono ?_).append ?_
  · intro c hc
    rw [isBreak, hc, Bool.true_or]
  · split
    · exact .nil
    · exact .plain (by decide) (by decide) (.quote (by decide))

/-- The text of a type has no semicolons and no quotes outside of brackets. -/
theorem nested_render (h : IsWritten t) : Nested isBreak t.render.toList ∧
    ∀ elem, t = slice elem → Nested isBreak elem.render.toList := by
  have hword {name : String} (h : isWord name) : Nested isBreak name.toList :=
    nested_of_isOrdinary (fun c hc => (ordinary_of_isWord h c hc).1) fun c => isBreak_of_isOrdinary
  have hinner {cs : List Char} (h : Nested isBreak cs) : Nested (fun _ => false) cs := h.mono nofun
  -- a variadic parameter is written by the element of a slice, without the brackets; so a slice
  -- carries along what is true of its element
  induction h with
  | basic h | typeParam h => exact ⟨hword h, nofun⟩
  | error => exact ⟨hword (by decide), nofun⟩
  | named hpath h _ ih =>
    refine ⟨?_, nofun⟩
    rw [render, renderList_eq]
    refine nested_renderNamed (fun _ => isBreak_of_isOrdinary) (by decide) hpath h ?_
    exact List.forall_mem_map.mpr fun arg harg => hinner (ih arg harg).1
  | pointer _ ih =>
    refine ⟨?_, nofun⟩
    rw [render, String.toList_append]
    exact .plain (by decide) (by decide) ih.1
  | slice _ ih =>
    refine ⟨?_, ?_⟩
    · rw [render, String.toList_append]
      exact .group (by decide) (by decide) (by decide) .nil ih.1
    · rintro _ ⟨⟩
      exact ih.1
  | array hlen _ ih =>
    refine ⟨?_, nofun⟩
    rw [render, String.toList_append, String.toList_append, String.toList_append]
    exact (Nested.brackets (by decide) (by decide) (by decide) hlen).append ih.1
  | map _ _ ihkey ihvalue =>
    refine ⟨?_, nofun⟩
    have hmap : Nested isBreak _ := nested_bracketed "map".toList '[' ']' (by decide) (by decide)
      (by decide) (by decide) (hinner ihkey.1)
    simpa [render] using hmap.append ihvalue.1
  | chan _ ih =>
    refine ⟨?_, nofun⟩
    rw [render, String.toList_append]
    exact Nested.append (.of_all (by decide)) ih.1
  | func variadic _ _ ihparams ihresults =>
    refine ⟨?_, nofun⟩
    have hparams : Nested isBreak _ := nested_bracketed "func".toList '(' ')' (by decide)
      (by decide) (by decide) (by decide) (nested_commaList (nested_renderParams variadic ihparams))
    have hresults := nested_renderResults fun t ht => (ihresults t ht).1
    simpa [render, renderList_eq] using hparams.append hresults
  | @struct fields hname _ _ ih =>
    refine ⟨?_, nofun⟩
    have hfields := nested_intercalate "; " (by decide) <| List.forall_mem_map.mpr
      fun f hf => (nested_fieldText (hname f hf) (ih f hf).1).mono nofun
    have hstruct : Nested isBreak _ := nested_bracketed "struct".toList '\x7b' '\x7d' (by decide)
      (by decide) (by decide) (by decide) hfields
    simpa [render, renderFields_eq] using hstruct
  | interface empty =>
    refine ⟨?_, nofun⟩
    exact nested_interface empty (by decide) (by decide)

end HostType

end GoPages
