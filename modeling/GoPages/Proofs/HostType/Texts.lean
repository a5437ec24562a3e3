import GoPages.Proofs.HostType.Written

/-!
# What the text of a type says

The text of a type does not determine the type: a name in it may be that of a declared type, of a
predeclared type or of a type parameter, and only a part of what is known of fields is shown. Of a
type that is as it is written (`HostType.IsWritten`) the text determines

* the word that it starts with (`HostType.takeWhile_render`), and so whether it is a pointer, a
  struct or a declared type, if only declared types have their names
  (`HostType.kind_eq_of_render_eq`);
* the fields of a struct type, but for the names of fields and their places
  (`HostType.shown_eq_of_render_eq`).
-/

namespace GoPages.HostType

open Text (Nested isPlain)

variable {names : List String} {t u : HostType}

/-! ### How texts start -/

/-- Is the character one of the word that a text starts with? -/
def isHead (c : Char) : Bool := isPlain c && c != ' '

/-- The word that the text of a type starts with. -/
def lead : HostType → String
  | basic name | typeParam name => name
  | named path name _ => if path = "" then name else path ++ "." ++ name
  | pointer elem => "*" ++ lead elem
  | t => t.typeName

private theorem isHead_of_isOrdinary {c : Char} (h : isOrdinary c) : isHead c := by
  have hc : c ≠ ' ' := ne_of_isOrdinary h (by decide)
  rw [isOrdinary, Bool.and_eq_true] at h
  simp [isHead, h.1, hc]

/-- The word at the start of a text ends where something else follows. -/
private theorem takeWhile_append {word rest : List Char} (hword : ∀ c ∈ word, isHead c)
    (hrest : ∀ c ∈ rest.head?, isHead c = false) : (word ++ rest).takeWhile isHead = word := by
  rw [List.takeWhile_append_of_pos hword]
  cases rest with
  | nil => simp
  | cons c rest => simp [hrest c rfl]

/-- The text of a named type starts with its name, behind that of its package. -/
private theorem takeWhile_renderNamed {path name : String} {texts : List String}
    (hpath : path = "" ∨ isOrdinaryPath path) (h : isWord name) :
    (renderNamed path name texts).toList.takeWhile isHead =
      (if path = "" then name else path ++ "." ++ name).toList := by
  rw [renderNamed, String.toList_append]
  refine takeWhile_append (fun c hc => isHead_of_isOrdinary (ordinary_of_path hpath h c hc)) ?_
  split
  · intro c hc
    cases hc
  · rw [String.toList_append, String.toList_append]
    intro c hc
    rw [← Option.some.inj hc]
    decide

/-- **How the text of a type starts.** -/
theorem takeWhile_render (h : IsWritten t) :
    t.render.toList.takeWhile isHead = t.lead.toList := by
  have hword {name : String} (h : isWord name) : name.toList.takeWhile isHead = name.toList :=
    List.takeWhile_eq_self_iff.mpr fun c hc => isHead_of_isOrdinary (ordinary_of_isWord h c hc).1
  induction h with
  | basic h | typeParam h => exact hword h
  | error => exact hword (by decide)
  | named hpath h => exact takeWhile_renderNamed hpath h
  | pointer _ ih =>
    rw [render, lead, String.toList_append, String.toList_append]
    exact congrArg ('*' :: ·) ih
  | interface empty => cases empty <;> decide
  | _ => simp [render, lead, typeName, isHead, isPlain, Text.isOpening, Text.isClosing]

/-- Types with the same text start with the same word. -/
private theorem lead_eq_of_render_eq (ht : IsWritten t) (hu : IsWritten u)
    (h : t.render = u.render) : t.lead = u.lead := by
  rw [← String.toList_inj, ← takeWhile_render ht, ← takeWhile_render hu, h]

/-! ### Kinds of types -/

/-- The name of a type parameter or of a predeclared type. -/
def otherName : HostType → Option String
  | basic name | typeParam name => some name
  | error => some "error"
  | _ => none

/-- Where a type leads to. -/
inductive Kind where
  | pointer
  | struct
  | declared (name : String)
  | other

/-- The kind of a type in a package that declares types with these names. -/
def kind (names : List String) : HostType → Kind
  | pointer _ => .pointer
  | struct _ => .struct
  | named path name _ => if path = "" ∧ name ∈ names then .declared name else .other
  | _ => .other

/-- The kind of a type whose text starts with the word. -/
def kindOf (names : List String) (word : String) : Kind :=
  if word.toList.head? = some '*' then .pointer
  else if word = "struct" then .struct
  else if word ∈ names then .declared word
  else .other

private theorem head?_ne_star {cs : List Char} (h : ∀ c ∈ cs, isOrdinary c) : cs.head? ≠ some '*' :=
  fun hstar => absurd (h '*' (List.mem_of_head? hstar)) (by decide)

/-- No name is a keyword. -/
private theorem ne_of_mem_keywords {word : String} (h : isWord word) {keyword : String}
    (hkeyword : keyword ∈ keywords) : word ≠ keyword := by
  rintro rfl
  exact (isWord_iff.mp h).2.2 hkeyword

/-- A name is that of a declared type, or of any other one. -/
private theorem kindOf_word {word : String} (h : isWord word) :
    kindOf names word = if word ∈ names then .declared word else .other := by
  rw [kindOf, if_neg (head?_ne_star fun c hc => (ordinary_of_isWord h c hc).1),
    if_neg (ne_of_mem_keywords h (by decide))]

/-- What starts with no name and no star is of no kind of its own, but for structs. -/
theorem kindOf_of_not_isWord (hnames : ∀ name ∈ names, isWord name) {word : String}
    (hstar : word.toList.head? ≠ some '*') (hstruct : word ≠ "struct") (h : ¬ isWord word) :
    kindOf names word = .other := by
  rw [kindOf, if_neg hstar, if_neg hstruct, if_neg fun hmem => h (hnames word hmem)]

/-- The kind of a type can be read off the start of its text, if the type is no type parameter or
predeclared type with the name of a declared type. -/
theorem kindOf_lead (hnames : ∀ name ∈ names, isWord name) (h : IsWritten t)
    (hnew : ∀ name, t.otherName = some name → name ∉ names) :
    kindOf names t.lead = t.kind names := by
  have hother : ∀ word ∈ ["", "map", "chan", "func", "interface"],
      kindOf names word = .other := by
    have hall : ∀ word ∈ ["", "map", "chan", "func", "interface"],
        word.toList.head? ≠ some '*' ∧ word ≠ "struct" ∧ ¬ isWord word := by
      decide
    intro word hmem
    obtain ⟨hstar, hstruct, hword⟩ := hall word hmem
    exact kindOf_of_not_isWord hnames hstar hstruct hword
  cases h with
  | basic h | typeParam h => exact (kindOf_word h).trans (if_neg (hnew _ rfl))
  | error => exact (kindOf_word (by decide)).trans (if_neg (hnew _ rfl))
  | @named path name args hpath h =>
    by_cases hlocal : path = ""
    · rw [lead, if_pos hlocal, kindOf_word h, kind]
      simp only [hlocal, true_and]
    · -- a name with a path has a point in it
      have hpoint : '.' ∈ (lead (named path name args)).toList := by
        simp [lead, hlocal]
      rw [kind, if_neg fun hboth => hlocal hboth.1]
      refine kindOf_of_not_isWord hnames (head?_ne_star ?_) ?_ fun hword => ?_
      · exact ordinary_of_path hpath h
      · intro heq
        rw [heq] at hpoint
        exact absurd hpoint (by decide)
      · exact (ordinary_of_isWord hword _ hpoint).2 rfl
  | pointer =>
    refine if_pos ?_
    rw [lead, String.toList_append]
    rfl
  | struct => exact (if_neg (show "struct".toList.head? ≠ some '*' by decide)).trans (if_pos rfl)
  | slice | array => exact hother "" (by decide)
  | map => exact hother "map" (by decide)
  | chan => exact hother "chan" (by decide)
  | func => exact hother "func" (by decide)
  | interface => exact hother "interface" (by decide)

/-- Types with the same text are of the same kind. -/
theorem kind_eq_of_render_eq (hnames : ∀ name ∈ names, isWord name) (ht : IsWritten t)
    (htnew : ∀ name, t.otherName = some name → name ∉ names) (hu : IsWritten u)
    (hunew : ∀ name, u.otherName = some name → name ∉ names) (h : t.render = u.render) :
    t.kind names = u.kind names := by
  rw [← kindOf_lead hnames ht htnew, ← kindOf_lead hnames hu hunew, lead_eq_of_render_eq ht hu h]

/-! ### Names of embedded fields -/

/-- The name that follows stars and the path of a package. -/
def nameOf (word : List Char) : List Char :=
  ((word.dropWhile (· == '*')).reverse.takeWhile (· != '.')).reverse

/-- The name of a type is the last part of the word at its start. -/
private theorem nameOf_lead (h : IsWritten t) : nameOf t.lead.toList = t.typeName.toList := by
  have hstar {cs : List Char} (h : cs.head? ≠ some '*') : cs.dropWhile (· == '*') = cs := by
    cases cs with
    | nil => rfl
    | cons c cs => exact List.dropWhile_cons_of_neg (by simpa using h)
  have hpoint {name : String} (h : isWord name) :
      name.toList.reverse.takeWhile (· != '.') = name.toList.reverse := by
    refine List.takeWhile_eq_self_iff.mpr fun c hc => ?_
    simpa using (ordinary_of_isWord h c (List.mem_reverse.mp hc)).2
  have hword {name : String} (h : isWord name) : nameOf name.toList = name.toList := by
    rw [nameOf, hstar (head?_ne_star fun c hc => (ordinary_of_isWord h c hc).1), hpoint h,
      List.reverse_reverse]
  have hother : ∀ word ∈ ["", "error", "map", "chan", "func", "struct", "interface"],
      nameOf word.toList = word.toList := by
    decide
  induction h with
  | basic h | typeParam h => exact hword h
  | @named path name args hpath h =>
    by_cases hlocal : path = ""
    · rw [lead, if_pos hlocal]
      exact hword h
    · rw [lead, nameOf, hstar (head?_ne_star (ordinary_of_path hpath h)), if_neg hlocal,
        String.toList_append, List.reverse_append,
        List.takeWhile_append_of_pos (List.takeWhile_eq_self_iff.mp (hpoint h)),
        String.toList_append, List.reverse_append]
      simp [typeName]
  | pointer _ ih =>
    rw [lead, String.toList_append]
    exact ih
  | error => exact hother "error" (by decide)
  | slice | array => exact hother "" (by decide)
  | map => exact hother "map" (by decide)
  | chan => exact hother "chan" (by decide)
  | func => exact hother "func" (by decide)
  | struct => exact hother "struct" (by decide)
  | interface => exact hother "interface" (by decide)

/-- Types with the same text have the same name. -/
theorem typeName_eq_of_render_eq (ht : IsWritten t) (hu : IsWritten u)
    (h : t.render = u.render) : t.typeName = u.typeName := by
  rw [← String.toList_inj, ← nameOf_lead ht, ← nameOf_lead hu, lead_eq_of_render_eq ht hu h]

/-! ### Fields -/

private theorem eq_space_of_isOrdinary {c : Char} (h : isOrdinary c) : (c == ' ') = false :=
  beq_false_of_ne (ne_of_isOrdinary h (by decide))

private theorem nested_of_isWord {name : String} (h : isWord name) :
    Nested (· == ' ') name.toList :=
  nested_of_isOrdinary (fun c hc => (ordinary_of_isWord h c hc).1) fun _ => eq_space_of_isOrdinary

/-- The text of a type that can be embedded has no blank outside of brackets, but for pointers. -/
theorem nested_of_canEmbed (h : IsWritten t) (hembed : t.canEmbed)
    (hpointer : ∀ elem, t ≠ pointer elem) : Nested (· == ' ') t.render.toList := by
  have hargs {args : List HostType} (h : ∀ arg ∈ args, IsWritten arg) :
      ∀ s ∈ renderList args, Nested (fun _ => false) s.toList := by
    rw [renderList_eq]
    exact List.forall_mem_map.mpr fun arg harg => (nested_render (h arg harg)).1.mono nofun
  cases h with
  | basic h | typeParam h => exact nested_of_isWord h
  | error => exact nested_of_isWord (by decide)
  | named hpath h hargs' =>
    exact nested_renderNamed (fun _ => eq_space_of_isOrdinary) (by decide) hpath h (hargs hargs')
  | pointer => exact absurd rfl (hpointer _)
  | interface empty => exact nested_interface empty (by decide) (by decide)
  | _ => cases hembed

/-- An embedded field is not written as one with a name. -/
theorem render_ne_named (h : IsWritten t) (hembed : t.canEmbed) {name : String}
    (hname : isWord name) (type : String) : t.render ≠ name ++ " " ++ type := by
  intro heq
  have hchars : t.render.toList = name.toList ++ ' ' :: type.toList := by
    rw [heq, String.toList_append, String.toList_append, List.append_assoc]
    rfl
  by_cases hpointer : ∃ elem, t = pointer elem
  · -- what starts with a star starts with no name
    obtain ⟨elem, rfl⟩ := hpointer
    have hstar : (name.toList ++ ' ' :: type.toList).head? = some '*' := by
      rw [← hchars, render, String.toList_append]
      rfl
    rw [List.head?_append_of_ne_nil _ (isWord_iff.mp hname).1] at hstar
    exact head?_ne_star (fun c hc => (ordinary_of_isWord hname c hc).1) hstar
  · have hnested := nested_of_canEmbed h hembed fun elem helem => hpointer ⟨elem, helem⟩
    rw [← List.append_nil t.render.toList] at hchars
    have hrest := (hnested.append_inj (nested_of_isWord hname) Text.stopsAt_nil
      (Text.stopsAt_cons.mpr (.inl rfl)) hchars).2
    cases hrest

/-- What the text of a field without its tag says. -/
theorem fieldBody_inj {f g : StructField} (hf : FieldIsWritten f) (hg : FieldIsWritten g)
    (h : fieldBody f = fieldBody g) :
    f.isExported = g.isExported ∧ f.type.render = g.type.render := by
  rw [fieldBody, fieldBody] at h
  cases hfembed : f.embedded <;> cases hgembed : g.embedded <;>
    simp only [hfembed, hgembed, if_true, Bool.false_eq_true, if_false] at h
  case false.false =>
    rw [← String.toList_inj, String.toList_append, String.toList_append, String.toList_append,
      String.toList_append, List.append_assoc, List.append_assoc] at h
    obtain ⟨hname, htype⟩ := (nested_of_isWord (hf.name hfembed)).append_inj
      (nested_of_isWord (hg.name hgembed)) (Text.stopsAt_cons.mpr (.inl rfl))
      (Text.stopsAt_cons.mpr (.inl rfl)) h
    rw [String.toList_inj] at hname
    refine ⟨?_, String.toList_inj.mp (List.cons.inj htype).2⟩
    rw [StructFieldOf.isExported, StructFieldOf.isExported, hname]
  case false.true =>
    exact absurd h.symm (render_ne_named hg.type (hg.embedded hgembed).1 (hf.name hfembed) _)
  case true.false =>
    exact absurd h (render_ne_named hf.type (hf.embedded hfembed).1 (hg.name hgembed) _)
  case true.true =>
    refine ⟨?_, h⟩
    rw [(hf.embedded hfembed).2, (hg.embedded hgembed).2,
      typeName_eq_of_render_eq hf.type hg.type h]

/-- What the text of a field says. -/
theorem fieldText_inj {f g : StructField} (hf : FieldIsWritten f) (hg : FieldIsWritten g)
    (h : fieldText f = fieldText g) :
    f.isExported = g.isExported ∧ f.tag = g.tag ∧ f.type.render = g.type.render := by
  have hnested {f : StructField} (hf : FieldIsWritten f) :
      Nested (· == '"') ((fieldBody f).toList ++ if f.tag = "" then [] else [' ']) := by
    refine ((nested_fieldBody hf.name (nested_render hf.type).1).mono ?_).append ?_
    · intro c hc
      rw [isBreak, hc, Bool.or_true]
    · split
      · exact .nil
      · exact .plain (by decide) (by decide) .nil
  have htext (f : StructField) : (fieldText f).toList =
      ((fieldBody f).toList ++ if f.tag = "" then [] else [' ']) ++
        if f.tag = "" then [] else (Text.quote f.tag).toList := by
    rw [toList_fieldText, List.append_assoc]
    split <;> rfl
  have hstop (f : StructField) :
      Text.StopsAt (· == '"') (if f.tag = "" then [] else (Text.quote f.tag).toList) := by
    split
    · exact Text.stopsAt_nil
    · rw [Text.toList_quote]
      exact Text.stopsAt_cons.mpr (.inl rfl)
  -- the first quote outside of brackets is that of the tag, so both texts are cut there
  rw [← String.toList_inj, htext, htext] at h
  obtain ⟨hbody, htag⟩ := (hnested hf).append_inj (hnested hg) (hstop f) (hstop g) h
  have htags : f.tag = g.tag := by
    split at htag <;> split at htag
    · next hf hg => rw [hf, hg]
    · simp [Text.toList_quote] at htag
    · simp [Text.toList_quote] at htag
    · exact (Text.quote_append_inj (congrArg (· ++ []) htag)).1
  rw [htags, List.append_left_inj, String.toList_inj] at hbody
  obtain ⟨hexported, htype⟩ := fieldBody_inj hf hg hbody
  exact ⟨hexported, htags, htype⟩

/-- What the text of a struct type says about a field. -/
def shown (f : StructField) : Bool × String × String := (f.isExported, f.tag, f.type.render)

/-- The text of a written type is not empty. -/
private theorem render_ne_nil (h : IsWritten t) : t.render.toList ≠ [] := by
  cases h with
  | basic h | typeParam h => exact (isWord_iff.mp h).1
  | named _ h =>
    rw [render, renderNamed, String.toList_append]
    refine List.append_ne_nil_of_left_ne_nil ?_ _
    split
    · exact (isWord_iff.mp h).1
    · simp
  | interface empty => cases empty <;> decide
  | _ => simp [render]

private theorem fieldText_ne_nil {f : StructField} (h : FieldIsWritten f) :
    (fieldText f).toList ≠ [] := by
  rw [toList_fieldText, fieldBody]
  refine List.append_ne_nil_of_left_ne_nil ?_ _
  split
  · exact render_ne_nil h.type
  · simp

/-- What is shown of fields is determined by their texts. -/
private theorem map_shown_eq {fields others : List StructField}
    (hfields : ∀ f ∈ fields, FieldIsWritten f) (hothers : ∀ f ∈ others, FieldIsWritten f)
    (h : fields.map (fun f => (fieldText f).toList) = others.map fun f => (fieldText f).toList) :
    fields.map shown = others.map shown := by
  induction fields generalizing others with
  | nil =>
    rw [List.map_nil, eq_comm, List.map_eq_nil_iff] at h
    rw [h]
  | cons f fields ih =>
    cases others with
    | nil => cases h
    | cons g others =>
      obtain ⟨htext, hrest⟩ := List.cons.inj h
      obtain ⟨hf, hfields⟩ := List.forall_mem_cons.mp hfields
      obtain ⟨hg, hothers⟩ := List.forall_mem_cons.mp hothers
      obtain ⟨hexported, htag, htype⟩ := fieldText_inj hf hg (String.toList_inj.mp htext)
      rw [List.map_cons, List.map_cons, ih hfields hothers hrest, shown, shown, hexported, htag,
        htype]

/-- **What the text of a struct type says.** -/
theorem shown_eq_of_render_eq {fields others : List StructField}
    (ht : IsWritten (struct fields)) (hu : IsWritten (struct others))
    (h : (struct fields).render = (struct others).render) :
    fields.map shown = others.map shown := by
  rw [isWritten_struct] at ht hu
  have hpieces {fields : List StructField} (hfields : ∀ f ∈ fields, FieldIsWritten f) :
      ∀ cs ∈ fields.map (fun f => (fieldText f).toList), Nested (· == ';') cs ∧ cs ≠ [] := by
    refine List.forall_mem_map.mpr fun f hf => ⟨?_, fieldText_ne_nil (hfields f hf)⟩
    exact nested_fieldText (hfields f hf).name (nested_render (hfields f hf).type).1
  simp only [render, renderFields_eq, ← String.toList_inj, String.toList_append,
    List.append_left_inj, List.append_right_inj, String.toList_intercalate, List.map_map] at h
  have htexts : (';' :: [' ']).intercalate (fields.map fun f => (fieldText f).toList) =
      (';' :: [' ']).intercalate (others.map fun f => (fieldText f).toList) := h
  exact map_shown_eq ht hu
    (Text.eq_of_intercalate_eq (by rfl) (hpieces ht) (hpieces hu) htexts)

end GoPages.HostType
