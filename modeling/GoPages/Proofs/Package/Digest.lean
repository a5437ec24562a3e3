import GoPages.Package
import GoPages.Proofs.Package.Lines
import GoPages.Proofs.Package.Places
import GoPages.Proofs.Text.Bytes
import GoPages.Proofs.Token.Pieces

/-!
# What a digest stands for

The digest of a package is taken of the names and texts of its files with a zero byte after each
(`Package.digestInput`). Names without zero bytes end at the first one, so what the digest is taken
of determines the files as long as their texts have no zero byte either (`digestInput_inj`).

A source text that can be read has a zero byte only in a comment or in a quoted literal
(`Lexed.isZeroFree_iff`). There it may have one, and then two files and a single file that holds
both cannot be told apart (`digestInput_glued`, `not_forall_inNameOrder_eq`).
-/

namespace GoPages

/-! ### The zero byte -/

namespace Text

/-- The zero byte belongs to no character but its own. -/
theorem zero_mem_utf8EncodeChar {c : Char} : 0 ∈ String.utf8EncodeChar c ↔ c = '\x00' :=
  mem_utf8EncodeChar_iff (by decide)

/-- A zero byte of a text is a zero character. -/
private theorem zero_mem_toUTF8 {s : String} : 0 ∈ s.toUTF8.toList ↔ '\x00' ∈ s.toList := by
  rw [toList_toUTF8, List.mem_flatMap]
  simp [zero_mem_utf8EncodeChar]

end Text

/-! ### Zero bytes in a source text -/

/-- The comments and quoted literals of a text have no zero byte. -/
structure Lexed.IsZeroFree (lexed : Lexed) : Prop where
  comments : ∀ c ∈ lexed.comments, '\x00' ∉ c.text.toList
  literals : ∀ t ∈ lexed.tokens, t.kind = .string ∨ t.kind = .char → '\x00' ∉ t.text.toList

/-- A token with a zero byte is a quoted literal. -/
theorem Lexeme.HasShape.isLiteral_of_zero_mem {x : Lexeme} {kind : TokenKind} (h : x.HasShape)
    (hcls : x.cls = .token kind) (hzero : '\x00' ∈ x.text) : kind = .string ∨ kind = .char := by
  have hlow : isAboveSpace '\x00' = false := rfl
  cases kind with
  | string => exact .inl rfl
  | char => exact .inr rfl
  | semicolon => simp [h.text_of_semicolon hcls] at hzero
  | eof => exact absurd rfl (h.kind_ne_eof hcls)
  | ident | keyword | number | op =>
    rw [HasShape, hcls] at h
    exact absurd (h _ hzero) (by simp [hlow])

private theorem mem_of_mem_withoutMark {c : Char} {cs : List Char} (h : c ∈ withoutMark cs) :
    c ∈ cs := by
  rw [withoutMark.eq_def] at h
  split at h
  · exact List.mem_cons_of_mem _ h
  · exact h

/-- A byte order mark is not a zero character, so taking it off loses none. -/
private theorem zero_mem_withoutMark {cs : List Char} (h : '\x00' ∈ cs) :
    '\x00' ∈ withoutMark cs := by
  rw [withoutMark.eq_def]
  split
  · simpa using h
  · exact h

/-- A piece with a zero byte is a comment or a quoted literal. -/
theorem Lexed.IsZeroFree.zero_notMem {lexed : Lexed} (h : lexed.IsZeroFree) {x : Piece}
    {placed : List Placed} {finish : Location} {pending : Bool}
    (hshape : ∀ p ∈ placed, p.lexeme.HasShape)
    (htokens : lexed.tokens = Piece.tokensOf (layout finish pending placed))
    (hcomments : lexed.comments = Piece.commentsOf (layout finish pending placed))
    (hx : x ∈ layout finish pending placed) : '\x00' ∉ x.text := by
  intro hzero
  -- white space has no zero byte, and an implied semicolon has no text
  cases x with
  | blank c =>
    obtain rfl := List.mem_singleton.mp hzero
    simpa [Piece.IsSpacing] using isSpacing_of_mem_layout hshape finish pending _ hx
  | comment c => exact h.comments c (hcomments ▸ Piece.mem_commentsOf.mpr hx) hzero
  | token t =>
    have ht := Piece.mem_tokensOf.mpr hx
    rcases mem_tokensOf_layout ht with himplied | ⟨p, hp, kind, hcls, rfl⟩
    · simp [Piece.text, Token.span, himplied] at hzero
    · rw [Piece.text, Token.span_of_isImplied_eq_false (Placed.isImplied_token (hshape p hp) hcls),
        Placed.token, String.toList_ofList] at hzero
      have hliteral := (hshape p hp).isLiteral_of_zero_mem hcls hzero
      refine h.literals _ (htokens ▸ ht) hliteral ?_
      rwa [Placed.token, String.toList_ofList]

/-- A text that can be read has a zero byte only in a comment or in a quoted literal. -/
theorem Lexed.isZeroFree_iff {file source : String} {lexed : Lexed}
    (h : tokenize file source = .ok lexed) : lexed.IsZeroFree ↔ '\x00' ∉ source.toList := by
  obtain ⟨placed, finish, hplaced, rfl⟩ := exists_lexemes_of_tokenize h
  have hlaid := isLaidOut_layout hplaced
  have hshape : ∀ p ∈ placed, p.lexeme.HasShape := fun p hp =>
    (hasShape_of_mem_lexemes hplaced p hp).1
  constructor
  · intro hfree hzero
    have hmem := zero_mem_withoutMark hzero
    rw [← hlaid.text, Piece.mem_textOf] at hmem
    obtain ⟨x, hx, hzero⟩ := hmem
    exact hfree.zero_notMem hshape rfl rfl hx hzero
  · intro hfree
    have hpiece : ∀ x ∈ layout finish false placed, '\x00' ∉ x.text := fun x hx hzero =>
      hfree (mem_of_mem_withoutMark (hlaid.text ▸ Piece.mem_textOf.mpr ⟨x, hx, hzero⟩))
    refine ⟨fun c hc => hpiece _ (Piece.mem_commentsOf.mp hc), fun t ht hkind => ?_⟩
    have himplied : t.isImplied = false := by
      rcases hkind with hkind | hkind <;> simp [Token.isImplied, hkind]
    rw [← Token.span_of_isImplied_eq_false himplied]
    exact hpiece _ (Piece.mem_tokensOf.mp ht)

/-! ### What the digest is taken of -/

/-- Where two lists go up to the same separator for the first time, they are equal on both sides of
it. -/
theorem append_cons_inj {α : Type} {a : α} {xs ys us vs : List α} (hxs : a ∉ xs) (hys : a ∉ ys)
    (h : xs ++ a :: us = ys ++ a :: vs) : xs = ys ∧ us = vs := by
  induction xs generalizing ys with
  | nil =>
    cases ys with
    | nil => exact ⟨rfl, (List.cons.inj h).2⟩
    | cons y ys => exact absurd (List.cons.inj h).1 (List.ne_of_not_mem_cons hys)
  | cons x xs ih =>
    cases ys with
    | nil => exact absurd (List.cons.inj h).1.symm (List.ne_of_not_mem_cons hxs)
    | cons y ys =>
      obtain ⟨rfl, htail⟩ := List.cons.inj h
      obtain ⟨rfl, hus⟩ := ih (List.not_mem_of_not_mem_cons hxs)
        (List.not_mem_of_not_mem_cons hys) htail
      exact ⟨rfl, hus⟩

/-- The name and the text of the source have no zero byte. -/
def Source.IsZeroFree (s : Source) : Prop := '\x00' ∉ s.name.toList ∧ '\x00' ∉ s.text.toList

namespace Package

/-- The first file comes first, and its name and its text end with zero bytes. -/
private theorem digestInput_cons (source : Source) (rest : List Source) :
    digestInput (source :: rest) =
      source.name.toUTF8.toList ++ 0 :: (source.text.toUTF8.toList ++ 0 :: digestInput rest) := by
  simp [digestInput]

/-- Names and texts without zero bytes can be told from what the digest is taken of. -/
theorem digestInput_inj {sources others : List Source} (hsources : ∀ s ∈ sources, s.IsZeroFree)
    (hothers : ∀ s ∈ others, s.IsZeroFree) (h : digestInput sources = digestInput others) :
    sources = others := by
  induction sources generalizing others with
  | nil =>
    cases others with
    | nil => rfl
    | cons b bs => simp [digestInput] at h
  | cons a as ih =>
    cases others with
    | nil => simp [digestInput] at h
    | cons b bs =>
      obtain ⟨⟨haname, hatext⟩, has⟩ := List.forall_mem_cons.mp hsources
      obtain ⟨⟨hbname, hbtext⟩, hbs⟩ := List.forall_mem_cons.mp hothers
      rw [digestInput_cons, digestInput_cons] at h
      -- a name, and then a text, ends at the first zero byte on both sides
      obtain ⟨hname, h⟩ := append_cons_inj (mt Text.zero_mem_toUTF8.mp haname)
        (mt Text.zero_mem_toUTF8.mp hbname) h
      obtain ⟨htext, h⟩ := append_cons_inj (mt Text.zero_mem_toUTF8.mp hatext)
        (mt Text.zero_mem_toUTF8.mp hbtext) h
      have hab : a = b :=
        congrArg₂ Source.mk (Text.toList_toUTF8_inj hname) (Text.toList_toUTF8_inj htext)
      rw [hab, ih has hbs h]

/-- Two files have the same digest as one file that has the name and the text of the second one in
its own text. -/
theorem digestInput_glued (name text other rest : String) (sources : List Source) :
    digestInput (⟨name, text ++ "\x00" ++ other ++ "\x00" ++ rest⟩ :: sources) =
      digestInput (⟨name, text⟩ :: ⟨other, rest⟩ :: sources) := by
  have hzero : "\x00".toList.flatMap String.utf8EncodeChar = [0] := by decide
  simp only [digestInput_cons, Text.toList_toUTF8, String.toList_append, List.flatMap_append, hzero,
    List.append_assoc, List.cons_append, List.nil_append]

/-- Files that can be read have texts that consist of tokens. -/
theorem exists_tokenize_of_parseAll {sources : List Source} {files : List SourceFile}
    (h : parseAll sources = .ok files) :
    ∀ s ∈ sources, ∃ lexed, tokenize s.name s.text = .ok lexed := by
  intro s hs
  obtain ⟨file, hfile⟩ := exists_parse_of_parseAll h s hs
  obtain ⟨lexed, -, hlexed, -⟩ := SourceFile.exists_tokenize_of_parse hfile
  exact ⟨lexed, hlexed⟩

/-- Sources that can be read have no zero byte if their names, comments and quoted literals have
none. -/
theorem isZeroFree_of_load {sources : List Source} {p : Package} (h : load sources = .ok p)
    (hnames : ∀ s ∈ sources, '\x00' ∉ s.name.toList)
    (htexts : ∀ s ∈ sources, ∀ lexed, tokenize s.name s.text = .ok lexed → lexed.IsZeroFree) :
    ∀ s ∈ inNameOrder sources, s.IsZeroFree := by
  intro s hs
  obtain ⟨lexed, hlexed⟩ := exists_tokenize_of_parseAll (parseAll_of_load h) s hs
  have hmem := (sortBy_perm _ sources).mem_iff.mp hs
  exact ⟨hnames s hmem, (Lexed.isZeroFree_iff hlexed).mp (htexts s hmem lexed hlexed)⟩

/-- **The digest stands for the files.** If no name, no comment and no quoted literal of two lists
of sources has a zero byte, then the sources in the order of their names are what the digest of a
package is taken of. -/
theorem inNameOrder_eq_of_digestInput_eq {sources others : List Source} {p q : Package}
    (hp : load sources = .ok p) (hq : load others = .ok q)
    (hnames : ∀ s ∈ sources ++ others, '\x00' ∉ s.name.toList)
    (htexts : ∀ s ∈ sources ++ others, ∀ lexed, tokenize s.name s.text = .ok lexed →
      lexed.IsZeroFree)
    (h : digestInput (inNameOrder sources) = digestInput (inNameOrder others)) :
    inNameOrder sources = inNameOrder others := by
  obtain ⟨hsourceNames, hotherNames⟩ := List.forall_mem_append.mp hnames
  obtain ⟨hsourceTexts, hotherTexts⟩ := List.forall_mem_append.mp htexts
  exact digestInput_inj (isZeroFree_of_load hp hsourceNames hsourceTexts)
    (isZeroFree_of_load hq hotherNames hotherTexts) h

/-- A file with a comment and a quoted literal. -/
def annotatedSource : Source := ⟨"a.go", "package app // home\nvar title = `home`\n"⟩

/-- A file with nothing but its package name. -/
def plainSource : Source := ⟨"b.go", "package app\n"⟩

private theorem exists_of_isSome_load {sources : List Source} (h : (load sources).toOption.isSome) :
    ∃ p, load sources = .ok p := by
  cases hload : load sources with
  | error e =>
    rw [hload] at h
    cases h
  | ok p => exact ⟨p, rfl⟩

set_option maxRecDepth 100000 in
/-- Both orders of the sources load. -/
private theorem isSome_load_annotatedSource :
    (load [plainSource, annotatedSource]).toOption.isSome ∧
      (load [annotatedSource, plainSource]).toOption.isSome := by
  unfold load
  decide +kernel

/-- Two sources without zero bytes have one digest input in either order, and are the same in the
order of their names. -/
theorem inNameOrder_eq_of_digestInput_eq_annotatedSource :
    ∃ p q, load [plainSource, annotatedSource] = .ok p ∧
      load [annotatedSource, plainSource] = .ok q ∧
      inNameOrder [plainSource, annotatedSource] = inNameOrder [annotatedSource, plainSource] := by
  obtain ⟨p, hp⟩ := exists_of_isSome_load isSome_load_annotatedSource.1
  obtain ⟨q, hq⟩ := exists_of_isSome_load isSome_load_annotatedSource.2
  have hfree : ∀ s ∈ [plainSource, annotatedSource] ++ [annotatedSource, plainSource],
      s.IsZeroFree := by
    simp only [Source.IsZeroFree]
    decide
  refine ⟨p, q, hp, hq, inNameOrder_eq_of_digestInput_eq hp hq (fun s hs => (hfree s hs).1)
    (fun s hs lexed hlexed => (Lexed.isZeroFree_iff hlexed).mpr (hfree s hs).2) ?_⟩
  exact congrArg digestInput (by decide)

/-- A file with the name and the text of `plainSource` in a comment. -/
def gluedSource : Source :=
  ⟨"a.go", "package app\n//" ++ "\x00" ++ "b.go" ++ "\x00" ++ "package app\n"⟩

/-- The file `gluedSource` up to its first zero byte. -/
def openSource : Source := ⟨"a.go", "package app\n//"⟩

set_option maxRecDepth 100000 in
/-- Both the single file and the two files load. -/
private theorem isSome_load_gluedSource :
    (load [gluedSource]).toOption.isSome ∧ (load [openSource, plainSource]).toOption.isSome := by
  unfold load
  decide +kernel

/-- In general the digest does not stand for the files: a comment may have zero bytes. -/
theorem not_forall_inNameOrder_eq :
    ¬ ∀ (sources others : List Source) (p q : Package),
      load sources = .ok p → load others = .ok q →
      (sources.map Source.name).Nodup → (others.map Source.name).Nodup →
      (∀ s ∈ sources ++ others, '\x00' ∉ s.name.toList) →
      digestInput (inNameOrder sources) = digestInput (inNameOrder others) →
      inNameOrder sources = inNameOrder others := by
  intro hall
  obtain ⟨p, hp⟩ := exists_of_isSome_load isSome_load_gluedSource.1
  obtain ⟨q, hq⟩ := exists_of_isSome_load isSome_load_gluedSource.2
  have horder : inNameOrder [openSource, plainSource] = [openSource, plainSource] := by
    decide
  have hlength := congrArg List.length (hall _ _ p q hp hq (by decide) (by decide) (by decide)
    (horder ▸ digestInput_glued "a.go" "package app\n//" "b.go" "package app\n" []))
  rw [horder] at hlength
  exact absurd hlength (by decide)

end Package

end GoPages
