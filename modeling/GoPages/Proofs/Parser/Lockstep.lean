import GoPages.Proofs.Parser.Takes
import GoPages.Proofs.Parser.Types
import GoPages.Proofs.TypeExpr.Parts

/-!
# Parsers in lockstep

What follows the end of a statement does not matter to what is read before it. Two cursors are alike
(`Cursor.Alike`) if they stand before tokens of the same spellings up to the end of a statement.
`Parser.Agrees f p q` says that `q` keeps pace with `p`: from cursors that are alike, where `p`
gives a value and does not pass the end of the statement, `q` gives a value with the same `f`, and
the cursors after it are alike again.

The parsers look ahead no further than to the token after a bracket that closes an open one. So it
is asked that the tokens are the end of balanced ones (`EndsBalanced`): then every bracket that is
opened before the end of the statement is closed before it.

The rules follow the way parsers are put together, as those of `Parser.Takes` do.
-/

namespace GoPages

/-- The end of a statement at the end of a line. -/
def lineEnd : Spelling := (.semicolon, "\n")

/-! ### The ends of balanced tokens -/

/-- The tokens are the end of balanced ones. -/
def EndsBalanced (ss : List Spelling) : Prop := ∃ before, Balanced (before ++ ss)

/-- Balanced tokens are the end of balanced ones. -/
theorem Balanced.endsBalanced {ss : List Spelling} (h : Balanced ss) : EndsBalanced ss := ⟨[], h⟩

namespace EndsBalanced

variable {x : Spelling} {ss ss' : List Spelling}

/-- The end of such an end is one, too. -/
private theorem of_append (h : EndsBalanced (ss ++ ss')) : EndsBalanced ss' := by
  obtain ⟨before, h⟩ := h
  exact ⟨before ++ ss, by rwa [List.append_assoc]⟩

/-- So is what is left after a token. -/
theorem tail (h : EndsBalanced (x :: ss)) : EndsBalanced ss := @of_append [x] ss h

/-- A bracket that is opened is closed. -/
theorem exists_closing {pair : String × String} (hpair : pair ∈ bracketPairs)
    (h : EndsBalanced ((.op, pair.1) :: ss)) :
    ∃ inner rest, ss = inner ++ (.op, pair.2) :: rest ∧ Balanced inner := by
  obtain ⟨before, h⟩ := h
  generalize hts : before ++ (.op, pair.1) :: ss = ts at h
  induction h generalizing before ss with
  | nil => simp at hts
  | plain hx _ ih =>
    cases before with
    | nil =>
      obtain ⟨rfl, -⟩ := List.cons.inj hts
      rw [(isBracket_of_mem hpair).1] at hx
      cases hx
    | cons y before => exact ih before (List.cons.inj hts).2
  | @group pair' inner' ss' hpair' hinner' _ ihinner ih =>
    have hne := opening_ne_closing hpair hpair'
    cases before with
    | nil =>
      obtain ⟨heq, rfl⟩ := List.cons.inj hts
      obtain rfl := eq_of_opening_eq hpair hpair' (Prod.mk.inj heq).2
      exact ⟨inner', ss', rfl, hinner'⟩
    | cons y before =>
      -- the bracket stands inside the group, or after it
      rcases List.append_eq_append_iff.mp (List.cons.inj hts).2 with
        ⟨more, rfl, hmore⟩ | ⟨more, rfl, hmore⟩
      · cases more with
        | nil => exact absurd (Prod.mk.inj (List.cons.inj hmore).1).2 hne
        | cons z more =>
          obtain ⟨rfl, rfl⟩ := List.cons.inj hmore
          obtain ⟨inner, rest, rfl, hinner⟩ := ihinner before rfl
          exact ⟨inner, rest ++ (.op, pair'.2) :: ss', by simp, hinner⟩
      · cases more with
        | nil => exact absurd (Prod.mk.inj (List.cons.inj hmore).1).2.symm hne
        | cons z more => exact ih more (List.cons.inj hmore).2.symm

end EndsBalanced

theorem Token.isOp_congr {t t' : Token} (h : t'.spelling = t.spelling) (op : String) :
    t'.isOp op = t.isOp op := isOp_of_spelling h op

/-! ### Cursors -/

/-- The cursors stand before tokens of the same spellings, up to the end of a statement. `more` and
`more'` are what follows it. -/
def Cursor.Alike (more more' : List Spelling) (c d : Cursor) : Prop :=
  ∃ ss, EndsBalanced ss ∧ c.spellings = ss ++ lineEnd :: more ∧ d.spellings = ss ++ lineEnd :: more'

namespace Cursor.Alike

variable {more more' : List Spelling} {c d : Cursor}

/-- Cursors that are alike stand at tokens of one spelling. -/
theorem tok (h : c.Alike more more' d) : d.tok.spelling = c.tok.spelling := by
  obtain ⟨ss, -, hc, hd⟩ := h
  rw [c.spelling_tok, d.spelling_tok, hc, hd]
  cases ss <;> rfl

/-- Before the end of the statement there is a token that both cursors see. -/
theorem exists_cons (h : c.Alike more more' d) (hkind : c.tok.kind ≠ .semicolon) :
    ∃ x ss, EndsBalanced (x :: ss) ∧ c.spellings = x :: (ss ++ lineEnd :: more) ∧
      d.spellings = x :: (ss ++ lineEnd :: more') := by
  obtain ⟨_ | ⟨x, ss⟩, hss, hc, hd⟩ := h
  · have htok := c.spelling_tok
    rw [hc] at htok
    exact absurd (Token.kind_of_spelling htok) hkind
  · exact ⟨x, ss, hss, hc, hd⟩

/-- So are the tokens after these, unless the statement ends there. -/
theorem peek_one (h : c.Alike more more' d) (hkind : c.tok.kind ≠ .semicolon) :
    (d.peek 1).spelling = (c.peek 1).spelling := by
  obtain ⟨x, ss, -, hc, hd⟩ := h.exists_cons hkind
  rw [c.spelling_peek, d.spelling_peek, hc, hd]
  cases ss <;> rfl

/-- Both cursors see the same token after the brackets that follow the next token. -/
theorem exists_afterBracket? (h : c.Alike more more' d) (hkind : c.tok.kind ≠ .semicolon)
    (hbracket : (c.peek 1).isOp "[" = true) :
    ∃ t t', c.afterBracket? 1 = some t ∧ d.afterBracket? 1 = some t' ∧
      t'.spelling = t.spelling ∧ (d.peek 2).spelling = (c.peek 2).spelling := by
  have hpair : ("[", "]") ∈ bracketPairs := by decide
  obtain ⟨x, ss, hss, hc, hd⟩ := h.exists_cons hkind
  rw [Token.isOp_iff_of_spelling (c.spelling_peek 1), hc, List.drop_one, List.tail_cons] at hbracket
  cases ss with
  | nil => cases hbracket
  | cons y ss =>
    obtain rfl : y = (.op, "[") := hbracket
    -- up to the next semicolon both see the same tokens, and the bracket is closed before it
    obtain ⟨inner, rest, rfl, hinner⟩ := hss.tail.exists_closing hpair
    simp only [List.append_assoc, List.cons_append] at hc hd
    obtain ⟨t, ht, htok⟩ := Parser.exists_afterBracket? hinner hc
    obtain ⟨t', ht', htok'⟩ := Parser.exists_afterBracket? hinner hd
    refine ⟨t, t', ht, ht', ?_, ?_⟩
    · rw [htok, htok']
      cases rest <;> rfl
    · rw [c.spelling_peek, d.spelling_peek, hc, hd]
      cases inner <;> rfl

/-- The look behind the type arguments of a name finds the same. -/
theorem startsGeneric (h : c.Alike more more' d) (hkind : c.tok.kind ≠ .semicolon)
    (hbracket : (c.peek 1).isOp "[" = true) :
    Parser.startsGeneric d = Parser.startsGeneric c := by
  obtain ⟨t, t', ht, ht', htok, hpeek⟩ := h.exists_afterBracket? hkind hbracket
  simp only [Parser.startsGeneric, ht, ht', Token.isOp_congr htok, Token.isOp_congr hpeek]

/-- The look for an embedded field finds the same. -/
theorem startsEmbedded (h : c.Alike more more' d) (hkind : c.tok.kind ≠ .semicolon) :
    Parser.startsEmbedded d = Parser.startsEmbedded c := by
  have hends {t t' : Token} (ht : t'.spelling = t.spelling) :
      Parser.endsField t' = Parser.endsField t := by
    rw [Parser.endsField, Token.kind_of_spelling ht, Token.isOp_congr ht]
    rfl
  have hpeek := h.peek_one hkind
  rw [Parser.startsEmbedded, Parser.startsEmbedded, hends hpeek, Token.isOp_congr hpeek,
    Token.isOp_congr hpeek]
  by_cases hbracket : (c.peek 1).isOp "[" = true
  · obtain ⟨t, t', ht, ht', htok, hpeek⟩ := h.exists_afterBracket? hkind hbracket
    simp only [ht, ht', hends htok, Token.isOp_congr hpeek]
  · rw [if_neg hbracket, if_neg hbracket]

/-- Cursors stay alike before the end of the statement. -/
theorem advance (h : c.Alike more more' d) (hsize : more.length < c.advance.size) :
    c.advance.Alike more more' d.advance := by
  obtain ⟨ss, hss, hc, hd⟩ := h
  rw [Cursor.size_eq, c.spellings_advance, hc] at hsize
  cases ss with
  | nil => exact absurd hsize (lt_irrefl _)
  | cons x ss =>
    refine ⟨ss, hss.tail, ?_, ?_⟩
    · rw [c.spellings_advance, hc, List.cons_append, List.tail_cons]
    · rw [d.spellings_advance, hd, List.cons_append, List.tail_cons]

/-- If one cursor has moved, so has the other. -/
theorem size_lt {c' d' : Cursor} (h : c.Alike more more' d) (h' : c'.Alike more more' d')
    (hread : c'.size < c.size) : d'.size < d.size := by
  obtain ⟨ss, -, hc, hd⟩ := h
  obtain ⟨ss', -, hc', hd'⟩ := h'
  rw [c.size_eq, c'.size_eq, hc, hc', List.length_append, List.length_append] at hread
  rw [d.size_eq, d'.size_eq, hd, hd', List.length_append, List.length_append]
  simp only [List.length_cons] at hread ⊢
  omega

end Cursor.Alike

namespace Parser

variable {α β γ δ σ τ : Type}

/-- From the cursors `c` and `d`, `q` gives what `p` gives, as far as `f` tells, unless `p` passes
the end of the statement. -/
def AgreesAt (f : α → γ) (more more' : List Spelling) (c d : Cursor) (p q : Parser α) : Prop :=
  ∀ a c', p c = .ok (a, c') → more.length < c'.size →
    ∃ a' d', q d = .ok (a', d') ∧ f a' = f a ∧ c'.Alike more more' d'

/-- From cursors that are alike, `q` gives what `p` gives. -/
structure Agrees (f : α → γ) (p q : Parser α) : Prop where
  size_le : ∀ c a c', p c = .ok (a, c') → c'.size ≤ c.size
  agreesAt : ∀ {more more' c d}, c.Alike more more' d → AgreesAt f more more' c d p q

variable {f : α → γ} {g : β → δ} {p q p' q' : Parser α}

/-! ### Rules -/

/-- Values that are the same are given alike. -/
theorem agrees_pure {a a' : α} (h : f a' = f a) : Agrees f (pure a) (pure a') := by
  refine ⟨fun c b c' hp => ?_, fun {more more' c d} hcd b c' hp _ => ?_⟩
  · cases hp
    exact le_rfl
  · cases hp
    exact ⟨a', d, rfl, h, hcd⟩

/-- Parsers in sequence keep pace if each of them does. -/
theorem agrees_bind {k k' : α → Parser β} (h : Agrees f p q)
    (hk : ∀ a a', f a' = f a → Agrees g (k a) (k' a')) : Agrees g (p >>= k) (q >>= k') := by
  refine ⟨fun c b c'' hp => ?_, fun {more more' c d} hcd b c'' hp hsize => ?_⟩
  · obtain ⟨a, c', hp, hk'⟩ := exists_of_bind hp
    exact ((hk a a rfl).size_le c' b c'' hk').trans (h.size_le c a c' hp)
  · obtain ⟨a, c', hp, hk'⟩ := exists_of_bind hp
    have hsize' := hsize.trans_le ((hk a a rfl).size_le c' b c'' hk')
    obtain ⟨a', d', hq, ha, hcd'⟩ := h.agreesAt hcd a c' hp hsize'
    rw [bind_of_ok hq]
    exact (hk a a' ha).agreesAt hcd' b c'' hk' hsize

/-- A parser that always fails agrees with every parser. -/
theorem agrees_of_error (h : ∀ c, ∃ e, p c = .error e) (q : Parser α) : Agrees f p q := by
  have hnone {c : Cursor} {a : α} {c' : Cursor} (hp : p c = .ok (a, c')) : False := by
    obtain ⟨e, he⟩ := h c
    rw [hp] at he
    cases he
  exact ⟨fun c a c' hp => (hnone hp).elim, fun _ a c' hp _ => (hnone hp).elim⟩

/-- A parser that fails gives no value to keep pace with. -/
theorem agrees_fail (fault : SyntaxFault) (q : Parser α) : Agrees f (fail fault) q :=
  agrees_of_error (fun _ => ⟨_, rfl⟩) q

private theorem agrees_failAt (l : Location) (fault : SyntaxFault) (q : Parser α) :
    Agrees f (failAt l fault) q :=
  agrees_of_error (fun _ => ⟨_, rfl⟩) q

theorem agrees_failExpected (what : String) (q : Parser α) : Agrees f (failExpected what) q :=
  agrees_of_error (fun _ => ⟨_, rfl⟩) q

theorem agrees_ite {b : Prop} [Decidable b] (h : Agrees f p q) (h' : Agrees f p' q') :
    Agrees f (if b then p else p') (if b then q else q') := by
  split
  · exact h
  · exact h'

/-- A look that finds the same from cursors that are alike keeps pace. -/
theorem agrees_look {v : Cursor → α}
    (h : ∀ {more more' c d}, c.Alike more more' d → f (v d) = f (v c)) :
    Agrees f (look v) (look v) := by
  refine ⟨fun c a c' hp => ?_, fun {more more' c d} hcd a c' hp _ => ?_⟩
  · cases hp
    exact le_rfl
  · cases hp
    exact ⟨v d, d, rfl, h hcd, hcd⟩

/-- What follows may look at the same cursors again. -/
theorem agreesAt_look {v v' : Cursor → α} {k k' : α → Parser β} {more more' : List Spelling}
    {c d : Cursor} (h : AgreesAt g more more' c d (k (v c)) (k' (v' d))) :
    AgreesAt g more more' c d (look v >>= k) (look v' >>= k') := h

/-- The next tokens differ at most in their places. -/
theorem agrees_tok {k k' : Token → Parser β}
    (hk : ∀ kind text l l', Agrees g (k ⟨kind, text, l⟩) (k' ⟨kind, text, l'⟩)) :
    Agrees g (tok >>= k) (tok >>= k') := by
  refine agrees_bind (f := Token.spelling) (agrees_look fun hcd => hcd.tok) ?_
  rintro ⟨kind, text, l⟩ ⟨kind', text', l'⟩ h
  cases h
  exact hk kind text l l'

private theorem agrees_advance : Agrees id advance advance := by
  refine ⟨fun c _ c' hp => steps_advance.reads.size_le hp,
    fun {more more' c d} hcd _ c' hp hsize => ?_⟩
  cases hp
  exact ⟨(), d.advance, rfl, rfl, hcd.advance hsize⟩

theorem agrees_advance_bind {k k' : Unit → Parser β} (h : Agrees g (k ()) (k' ())) :
    Agrees g (advance >>= k) (advance >>= k') :=
  agrees_bind agrees_advance fun _ _ _ => h

/-- A loop keeps pace if each of its rounds does. -/
private theorem agrees_loop {φ : σ → τ} {step step' : σ → Parser (σ ⊕ α)}
    (h : ∀ s s', φ s' = φ s → Agrees (Sum.map φ f) (step s) (step' s')) {s s' : σ}
    (hs : φ s' = φ s) : Agrees f (loop step s) (loop step' s') := by
  have hle (s : σ) (c : Cursor) (a : α) (c' : Cursor) (hp : loop step s c = .ok (a, c')) :
      c'.size ≤ c.size := by
    fun_induction loop step s c with
    | case1 => cases hp
    | case2 s c a' c' hstep =>
      cases hp
      exact (h s s rfl).size_le c _ c' hstep
    | case3 s c s₁ c₁ hstep hread ih => exact (ih hp).trans hread.le
    | case4 => cases hp
  refine ⟨hle s, fun {more more' c d} hcd a c' hp hsize => ?_⟩
  -- both loops make the same rounds
  fun_induction loop step s c generalizing s' d with
  | case1 => cases hp
  | case2 s c a' c' hstep =>
    cases hp
    obtain ⟨r, d', hstep', hr, hcd'⟩ := (h s s' hs).agreesAt hcd _ c' hstep hsize
    cases r with
    | inl s₁ => cases hr
    | inr a' =>
      refine ⟨a', d', ?_, Sum.inr.inj hr, hcd'⟩
      rw [loop, hstep']
  | case3 s c s₁ c₁ hstep hread ih =>
    have hsize' := hsize.trans_le (hle s₁ c₁ a c' hp)
    obtain ⟨r, d₁, hstep', hr, hcd₁⟩ := (h s s' hs).agreesAt hcd _ c₁ hstep hsize'
    cases r with
    | inr a' => cases hr
    | inl s₁' =>
      obtain ⟨a', d', hq, ha, hcd'⟩ := ih (Sum.inl.inj hr) hcd₁ hp
      refine ⟨a', d', ?_, ha, hcd'⟩
      rw [loop, hstep']
      exact (if_pos (hcd.size_lt hcd₁ hread)).trans hq
  | case4 => cases hp

/-- So does a repeated step. -/
theorem agrees_many {step step' : Parser (Option α)} (h : Agrees (Option.map f) step step') :
    Agrees (List.map f) (many step) (many step') := by
  rw [many_eq_loop, many_eq_loop]
  refine agrees_loop (φ := List.map f) (fun as as' has => agrees_bind h ?_) rfl
  rintro (_ | a) (_ | a') ha
  · exact agrees_pure (by simp [has])
  · cases ha
  · cases ha
  · exact agrees_pure (by simpa [has] using ha)

/-! ### Tokens -/

theorem agrees_op (text : String) : Agrees id (op text) (op text) := by
  rw [op_eq]
  exact agrees_tok fun _ _ _ _ => agrees_ite agrees_advance (agrees_failExpected _ _)

theorem agrees_ident : Agrees Ident.unplaced ident ident := by
  rw [ident_eq]
  refine agrees_tok fun kind text l l' => agrees_ite ?_ (agrees_failExpected _ _)
  exact agrees_advance_bind (agrees_pure rfl)

theorem agrees_endOfItem : Agrees id endOfItem endOfItem := by
  rw [endOfItem_eq]
  refine agrees_tok fun kind text l l' => agrees_ite agrees_advance (agrees_ite ?_ ?_)
  · exact agrees_pure rfl
  · exact agrees_failExpected _ _

theorem agrees_skipSemicolons : Agrees id skipSemicolons skipSemicolons := by
  rw [skipSemicolons_eq_loop]
  refine agrees_loop (φ := id) (fun _ _ _ => agrees_tok fun kind text l l' => ?_) rfl
  exact agrees_ite (agrees_advance_bind (agrees_pure rfl)) (agrees_pure rfl)

/-- Before the end of the statement something is left. -/
theorem agrees_isEmpty :
    Agrees id (look fun c => c.left.isEmpty) (look fun c => c.left.isEmpty) := by
  refine agrees_look fun {more more' c d} hcd => ?_
  obtain ⟨ss, -, hc, hd⟩ := hcd
  have hleft {c : Cursor} {ss more : List Spelling} (hc : c.spellings = ss ++ lineEnd :: more) :
      c.left.isEmpty = false := by
    rw [← List.isEmpty_map (f := Token.spelling), ← Cursor.spellings, hc]
    cases ss <;> rfl
  rw [hleft hc, hleft hd]

/-- The state of a loop that cuts tokens, with the spellings of those that have been read. -/
def spellingsRead (s : Nat × List Token) : Nat × List Spelling := (s.1, s.2.map Token.spelling)

private theorem agrees_nextInner (start start' : Location) {s s' : Nat × List Token}
    (hs : spellingsRead s' = spellingsRead s) :
    Agrees (Sum.map spellingsRead (List.map Token.spelling)) (nextInner start s)
      (nextInner start' s') := by
  obtain ⟨depth, read⟩ := s
  obtain ⟨depth', read'⟩ := s'
  obtain ⟨rfl, hread⟩ := Prod.mk.inj hs
  refine agrees_bind agrees_isEmpty ?_
  rintro atEnd _ rfl
  refine agrees_ite (agrees_failAt _ _ _) (agrees_tok fun kind text l l' => ?_)
  have hread' : (⟨kind, text, l'⟩ :: read').map Token.spelling =
      (⟨kind, text, l⟩ :: read).map Token.spelling := congrArg ((kind, text) :: ·) hread
  refine agrees_advance_bind (agrees_ite ?_ (agrees_ite (agrees_ite ?_ ?_) ?_))
  · exact agrees_pure (congrArg (fun read => Sum.inl (depth' + 1, read)) hread')
  · exact agrees_pure (congrArg Sum.inr (by rw [List.map_reverse, List.map_reverse, hread]))
  · exact agrees_pure (congrArg (fun read => Sum.inl (depth' - 1, read)) hread')
  · exact agrees_pure (congrArg (fun read => Sum.inl (depth', read)) hread')

/-- What stands between brackets is read alike. -/
theorem agrees_balanced : Agrees (List.map Token.spelling) balanced balanced := by
  rw [balanced_eq_loop]
  refine agrees_tok fun kind text l l' => agrees_advance_bind ?_
  exact agrees_loop (φ := spellingsRead) (fun s s' hs => agrees_nextInner _ _ hs) rfl

private theorem agrees_nextLength {s s' : Nat × List Token}
    (hs : spellingsRead s' = spellingsRead s) :
    Agrees (Sum.map spellingsRead id) (nextLength s) (nextLength s') := by
  obtain ⟨nested, read⟩ := s
  obtain ⟨nested', read'⟩ := s'
  obtain ⟨rfl, hread⟩ := Prod.mk.inj hs
  have htexts : read'.map Token.text = read.map Token.text := by
    have htext : Token.text = Prod.snd ∘ Token.spelling := rfl
    rw [htext, ← List.map_map, ← List.map_map]
    exact congrArg (List.map Prod.snd) hread
  refine agrees_bind agrees_isEmpty ?_
  rintro atEnd _ rfl
  refine agrees_tok fun kind text l l' => agrees_ite (agrees_failExpected _ _) ?_
  refine agrees_advance_bind (agrees_ite (agrees_pure ?_) (agrees_pure ?_))
  · rw [List.map_reverse, List.map_reverse, htexts]
  · exact congrArg (fun read => Sum.inl (nestedAfter nested' ⟨kind, text, l⟩, (kind, text) :: read))
      hread

/-- So is the length of an array. -/
theorem agrees_arrayLen : Agrees id arrayLen arrayLen := by
  rw [arrayLen_eq_loop]
  exact agrees_loop (φ := spellingsRead) (fun s s' hs => agrees_nextLength hs) rfl

end Parser

end GoPages
