import GoPages.Proofs.Parser.Scans
import GoPages.Proofs.Token.Places

/-!
# Places that parsers keep

A parser leaves a suffix of its tokens. `Parser.Marks` says more: the value that it gives keeps
places of tokens that have been read, or places that were kept before. The rules follow the way
parsers are put together: `marks_pure`, `marks_bind` and `marks_many`. `Parser.MarksAt` is the same
for a single cursor, whose next token is known.

Values that are read one after the other have no place in common, because every token is read once
(`marks_many_pairwise`).
-/

namespace GoPages

namespace Parser

variable {α β : Type} {before : List Location} {places : α → List Location} {c : Cursor}

/-- From the cursor the parser reads tokens, and its value keeps no places but those in `before` and
those of tokens that it has read. -/
def MarksAt (c : Cursor) (before : List Location) (places : α → List Location) (p : Parser α) :
    Prop :=
  ∀ a c', p c = .ok (a, c') →
    ∃ read, c.left = read ++ c'.left ∧ places a ⊆ before ++ tokenPlaces read

/-- From every cursor the parser keeps no places but those in `before` and those of tokens that it
has read. -/
def Marks (before : List Location) (places : α → List Location) (p : Parser α) : Prop :=
  ∀ c, p.MarksAt c before places

/-! ### Rules -/

/-- A parser whose value has no places keeps those that were kept before. -/
theorem Steps.marks {p : Parser α} (h : p.Steps) (before : List Location) :
    p.Marks before fun _ => before := by
  intro c a c' hp
  obtain ⟨read, hread⟩ := h.reads c a c' hp
  exact ⟨read, hread, List.subset_append_left _ _⟩

/-- A value keeps its places if these were kept before. -/
theorem marks_pure {a : α} (h : places a ⊆ before) : Marks before places (pure a) := by
  intro c a' c' hp
  cases hp
  exact ⟨[], rfl, List.subset_append_of_subset_left _ h⟩

/-- Parsers in sequence keep what the second one keeps of the first. -/
theorem marksAt_bind {kept : α → List Location} {places : β → List Location} {p : Parser α}
    {q : α → Parser β} (hp : p.MarksAt c before kept) (hq : ∀ a, (q a).Marks (kept a) places) :
    (p >>= q).MarksAt c before places := by
  intro b c'' h
  obtain ⟨a, c', hc, h⟩ := exists_of_bind h
  obtain ⟨read, hread, hkept⟩ := hp a c' hc
  obtain ⟨more, hmore, hplaces⟩ := hq a c' b c'' h
  refine ⟨read ++ more, by rw [hread, hmore, List.append_assoc], fun l hl => ?_⟩
  rw [tokenPlaces_append, ← List.append_assoc]
  rcases List.mem_append.mp (hplaces hl) with hl | hl
  · exact List.mem_append_left _ (hkept hl)
  · exact List.mem_append_right _ hl

theorem marks_bind {kept : α → List Location} {places : β → List Location} {p : Parser α}
    {q : α → Parser β} (hp : p.Marks before kept) (hq : ∀ a, (q a).Marks (kept a) places) :
    (p >>= q).Marks before places :=
  fun c => marksAt_bind (hp c) hq

/-- What follows may know the next token. -/
theorem marksAt_tok {k : Token → Parser α} (h : (k c.tok).MarksAt c before places) :
    (tok >>= k).MarksAt c before places := h

/-- A choice keeps what both sides keep. -/
theorem marks_ite {b : Prop} [Decidable b] {p q : Parser α} (hp : p.Marks before places)
    (hq : q.Marks before places) : (if b then p else q).Marks before places := by
  split
  · exact hp
  · exact hq

/-- Two branches that go on in the same way. -/
theorem marks_join (kept : α → List Location) {b : Prop} [Decidable b]
    {places : β → List Location} {p q : Parser β} {k : α → Parser β}
    (hp : (∀ a, (k a).Marks (kept a) places) → p.Marks before places)
    (hq : (∀ a, (k a).Marks (kept a) places) → q.Marks before places)
    (hk : ∀ a, (k a).Marks (kept a) places) : (if b then p else q).Marks before places :=
  marks_ite (hp hk) (hq hk)

/-- What was kept before is kept still. -/
theorem Marks.keep {p : Parser α} (h : p.Marks [] places) (before : List Location) :
    p.Marks before fun a => before ++ places a := by
  intro c a c' hp
  obtain ⟨read, hread, hkept⟩ := h c a c' hp
  exact ⟨read, hread, List.append_subset.mpr ⟨List.subset_append_left _ _,
    List.subset_append_of_subset_right _ hkept⟩⟩

theorem marks_fail (fault : SyntaxFault) : (fail fault : Parser α).Marks before places :=
  fun _ _ _ hp => nomatch hp

theorem marks_failExpected (what : String) : (failExpected what : Parser α).Marks before places :=
  fun _ _ _ hp => nomatch hp

/-- The place of a token that is seen may be kept when the token is read. -/
theorem marksAt_advance (hkind : c.tok.kind ≠ .eof) (hsemi : c.tok.kind ≠ .semicolon) :
    advance.MarksAt c before fun _ => before ++ [c.tok.location] := by
  intro a c' hp
  cases hp
  cases hleft : c.left with
  | nil => simp [Cursor.tok, Cursor.firstOf, Token.endOfFile, hleft] at hkind
  | cons t rest =>
    have htok : c.tok = t := by rw [Cursor.tok, hleft, Cursor.firstOf]
    rw [htok] at hsemi ⊢
    refine ⟨[t], by rw [left_advance, hleft]; rfl, ?_⟩
    simp [tokenPlaces, hsemi]

/-- The place of a name that is read may be kept. -/
theorem marks_ident : ident.Marks before fun id => before ++ [id.location] := by
  intro c id c' hp
  obtain ⟨hkind, rfl, rfl⟩ := ident_eq_ok_iff.mp hp
  exact marksAt_advance (by simp [hkind]) (by simp [hkind]) () _ rfl

/-- Of values that are read one after the other, each has the places of its own tokens. -/
theorem marks_many_pairwise {step : Parser (Option α)}
    (h : step.Marks [] fun a => a.toList.flatMap places) {as : List α} {c' : Cursor}
    (hmany : many step c = .ok (as, c')) :
    ∃ read, c.left = read ++ c'.left ∧ as.flatMap places ⊆ tokenPlaces read ∧
      ((tokenPlaces read).Pairwise Location.Precedes →
        as.Pairwise fun a b => ∀ l ∈ places a, ∀ m ∈ places b, l.Precedes m) := by
  change manyFrom step c = .ok (as, c') at hmany
  fun_induction manyFrom step c generalizing as c' with
  | case1 => cases hmany
  | case2 c c₁ hstep =>
    cases hmany
    obtain ⟨read, hread, -⟩ := h _ _ _ hstep
    exact ⟨read, hread, by simp, fun _ => .nil⟩
  | case3 => cases hmany
  | case4 c a c₁ hstep hsize as' c₂ hrest ih =>
    cases hmany
    obtain ⟨read, hread, hplaces⟩ := h _ _ _ hstep
    obtain ⟨more, hmore, hothers, hapart⟩ := ih hrest
    simp only [Option.toList_some, List.flatMap_cons, List.flatMap_nil, List.append_nil,
      List.nil_append] at hplaces
    refine ⟨read ++ more, by rw [hread, hmore, List.append_assoc], ?_, fun hpairwise => ?_⟩
    · rw [List.flatMap_cons, tokenPlaces_append]
      exact List.append_subset.mpr ⟨List.subset_append_of_subset_left _ hplaces,
        List.subset_append_of_subset_right _ hothers⟩
    · -- the tokens of a value stand before those of all later ones
      rw [tokenPlaces_append, List.pairwise_append] at hpairwise
      refine List.pairwise_cons.mpr ⟨fun b hb l hl m hm => ?_, hapart hpairwise.2.1⟩
      exact hpairwise.2.2 l (hplaces hl) m (hothers (List.mem_flatMap.mpr ⟨b, hb, hm⟩))
  | case5 => cases hmany

/-- A repeated step keeps the places of its values. -/
theorem marks_many {step : Parser (Option α)}
    (h : step.Marks [] fun a => a.toList.flatMap places) :
    (many step).Marks [] fun as => as.flatMap places := by
  intro c as c' hp
  obtain ⟨read, hread, hplaces, -⟩ := marks_many_pairwise h hp
  exact ⟨read, hread, hplaces⟩

end Parser

end GoPages
