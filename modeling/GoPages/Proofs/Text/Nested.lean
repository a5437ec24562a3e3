import GoPages.Proofs.Text.Quoted

/-!
# Pieces of a text

A text is cut into pieces at a mark, such as a semicolon, if the marks inside brackets and quotes do
not count.

* `Text.quote_append_inj`: where a quoted text ends, and what it quotes, can be read off the text.
* `Text.Nested marks` says of a text that its brackets are closed and that no mark stands outside of
  brackets and quotes. So it is cut off by the first mark after it (`Text.Nested.append_inj`), and
  texts with semicolons between them can be told apart (`Text.eq_of_intercalate_eq`).
-/

namespace GoPages.Text

/-! ### Escapes -/

private theorem digitChar_inj {a b : ℕ} (ha : a < 16) (hb : b < 16)
    (h : a.digitChar = b.digitChar) : a = b := by
  have hall : ∀ a < 16, ∀ b < 16, a.digitChar = b.digitChar → a = b := by decide
  exact hall a ha b hb h

/-- The hexadecimal digits of a number determine it. -/
theorem toDigits_inj {m n : ℕ} (h : Nat.toDigits 16 m = Nat.toDigits 16 n) : m = n := by
  induction m using Nat.strong_induction_on generalizing n with
  | _ m ih =>
    rw [Nat.toDigits_eq_if (n := m) (by decide), Nat.toDigits_eq_if (n := n) (by decide)] at h
    split at h <;> split at h
    · next hm hn => exact digitChar_inj hm hn (List.singleton_inj.mp h)
    · simp [List.singleton_eq_append_iff] at h
    · simp [List.append_eq_singleton_iff] at h
    · next hm hn =>
      obtain ⟨hrest, hlast⟩ := List.append_inj' h rfl
      have hdiv := ih (m / 16) (by omega) hrest
      have hmod := digitChar_inj (Nat.mod_lt _ (by decide)) (Nat.mod_lt _ (by decide))
        (List.singleton_inj.mp hlast)
      omega

/-- The digits of an escape have no brace among them. -/
private theorem brace_notMem_toDigits (n : ℕ) : '\x7d' ∉ Nat.toDigits 16 n := by
  have hall : ∀ a < 16, '\x7d' ≠ a.digitChar := by decide
  induction n using Nat.strong_induction_on with
  | _ n ih =>
    rw [Nat.toDigits_eq_if (by decide)]
    split
    · next hn => exact List.mem_singleton.not.mpr (hall n hn)
    · next hn =>
      rw [List.mem_append, List.mem_singleton, not_or]
      exact ⟨ih (n / 16) (by omega), hall _ (Nat.mod_lt _ (by decide))⟩

/-- The characters that a backslash and a letter stand for. -/
def shortEscapes : List (Char × Char) :=
  [('0', '\x00'), ('t', '\t'), ('r', '\r'), ('n', '\n'), ('\\', '\\'), ('"', '"')]

/-- How a character is written between double quotes: by a letter, by its code, or as it is. -/
theorem escape_cases (c : Char) :
    (∃ d, (d, c) ∈ shortEscapes ∧ escape '"' c = ['\\', d]) ∨ escape '"' c = escapeCode c ∨
      (escape '"' c = [c] ∧ c ≠ '\\' ∧ c ≠ '"') := by
  rw [escape]
  split
  · next h => exact .inl ⟨'0', by simp [h, shortEscapes], rfl⟩
  split
  · next h => exact .inl ⟨'t', by simp [h, shortEscapes], rfl⟩
  split
  · next h => exact .inl ⟨'r', by simp [h, shortEscapes], rfl⟩
  split
  · next h => exact .inl ⟨'n', by simp [h, shortEscapes], rfl⟩
  split
  · next h =>
    rcases h with rfl | rfl
    · exact .inl ⟨'\\', by simp [shortEscapes], rfl⟩
    · exact .inl ⟨'"', by simp [shortEscapes], rfl⟩
  · next h =>
    rw [not_or] at h
    split
    · exact .inr (.inl rfl)
    · exact .inr (.inr ⟨rfl, h⟩)

/-- Where a character ends that is written by its code, and which one it is. -/
theorem escapeCode_append_inj {c d : Char} {s t : List Char}
    (h : escapeCode c ++ s = escapeCode d ++ t) : c = d ∧ s = t := by
  have htake (c : Char) (s : List Char) :
      (Nat.toDigits 16 c.toNat ++ '\x7d' :: s).takeWhile (· != '\x7d') =
        Nat.toDigits 16 c.toNat := by
    rw [List.takeWhile_append_of_pos fun a ha => ?_]
    · simp
    · rw [bne_iff_ne]
      rintro rfl
      exact brace_notMem_toDigits _ ha
  simp only [escapeCode, List.cons_append, List.append_assoc, List.cons.injEq, true_and,
    List.nil_append] at h
  have hdigits : Nat.toDigits 16 c.toNat = Nat.toDigits 16 d.toNat := by
    rw [← htake c s, h, htake]
  rw [hdigits, List.append_right_inj, List.cons.injEq] at h
  exact ⟨Char.toNat_inj.mp (toDigits_inj hdigits), h.2⟩

/-- Where a character ends that is written between quotes, and which one it is. -/
theorem escape_append_inj {c d : Char} {s t : List Char}
    (h : escape '"' c ++ s = escape '"' d ++ t) : c = d ∧ s = t := by
  have hshort : ∀ x ∈ shortEscapes, x.1 ≠ 'u' ∧ ∀ y ∈ shortEscapes, x.1 = y.1 → x.2 = y.2 := by
    decide
  rcases escape_cases c with ⟨a, ha, hc⟩ | hc | ⟨hc, hcback, -⟩ <;>
    rcases escape_cases d with ⟨b, hb, hd⟩ | hd | ⟨hd, hdback, -⟩ <;>
    rw [hc, hd] at h
  case inr.inl.inr.inl => exact escapeCode_append_inj h
  all_goals simp only [escapeCode, List.cons_append, List.nil_append, List.cons.injEq] at h
  case inl.inl =>
    obtain ⟨-, rfl, rfl⟩ := h
    exact ⟨(hshort _ ha).2 _ hb rfl, rfl⟩
  case inl.inr.inl => exact absurd h.2.1 (hshort _ ha).1
  case inr.inl.inl => exact absurd h.2.1.symm (hshort _ hb).1
  case inl.inr.inr => exact absurd h.1.symm hdback
  case inr.inl.inr.inr => exact absurd h.1.symm hdback
  case inr.inr.inl => exact absurd h.1 hcback
  case inr.inr.inr.inl => exact absurd h.1 hcback
  case inr.inr.inr.inr => exact h

/-- A character that is escaped does not start with a quote. -/
private theorem escape_ne_quote (c : Char) (s : List Char) :
    ∃ d t, escape '"' c ++ s = d :: t ∧ d ≠ '"' := by
  rcases escape_cases c with ⟨a, -, hc⟩ | hc | ⟨hc, -, hquote⟩
  · exact ⟨'\\', a :: s, by rw [hc]; rfl, by decide⟩
  · exact ⟨'\\', _, by rw [hc, escapeCode]; rfl, by decide⟩
  · exact ⟨c, s, by rw [hc]; rfl, hquote⟩

/-- **Where a quoted text ends**, and what it quotes. -/
theorem quote_append_inj {a b : String} {s t : List Char}
    (h : (quote a).toList ++ s = (quote b).toList ++ t) : a = b ∧ s = t := by
  -- no escape starts with the quote, so both texts end at the same one
  have hbody (cs ds : List Char) (h : cs.flatMap (escape '"') ++ '"' :: s =
      ds.flatMap (escape '"') ++ '"' :: t) : cs = ds ∧ s = t := by
    induction cs generalizing ds with
    | nil =>
      cases ds with
      | nil => simpa using h
      | cons d ds =>
        obtain ⟨e, rest, hrest, he⟩ := escape_ne_quote d (ds.flatMap (escape '"') ++ '"' :: t)
        rw [List.flatMap_cons, List.append_assoc, hrest] at h
        exact absurd (List.cons.inj h).1.symm he
    | cons c cs ih =>
      cases ds with
      | nil =>
        obtain ⟨e, rest, hrest, he⟩ := escape_ne_quote c (cs.flatMap (escape '"') ++ '"' :: s)
        rw [List.flatMap_cons, List.append_assoc, hrest] at h
        exact absurd (List.cons.inj h).1 he
      | cons d ds =>
        rw [List.flatMap_cons, List.flatMap_cons, List.append_assoc, List.append_assoc] at h
        obtain ⟨rfl, hrest⟩ := escape_append_inj h
        obtain ⟨rfl, rfl⟩ := ih ds hrest
        exact ⟨rfl, rfl⟩
  rw [toList_quote, toList_quote, List.cons_append, List.cons_append, List.append_assoc,
    List.append_assoc] at h
  obtain ⟨hab, hst⟩ := hbody _ _ (List.cons.inj h).2
  exact ⟨String.toList_inj.mp hab, hst⟩

/-! ### Nested texts -/

/-- Does the character open brackets? -/
def isOpening (c : Char) : Bool := ['(', '[', '\x7b'].contains c

/-- Does the character close brackets? -/
def isClosing (c : Char) : Bool := [')', ']', '\x7d'].contains c

/-- Is the character no bracket and no quotation mark? -/
def isPlain (c : Char) : Bool := !(isOpening c || isClosing c || c == '"')

/-- The brackets of the text are closed, and outside of brackets and quotes there is no mark. -/
inductive Nested : (Char → Bool) → List Char → Prop
  | nil {marks : Char → Bool} : Nested marks []
  | plain {marks : Char → Bool} {c : Char} {cs : List Char} (hc : isPlain c)
    (hmark : marks c = false) (h : Nested marks cs) : Nested marks (c :: cs)
  | quoted {marks : Char → Bool} {s : String} {cs : List Char} (hmark : marks '"' = false)
    (h : Nested marks cs) : Nested marks ((quote s).toList ++ cs)
  | group {marks : Char → Bool} {o c : Char} {inner cs : List Char} (ho : isOpening o)
    (hc : isClosing c) (hmark : marks o = false) (hinner : Nested (fun _ => false) inner)
    (h : Nested marks cs) : Nested marks (o :: (inner ++ c :: cs))

/-- The text is empty or starts with a mark, or with a closing bracket. -/
def StopsAt (marks : Char → Bool) (cs : List Char) : Prop :=
  ∀ c ∈ cs.head?, marks c ∨ isClosing c

@[simp] theorem stopsAt_nil {marks : Char → Bool} : StopsAt marks [] := nofun

@[simp] theorem stopsAt_cons {marks : Char → Bool} {c : Char} {cs : List Char} :
    StopsAt marks (c :: cs) ↔ marks c ∨ isClosing c := by
  simp [StopsAt]

namespace Nested

variable {marks : Char → Bool} {x y s t : List Char}

/-- A nested text starts with no mark. -/
theorem append_ne (h : Nested marks x) (hne : x ≠ []) (hstop : StopsAt marks t) : x ++ s ≠ t := by
  rintro rfl
  cases h with
  | nil => exact hne rfl
  | @plain _ c cs hc hmark _ =>
    have hc' : isClosing c = false := by
      simp only [isPlain, Bool.not_eq_true', Bool.or_eq_false_iff] at hc
      exact hc.1.2
    simp [hmark, hc'] at hstop
  | @quoted _ a cs hmark _ =>
    have hclosing : isClosing '"' = false := by decide
    rw [toList_quote] at hstop
    simp [hmark, hclosing] at hstop
  | @group _ o c inner cs ho hc hmark _ _ =>
    have ho' : isClosing o = false := by
      simp only [isOpening, List.contains_cons, List.contains_nil, Bool.or_false, Bool.or_eq_true,
        beq_iff_eq] at ho
      rcases ho with rfl | rfl | rfl <;> decide
    simp [hmark, ho'] at hstop

/-- A plain character is not one that is not. -/
private theorem ne_of_isPlain {c d : Char} (hc : isPlain c) (hd : isPlain d = false) : c ≠ d := by
  rintro rfl
  rw [hc] at hd
  cases hd

private theorem isPlain_of_isOpening {o : Char} (ho : isOpening o) : isPlain o = false := by
  rw [isPlain, ho]
  rfl

/-- **Where a nested text ends.** It is cut off by the first mark after it. -/
theorem append_inj (hx : Nested marks x) (hy : Nested marks y) (hs : StopsAt marks s)
    (ht : StopsAt marks t) (h : x ++ s = y ++ t) : x = y ∧ s = t := by
  have hquote : isPlain '"' = false := by decide
  have hopen : isOpening '"' = false := by decide
  induction hx generalizing y s t with
  | nil =>
    by_cases hne : y = []
    · subst hne
      exact ⟨rfl, h⟩
    · exact absurd h.symm (hy.append_ne hne hs)
  | @plain marks c cs hc hmark hcs ih =>
    cases hy with
    | nil => exact absurd h ((plain hc hmark hcs).append_ne (List.cons_ne_nil _ _) ht)
    | plain _ _ hds =>
      obtain ⟨rfl, hrest⟩ := List.cons.inj h
      obtain ⟨rfl, rfl⟩ := ih hds hs ht hrest
      exact ⟨rfl, rfl⟩
    | quoted =>
      rw [toList_quote] at h
      exact absurd (List.cons.inj h).1 (ne_of_isPlain hc hquote)
    | group ho =>
      exact absurd (List.cons.inj h).1 (ne_of_isPlain hc (isPlain_of_isOpening ho))
  | @quoted marks a cs hmark hcs ih =>
    cases hy with
    | nil => exact absurd h ((quoted hmark hcs).append_ne (by simp [toList_quote]) ht)
    | plain hc =>
      rw [toList_quote] at h
      exact absurd (List.cons.inj h).1.symm (ne_of_isPlain hc hquote)
    | quoted _ hds =>
      rw [List.append_assoc, List.append_assoc] at h
      obtain ⟨rfl, hrest⟩ := quote_append_inj h
      obtain ⟨rfl, rfl⟩ := ih hds hs ht hrest
      exact ⟨rfl, rfl⟩
    | group ho =>
      rw [toList_quote] at h
      rw [← (List.cons.inj h).1, hopen] at ho
      cases ho
  | @group marks o c inner cs ho hc hmark hinner hcs ihinner ih =>
    cases hy with
    | nil =>
      exact absurd h ((group ho hc hmark hinner hcs).append_ne (List.cons_ne_nil _ _) ht)
    | plain hd =>
      exact absurd (List.cons.inj h).1.symm (ne_of_isPlain hd (isPlain_of_isOpening ho))
    | quoted =>
      rw [toList_quote] at h
      rw [(List.cons.inj h).1, hopen] at ho
      cases ho
    | @group _ o' d inner' ds _ hd _ hinner' hds =>
      obtain ⟨rfl, hrest⟩ := List.cons.inj h
      rw [List.append_eq, List.append_eq, List.append_assoc, List.append_assoc, List.cons_append,
        List.cons_append] at hrest
      -- what is inside the brackets ends at the closing bracket
      obtain ⟨rfl, htail⟩ := ihinner hinner' (stopsAt_cons.mpr (.inr hc))
        (stopsAt_cons.mpr (.inr hd)) hrest
      obtain ⟨rfl, hafter⟩ := List.cons.inj htail
      obtain ⟨rfl, rfl⟩ := ih hds hs ht hafter
      exact ⟨rfl, rfl⟩

/-- Nested texts one after the other are nested. -/
theorem append (hx : Nested marks x) (hy : Nested marks y) : Nested marks (x ++ y) := by
  induction hx with
  | nil => exact hy
  | plain hc hmark _ ih => exact .plain hc hmark (ih hy)
  | quoted hmark _ ih =>
    rw [List.append_assoc]
    exact .quoted hmark (ih hy)
  | group ho hc hmark hinner _ _ ih =>
    rw [List.cons_append, List.append_assoc, List.cons_append]
    exact .group ho hc hmark hinner (ih hy)

/-- A text that is nested for some marks is so for fewer. -/
theorem mono {marks' : Char → Bool} (hx : Nested marks x)
    (h : ∀ c, marks' c = true → marks c = true) : Nested marks' x := by
  have hmarks {c : Char} (hc : marks c = false) : marks' c = false := by
    rw [Bool.eq_false_iff] at hc ⊢
    exact fun hc' => hc (h c hc')
  induction hx with
  | nil => exact .nil
  | plain hc hmark _ ih => exact .plain hc (hmarks hmark) (ih h hmarks)
  | quoted hmark _ ih => exact .quoted (hmarks hmark) (ih h hmarks)
  | group ho hc hmark hinner _ _ ih => exact .group ho hc (hmarks hmark) hinner (ih h hmarks)

/-- A text of plain characters that are no marks is nested. -/
theorem of_forall (h : ∀ c ∈ x, isPlain c ∧ marks c = false) : Nested marks x := by
  induction x with
  | nil => exact .nil
  | cons c x ih =>
    obtain ⟨hc, hx⟩ := List.forall_mem_cons.mp h
    exact .plain hc.1 hc.2 (ih hx)

/-- It may be tested for this. -/
theorem of_all (h : (x.all fun c => isPlain c && !marks c) = true) : Nested marks x := by
  refine .of_forall fun c hc => ?_
  simpa using List.all_eq_true.mp h c hc

/-- Inside brackets marks do not count. -/
theorem brackets {o c : Char} (ho : isOpening o) (hc : isClosing c) (hmark : marks o = false)
    (h : Nested (fun _ => false) x) : Nested marks (o :: (x ++ [c])) :=
  .group ho hc hmark h .nil

/-- Inside quotes nothing counts. -/
theorem quote {a : String} (hmark : marks '"' = false) : Nested marks (Text.quote a).toList := by
  rw [← List.append_nil (Text.quote a).toList]
  exact .quoted hmark .nil

end Nested

/-! ### Texts with marks between them -/

/-- Texts that are not empty, with marks between them, can be told apart. -/
theorem eq_of_intercalate_eq {marks : Char → Bool} {mark : Char} {sep : List Char}
    (hmark : marks mark) {xs ys : List (List Char)} (hxs : ∀ x ∈ xs, Nested marks x ∧ x ≠ [])
    (hys : ∀ y ∈ ys, Nested marks y ∧ y ≠ [])
    (h : (mark :: sep).intercalate xs = (mark :: sep).intercalate ys) : xs = ys := by
  -- a list is its first text, and then nothing, or a mark and the rest of the list
  have hcut (x : List Char) (xs : List (List Char)) : ∃ tail, StopsAt marks tail ∧
      (mark :: sep).intercalate (x :: xs) = x ++ tail ∧
        (xs = [] ∧ tail = [] ∨
          xs ≠ [] ∧ tail = (mark :: sep) ++ (mark :: sep).intercalate xs) := by
    cases xs with
    | nil => exact ⟨[], by simp, by simp, by simp⟩
    | cons y xs =>
      refine ⟨(mark :: sep) ++ (mark :: sep).intercalate (y :: xs), ?_, ?_, by simp⟩
      · exact stopsAt_cons.mpr (.inl hmark)
      · rw [List.intercalate_cons_cons, List.append_assoc]
  induction xs generalizing ys with
  | nil =>
    cases ys with
    | nil => rfl
    | cons y ys =>
      obtain ⟨tail, -, htail, -⟩ := hcut y ys
      rw [htail, List.intercalate_nil] at h
      exact absurd (List.append_eq_nil_iff.mp h.symm).1 (hys y List.mem_cons_self).2
  | cons x xs ih =>
    obtain ⟨s, hs, hseq, hxcases⟩ := hcut x xs
    obtain ⟨⟨hx, hxne⟩, hxs⟩ := List.forall_mem_cons.mp hxs
    cases ys with
    | nil =>
      rw [hseq, List.intercalate_nil] at h
      exact absurd (List.append_eq_nil_iff.mp h).1 hxne
    | cons y ys =>
      obtain ⟨t, ht, hteq, hycases⟩ := hcut y ys
      obtain ⟨⟨hy, -⟩, hys⟩ := List.forall_mem_cons.mp hys
      rw [hseq, hteq] at h
      obtain ⟨hfirst, hst⟩ := hx.append_inj hy hs ht h
      rw [hfirst]
      rcases hxcases with ⟨hxs', hs'⟩ | ⟨-, hs'⟩ <;> rcases hycases with ⟨hys', ht'⟩ | ⟨-, ht'⟩
      · rw [hxs', hys']
      · simp [hs', ht'] at hst
      · simp [hs', ht'] at hst
      · rw [hs', ht'] at hst
        rw [ih hxs hys (List.append_cancel_left hst)]

end GoPages.Text
