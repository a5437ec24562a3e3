import GoPages.Event.Subject
import GoPages.Proofs.CommentGroup.Lines

/-!
# The subjects of events

The first line of a comment that starts with the name of the event decides about its subject: the
comment gives a subject exactly if this line says that the name is the subject in quotes
(`Subject.ofComment_eq_valid_iff`). No other line is looked at. The quotes are those at the ends, so
that there may be others between them (`Subject.not_forall_ofComment_eq_valid_iff`).
-/

namespace GoPages.Subject

open CommentGroup

/-- A text in double quotes. -/
def quoted (s : List Char) : List Char := '"' :: (s ++ ['"'])

private theorem isTrimmed_quoted (s : List Char) : Text.IsTrimmed (quoted s) where
  head c hc := by
    obtain rfl : '"' = c := by simpa [quoted] using hc
    decide
  last c hc := by
    obtain rfl : '"' = c := by simpa [quoted, List.getLast?_cons] using hc
    decide

/-- Quotes are taken off where they stand at both ends. -/
private theorem unquoted?_eq_some_iff {cs s : List Char} :
    unquoted? cs = some s ↔ cs = quoted s := by
  rw [unquoted?, Option.bind_eq_some_iff]
  simp only [Text.strip?_eq_some_iff, Text.stripEnd?_eq_some_iff, quoted]
  exact ⟨fun ⟨_, hcs, hs⟩ => hs ▸ hcs, fun hcs => ⟨s ++ ['"'], hcs, rfl⟩⟩

/-- The line says that the name is the quoted subject, which is not empty. -/
def Declares (name s line : List Char) : Prop := s ≠ [] ∧ Says name (quoted s) line

/-- A line that declares something mentions the name. -/
theorem Declares.mentions {name s line : List Char} (h : Declares name s line) :
    Mentions name line := h.2.mentions

/-! ### One line -/

/-- What follows the name is read if a blank is the first of it. -/
private theorem afterName?_eq_some_iff {name line after : List Char} :
    afterName? name line = some after ↔
      Text.strip? name (Text.trim line) = some after ∧ after.head? = some ' ' := by
  rw [afterName?]
  constructor
  · intro h
    split at h
    · next rest hrest =>
      obtain rfl := Option.some.inj h
      exact ⟨hrest, rfl⟩
    · cases h
  · rintro ⟨hstrip, hhead⟩
    obtain ⟨rest, rfl⟩ := List.head?_eq_some_iff.mp hhead
    rw [hstrip]
    rfl

private theorem afterName?_eq_none_iff {name line : List Char} :
    afterName? name line = none ↔ ¬ Mentions name line := by
  rw [mentions_iff, Option.eq_none_iff_forall_ne_some, not_exists]
  constructor
  · exact fun h rest hrest => h _ (afterName?_eq_some_iff.mpr ⟨hrest, rfl⟩)
  · intro h after hafter
    obtain ⟨hstrip, hhead⟩ := afterName?_eq_some_iff.mp hafter
    obtain ⟨rest, rfl⟩ := List.head?_eq_some_iff.mp hhead
    exact h rest hstrip

/-- What follows the name gives a subject if it is the word and the subject in quotes. -/
private theorem ofLine_eq_valid_iff {after : List Char} {s : String} :
    ofLine after = .valid s ↔ s.toList ≠ [] ∧
      ∃ rest, Text.strip? " is ".toList after = some rest ∧ Text.trim rest = quoted s.toList := by
  rw [ofLine]
  cases Text.strip? " is ".toList after with
  | none => simp
  | some rest =>
    simp only [Option.some.injEq, exists_eq_left', ← unquoted?_eq_some_iff]
    constructor
    · intro h
      split at h
      · next c cs hquoted =>
        cases h
        rw [String.toList_ofList]
        exact ⟨List.cons_ne_nil c cs, hquoted⟩
      · cases h
    · rintro ⟨hne, hquoted⟩
      obtain ⟨c, cs, hs⟩ := List.exists_cons_of_ne_nil hne
      rw [hquoted, hs]
      exact congrArg valid (by rw [← hs, String.ofList_toList])

/-- A line that starts with the name gives the subject that it declares. -/
theorem exists_afterName?_iff {name line : List Char} {s : String} :
    (∃ after, afterName? name line = some after ∧ ofLine after = .valid s) ↔
      Declares name s.toList line := by
  simp only [ofLine_eq_valid_iff, Declares, ← exists_strip?_iff (isTrimmed_quoted s.toList)]
  constructor
  · rintro ⟨after, hafter, hne, hrest⟩
    exact ⟨hne, after, (afterName?_eq_some_iff.mp hafter).1, hrest⟩
  · rintro ⟨hne, after, hstrip, rest, hrest, hquoted⟩
    refine ⟨after, afterName?_eq_some_iff.mpr ⟨hstrip, ?_⟩, hne, rest, hrest, hquoted⟩
    rw [Text.strip?_eq_some_iff.mp hrest]
    rfl

/-! ### Comments -/

/-- **The subject of an event** is what the first line that starts with its name declares. -/
theorem ofComment_eq_valid_iff (name : String) (doc : CommentGroup) (s : String) :
    ofComment name (some doc) = .valid s ↔
      ∃ before line after, doc.textLines = before ++ line :: after ∧
        (∀ l ∈ before, ¬ Mentions name.toList l) ∧ Declares name.toList s.toList line := by
  rw [ofComment]
  constructor
  · intro h
    split at h
    · next rest hrest =>
      obtain ⟨before, line, after, hlines, hline, hbefore⟩ := List.findSome?_eq_some_iff.mp hrest
      exact ⟨before, line, after, hlines, fun l hl => afterName?_eq_none_iff.mp (hbefore l hl),
        exists_afterName?_iff.mp ⟨rest, hline, h⟩⟩
    · cases h
  · rintro ⟨before, line, after, hlines, hbefore, hdeclares⟩
    obtain ⟨rest, hline, hvalid⟩ := exists_afterName?_iff.mpr hdeclares
    have hfind : doc.textLines.findSome? (afterName? name.toList) = some rest :=
      List.findSome?_eq_some_iff.mpr ⟨before, line, after, hlines, hline,
        fun l hl => afterName?_eq_none_iff.mpr (hbefore l hl)⟩
    rw [hfind]
    exact hvalid

/-! ### Sentences about an event, and quotes in its subject -/

/-- A comment with a sentence about the event before the line with its subject. -/
def introducedSaved : CommentGroup :=
  ⟨["// EventSaved is sent after saving.", "// EventSaved is \"saved\""], .unknown⟩

/-- A comment whose only line has two texts in quotes. -/
def twiceQuoted : CommentGroup := ⟨["// EventSaved is \"saved\" or \"stored\""], .unknown⟩

/-- The sentence ends with a point, and so it declares nothing. -/
theorem not_declares_introducedSaved (t : List Char) :
    ¬ Declares "EventSaved".toList t "EventSaved is sent after saving.".toList := by
  rintro ⟨-, blanks, -, hline⟩
  have hlast := congrArg List.getLast? hline
  have hquote : ("EventSaved".toList ++ (" is ".toList ++ (blanks ++ quoted t))).getLast? =
      some '"' := by
    simp [quoted, List.getLast?_append, List.getLast?_cons]
  have hpoint : (Text.trim "EventSaved is sent after saving.".toList).getLast? = some '.' := by
    decide +kernel
  rw [hquote, hpoint] at hlast
  cases hlast

/-- A line that starts with the name keeps a later one from being found, and a subject may have
quotes in it. -/
theorem not_forall_ofComment_eq_valid_iff :
    (¬ ∀ (name : String) (doc : CommentGroup) (s : String), name ≠ "" →
      name.toList.any Text.isBlank = false →
        (ofComment name (some doc) = .valid s ↔
          ∃ before line after, doc.textLines = before ++ line :: after ∧
            (∀ l ∈ before, ¬ ∃ t, '"' ∉ t ∧ Declares name.toList t l) ∧
            '"' ∉ s.toList ∧ Declares name.toList s.toList line)) ∧
    ¬ ∀ (name : String) (doc : CommentGroup) (s : String), name ≠ "" →
      name.toList.any Text.isBlank = false →
        (ofComment name (some doc) = .valid s ↔
          ∃ before line after, doc.textLines = before ++ line :: after ∧
            (∀ l ∈ before, ¬ Mentions name.toList l) ∧
            '"' ∉ s.toList ∧ Declares name.toList s.toList line) := by
  constructor
  · intro hall
    have hvalid := (hall "EventSaved" introducedSaved "saved" (by decide) (by decide)).mpr
      ⟨["EventSaved is sent after saving.".toList], "EventSaved is \"saved\"".toList, [],
        by decide +kernel, ?_, by decide, by decide, [], Text.areBlank_nil, by decide +kernel⟩
    · revert hvalid
      decide +kernel
    · rintro l hl ⟨t, -, hdeclares⟩
      obtain rfl := List.mem_singleton.mp hl
      exact not_declares_introducedSaved t hdeclares
  · intro hall
    have hvalid : ofComment "EventSaved" (some twiceQuoted) = .valid "saved\" or \"stored" := by
      decide +kernel
    obtain ⟨-, -, -, -, -, hquote, -⟩ :=
      (hall "EventSaved" twiceQuoted _ (by decide) (by decide)).mp hvalid
    exact absurd hquote (by decide)

end GoPages.Subject
