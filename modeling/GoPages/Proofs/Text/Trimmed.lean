import Mathlib.Data.List.DropRight
import GoPages.Text.Lines

/-!
# Trimmed texts

A text is trimmed if no white space stands at its ends. Trimming finds the trimmed text that stands
between white space (`Text.trim_eq_iff`), and there is no other one. Of a text that has been
trimmed, the end is trimmed but for white space at its start (`Text.exists_trim_rest_iff`).
-/

namespace GoPages.Text

/-- All characters are white space. -/
def AreBlank (cs : List Char) : Prop := ∀ c ∈ cs, isBlank c

/-- No characters are blank. -/
theorem areBlank_nil : AreBlank [] := List.forall_mem_nil _

/-- A blank is blank. -/
theorem areBlank_space : AreBlank [' '] := List.forall_mem_singleton.mpr (by decide)

/-- No white space stands at the ends of the text. -/
structure IsTrimmed (cs : List Char) : Prop where
  head : ∀ c ∈ cs.head?, isBlank c = false
  last : ∀ c ∈ cs.getLast?, isBlank c = false

/-- Nothing is trimmed off an empty text. -/
theorem IsTrimmed.nil : IsTrimmed [] := ⟨by simp, by simp⟩

/-- A text is trimmed if it starts and ends with trimmed texts that are not empty. -/
theorem IsTrimmed.append {as bs : List Char} (ha : IsTrimmed as) (hane : as ≠ [])
    (hb : IsTrimmed bs) (hbne : bs ≠ []) (cs : List Char) : IsTrimmed (as ++ (cs ++ bs)) where
  head c hc := by
    rw [List.head?_append_of_ne_nil as hane] at hc
    exact ha.head c hc
  last c hc := by
    rw [← List.append_assoc, List.getLast?_append_of_ne_nil (as ++ cs) hbne] at hc
    exact hb.last c hc

/-- A text without white space is trimmed. -/
theorem isTrimmed_of_any {cs : List Char} (h : cs.any isBlank = false) : IsTrimmed cs := by
  rw [List.any_eq_false] at h
  exact ⟨fun c hc => Bool.eq_false_iff.mpr (h c (List.mem_of_mem_head? hc)),
    fun c hc => Bool.eq_false_iff.mpr (h c (List.mem_of_mem_getLast? hc))⟩

/-- A text without blanks has no line feed. -/
theorem newline_notMem {cs : List Char} (h : cs.any isBlank = false) : '\n' ∉ cs := fun hmem =>
  List.any_eq_false.mp h _ hmem (by decide)

/-! ### Trimming -/

/-- At the start of a text, trimming removes white space. -/
theorem exists_trimStart_eq (cs : List Char) :
    ∃ before, AreBlank before ∧ cs = before ++ trimStart cs ∧
      ∀ c ∈ (trimStart cs).head?, isBlank c = false := by
  refine ⟨cs.takeWhile isBlank, fun c hc => List.mem_takeWhile_imp hc,
    List.takeWhile_append_dropWhile.symm, fun c hc => ?_⟩
  have hnot := List.head?_dropWhile_not isBlank cs
  rwa [show (cs.dropWhile isBlank).head? = some c from hc] at hnot

/-- At the end of a text, trimming removes white space. -/
theorem exists_trimEnd_eq (cs : List Char) :
    ∃ after, AreBlank after ∧ cs = trimEnd cs ++ after ∧
      ∀ c ∈ (trimEnd cs).getLast?, isBlank c = false := by
  have htrim : trimEnd cs = cs.rdropWhile isBlank := rfl
  refine ⟨cs.rtakeWhile isBlank, fun c hc => List.mem_rtakeWhile_imp hc, ?_, fun c hc => ?_⟩
  · rw [htrim, List.rdropWhile_append_rtakeWhile]
  · rw [htrim] at hc
    obtain ⟨hne, rfl⟩ := List.mem_getLast?_eq_getLast hc
    exact Bool.eq_false_iff.mpr (List.rdropWhile_last_not _ _ hne)

/-- What is left after trimming is trimmed. -/
private theorem isTrimmed_trim (cs : List Char) : IsTrimmed (trim cs) := by
  obtain ⟨-, -, -, hhead⟩ := exists_trimStart_eq cs
  obtain ⟨after, -, heq, hlast⟩ := exists_trimEnd_eq (trimStart cs)
  refine ⟨fun c hc => hhead c ?_, hlast⟩
  rw [heq]
  exact List.mem_head?_append_of_mem_head? hc

/-- White space around a trimmed text is trimmed away. -/
theorem trim_surrounded {before cs after : List Char} (hbefore : AreBlank before)
    (hcs : IsTrimmed cs) (hafter : AreBlank after) : trim (before ++ (cs ++ after)) = cs := by
  have hstart : trimStart (before ++ (cs ++ after)) = trimStart (cs ++ after) :=
    List.dropWhile_append_of_pos hbefore
  rw [trim, hstart]
  cases cs with
  | nil =>
    have hnil : trimStart ([] ++ after) = [] := List.dropWhile_eq_nil_iff.mpr hafter
    rw [hnil]
    rfl
  | cons c cs =>
    have hself : trimStart (c :: cs ++ after) = c :: cs ++ after :=
      List.dropWhile_cons_of_neg (by simp [hcs.head c rfl])
    have hdrop : trimEnd (c :: cs ++ after) = trimEnd (c :: cs) := by
      rw [trimEnd, trimEnd, List.reverse_append,
        List.dropWhile_append_of_pos fun a ha => hafter a (List.mem_reverse.mp ha)]
    rw [hself, hdrop]
    exact List.rdropWhile_eq_self_iff.mpr fun hne => by
      simp [hcs.last _ (List.getLast?_eq_getLast_of_ne_nil hne)]

/-- **Trimming** finds the trimmed text between white space. -/
theorem trim_eq_iff {cs t : List Char} :
    trim cs = t ↔ IsTrimmed t ∧
      ∃ before after, AreBlank before ∧ AreBlank after ∧ cs = before ++ (t ++ after) := by
  constructor
  · rintro rfl
    obtain ⟨before, hbefore, hcs, -⟩ := exists_trimStart_eq cs
    obtain ⟨after, hafter, hstart, -⟩ := exists_trimEnd_eq (trimStart cs)
    refine ⟨isTrimmed_trim cs, before, after, hbefore, hafter, ?_⟩
    rw [trim, ← hstart]
    exact hcs
  · rintro ⟨ht, before, after, hbefore, hafter, rfl⟩
    exact trim_surrounded hbefore ht hafter

/-- Nothing is left of white space. -/
theorem trim_eq_nil_iff {cs : List Char} : trim cs = [] ↔ AreBlank cs := by
  rw [trim_eq_iff]
  constructor
  · rintro ⟨-, before, after, hbefore, hafter, rfl⟩
    exact List.forall_mem_append.mpr ⟨hbefore, hafter⟩
  · exact fun h => ⟨.nil, cs, [], h, areBlank_nil, (List.append_nil cs).symm⟩

/-- A trimmed text stays as it is. -/
theorem IsTrimmed.trim_eq {cs : List Char} (h : IsTrimmed cs) : trim cs = cs :=
  trim_eq_iff.mpr ⟨h, [], [], areBlank_nil, areBlank_nil, by simp⟩

/-- What follows the start of a trimmed text is trimmed but for the white space at its start. -/
theorem exists_trim_rest_iff {line start r : List Char} :
    (∃ rest, trim line = start ++ rest ∧ trim rest = r) ↔
      IsTrimmed r ∧ ∃ blanks, AreBlank blanks ∧ trim line = start ++ (blanks ++ r) := by
  constructor
  · rintro ⟨rest, hline, hrest⟩
    obtain ⟨hr, before, after, hbefore, hafter, rfl⟩ := trim_eq_iff.mp hrest
    refine ⟨hr, before, hbefore, ?_⟩
    -- white space at the end of the rest would stand at the end of the line
    have hnil : after = [] := by
      by_contra hne
      have hlast := (isTrimmed_trim line).last (after.getLast hne)
      rw [hline, ← List.append_assoc, ← List.append_assoc,
        List.getLast?_append_of_ne_nil _ hne, List.getLast?_eq_getLast_of_ne_nil hne] at hlast
      rw [hafter _ (List.getLast_mem hne)] at hlast
      simp at hlast
    rw [hline, hnil, List.append_nil]
  · rintro ⟨hr, blanks, hblanks, hline⟩
    refine ⟨blanks ++ r, hline, ?_⟩
    exact trim_eq_iff.mpr ⟨hr, blanks, [], hblanks, areBlank_nil, by simp⟩

end GoPages.Text
