import GoPages.Parser.Doc
import Mathlib.Data.List.Chain
import Mathlib.Data.List.Infix
import Mathlib.Data.List.TakeWhile

/-!
# The comments of a declaration

`docComment` goes back from the line of a declaration through the comments. What it finds has a
description that does not go back: `IsDocRun` says which comments can document a declaration, and
the ones that do are the longest run of them (`docComment_eq_some`). There is one as soon as some
comment ends above the declaration and starts after the line of the token before it
(`docComment_eq_none_iff`).

All of this is about comments in the order of a text (`AreInOrder`): only there, the comments of a
longer run start no later, and the last comment that ends above the declaration is the last one that
ends on any line before it.
-/

namespace GoPages

/-- The comments stand one after the other, as those of a text do. -/
structure AreInOrder (comments : List Comment) : Prop where
  pairwise : comments.Pairwise fun c d => c.endLine ≤ d.location.line
  ends : ∀ c ∈ comments, c.location.line ≤ c.endLine

/-- The run of comments can document a declaration on line `line` after a token on line
`prevLine`. -/
structure IsDocRun (comments : List Comment) (prevLine line : Nat) (run : List Comment) : Prop where
  /-- The comments are consecutive, and no later one ends on the line above the declaration. -/
  consecutive : ∃ earlier later, comments = earlier ++ run ++ later ∧
    ∀ c ∈ later, c.endLine + 1 ≠ line
  last : ∃ c, run.getLast? = some c ∧ c.endLine + 1 = line
  /-- No line is blank between neighbours. -/
  neighbours : run.IsChain fun c d => d.location.line ≤ c.endLine + 1
  first : ∃ c, run.head? = some c ∧ prevLine < c.location.line

namespace AreInOrder

variable {earlier run later : List Comment} {c d : Comment}

/-- What comes before a comment starts and ends no later than it. -/
theorem le_of_append (h : AreInOrder (earlier ++ d :: later)) (hc : c ∈ earlier) :
    c.location.line ≤ d.location.line ∧ c.endLine ≤ d.endLine := by
  have hle := (List.pairwise_append.mp h.pairwise).2.2 c hc d List.mem_cons_self
  have hends := h.ends c (List.mem_append_left _ hc)
  have hends' := h.ends d (by simp)
  omega

/-- A run starts with its first comment. -/
theorem line_head_le (h : AreInOrder (earlier ++ run ++ later)) (hhead : run.head? = some c)
    (hd : d ∈ run) : c.location.line ≤ d.location.line := by
  obtain ⟨tail, rfl⟩ := List.head?_eq_some_iff.mp hhead
  obtain ⟨before, after, hsplit⟩ := List.append_of_mem hd
  rw [hsplit, List.append_assoc, List.append_assoc, ← List.append_assoc, List.cons_append] at h
  cases before with
  | nil => exact (List.cons.inj hsplit).1 ▸ le_rfl
  | cons b before =>
    obtain ⟨rfl, -⟩ := List.cons.inj hsplit
    exact (h.le_of_append (by simp)).1

end AreInOrder

/-! ### Extending a run -/

/-- `extendRun` stops at this run: the comment before it, the last one of `rest`, is not part of
it. -/
structure IsExtended (prevLine : Nat) (rest run : List Comment) (first : Comment) : Prop where
  head : run.head? = some first
  neighbours : run.IsChain fun c d => d.location.line ≤ c.endLine + 1
  stops : ∀ c, rest.getLast? = some c →
    c.endLine + 1 < first.location.line ∨ c.location.line ≤ prevLine

/-- A run is extended over the comments before it, as long as they belong to it. -/
theorem extendRun_eq (prevLine : Nat) (earlier : List Comment) :
    ∀ (first : Comment) (run : List Comment), run.head? = some first →
      run.IsChain (fun c d => d.location.line ≤ c.endLine + 1) →
      ∃ rest taken first', earlier.reverse = rest ++ taken ∧
        extendRun prevLine first run earlier = (first', taken ++ run) ∧
        IsExtended prevLine rest (taken ++ run) first' ∧
        (taken = [] ∨ prevLine < first'.location.line) := by
  -- the run grows to the front; what each step keeps is that every comment of it adjoins the next
  -- one
  induction earlier with
  | nil =>
    intro first run hhead hchain
    exact ⟨[], [], first, rfl, rfl, ⟨hhead, hchain, nofun⟩, .inl rfl⟩
  | cons c earlier ih =>
    intro first run hhead hchain
    rw [extendRun]
    split
    · next hstop =>
      refine ⟨(c :: earlier).reverse, [], first, (List.append_nil _).symm, rfl,
        ⟨hhead, hchain, fun d hd => ?_⟩, .inl rfl⟩
      have hd : c = d := by simpa using hd
      exact hd ▸ hstop
    · next hgo =>
      have hchain' : (c :: run).IsChain fun c d => d.location.line ≤ c.endLine + 1 := by
        obtain ⟨tail, rfl⟩ := List.head?_eq_some_iff.mp hhead
        exact List.isChain_cons_cons.mpr ⟨by omega, hchain⟩
      obtain ⟨rest, taken, first', hrev, heq, hext, htaken⟩ := ih c (c :: run) rfl hchain'
      rw [List.append_cons] at heq hext
      refine ⟨rest, taken ++ [c], first', ?_, heq, hext, .inr ?_⟩
      · rw [List.reverse_cons, hrev, List.append_assoc]
      · rcases htaken with rfl | hlt
        · have hfirst : c = first' := Option.some.inj hext.head
          rw [← hfirst]
          omega
        · exact hlt

/-! ### The comments above a declaration -/

/-- The comments before the last one that ends above line `line`, that one, and those after it. -/
theorem exists_split_of_dropWhile {comments earlier : List Comment} {last : Comment} {line : Nat}
    (h : (comments.reverse.dropWhile fun c => line ≤ c.endLine) = last :: earlier) :
    ∃ later, comments = earlier.reverse ++ last :: later ∧ last.endLine < line ∧
      ∀ c ∈ later, line ≤ c.endLine := by
  refine ⟨(comments.reverse.takeWhile fun c => line ≤ c.endLine).reverse, ?_, ?_, fun c hc => ?_⟩
  · have happ := List.takeWhile_append_dropWhile (p := fun c : Comment => decide (line ≤ c.endLine))
      (l := comments.reverse)
    rw [h] at happ
    simpa using congrArg List.reverse happ.symm
  · have hlast := List.head?_dropWhile_not (fun c : Comment => decide (line ≤ c.endLine))
      comments.reverse
    rw [h] at hlast
    simpa using hlast
  · simpa using List.all_eq_true.mp List.all_takeWhile c (List.mem_reverse.mp hc)

/-- The last element of a kind stands in one place only. -/
theorem eq_of_append_cons_eq {α : Type} {P : α → Prop} {as as' bs bs' : List α} {a a' : α}
    (h : as ++ a :: bs = as' ++ a' :: bs') (ha : P a) (ha' : P a') (hbs : ∀ b ∈ bs, ¬ P b)
    (hbs' : ∀ b ∈ bs', ¬ P b) : bs = bs' := by
  rcases List.append_eq_append_iff.mp h with ⟨cs, hcs, heq⟩ | ⟨cs, hcs, heq⟩
  · cases cs with
    | nil => exact (List.cons.inj heq).2
    | cons c cs =>
      obtain ⟨rfl, rfl⟩ := List.cons.inj heq
      exact absurd ha' (hbs a' (by simp))
  · cases cs with
    | nil => exact (List.cons.inj heq).2.symm
    | cons c cs =>
      obtain ⟨rfl, rfl⟩ := List.cons.inj heq
      exact absurd ha (hbs' a (by simp))

/-- The comments that document a declaration are the longest run that can. -/
structure IsLongestDocRun (comments : List Comment) (prevLine line : Nat) (run : List Comment) :
    Prop extends IsDocRun comments prevLine line run where
  longest : ∀ other, IsDocRun comments prevLine line other → other <:+ run

variable {comments : List Comment} {prevLine line : Nat}

/-- A run that has been extended as far as possible is the longest one. -/
theorem IsExtended.isLongestDocRun (hordered : AreInOrder comments)
    {rest run later : List Comment} {first : Comment} (hext : IsExtended prevLine rest run first)
    (hsplit : comments = rest ++ run ++ later) (hlater : ∀ c ∈ later, c.endLine + 1 ≠ line)
    (hlast : ∃ c, run.getLast? = some c ∧ c.endLine + 1 = line)
    (hfirst : prevLine < first.location.line) : IsLongestDocRun comments prevLine line run := by
  refine ⟨⟨⟨rest, later, hsplit, hlater⟩, hlast, hext.neighbours, first, hext.head, hfirst⟩, ?_⟩
  intro other hother
  obtain ⟨earlier, later', hsplit', hlater'⟩ := hother.consecutive
  obtain ⟨first', hhead', hfirst'⟩ := hother.first
  -- both runs end in the same place, so one of them ends with the other
  have hends : later = later' := by
    obtain ⟨last, hlast, hline⟩ := hlast
    obtain ⟨last', hlast', hline'⟩ := hother.last
    obtain ⟨init, rfl⟩ := List.getLast?_eq_some_iff.mp hlast
    obtain ⟨init', rfl⟩ := List.getLast?_eq_some_iff.mp hlast'
    have heq : (rest ++ init) ++ last :: later = (earlier ++ init') ++ last' :: later' := by
      simpa using hsplit.symm.trans hsplit'
    exact eq_of_append_cons_eq heq hline hline' hlater hlater'
  have heq : rest ++ run = earlier ++ other := by
    rw [hsplit', hends] at hsplit
    exact (List.append_cancel_right hsplit).symm
  have hsuffix : run <:+ other ∨ other <:+ run :=
    List.suffix_or_suffix_of_suffix ⟨rest, heq⟩ ⟨earlier, rfl⟩
  refine hsuffix.elim (fun ⟨more, hmore⟩ => ?_) id
  have hrest : rest = earlier ++ more := by
    rw [← hmore, ← List.append_assoc] at heq
    exact List.append_cancel_right heq
  -- the comment before the run cannot belong to it
  rcases List.eq_nil_or_concat' more with rfl | ⟨init, c, rfl⟩
  · exact ⟨[], hmore.symm⟩
  have hlastRest : rest.getLast? = some c := by
    rw [hrest, ← List.append_assoc, List.getLast?_concat]
  rcases hext.stops c hlastRest with hgap | hline
  · have hchain := hother.neighbours
    rw [← hmore, List.isChain_append] at hchain
    have := hchain.2.2 c (by simp) first hext.head
    omega
  · -- then the longer run starts too early
    have hle := (hsplit' ▸ hordered).line_head_le hhead' (d := c) (by simp [← hmore])
    omega

/-- The comments fall apart into the run that ends with the last comment above a declaration, what
is before it and what is after it. -/
structure DocSplit (comments : List Comment) (prevLine line : Nat) (rest taken : List Comment)
    (last : Comment) (later : List Comment) (first : Comment) : Prop where
  split : comments = rest ++ (taken ++ [last]) ++ later
  extended : IsExtended prevLine rest (taken ++ [last]) first
  lt : last.endLine < line
  later_le : ∀ c ∈ later, line ≤ c.endLine
  /-- A run of more than one comment does not start on the line of the token before. -/
  alone : taken = [] ∨ prevLine < first.location.line

/-- All that `docComment` can do. -/
theorem docComment_cases (comments : List Comment) (prevLine line : Nat) :
    (docComment comments prevLine line = none ∧ ∀ c ∈ comments, line ≤ c.endLine) ∨
    ∃ rest taken last later first, DocSplit comments prevLine line rest taken last later first ∧
      docComment comments prevLine line =
        if last.endLine + 1 = line ∧ prevLine < first.location.line then
          some ⟨(taken ++ [last]).map Comment.text, first.location⟩
        else none := by
  rw [docComment]
  split
  · next hdrop =>
    refine .inl ⟨rfl, fun c hc => ?_⟩
    have hall := List.dropWhile_eq_nil_iff.mp hdrop c (List.mem_reverse.mpr hc)
    exact of_decide_eq_true hall
  · next last earlier hdrop =>
    -- the last comment that ends before the line ends the run
    obtain ⟨later, hsplit, hlt, hlater⟩ := exists_split_of_dropWhile hdrop
    obtain ⟨rest, taken, first, hrev, heq, hext, halone⟩ :=
      extendRun_eq prevLine earlier last [last] rfl (.singleton _)
    have hsplit' : comments = rest ++ (taken ++ [last]) ++ later := by
      rw [hsplit, hrev]
      simp only [List.append_assoc, List.singleton_append]
    refine .inr ⟨rest, taken, last, later, first, ⟨hsplit', hext, hlt, hlater, halone⟩, ?_⟩
    rw [heq]
    dsimp only
    simp only [← Nat.not_le (a := first.location.line), ite_and, ite_not]

namespace DocSplit

variable {rest taken later : List Comment} {last first c : Comment}

/-- Of the comments that end above the declaration the last one starts last. -/
theorem le_last (h : DocSplit comments prevLine line rest taken last later first)
    (hordered : AreInOrder comments) (hc : c ∈ comments) (hline : c.endLine < line) :
    c.location.line ≤ last.location.line ∧ c.endLine ≤ last.endLine := by
  have hsplit : comments = (rest ++ taken) ++ last :: later := by
    rw [h.split]
    simp only [List.append_assoc, List.singleton_append]
  rw [hsplit, List.mem_append, List.mem_cons] at hc
  rcases hc with hc | rfl | hc
  · exact (hsplit ▸ hordered).le_of_append hc
  · exact ⟨le_rfl, le_rfl⟩
  · have := h.later_le c hc
    omega

/-- A run that does not start after the line of the token before is the last comment alone. -/
theorem last_eq_first (h : DocSplit comments prevLine line rest taken last later first)
    (hfirst : first.location.line ≤ prevLine) : last = first := by
  rcases h.alone with rfl | hlt
  · exact Option.some.inj h.extended.head
  · omega

end DocSplit

/-- **The doc comment of a declaration** is the longest run of comments that can document it. -/
theorem docComment_eq_some (hordered : AreInOrder comments) {group : CommentGroup}
    (h : docComment comments prevLine line = some group) :
    ∃ run first, IsLongestDocRun comments prevLine line run ∧ run.head? = some first ∧
      group = ⟨run.map Comment.text, first.location⟩ := by
  obtain ⟨hnone, -⟩ | ⟨rest, taken, last, later, first, hsplit, heq⟩ :=
    docComment_cases comments prevLine line
  · rw [hnone] at h
    cases h
  · rw [heq, Option.ite_none_right_eq_some, Option.some.injEq] at h
    obtain ⟨⟨hline, hfirst⟩, rfl⟩ := h
    have hlater : ∀ c ∈ later, c.endLine + 1 ≠ line := by
      intro c hc
      have := hsplit.later_le c hc
      omega
    have hlast : (taken ++ [last]).getLast? = some last := List.getLast?_concat
    exact ⟨taken ++ [last], first, hsplit.extended.isLongestDocRun hordered hsplit.split hlater
      ⟨last, hlast, hline⟩ hfirst, hsplit.extended.head, rfl⟩

/-- Without a doc comment, the comments that end above the declaration start too early. -/
theorem line_le_of_docComment_eq_none (hordered : AreInOrder comments)
    (h : docComment comments prevLine line = none) {c : Comment} (hc : c ∈ comments)
    (hline : c.endLine + 1 = line) : c.location.line ≤ prevLine := by
  obtain ⟨-, hall⟩ | ⟨rest, taken, last, later, first, hsplit, heq⟩ :=
    docComment_cases comments prevLine line
  · have := hall c hc
    omega
  · obtain ⟨hstart, hend⟩ := hsplit.le_last hordered hc (by omega)
    have hlt := hsplit.lt
    rw [h, eq_comm, ite_eq_right_iff] at heq
    by_cases hfirst : prevLine < first.location.line
    · exact absurd (heq ⟨by omega, hfirst⟩) (Option.some_ne_none _)
    · have hlast := hsplit.last_eq_first (by omega)
      rw [← hlast] at hfirst
      omega

/-- There is no doc comment if all comments that end above the declaration start too early. -/
theorem docComment_eq_none_iff (hordered : AreInOrder comments) :
    docComment comments prevLine line = none ↔
      ∀ c ∈ comments, c.endLine + 1 = line → c.location.line ≤ prevLine := by
  refine ⟨fun h c hc hline => line_le_of_docComment_eq_none hordered h hc hline, fun h => ?_⟩
  rw [Option.eq_none_iff_forall_ne_some]
  intro group hgroup
  obtain ⟨run, first, hrun, hhead, -⟩ := docComment_eq_some hordered hgroup
  obtain ⟨earlier, later, hsplit, -⟩ := hrun.consecutive
  obtain ⟨last, hlast, hline⟩ := hrun.last
  obtain ⟨first', hhead', hfirst⟩ := hrun.first
  obtain rfl := Option.some.inj (hhead.symm.trans hhead')
  have hmem := List.mem_of_getLast? hlast
  have hle := (hsplit ▸ hordered).line_head_le hhead hmem
  have := h last (by rw [hsplit]; simp [hmem]) hline
  omega

end GoPages
