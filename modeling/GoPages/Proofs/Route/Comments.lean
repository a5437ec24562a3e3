import GoPages.Proofs.CommentGroup.Lines
import GoPages.Route.Comment

/-!
# What comments say about routes

A comment says nothing about the route of a name, or something malformed, or it gives a route. The
first line decides between nothing and something: it has to start with the name. The comment gives a
route if this line says that the name is the route, and the next one is blank.

* `Route.answers_ofComment`: these are the answers, for all names and comments.
* `Route.ofComment_of_isGivenBy`: a comment on one line gives its route with either kind of markers.
-/

namespace GoPages

open CommentGroup

/-- The lines of a comment, of which there are none without a comment. -/
def docLines (doc : Option CommentGroup) : List (List Char) :=
  (doc.map CommentGroup.textLines).getD []

namespace Route

/-- The comment gives the route of the name: its first line says that the name is the route, and the
next one is blank. -/
def Gives (name : String) (doc : Option CommentGroup) (route : String) : Prop :=
  wellFormed route.toList ∧ ∃ first rest, docLines doc = first :: rest ∧
    Says name.toList route.toList first ∧ ∀ second ∈ rest.head?, Text.AreBlank second

/-- What a comment says about the route of a name is the answer. -/
structure Answers (name : String) (doc : Option CommentGroup) (answer : RouteComment) : Prop where
  notAttempted : answer = .notAttempted ↔
    ∀ first ∈ (docLines doc).head?, ¬ Mentions name.toList first
  wellFormed : ∀ route, answer = .wellFormed route ↔ Gives name doc route
  malformed : answer = .malformed ↔
    (∃ first ∈ (docLines doc).head?, Mentions name.toList first) ∧ ∀ route, ¬ Gives name doc route

/-- A route is not empty. -/
theorem ne_nil_of_wellFormed {route : List Char} (h : wellFormed route) : route ≠ [] := by
  rintro rfl
  exact absurd h (by decide)

/-- A route has no blanks. -/
private theorem any_isBlank_of_wellFormed {route : List Char} (h : wellFormed route) :
    route.any Text.isBlank = false := by
  simpa using ((Bool.and_eq_true _ _).mp h).2

/-- So nothing is trimmed off a route. -/
theorem isTrimmed_of_wellFormed {route : List Char} (h : wellFormed route) :
    Text.IsTrimmed route :=
  Text.isTrimmed_of_any (any_isBlank_of_wellFormed h)

/-! ### The first line -/

/-- A line that mentions the name is an attempt. -/
private theorem ofLine_ne_notAttempted (after : List Char) (second : Option (List Char)) :
    ofLine after second ≠ .notAttempted := by
  rw [ofLine]
  split
  · exact nofun
  · dsimp only
    split <;> exact nofun

/-- It gives a route if the rest of the line is the word and the route, and the next line is blank.
-/
private theorem ofLine_eq_wellFormed_iff {after : List Char} {second : Option (List Char)}
    {route : String} :
    ofLine after second = .wellFormed route ↔
      (∃ rest, Text.strip? " is ".toList after = some rest ∧ Text.trim rest = route.toList) ∧
        wellFormed route.toList ∧ ∀ line ∈ second, Text.AreBlank line := by
  have hsecond : ((second.map Text.trim).getD []).isEmpty ↔
      ∀ line ∈ second, Text.AreBlank line := by
    cases second with
    | none => simp
    | some line => simp [Text.trim_eq_nil_iff]
  rw [ofLine]
  cases Text.strip? " is ".toList after with
  | none => simp
  | some rest =>
    simp only [Option.some.injEq, exists_eq_left', ← hsecond]
    constructor
    · intro h
      split at h
      · next hboth =>
        cases h
        rw [String.toList_ofList]
        exact ⟨rfl, (Bool.and_eq_true _ _).mp hboth⟩
      · cases h
    · rintro ⟨hrest, hroute, hblank⟩
      rw [hrest, hroute, hblank, String.ofList_toList]
      rfl

/-! ### Comments -/

/-- A comment whose first line starts with the name says what this line says, and any other comment
says nothing. -/
theorem ofComment_cases (name : String) (doc : Option CommentGroup) :
    (∃ first rest after, docLines doc = first :: rest ∧
      Text.strip? name.toList (Text.trim first) = some (' ' :: after) ∧
      ofComment name doc = ofLine (' ' :: after) rest.head?) ∨
    (∀ first ∈ (docLines doc).head?, ¬ Mentions name.toList first) ∧
      ofComment name doc = .notAttempted := by
  have hlines : (doc.map CommentGroup.textLines).getD [] = docLines doc := rfl
  rw [ofComment, hlines]
  cases docLines doc with
  | nil => exact .inr ⟨nofun, rfl⟩
  | cons first rest =>
    by_cases hmentions : Mentions name.toList first
    · obtain ⟨after, hafter⟩ := mentions_iff.mp hmentions
      refine .inl ⟨first, rest, after, rfl, hafter, ?_⟩
      simp only [hafter]
    · refine .inr ⟨fun line hline => Option.some.inj hline ▸ hmentions, ?_⟩
      dsimp only
      split
      · next after hafter => exact absurd (mentions_iff.mpr ⟨after, hafter⟩) hmentions
      · rfl

/-- A comment that gives a route has a first line that starts with the name. -/
theorem Gives.mentions {name : String} {doc : Option CommentGroup} {route : String}
    (h : Gives name doc route) : ∃ first ∈ (docLines doc).head?, Mentions name.toList first := by
  obtain ⟨-, first, rest, hlines, hsays, -⟩ := h
  exact ⟨first, by rw [hlines]; rfl, hsays.mentions⟩

/-- A comment has a route exactly if it gives one. -/
theorem ofComment_eq_wellFormed_iff {name : String} {doc : Option CommentGroup} {route : String} :
    ofComment name doc = .wellFormed route ↔ Gives name doc route := by
  obtain ⟨first, rest, after, hlines, hafter, heq⟩ | ⟨hnot, heq⟩ := ofComment_cases name doc
  · rw [heq, ofLine_eq_wellFormed_iff]
    constructor
    · rintro ⟨hrest, hroute, hsecond⟩
      exact ⟨hroute, first, rest, hlines,
        (exists_strip?_iff (isTrimmed_of_wellFormed hroute)).mp ⟨_, hafter, hrest⟩, hsecond⟩
    · rintro ⟨hroute, first', rest', hlines', hsays, hsecond⟩
      obtain ⟨rfl, rfl⟩ := List.cons.inj (hlines.symm.trans hlines')
      obtain ⟨after', hafter', hrest⟩ :=
        (exists_strip?_iff (isTrimmed_of_wellFormed hroute)).mpr hsays
      obtain rfl := Option.some.inj (hafter.symm.trans hafter')
      exact ⟨hrest, hroute, hsecond⟩
  · rw [heq]
    constructor
    · exact nofun
    · intro h
      obtain ⟨first, hfirst, hmentions⟩ := h.mentions
      exact absurd hmentions (hnot first hfirst)

/-- A comment says nothing if its first line does not mention the name. -/
private theorem ofComment_eq_notAttempted_iff {name : String} {doc : Option CommentGroup} :
    ofComment name doc = .notAttempted ↔
      ∀ first ∈ (docLines doc).head?, ¬ Mentions name.toList first := by
  obtain ⟨first, rest, after, hlines, hafter, heq⟩ | ⟨hnot, heq⟩ := ofComment_cases name doc
  · rw [heq, hlines]
    refine iff_of_false (ofLine_ne_notAttempted _ _) fun hnot => ?_
    exact hnot first rfl (mentions_iff.mpr ⟨after, hafter⟩)
  · exact iff_of_true heq hnot

/-- **The answers of comments about routes**, for all names and comments. -/
theorem answers_ofComment (name : String) (doc : Option CommentGroup) :
    Answers name doc (ofComment name doc) where
  notAttempted := ofComment_eq_notAttempted_iff
  wellFormed route := ofComment_eq_wellFormed_iff
  malformed := by
    simp only [← ofComment_eq_wellFormed_iff]
    have hnot := (@ofComment_eq_notAttempted_iff name doc).not
    push Not at hnot
    rw [← hnot]
    cases ofComment name doc <;> simp

/-! ### Comments on one line -/

/-- The line comment that gives the name a route. -/
def lineComment (name route : String) : String := "// " ++ name ++ " is " ++ route

/-- The block comment that gives the name a route. -/
def blockComment (name route : String) : String := "/* " ++ name ++ " is " ++ route ++ " */"

/-- The comment says on one line what the route of the name is, with either kind of markers. -/
def IsGivenBy (name route comment : String) : Prop :=
  comment = lineComment name route ∨ comment = blockComment name route

/-- What the comment says is trimmed. -/
theorem isTrimmed_declaration {name route : List Char} (hne : name ≠ [])
    (hname : name.any Text.isBlank = false) (hroute : wellFormed route) :
    Text.IsTrimmed (name ++ (" is ".toList ++ route)) :=
  (Text.isTrimmed_of_any hname).append hne (isTrimmed_of_wellFormed hroute)
    (ne_nil_of_wellFormed hroute) _

/-- What the comment says is on one line. -/
theorem newline_notMem_declaration {name route : List Char}
    (hname : name.any Text.isBlank = false) (hroute : wellFormed route) :
    '\n' ∉ name ++ (" is ".toList ++ route) := by
  simp only [List.mem_append, not_or]
  exact ⟨Text.newline_notMem hname, by decide,
    Text.newline_notMem (any_isBlank_of_wellFormed hroute)⟩

/-- What is between the markers is the line of the comment. -/
theorem textLines_of_isGivenBy {name route comment : String} (hne : name ≠ "")
    (hname : name.toList.any Text.isBlank = false) (hroute : wellFormed route.toList)
    (h : IsGivenBy name route comment) (l : Location) :
    CommentGroup.textLines ⟨[comment], l⟩ = [name.toList ++ (" is ".toList ++ route.toList)] := by
  rw [CommentGroup.textLines, List.flatMap_singleton]
  obtain rfl | rfl := h
  · simpa [lineComment] using linesOf_lineComment (name.toList ++ (" is ".toList ++ route.toList))
  · have htrimmed := isTrimmed_declaration (by simpa using hne) hname hroute
    have hline := newline_notMem_declaration hname hroute
    simpa [blockComment] using linesOf_blockComment htrimmed hline

/-- **A comment on one line** gives its route. -/
theorem ofComment_of_isGivenBy {name route comment : String} (hne : name ≠ "")
    (hname : name.toList.any Text.isBlank = false) (hroute : wellFormed route.toList)
    (h : IsGivenBy name route comment) (l : Location) :
    ofComment name (some ⟨[comment], l⟩) = .wellFormed route := by
  rw [ofComment_eq_wellFormed_iff]
  refine ⟨hroute, _, [], textLines_of_isGivenBy hne hname hroute h l, ?_, nofun⟩
  exact ⟨[], Text.areBlank_nil,
    (isTrimmed_declaration (by simpa using hne) hname hroute).trim_eq⟩

end Route

end GoPages
