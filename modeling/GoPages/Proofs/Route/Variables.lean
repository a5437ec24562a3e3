import Mathlib.Data.Nat.Find
import GoPages.Proofs.Route.Segments

/-!
# The variables of routes

`Route.braced` reads a route once, and starts anew at every opening brace. What it finds are the
texts in braces that a search from the left finds, each time behind the last one
(`Route.scans_iff`). What has been read of a route matters for the rest only as far as a brace is
still open (`Route.bracedFrom_append`); so a route whose braces are closed can be cut off
(`Route.braced_append`).

From this follow the variables of a route that is put together from segments, and those of any text
(`Route.vars_segments`).
-/

namespace GoPages.Route

/-- The text has no braces. -/
def IsPlain (cs : List Char) : Prop := '\x7b' ∉ cs ∧ '\x7d' ∉ cs

private theorem isPlain_nil : IsPlain [] := ⟨List.not_mem_nil, List.not_mem_nil⟩

private theorem isPlain_cons_iff {c : Char} {cs : List Char} :
    IsPlain (c :: cs) ↔ c ≠ '\x7b' ∧ c ≠ '\x7d' ∧ IsPlain cs := by
  simp only [IsPlain, List.mem_cons, not_or, ne_comm (a := c)]
  tauto

/-- A text in braces. -/
def inBraces (cs : List Char) : List Char := '\x7b' :: (cs ++ ['\x7d'])

/-- The route has a text in braces between `before` and `after`, and no braces in this text. -/
structure HasBraced (route before inner after : List Char) : Prop where
  eq : route = before ++ (inBraces inner ++ after)
  plain : IsPlain inner

/-- The texts in braces that a search from the left finds: the one that starts first, and then those
behind it. -/
inductive Scans : List Char → List (List Char) → Prop where
  | done {route : List Char} (hnone : ∀ before inner after, ¬ HasBraced route before inner after) :
      Scans route []
  | next {route before inner after : List Char} {inners : List (List Char)}
      (hbraced : HasBraced route before inner after)
      (hfirst : ∀ before' inner' after', HasBraced route before' inner' after' →
        before.length ≤ before'.length)
      (hrest : Scans after inners) : Scans route (inner :: inners)

/-- No opening brace stands behind the last closing one. -/
def IsClosed (cs : List Char) : Prop := '\x7b' ∉ cs.rtakeWhile (· != '\x7d')

instance (cs : List Char) : Decidable (IsClosed cs) := by
  unfold IsClosed
  infer_instance

/-! ### Reading in parts -/

/-- What has been read since the last open brace, after one more character. -/
def openNext (inside : Option (List Char)) (c : Char) : Option (List Char) :=
  if c = '\x7b' then some [] else if c = '\x7d' then none else inside.map (c :: ·)

/-- Only a closing brace makes something be found. -/
theorem bracedFrom_cons (inside : Option (List Char)) (c : Char) (cs : List Char) :
    bracedFrom inside (c :: cs) =
      (if c = '\x7d' then (inside.map List.reverse).toList else []) ++
        bracedFrom (openNext inside c) cs := by
  rw [bracedFrom.eq_def, openNext]
  dsimp only
  by_cases hopen : c = '\x7b'
  · rw [if_pos hopen, if_pos hopen, if_neg (by rw [hopen]; decide)]
    rfl
  · rw [if_neg hopen, if_neg hopen]
    cases inside with
    | none =>
      rw [Option.map_none, Option.map_none, Option.toList_none, ite_self, ite_self]
      rfl
    | some read =>
      dsimp only
      split <;> rfl

/-- A route can be read in two parts. -/
theorem bracedFrom_append (inside : Option (List Char)) (a b : List Char) :
    bracedFrom inside (a ++ b) = bracedFrom inside a ++ bracedFrom (a.foldl openNext inside) b := by
  induction a generalizing inside with
  | nil => rfl
  | cons c a ih =>
    rw [List.cons_append, bracedFrom_cons, bracedFrom_cons, ih, List.foldl_cons, List.append_assoc]

/-- Without an opening brace nothing is open. -/
private theorem foldl_openNext_of_notMem {cs : List Char} (h : '\x7b' ∉ cs) :
    cs.foldl openNext none = none := by
  induction cs with
  | nil => rfl
  | cons c cs ih =>
    rw [List.mem_cons, not_or] at h
    obtain ⟨hc, hcs⟩ := h
    rw [List.foldl_cons, openNext, if_neg (Ne.symm hc), Option.map_none, ite_self]
    exact ih hcs

/-- No brace is open after a closed text. -/
theorem foldl_openNext_of_isClosed {cs : List Char} (h : IsClosed cs) :
    cs.foldl openNext none = none := by
  have hlast : (cs.rdropWhile (· != '\x7d')).foldl openNext none = none := by
    rcases List.eq_nil_or_concat' (cs.rdropWhile (· != '\x7d')) with hnil | ⟨front, c, heq⟩
    · rw [hnil]
      rfl
    · -- what is left ends with a closing brace
      have hclose := List.rdropWhile_last_not (· != '\x7d') cs (by simp [heq])
      simp only [heq, List.getLast_append_singleton, bne_iff_ne, ne_eq, not_not] at hclose
      rw [heq, hclose, List.foldl_append]
      rfl
  rw [← List.rdropWhile_append_rtakeWhile (p := (· != '\x7d')) (l := cs), List.foldl_append, hlast]
  exact foldl_openNext_of_notMem h

/-- **A closed text can be cut off** a route. -/
theorem braced_append {a : List Char} (ha : IsClosed a) (b : List Char) :
    braced (a ++ b) = braced a ++ braced b := by
  have hopen : a.foldl openNext none = none := foldl_openNext_of_isClosed ha
  rw [braced, bracedFrom_append, hopen]
  rfl

/-- What has been read since the brace was opened is found when it is closed. -/
private theorem bracedFrom_some_append {read inner : List Char} (hinner : IsPlain inner)
    (cs : List Char) :
    bracedFrom (some read) (inner ++ '\x7d' :: cs) = (read.reverse ++ inner) :: braced cs := by
  induction inner generalizing read with
  | nil =>
    rw [List.nil_append, bracedFrom_cons, List.append_nil]
    rfl
  | cons c inner ih =>
    obtain ⟨hopen, hclose, hplain⟩ := isPlain_cons_iff.mp hinner
    rw [List.cons_append, bracedFrom_cons, if_neg hclose, openNext, if_neg hopen, if_neg hclose,
      Option.map_some, ih hplain, List.reverse_cons, List.append_assoc]
    rfl

/-- A text in braces is found, and the search goes on behind it. -/
private theorem braced_inBraces_append {inner : List Char} (hinner : IsPlain inner)
    (cs : List Char) : braced (inBraces inner ++ cs) = inner :: braced cs := by
  rw [inBraces, List.cons_append, List.append_assoc, braced, bracedFrom_cons]
  exact bracedFrom_some_append hinner cs

/-! ### What a search finds -/

/-- Texts in braces are found behind other characters. -/
theorem HasBraced.cons {route before inner after : List Char}
    (h : HasBraced route before inner after) (c : Char) :
    HasBraced (c :: route) (c :: before) inner after :=
  ⟨by rw [h.eq, List.cons_append], h.plain⟩

/-- They are found in front of other characters, too. -/
theorem HasBraced.append {route before inner after : List Char}
    (h : HasBraced route before inner after) (cs : List Char) :
    HasBraced (route ++ cs) before inner (after ++ cs) :=
  ⟨by rw [h.eq, List.append_assoc, List.append_assoc], h.plain⟩

/-- What is found stands in braces, or it ends what has been read since the last open brace. -/
theorem exists_of_mem_bracedFrom {inside : Option (List Char)} {cs inner : List Char}
    (h : inner ∈ bracedFrom inside cs) :
    (∃ read more after, inside = some read ∧ IsPlain more ∧ inner = read.reverse ++ more ∧
      cs = more ++ '\x7d' :: after) ∨
    ∃ before after, HasBraced cs before inner after := by
  induction cs generalizing inside with
  | nil => exact absurd h List.not_mem_nil
  | cons c cs ih =>
    rw [bracedFrom_cons, List.mem_append] at h
    rcases h with hfound | hlater
    · -- a brace closes what has been read
      split at hfound
      · next hclose =>
        rw [Option.mem_toList, Option.map_eq_some_iff] at hfound
        obtain ⟨read, hread, rfl⟩ := hfound
        exact .inl ⟨read, [], cs, hread, isPlain_nil, (List.append_nil _).symm, by rw [hclose]; rfl⟩
      · exact absurd hfound List.not_mem_nil
    rcases ih hlater with ⟨read, more, after, hread, hplain, hinner, hcs⟩ | ⟨before, after, hbraced⟩
    · rw [openNext] at hread
      split at hread
      · next hopen =>
        obtain rfl := Option.some.inj hread
        refine .inr ⟨[], after, ?_, hinner ▸ hplain⟩
        rw [hopen, hinner, hcs]
        simp [inBraces]
      · next hopen =>
        split at hread
        · cases hread
        · next hclose =>
          obtain ⟨read', hread', rfl⟩ := Option.map_eq_some_iff.mp hread
          refine .inl ⟨read', c :: more, after, hread',
            isPlain_cons_iff.mpr ⟨hopen, hclose, hplain⟩, ?_, ?_⟩
          · rw [hinner, List.reverse_cons, List.append_assoc]
            rfl
          · rw [hcs]
            rfl
    · exact .inr ⟨c :: before, after, hbraced.cons c⟩

/-- What is found stands in braces. -/
private theorem exists_of_mem_braced {route inner : List Char} (h : inner ∈ braced route) :
    ∃ before after, HasBraced route before inner after := by
  rcases exists_of_mem_bracedFrom h with ⟨read, more, after, hread, -⟩ | hbraced
  · cases hread
  · exact hbraced

/-- A search finds what is read. -/
theorem Scans.eq_braced {route : List Char} {inners : List (List Char)} (h : Scans route inners) :
    inners = braced route := by
  induction h with
  | done hnone =>
    symm
    rw [List.eq_nil_iff_forall_not_mem]
    intro inner hinner
    obtain ⟨before, after, hbraced⟩ := exists_of_mem_braced hinner
    exact hnone before inner after hbraced
  | @next route before inner after inners hbraced hfirst _ ih =>
    -- something in braces before the first one would be the first one
    have hbefore : braced before = [] := by
      rw [List.eq_nil_iff_forall_not_mem]
      intro inner' hinner'
      obtain ⟨before', after', hbraced'⟩ := exists_of_mem_braced hinner'
      have hle := hfirst _ _ _ (hbraced.eq ▸ hbraced'.append (inBraces inner ++ after))
      have hlength := congrArg List.length hbraced'.eq
      simp only [inBraces, List.length_append, List.length_cons] at hlength
      omega
    have hroute : braced route = braced before ++ braced (inBraces inner ++ after) := by
      rw [hbraced.eq]
      exact bracedFrom_append none before _
    rw [hroute, hbefore, braced_inBraces_append hbraced.plain, ih]
    rfl

/-- A search from the left comes to its end. -/
private theorem exists_scans (route : List Char) : ∃ inners, Scans route inners := by
  classical
  induction hlength : route.length using Nat.strong_induction_on generalizing route with
  | _ n ih =>
    by_cases h : ∃ k before inner after, HasBraced route before inner after ∧ before.length = k
    · obtain ⟨before, inner, after, hbraced, hk⟩ := Nat.find_spec h
      have hshorter : after.length < n := by
        rw [← hlength, hbraced.eq]
        simp only [inBraces, List.length_append, List.length_cons]
        omega
      obtain ⟨inners, hrest⟩ := ih _ hshorter after rfl
      refine ⟨inner :: inners, .next hbraced (fun before' inner' after' hbraced' => ?_) hrest⟩
      rw [hk]
      exact Nat.find_min' h ⟨before', inner', after', hbraced', rfl⟩
    · exact ⟨[], .done fun before inner after hbraced =>
        h ⟨_, before, inner, after, hbraced, rfl⟩⟩

/-- **A search from the left** finds what stands in braces, and nothing else. -/
theorem scans_iff {route : List Char} {inners : List (List Char)} :
    Scans route inners ↔ inners = braced route := by
  refine ⟨Scans.eq_braced, ?_⟩
  rintro rfl
  obtain ⟨inners, hscans⟩ := exists_scans route
  rwa [← hscans.eq_braced]

/-! ### Names -/

/-- The mark of a variable that matches the rest of a path. -/
def dots : List Char := ['.', '.', '.']

/-- What stands in braces is a name, with the mark of the rest of a path or without it, unless the
name is empty or it is the mark of the end. -/
theorem varName?_eq_some_iff {inner name : List Char} :
    varName? inner = some name ↔
      name ≠ [] ∧ inner ≠ ['$'] ∧ (inner = name ++ dots ∨ inner = name ∧ ¬ dots <:+ inner) := by
  have hname : (Text.stripEnd? dots inner).getD inner = name ↔
      inner = name ++ dots ∨ inner = name ∧ ¬ dots <:+ inner := by
    cases hstrip : Text.stripEnd? dots inner with
    | none =>
      have hnot : ¬ dots <:+ inner := by
        rintro ⟨body, hbody⟩
        rw [Text.stripEnd?_eq_some_iff.mpr hbody.symm] at hstrip
        cases hstrip
      constructor
      · exact fun heq => .inr ⟨heq, hnot⟩
      · rintro (heq | ⟨heq, -⟩)
        · exact absurd ⟨name, heq.symm⟩ hnot
        · exact heq
    | some body =>
      have hinner := Text.stripEnd?_eq_some_iff.mp hstrip
      constructor
      · rintro rfl
        exact .inl hinner
      · rintro (heq | ⟨-, hnot⟩)
        · exact List.append_cancel_right (hinner.symm.trans heq)
        · exact absurd ⟨body, hinner.symm⟩ hnot
  have hvar : varName? inner = if inner = ['$'] then none
      else if ((Text.stripEnd? dots inner).getD inner).isEmpty then none
      else some ((Text.stripEnd? dots inner).getD inner) := rfl
  rw [hvar, Option.ite_none_left_eq_some, Option.ite_none_left_eq_some, Option.some.injEq,
    List.isEmpty_iff, ← hname]
  constructor
  · rintro ⟨hend, hne, rfl⟩
    exact ⟨hne, hend, rfl⟩
  · rintro ⟨hne, hend, rfl⟩
    exact ⟨hend, hne, rfl⟩

/-! ### Segments -/

/-- The name of a variable, as it may be written in a segment. -/
structure VarName where
  text : List Char
  ne_nil : text ≠ []
  plain : IsPlain text
  noSlash : '/' ∉ text
  ne_endMark : text ≠ ['$']
  noDots : ¬ dots <:+ text

/-- A part of a route between its slashes. -/
inductive Segment where
  | literal (text : List Char) (plain : IsPlain text) (noSlash : '/' ∉ text)
  | named (name : VarName)
  /-- A variable that matches the rest of a path. -/
  | wildcard (name : VarName)

namespace Segment

/-- The text of a segment. -/
def text : Segment → List Char
  | literal text _ _ => text
  | named name => inBraces name.text
  | wildcard name => inBraces (name.text ++ dots)

/-- The name of the variable in a segment. -/
def name? : Segment → Option (List Char)
  | literal _ _ _ => none
  | named name => some name.text
  | wildcard name => some name.text

end Segment

/-- A route can be cut where no brace is open. -/
private theorem vars_append {a : List Char} (ha : IsClosed a) (b : List Char) :
    vars (a ++ b) = vars a ++ vars b := by
  rw [vars, braced_append ha, List.filterMap_append]
  rfl

private theorem IsPlain.isClosed {cs : List Char} (h : IsPlain cs) : IsClosed cs := fun hmem =>
  h.1 ((List.rtakeWhile_suffix _ _).subset hmem)

/-- A text without braces has no variables. -/
private theorem IsPlain.vars_eq {cs : List Char} (h : IsPlain cs) : vars cs = [] := by
  rw [vars, List.filterMap_eq_nil_iff]
  intro inner hinner
  obtain ⟨before, after, hbraced⟩ := exists_of_mem_braced hinner
  refine absurd ?_ h.1
  rw [hbraced.eq]
  exact List.mem_append_right before List.mem_cons_self

private theorem isClosed_inBraces (inner : List Char) : IsClosed (inBraces inner) := by
  rw [IsClosed, inBraces, ← List.cons_append, List.rtakeWhile_concat_neg _ _ _ (by decide)]
  exact List.not_mem_nil

/-- A name in braces is a variable. -/
private theorem vars_inBraces {inner name : List Char} (hinner : IsPlain inner)
    (hname : varName? inner = some name) : vars (inBraces inner) = [name] := by
  have hbraced := braced_inBraces_append hinner []
  rw [List.append_nil] at hbraced
  rw [vars, hbraced, List.filterMap_cons, hname]
  rfl

/-- Neither a name nor the dots behind it have braces in them. -/
private theorem VarName.plain_append_dots (name : VarName) : IsPlain (name.text ++ dots) := by
  obtain ⟨hopen, hclose⟩ := name.plain
  constructor
  · rw [List.mem_append, not_or]
    exact ⟨hopen, by decide⟩
  · rw [List.mem_append, not_or]
    exact ⟨hclose, by decide⟩

/-- A segment has no open brace, and no variable but its own. -/
theorem Segment.isClosed_and_vars_eq (s : Segment) :
    IsClosed s.text ∧ vars s.text = s.name?.toList := by
  cases s with
  | literal text plain noSlash => exact ⟨plain.isClosed, plain.vars_eq⟩
  | named name =>
    refine ⟨isClosed_inBraces _, vars_inBraces name.plain ?_⟩
    exact varName?_eq_some_iff.mpr ⟨name.ne_nil, name.ne_endMark, .inr ⟨rfl, name.noDots⟩⟩
  | wildcard name =>
    refine ⟨isClosed_inBraces _, vars_inBraces name.plain_append_dots ?_⟩
    refine varName?_eq_some_iff.mpr ⟨name.ne_nil, fun heq => ?_, .inl rfl⟩
    have hlength := congrArg List.length heq
    simp [dots] at hlength

/-- The variables of a route are those of its segments, and of what follows them. -/
theorem vars_join_append (segments : List Segment) (rest : List Char) :
    vars (Text.join '/' (segments.map Segment.text) ++ rest) =
      segments.filterMap Segment.name? ++ vars rest := by
  induction segments with
  | nil => rfl
  | cons s segments ih =>
    obtain ⟨hclosed, hvars⟩ := s.isClosed_and_vars_eq
    -- a segment has one variable or none, and braces do not reach over its end
    have hnames : (s :: segments).filterMap Segment.name? =
        vars s.text ++ segments.filterMap Segment.name? := by
      rw [hvars, List.filterMap_cons]
      cases s.name? <;> rfl
    rw [hnames, List.append_assoc]
    cases segments with
    | nil => exact vars_append hclosed rest
    | cons next segments =>
      have hslash : IsPlain ['/'] := ⟨by decide, by decide⟩
      rw [List.map_cons, Text.join_cons s.text (by simp), List.append_assoc, vars_append hclosed,
        ← ih, List.cons_append]
      exact congrArg _ ((vars_append hslash.isClosed _).trans (by rw [hslash.vars_eq]; rfl))

/-- **The variables of a route** that is put together from segments are those of its segments, in
order and with their repetitions; a mark of the end, as a segment of its own or right behind the
last one, adds nothing. The variables of any text are the names in what a search from the left finds
in braces. So a text without an open brace can be cut off. -/
theorem vars_segments (segments : List Segment) (mark : List Char)
    (hmark : mark ∈ [[], endMark, '/' :: endMark]) (route : List Char) {a : List Char}
    (ha : IsClosed a) (b : List Char) :
    vars (Text.join '/' (segments.map Segment.text) ++ mark) =
        segments.filterMap Segment.name? ∧
      (∃ inners, (∀ found, Scans route found ↔ found = inners) ∧
        vars route = inners.filterMap varName?) ∧
      (∀ inner name, varName? inner = some name ↔ name ≠ [] ∧ inner ≠ ['$'] ∧
        (inner = name ++ dots ∨ inner = name ∧ ¬ dots <:+ inner)) ∧
      vars (a ++ b) = vars a ++ vars b := by
  refine ⟨?_, ⟨braced route, fun found => scans_iff, rfl⟩, fun inner name => varName?_eq_some_iff,
    vars_append ha b⟩
  have hnone : vars mark = [] := by
    simp only [List.mem_cons, List.not_mem_nil, or_false] at hmark
    rcases hmark with rfl | rfl | rfl <;> rfl
  rw [vars_join_append, hnone, List.append_nil]

/-- The name of an identifier. -/
def idName : VarName where
  text := "id".toList
  ne_nil := by decide
  plain := ⟨by decide, by decide⟩
  noSlash := by decide
  ne_endMark := by decide
  noDots := by decide

/-- A route in which a variable occurs twice, the second time as the rest of a path. -/
def twiceNamed : List Segment :=
  [.literal [] isPlain_nil (by decide), .named idName,
    .literal "by".toList ⟨by decide, by decide⟩ (by decide), .wildcard idName]

/-- A variable that occurs twice, and an opening brace that is not closed itself. -/
theorem vars_segments_twiceNamed :
    Text.join '/' (twiceNamed.map Segment.text) ++ '/' :: endMark =
        "/\x7bid\x7d/by/\x7bid...\x7d/\x7b$\x7d".toList ∧
      vars "/\x7bid\x7d/by/\x7bid...\x7d/\x7b$\x7d".toList = ["id".toList, "id".toList] ∧
      Scans "/\x7ba\x7bb\x7d".toList ["b".toList] ∧
      vars ("/\x7ba\x7bb\x7d".toList ++ "c\x7d/\x7bd\x7d".toList) = ["b".toList, "d".toList] := by
  obtain ⟨hvars, -, -, happend⟩ :=
    vars_segments twiceNamed ('/' :: endMark) (by decide) "/\x7ba\x7bb\x7d".toList
      (a := "/\x7ba\x7bb\x7d".toList) (by decide) "c\x7d/\x7bd\x7d".toList
  have htext : Text.join '/' (twiceNamed.map Segment.text) ++ '/' :: endMark =
      "/\x7bid\x7d/by/\x7bid...\x7d/\x7b$\x7d".toList := by decide
  exact ⟨htext, htext ▸ hvars, scans_iff.mpr (by decide), happend.trans (by decide)⟩

end GoPages.Route
