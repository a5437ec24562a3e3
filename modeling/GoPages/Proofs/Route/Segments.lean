import Mathlib.Data.List.DropRight
import GoPages.Proofs.Text.Pieces
import GoPages.Route

/-!
# The segments of routes

`Route.isUnder` compares texts. What it says is a matter of segments, the parts of a route between
its slashes: a route is under another one if it begins with the segments of the other one
(`Route.isUnder_iff_isPrefix`). So being under is a preorder, and routes that are under each other
have the same segments (`Route.isUnder_segments`).

A mark of the end and slashes at the end are no segments: `Route.exists_clean_eq` says what is left
of a route without them.
-/

namespace GoPages.Route

/-- The mark of the end of a path. -/
def endMark : List Char := ['\x7b', '$', '\x7d']

/-- The parts of a clean route after the slash at its start. The root has none. -/
def segments (cleaned : List Char) : List (List Char) :=
  match cleaned.tail with
  | [] => []
  | c :: path => Text.pieces '/' (c :: path)

/-! ### Clean routes -/

/-- Without the slashes at its end, a text does not end with one. -/
theorem exists_dropSlashes_eq (cs : List Char) :
    ∃ n, cs = dropSlashes cs ++ List.replicate n '/' ∧ (dropSlashes cs).getLast? ≠ some '/' := by
  have hdrop : dropSlashes cs = cs.rdropWhile (· == '/') := rfl
  have hslashes : cs.rtakeWhile (· == '/') =
      List.replicate (cs.rtakeWhile (· == '/')).length '/' :=
    List.eq_replicate_of_mem fun c hc => by simpa using List.mem_rtakeWhile_imp hc
  refine ⟨(cs.rtakeWhile (· == '/')).length, ?_, fun hlast => ?_⟩
  · rw [hdrop, ← hslashes, List.rdropWhile_append_rtakeWhile]
  · rw [hdrop] at hlast
    obtain ⟨hne, hslash⟩ := List.mem_getLast?_eq_getLast hlast
    exact List.rdropWhile_last_not _ _ hne (by simp [← hslash])

/-- A route without a mark of its end. -/
theorem exists_unmarked_eq (route : List Char) :
    ∃ mark, route = (Text.stripEnd? endMark route).getD route ++ mark ∧
      (mark = endMark ∨ mark = [] ∧ ¬ endMark <:+ route) := by
  cases hstrip : Text.stripEnd? endMark route with
  | none =>
    refine ⟨[], (List.append_nil route).symm, .inr ⟨rfl, fun ⟨body, hbody⟩ => ?_⟩⟩
    rw [Text.stripEnd?_eq_some_iff.mpr hbody.symm] at hstrip
    cases hstrip
  | some body => exact ⟨endMark, Text.stripEnd?_eq_some_iff.mp hstrip, .inl rfl⟩

/-- **A clean route** is what precedes the slashes at the end of a well-formed route, and the mark
of its end, if it has one. The slash at its start is never taken away. -/
theorem exists_clean_eq {route : List Char} (h : wellFormed route) :
    ∃ path, clean route = '/' :: path ∧ path.getLast? ≠ some '/' ∧
      ∃ n mark, route = '/' :: path ++ List.replicate n '/' ++ mark ∧
        (mark = endMark ∨ mark = [] ∧ ¬ endMark <:+ route) := by
  have hclean := clean.eq_def route
  dsimp only at hclean
  rw [← endMark] at hclean
  obtain ⟨mark, hroute, hmark⟩ := exists_unmarked_eq route
  obtain ⟨n, hbody, hlast⟩ := exists_dropSlashes_eq ((Text.stripEnd? endMark route).getD route)
  generalize (Text.stripEnd? endMark route).getD route = body at hclean hroute hbody hlast
  have hhead : route.head? = some '/' := by simpa using ((Bool.and_eq_true _ _).mp h).1
  cases hdrop : dropSlashes body with
  | nil =>
    -- nothing but slashes is left, one of which stays
    rw [hdrop] at hclean hbody
    cases n with
    | zero =>
      rw [hroute, hbody] at hhead
      rcases hmark with rfl | ⟨rfl, -⟩ <;> simp [endMark] at hhead
    | succ n =>
      refine ⟨[], hclean, by simp, n, mark, ?_, hmark⟩
      rw [hroute, hbody, List.replicate_succ]
      simp
  | cons c path =>
    rw [hdrop] at hclean hbody hlast
    obtain rfl : c = '/' := by
      rw [hroute, hbody] at hhead
      simpa using hhead
    refine ⟨path, hclean, fun hslash => hlast ?_, n, mark, ?_, hmark⟩
    · rw [List.getLast?_cons, hslash]
      rfl
    · rw [← hbody]
      exact hroute

/-! ### Being under a route -/

/-- A route is under another one, unless that is the root, if it continues it at a slash or not at
all. -/
theorem isUnder_iff_continues {route page : List Char} (hpage : clean page ≠ ['/']) :
    isUnder route page ↔
      clean route = clean page ∨ ∃ rest, clean route = clean page ++ '/' :: rest := by
  rw [isUnder, if_neg hpage]
  constructor
  · intro h
    split at h
    · next rest hrest =>
      rw [Text.strip?_eq_some_iff] at hrest
      cases rest with
      | nil => exact .inl (hrest.trans (List.append_nil _))
      | cons c rest =>
        obtain rfl : c = '/' := by simpa using h
        exact .inr ⟨rest, hrest⟩
    · cases h
  · rintro (heq | ⟨rest, heq⟩)
    · rw [Text.strip?_eq_some_iff.mpr (heq.trans (List.append_nil _).symm)]
      rfl
    · rw [Text.strip?_eq_some_iff.mpr heq]
      rfl

/-- A route is under another one if it begins with its segments. -/
theorem isUnder_iff_isPrefix {route page : List Char} (hroute : wellFormed route)
    (hpage : wellFormed page) :
    isUnder route page ↔ segments (clean page) <+: segments (clean route) := by
  obtain ⟨x, hx, -⟩ := exists_clean_eq hpage
  obtain ⟨y, hy, -⟩ := exists_clean_eq hroute
  cases x with
  | nil => simp [isUnder, hx, hy, segments]
  | cons c x =>
    rw [isUnder_iff_continues (by simp [hx]), hx, hy]
    simp only [List.cons_append, List.cons.injEq, true_and]
    cases y with
    | nil => simp [segments, Text.pieces_ne_nil]
    | cons d y => exact Text.pieces_isPrefix_iff.symm

/-- **Being under a route is a matter of segments.** A route is under another one exactly if it
begins with its segments. So every route is under itself, what is under a route that is under a
third one is under the third one, and routes that are under each other have the same segments. -/
theorem isUnder_segments {route page site : List Char} (hroute : wellFormed route)
    (hpage : wellFormed page) (hsite : wellFormed site) :
    (isUnder route page ↔ segments (clean page) <+: segments (clean route)) ∧
    isUnder route route ∧
    (isUnder route page → isUnder page site → isUnder route site) ∧
    (isUnder route page → isUnder page route →
      segments (clean route) = segments (clean page)) := by
  rw [isUnder_iff_isPrefix hroute hpage, isUnder_iff_isPrefix hroute hroute,
    isUnder_iff_isPrefix hpage hsite, isUnder_iff_isPrefix hroute hsite,
    isUnder_iff_isPrefix hpage hroute]
  exact ⟨.rfl, List.prefix_rfl, fun hpage hsite => hsite.trans hpage,
    fun hpage hroute => hroute.eq_of_length_le hpage.length_le⟩

/-- A route with an empty segment, under that of a page with a slash and a mark at its end. -/
theorem isUnder_segments_item :
    segments (clean "/shop//\x7bid\x7d/".toList) = ["shop".toList, [], "\x7bid\x7d".toList] ∧
      segments (clean "/shop/\x7b$\x7d".toList) = ["shop".toList] ∧
      isUnder "/shop//\x7bid\x7d/".toList "/shop/\x7b$\x7d".toList ∧
      isUnder "/shop//\x7bid\x7d/".toList "/".toList := by
  obtain ⟨hiff, -, htrans, -⟩ := @isUnder_segments "/shop//\x7bid\x7d/".toList
    "/shop/\x7b$\x7d".toList "/".toList (by decide) (by decide) (by decide)
  have hpage : isUnder "/shop//\x7bid\x7d/".toList "/shop/\x7b$\x7d".toList :=
    hiff.mpr (by decide)
  exact ⟨by decide, by decide, hpage, htrans hpage (by decide)⟩

end GoPages.Route
