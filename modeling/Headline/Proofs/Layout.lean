import Headline.Report.Results
import Mathlib.Data.List.Basic

/-!
# The layout of shown results

However text is added to another, it stands at the end without its control characters, with a span
over it if it has a style (`Appends`). A text that is made of pieces then holds them one behind the
other, and every piece with a style has a span of its own (`ofPieces_eq`). So the spans stand in
order and apart (`pairwise_spansFrom`), what is cut out at them are the pieces with a style
(`map_cut_spansFrom`), and what is left over between them are the runs of pieces without one
(`unstyledFrom_spansFrom`).

For the block that shows an outcome this gives its whole layout (`results_laid_out`).
-/

namespace Headline.Report

/-! ## Texts cut at spans -/

/-- The characters of a text from one place up to another. -/
def slice (s : Text) (start stop : Nat) : Text := (s.take stop).drop start

namespace StyledText

/-- What the spans of a text are put on, with their styles. -/
def styled (t : StyledText) : List (Style × Text) :=
  t.spans.map fun span => (span.style, slice t.plain span.start span.stop)

/-- What a text holds from a place on outside of spans: in front of each of them, and behind the
last. -/
def unstyledFrom (plain : Text) (start : Nat) : List Span → List Text
  | [] => [plain.drop start]
  | span :: spans => slice plain start span.start :: unstyledFrom plain span.stop spans

/-- What a text holds outside of its spans: in front of each of them, and behind the last. -/
def unstyled (t : StyledText) : List Text := unstyledFrom t.plain 0 t.spans

end StyledText

theorem slice_middle (before middle behind : Text) :
    slice (before ++ middle ++ behind) before.length (before.length + middle.length) = middle := by
  rw [slice, ← List.length_append, List.take_left, List.drop_left]

theorem lt_of_slice_ne_nil {s : Text} {start stop : Nat} (h : slice s start stop ≠ []) :
    start < stop := by
  by_contra hle
  refine h (List.drop_eq_nil_of_le ?_)
  rw [List.length_take]
  omega

/-! ## Adding text -/

/-- What is kept of a text: all but bells, backspaces, vertical tabs, form feeds and carriage
returns. -/
def kept (s : Text) : Text := s.filter fun c => c.toNat ∉ [0x07, 0x08, 0x0B, 0x0C, 0x0D]

/-- What is known of a way to add text: nothing becomes of an empty text, and what is kept of
another one stands at the end, with a span over it if it has a style. -/
structure Appends (append : StyledText.Append) : Prop where
  empty : ∀ t style, append t [] style = t
  bare : ∀ t s, s ≠ [] → append t s none = ⟨t.plain ++ kept s, t.spans⟩
  styled : ∀ t s style, s ≠ [] → append t s (some style) =
    ⟨t.plain ++ kept s, t.spans ++ [⟨t.plain.length, t.plain.length + (kept s).length, style⟩]⟩

theorem kept_append (s t : Text) : kept (s ++ t) = kept s ++ kept t := List.filter_append ..

theorem kept_eq_dropControls (s : Text) : kept s = dropControls s :=
  List.filter_congr fun c _ => by simp [isControl]

/-- The usual way to add text is such a way. -/
theorem appends_append : Appends StyledText.append where
  empty := fun _ _ => rfl
  bare := fun t s hs => by
    obtain ⟨c, s, rfl⟩ := List.exists_cons_of_ne_nil hs
    rw [kept_eq_dropControls]
    show StyledText.mk _ (t.spans ++ []) = _
    rw [List.append_nil]
  styled := fun t s style hs => by
    obtain ⟨c, s, rfl⟩ := List.exists_cons_of_ne_nil hs
    rw [kept_eq_dropControls]
    rfl

/-! ## Pieces

A piece is a text with the style that it is added in, if it has one. -/

/-- The plain text of pieces. -/
def plainOf (pieces : List (Text × Option Style)) : Text := pieces.flatMap fun p => kept p.1

/-- The spans of pieces that are added at a place. An empty piece has none. -/
def spansFrom (start : Nat) : List (Text × Option Style) → List Span
  | [] => []
  | (s, style) :: pieces =>
    let stop := start + (kept s).length
    match style, s with
    | some style, _ :: _ => ⟨start, stop, style⟩ :: spansFrom stop pieces
    | _, _ => spansFrom stop pieces

/-- The pieces with a style. -/
def styledPieces : List (Text × Option Style) → List (Style × Text)
  | [] => []
  | (s, style) :: pieces =>
    match style, s with
    | some style, _ :: _ => (style, kept s) :: styledPieces pieces
    | _, _ => styledPieces pieces

/-- The runs of pieces without a style, given the run so far: one in front of each piece that has
one, and one behind the last. -/
def runsFrom (run : Text) : List (Text × Option Style) → List Text
  | [] => [run]
  | (s, style) :: pieces =>
    match style, s with
    | some _, _ :: _ => run :: runsFrom [] pieces
    | _, _ => runsFrom (run ++ kept s) pieces

section Pieces

variable {s : Text} {style : Style}

theorem plainOf_cons (s : Text) (style : Option Style) (pieces : List (Text × Option Style)) :
    plainOf ((s, style) :: pieces) = kept s ++ plainOf pieces := rfl

theorem spansFrom_bare (start : Nat) (s : Text) (pieces : List (Text × Option Style)) :
    spansFrom start ((s, none) :: pieces) =
      spansFrom (start + (kept s).length) pieces := rfl

theorem spansFrom_empty (start : Nat) (style : Style) (pieces : List (Text × Option Style)) :
    spansFrom start (([], some style) :: pieces) = spansFrom start pieces := rfl

theorem spansFrom_styled (start : Nat) (hs : s ≠ []) (style : Style)
    (pieces : List (Text × Option Style)) :
    spansFrom start ((s, some style) :: pieces) =
      ⟨start, start + (kept s).length, style⟩ ::
        spansFrom (start + (kept s).length) pieces := by
  obtain ⟨c, s, rfl⟩ := List.exists_cons_of_ne_nil hs
  rfl

theorem styledPieces_styled (hs : s ≠ []) (style : Style) (pieces : List (Text × Option Style)) :
    styledPieces ((s, some style) :: pieces) = (style, kept s) :: styledPieces pieces := by
  obtain ⟨c, s, rfl⟩ := List.exists_cons_of_ne_nil hs
  rfl

theorem runsFrom_bare (run s : Text) (pieces : List (Text × Option Style)) :
    runsFrom run ((s, none) :: pieces) = runsFrom (run ++ kept s) pieces := rfl

theorem runsFrom_empty (run : Text) (style : Style) (pieces : List (Text × Option Style)) :
    runsFrom run (([], some style) :: pieces) = runsFrom run pieces := by
  show runsFrom (run ++ []) pieces = _
  rw [List.append_nil]

theorem runsFrom_styled (run : Text) (hs : s ≠ []) (style : Style)
    (pieces : List (Text × Option Style)) :
    runsFrom run ((s, some style) :: pieces) = run :: runsFrom [] pieces := by
  obtain ⟨c, s, rfl⟩ := List.exists_cons_of_ne_nil hs
  rfl

/-- Pieces lead on from one of three forms: without a style, empty, or with a style and a text. -/
theorem pieces_induction {motive : List (Text × Option Style) → Prop} (nil : motive [])
    (bare : ∀ s pieces, motive pieces → motive ((s, none) :: pieces))
    (empty : ∀ style pieces, motive pieces → motive (([], some style) :: pieces))
    (styled : ∀ s style pieces, s ≠ [] → motive pieces → motive ((s, some style) :: pieces)) :
    ∀ pieces, motive pieces
  | [] => nil
  | (s, none) :: pieces => bare s pieces (pieces_induction nil bare empty styled pieces)
  | ([], some style) :: pieces => empty style pieces (pieces_induction nil bare empty styled pieces)
  | (c :: s, some style) :: pieces =>
    styled (c :: s) style pieces (List.cons_ne_nil c s)
      (pieces_induction nil bare empty styled pieces)

section Adding

variable {append : StyledText.Append} (happend : Appends append)
include happend

theorem append_bare (t : StyledText) (s : Text) :
    append t s none = ⟨t.plain ++ kept s, t.spans⟩ := by
  by_cases hs : s = []
  · rw [hs, happend.empty]
    exact congrArg (StyledText.mk · t.spans) (List.append_nil _).symm
  · exact happend.bare t s hs

/-- What adding pieces to a text leads to. -/
theorem foldl_append_eq (pieces : List (Text × Option Style)) (t : StyledText) :
    pieces.foldl (fun t p => append t p.1 p.2) t =
      ⟨t.plain ++ plainOf pieces, t.spans ++ spansFrom t.plain.length pieces⟩ := by
  induction pieces using pieces_induction generalizing t with
  | nil => simp [plainOf, spansFrom]
  | bare s pieces ih =>
    rw [List.foldl_cons, ih, append_bare happend, spansFrom_bare]
    simp [plainOf]
  | empty style pieces ih =>
    rw [List.foldl_cons, happend.empty, ih, spansFrom_empty]
    rfl
  | styled s style pieces hs ih =>
    rw [List.foldl_cons, ih, happend.styled t s style hs, spansFrom_styled _ hs]
    simp [plainOf]

theorem ofPieces_eq (pieces : List (Text × Option Style)) :
    StyledText.ofPieces append pieces = ⟨plainOf pieces, spansFrom 0 pieces⟩ :=
  foldl_append_eq happend pieces .empty

end Adding

/-! ## Spans -/

theorem le_of_mem_spansFrom {pieces : List (Text × Option Style)} {start : Nat} {span : Span}
    (h : span ∈ spansFrom start pieces) :
    start ≤ span.start ∧ span.stop ≤ start + (plainOf pieces).length := by
  induction pieces using pieces_induction generalizing start with
  | nil => simp [spansFrom] at h
  | bare s pieces ih =>
    have hrest := ih h
    rw [plainOf_cons, List.length_append]
    omega
  | empty style pieces ih => exact ih h
  | styled s style pieces hs ih =>
    rw [spansFrom_styled _ hs] at h
    rw [plainOf_cons, List.length_append]
    -- it is the span of this piece, or that of a later one
    rcases List.mem_cons.1 h with rfl | h
    · exact ⟨Nat.le_refl _, by simp only; omega⟩
    · have hrest := ih h
      omega

/-- The spans of pieces stand in order, and none of them reaches into the next. -/
theorem pairwise_spansFrom (start : Nat) (pieces : List (Text × Option Style)) :
    (spansFrom start pieces).Pairwise fun a b => a.stop ≤ b.start := by
  induction pieces using pieces_induction generalizing start with
  | nil => exact .nil
  | bare s pieces ih => exact ih _
  | empty style pieces ih => exact ih _
  | styled s style pieces hs ih =>
    rw [spansFrom_styled _ hs]
    exact .cons (fun span hspan => (le_of_mem_spansFrom hspan).1) (ih _)

/-- Cut out at their spans, the pieces with a style are what they were. -/
theorem map_cut_spansFrom (before : Text) (pieces : List (Text × Option Style)) :
    (spansFrom before.length pieces).map (fun span =>
        (span.style, slice (before ++ plainOf pieces) span.start span.stop)) =
      styledPieces pieces := by
  -- the text in front takes up each piece, so that its length stays the place of the next one
  induction pieces using pieces_induction generalizing before with
  | nil => rfl
  | bare s pieces ih =>
    rw [spansFrom_bare, plainOf_cons, ← List.append_assoc, ← List.length_append]
    exact ih (before ++ kept s)
  | empty style pieces ih => exact ih before
  | styled s style pieces hs ih =>
    rw [spansFrom_styled _ hs, styledPieces_styled hs, plainOf_cons, ← List.append_assoc,
      List.map_cons, slice_middle, ← List.length_append, ih (before ++ kept s)]

/-- Between the spans stand the runs of pieces without a style. -/
theorem unstyledFrom_spansFrom (before run : Text) (pieces : List (Text × Option Style)) :
    StyledText.unstyledFrom (before ++ run ++ plainOf pieces) before.length
        (spansFrom (before ++ run).length pieces) =
      runsFrom run pieces := by
  induction pieces using pieces_induction generalizing before run with
  | nil => simp [spansFrom, plainOf, runsFrom, StyledText.unstyledFrom]
  | bare s pieces ih =>
    rw [spansFrom_bare, plainOf_cons, runsFrom_bare, ← ih before (run ++ kept s),
      ← List.length_append, List.append_assoc before run (kept s), ← List.append_assoc,
      List.append_assoc before run (kept s)]
  | empty style pieces ih =>
    rw [spansFrom_empty, runsFrom_empty]
    exact ih before run
  | styled s style pieces hs ih =>
    -- the span ends the run, and the next one begins empty at its end
    have hrest := ih (before ++ run ++ kept s) []
    have hlength : (before ++ run ++ kept s).length =
        (before ++ run).length + (kept s).length := List.length_append
    rw [List.append_nil, hlength] at hrest
    rw [spansFrom_styled _ hs, runsFrom_styled _ hs, plainOf_cons, StyledText.unstyledFrom,
      ← List.append_assoc, hrest, List.append_assoc, List.length_append, slice_middle]

theorem styled_ofPieces {append : StyledText.Append} (happend : Appends append)
    (pieces : List (Text × Option Style)) :
    (StyledText.ofPieces append pieces).styled = styledPieces pieces := by
  rw [ofPieces_eq happend]
  exact map_cut_spansFrom [] pieces

theorem unstyled_ofPieces {append : StyledText.Append} (happend : Appends append)
    (pieces : List (Text × Option Style)) :
    (StyledText.ofPieces append pieces).unstyled = runsFrom [] pieces := by
  rw [ofPieces_eq happend]
  exact unstyledFrom_spansFrom [] [] pieces

end Pieces

/-! ## Outcomes -/

section Outcomes

open Search Query

/-- The faults that are told of above the summary: that of a query which has been rejected, if the
matches are those of a fallback. -/
def toldFaults (o : Outcome) : List Diagnosis := if o.fallbackUsed then o.fault.toList else []

theorem noticePieces_eq (o : Outcome) :
    noticePieces o = (toldFaults o).map fun fault => (notice fault, some .yellow) := by
  rw [noticePieces, toldFaults]
  cases o.fallbackUsed with
  | false => rfl
  | true => cases o.fault <;> rfl

theorem length_toldFaults (o : Outcome) :
    (toldFaults o).length = if o.fallbackUsed = true ∧ o.fault ≠ none then 1 else 0 := by
  rw [toldFaults]
  cases o.fallbackUsed with
  | false => rfl
  | true => cases o.fault <;> rfl

theorem kept_ne_nil {s : Text} (h : '\n' ∈ s) : kept s ≠ [] :=
  List.ne_nil_of_mem (List.mem_filter.2 ⟨h, by decide⟩)

theorem newline_mem_notice (fault : Diagnosis) : '\n' ∈ notice fault :=
  List.mem_append_right _ (by decide +kernel)

theorem newline_mem_summary (o : Outcome) : '\n' ∈ summary o :=
  List.mem_append_right _ (List.mem_singleton_self _)

theorem newline_mem_linkLine (item : Item) : '\n' ∈ linkLine item :=
  List.mem_append_right _ (List.mem_singleton_self _)

theorem notice_ne_nil (fault : Diagnosis) : notice fault ≠ [] :=
  List.ne_nil_of_mem (newline_mem_notice fault)

theorem styledPieces_notices (faults : List Diagnosis) (pieces : List (Text × Option Style)) :
    styledPieces (faults.map (fun fault => (notice fault, some .yellow)) ++ pieces) =
      faults.map (fun fault => (.yellow, kept (notice fault))) ++ styledPieces pieces := by
  induction faults with
  | nil => rfl
  | cons fault faults ih =>
    rw [List.map_cons, List.cons_append, styledPieces_styled (notice_ne_nil fault), ih]
    rfl

theorem runsFrom_notices (faults : List Diagnosis) (pieces : List (Text × Option Style)) :
    runsFrom [] (faults.map (fun fault => (notice fault, some .yellow)) ++ pieces) =
      faults.map (fun _ => []) ++ runsFrom [] pieces := by
  induction faults with
  | nil => rfl
  | cons fault faults ih =>
    rw [List.map_cons, List.cons_append, runsFrom_styled _ (notice_ne_nil fault), ih]
    rfl

theorem styledPieces_items (items : List Item) :
    styledPieces (items.flatMap itemPieces) =
      items.map fun item => (.dim, kept (linkLine item)) := by
  induction items with
  | nil => rfl
  | cons item items ih =>
    have hlink := List.ne_nil_of_mem (newline_mem_linkLine item)
    show styledPieces ((linkLine item, some .dim) :: items.flatMap itemPieces) = _
    rw [styledPieces_styled hlink, ih]
    rfl

theorem runsFrom_items (items : List Item) :
    runsFrom [] (items.flatMap itemPieces) =
      (items.map fun item => kept (itemLine item ++ ['\n'])) ++ [[]] := by
  induction items with
  | nil => rfl
  | cons item items ih =>
    have hlink := List.ne_nil_of_mem (newline_mem_linkLine item)
    show runsFrom (kept (itemLine item) ++ kept ['\n'])
      ((linkLine item, some .dim) :: items.flatMap itemPieces) = _
    rw [runsFrom_styled _ hlink, ih, ← kept_append]
    rfl

section Blocks

variable {append : StyledText.Append} (happend : Appends append) {o : Outcome}
include happend

theorem styled_results (o : Outcome) :
    (results append o).styled = (toldFaults o).map (fun fault => (.yellow, kept (notice fault))) ++
      (.bold, kept (summary o)) :: o.items.map fun item => (.dim, kept (linkLine item)) := by
  have hsummary := List.ne_nil_of_mem (newline_mem_summary o)
  rw [results, styled_ofPieces happend, noticePieces_eq, styledPieces_notices,
    styledPieces_styled hsummary, styledPieces_items]

theorem unstyled_results (o : Outcome) :
    (results append o).unstyled = (toldFaults o).map (fun _ => []) ++
      [] :: ((o.items.map fun item => kept (itemLine item ++ ['\n'])) ++ [[]]) := by
  have hsummary := List.ne_nil_of_mem (newline_mem_summary o)
  rw [results, unstyled_ofPieces happend, noticePieces_eq, runsFrom_notices,
    runsFrom_styled _ hsummary, runsFrom_items]

theorem ne_nil_of_mem_styled_results {p : Style × Text} (h : p ∈ (results append o).styled) :
    p.2 ≠ [] := by
  rw [styled_results happend, List.mem_append, List.mem_cons] at h
  rcases h with h | rfl | h
  · obtain ⟨fault, -, rfl⟩ := List.mem_map.1 h
    exact kept_ne_nil (newline_mem_notice fault)
  · exact kept_ne_nil (newline_mem_summary o)
  · obtain ⟨item, -, rfl⟩ := List.mem_map.1 h
    exact kept_ne_nil (newline_mem_linkLine item)

theorem lt_of_mem_spans_results {span : Span} (h : span ∈ (results append o).spans) :
    span.start < span.stop := by
  have hcut : (span.style, slice (results append o).plain span.start span.stop) ∈
      (results append o).styled := List.mem_map_of_mem h
  exact lt_of_slice_ne_nil (ne_nil_of_mem_styled_results happend hcut)

theorem length_spans_results (o : Outcome) :
    (results append o).spans.length = 1 + o.items.length +
      if o.fallbackUsed = true ∧ o.fault ≠ none then 1 else 0 := by
  have hcount := congrArg List.length (styled_results happend o)
  rw [StyledText.styled, List.length_map, List.length_append, List.length_map, List.length_cons,
    List.length_map, length_toldFaults] at hcount
  rw [hcount]
  omega

end Blocks

theorem itemLine_eq (item : Item) :
    itemLine item =
      '[' :: (match Calendar.FeedDate.parse item.published with
        | .ok t => t.date.label
        | .error _ => item.published) ++ "] ".toList ++ item.title := rfl

/-- The block that shows an outcome is laid out by its spans, however text is added to it. They
stand in order inside the text, none is empty and none reaches into the next. There is one for the
summary and one for each item, and one more in front just when the query has been rejected and the
matches are those of a fallback. Cut out at the spans are the notice, in yellow, the summary, and
the lines of the links. Outside of them stands the line of each item in front of its link, and
nothing else. -/
theorem results_laid_out {append : StyledText.Append} (happend : Appends append) (o : Outcome) :
    let block := results append o
    let faults := if o.fallbackUsed then o.fault.toList else []
    (block.spans.Pairwise fun a b => a.stop ≤ b.start) ∧
    (∀ span ∈ block.spans, span.start < span.stop ∧ span.stop ≤ block.plain.length) ∧
    (block.spans.length = 1 + o.items.length +
      if o.fallbackUsed = true ∧ o.fault ≠ none then 1 else 0) ∧
    block.styled =
      faults.map (fun fault => (.yellow, kept ("Query rejected (".toList ++ fault.message ++
        "); showing plain substring matches.\n".toList))) ++
      (.bold, kept (Text.ofInt o.total ++ " match(es), showing ".toList ++
        Text.ofNat o.items.length ++ ['\n'])) ::
      o.items.map (fun item => (.dim, kept ("    ".toList ++ item.link ++ ['\n']))) ∧
    block.unstyled =
      faults.map (fun _ => []) ++ [] ::
      (o.items.map fun item => kept ('[' :: (match Calendar.FeedDate.parse item.published with
          | .ok t => t.date.label
          | .error _ => item.published) ++ "] ".toList ++ item.title ++ ['\n'])) ++ [[]] := by
  intro block faults
  have hparts : block = ⟨plainOf _, spansFrom 0 _⟩ := ofPieces_eq happend _
  refine ⟨?_, fun span hspan => ⟨lt_of_mem_spans_results happend hspan, ?_⟩,
    length_spans_results happend o, styled_results happend o, ?_⟩
  · rw [hparts]
    exact pairwise_spansFrom 0 _
  · rw [hparts] at hspan ⊢
    have hinside := (le_of_mem_spansFrom hspan).2
    rwa [Nat.zero_add] at hinside
  · have hrest := unstyled_results happend o
    simp only [itemLine_eq] at hrest
    rw [hrest, List.append_assoc]
    rfl

/-- A query that has been rejected, with an item whose link holds a bell. -/
theorem results_of_rejected_query :
    let item : Item := ⟨"https://a/\u0007b".toList, "t".toList,
      "2024年01月31日 15時04分05秒".toList, []⟩
    let o : Outcome := ⟨"(t".toList, [item], 2, true, some ⟨"Unmatched '('".toList, 0⟩⟩
    (results .append o).styled =
      [(.yellow, "Query rejected (Unmatched '('); showing plain substring matches.\n".toList),
        (.bold, "2 match(es), showing 1\n".toList), (.dim, "    https://a/b\n".toList)] ∧
    (results .append o).unstyled = [[], [], "[2024-01-31] t\n".toList, []] ∧
    (results .append o).spans.length = 3 := by
  intro item o
  obtain ⟨-, -, hlength, hstyled, hunstyled⟩ := results_laid_out appends_append o
  exact ⟨hstyled.trans (by decide +kernel), hunstyled.trans (by decide +kernel),
    hlength.trans (by decide)⟩

end Outcomes

end Headline.Report
