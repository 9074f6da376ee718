import Headline.Proofs.Description
import Headline.Proofs.References

/-!
# Resolved paths

Whatever a path is resolved against, the result is made of characters of both paths and of slashes
(`mem_of_mem_resolvePath`), and its last segment is that of the path itself, or empty
(`afterLast_resolvePath`).
-/

namespace Headline

namespace Text

/-! ## Pieces -/

variable {c d : Char} {sep part s : Text} {parts : List Text}

theorem mem_join (h : c ∈ join sep parts) : c ∈ sep ∨ ∃ part ∈ parts, c ∈ part := by
  cases parts with
  | nil => cases h
  | cons first parts =>
    rw [join_cons, List.mem_append, List.mem_flatMap] at h
    rcases h with hfirst | ⟨part, hpart, hc⟩
    · exact .inr ⟨first, List.mem_cons_self .., hfirst⟩
    · exact (List.mem_append.1 hc).imp_right fun hc =>
        ⟨part, List.mem_cons_of_mem _ hpart, hc⟩

theorem subset_join (h : part ∈ parts) : part ⊆ join sep parts := by
  cases parts with
  | nil => cases h
  | cons first parts =>
    rw [join_cons]
    rcases List.mem_cons.1 h with rfl | hpart
    · exact List.subset_append_left ..
    · refine fun c hc => List.mem_append_right _ (List.mem_flatMap.2 ⟨part, hpart, ?_⟩)
      exact List.mem_append_right _ hc

theorem splitAt_ne_nil (c : Char) (s : Text) : splitAt c s ≠ [] := by
  cases s with
  | nil => exact List.cons_ne_nil _ _
  | cons d s =>
    unfold splitAt
    split
    · exact List.cons_ne_nil _ _
    · split <;> exact List.cons_ne_nil _ _

/-- The pieces put together again are the text. -/
theorem join_splitAt (c : Char) (s : Text) : join [c] (splitAt c s) = s := by
  induction s with
  | nil => rfl
  | cons d s ih =>
    obtain ⟨piece, pieces, hpieces⟩ := List.exists_cons_of_ne_nil (splitAt_ne_nil c s)
    rw [hpieces, join_cons] at ih
    rw [splitAt, hpieces]
    split
    · next hd =>
      rw [join_cons, List.flatMap_cons, List.append_assoc, ih, hd]
      rfl
    · rw [join_cons, List.cons_append, ih]

theorem subset_of_mem_splitAt (h : part ∈ splitAt c s) : part ⊆ s := by
  have hpart : part ⊆ join [c] (splitAt c s) := subset_join h
  rwa [join_splitAt] at hpart

theorem not_mem_of_mem_splitAt (h : part ∈ splitAt c s) : c ∉ part := by
  induction s generalizing part with
  | nil =>
    obtain rfl := List.mem_singleton.1 h
    exact List.not_mem_nil
  | cons d s ih =>
    obtain ⟨piece, pieces, hpieces⟩ := List.exists_cons_of_ne_nil (splitAt_ne_nil c s)
    rw [hpieces] at ih
    rw [splitAt, hpieces] at h
    -- a separator begins a part of its own, and all else belongs to the first part
    split at h
    · rcases List.mem_cons.1 h with rfl | hpart
      · exact List.not_mem_nil
      · exact ih hpart
    · next hd =>
      rcases List.mem_cons.1 h with rfl | hpart
      · exact List.not_mem_cons_of_ne_of_not_mem (fun hcd => hd hcd.symm)
          (ih (List.mem_cons_self ..))
      · exact ih (List.mem_cons_of_mem _ hpart)

theorem join_concat (c : Char) (parts : List Text) (last : Text) :
    ∃ front, join [c] (parts ++ [last]) = front ++ last ∧ (front = [] ∨ ∃ s, front = s ++ [c]) := by
  cases parts with
  | nil => exact ⟨[], by rw [List.nil_append, join_cons, List.flatMap_nil, List.append_nil]; rfl,
      .inl rfl⟩
  | cons first parts =>
    refine ⟨first ++ parts.flatMap ([c] ++ ·) ++ [c], ?_, .inr ⟨_, rfl⟩⟩
    rw [List.cons_append, join_cons, List.flatMap_append]
    simp only [List.flatMap_cons, List.flatMap_nil, List.append_nil, List.append_assoc]

end Text

namespace Link

variable {base path segment last : Text} {done segments : List Text} {c : Char}

/-! ## Last segments -/

theorem afterLast_join {parts : List Text} (h : parts.getLast? = some last) (hlast : c ∉ last) :
    afterLast c (Text.join [c] parts) = last := by
  obtain ⟨parts, rfl⟩ := List.getLast?_eq_some_iff.1 h
  obtain ⟨front, hjoin, hfront⟩ := Text.join_concat c parts last
  rw [hjoin, afterLast_append _ hlast]
  rcases hfront with rfl | ⟨s, rfl⟩
  · rfl
  · rw [afterLast_concat]
    rfl

theorem getLast?_splitAt (c : Char) (s : Text) :
    (Text.splitAt c s).getLast? = some (afterLast c s) := by
  have hlast := List.getLast?_eq_some_getLast (Text.splitAt_ne_nil c s)
  have hafter := afterLast_join hlast (Text.not_mem_of_mem_splitAt (List.getLast_mem _))
  rw [Text.join_splitAt] at hafter
  rw [hlast, hafter]

theorem dropInnerEmpty_sublist (segments : List Text) :
    (dropInnerEmpty segments).Sublist segments := by
  cases segments with
  | nil => exact .slnil
  | cons first rest =>
    rw [dropInnerEmpty]
    cases hrest : rest.getLast? with
    | none =>
      rw [List.getLast?_eq_none_iff.1 hrest]
      exact List.Sublist.refl _
    | some last =>
      obtain ⟨inner, rfl⟩ := List.getLast?_eq_some_iff.1 hrest
      rw [List.dropLast_concat]
      exact (List.filter_sublist.cons_cons first).append (List.Sublist.refl _)

theorem getLast?_dropInnerEmpty (segments : List Text) :
    (dropInnerEmpty segments).getLast? = segments.getLast? := by
  cases segments with
  | nil => rfl
  | cons first rest =>
    rw [dropInnerEmpty]
    cases hrest : rest.getLast? with
    | none =>
      rw [List.getLast?_eq_none_iff.1 hrest]
      rfl
    | some last =>
      obtain ⟨inner, rfl⟩ := List.getLast?_eq_some_iff.1 hrest
      rw [← List.cons_append, List.getLast?_concat]
      exact List.getLast?_concat ..

/-- The last segment of a path stays the last one, whatever is put in front of it. -/
theorem getLast?_resolvedSegments (base path : Text) :
    (resolvedSegments base path).getLast? = some (afterLast '/' path) := by
  unfold resolvedSegments
  split
  · exact getLast?_splitAt '/' path
  · rw [getLast?_dropInnerEmpty, List.getLast?_append, getLast?_splitAt]
    rfl

theorem mem_of_mem_resolvedSegments (h : segment ∈ resolvedSegments base path) (hc : c ∈ segment) :
    c ∈ base ∨ c ∈ path := by
  unfold resolvedSegments at h
  split at h
  · exact .inr (Text.subset_of_mem_splitAt h hc)
  · have hsegment := (dropInnerEmpty_sublist _).subset h
    rcases List.mem_append.1 hsegment with hdirectory | hown
    · refine .inl (Text.subset_of_mem_splitAt (c := '/') ?_ hc)
      split at hdirectory
      · exact hdirectory
      · exact (List.dropLast_sublist _).subset hdirectory
    · exact .inr (Text.subset_of_mem_splitAt hown hc)

theorem mem_of_mem_dropDots (h : segment ∈ dropDots done segments) :
    segment ∈ done ∨ segment ∈ segments := by
  fun_induction dropDots done segments with
  | case1 done => exact .inl (List.mem_reverse.1 h)
  | case2 done segments ih =>
    exact (ih h).imp List.mem_of_mem_tail (List.mem_cons_of_mem _)
  | case3 done segments ih => exact (ih h).imp_right (List.mem_cons_of_mem _)
  | case4 done first segments hup hhere ih =>
    rcases ih h with hdone | hsegments
    · rcases List.mem_cons.1 hdone with rfl | hdone
      · exact .inr (List.mem_cons_self ..)
      · exact .inl hdone
    · exact .inr (List.mem_cons_of_mem _ hsegments)

/-- A last segment that is no `.` or `..` is kept. -/
theorem getLast?_dropDots (h : segments.getLast? = some last) (hlast : isDots last = false) :
    (dropDots done segments).getLast? = some last := by
  fun_induction dropDots done segments with
  | case1 done => cases h
  | case2 done segments ih =>
    -- this segment is dots, so it is not the last one
    cases segments with
    | nil =>
      obtain rfl := Option.some.inj h
      cases hlast
    | cons next segments => exact ih h
  | case3 done segments ih =>
    cases segments with
    | nil =>
      obtain rfl := Option.some.inj h
      cases hlast
    | cons next segments => exact ih h
  | case4 done first segments hup hhere ih =>
    cases segments with
    | nil =>
      rw [dropDots, List.reverse_cons, List.getLast?_concat]
      exact h
    | cons next segments => exact ih h

/-! ## Resolved paths -/

/-- A resolved path is put together from segments of both paths, and a slash if that is empty. -/
theorem exists_resolvePath_eq (base path : Text) :
    ∃ segments, resolvePath base path =
        (if (Text.join ['/'] segments).isEmpty then ['/'] else Text.join ['/'] segments) ∧
      (∀ segment ∈ segments, ∀ c ∈ segment, c ∈ base ∨ c ∈ path) ∧
      (segments.getLast? = some [] ∨ segments.getLast? = some (afterLast '/' path)) := by
  have hlast := getLast?_resolvedSegments base path
  have hkept : ∀ segment ∈ dropDots [] (resolvedSegments base path), ∀ c ∈ segment,
      c ∈ base ∨ c ∈ path := by
    intro segment hsegment c hc
    refine mem_of_mem_resolvedSegments ?_ hc
    exact (mem_of_mem_dropDots hsegment).resolve_left List.not_mem_nil
  refine ⟨_, rfl, ?_⟩
  rw [hlast, Option.any_some]
  -- dots at the end leave an empty segment behind
  cases hdots : isDots (afterLast '/' path) with
  | true =>
    refine ⟨fun segment hsegment c hc => ?_, .inl List.getLast?_concat⟩
    rcases List.mem_append.1 hsegment with hsegment | hempty
    · exact hkept segment hsegment c hc
    · obtain rfl := List.mem_singleton.1 hempty
      cases hc
  | false =>
    rw [if_neg Bool.false_ne_true, List.append_nil]
    exact ⟨hkept, .inr (getLast?_dropDots hlast hdots)⟩

theorem resolvePath_ne_nil (base path : Text) : resolvePath base path ≠ [] := by
  obtain ⟨segments, heq, -⟩ := exists_resolvePath_eq base path
  rw [heq]
  split
  · exact List.cons_ne_nil _ _
  · next h => exact fun hnil => h (List.isEmpty_iff.2 hnil)

theorem mem_of_mem_resolvePath (h : c ∈ resolvePath base path) :
    c = '/' ∨ c ∈ base ∨ c ∈ path := by
  obtain ⟨segments, heq, hsegments, -⟩ := exists_resolvePath_eq base path
  rw [heq] at h
  split at h
  · exact .inl (List.mem_singleton.1 h)
  · rcases Text.mem_join h with hslash | ⟨segment, hsegment, hc⟩
    · exact .inl (List.mem_singleton.1 hslash)
    · exact .inr (hsegments segment hsegment c hc)

/-- The last segment of a path is kept where the path is resolved, or nothing is left of it. -/
theorem afterLast_resolvePath (base path : Text) :
    afterLast '/' (resolvePath base path) = [] ∨
      afterLast '/' (resolvePath base path) = afterLast '/' path := by
  obtain ⟨segments, heq, -, hlast⟩ := exists_resolvePath_eq base path
  rw [heq]
  split
  · exact .inl rfl
  · exact hlast.imp (fun h => afterLast_join h List.not_mem_nil)
      fun h => afterLast_join h (not_mem_afterLast '/' path)

end Link

end Headline
