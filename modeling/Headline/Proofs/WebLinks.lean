import Headline.Proofs.References

/-!
# Links of the web

A link of the web is a scheme, `http` or `https`, an authority, and a rooted reference. It is taken
apart into these whatever other scheme is assumed (`WebLink.split_text`), and every text of that
form is such a link (`exists_webLink`).

Resolved against a base of another scheme it stays as it is, and against a base of its own scheme it
only loses its idle marks (`WebLink.resolve_text`).
-/

namespace Headline.Link

/-- The schemes of the web. -/
def webSchemes : List Text := ["http".toList, "https".toList]

/-- A name of a scheme: letters, digits and a few marks, and first a letter. -/
def IsSchemeName (name : Text) : Prop :=
  (∃ c, name.head? = some c ∧ c.isAlpha) ∧ ∀ c ∈ name, isSchemeChar c

/-- A link names a scheme, in upper or lower case. -/
def HasScheme (link scheme : Text) : Prop :=
  ∃ name rest, cleaned link = name ++ ':' :: rest ∧ IsSchemeName name ∧
    Text.lowerAscii name = scheme

section Schemes

variable {s scheme rest link : Text}

theorem splitScheme_of_name {name : Text} (h : IsSchemeName name) (rest : Text) :
    splitScheme (name ++ ':' :: rest) = some (Text.lowerAscii name, rest) := by
  obtain ⟨⟨c, hhead, hc⟩, hall⟩ := h
  have hcut : Text.cutAt (· == ':') (name ++ ':' :: rest) = (name, ':' :: rest) := by
    refine Text.cutAt_append (fun d hd => ?_) fun d hd => ?_
    · rw [beq_eq_false_iff_ne]
      rintro rfl
      exact absurd (hall ':' hd) (by decide)
    · obtain rfl := Option.some.inj hd
      rfl
  have hname : name.head?.any Char.isAlpha ∧ name.all isSchemeChar :=
    ⟨by rw [hhead]; exact hc, List.all_eq_true.2 hall⟩
  rw [splitScheme, hcut]
  exact if_pos hname

theorem exists_name_of_splitScheme (h : splitScheme s = some (scheme, rest)) :
    ∃ name, s = name ++ ':' :: rest ∧ IsSchemeName name ∧ Text.lowerAscii name = scheme := by
  obtain ⟨name, behind, rfl, hname, hbehind⟩ := Text.exists_cut (· == ':') s
  rw [splitScheme, Text.cutAt_append hname hbehind] at h
  cases behind with
  -- without a colon there is no scheme
  | nil => cases h
  | cons c behind =>
    obtain rfl : c = ':' := by simpa using hbehind c rfl
    simp only at h
    split at h
    · next hscheme =>
      obtain ⟨rfl, rfl⟩ := Prod.mk.inj (Option.some.inj h)
      refine ⟨name, rfl, ⟨?_, List.all_eq_true.1 hscheme.2⟩, rfl⟩
      simpa [Option.any_eq_true] using hscheme.1
    · cases h

theorem hasScheme_iff :
    HasScheme link scheme ↔ ∃ rest, splitScheme (cleaned link) = some (scheme, rest) := by
  constructor
  · rintro ⟨name, rest, hlink, hname, rfl⟩
    exact ⟨rest, by rw [hlink, splitScheme_of_name hname]⟩
  · rintro ⟨rest, h⟩
    obtain ⟨name, hlink, hname, hscheme⟩ := exists_name_of_splitScheme h
    exact ⟨name, rest, hlink, hname, hscheme⟩

theorem snd_schemeAndRest_subset (otherwise s : Text) :
    (schemeAndRest otherwise s).2 ⊆ cleaned s := by
  rw [schemeAndRest]
  cases hsplit : splitScheme (cleaned s) with
  | none => exact List.Subset.refl _
  | some p =>
    obtain ⟨name, heq, -⟩ := exists_name_of_splitScheme hsplit
    rw [heq]
    exact fun c hc => List.mem_append_right _ (List.mem_cons_of_mem _ hc)

end Schemes

theorem scheme_of_split {otherwise s : Text} {u : Url} (h : Url.split otherwise s = .ok u) :
    u.scheme = (schemeAndRest otherwise s).1 := by
  rw [Url.split_def] at h
  obtain ⟨x, -, h⟩ := exists_of_bind_eq_ok h
  exact (congrArg Url.scheme (Except.ok.inj h)).symm

/-- The schemes of the web are written in small letters, and their links have parameters and may be
relative. -/
theorem facts_of_mem_webSchemes {scheme : Text} (h : scheme ∈ webSchemes) :
    scheme.head? = some 'h' ∧ scheme.all isSchemeChar ∧ Text.lowerAscii scheme = scheme ∧
      schemesWithParams.contains scheme ∧ relativeSchemes.contains scheme := by
  rw [webSchemes, List.mem_cons, List.mem_singleton] at h
  rcases h with rfl | rfl
  · exact ⟨rfl, rfl, rfl, rfl, rfl⟩
  · exact ⟨rfl, rfl, rfl, rfl, rfl⟩

/-- A link of the web. -/
structure WebLink where
  scheme : Text
  authority : Text
  reference : Reference
  isWeb : scheme ∈ webSchemes
  authority_ne_nil : authority ≠ []
  authority_avoids : Avoids ['/', '?', '#'] authority
  rooted : reference.IsRooted

namespace WebLink

/-- The link as it is written. -/
def text (w : WebLink) : Text := w.scheme ++ "://".toList ++ w.authority ++ w.reference.text

/-- The link without its idle marks. -/
def tidied (w : WebLink) : WebLink :=
  { w with
    reference := w.reference.tidied
    rooted := w.rooted.imp_right fun ⟨hpath, hparams⟩ => ⟨hpath, by
      show w.reference.params.filter _ = none
      rw [hparams]
      rfl⟩ }

theorem tidied_tidied (w : WebLink) : w.tidied.tidied = w.tidied := by
  simp only [tidied, w.reference.tidied_tidied]

/-- Nothing is left out just when there is no idle mark. -/
theorem text_tidied_eq_iff (w : WebLink) : w.tidied.text = w.text ↔ ¬ w.reference.HasIdleMark := by
  rw [← w.reference.text_tidied_eq_iff]
  exact List.append_right_inj _

variable (w : WebLink)

theorem head?_scheme : w.scheme.head? = some 'h' := (facts_of_mem_webSchemes w.isWeb).1

theorem scheme_ne_nil : w.scheme ≠ [] := by
  intro h
  have hhead := w.head?_scheme
  rw [h] at hhead
  cases hhead

theorem isSchemeName_scheme : IsSchemeName w.scheme :=
  ⟨⟨'h', w.head?_scheme, rfl⟩, List.all_eq_true.1 (facts_of_mem_webSchemes w.isWeb).2.1⟩

theorem lowerAscii_scheme : Text.lowerAscii w.scheme = w.scheme :=
  (facts_of_mem_webSchemes w.isWeb).2.2.1

theorem schemesWithParams_scheme : schemesWithParams.contains w.scheme :=
  (facts_of_mem_webSchemes w.isWeb).2.2.2.1

theorem relativeSchemes_scheme : relativeSchemes.contains w.scheme :=
  (facts_of_mem_webSchemes w.isWeb).2.2.2.2

/-! ## Taking links of the web apart -/

theorem avoids_of_isSchemeName {name : Text} (h : IsSchemeName name) : Avoids [] name := by
  refine fun c hc => ⟨List.not_mem_nil, fun hbreak => ?_⟩
  have hscheme := h.2 c hc
  simp only [List.mem_cons, List.not_mem_nil, or_false] at hbreak
  rcases hbreak with rfl | rfl | rfl <;> exact absurd hscheme (by decide)

theorem avoids_text : Avoids [] w.text := by
  have hseparator : Avoids [] "://".toList := by
    refine fun c hc => ⟨List.not_mem_nil, ?_⟩
    have hc : c = ':' ∨ c = '/' ∨ c = '/' := by simpa using hc
    rcases hc with rfl | rfl | rfl <;> decide
  have hauthority : Avoids [] w.authority :=
    fun c hc => ⟨List.not_mem_nil, (w.authority_avoids c hc).2⟩
  exact (((avoids_of_isSchemeName w.isSchemeName_scheme).append hseparator).append
    hauthority).append w.reference.avoids_text

/-- Nothing is cleaned away from a link of the web. -/
theorem cleaned_text : cleaned w.text = w.text := by
  obtain ⟨scheme, hscheme⟩ := List.head?_eq_some_iff.1 w.head?_scheme
  have hfront : w.text.dropWhile (fun c => decide (c.toNat ≤ 0x20)) = w.text := by
    rw [text, hscheme]
    exact List.dropWhile_cons_of_neg (by decide)
  rw [cleaned, hfront, List.filter_eq_self]
  intro c hc
  simpa [and_assoc] using (w.avoids_text c hc).2

theorem splitAuthority_text :
    splitAuthority ("//".toList ++ w.authority ++ w.reference.text) =
      (w.authority, w.reference.text) := by
  have hslashes : "//".toList = ['/', '/'] := rfl
  rw [hslashes, List.append_assoc]
  exact splitAuthority_of_rooted w.authority_avoids w.rooted

theorem text_eq :
    w.text = w.scheme ++ ':' :: ("//".toList ++ w.authority ++ w.reference.text) := by
  have hcolon : "://".toList = ':' :: "//".toList := rfl
  rw [text, hcolon]
  simp only [List.append_assoc, List.cons_append]

theorem schemeAndRest_text (otherwise : Text) :
    schemeAndRest otherwise w.text =
      (w.scheme, "//".toList ++ w.authority ++ w.reference.text) := by
  rw [schemeAndRest, w.cleaned_text, w.text_eq, splitScheme_of_name w.isSchemeName_scheme,
    w.lowerAscii_scheme]
  rfl

theorem hasScheme_text : HasScheme w.text w.scheme :=
  ⟨w.scheme, _, w.cleaned_text.trans w.text_eq, w.isSchemeName_scheme, w.lowerAscii_scheme⟩

/-- A link of the web is taken apart into its parts, if its authority passes the checks. -/
theorem split_text (otherwise : Text) :
    Url.split otherwise w.text = checkAuthority w.authority >>= fun _ =>
      .ok (urlOf w.scheme w.authority w.reference) :=
  Url.split_eq (w.schemeAndRest_text otherwise) w.splitAuthority_text w.schemesWithParams_scheme

end WebLink

/-- Every text that starts with a scheme of the web and a host is a link of the web. -/
theorem exists_webLink {scheme rest : Text} (hscheme : scheme ∈ webSchemes)
    (hhost : ∃ c, rest.head? = some c ∧ c ∉ ['/', '?', '#']) (hrest : Avoids [] rest) :
    ∃ w : WebLink, w.scheme = scheme ∧ w.text = scheme ++ "://".toList ++ rest := by
  obtain ⟨authority, r, rfl, havoids, hrooted⟩ := exists_authority hrest
  have hne : authority ≠ [] := by
    rintro rfl
    obtain ⟨c, hc, hplain⟩ := hhost
    refine hplain ?_
    simpa using r.isRooted_iff.1 hrooted c hc
  exact ⟨⟨scheme, authority, r, hscheme, hne, havoids, hrooted⟩, rfl, List.append_assoc ..⟩

/-! ## Resolving links of the web -/

section Resolving

variable {base link : Text} {b : Url}

/-- What a link is resolved to, if it can be taken apart. -/
def resolvedText (b : Url) (link : Text) (u : Url) : Text :=
  if u.scheme = b.scheme ∧ relativeSchemes.contains u.scheme then (b.resolve u).text else link

theorem resolve_eq (hb : Url.split [] base = .ok b) (hlink : link ≠ []) :
    resolve base link = Url.split b.scheme link >>= fun u => .ok (resolvedText b link u) := by
  rw [resolve, if_neg hlink, hb]
  show (Url.split b.scheme link >>= _) = _
  congr 1
  funext u
  unfold resolvedText
  split <;> rfl

theorem Url.resolve_of_authority {u : Url} (b : Url) (h : u.authority ≠ []) : b.resolve u = u :=
  if_pos h

namespace WebLink

variable (w : WebLink)

theorem text_ne_nil : w.text ≠ [] := by
  intro h
  have hscheme := (List.append_eq_nil_iff.1 h).1
  exact w.scheme_ne_nil
    (List.append_eq_nil_iff.1 (List.append_eq_nil_iff.1 hscheme).1).1

/-- Against a base of its own scheme a link of the web is put together again from its parts, and
against any other it stays as it is. -/
theorem resolve_text (hb : Url.split [] base = .ok b) :
    resolve base w.text = checkAuthority w.authority >>= fun _ =>
      .ok (if w.scheme = b.scheme then w.tidied.text else w.text) := by
  rw [resolve_eq hb w.text_ne_nil, w.split_text, bind_assoc]
  congr 1
  funext x
  show Except.ok (resolvedText b w.text (urlOf w.scheme w.authority w.reference)) = _
  rw [resolvedText]
  by_cases hscheme : w.scheme = b.scheme
  · have hauthority : (urlOf w.scheme w.authority w.reference).authority ≠ [] := w.authority_ne_nil
    rw [if_pos ⟨hscheme, w.relativeSchemes_scheme⟩, if_pos hscheme,
      Url.resolve_of_authority b hauthority,
      text_urlOf w.scheme_ne_nil w.authority_ne_nil w.rooted]
    rfl
  · rw [if_neg fun h => hscheme h.1, if_neg hscheme]

end WebLink

end Resolving

end Headline.Link
