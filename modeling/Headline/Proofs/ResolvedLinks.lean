import Headline.Proofs.AbsoluteLinks
import Headline.Proofs.Refusals
import Headline.Proofs.ResolvedPaths

/-!
# Resolved links

Against a link of the web, every link is resolved to a link of the web without idle marks, of the
same scheme and of its own authority or else that of the base (`WebLink.exists_of_resolve`). Only a
link with another scheme stays as it is. So what has been resolved is not changed by being resolved
again (`WebLink.resolve_of_resolve`), and an entry made of an item gives the same item
(`resolved_links_are_absolute_and_fixed`).
-/

namespace Headline

namespace Link

/-! ## Parts of any link -/

section Parts

variable {otherwise link s : Text}

/-- A link that is taken apart with another scheme than the one assumed has that scheme itself. -/
theorem hasScheme_of_split {u : Url} (h : Url.split otherwise link = .ok u)
    (hscheme : u.scheme ≠ otherwise) : HasScheme link u.scheme := by
  rw [scheme_of_split h, schemeAndRest] at hscheme ⊢
  rw [hasScheme_iff]
  cases hsplit : splitScheme (cleaned link) with
  | none =>
    rw [hsplit] at hscheme
    exact absurd rfl hscheme
  | some p => exact ⟨p.2, rfl⟩

theorem avoids_cleaned (s : Text) : Avoids [] (cleaned s) := by
  intro c hc
  have hkept := List.of_mem_filter hc
  exact ⟨List.not_mem_nil, by simpa [and_assoc] using hkept⟩

/-- A link of a scheme with parameters is taken apart into its authority and a reference. -/
theorem exists_urlOf {u : Url} (h : Url.split otherwise link = .ok u)
    (hparams : schemesWithParams.contains u.scheme) :
    ∃ r : Reference, u = urlOf u.scheme (authorityOf link) r ∧
      checkAuthority (authorityOf link) = .ok () ∧
      Avoids ['/', '?', '#'] (authorityOf link) ∧ (authorityOf link ≠ [] → r.IsRooted) := by
  have hrest : Avoids [] (schemeAndRest [] link).2 :=
    (avoids_cleaned link).subset (snd_schemeAndRest_subset [] link)
  have hscheme : schemeAndRest otherwise link = (u.scheme, (schemeAndRest [] link).2) :=
    Prod.ext (scheme_of_split h).symm (snd_schemeAndRest otherwise link)
  have hparts : ∃ r : Reference,
      splitAuthority (schemeAndRest [] link).2 = (authorityOf link, r.text) ∧
      Avoids ['/', '?', '#'] (authorityOf link) ∧ (authorityOf link ≠ [] → r.IsRooted) := by
    rw [authorityOf]
    -- behind an authority the reference is rooted, and without one it is all that is left
    rcases splitAuthority_cases (schemeAndRest [] link).2 with ⟨s, hs⟩ | hnone
    · rw [hs] at hrest ⊢
      obtain ⟨authority, r, rfl, havoids, hrooted⟩ := exists_authority
        (hrest.subset fun c hc => List.mem_cons_of_mem _ (List.mem_cons_of_mem _ hc))
      rw [splitAuthority_of_rooted havoids hrooted]
      exact ⟨r, rfl, havoids, fun _ => hrooted⟩
    · obtain ⟨r, hr⟩ := exists_reference hrest
      rw [hnone, ← hr]
      exact ⟨r, rfl, fun c hc => absurd hc List.not_mem_nil, fun hne => absurd rfl hne⟩
  obtain ⟨r, hauthority, havoids, hrooted⟩ := hparts
  rw [Url.split_eq hscheme hauthority hparams] at h
  obtain ⟨x, hcheck, h⟩ := exists_of_bind_eq_ok h
  exact ⟨r, (Except.ok.inj h).symm, hcheck, havoids, hrooted⟩

end Parts

/-! ## References that are resolved -/

theorem Url.resolve_of_no_path {b u : Url} (hauthority : u.authority = [])
    (hpath : u.path = [] ∧ u.params = []) :
    b.resolve u = { u with
      authority := b.authority
      path := b.path
      params := b.params
      query := if u.query = [] then b.query else u.query } := by
  rw [Url.resolve, if_neg (not_not_intro hauthority), if_pos hpath]

theorem Url.resolve_of_path {b u : Url} (hauthority : u.authority = [])
    (hpath : ¬ (u.path = [] ∧ u.params = [])) :
    b.resolve u = { u with authority := b.authority, path := resolvePath b.path u.path } := by
  rw [Url.resolve, if_neg (not_not_intro hauthority), if_neg hpath]

theorem afterLast_cons_self (c : Char) (s : Text) : afterLast c (c :: s) = afterLast c s := by
  have hstop : [c].takeWhile (· != c) = [] := List.takeWhile_cons_of_neg (by simp)
  rw [afterLast, afterLast, List.reverse_cons, List.takeWhile_append, hstop, List.append_nil]
  split
  · next h => rw [(List.takeWhile_prefix _).eq_of_length h]
  · rfl

/-- A path with a slash in front. -/
def rootedPath (path : Text) : Text := if path.head? = some '/' then path else '/' :: path

theorem head?_rootedPath (path : Text) : (rootedPath path).head? = some '/' := by
  unfold rootedPath
  split
  · assumption
  · rfl

theorem afterLast_rootedPath (path : Text) :
    afterLast '/' (rootedPath path) = afterLast '/' path := by
  unfold rootedPath
  split
  · rfl
  · exact afterLast_cons_self '/' path

theorem mem_of_mem_rootedPath {c : Char} {path : Text} (h : c ∈ rootedPath path) :
    c = '/' ∨ c ∈ path := by
  unfold rootedPath at h
  split at h
  · exact .inr h
  · exact List.mem_cons.1 h

/-- A path with a slash in front is how it stands behind an authority. -/
theorem Url.text_rootedPath {u : Url} (hauthority : u.authority ≠ []) (hpath : u.path ≠ []) :
    { u with path := rootedPath u.path }.text = u.text := by
  unfold rootedPath
  split
  · rfl
  · next hslash => exact (Url.text_of_relative hauthority hpath hslash).symm

namespace Reference

/-- The path of the root alone. -/
def root : Reference where
  path := ['/']
  params := none
  query := none
  fragment := none
  path_avoids := fun c hc => by
    obtain rfl := List.mem_singleton.1 hc
    decide
  segment_plain := List.not_mem_nil
  params_avoids := fun c hc => absurd hc List.not_mem_nil
  query_avoids := fun c hc => absurd hc List.not_mem_nil
  fragment_avoids := fun c hc => absurd hc List.not_mem_nil

theorem not_hasIdleMark_root : ¬ root.HasIdleMark := by
  rintro (h | h | h) <;> cases h

/-- A reference without a path, in place of the query and the fragment of the base. -/
def replacing (base r : Reference) : Reference :=
  { base with
    query := if r.query.getD [] = [] then base.query else r.query
    fragment := r.fragment
    query_avoids := by
      split
      · exact base.query_avoids
      · exact r.query_avoids
    fragment_avoids := r.fragment_avoids }

/-- A reference with its path resolved against that of the base. -/
def continuing (base r : Reference) : Reference :=
  { r with
    path := rootedPath (resolvePath base.path r.path)
    path_avoids := by
      intro c hc
      rcases (mem_of_mem_rootedPath hc).imp_right mem_of_mem_resolvePath with
        rfl | rfl | hbase | hown
      · decide
      · decide
      · exact base.path_avoids c hbase
      · exact r.path_avoids c hown
    segment_plain := by
      rw [afterLast_rootedPath]
      rcases afterLast_resolvePath base.path r.path with h | h
      · rw [h]
        exact List.not_mem_nil
      · rw [h]
        exact r.segment_plain }

/-- A reference resolved against a base. -/
def onto (base r : Reference) : Reference :=
  if r.path = [] ∧ r.params.getD [] = [] then base.replacing r else base.continuing r

theorem isRooted_onto {base : Reference} (h : base.IsRooted) (r : Reference) :
    (base.onto r).IsRooted := by
  unfold onto
  split
  · exact h
  · exact .inl (head?_rootedPath _)

/-- Against a path from the root there is a path from the root again. -/
theorem head?_path_onto {base : Reference} (h : base.path.head? = some '/') (r : Reference) :
    (base.onto r).path.head? = some '/' := by
  unfold onto
  split
  · exact h
  · exact head?_rootedPath _

end Reference

namespace WebLink

variable (w : WebLink)

/-- The link of a reference to something beside `w`. -/
def onto (r : Reference) : WebLink :=
  { w with reference := w.reference.onto r, rooted := Reference.isRooted_onto w.rooted r }

theorem split_of_check (hcheck : checkAuthority w.authority = .ok ()) :
    Url.split [] w.text = .ok (urlOf w.scheme w.authority w.reference) := by
  rw [w.split_text, hcheck]
  rfl

/-- The parts of a link without an authority, resolved and put together. -/
theorem text_resolve (r : Reference) :
    ((urlOf w.scheme w.authority w.reference).resolve (urlOf w.scheme [] r)).text =
      (w.onto r).tidied.text := by
  have htext : (urlOf w.scheme w.authority (w.reference.onto r)).text = (w.onto r).tidied.text :=
    text_urlOf w.scheme_ne_nil w.authority_ne_nil (w.onto r).rooted
  rw [← htext, Reference.onto]
  by_cases hpath : r.path = [] ∧ r.params.getD [] = []
  · rw [if_pos hpath, Url.resolve_of_no_path rfl hpath]
    have hquery : (if r.query.getD [] = [] then w.reference.query else r.query).getD [] =
        if r.query.getD [] = [] then w.reference.query.getD [] else r.query.getD [] := by
      split <;> rfl
    rw [urlOf, urlOf, urlOf, Reference.replacing, hquery]
  · rw [if_neg hpath, Url.resolve_of_path rfl hpath]
    exact (Url.text_rootedPath w.authority_ne_nil (resolvePath_ne_nil _ _)).symm

section Resolved

variable {w : WebLink} {link result : Text}

/-- A link is resolved to a link of the web that has been put together from its parts, unless it has
another scheme and stays as it is. -/
theorem exists_of_resolve (hcheck : checkAuthority w.authority = .ok ())
    (hidle : ¬ w.reference.HasIdleMark) (h : resolve w.text link = .ok result) :
    (∃ scheme, HasScheme link scheme ∧ scheme ≠ w.scheme ∧ result = link) ∨
    ∃ v : WebLink, v.scheme = w.scheme ∧ result = v.tidied.text ∧
      checkAuthority v.authority = .ok () ∧
      v.authority = (if authorityOf link = [] then w.authority else authorityOf link) ∧
      (authorityOf link = [] → w.reference.path.head? = some '/' →
        v.reference.path.head? = some '/') := by
  by_cases hlink : link = []
  -- an empty link is the base as it stands, which is put together from its parts all the same
  · rw [hlink, resolve, if_pos rfl] at h
    rw [hlink]
    exact .inr ⟨w, rfl, (Except.ok.inj h).symm.trans (w.text_tidied_eq_iff.2 hidle).symm, hcheck,
      rfl, fun _ => id⟩
  rw [resolve_eq (w.split_of_check hcheck) hlink] at h
  obtain ⟨u, hu, h⟩ := exists_of_bind_eq_ok h
  have hresult := (Except.ok.inj h).symm
  -- a link of another scheme stays as it is
  by_cases hscheme : u.scheme = w.scheme
  · have hrelative : u.scheme = w.scheme ∧ relativeSchemes.contains u.scheme :=
      ⟨hscheme, hscheme ▸ w.relativeSchemes_scheme⟩
    obtain ⟨r, hr, hauthority, havoids, hrooted⟩ :=
      exists_urlOf hu (hscheme ▸ w.schemesWithParams_scheme)
    have hput : result = ((urlOf w.scheme w.authority w.reference).resolve u).text :=
      hresult.trans (if_pos hrelative)
    rw [hr, hscheme] at hput
    -- without an authority the link is put onto the path of the base
    by_cases hnone : authorityOf link = []
    · rw [hnone, text_resolve] at hput
      exact .inr ⟨w.onto r, rfl, hput, hcheck, (if_pos hnone).symm,
        fun _ hpath => Reference.head?_path_onto hpath r⟩
    · refine .inr ⟨⟨w.scheme, authorityOf link, r, w.isWeb, hnone, havoids, hrooted hnone⟩, rfl, ?_,
        hauthority, (if_neg hnone).symm, fun h => absurd h hnone⟩
      rw [hput, Url.resolve_of_authority _ hnone,
        text_urlOf w.scheme_ne_nil hnone (hrooted hnone)]
      rfl
  · exact .inl ⟨u.scheme, hasScheme_of_split hu hscheme, hscheme,
      hresult.trans (if_neg fun h => hscheme h.1)⟩

/-- A resolved link is not changed by being resolved again. -/
theorem resolve_of_resolve (hcheck : checkAuthority w.authority = .ok ())
    (hidle : ¬ w.reference.HasIdleMark) (h : resolve w.text link = .ok result) :
    resolve w.text result = .ok result := by
  rcases exists_of_resolve hcheck hidle h with
    ⟨scheme, -, -, rfl⟩ | ⟨v, hscheme, rfl, hv, -, -⟩
  · exact h
  -- what has been put together once has no idle mark to lose
  · have htidied : v.tidied.tidied.text = v.tidied.text := congrArg text v.tidied_tidied
    rw [v.tidied.resolve_text (w.split_of_check hcheck), htidied, ite_self]
    show (checkAuthority v.authority >>= _) = _
    rw [hv]
    rfl

end Resolved

end WebLink

end Link

namespace Feed

open Json (Value)
open Link (WebLink HasScheme authorityOf checkAuthority)

/-! ## Sites -/

/-- A character of a host name. -/
def isHostChar (c : Char) : Bool :=
  ('a' ≤ c && c ≤ 'z') || ('A' ≤ c && c ≤ 'Z') || ('0' ≤ c && c ≤ '9') || c == '.' || c == '-'

/-- A site of the web: a scheme and a host name, with any number of slashes behind. -/
structure Site where
  scheme : Text
  host : Text
  slashes : Nat
  isWeb : scheme ∈ Link.webSchemes
  host_ne_nil : host ≠ []
  host_plain : ∀ c ∈ host, isHostChar c

/-- The entry that has the texts of an item. -/
def entryOf (item : Item) : Value :=
  .object [("targetUrl".toList, .string item.link), ("title".toList, .string item.title),
    ("newsDate".toList, .string item.published), ("updated".toList, .string item.updated)]

theorem ne_of_isHostChar {c d : Char} (hc : isHostChar c) (hd : isHostChar d = false) : c ≠ d := by
  rintro rfl
  rw [hd] at hc
  cases hc

theorem toNat_of_isHostChar {c : Char} (h : isHostChar c) : c.toNat < 0x80 := by
  have hle : ∀ d : Char, d.toNat < 0x80 → c ≤ d → c.toNat < 0x80 := fun d hd hcd =>
    Nat.lt_of_le_of_lt (UInt32.le_iff_toNat_le.1 hcd) hd
  simp only [isHostChar, Bool.or_eq_true, Bool.and_eq_true, decide_eq_true_eq, beq_iff_eq] at h
  rcases h with (((⟨-, h⟩ | ⟨-, h⟩) | ⟨-, h⟩) | rfl) | rfl
  · exact hle 'z' (by decide) h
  · exact hle 'Z' (by decide) h
  · exact hle '9' (by decide) h
  · decide
  · decide

theorem not_isSuspect_of_isHostChar {c : Char} (h : isHostChar c) : ¬ Link.IsSuspect c := by
  rintro (rfl | rfl | hconfusable)
  · exact absurd h (by decide)
  · exact absurd h (by decide)
  · unfold Link.isConfusable at hconfusable
    have hlarge : ∀ n ∈ [0x2047, 0x2048, 0x2049, 0x2100, 0x2101, 0x2105, 0x2106, 0x2A74, 0xFE13,
        0xFE16, 0xFE55, 0xFE56, 0xFE5F, 0xFE6B, 0xFF03, 0xFF0F, 0xFF1A, 0xFF1F, 0xFF20],
        0x80 ≤ n := by decide
    have hmem := hlarge _ (List.contains_iff_mem.1 hconfusable)
    have hsmall := toNat_of_isHostChar h
    omega

namespace Site

variable (site : Site)

/-- The site as it is written. -/
def text : Text := site.scheme ++ "://".toList ++ site.host ++ List.replicate site.slashes '/'

/-- The link of the root of a site. -/
def root : WebLink where
  scheme := site.scheme
  authority := site.host
  reference := Link.Reference.root
  isWeb := site.isWeb
  authority_ne_nil := site.host_ne_nil
  authority_avoids := fun c hc => by
    have hplain := site.host_plain c hc
    simp only [List.mem_cons, List.not_mem_nil, or_false, not_or]
    exact ⟨⟨ne_of_isHostChar hplain (by decide), ne_of_isHostChar hplain (by decide),
      ne_of_isHostChar hplain (by decide)⟩, ne_of_isHostChar hplain (by decide),
      ne_of_isHostChar hplain (by decide), ne_of_isHostChar hplain (by decide)⟩
  rooted := .inl rfl

theorem checkAuthority_host : checkAuthority site.host = .ok () :=
  Link.checkAuthority_of_plain fun c hc => not_isSuspect_of_isHostChar (site.host_plain c hc)

theorem root_text : site.root.text = site.scheme ++ "://".toList ++ site.host ++ ['/'] := rfl

/-- Links of a feed are resolved against the root of its site. -/
theorem baseOf_text : Link.baseOf site.text = site.root.text := by
  obtain ⟨host, c, hhost⟩ := (List.eq_nil_or_concat' site.host).resolve_left site.host_ne_nil
  have hplain : isHostChar c := site.host_plain c (by rw [hhost]; exact List.mem_concat_self)
  have hslash : ∀ front : Text, (c :: front).dropWhile (· == '/') = c :: front := fun front =>
    List.dropWhile_cons_of_neg (by simpa using ne_of_isHostChar hplain (by decide))
  have hkept : Text.dropTrailing (· == '/') (site.scheme ++ "://".toList ++ site.host) =
      site.scheme ++ "://".toList ++ site.host := by
    rw [Text.dropTrailing, hhost, ← List.append_assoc, List.reverse_concat, hslash,
      List.reverse_cons, List.reverse_reverse]
  rw [text, baseOf_append_slashes, Link.baseOf, hkept, root_text]

/-- A link with the scheme and the host of a site and with a path starts like the site. -/
theorem root_text_isPrefix {v : WebLink} (hscheme : v.scheme = site.scheme)
    (hauthority : v.authority = site.host) (hpath : v.reference.path.head? = some '/') :
    site.root.text <+: v.text := by
  obtain ⟨path, hcons⟩ := List.head?_eq_some_iff.1 hpath
  have hslash : ['/'] <+: v.reference.text := by
    rw [Link.Reference.text, hcons]
    exact List.prefix_append ['/'] _
  rw [root_text, WebLink.text, hscheme, hauthority]
  exact (List.prefix_append_right_inj _).2 hslash

end Site

/-- What is read from an entry made of an item are the texts of the item. -/
theorem readFields_entryOf (index : Int) (item : Item) :
    readFields index (entryOf item) = .ok item := by
  have htarget : textAt? (entryOf item) "targetUrl".toList = some item.link := by
    simp [textAt?, entryOf, Json.lookup]
  have htitle : textAt? (entryOf item) "title".toList = some item.title := by
    simp [textAt?, entryOf, Json.lookup]
  have hpublished : textAt? (entryOf item) "newsDate".toList = some item.published := by
    simp [textAt?, entryOf, Json.lookup]
  have hupdated : textAt? (entryOf item) "updated".toList = some item.updated := by
    simp [textAt?, entryOf, Json.lookup]
  unfold entryOf at *
  rw [readFields, textField_of_some htarget, textField_of_some htitle,
    textField_of_some hpublished, textField_of_some hupdated]
  rfl

/-- An item of an entry beside a site of the web has an absolute link. If the link of the entry
names neither a scheme nor a host, it is one of the site. An entry made of the item gives the same
item. -/
theorem resolved_links_are_absolute_and_fixed (site : Site) {index : Int} {entry : Value}
    {item : Item} (h : readEntry site.text index entry = .ok item) :
    ∃ target, textAt? entry "targetUrl".toList = some target ∧
      (∃ scheme, HasScheme item.link scheme) ∧
      ((∀ scheme, ¬ HasScheme target scheme) →
        (authorityOf target = [] → site.root.text <+: item.link) ∧
        ∃ w : WebLink, item.link = w.text ∧ w.scheme = site.scheme ∧
          w.authority = if authorityOf target = [] then site.host else authorityOf target) ∧
      ∀ other : Int, readEntry site.text other (entryOf item) = .ok item := by
  obtain ⟨target, htarget, hresolve⟩ := (maps_of_readEntry h).link
  rw [site.baseOf_text] at hresolve
  have hcheck : checkAuthority site.root.authority = .ok () := site.checkAuthority_host
  have hidle : ¬ site.root.reference.HasIdleMark := Link.Reference.not_hasIdleMark_root
  refine ⟨target, htarget, ?_, fun hnone => ?_, fun other => ?_⟩
  · rcases WebLink.exists_of_resolve hcheck hidle hresolve with
      ⟨scheme, hscheme, -, hlink⟩ | ⟨v, -, hlink, -⟩
    · exact ⟨scheme, hlink ▸ hscheme⟩
    · exact ⟨v.scheme, hlink ▸ v.tidied.hasScheme_text⟩
  · rcases WebLink.exists_of_resolve hcheck hidle hresolve with
      ⟨scheme, hscheme, -, -⟩ | ⟨v, hscheme, hlink, -, hauthority, hpath⟩
    · exact absurd hscheme (hnone scheme)
    · refine ⟨fun hno => ?_, v.tidied, hlink, hscheme, hauthority⟩
      rw [if_pos hno] at hauthority
      rw [hlink]
      exact site.root_text_isPrefix hscheme hauthority (hpath hno rfl)
  · rw [readEntry, readFields_entryOf, site.baseOf_text]
    show ((Link.resolve site.root.text item.link).mapError Fault.link >>= _) = _
    rw [WebLink.resolve_of_resolve hcheck hidle hresolve]
    rfl

/-- A link that leads out of the root and loses an idle mark, resolved once and once more. -/
theorem resolved_link_beside_site :
    let entry : Value := .object [("targetUrl".toList, .string "../x;y/./z;p?#f".toList),
      ("title".toList, .string []), ("newsDate".toList, .string []),
      ("updated".toList, .string [])]
    let item : Item := ⟨"https://a.jp/x;y/z;p#f".toList, [], [], []⟩
    ∃ site : Site, site.text = "https://a.jp//".toList ∧
      readEntry site.text 0 entry = .ok item ∧ site.root.text <+: item.link ∧
      readEntry site.text 1 (entryOf item) = .ok item := by
  intro entry item
  let site : Site :=
    { scheme := "https".toList
      host := "a.jp".toList
      slashes := 2
      isWeb := List.mem_cons_of_mem _ (List.mem_cons_self ..)
      host_ne_nil := by decide +kernel
      host_plain := List.all_eq_true.1 (by decide +kernel) }
  have hread : readEntry site.text 0 entry = .ok item := by decide +kernel
  obtain ⟨target, htarget, -, hbeside, hagain⟩ := resolved_links_are_absolute_and_fixed site hread
  have hentry : textAt? entry "targetUrl".toList = some "../x;y/./z;p?#f".toList := by
    decide +kernel
  obtain rfl := Option.some.inj (hentry.symm.trans htarget)
  have hnone : ∀ scheme, ¬ HasScheme "../x;y/./z;p?#f".toList scheme := by
    intro scheme hscheme
    obtain ⟨rest, hsplit⟩ := Link.hasScheme_iff.1 hscheme
    have hno : Link.splitScheme (Link.cleaned "../x;y/./z;p?#f".toList) = none := by decide +kernel
    rw [hno] at hsplit
    cases hsplit
  exact ⟨site, by decide +kernel, hread, (hbeside hnone).1 (by decide +kernel), hagain 1⟩

end Feed

end Headline
