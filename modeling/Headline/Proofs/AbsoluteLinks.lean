import Headline.Proofs.Entries
import Headline.Proofs.WebLinks

/-!
# Links that are kept

A link of the web in an entry does not depend on the site of the feed, but on its scheme: beside a
site of another scheme it is kept as it is, and beside one of its own scheme it is put together
again, which leaves its idle marks out (`absolute_link_kept_iff`).
-/

namespace Headline

namespace Link

theorem scheme_eq_iff_hasScheme {base scheme : Text} {b : Url} (hb : Url.split [] base = .ok b)
    (hscheme : scheme ≠ []) : scheme = b.scheme ↔ HasScheme base scheme := by
  rw [scheme_of_split hb, hasScheme_iff, schemeAndRest]
  cases hsplit : splitScheme (cleaned base) with
  | none => simp [hscheme]
  | some p => simp [Prod.ext_iff, eq_comm]

/-- A link is resolved only against a base that can be taken apart. -/
theorem exists_split_of_resolve {base link result : Text} (hlink : link ≠ [])
    (h : resolve base link = .ok result) : ∃ b, Url.split [] base = .ok b := by
  rw [resolve, if_neg hlink] at h
  obtain ⟨b, hb, -⟩ := exists_of_bind_eq_ok h
  exact ⟨b, hb⟩

/-- What becomes of a link of the web that is resolved. -/
theorem WebLink.eq_of_resolve {w : WebLink} {base result : Text}
    (h : resolve base w.text = .ok result) :
    (HasScheme base w.scheme → result = w.tidied.text) ∧
    (¬ HasScheme base w.scheme → result = w.text) := by
  obtain ⟨b, hb⟩ := exists_split_of_resolve w.text_ne_nil h
  rw [w.resolve_text hb] at h
  obtain ⟨x, -, h⟩ := exists_of_bind_eq_ok h
  have hresult := (Except.ok.inj h).symm
  rw [← scheme_eq_iff_hasScheme hb w.scheme_ne_nil]
  exact ⟨fun hscheme => hresult.trans (if_pos hscheme),
    fun hscheme => hresult.trans (if_neg hscheme)⟩

end Link

namespace Feed

open Json (Value)
open Link (WebLink HasScheme)

/-- An absolute link of an entry is kept character for character just when the site has another
scheme, or no mark of the link is idle. Otherwise it loses its idle marks and nothing else. -/
theorem absolute_link_kept_iff {site scheme rest : Text} {index : Int} {entry : Value} {item : Item}
    (hscheme : scheme ∈ Link.webSchemes)
    (hhost : ∃ c, rest.head? = some c ∧ c ∉ ['/', '?', '#'])
    (hrest : ∀ c ∈ rest, c ∉ ['\t', '\r', '\n'])
    (htarget : textAt? entry "targetUrl".toList = some (scheme ++ "://".toList ++ rest))
    (hread : readEntry site index entry = .ok item) :
    ∃ w : WebLink, w.scheme = scheme ∧ w.text = scheme ++ "://".toList ++ rest ∧
      (item.link = w.text ↔
        ¬ HasScheme (Link.baseOf site) scheme ∨ ¬ w.reference.HasIdleMark) ∧
      (HasScheme (Link.baseOf site) scheme → item.link = w.tidied.text) := by
  obtain ⟨w, rfl, htext⟩ :=
    Link.exists_webLink hscheme hhost fun c hc => ⟨List.not_mem_nil, hrest c hc⟩
  obtain ⟨s, hs, hresolve⟩ := (maps_of_readEntry hread).link
  obtain rfl := Option.some.inj (htarget.symm.trans hs)
  rw [← htext] at hresolve
  obtain ⟨hsame, hother⟩ := Link.WebLink.eq_of_resolve hresolve
  refine ⟨w, rfl, htext, ?_, hsame⟩
  by_cases hbase : HasScheme (Link.baseOf site) w.scheme
  · rw [hsame hbase, w.text_tidied_eq_iff]
    simp [hbase]
  · simp [hother hbase, hbase]

/-- Beside a site of its own scheme, a link with parameters, a query and a fragment is kept. -/
theorem kept_link_of_same_scheme :
    let rest := "b.jp//p;q/../r;s?t;#u?".toList
    let entry : Value := .object [("targetUrl".toList, .string ("https://".toList ++ rest)),
      ("title".toList, .string []), ("newsDate".toList, .string []),
      ("updated".toList, .string [])]
    let item : Item := ⟨"https://".toList ++ rest, [], [], []⟩
    readEntry "https://a.jp".toList 0 entry = .ok item ∧
      HasScheme (Link.baseOf "https://a.jp".toList) "https".toList ∧
      ∃ w : WebLink, w.text = "https".toList ++ "://".toList ++ rest ∧ item.link = w.text ∧
        ¬ w.reference.HasIdleMark := by
  intro rest entry item
  have hread : readEntry "https://a.jp".toList 0 entry = .ok item := by decide +kernel
  have htarget : textAt? entry "targetUrl".toList =
      some ("https".toList ++ "://".toList ++ rest) := by decide +kernel
  have hhost : ∃ c, rest.head? = some c ∧ c ∉ ['/', '?', '#'] :=
    ⟨'b', by decide +kernel, by decide⟩
  have hrest : ∀ c ∈ rest, c ∉ ['\t', '\r', '\n'] := by
    have hall : (rest.all fun c => decide (c ∉ ['\t', '\r', '\n'])) = true := by decide +kernel
    exact fun c hc => of_decide_eq_true (List.all_eq_true.1 hall c hc)
  have hbase : HasScheme (Link.baseOf "https://a.jp".toList) "https".toList :=
    Link.hasScheme_iff.2 ⟨"//a.jp/".toList, by decide +kernel⟩
  have hlink : item.link = "https".toList ++ "://".toList ++ rest := by decide +kernel
  have hscheme : "https".toList ∈ Link.webSchemes := List.mem_cons_of_mem _ (List.mem_cons_self ..)
  -- the link is what it was, so the general condition says that there is no mark to lose
  obtain ⟨w, -, htext, hkept, -⟩ := absolute_link_kept_iff hscheme hhost hrest htarget hread
  have hsame : item.link = w.text := hlink.trans htext.symm
  exact ⟨hread, hbase, w, htext, hsame, (hkept.1 hsame).resolve_left (not_not_intro hbase)⟩

/-- Beside a site of its own scheme a link loses the mark of an empty query. -/
theorem link_loses_idle_mark :
    let entry : Value := .object [("targetUrl".toList, .string "https://b.jp/p?".toList),
      ("title".toList, .string []), ("newsDate".toList, .string []),
      ("updated".toList, .string [])]
    ∃ item, readEntry "https://a.jp".toList 0 entry = .ok item ∧
      item.link = "https://b.jp/p".toList ∧ item.link ≠ "https://b.jp/p?".toList := by
  exact ⟨⟨"https://b.jp/p".toList, [], [], []⟩, by decide +kernel, rfl, by decide +kernel⟩

end Feed

end Headline
