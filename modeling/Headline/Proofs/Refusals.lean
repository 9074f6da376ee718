import Headline.Proofs.Entries
import Headline.Proofs.WebLinks

/-!
# Refused feeds

A feed that is a list is refused for the first of its entries that makes no item. If a text of that
entry is missing, the refusal names its place. If it is the link that cannot be resolved, the
refusal is that of the link, which names no entry (`refusal_names_entry_iff`).

Links are refused for their authority alone (`resolve_eq_error_iff`), and only brackets and
confusable characters in it can be at fault (`checkAuthority_of_plain`).
-/

namespace Headline

namespace Link

/-! ## Links that cannot be resolved -/

/-- A character that an authority may be refused for. -/
def IsSuspect (c : Char) : Prop := c = '[' ∨ c = ']' ∨ isConfusable c

variable {s base link authority : Text} {fault : Fault}

/-- Taking a link apart fails for its authority or not at all. -/
theorem exists_split_eq (otherwise s : Text) :
    ∃ u, Url.split otherwise s = checkAuthority (authorityOf s) >>= fun _ => .ok u := by
  rw [Url.split_def, authorityOf, ← snd_schemeAndRest otherwise]
  exact ⟨_, rfl⟩

theorem split_eq_error_iff (otherwise : Text) :
    Url.split otherwise s = .error fault ↔ checkAuthority (authorityOf s) = .error fault := by
  obtain ⟨u, hu⟩ := exists_split_eq otherwise s
  rw [hu]
  cases checkAuthority (authorityOf s) with
  | error g => exact ⟨fun h => congrArg Except.error (Except.error.inj h),
      fun h => congrArg Except.error (Except.error.inj h)⟩
  | ok x => exact ⟨fun h => (by cases h), fun h => (by cases h)⟩

/-- Resolving a link fails for the authority of the base, or else for its own. -/
theorem resolve_eq_error_iff :
    resolve base link = .error fault ↔ link ≠ [] ∧
      (checkAuthority (authorityOf base) = .error fault ∨
        checkAuthority (authorityOf base) = .ok () ∧
          checkAuthority (authorityOf link) = .error fault) := by
  by_cases hlink : link = []
  · rw [resolve, if_pos hlink]
    simp [hlink]
  · obtain ⟨b, hb⟩ := exists_split_eq [] base
    -- the base is checked before the link
    cases hbase : checkAuthority (authorityOf base) with
    | error g =>
      have hsplit : Url.split [] base = .error g := (split_eq_error_iff []).2 hbase
      have hresolve : resolve base link = .error g := by
        rw [resolve, if_neg hlink, hsplit]
        rfl
      simp [hresolve, hlink]
    | ok x =>
      rw [hbase] at hb
      have hresolve := resolve_eq hb hlink
      rw [hresolve, ← split_eq_error_iff b.scheme]
      cases Url.split b.scheme link with
      | error g => simp [hlink, bind, Except.bind]
      | ok u => simp [bind, Except.bind]

theorem checkAuthority_of_plain (h : ∀ c ∈ authority, ¬ IsSuspect c) :
    checkAuthority authority = .ok () := by
  have hopening : authority.contains '[' = false := by
    rw [← Bool.not_eq_true, List.contains_iff_mem]
    exact fun hmem => h '[' hmem (.inl rfl)
  have hclosing : authority.contains ']' = false := by
    rw [← Bool.not_eq_true, List.contains_iff_mem]
    exact fun hmem => h ']' hmem (.inr (.inl rfl))
  have hconfusable : authority.any isConfusable = false := by
    rw [← Bool.not_eq_true, List.any_eq_true]
    exact fun ⟨c, hc, hconfusable⟩ => h c hc (.inr (.inr hconfusable))
  rw [checkAuthority, checkBrackets, hopening, hclosing, checkConfusable, hconfusable]
  rfl

theorem authorityOf_subset (s : Text) : authorityOf s ⊆ s := by
  have hcleaned : cleaned s ⊆ s := fun c hc =>
    (List.dropWhile_sublist _).subset (List.mem_of_mem_filter hc)
  refine List.Subset.trans ?_ (List.Subset.trans (snd_schemeAndRest_subset [] s) hcleaned)
  rw [authorityOf]
  rcases splitAuthority_cases (schemeAndRest [] s).2 with ⟨rest, hrest⟩ | hnone
  · rw [hrest]
    exact fun c hc =>
      List.mem_cons_of_mem _ (List.mem_cons_of_mem _ ((List.takeWhile_sublist _).subset hc))
  · rw [hnone]
    exact List.nil_subset _

/-- A base and a link without brackets and confusable characters can be resolved. -/
theorem exists_resolve_of_plain (hbase : ∀ c ∈ base, ¬ IsSuspect c)
    (hlink : ∀ c ∈ link, ¬ IsSuspect c) : ∃ result, resolve base link = .ok result := by
  cases hresolve : resolve base link with
  | ok result => exact ⟨result, rfl⟩
  | error fault =>
    obtain ⟨-, h | ⟨-, h⟩⟩ := resolve_eq_error_iff.1 hresolve
    · rw [checkAuthority_of_plain fun c hc => hbase c (authorityOf_subset base hc)] at h
      cases h
    · rw [checkAuthority_of_plain fun c hc => hlink c (authorityOf_subset link hc)] at h
      cases h

/-- Every wording of a link's fault has a start that no place of a feed has. -/
theorem exists_start_of_message (fault : Fault) :
    ∃ start, start <+: fault.message ∧ start.length ≤ 3 ∧ ¬ start <+: ['n', 'e', 'w'] := by
  cases fault with
  | unbalancedBrackets => exact ⟨['I'], ⟨_, rfl⟩, by decide, by decide⟩
  | laterVersion => exact ⟨['I'], ⟨_, rfl⟩, by decide, by decide⟩
  | version4InBrackets => exact ⟨['A'], ⟨_, rfl⟩, by decide, by decide⟩
  | noAddress host =>
    -- this wording begins with a quotation mark
    have hquoted : [Text.quoteFor host] <+: host.quoted := by
      rw [Text.quoted, List.cons_append]
      exact List.prefix_append [Text.quoteFor host] _
    refine ⟨[Text.quoteFor host], hquoted.trans (List.prefix_append host.quoted _), by simp, ?_⟩
    unfold Text.quoteFor
    split <;> decide
  | confusable authority =>
    -- this wording begins almost like the name of an entry
    have hnetloc : ['n', 'e', 't'] <+: "netloc '".toList := ⟨_, rfl⟩
    refine ⟨['n', 'e', 't'], ?_, by decide, by decide⟩
    show ['n', 'e', 't'] <+: "netloc '".toList ++ authority ++
      "' contains invalid characters under NFKC normalization".toList
    exact (hnetloc.trans (List.prefix_append _ authority)).trans (List.prefix_append _ _)

/-- No wording of a link's fault starts with a place of a feed. -/
theorem not_place_isPrefix_message (i : Int) (fault : Fault) :
    ¬ Feed.place i <+: fault.message := by
  intro h
  have hplace : ['n', 'e', 'w'] <+: Feed.place i := by
    have hnews : ['n', 'e', 'w'] <+: "news[".toList := ⟨_, rfl⟩
    exact (hnews.trans (List.prefix_append _ (Text.ofInt i))).trans (List.prefix_append _ [']'])
  obtain ⟨start, hstart, hlength, hother⟩ := exists_start_of_message fault
  exact hother (List.prefix_of_prefix_length_le hstart (hplace.trans h) hlength)

end Link

namespace Feed

open Json (Value)

variable {site : Text} {entries : List Value}

/-- An entry that makes an item. -/
def Readable (site : Text) (entry : Value) : Prop := WellFormed entry ∧ LinkResolves site entry

/-- What a feed is refused for at an entry: that one of its texts is missing, or its link. -/
inductive Refused (site : Text) (index : Nat) (entry : Value) : Fault → Prop
  | entry {f : Fault} (hformed : ¬ WellFormed entry) (h : Complaint index entry f.message) :
      Refused site index entry f
  | link {s : Text} {fault : Link.Fault} (hformed : WellFormed entry)
      (htarget : textAt? entry "targetUrl".toList = some s)
      (h : Link.resolve (Link.baseOf site) s = .error fault) :
      Refused site index entry (.link fault)

/-- An entry makes an item, or the feed is refused for it. -/
theorem readEntry_refused (site : Text) (index : Nat) (entry : Value) :
    (Readable site entry ∧ ∃ item, readEntry site index entry = .ok item) ∨
    (¬ Readable site entry ∧ ∃ f, readEntry site index entry = .error f ∧
      Refused site index entry f) := by
  rcases readEntry_outcome site index entry with
    ⟨item, hread, hformed, hmaps⟩ | ⟨s, fault, hread, hformed, htarget, hresolve⟩ |
      ⟨f, hread, hformed, hcomplaint⟩
  · obtain ⟨s, htarget, hresolve⟩ := hmaps.link
    refine .inl ⟨⟨hformed, fun s' htarget' => ?_⟩, item, hread⟩
    obtain rfl := Option.some.inj (htarget.symm.trans htarget')
    exact ⟨_, hresolve⟩
  · refine .inr ⟨fun hreadable => ?_, _, hread, .link hformed htarget hresolve⟩
    obtain ⟨link, hlink⟩ := hreadable.2 s htarget
    rw [hlink] at hresolve
    cases hresolve
  · exact .inr ⟨fun hreadable => hformed hreadable.1, f, hread, .entry hformed hcomplaint⟩

/-- Entries are read up to the first one that makes no item, and it decides. -/
theorem readEntries_refused (site : Text) (start : Nat) (entries : List Value) :
    ((∀ e ∈ entries, Readable site e) ∧ ∃ items, readEntries site start entries = .ok items) ∨
    ∃ before entry behind f, entries = before ++ entry :: behind ∧
      (∀ e ∈ before, Readable site e) ∧ ¬ Readable site entry ∧
      readEntries site start entries = .error f ∧
      Refused site (start + before.length) entry f := by
  induction entries generalizing start with
  | nil => exact .inl ⟨by simp, [], rfl⟩
  | cons entry entries ih =>
    rw [readEntries]
    rcases readEntry_refused site start entry with
      ⟨hreadable, item, hread⟩ | ⟨hreadable, f, hread, hrefused⟩
    · rw [hread]
      show (_ ∧ ∃ items, (readEntries site (start + 1) entries >>= _) = _) ∨
        ∃ before e behind f, _ ∧ _ ∧ _ ∧ (readEntries site (start + 1) entries >>= _) = _ ∧ _
      rcases ih (start + 1) with
        ⟨hall, items, hitems⟩ | ⟨before, e, behind, f, rfl, hbefore, he, hf, hrefused⟩
      · rw [hitems]
        exact .inl ⟨List.forall_mem_cons.2 ⟨hreadable, hall⟩, item :: items, rfl⟩
      · rw [hf]
        refine .inr ⟨entry :: before, e, behind, f, rfl,
          List.forall_mem_cons.2 ⟨hreadable, hbefore⟩, he, rfl, ?_⟩
        rwa [List.length_cons, Nat.add_comm before.length 1, ← Nat.add_assoc]
    · rw [hread]
      exact .inr ⟨[], entry, entries, f, rfl, by simp, hreadable, rfl, hrefused⟩

theorem baseOf_plain {site : Text} (h : ∀ c ∈ site, ¬ Link.IsSuspect c) :
    ∀ c ∈ Link.baseOf site, ¬ Link.IsSuspect c := by
  intro c hc
  rcases List.mem_append.1 hc with hsite | hslash
  · have hkept := (List.dropWhile_sublist _).subset (List.mem_reverse.1 hsite)
    exact h c (List.mem_reverse.1 hkept)
  · obtain rfl := List.mem_singleton.1 hslash
    unfold Link.IsSuspect
    decide

/-- What is said against an entry starts with its place. -/
theorem Complaint.place_isPrefix {index : Nat} {entry : Value} {message : Text}
    (h : Complaint index entry message) : place index <+: message := by
  cases h with
  | notObject h =>
    have hstart : place index <+: (Fault.notObject index).message :=
      List.prefix_append (place index) " must be an object".toList
    rwa [message_notObject] at hstart
  | @notText members before behind field hfields hbefore hfield =>
    have hstart : place index <+: (Fault.notText index field).message :=
      (List.prefix_append (place index) ('.' :: field)).trans (List.prefix_append _ _)
    rwa [message_notText] at hstart

/-- A feed that is a list is refused for the first of its entries that makes no item. The refusal
starts with a place just when that entry is not well formed, and then it is the place of the entry
and tells what it lacks. Otherwise the refusal is that of the link, for the authority of the site or
its own. It comes to that only with a bracket or a confusable character in one of these texts. -/
theorem refusal_names_entry_iff {site : Text} {entries : List Value} {f : Fault}
    (h : readPayload site (.array entries) = .error f) :
    ∃ before entry behind, entries = before ++ entry :: behind ∧
      (∀ e ∈ before, Readable site e) ∧ ¬ Readable site entry ∧
      ((∃ i : Int, place i <+: f.message) ↔ ¬ WellFormed entry) ∧
      (¬ WellFormed entry →
        place before.length <+: f.message ∧ Complaint before.length entry f.message) ∧
      (WellFormed entry → ∃ s fault, textAt? entry "targetUrl".toList = some s ∧
        f = .link fault ∧
        (Link.checkAuthority (Link.authorityOf (Link.baseOf site)) = .error fault ∨
          Link.checkAuthority (Link.authorityOf s) = .error fault)) ∧
      ((∀ c ∈ site, ¬ Link.IsSuspect c) →
        (∀ s, textAt? entry "targetUrl".toList = some s → ∀ c ∈ s, ¬ Link.IsSuspect c) →
        ¬ WellFormed entry) := by
  rw [(HasEntries.array entries).readPayload_eq] at h
  rcases readEntries_refused site 0 entries with
    ⟨-, items, hitems⟩ | ⟨before, entry, behind, f', rfl, hbefore, hentry, hf, hrefused⟩
  · rw [hitems] at h
    cases h
  · obtain rfl := Except.error.inj (h.symm.trans hf)
    rw [Nat.zero_add] at hrefused
    refine ⟨before, entry, behind, rfl, hbefore, hentry, ?_⟩
    cases hrefused with
    | entry hformed hcomplaint =>
      exact ⟨⟨fun _ => hformed, fun _ => ⟨_, hcomplaint.place_isPrefix⟩⟩,
        fun _ => ⟨hcomplaint.place_isPrefix, hcomplaint⟩, fun hwell => absurd hwell hformed,
        fun _ _ => hformed⟩
    | @link s fault hformed htarget hresolve =>
      refine ⟨⟨fun ⟨i, hplace⟩ => ?_, fun hnot => absurd hformed hnot⟩,
        fun hnot => absurd hformed hnot, fun _ => ⟨s, fault, htarget, rfl, ?_⟩,
        fun hsite htargets => ?_⟩
      -- no fault of a link names an entry
      · exact absurd hplace (Link.not_place_isPrefix_message i fault)
      · exact (Link.resolve_eq_error_iff.1 hresolve).2.imp_right And.right
      · obtain ⟨result, hresult⟩ :=
          Link.exists_resolve_of_plain (baseOf_plain hsite) (htargets s htarget)
        rw [hresult] at hresolve
        cases hresolve

/-- An entry without a title is named, behind one whose link has brackets that can be read. -/
theorem refusal_names_second_entry :
    let readable : Value := .object [("targetUrl".toList, .string "//[::1]/n".toList),
      ("title".toList, .string []), ("newsDate".toList, .string []),
      ("updated".toList, .string [])]
    let untitled : Value := .object [("targetUrl".toList, .string "http://[".toList)]
    ∃ f, readPayload "https://a.jp".toList (.array [readable, untitled]) = .error f ∧
      f.message = "news[1].title must be a string".toList ∧
      ∃ before entry behind, [readable, untitled] = before ++ entry :: behind ∧
        ¬ WellFormed entry ∧ Complaint before.length entry f.message := by
  intro readable untitled
  have hrefused : readPayload "https://a.jp".toList (.array [readable, untitled]) =
      .error (.notText 1 "title".toList) := by decide +kernel
  have hplace : place 1 <+: (Fault.notText 1 "title".toList).message := by decide +kernel
  obtain ⟨before, entry, behind, hentries, -, -, hnamed, hcomplaint, -, -⟩ :=
    refusal_names_entry_iff hrefused
  have hformed : ¬ WellFormed entry := hnamed.1 ⟨1, hplace⟩
  exact ⟨_, hrefused, by decide +kernel, before, entry, behind, hentries, hformed,
    (hcomplaint hformed).2⟩

/-- An entry is refused for its link, and nothing tells which entry it was. -/
theorem refusal_of_link_names_no_entry :
    let entry : Value := .object [("targetUrl".toList, .string "http://[".toList),
      ("title".toList, .string "A".toList), ("newsDate".toList, .string "B".toList),
      ("updated".toList, .string "C".toList)]
    ∃ f, readPayload defaultSite (.array [entry]) = .error f ∧
      f.message = "Invalid IPv6 URL".toList ∧ ∀ i : Int, ¬ place i <+: f.message := by
  exact ⟨.link .unbalancedBrackets, by decide +kernel, rfl,
    fun i => Link.not_place_isPrefix_message i .unbalancedBrackets⟩

end Feed

end Headline
