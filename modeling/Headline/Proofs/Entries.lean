import Headline.Feed.Entry
import Headline.Proofs.References
import Mathlib.Data.List.Forall2

/-!
# Entries read in order

A feed is read as a whole or refused. What one entry leads to is told by `readEntry_cases`: either
all its texts are there and it makes an item (`Maps`), or it is refused in the wording for the first
text that is not (`Complaint`). From that, by induction along the list, entries that are all well
formed make one item each, and otherwise the first one that is not decides
(`readEntries_of_complaint`).

Nothing else in a feed counts: members with other names can be left out (`readEntries_bare`), and of
the site only what the base for links keeps (`baseOf_append_slashes`).
-/

namespace Headline.Feed

open Json (Value)

/-! ## Feeds -/

/-- The names of the texts of an entry, in the order in which they are looked for. -/
def fieldNames : List Text :=
  ["targetUrl".toList, "title".toList, "newsDate".toList, "updated".toList]

/-- A feed is a list of its entries, or an object that has that list as `news`. -/
inductive HasEntries : Value → List Value → Prop
  | array (entries : List Value) : HasEntries (.array entries) entries
  | object {members : List (Text × Value)} {entries : List Value}
      (h : Json.lookup "news".toList members = some (.array entries)) :
      HasEntries (.object members) entries

/-- The text of an entry under a name, if the entry is an object that has one. -/
def textAt? : Value → Text → Option Text
  | .object members, field =>
    match Json.lookup field members with
    | some (.string s) => some s
    | _ => none
  | _, _ => none

/-- An entry has all its texts. -/
def WellFormed (entry : Value) : Prop := ∀ field ∈ fieldNames, (textAt? entry field).isSome

/-- An entry makes an item: the texts are taken over, and the link is resolved. -/
structure Maps (site : Text) (entry : Value) (item : Item) : Prop where
  link : ∃ s, textAt? entry "targetUrl".toList = some s ∧
    Link.resolve (Link.baseOf site) s = .ok item.link
  title : textAt? entry "title".toList = some item.title
  published : textAt? entry "newsDate".toList = some item.published
  updated : textAt? entry "updated".toList = some item.updated

/-- What there is to say against an entry: that it is no object, or which of its texts is the first
one missing. -/
inductive Complaint (index : Nat) : Value → Text → Prop
  | notObject {entry : Value} (h : ∀ members, entry ≠ .object members) :
      Complaint index entry
        ("news[".toList ++ Text.ofNat index ++ "] must be an object".toList)
  | notText {members : List (Text × Value)} {before behind : List Text} {field : Text}
      (hfields : fieldNames = before ++ field :: behind)
      (hbefore : ∀ name ∈ before, (textAt? (.object members) name).isSome)
      (hfield : textAt? (.object members) field = none) :
      Complaint index (.object members)
        ("news[".toList ++ Text.ofNat index ++ "].".toList ++ field ++ " must be a string".toList)

/-- The link of an entry can be resolved, if it is a text. -/
def LinkResolves (site : Text) (entry : Value) : Prop :=
  ∀ s, textAt? entry "targetUrl".toList = some s →
    ∃ link, Link.resolve (Link.baseOf site) s = .ok link

/-! ## One entry -/

section Entries

variable {site : Text} {index : Nat} {members : List (Text × Value)} {field : Text} {entry : Value}

theorem textField_of_some {i : Int} {s : Text} (h : textAt? (.object members) field = some s) :
    textField i members field = .ok s := by
  simp only [textAt?] at h
  split at h
  · next hlookup =>
    obtain rfl := Option.some.inj h
    rw [textField, hlookup]
  · cases h

theorem textField_of_none (h : textAt? (.object members) field = none) :
    textField index members field = .error (.notText index field) := by
  simp only [textAt?] at h
  split at h
  · cases h
  · next hlookup =>
    unfold textField
    split
    · next s hs => exact absurd hs (hlookup s)
    · rfl

/-- Looking for the texts of an object stops at the first one missing. -/
theorem mapM_textField (index : Nat) (members : List (Text × Value)) (fields : List Text) :
    ((∀ field ∈ fields, (textAt? (.object members) field).isSome) ∧
      ∃ texts, fields.mapM (textField index members) = .ok texts ∧
        List.Forall₂ (fun field s => textAt? (.object members) field = some s) fields texts) ∨
    ∃ before field behind, fields = before ++ field :: behind ∧
      (∀ name ∈ before, (textAt? (.object members) name).isSome) ∧
      textAt? (.object members) field = none ∧
      fields.mapM (textField index members) = .error (.notText index field) := by
  induction fields with
  | nil => exact .inl ⟨by simp, [], rfl, .nil⟩
  | cons field fields ih =>
    rw [List.mapM_cons]
    cases hfield : textAt? (.object members) field with
    -- the fields behind the first one that is no text are not looked at
    | none =>
      rw [textField_of_none hfield]
      exact .inr ⟨[], field, fields, rfl, by simp, hfield, rfl⟩
    | some s =>
      have hsome : (textAt? (.object members) field).isSome := by rw [hfield]; rfl
      rw [textField_of_some hfield]
      rcases ih with ⟨hall, texts, hread, htexts⟩ |
        ⟨before, name, behind, rfl, hbefore, hname, hread⟩
      · rw [hread]
        exact .inl ⟨List.forall_mem_cons.2 ⟨hsome, hall⟩, s :: texts, rfl, .cons hfield htexts⟩
      · rw [hread]
        exact .inr ⟨field :: before, name, behind, rfl,
          List.forall_mem_cons.2 ⟨hsome, hbefore⟩, hname, rfl⟩

/-- The fields of an object are read in the order of their names. -/
theorem readFields_object (index : Nat) (members : List (Text × Value)) :
    readFields index (.object members) = fieldNames.mapM (textField index members) >>= fun
      | [link, title, published, updated] => .ok { link, title, published, updated }
      | _ => .error .shape := by
  simp only [readFields, fieldNames, List.mapM_cons, List.mapM_nil, bind_assoc, pure_bind]
  rfl

theorem message_notObject (index : Nat) :
    (Fault.notObject index).message =
      "news[".toList ++ Text.ofNat index ++ "] must be an object".toList := by
  have hbracket : "] must be an object".toList = [']'] ++ " must be an object".toList := rfl
  rw [hbracket, ← List.append_assoc]
  rfl

theorem message_notText (index : Nat) (field : Text) :
    (Fault.notText index field).message =
      "news[".toList ++ Text.ofNat index ++ "].".toList ++ field ++ " must be a string".toList := by
  have hbracket : "].".toList = [']'] ++ ['.'] := rfl
  show place index ++ (['.'] ++ field) ++ " must be a string".toList = _
  rw [hbracket, ← List.append_assoc, ← List.append_assoc]
  rfl

/-- What an entry leads to: its four texts, or a refusal. -/
theorem readFields_cases (index : Nat) (entry : Value) :
    (WellFormed entry ∧ ∃ item, readFields index entry = .ok item ∧
      textAt? entry "targetUrl".toList = some item.link ∧
      textAt? entry "title".toList = some item.title ∧
      textAt? entry "newsDate".toList = some item.published ∧
      textAt? entry "updated".toList = some item.updated) ∨
    (¬ WellFormed entry ∧ ∃ f, readFields index entry = .error f ∧
      Complaint index entry f.message) := by
  by_cases hobject : ∃ members, entry = .object members
  · obtain ⟨members, rfl⟩ := hobject
    rw [readFields_object]
    rcases mapM_textField index members fieldNames with
      ⟨hformed, texts, hread, htexts⟩ |
        ⟨before, field, behind, hfields, hbefore, hfield, hread⟩
    -- four fields have been read into the four texts of an item
    · obtain ⟨link, _, hlink, h₁, rfl⟩ := List.forall₂_cons_left_iff.1 htexts
      obtain ⟨title, _, htitle, h₂, rfl⟩ := List.forall₂_cons_left_iff.1 h₁
      obtain ⟨published, _, hpublished, h₃, rfl⟩ := List.forall₂_cons_left_iff.1 h₂
      obtain ⟨updated, _, hupdated, h₄, rfl⟩ := List.forall₂_cons_left_iff.1 h₃
      obtain rfl := List.forall₂_nil_left_iff.1 h₄
      refine .inl ⟨hformed, ⟨link, title, published, updated⟩, ?_, hlink, htitle, hpublished,
        hupdated⟩
      rw [hread]
      rfl
    · refine .inr ⟨fun h => ?_, .notText index field, ?_, ?_⟩
      · have hsome := h field (by rw [hfields]; simp)
        rw [hfield] at hsome
        cases hsome
      · rw [hread]
        rfl
      · rw [message_notText]
        exact .notText hfields hbefore hfield
  · have hother : ∀ members, entry ≠ .object members := fun members h => hobject ⟨members, h⟩
    refine .inr ⟨fun h => ?_, .notObject index, ?_, ?_⟩
    -- nothing but an object has a field
    · have hsome := h _ (List.mem_cons_self ..)
      cases entry with
      | object members => exact hother members rfl
      | _ => cases hsome
    · cases entry with
      | object members => exact absurd rfl (hother members)
      | _ => rfl
    · rw [message_notObject]
      exact .notObject hother

/-- What an entry leads to, whatever its link: an item, the fault of its link, or a refusal. -/
theorem readEntry_outcome (site : Text) (index : Nat) (entry : Value) :
    (∃ item, readEntry site index entry = .ok item ∧ WellFormed entry ∧ Maps site entry item) ∨
    (∃ s fault, readEntry site index entry = .error (.link fault) ∧ WellFormed entry ∧
      textAt? entry "targetUrl".toList = some s ∧
      Link.resolve (Link.baseOf site) s = .error fault) ∨
    (∃ f, readEntry site index entry = .error f ∧ ¬ WellFormed entry ∧
      Complaint index entry f.message) := by
  rcases readFields_cases index entry with
    ⟨hformed, item, hread, htexts⟩ | ⟨hformed, f, hread, hcomplaint⟩
  · obtain ⟨htarget, htitle, hpublished, hupdated⟩ := htexts
    rw [readEntry, hread]
    show (∃ item',
        ((Link.resolve (Link.baseOf site) item.link).mapError Fault.link >>= _) = _ ∧ _) ∨
      (∃ s fault,
        ((Link.resolve (Link.baseOf site) item.link).mapError Fault.link >>= _) = _ ∧ _) ∨ _
    cases hresolve : Link.resolve (Link.baseOf site) item.link with
    | ok link =>
      exact .inl ⟨{ item with link }, rfl, hformed,
        ⟨item.link, htarget, hresolve⟩, htitle, hpublished, hupdated⟩
    | error fault => exact .inr (.inl ⟨item.link, fault, rfl, hformed, htarget, hresolve⟩)
  · refine .inr (.inr ⟨f, ?_, hformed, hcomplaint⟩)
    rw [readEntry, hread]
    rfl

theorem textAt?_of_textField {i : Int} {s : Text} (h : textField i members field = .ok s) :
    textAt? (.object members) field = some s := by
  unfold textField at h
  split at h
  · next hlookup =>
    obtain rfl := Except.ok.inj h
    rw [textAt?, hlookup]
  · cases h

/-- An item has the texts of its entry, wherever the entry stands. -/
theorem maps_of_readEntry {i : Int} {item : Item} (h : readEntry site i entry = .ok item) :
    Maps site entry item := by
  obtain ⟨fields, hfields, h⟩ := exists_of_bind_eq_ok h
  obtain ⟨link, hresolve, h⟩ := exists_of_bind_eq_ok h
  obtain rfl := Except.ok.inj h
  cases entry with
  | object members =>
    obtain ⟨target, htarget, hfields⟩ := exists_of_bind_eq_ok hfields
    obtain ⟨title, htitle, hfields⟩ := exists_of_bind_eq_ok hfields
    obtain ⟨published, hpublished, hfields⟩ := exists_of_bind_eq_ok hfields
    obtain ⟨updated, hupdated, hfields⟩ := exists_of_bind_eq_ok hfields
    obtain rfl := Except.ok.inj hfields
    refine ⟨⟨target, textAt?_of_textField htarget, ?_⟩, textAt?_of_textField htitle,
      textAt?_of_textField hpublished, textAt?_of_textField hupdated⟩
    cases hlink : Link.resolve (Link.baseOf site) target with
    | ok resolved =>
      rw [hlink] at hresolve
      exact congrArg Except.ok (Except.ok.inj hresolve)
    | error fault =>
      rw [hlink] at hresolve
      cases hresolve
  | _ => cases hfields

/-- An entry whose link resolves makes an item, or it is refused. -/
theorem readEntry_cases (site : Text) (index : Nat) {entry : Value}
    (hlink : LinkResolves site entry) :
    (WellFormed entry ∧ ∃ item, readEntry site index entry = .ok item ∧ Maps site entry item) ∨
    (¬ WellFormed entry ∧ ∃ f, readEntry site index entry = .error f ∧
      Complaint index entry f.message) := by
  rcases readEntry_outcome site index entry with
    ⟨item, hread, hformed, hmaps⟩ | ⟨s, fault, -, -, htarget, hresolve⟩ | ⟨f, hread, hformed, hc⟩
  · exact .inl ⟨hformed, item, hread, hmaps⟩
  · obtain ⟨link, hlink⟩ := hlink s htarget
    rw [hlink] at hresolve
    cases hresolve
  · exact .inr ⟨hformed, f, hread, hc⟩

/-! ## All entries -/

/-- Entries that are all well formed make one item each. -/
theorem readEntries_of_wellFormed {entries : List Value}
    (hlinks : ∀ entry ∈ entries, LinkResolves site entry)
    (h : ∀ entry ∈ entries, WellFormed entry) (start : Nat) :
    ∃ items, readEntries site start entries = .ok items ∧
      List.Forall₂ (Maps site) entries items := by
  induction entries generalizing start with
  | nil => exact ⟨[], rfl, .nil⟩
  | cons entry entries ih =>
    obtain ⟨hlink, hlinks⟩ := List.forall_mem_cons.1 hlinks
    obtain ⟨hentry, h⟩ := List.forall_mem_cons.1 h
    obtain ⟨items, hitems, hmaps⟩ := ih hlinks h (start + 1)
    rcases readEntry_cases site start hlink with ⟨-, item, hitem, hmap⟩ | ⟨hnot, -⟩
    · refine ⟨item :: items, ?_, .cons hmap hmaps⟩
      rw [readEntries, hitem]
      show (readEntries site (start + 1) entries >>= _) = _
      rw [hitems]
      rfl
    · exact absurd hentry hnot

/-- The first entry that is not well formed decides. -/
theorem readEntries_of_complaint {before behind : List Value}
    (hlinks : ∀ e ∈ before ++ entry :: behind, LinkResolves site e)
    (hbefore : ∀ e ∈ before, WellFormed e) (hentry : ¬ WellFormed entry) (start : Nat) :
    ∃ f, readEntries site start (before ++ entry :: behind) = .error f ∧
      Complaint (start + before.length) entry f.message := by
  induction before generalizing start with
  | nil =>
    rcases readEntry_cases site start (hlinks entry (List.mem_cons_self ..)) with
      ⟨hformed, -⟩ | ⟨-, f, hread, hcomplaint⟩
    · exact absurd hformed hentry
    -- nothing behind the entry is read
    · refine ⟨f, ?_, hcomplaint⟩
      rw [List.nil_append, readEntries, hread]
      rfl
  | cons first before ih =>
    obtain ⟨hlink, hlinks⟩ := List.forall_mem_cons.1 hlinks
    obtain ⟨hfirst, hbefore⟩ := List.forall_mem_cons.1 hbefore
    obtain ⟨f, hread, hcomplaint⟩ := ih hlinks hbefore (start + 1)
    rcases readEntry_cases site start hlink with ⟨-, item, hitem, -⟩ | ⟨hnot, -⟩
    · refine ⟨f, ?_, ?_⟩
      · rw [List.cons_append, readEntries, hitem]
        show (readEntries site (start + 1) (before ++ entry :: behind) >>= _) = _
        rw [hread]
        rfl
      · rwa [List.length_cons, Nat.add_comm before.length 1, ← Nat.add_assoc]
    · exact absurd hfirst hnot

/-! ## What does not count -/

/-- An entry without the members that have other names. -/
def bare : Value → Value
  | .object members => .object (members.filter fun m => fieldNames.contains m.1)
  | v => v

theorem lookup_filter {keep : Text → Bool} {name : Text} (h : keep name)
    (members : List (Text × Value)) :
    Json.lookup name (members.filter fun m => keep m.1) = Json.lookup name members := by
  have hsame : (fun m : Text × Value => decide (keep m.1 = true ∧ decide (m.1 = name) = true)) =
      fun m => decide (m.1 = name) := by
    funext m
    by_cases hm : m.1 = name
    · simp [hm, h]
    · simp [hm]
  rw [Json.lookup, Json.lookup, ← List.filter_reverse, List.find?_filter, hsame]

theorem readFields_bare (index : Int) (entry : Value) :
    readFields index (bare entry) = readFields index entry := by
  cases entry with
  | object members =>
    have hsame : ∀ field ∈ fieldNames,
        textField index (members.filter fun m => fieldNames.contains m.1) field =
          textField index members field := by
      intro field hfield
      rw [textField, textField, lookup_filter (List.contains_iff_mem.2 hfield)]
    rw [bare]
    -- of the members only those count that are found under one of the four names
    generalize members.filter (fun m => fieldNames.contains m.1) = kept at hsame
    simp only [fieldNames, List.forall_mem_cons] at hsame
    obtain ⟨hlink, htitle, hpublished, hupdated, -⟩ := hsame
    rw [readFields, readFields, hlink, htitle, hpublished, hupdated]
  | _ => rfl

theorem readEntries_bare (site : Text) (start : Nat) (entries : List Value) :
    readEntries site start (entries.map bare) = readEntries site start entries := by
  induction entries generalizing start with
  | nil => rfl
  | cons entry entries ih =>
    rw [List.map_cons, readEntries, readEntries, ih, readEntry, readEntry, readFields_bare]

theorem baseOf_append_slashes (site : Text) (n : Nat) :
    Link.baseOf (site ++ List.replicate n '/') = Link.baseOf site := by
  rw [Link.baseOf, Link.baseOf, Text.dropTrailing, Text.dropTrailing, List.reverse_append,
    List.reverse_replicate, List.dropWhile_append_of_pos]
  intro c hc
  rw [List.eq_of_mem_replicate hc]
  rfl

theorem readEntries_append_slashes (site : Text) (n start : Nat) (entries : List Value) :
    readEntries (site ++ List.replicate n '/') start entries = readEntries site start entries := by
  induction entries generalizing start with
  | nil => rfl
  | cons entry entries ih =>
    rw [readEntries, readEntries, ih, readEntry, readEntry, baseOf_append_slashes]

/-! ## Feeds and their entries -/

variable {payload : Value} {entries : List Value}

theorem HasEntries.readPayload_eq (h : HasEntries payload entries) (site : Text) :
    readPayload site payload = readEntries site 0 entries := by
  cases h with
  | array => rfl
  | object h =>
    rw [readPayload, entriesOf, h]
    rfl

theorem readPayload_of_not_hasEntries (h : ∀ entries, ¬ HasEntries payload entries) (site : Text) :
    readPayload site payload = .error .shape := by
  rw [readPayload]
  unfold entriesOf
  split
  · exact absurd (.array _) (h _)
  · split
    · next hlookup => exact absurd (.object hlookup) (h _)
    · rfl
  · rfl

/-- Among entries that are not all well formed there is a first one. -/
theorem exists_first_of_not_wellFormed (h : ¬ ∀ entry ∈ entries, WellFormed entry) :
    ∃ before entry behind, entries = before ++ entry :: behind ∧
      (∀ e ∈ before, WellFormed e) ∧ ¬ WellFormed entry := by
  induction entries with
  | nil => simp at h
  | cons entry entries ih =>
    by_cases hentry : WellFormed entry
    · obtain ⟨before, e, behind, rfl, hbefore, he⟩ :=
        ih fun hall => h (List.forall_mem_cons.2 ⟨hentry, hall⟩)
      exact ⟨entry :: before, e, behind, rfl, List.forall_mem_cons.2 ⟨hentry, hbefore⟩, he⟩
    · exact ⟨[], entry, entries, rfl, by simp, hentry⟩

theorem exists_hasEntries_of_ok {items : List Item} (h : readPayload site payload = .ok items) :
    ∃ entries, HasEntries payload entries := by
  by_contra hnone
  rw [readPayload_of_not_hasEntries fun entries he => hnone ⟨entries, he⟩] at h
  cases h

theorem readPayload_append_slashes (site : Text) (n : Nat) (payload : Value) :
    readPayload (site ++ List.replicate n '/') payload = readPayload site payload := by
  by_cases h : ∃ entries, HasEntries payload entries
  · obtain ⟨entries, h⟩ := h
    rw [h.readPayload_eq, h.readPayload_eq, readEntries_append_slashes]
  · have hnone : ∀ entries, ¬ HasEntries payload entries := fun entries he => h ⟨entries, he⟩
    rw [readPayload_of_not_hasEntries hnone, readPayload_of_not_hasEntries hnone]

/-- A feed that is read has no entry that is not well formed. -/
theorem HasEntries.wellFormed_of_ok (h : HasEntries payload entries)
    (hlinks : ∀ entry ∈ entries, LinkResolves site entry) {items : List Item}
    (hitems : readPayload site payload = .ok items) : ∀ entry ∈ entries, WellFormed entry := by
  by_contra hnot
  obtain ⟨before, entry, behind, rfl, hbefore, hentry⟩ := exists_first_of_not_wellFormed hnot
  obtain ⟨f, hf, -⟩ := readEntries_of_complaint hlinks hbefore hentry 0
  rw [h.readPayload_eq, hf] at hitems
  cases hitems

end Entries

/-- A feed whose links can be resolved is read if it has entries and all of them are well formed.
Then it makes one item for each entry, in their order. Otherwise the first entry that is not well
formed is named, with the first of its texts that is missing, and if there are no entries at all,
that is said. The result is that of the bare list of entries without other members, it is the same
under the name `news`, and slashes at the end of the site make no difference. -/
theorem payload_read_whole_or_refused (site : Text) (payload : Value)
    (hlinks : ∀ entries, HasEntries payload entries → ∀ entry ∈ entries, LinkResolves site entry) :
    ((∃ items, readPayload site payload = .ok items) ↔
      ∃ entries, HasEntries payload entries ∧ ∀ entry ∈ entries, WellFormed entry) ∧
    (∀ entries items, HasEntries payload entries → readPayload site payload = .ok items →
      List.Forall₂ (Maps site) entries items) ∧
    (∀ before entry behind, HasEntries payload (before ++ entry :: behind) →
      (∀ e ∈ before, WellFormed e) → ¬ WellFormed entry →
      ∃ f, readPayload site payload = .error f ∧ Complaint before.length entry f.message) ∧
    ((∀ entries, ¬ HasEntries payload entries) → readPayload site payload = .error .shape) ∧
    (∀ entries, HasEntries payload entries →
      readPayload site payload = readPayload site (.array (entries.map bare)) ∧
      readPayload site payload = readPayload site (.object [("news".toList, .array entries)])) ∧
    ∀ n, readPayload (site ++ List.replicate n '/') payload = readPayload site payload := by
  refine ⟨⟨fun ⟨items, hitems⟩ => ?_, fun ⟨entries, h, hformed⟩ => ?_⟩,
    fun entries items h hitems => ?_, fun before entry behind h hbefore hentry => ?_,
    fun h => readPayload_of_not_hasEntries h site, fun entries h => ⟨?_, ?_⟩,
    fun n => readPayload_append_slashes site n payload⟩
  · obtain ⟨entries, h⟩ := exists_hasEntries_of_ok hitems
    exact ⟨entries, h, h.wellFormed_of_ok (hlinks entries h) hitems⟩
  · obtain ⟨items, hitems, -⟩ := readEntries_of_wellFormed (hlinks entries h) hformed 0
    exact ⟨items, (h.readPayload_eq site).trans hitems⟩
  · have hformed := h.wellFormed_of_ok (hlinks entries h) hitems
    obtain ⟨items', hitems', hmaps⟩ := readEntries_of_wellFormed (hlinks entries h) hformed 0
    rw [h.readPayload_eq, hitems'] at hitems
    obtain rfl := Except.ok.inj hitems
    exact hmaps
  · have hcomplaint := readEntries_of_complaint (hlinks _ h) hbefore hentry 0
    rwa [Nat.zero_add, ← h.readPayload_eq] at hcomplaint
  · rw [h.readPayload_eq, (HasEntries.array _).readPayload_eq, readEntries_bare]
  · have hwrapped : HasEntries (.object [("news".toList, .array entries)]) entries :=
      .object (by simp [Json.lookup])
    rw [h.readPayload_eq, hwrapped.readPayload_eq]

/-- Of two entries the second has a title that is no text, which is what is said, and the first one
alone makes an item. -/
theorem payload_of_two_entries :
    let site := "https://a.jp/".toList
    let good : Value := .object [("id".toList, .int 1), ("targetUrl".toList, .string "n/1".toList),
      ("title".toList, .string "A".toList), ("newsDate".toList, .string "B".toList),
      ("updated".toList, .string "C".toList)]
    let bad : Value := .object [("updated".toList, .null), ("title".toList, .int 2),
      ("targetUrl".toList, .string "/n/2".toList)]
    (∃ f, readPayload site (.object [("news".toList, .array [good, bad])]) = .error f ∧
      f.message = "news[1].title must be a string".toList ∧ Complaint 1 bad f.message) ∧
    ∃ items, readPayload site (.array [good]) = .ok items ∧
      items.map Item.link = ["https://a.jp/n/1".toList] ∧
      List.Forall₂ (Maps site) [good] items := by
  intro site good bad
  have htargets : textAt? good "targetUrl".toList = some "n/1".toList ∧
      textAt? bad "targetUrl".toList = some "/n/2".toList := by decide +kernel
  have hresolve : Link.resolve (Link.baseOf site) "n/1".toList = .ok "https://a.jp/n/1".toList ∧
      Link.resolve (Link.baseOf site) "/n/2".toList = .ok "https://a.jp/n/2".toList := by
    decide +kernel
  have hgood : LinkResolves site good := by
    intro s hs
    obtain rfl := Option.some.inj (htargets.1.symm.trans hs)
    exact ⟨_, hresolve.1⟩
  have hbad : LinkResolves site bad := by
    intro s hs
    obtain rfl := Option.some.inj (htargets.2.symm.trans hs)
    exact ⟨_, hresolve.2⟩
  have hformed : WellFormed good := by unfold WellFormed; decide +kernel
  have hmissing : ¬ WellFormed bad := by unfold WellFormed; decide +kernel
  have hentries : HasEntries (.object [("news".toList, .array [good, bad])]) [good, bad] :=
    .object (by simp [Json.lookup])
  constructor
  · obtain ⟨-, -, hrefused, -⟩ :=
      payload_read_whole_or_refused site (.object [("news".toList, .array [good, bad])])
        (fun entries h => by
          cases h with
          | object h =>
            obtain rfl : [good, bad] = entries := by simpa [Json.lookup] using h
            simp [hgood, hbad])
    obtain ⟨f, hf, hcomplaint⟩ := hrefused [good] bad [] hentries (by simpa using hformed) hmissing
    have hnamed : readPayload site (.object [("news".toList, .array [good, bad])]) =
        .error (.notText 1 "title".toList) := by decide +kernel
    obtain rfl := Except.error.inj (hnamed.symm.trans hf)
    exact ⟨_, hf, by decide +kernel, hcomplaint⟩
  · obtain ⟨-, hmaps, -⟩ := payload_read_whole_or_refused site (.array [good])
      (fun entries h => by
        cases h with
        | array => simpa using hgood)
    have hread : readPayload site (.array [good]) =
        .ok [⟨"https://a.jp/n/1".toList, "A".toList, "B".toList, "C".toList⟩] := by decide +kernel
    exact ⟨_, hread, rfl, hmaps _ _ (.array _) hread⟩

end Headline.Feed
