import Headline.Link.Resolve
import Mathlib.Data.List.TakeWhile

/-!
# References

What follows the authority of a link is a reference: a path, and behind their marks parameters, a
query and a fragment. Every text without line breaks is a reference (`exists_reference`), and taking
a link apart finds its parts (`Url.split_eq`).

A mark with nothing behind it is idle. Where the parts of a link are put together again the idle
marks are left out (`text_urlOf`).
-/

namespace Headline

theorem exists_of_bind_eq_ok {ε α β : Type} {x : Except ε α} {f : α → Except ε β} {b : β}
    (h : x >>= f = .ok b) : ∃ a, x = .ok a ∧ f a = .ok b := by
  cases x with
  | error e => cases h
  | ok a => exact ⟨a, rfl, h⟩

namespace Text

/-! ## Cutting -/

theorem cutAt_append {p : Char → Bool} {front behind : Text} (hfront : ∀ c ∈ front, p c = false)
    (hbehind : ∀ c ∈ behind.head?, p c) : cutAt p (front ++ behind) = (front, behind) := by
  have hkeep : ∀ c ∈ front, (!p c) = true := fun c hc => by rw [hfront c hc]; rfl
  have hstop : behind.takeWhile (fun c => !p c) = [] ∧
      behind.dropWhile (fun c => !p c) = behind := by
    cases behind with
    | nil => exact ⟨rfl, rfl⟩
    | cons c behind =>
      have hc : ¬ (!p c) = true := by simp [hbehind c rfl]
      exact ⟨List.takeWhile_cons_of_neg hc, List.dropWhile_cons_of_neg hc⟩
  rw [cutAt, List.takeWhile_append_of_pos hkeep, List.dropWhile_append_of_pos hkeep, hstop.1,
    hstop.2, List.append_nil]

/-- Every text has a front without such characters, and behind it, if anything, one of them. -/
theorem exists_cut (p : Char → Bool) (s : Text) :
    ∃ front behind, s = front ++ behind ∧ (∀ c ∈ front, p c = false) ∧ ∀ c ∈ behind.head?, p c := by
  induction s with
  | nil => exact ⟨[], [], rfl, by simp, by simp⟩
  | cons c s ih =>
    by_cases hc : p c = true
    · exact ⟨[], c :: s, rfl, by simp, by simpa using hc⟩
    · obtain ⟨front, behind, rfl, hfront, hbehind⟩ := ih
      exact ⟨c :: front, behind, rfl, List.forall_mem_cons.2 ⟨by simpa using hc, hfront⟩, hbehind⟩

end Text

namespace Link

/-! ## Parts and their marks -/

/-- A text without line breaks and tabs and without the given marks. -/
def Avoids (marks : List Char) (s : Text) : Prop := ∀ c ∈ s, c ∉ marks ∧ c ∉ ['\t', '\r', '\n']

/-- A part behind its mark, if the mark stands there. -/
def spelled (mark : Char) : Option Text → Text
  | none => []
  | some s => mark :: s

theorem Avoids.append {marks : List Char} {s t : Text} (hs : Avoids marks s) (ht : Avoids marks t) :
    Avoids marks (s ++ t) := List.forall_mem_append.2 ⟨hs, ht⟩

theorem avoids_append {marks : List Char} {s t : Text} :
    Avoids marks (s ++ t) ↔ Avoids marks s ∧ Avoids marks t := List.forall_mem_append

theorem avoids_of_not_mem {marks : List Char} {s : Text} (h : Avoids [] s)
    (hmarks : ∀ mark ∈ marks, mark ∉ s) : Avoids marks s :=
  fun c hc => ⟨fun hmark => hmarks c hmark hc, (h c hc).2⟩

theorem Avoids.not_mem {marks : List Char} {s : Text} (h : Avoids marks s) {mark : Char}
    (hmark : mark ∈ marks) : mark ∉ s := fun hs => (h mark hs).1 hmark

theorem Avoids.subset {marks : List Char} {s t : Text} (h : Avoids marks t) (hst : s ⊆ t) :
    Avoids marks s := fun c hc => h c (hst hc)

theorem drop_spelled (mark : Char) (part : Option Text) :
    (spelled mark part).drop 1 = part.getD [] := by cases part <;> rfl

theorem spelled_filter_subset (mark : Char) (part : Option Text) :
    spelled mark (part.filter (· ≠ [])) ⊆ spelled mark part := by
  cases part with
  | none => exact List.Subset.refl _
  | some s => cases s <;> simp [Option.filter, spelled]

/-- A part without text is not put behind its mark. -/
theorem marked_getD (mark : Char) (part : Option Text) :
    marked mark (part.getD []) = spelled mark (part.filter (· ≠ [])) := by
  cases part with
  | none => rfl
  | some s => cases s <;> rfl

theorem cutAt_spelled {mark : Char} {front : Text} (hfront : mark ∉ front) (part : Option Text) :
    Text.cutAt (· == mark) (front ++ spelled mark part) = (front, spelled mark part) := by
  refine Text.cutAt_append (fun c hc => ?_) fun c hc => ?_
  · rw [beq_eq_false_iff_ne]
    exact fun h => hfront (h ▸ hc)
  · cases part with
    | none => cases hc
    | some s =>
      obtain rfl := Option.some.inj hc
      exact beq_self_eq_true mark

theorem exists_spelled (mark : Char) (s : Text) :
    ∃ front part, s = front ++ spelled mark part ∧ mark ∉ front := by
  obtain ⟨front, behind, rfl, hfront, hbehind⟩ := Text.exists_cut (· == mark) s
  have hmark : mark ∉ front := fun h => by simpa using hfront mark h
  cases behind with
  | nil => exact ⟨front, none, rfl, hmark⟩
  | cons c behind =>
    obtain rfl : c = mark := by simpa using hbehind c rfl
    exact ⟨front, some behind, rfl, hmark⟩

/-! ## Segments and their parameters -/

theorem afterLast_append {c : Char} (s : Text) {t : Text} (h : c ∉ t) :
    afterLast c (s ++ t) = afterLast c s ++ t := by
  have hall : ∀ d ∈ t.reverse, (d != c) = true := by
    intro d hd
    rw [bne_iff_ne]
    exact fun hdc => h (hdc ▸ List.mem_reverse.1 hd)
  rw [afterLast, List.reverse_append, List.takeWhile_append_of_pos hall, List.reverse_append,
    List.reverse_reverse, afterLast]

theorem afterLast_concat (c : Char) (s : Text) : afterLast c (s ++ [c]) = [] := by
  rw [afterLast, List.reverse_append]
  show (List.takeWhile (· != c) (c :: s.reverse)).reverse = []
  rw [List.takeWhile_cons_of_neg (by simp)]
  rfl

theorem not_mem_afterLast (c : Char) (s : Text) : c ∉ afterLast c s := by
  intro h
  have hne := List.mem_takeWhile_imp (List.mem_reverse.1 h)
  simp at hne

/-- A path is its directory, up to the last slash, and its last segment. -/
theorem exists_directory (path : Text) :
    ∃ directory, path = directory ++ afterLast '/' path ∧ afterLast '/' directory = [] := by
  obtain ⟨segment, directory, hpath, hsegment, hdirectory⟩ :=
    Text.exists_cut (· == '/') path.reverse
  have hslash : '/' ∉ segment.reverse := by
    intro h
    simpa using hsegment '/' (List.mem_reverse.1 h)
  -- what is left in front of the segment ends in a slash, unless it is empty
  have hempty : afterLast '/' directory.reverse = [] := by
    cases directory with
    | nil => rfl
    | cons c directory =>
      obtain rfl : c = '/' := by simpa using hdirectory c rfl
      rw [List.reverse_cons, afterLast_concat]
  have heq : path = directory.reverse ++ segment.reverse := by
    rw [← List.reverse_append, ← hpath, List.reverse_reverse]
  refine ⟨directory.reverse, ?_, hempty⟩
  rw [heq, afterLast_append _ hslash, hempty, List.nil_append]

/-- The parameters are found behind the first `;` of the last segment. -/
theorem splitParams_spelled {path : Text} {params : Option Text}
    (hsegment : ';' ∉ afterLast '/' path) (hparams : '/' ∉ spelled ';' params) :
    splitParams (path ++ spelled ';' params) = (path, params.getD []) := by
  obtain ⟨directory, hpath, -⟩ := exists_directory path
  generalize hlast : afterLast '/' path = segment at hsegment hpath
  have hfront : (path ++ spelled ';' params).take
      ((path ++ spelled ';' params).length - (segment ++ spelled ';' params).length) =
        directory := by
    rw [hpath, List.append_assoc, List.length_append, Nat.add_sub_cancel, List.take_left]
  simp only [splitParams]
  rw [afterLast_append _ hparams, hlast, cutAt_spelled hsegment, hfront, ← hpath, drop_spelled]

theorem exists_params (s : Text) :
    ∃ path params, s = path ++ spelled ';' params ∧ ';' ∉ afterLast '/' path ∧
      '/' ∉ spelled ';' params := by
  obtain ⟨directory, hs, hdirectory⟩ := exists_directory s
  obtain ⟨bare, params, hsegment, hbare⟩ := exists_spelled ';' (afterLast '/' s)
  have hslash : '/' ∉ bare ++ spelled ';' params := hsegment ▸ not_mem_afterLast '/' s
  rw [List.mem_append, not_or] at hslash
  refine ⟨directory ++ bare, params, ?_, ?_, hslash.2⟩
  · rw [List.append_assoc, ← hsegment]
    exact hs
  · rwa [afterLast_append _ hslash.1, hdirectory]

/-! ## References -/

/-- What may follow the authority of a link: a path, and behind their marks parameters of its last
segment, a query and a fragment. -/
structure Reference where
  path : Text
  params : Option Text
  query : Option Text
  fragment : Option Text
  path_avoids : Avoids ['?', '#'] path
  segment_plain : ';' ∉ afterLast '/' path
  params_avoids : Avoids ['/', '?', '#'] (spelled ';' params)
  query_avoids : Avoids ['#'] (spelled '?' query)
  fragment_avoids : Avoids [] (spelled '#' fragment)

namespace Reference

/-- The reference as it is written. -/
def text (r : Reference) : Text :=
  r.path ++ spelled ';' r.params ++ spelled '?' r.query ++ spelled '#' r.fragment

/-- A mark stands there with nothing behind it. -/
def HasIdleMark (r : Reference) : Prop :=
  r.params = some [] ∨ r.query = some [] ∨ r.fragment = some []

/-- The reference without its idle marks. -/
def tidied (r : Reference) : Reference :=
  { r with
    params := r.params.filter (· ≠ [])
    query := r.query.filter (· ≠ [])
    fragment := r.fragment.filter (· ≠ [])
    params_avoids := r.params_avoids.subset (spelled_filter_subset ..)
    query_avoids := r.query_avoids.subset (spelled_filter_subset ..)
    fragment_avoids := r.fragment_avoids.subset (spelled_filter_subset ..) }

/-- It can stand behind an authority: its path, if it has one, starts at the root. -/
def IsRooted (r : Reference) : Prop :=
  r.path.head? = some '/' ∨ r.path = [] ∧ r.params = none

theorem avoids_text (r : Reference) : Avoids [] r.text := by
  have forget : ∀ {marks s}, Avoids marks s → Avoids [] s :=
    fun h c hc => ⟨List.not_mem_nil, (h c hc).2⟩
  exact (((forget r.path_avoids).append (forget r.params_avoids)).append
    (forget r.query_avoids)).append r.fragment_avoids

end Reference

section Idle

variable {part : Option Text}

theorem filter_eq_self (h : part ≠ some []) : part.filter (· ≠ []) = part := by
  cases part with
  | none => rfl
  | some s => cases s with
    | nil => exact absurd rfl h
    | cons c s => rfl

theorem length_spelled (mark : Char) (part : Option Text) :
    (spelled mark part).length =
      (spelled mark (part.filter (· ≠ []))).length + if part = some [] then 1 else 0 := by
  cases part with
  | none => rfl
  | some s => cases s <;> rfl

theorem Reference.tidied_tidied (r : Reference) : r.tidied.tidied = r.tidied := by
  have hfilter : ∀ part : Option Text,
      (part.filter (· ≠ [])).filter (· ≠ []) = part.filter (· ≠ []) := by
    intro part
    refine filter_eq_self fun h => ?_
    simpa using (Option.filter_eq_some_iff.1 h).2
  simp only [Reference.tidied, hfilter]

/-- Nothing is left out just when there is no idle mark. -/
theorem Reference.text_tidied_eq_iff (r : Reference) :
    r.tidied.text = r.text ↔ ¬ r.HasIdleMark := by
  constructor
  · intro h hidle
    -- each idle mark makes the text longer by one than what is tidied
    have hparams := length_spelled ';' r.params
    have hquery := length_spelled '?' r.query
    have hfragment := length_spelled '#' r.fragment
    have hlength := congrArg List.length h
    simp only [Reference.text, Reference.tidied, List.length_append] at hlength
    rcases hidle with hpart | hpart | hpart
    · rw [if_pos hpart] at hparams
      omega
    · rw [if_pos hpart] at hquery
      omega
    · rw [if_pos hpart] at hfragment
      omega
  · intro h
    simp only [Reference.HasIdleMark, not_or] at h
    simp only [Reference.text, Reference.tidied, filter_eq_self h.1, filter_eq_self h.2.1,
      filter_eq_self h.2.2]

end Idle

/-- A reference can stand behind an authority just when it starts with a mark that ends one. -/
theorem Reference.isRooted_iff (r : Reference) :
    r.IsRooted ↔ ∀ c ∈ r.text.head?, c = '/' ∨ c = '?' ∨ c = '#' := by
  rw [Reference.IsRooted, Reference.text]
  cases hpath : r.path with
  | cons c path =>
    obtain ⟨hquestion, hhash⟩ : c ≠ '?' ∧ c ≠ '#' := by
      simpa using (r.path_avoids c (hpath ▸ List.mem_cons_self ..)).1
    simp [hquestion, hhash]
  | nil => cases r.params <;> cases r.query <;> cases r.fragment <;> simp [spelled]

/-- Every text without line breaks and tabs is a reference. -/
theorem exists_reference {s : Text} (h : Avoids [] s) : ∃ r : Reference, r.text = s := by
  obtain ⟨front, fragment, rfl, hfragment⟩ := exists_spelled '#' s
  obtain ⟨front, query, rfl, hquery⟩ := exists_spelled '?' front
  obtain ⟨path, params, rfl, hsegment, hparams⟩ := exists_params front
  obtain ⟨h, hfragment'⟩ := avoids_append.1 h
  obtain ⟨h, hquery'⟩ := avoids_append.1 h
  obtain ⟨hpath', hparams'⟩ := avoids_append.1 h
  simp only [List.mem_append, not_or] at hfragment hquery
  refine ⟨⟨path, params, query, fragment, avoids_of_not_mem hpath' ?_, hsegment,
    avoids_of_not_mem hparams' ?_, avoids_of_not_mem hquery' ?_, hfragment'⟩, rfl⟩
  · simp [hfragment, hquery]
  · simp [hfragment, hquery, hparams]
  · simp [hfragment]

/-! ## Taking links apart -/

/-- The parts of a link with a reference behind its authority. -/
def urlOf (scheme authority : Text) (r : Reference) : Url :=
  ⟨scheme, authority, r.path, r.params.getD [], r.query.getD [], r.fragment.getD []⟩

/-- Checks an authority. -/
def checkAuthority (authority : Text) : Except Fault Unit :=
  checkBrackets authority >>= fun _ => checkConfusable authority

/-- The scheme of a link, or another one if it has none, and what follows it. -/
def schemeAndRest (otherwise s : Text) : Text × Text :=
  (splitScheme (cleaned s)).getD (otherwise, cleaned s)

/-- The authority of a link: what stands behind two slashes, up to the next mark. It is a host,
perhaps with a user and a port. -/
def authorityOf (s : Text) : Text := (splitAuthority (schemeAndRest [] s).2).1

theorem snd_schemeAndRest (otherwise s : Text) :
    (schemeAndRest otherwise s).2 = (schemeAndRest [] s).2 := by
  rw [schemeAndRest, schemeAndRest]
  cases splitScheme (cleaned s) <;> rfl

theorem splitAuthority_cases (s : Text) :
    (∃ rest, s = '/' :: '/' :: rest) ∨ splitAuthority s = ([], s) := by
  unfold splitAuthority
  split
  · next rest => exact .inl ⟨rest, rfl⟩
  · exact .inr rfl

/-- An authority ends where a rooted reference starts. -/
theorem splitAuthority_of_rooted {authority : Text} {r : Reference}
    (hauthority : Avoids ['/', '?', '#'] authority) (hrooted : r.IsRooted) :
    splitAuthority ('/' :: '/' :: (authority ++ r.text)) = (authority, r.text) := by
  show Text.cutAt (fun c => c == '/' || c == '?' || c == '#') (authority ++ r.text) = _
  refine Text.cutAt_append (fun c hc => ?_) fun c hc => ?_
  · simpa [and_assoc] using (hauthority c hc).1
  · simpa [or_assoc] using r.isRooted_iff.1 hrooted c hc

/-- What follows the two slashes is an authority and a rooted reference. -/
theorem exists_authority {s : Text} (h : Avoids [] s) :
    ∃ authority, ∃ r : Reference, s = authority ++ r.text ∧
      Avoids ['/', '?', '#'] authority ∧ r.IsRooted := by
  obtain ⟨authority, behind, rfl, hauthority, hbehind⟩ :=
    Text.exists_cut (fun c => c == '/' || c == '?' || c == '#') s
  obtain ⟨havoids, hreference⟩ := avoids_append.1 h
  obtain ⟨r, rfl⟩ := exists_reference hreference
  refine ⟨authority, r, rfl, fun c hc => ⟨?_, (havoids c hc).2⟩, r.isRooted_iff.2 fun c hc => ?_⟩
  · simpa [and_assoc] using hauthority c hc
  · simpa [or_assoc] using hbehind c hc

/-- What a link is taken apart into, if its authority passes the checks. -/
theorem Url.split_def (otherwise s : Text) :
    Url.split otherwise s =
      let (scheme, rest) := schemeAndRest otherwise s
      let (authority, rest) := splitAuthority rest
      checkAuthority authority >>= fun _ =>
        let (front, fragment) := Text.cutAt (· == '#') rest
        let (path, query) := Text.cutAt (· == '?') front
        let (path, params) :=
          if schemesWithParams.contains scheme then splitParams path else (path, [])
        .ok ⟨scheme, authority, path, params, query.drop 1, fragment.drop 1⟩ := by
  simp only [checkAuthority, bind_assoc]
  rfl

theorem Url.split_eq {otherwise s scheme rest authority : Text} {r : Reference}
    (hscheme : schemeAndRest otherwise s = (scheme, rest))
    (hauthority : splitAuthority rest = (authority, r.text))
    (hparams : schemesWithParams.contains scheme) :
    Url.split otherwise s =
      checkAuthority authority >>= fun _ => .ok (urlOf scheme authority r) := by
  -- the parts are cut off at their marks, none of which stands in a part further in front
  have hfragment : '#' ∉ r.path ++ spelled ';' r.params ++ spelled '?' r.query := by
    simp only [List.mem_append, not_or]
    exact ⟨⟨r.path_avoids.not_mem (by simp), r.params_avoids.not_mem (by simp)⟩,
      r.query_avoids.not_mem (by simp)⟩
  have hquery : '?' ∉ r.path ++ spelled ';' r.params := by
    simp only [List.mem_append, not_or]
    exact ⟨r.path_avoids.not_mem (by simp), r.params_avoids.not_mem (by simp)⟩
  have hslash : '/' ∉ spelled ';' r.params := r.params_avoids.not_mem (by simp)
  rw [Url.split_def, hscheme]
  simp only
  rw [hauthority]
  simp only [Reference.text]
  rw [cutAt_spelled hfragment]
  simp only
  rw [cutAt_spelled hquery]
  simp only
  rw [if_pos hparams, splitParams_spelled r.segment_plain hslash]
  simp only [drop_spelled]
  rfl

/-! ## Putting links together -/

/-- The path of a link with an authority is rooted, or a slash is put in front of it. -/
theorem Url.location_of_rooted {u : Url} (hauthority : u.authority ≠ [])
    (hrooted : u.path.head? = some '/' ∨ u.path = [] ∧ u.params = []) :
    u.location = "//".toList ++ u.authority ++ (u.path ++ marked ';' u.params) := by
  have hshown : u.authority.isEmpty = false := by simpa using hauthority
  have hstart : ((u.path ++ marked ';' u.params).isEmpty ||
      (u.path ++ marked ';' u.params).head? == some '/') = true := by
    rcases hrooted with hslash | ⟨hpath, hparams⟩
    · rw [List.head?_append, hslash]
      simp
    · rw [hpath, hparams]
      rfl
  simp only [Url.location, hshown, hstart, Bool.not_false, Bool.true_or, if_true]

theorem Url.text_of_relative {u : Url} (hauthority : u.authority ≠ []) (hpath : u.path ≠ [])
    (hslash : u.path.head? ≠ some '/') : u.text = { u with path := '/' :: u.path }.text := by
  have hshown : u.authority.isEmpty = false := by simpa using hauthority
  obtain ⟨c, path, hcons⟩ := List.exists_cons_of_ne_nil hpath
  have hc : (some c == some '/') = false := by simpa [hcons] using hslash
  simp only [Url.text, Url.location, hshown, hcons, List.cons_append, List.isEmpty_cons,
    List.head?_cons, hc, beq_self_eq_true, Bool.or_false, Bool.false_or, Bool.not_false,
    Bool.true_or, Bool.false_eq_true, if_true, if_false]

/-- Where a link is put together from its parts, idle marks are left out. -/
theorem text_urlOf {scheme authority : Text} {r : Reference} (hscheme : scheme ≠ [])
    (hauthority : authority ≠ []) (hrooted : r.IsRooted) :
    (urlOf scheme authority r).text =
      scheme ++ "://".toList ++ authority ++ r.tidied.text := by
  have hlocation : (urlOf scheme authority r).location = "//".toList ++ authority ++
      (r.path ++ marked ';' (r.params.getD [])) := by
    refine Url.location_of_rooted hauthority (hrooted.imp_right fun ⟨hpath, hparams⟩ => ⟨hpath, ?_⟩)
    show r.params.getD [] = []
    rw [hparams]
    rfl
  have hcolon : "://".toList = [':'] ++ "//".toList := rfl
  have hshown : (urlOf scheme authority r).scheme.isEmpty = false := by
    show scheme.isEmpty = false
    simpa using hscheme
  rw [Url.text, hlocation, hshown, hcolon]
  show scheme ++ [':'] ++ _ ++ marked '?' (r.query.getD []) ++ marked '#' (r.fragment.getD []) = _
  simp only [marked_getD, Reference.text, Reference.tidied, List.append_assoc]

end Link

end Headline
