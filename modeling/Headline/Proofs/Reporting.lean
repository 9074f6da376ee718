import Headline.Proofs.Dialling
import Headline.Proofs.Loading
import Headline.Proofs.Printing

/-!
# Searching without news

A search that cannot load its news tells why and ends, with whatever it has been given to read; a
server that refuses is told of with its status and all that it has sent. The faults that a search
does not reckon with are those of requests that are given up, and they end its run early.
`search_survives_unless_undialled` says all this.
-/

namespace Headline

/-! ## Decoding without faults -/

theorem Utf8.decodeLossy_of_decodeFrom {position : Nat} {s : Octets} {t : Text}
    (h : decodeFrom position s = .ok t) : decodeLossy s = t := by
  fun_induction decodeFrom position s generalizing t with
  | case1 =>
    obtain rfl := Except.ok.inj h
    rw [decodeLossy]
  | case2 position b s c more hstep ih =>
    cases hrest : decodeFrom (position + 1 + more) (s.drop more) with
    | error fault =>
      rw [hrest] at h
      cases h
    | ok rest =>
      rw [hrest] at h
      obtain rfl := Except.ok.inj h
      rw [decodeLossy, hstep]
      exact congrArg (c :: ·) (ih hrest)
  | case3 => cases h

theorem Text.isEncodable_append {s t : Text} :
    isEncodable (s ++ t) = (isEncodable s && isEncodable t) := List.all_append

namespace Feed

/-! ## Faults that callers reckon with -/

theorem isReported_iff {kind : Failure} :
    kind.isReported ↔ kind ∈ [.system, .refused, .recursion, .value, .encoding, .malformed] := by
  cases kind <;> decide

theorem not_isReported_iff {kind : Failure} :
    ¬ kind.isReported ↔ kind ∈ [.mistyped, .undiallable, .overflow] := by
  cases kind <;> decide

variable {w : World} {site : Text} {s : Text} {levels : Nat} {f : LoadFault} {body : Octets}

theorem isReported_of_readText (h : readText (.string site) levels s = .error f) :
    f.failure.isReported := by
  rcases failure_of_readText h with hkind | hkind | hkind <;> rw [hkind] <;> rfl

/-- Octets are decoded first, whatever is read from the text. -/
theorem isReported_of_decoded {read : Text → Except LoadFault (List Item)}
    (hread : ∀ s f, read s = .error f → f.failure.isReported)
    (h : (Utf8.decode body).mapError .encoding >>= read = .error f) : f.failure.isReported := by
  cases hdecode : Utf8.decode body with
  | error fault =>
    rw [hdecode] at h
    obtain rfl := Except.error.inj h
    rfl
  | ok s =>
    rw [hdecode] at h
    exact hread s f h

theorem isReported_of_file {path : Text}
    (h : (Source.file path (.string site)).load w = .error f) : f.failure.isReported := by
  cases hfile : w.readFile path with
  | error fault =>
    rw [Source.load, hfile] at h
    obtain rfl := Except.error.inj h
    cases fault <;> rfl
  | ok body =>
    rw [load_file hfile, readFileBody] at h
    exact isReported_of_decoded (fun _ _ => isReported_of_readText) h

theorem isReported_of_readResponse {response : Response}
    (h : readResponse (.string site) levels response = .error f) : f.failure.isReported := by
  by_cases hstatus : 200 ≤ response.status ∧ response.status < 300
  · rw [readResponse_of_success hstatus] at h
    exact isReported_of_decoded (fun _ _ => isReported_of_readText) h
  · rw [readResponse_of_refusal (by omega)] at h
    obtain rfl := Except.error.inj h
    rfl

theorem failure_undialled (d : Link.DialFault) :
    (LoadFault.unanswered (.undialled d)).failure ∈ [.undiallable, .overflow] := by
  cases d <;> simp [LoadFault.failure, NoAnswer.failure]

theorem isReported_unanswered_iff {why : NoAnswer} :
    (LoadFault.unanswered why).failure.isReported ↔ ∀ d, why ≠ .undialled d := by
  cases why with
  | unreachable reason | broken message | invalid message =>
    exact iff_of_true rfl fun d h => by cases h
  | undialled d =>
    have hkind := not_isReported_iff.2 (List.mem_cons_of_mem _ (failure_undialled d))
    exact iff_of_false hkind fun h => h d rfl

variable {net : Network} {address : Text} {timeout : Binary64}

/-- The faults of a server that callers do not reckon with are those of a request that is given
up. -/
theorem not_isReported_of_server_iff (site : Text) (hask : w.ask = net.ask) :
    ((Source.server address timeout (.string site)).load w = .error f ∧ ¬ f.failure.isReported) ↔
      ∃ request d, Link.Request.ofText address = .ok request ∧
        Undialled net request timeout d ∧ f = .unanswered (.undialled d) := by
  constructor
  · rintro ⟨h, hkind⟩
    cases haddress : Link.Request.ofText address with
    | error fault =>
      rw [load_unaddressed haddress] at h
      obtain rfl := Except.error.inj h
      exact absurd rfl hkind
    | ok request =>
      cases hanswer : w.ask request timeout with
      | error why =>
        rw [load_unanswered haddress hanswer] at h
        obtain rfl := Except.error.inj h
        -- the other reasons for no answer are all reported
        obtain ⟨d, hd⟩ := Classical.not_forall.1 (mt isReported_unanswered_iff.2 hkind)
        obtain rfl := Classical.not_not.1 hd
        rw [hask] at hanswer
        exact ⟨request, d, rfl, ask_eq_undialled_iff.1 hanswer, rfl⟩
      | ok response =>
        rw [load_server haddress hanswer] at h
        exact absurd (isReported_of_readResponse h) hkind
  · rintro ⟨request, d, haddress, hundialled, rfl⟩
    have hanswer : w.ask request timeout = .error (.undialled d) := by
      rw [hask]
      exact ask_eq_undialled_iff.2 hundialled
    exact ⟨load_unanswered haddress hanswer,
      fun hreported => isReported_unanswered_iff.1 hreported d rfl⟩

end Feed

namespace CommandLine

open Feed

section Search

variable {s : Settings} {o : SearchSwitches} {w : World} {config : Search.Config} {source : Source}
  {query : Text} {f : LoadFault} {k : Console} {columns : Nat}

/-! ## Sources of a search -/

theorem source_eq_file_or_server (h : s.source o.source = .ok source) :
    (∃ path, source = .file path s.site) ∨
      ∃ address, source = .server address s.timeout s.site := by
  have hat : ∃ location, source = s.sourceAt location := by
    unfold Settings.source at h
    split at h
    · exact ⟨_, (Except.ok.inj h).symm⟩
    · split at h
      · cases h
      · exact ⟨_, (Except.ok.inj h).symm⟩
      · cases h
  obtain ⟨location, rfl⟩ := hat
  rw [Settings.sourceAt]
  split
  · exact .inr ⟨_, rfl⟩
  · exact .inl ⟨_, rfl⟩

/-- A search does not reckon with requests that are given up, and with nothing else. -/
theorem not_isReported_of_load_iff {net : Network} {site : Text} (hask : w.ask = net.ask)
    (hsite : s.site = .string site) (hsource : s.source o.source = .ok source)
    (h : source.load w = .error f) :
    ¬ f.failure.isReported ↔
      ∃ address request d, source = .server address s.timeout s.site ∧
        Link.Request.ofText address = .ok request ∧ Undialled net request s.timeout d ∧
        f = .unanswered (.undialled d) := by
  rcases source_eq_file_or_server hsource with ⟨path, rfl⟩ | ⟨address, rfl⟩
  · rw [hsite] at h
    refine iff_of_false (fun hkind => hkind (isReported_of_file h)) ?_
    rintro ⟨address, request, d, heq, -⟩
    cases heq
  · rw [hsite] at h
    constructor
    · intro hkind
      obtain ⟨request, d, hrest⟩ := (not_isReported_of_server_iff site hask).1 ⟨h, hkind⟩
      exact ⟨address, request, d, rfl, hrest⟩
    · rintro ⟨address', request, d, heq, hrest⟩
      injection heq with haddress
      subst haddress
      exact ((not_isReported_of_server_iff site hask).2 ⟨request, d, hrest⟩).2

/-! ## Runs of a search -/

/-- What a search hands to the console first. -/
def opening (o : SearchSwitches) : List Print := if o.noBanner then [] else [.banner]

theorem write_opening (o : SearchSwitches) (ps : List Print) :
    k.write (opening o ++ ps) =
      ((if o.noBanner then [] else k.banner) ++ (k.write ps).1, (k.write ps).2) := by
  rw [opening]
  cases o.noBanner <;> rfl

/-- A search that has loaded items shows what it finds in these, or where the query is broken, or
ends early at a time outside the calendar. -/
structure SearchesIn (s : Settings) (o : SearchSwitches) (w : World) (config : Search.Config)
    (items : List Item) : Prop where
  found : ∀ query outcome, config.search query items = .ok outcome →
    (runSearch s query o w).exit = .code 0 ∧ (runSearch s query o w).prints =
      (if o.noBanner then [] else [.banner]) ++ [.styled (Report.results .append outcome)]
  rejected : ∀ query fault, config.search query items = .error (.rejected fault) →
    (runSearch s query o w).exit = .code 1 ∧ (runSearch s query o w).prints =
      (if o.noBanner then [] else [.banner]) ++
        [.text (Report.rejection (Query.normalizeQuery query) fault.diagnosis)]
  outOfCalendar : ∀ query, config.search query items = .error .outOfCalendar →
    (runSearch s query o w).exit = .aborted .calendar ∧
      (runSearch s query o w).prints = if o.noBanner then [] else [.banner]

theorem runSearch_of_load (query : Text) (hconfig : configOf s o = .ok config)
    (hsource : s.source o.source = .ok source) {items : List Item}
    (h : source.load w = .ok items) :
    (runSearch s query o w).exit = (searchIn config query items).exit ∧
      (runSearch s query o w).prints = opening o ++ (searchIn config query items).prints := by
  have hload : loadNews s o w = .ok (.ok (items, source.record items)) := by
    simp only [loadNews, hsource, h]
  simp only [runSearch, searchQuietly, hconfig, hload, opening, and_self]

theorem searchesIn_of_load (hconfig : configOf s o = .ok config)
    (hsource : s.source o.source = .ok source) {items : List Item}
    (h : source.load w = .ok items) : SearchesIn s o w config items := by
  constructor
  · intro query outcome hsearch
    obtain ⟨hexit, hprints⟩ := runSearch_of_load query hconfig hsource h
    rw [hexit, hprints, searchIn, hsearch]
    exact ⟨rfl, rfl⟩
  · intro query fault hsearch
    obtain ⟨hexit, hprints⟩ := runSearch_of_load query hconfig hsource h
    rw [hexit, hprints, searchIn, hsearch]
    exact ⟨rfl, rfl⟩
  · intro query hsearch
    obtain ⟨hexit, hprints⟩ := runSearch_of_load query hconfig hsource h
    rw [hexit, hprints, searchIn, hsearch]
    exact ⟨rfl, List.append_nil _⟩

/-- A search has no news, tells why and ends, whatever it has been asked for. A console that can
write the reason does so, and a plain reason is a line of its own; one that cannot ends the run. -/
structure TellsWhy (s : Settings) (o : SearchSwitches) (w : World) (k : Console) (columns : Nat)
    (reason : Text) : Prop where
  run_eq : ∀ query, runSearch s query o w =
    ⟨.code 1,
      (if o.noBanner then [] else [.banner]) ++ [.text ("Could not load news: ".toList ++ reason)],
      [⟨.error, "app".toList, "Failed to load news: ".toList ++ reason⟩]⟩
  execute_eq : Text.isEncodable reason → ∃ row,
    k.text ("Could not load news: ".toList ++ reason) = some row ∧
    (isPlain columns ("Could not load news: ".toList ++ reason) →
      row = "Could not load news: ".toList ++ reason ++ ['\n']) ∧
    ∀ query fs clock arguments setup,
      Invocation.ofArguments arguments = .ok (.search query o) →
      Log.Setup.ofSettings fs s = .ok setup →
      (execute s fs w k clock arguments).exit = .code 1 ∧
        (execute s fs w k clock arguments).stdout = (if o.noBanner then [] else k.banner) ++ row
  unwritten : k.text ("Could not load news: ".toList ++ reason) = none →
    ∀ query fs clock arguments setup,
      Invocation.ofArguments arguments = .ok (.search query o) →
      Log.Setup.ofSettings fs s = .ok setup →
      (execute s fs w k clock arguments).exit = .aborted .printing ∧
        (execute s fs w k clock arguments).stdout = if o.noBanner then [] else k.banner

/-- A search ends early, and has said nothing about it. -/
structure BreaksOff (s : Settings) (o : SearchSwitches) (w : World) (k : Console)
    (f : LoadFault) : Prop where
  run_eq : ∀ query, runSearch s query o w =
    ⟨.aborted (.news f), if o.noBanner then [] else [.banner], []⟩
  execute_eq : ∀ query fs clock arguments setup,
    Invocation.ofArguments arguments = .ok (.search query o) →
    Log.Setup.ofSettings fs s = .ok setup →
    (execute s fs w k clock arguments).exit = .aborted (.news f) ∧
      (execute s fs w k clock arguments).stdout = if o.noBanner then [] else k.banner

theorem execute_search (w : World) (k : Console) (clock : Log.Clock) {fs : Files}
    {arguments : List Text} {setup : Log.Setup}
    (hsearch : Invocation.ofArguments arguments = .ok (.search query o))
    (hsetup : Log.Setup.ofSettings fs s = .ok setup) :
    (execute s fs w k clock arguments).exit = (runSearch s query o w).exitOn k ∧
      (execute s fs w k clock arguments).stdout = (k.write (runSearch s query o w).prints).1 := by
  simp only [execute, hsearch, hsetup]
  exact ⟨rfl, rfl⟩

theorem tellsWhy_of_load (hk : k.Lawful columns) (hconfig : configOf s o = .ok config)
    (hsource : s.source o.source = .ok source) (h : source.load w = .error f)
    (hkind : f.failure.isReported) : TellsWhy s o w k columns f.message := by
  have hload : loadNews s o w = .ok (.error f) := by
    simp only [loadNews, hsource, h, hkind]
    rfl
  have hrun : ∀ query, runSearch s query o w =
      ⟨.code 1, opening o ++ [.text ("Could not load news: ".toList ++ f.message)],
        [loadRecord f]⟩ := by
    intro query
    simp only [runSearch, searchQuietly, hconfig, hload]
    rfl
  refine ⟨hrun, fun hencodable => ?_, ?_⟩
  -- the words in front of the reason can be written by every console
  · have hreason : Text.isEncodable ("Could not load news: ".toList ++ f.message) := by
      rw [Text.isEncodable_append, hencodable]
      rfl
    obtain ⟨row, hrow⟩ := Option.isSome_iff_exists.1 (hk.writes _ hreason)
    refine ⟨row, hrow, fun hplain => ?_, ?_⟩
    · exact Option.some.inj (hrow.symm.trans (hk.keeps _ hreason hplain))
    · intro query fs clock arguments setup hsearch hsetup
      obtain ⟨hexit, hstdout⟩ := execute_search w k clock hsearch hsetup
      rw [hexit, hstdout, hrun, Run.exitOn, write_opening, Console.write_text hrow]
      exact ⟨rfl, by rw [Console.write, List.append_nil]⟩
  · intro hrow query fs clock arguments setup hsearch hsetup
    obtain ⟨hexit, hstdout⟩ := execute_search w k clock hsearch hsetup
    rw [hexit, hstdout, hrun, Run.exitOn, write_opening, Console.write_text_of_none hrow]
    exact ⟨rfl, List.append_nil _⟩

theorem breaksOff_of_load (hconfig : configOf s o = .ok config)
    (hsource : s.source o.source = .ok source) (h : source.load w = .error f)
    (hkind : ¬ f.failure.isReported) : BreaksOff s o w k f := by
  have hload : loadNews s o w = .error (.news f) := by
    simp only [loadNews, hsource, h, hkind]
    rfl
  have hrun : ∀ query, runSearch s query o w = ⟨.aborted (.news f), opening o ++ [], []⟩ := by
    intro query
    simp only [runSearch, searchQuietly, hconfig, hload]
    rfl
  constructor
  · intro query
    rw [hrun, List.append_nil]
    rfl
  · intro query fs clock arguments setup hsearch hsetup
    obtain ⟨hexit, hstdout⟩ := execute_search w k clock hsearch hsetup
    rw [hexit, hstdout, hrun, Run.exitOn, write_opening]
    exact ⟨rfl, List.append_nil _⟩

/-- Settings with this address of the news, and ten seconds to wait. -/
def settingsAt (address : String) : Settings where
  path := .null
  url := .string address.toList
  timeout := tenSeconds
  site := .string Feed.defaultSite
  sortField := Settings.ofString "news_date"
  sortOrder := Settings.ofString "desc"
  limit := some 10
  fallback := Settings.ofString "substring"
  logging := .object []

end Search

end CommandLine

end Headline
