import Headline.Link.Destination
import Headline.Proofs.References

/-!
# Where requests go

An authority ends in a port if a colon stands behind all of its brackets, and what it names in front
of that is the host, without the brackets around it (`PortIs`, `HostIs`). Port, host and path are
checked in this order, and `Destination.check_eq_ok_iff` and `Destination.check_eq_error_iff` say
what the check finds. `headFault?_eq_none_iff` says which messages can be written then.
-/

namespace Headline

namespace Link

/-! ## Ports -/

theorem afterLast_append_cons (c : Char) (s : Text) {t : Text} (h : c ∉ t) :
    afterLast c (s ++ c :: t) = t := by
  have hsplit : s ++ c :: t = (s ++ [c]) ++ t := by simp
  rw [hsplit, afterLast_append _ h, afterLast_concat, List.nil_append]

theorem exists_front_of_mem {c : Char} {s : Text} (h : c ∈ s) :
    ∃ front, s = front ++ c :: afterLast c s := by
  obtain ⟨behind, front, hs, hc⟩ := List.eq_append_cons_of_mem (List.mem_reverse.2 h)
  have heq : s = front.reverse ++ c :: behind.reverse := by
    rw [← List.reverse_reverse s, hs]
    simp
  refine ⟨front.reverse, ?_⟩
  rw [heq, afterLast_append_cons c _ (by simpa using hc)]

/-- An authority ends in a port: what stands behind its last colon, and behind all brackets. -/
def HasPort (authority host port : Text) : Prop :=
  authority = host ++ ':' :: port ∧ ':' ∉ port ∧ ']' ∉ port

/-- The number of the port that an authority names, if it names one. -/
inductive PortIs (authority : Text) : Option Int → Prop
  | left : (∀ host port, HasPort authority host port → port = []) → PortIs authority none
  | named {host port : Text} {n : Int} : HasPort authority host port → port ≠ [] →
    readInteger port = .ok n → PortIs authority (some n)

variable {d : Destination}

theorem portText?_eq_some_iff {port : Text} :
    d.portText? = some port ↔ ∃ host, HasPort d.authority host port := by
  simp only [Destination.portText?]
  constructor
  · intro h
    split at h
    · next hport =>
      obtain rfl := Option.some.inj h
      obtain ⟨host, hhost⟩ := exists_front_of_mem hport.1
      exact ⟨host, hhost, not_mem_afterLast _ _, hport.2⟩
    · cases h
  · rintro ⟨host, heq, hcolon, hbracket⟩
    have hmem : ':' ∈ d.authority := by
      rw [heq]
      simp
    have hlast : afterLast ':' d.authority = port := by rw [heq, afterLast_append_cons _ _ hcolon]
    rw [hlast, if_pos ⟨hmem, hbracket⟩]

theorem portIs_none (h : ∀ c cs, d.portText? ≠ some (c :: cs)) :
    d.port? = .ok none ∧ ∀ n, PortIs d.authority n ↔ n = none := by
  constructor
  · rw [Destination.port?]
    split
    · rfl
    · rfl
    · next port hne hport =>
      obtain ⟨c, cs, rfl⟩ := List.exists_cons_of_ne_nil hne
      exact absurd hport (h c cs)
  · have hleft : ∀ host port, HasPort d.authority host port → port = [] := by
      intro host port hport
      cases port with
      | nil => rfl
      | cons c cs => exact absurd (portText?_eq_some_iff.2 ⟨host, hport⟩) (h c cs)
    intro n
    constructor
    · rintro (- | ⟨hport, hne, -⟩)
      · rfl
      · exact absurd (hleft _ _ hport) hne
    · rintro rfl
      exact .left hleft

theorem port?_of_integer {text : Text} {n : Int} (h : d.portText? = some text) (hne : text ≠ [])
    (hread : readInteger text = .ok n) : d.port? = .ok (some n) := by
  obtain ⟨c, cs, rfl⟩ := List.exists_cons_of_ne_nil hne
  simp only [Destination.port?, h, hread]

theorem port?_of_no_integer {text : Text} {fault : LiteralFault} (h : d.portText? = some text)
    (hne : text ≠ []) (hread : readInteger text = .error fault) :
    d.port? = .error (.port text) := by
  obtain ⟨c, cs, rfl⟩ := List.exists_cons_of_ne_nil hne
  simp only [Destination.port?, h, hread]

/-- One colon is the last of all, so one port is written. -/
theorem eq_of_hasPort {host text port : Text} (h : d.portText? = some text)
    (hport : HasPort d.authority host port) : port = text :=
  Option.some.inj ((portText?_eq_some_iff.2 ⟨host, hport⟩).symm.trans h)

theorem port_written_or_not (d : Destination) :
    (∃ host text, d.portText? = some text ∧ HasPort d.authority host text ∧ text ≠ []) ∨
      ∀ c cs, d.portText? ≠ some (c :: cs) := by
  by_cases hport : ∃ c cs, d.portText? = some (c :: cs)
  · obtain ⟨c, cs, hport⟩ := hport
    obtain ⟨host, hhas⟩ := portText?_eq_some_iff.1 hport
    exact .inl ⟨host, _, hport, hhas, List.cons_ne_nil c cs⟩
  · exact .inr fun c cs h => hport ⟨c, cs, h⟩

theorem port?_eq_ok_iff {n : Option Int} : d.port? = .ok n ↔ PortIs d.authority n := by
  rcases port_written_or_not d with ⟨host, text, hport, hhas, hne⟩ | hnone
  · cases hread : readInteger text with
    | ok m =>
      rw [port?_of_integer hport hne hread, Except.ok.injEq]
      constructor
      · rintro rfl
        exact .named hhas hne hread
      · rintro (hleft | ⟨h, -, hread'⟩)
        · exact absurd (hleft _ _ hhas) hne
        · rw [eq_of_hasPort hport h, hread] at hread'
          rw [Except.ok.inj hread']
    | error fault =>
      rw [port?_of_no_integer hport hne hread]
      refine ⟨fun h => (by cases h), ?_⟩
      rintro (hleft | ⟨h, -, hread'⟩)
      · exact absurd (hleft _ _ hhas) hne
      · rw [eq_of_hasPort hport h, hread] at hread'
        cases hread'
  -- no port is written, or an empty one
  · obtain ⟨hok, hiff⟩ := portIs_none hnone
    rw [hok, hiff, Except.ok.injEq, eq_comm]

theorem port?_eq_error_iff {f : DialFault} :
    d.port? = .error f ↔ ∃ host port, HasPort d.authority host port ∧ port ≠ [] ∧
      (∀ n, readInteger port ≠ .ok n) ∧ f = .port port := by
  rcases port_written_or_not d with ⟨host, text, hport, hhas, hne⟩ | hnone
  · cases hread : readInteger text with
    | ok m =>
      rw [port?_of_integer hport hne hread]
      refine ⟨fun h => (by cases h), ?_⟩
      rintro ⟨host', port', h, -, hnone, -⟩
      rw [eq_of_hasPort hport h] at hnone
      exact absurd hread (hnone m)
    | error fault =>
      have hnone : ∀ n, readInteger text ≠ .ok n := by
        intro n hn
        rw [hread] at hn
        cases hn
      rw [port?_of_no_integer hport hne hread, Except.error.injEq]
      constructor
      · rintro rfl
        exact ⟨host, _, hhas, hne, hnone, rfl⟩
      · rintro ⟨host', port', h, -, -, rfl⟩
        rw [eq_of_hasPort hport h]
  · rw [(portIs_none hnone).1]
    refine ⟨fun h => (by cases h), ?_⟩
    rintro ⟨host, port, h, hne, -⟩
    obtain ⟨c, cs, rfl⟩ := List.exists_cons_of_ne_nil hne
    exact absurd (portText?_eq_some_iff.2 ⟨host, h⟩) (hnone c cs)

/-! ## Parts -/

/-- A blank or a control character of ASCII. -/
def Forbidden (c : Char) : Prop := c.toNat ≤ 0x20 ∨ c.toNat = 0x7F

/-- The first such character of a part. -/
def FirstForbidden (part : Text) (c : Char) : Prop :=
  ∃ before behind, part = before ++ c :: behind ∧ Forbidden c ∧ ∀ b ∈ before, ¬ Forbidden b

theorem isForbidden_iff {c : Char} : Destination.isForbidden c = true ↔ Forbidden c := by
  simp [Destination.isForbidden, Forbidden]

theorem find?_isForbidden_eq_some_iff {part : Text} {c : Char} :
    part.find? Destination.isForbidden = some c ↔ FirstForbidden part c := by
  rw [List.find?_eq_some_iff_append]
  constructor
  · rintro ⟨hc, before, behind, rfl, hbefore⟩
    refine ⟨before, behind, rfl, isForbidden_iff.1 hc, fun b hb h => ?_⟩
    simpa [isForbidden_iff.2 h] using hbefore b hb
  · rintro ⟨before, behind, rfl, hc, hbefore⟩
    refine ⟨isForbidden_iff.2 hc, before, behind, rfl, fun b hb => ?_⟩
    rw [Bool.not_eq_true', ← Bool.not_eq_true, isForbidden_iff]
    exact hbefore b hb

theorem checkPart_eq_ok_iff {part : Text} :
    Destination.checkPart part = .ok () ↔ ∀ c ∈ part, ¬ Forbidden c := by
  rw [Destination.checkPart]
  cases hfind : part.find? Destination.isForbidden with
  | none =>
    refine iff_of_true rfl fun c hc hforbidden => ?_
    have hnot := List.find?_eq_none.1 hfind c hc
    exact hnot (isForbidden_iff.2 hforbidden)
  | some c =>
    refine ⟨fun h => (by cases h), fun h => ?_⟩
    have hc := isForbidden_iff.1 (by simpa using List.find?_some hfind)
    exact absurd hc (h c (List.mem_of_find?_eq_some hfind))

theorem checkPart_eq_error_iff {part : Text} {f : DialFault} :
    Destination.checkPart part = .error f ↔
      ∃ c, FirstForbidden part c ∧ f = .controlCharacter part c := by
  simp only [Destination.checkPart, ← find?_isForbidden_eq_some_iff]
  cases part.find? Destination.isForbidden with
  | none => simp
  | some c => simp [eq_comm]

/-! ## Hosts -/

/-- What an authority names in front of its port, or all of it, if it has none. -/
def Names (authority name : Text) : Prop :=
  (∃ port, HasPort authority name port) ∨ (∀ host port, ¬ HasPort authority host port) ∧
    name = authority

/-- The host of an authority: what it names, without the brackets around it. -/
inductive HostIs (authority : Text) : Text → Prop
  | bracketed {host : Text} : Names authority ('[' :: host ++ [']']) → HostIs authority host
  | plain {host : Text} : Names authority host → (∀ inner, host ≠ '[' :: inner ++ [']']) →
    HostIs authority host

theorem exists_names (d : Destination) : ∃ name, Names d.authority name ∧
    (∀ name', Names d.authority name' → name' = name) ∧
    d.host = if name.head? = some '[' ∧ name.getLast? = some ']' then (name.drop 1).dropLast
      else name := by
  cases h : d.portText? with
  | some port =>
    obtain ⟨host, hport⟩ := portText?_eq_some_iff.1 h
    refine ⟨host, .inl ⟨port, hport⟩, ?_, ?_⟩
    · rintro name (⟨port', hname⟩ | ⟨hnone, -⟩)
      · obtain rfl := eq_of_hasPort h hname
        exact List.append_cancel_right (hname.1.symm.trans hport.1)
      · exact absurd hport (hnone _ _)
    · have htake : d.authority.take (d.authority.length - port.length - 1) = host := by
        have hlength : d.authority.length - port.length - 1 = host.length := by
          rw [hport.1, List.length_append, List.length_cons]
          omega
        rw [hlength, hport.1, List.take_left]
      simp only [Destination.host, h, htake]
  | none =>
    have hnone : ∀ host port, ¬ HasPort d.authority host port := by
      intro host port hport
      rw [portText?_eq_some_iff.2 ⟨host, hport⟩] at h
      cases h
    refine ⟨d.authority, .inr ⟨hnone, rfl⟩, ?_, ?_⟩
    · rintro name (⟨port, hname⟩ | ⟨-, rfl⟩)
      · exact absurd hname (hnone _ _)
      · rfl
    · simp only [Destination.host, h]

theorem bracketed_iff {name : Text} :
    (name.head? = some '[' ∧ name.getLast? = some ']') ↔ ∃ inner, name = '[' :: inner ++ [']'] := by
  constructor
  · rintro ⟨hhead, hlast⟩
    obtain ⟨rest, rfl⟩ := List.head?_eq_some_iff.1 hhead
    rcases List.eq_nil_or_concat rest with rfl | ⟨inner, c, rfl⟩
    · cases hlast
    · rw [List.concat_eq_append, ← List.cons_append] at hlast ⊢
      rw [List.getLast?_concat] at hlast
      obtain rfl := Option.some.inj hlast
      exact ⟨inner, rfl⟩
  · rintro ⟨inner, rfl⟩
    exact ⟨rfl, List.getLast?_concat ..⟩

theorem hostIs_iff {host : Text} : HostIs d.authority host ↔ host = d.host := by
  obtain ⟨name, hname, hunique, hhost⟩ := exists_names d
  rw [hhost]
  by_cases hbracketed : ∃ inner, name = '[' :: inner ++ [']']
  · rw [if_pos (bracketed_iff.2 hbracketed)]
    obtain ⟨inner, rfl⟩ := hbracketed
    have hinner : (('[' :: inner ++ [']']).drop 1).dropLast = inner := List.dropLast_concat
    rw [hinner]
    constructor
    · rintro (h | ⟨h, hplain⟩)
      · exact List.append_cancel_right (List.tail_eq_of_cons_eq (hunique _ h))
      · exact absurd (hunique _ h) (hplain inner)
    · rintro rfl
      exact .bracketed hname
  · rw [if_neg (mt bracketed_iff.1 hbracketed)]
    constructor
    · rintro (h | ⟨h, -⟩)
      · exact absurd ⟨_, (hunique _ h).symm⟩ hbracketed
      · exact hunique _ h
    · rintro rfl
      exact .plain hname fun inner h => hbracketed ⟨inner, h⟩

/-! ## Destinations -/

/-- Nothing is wrong with where a request goes, and this is its port. -/
structure Destination.Sound (d : Destination) (port : Option Int) : Prop where
  port : PortIs d.authority port
  host : ∀ host, HostIs d.authority host → ∀ c ∈ host, ¬ Forbidden c
  path : ∀ c ∈ d.path, ¬ Forbidden c

/-- What is wrong first with where a request goes: the port, the host or the path. -/
inductive Destination.Flawed (d : Destination) : DialFault → Prop
  | port {host port : Text} : HasPort d.authority host port → port ≠ [] →
    (∀ n, readInteger port ≠ .ok n) → Flawed d (.port port)
  | host {n : Option Int} {host : Text} {c : Char} : PortIs d.authority n →
    HostIs d.authority host → FirstForbidden host c → Flawed d (.controlCharacter host c)
  | path {n : Option Int} {c : Char} : PortIs d.authority n →
    (∀ host, HostIs d.authority host → ∀ b ∈ host, ¬ Forbidden b) → FirstForbidden d.path c →
    Flawed d (.controlCharacter d.path c)

theorem checkPart_host_eq_ok_iff : Destination.checkPart d.host = .ok () ↔
    ∀ host, HostIs d.authority host → ∀ c ∈ host, ¬ Forbidden c := by
  rw [checkPart_eq_ok_iff]
  constructor
  · intro h host hhost
    rwa [hostIs_iff.1 hhost]
  · intro h
    exact h _ (hostIs_iff.2 rfl)

theorem checkPart_host_eq_error_iff {f : DialFault} : Destination.checkPart d.host = .error f ↔
    ∃ host c, HostIs d.authority host ∧ FirstForbidden host c ∧ f = .controlCharacter host c := by
  rw [checkPart_eq_error_iff]
  constructor
  · rintro ⟨c, hc, hf⟩
    exact ⟨_, c, hostIs_iff.2 rfl, hc, hf⟩
  · rintro ⟨host, c, hhost, hc, hf⟩
    rw [hostIs_iff.1 hhost] at hc hf
    exact ⟨c, hc, hf⟩

theorem Destination.check_eq_ok_iff {n : Option Int} :
    d.check = .ok n ↔ d.Sound n := by
  rw [check]
  constructor
  · intro h
    obtain ⟨m, hport, h⟩ := exists_of_bind_eq_ok h
    obtain ⟨u, hhost, h⟩ := exists_of_bind_eq_ok h
    obtain ⟨v, hpath, h⟩ := exists_of_bind_eq_ok h
    obtain rfl := Except.ok.inj h
    exact ⟨port?_eq_ok_iff.1 hport, checkPart_host_eq_ok_iff.1 hhost,
      checkPart_eq_ok_iff.1 hpath⟩
  · rintro ⟨hport, hhost, hpath⟩
    rw [port?_eq_ok_iff.2 hport, checkPart_host_eq_ok_iff.2 hhost, checkPart_eq_ok_iff.2 hpath]
    rfl

theorem Destination.check_eq_error_iff {f : DialFault} :
    d.check = .error f ↔ d.Flawed f := by
  rw [check]
  constructor
  · intro h
    cases hport : d.port? with
    | error f' =>
      rw [hport] at h
      obtain rfl := Except.error.inj h
      obtain ⟨host, port, hhas, hne, hread, rfl⟩ := port?_eq_error_iff.1 hport
      exact .port hhas hne hread
    | ok n =>
      rw [hport] at h
      have hport := port?_eq_ok_iff.1 hport
      -- the parts are looked at once the port has been read, the host before the path
      cases hhost : checkPart d.host with
      | error f' =>
        rw [hhost] at h
        obtain rfl := Except.error.inj h
        obtain ⟨host, c, hnamed, hc, rfl⟩ := checkPart_host_eq_error_iff.1 hhost
        exact .host hport hnamed hc
      | ok u =>
        rw [hhost] at h
        cases hpath : checkPart d.path with
        | error f' =>
          rw [hpath] at h
          obtain rfl := Except.error.inj h
          obtain ⟨c, hc, rfl⟩ := checkPart_eq_error_iff.1 hpath
          exact .path hport (checkPart_host_eq_ok_iff.1 hhost) hc
        | ok v =>
          rw [hpath] at h
          cases h
  · rintro (⟨hhas, hne, hread⟩ | ⟨hport, hhost, hc⟩ | ⟨hport, hhost, hc⟩)
    · rw [port?_eq_error_iff.2 ⟨_, _, hhas, hne, hread, rfl⟩]
      rfl
    · rw [port?_eq_ok_iff.2 hport, checkPart_host_eq_error_iff.2 ⟨_, _, hhost, hc, rfl⟩]
      rfl
    · rw [port?_eq_ok_iff.2 hport, checkPart_host_eq_ok_iff.2 hhost,
        checkPart_eq_error_iff.2 ⟨_, hc, rfl⟩]
      rfl

/-! ## Heads of messages -/

/-- A line of a text ends, and no blank behind it makes what follows a part of it. -/
def EndsLine (s : Text) : Prop :=
  ∃ before c behind, s = before ++ c :: behind ∧
    (c = '\n' ∧ (∀ b ∈ behind.head?, b ∉ [' ', '\t']) ∨
      c = '\r' ∧ ∀ b ∈ behind.head?, b ∉ [' ', '\t', '\n'])

theorem any_contains_eq_false_iff {b? : Option Char} {blanks : Text} :
    (!b?.any blanks.contains) = true ↔ ∀ b ∈ b?, b ∉ blanks := by
  cases b? <;> simp

theorem endsLine_iff {s : Text} : endsLine s = true ↔ EndsLine s := by
  induction s with
  | nil =>
    refine iff_of_false (by simp [endsLine]) ?_
    rintro ⟨before, c, behind, h, -⟩
    simp at h
  | cons c s ih =>
    rw [endsLine, Bool.or_eq_true, Bool.or_eq_true, Bool.and_eq_true, Bool.and_eq_true,
      any_contains_eq_false_iff, any_contains_eq_false_iff, beq_iff_eq, beq_iff_eq, ih]
    constructor
    · rintro ((h | h) | ⟨before, d, behind, rfl, h⟩)
      · exact ⟨[], c, s, rfl, .inl h⟩
      · exact ⟨[], c, s, rfl, .inr h⟩
      · exact ⟨c :: before, d, behind, rfl, h⟩
    · rintro ⟨before, d, behind, heq, h⟩
      cases before with
      | nil =>
        obtain ⟨rfl, rfl⟩ := List.cons.inj heq
        exact .inl h
      | cons b before =>
        obtain ⟨rfl, rfl⟩ := List.cons.inj heq
        exact .inr ⟨before, d, behind, rfl, h⟩

/-- The head of a message to a destination can be written: the line of the request in ASCII, the
line of the host in Latin-1, and as one line. -/
structure Destination.Sendable (d : Destination) : Prop where
  path : ∀ c ∈ d.path, c.toNat < 0x80
  authority : ∀ c ∈ d.authority, c.toNat < 0x100
  oneLine : ¬ EndsLine d.authority

theorem charsetFault?_eq_none_iff {charset s : Text} {size : Nat} :
    charsetFault? charset size s = none ↔ ∀ c ∈ s, c.toNat < size := by
  obtain ⟨front, behind, rfl, hfront, hbehind⟩ := Text.exists_cut (fun c => size ≤ c.toNat) s
  have hfront' : ∀ c ∈ front, c.toNat < size := by simpa using hfront
  rw [charsetFault?, Text.cutAt_append hfront hbehind]
  cases behind with
  | nil => exact iff_of_true rfl (by simpa using hfront')
  | cons c behind =>
    have hc : size ≤ c.toNat := by simpa using hbehind c rfl
    refine iff_of_false (Option.some_ne_none _) fun h => ?_
    exact Nat.not_lt.2 hc (h c (by simp))

theorem headerFault?_eq_none_iff {s : Text} : headerFault? s = none ↔ ¬ EndsLine s := by
  rw [headerFault?, ← endsLine_iff]
  split
  · next h => simp [h]
  · next h => simp [h]

theorem orElse_eq_none_iff {α : Type} {a b : Option α} :
    (a <|> b) = none ↔ a = none ∧ b = none := by
  cases a <;> simp

theorem headFault?_eq_none_iff : d.headFault? = none ↔ d.Sendable := by
  -- what stands around the path is ASCII
  have haround : ("GET ".toList ++ " HTTP/1.1".toList).all (fun c => c.toNat < 0x80) := by decide
  have hline : (∀ c ∈ "GET ".toList ++ d.path ++ " HTTP/1.1".toList, c.toNat < 0x80) ↔
      ∀ c ∈ d.path, c.toNat < 0x80 := by
    refine ⟨fun h c hc => h c ?_, fun h c hc => ?_⟩
    · exact List.mem_append_left _ (List.mem_append_right _ hc)
    · by_cases hpath : c ∈ d.path
      · exact h c hpath
      · have hmem : c ∈ "GET ".toList ++ " HTTP/1.1".toList := by
          simp only [List.mem_append, hpath, or_false] at hc ⊢
          exact hc
        simpa using List.all_eq_true.1 haround c hmem
  rw [Destination.headFault?, orElse_eq_none_iff, orElse_eq_none_iff,
    charsetFault?_eq_none_iff, charsetFault?_eq_none_iff, headerFault?_eq_none_iff, hline]
  exact ⟨fun ⟨hpath, hauthority, hline⟩ => ⟨hpath, hauthority, hline⟩,
    fun ⟨hpath, hauthority, hline⟩ => ⟨hpath, hauthority, hline⟩⟩

end Link

end Headline
