import Headline.Proofs.Destinations
import Headline.Proofs.Timeouts

/-!
# Requests that are given up

Most requests come to an answer, or to a reason for none that callers reckon with. Some are given up
in another way (`Undialled`): the port is no number or does not fit into a machine word, the host or
the path holds a blank or a control character, or one cannot wait so long.
`ask_eq_undialled_iff` says which, in the order in which a request is made.
-/

namespace Headline

namespace Feed

open Link

/-! ## Requests -/

variable {net : Network} {r : Request} {timeout : Binary64} {f : DialFault}

/-- A number of a port that fits into a machine word with its sign. -/
def FitsWord (n : Int) : Prop := -9223372036854775808 ≤ n ∧ n < 9223372036854775808

/-- The message of a request can be written: it goes to somebody, whose port is this one, and its
head fits into its character sets. -/
structure Written (r : Request) (port : Option Int) : Prop where
  addressed : r.destination.authority ≠ []
  sound : r.destination.Sound port
  head : r.destination.Sendable

/-- A request is given up in a way that callers do not reckon with. -/
inductive Undialled (net : Network) (r : Request) (timeout : Binary64) : DialFault → Prop
  | flawed {f : DialFault} : r.destination.authority ≠ [] → r.destination.Flawed f →
    Undialled net r timeout f
  | port {n : Int} : Written r (some n) → (∀ message, net r ≠ .unnamed message) →
    ¬ FitsWord n → Undialled net r timeout .portTooLarge
  | timeout {port : Option Int} : Written r port → (∀ message, net r ≠ .unnamed message) →
    (∀ n ∈ port, FitsWord n) → (∀ reason, net r ≠ .unknown reason) → TooLong timeout →
    Undialled net r timeout .timeoutTooLarge

theorem named_eq_ok_iff {outcome : Outcome} :
    outcome.named = .ok () ↔ ∀ message, outcome ≠ .unnamed message := by
  cases outcome <;> simp [Outcome.named]

theorem known_eq_ok_iff {outcome : Outcome} :
    outcome.known = .ok () ↔ ∀ reason, outcome ≠ .unknown reason := by
  cases outcome <;> simp [Outcome.known]

theorem checkPort_eq_ok_iff {port : Option Int} :
    checkPort port = .ok () ↔ ∀ n ∈ port, FitsWord n := by
  cases port with
  | none => simp [checkPort]
  | some n =>
    by_cases hn : FitsWord n
    · have hcheck : checkPort (some n) = .ok () := if_pos hn
      simp [hcheck, hn]
    · have hcheck : checkPort (some n) = .error (.undialled .portTooLarge) := if_neg hn
      simp [hcheck, hn]

theorem checkPort_eq_undialled_iff {port : Option Int} :
    checkPort port = .error (.undialled f) ↔
      ∃ n, port = some n ∧ ¬ FitsWord n ∧ f = .portTooLarge := by
  cases port with
  | none => simp [checkPort]
  | some n =>
    by_cases hn : FitsWord n
    · have hcheck : checkPort (some n) = .ok () := if_pos hn
      simp [hcheck, hn]
    · have hcheck : checkPort (some n) = .error (.undialled .portTooLarge) := if_neg hn
      simp [hcheck, hn, eq_comm]

theorem checkHead_eq_ok_iff {d : Destination} : checkHead d = .ok () ↔ d.Sendable := by
  rw [checkHead, ← headFault?_eq_none_iff]
  cases d.headFault? <;> simp

/-- What has been received is no such reason. -/
theorem received_ne_undialled (outcome : Outcome) :
    outcome.received ≠ .error (.undialled f) := by
  cases outcome <;> simp [Outcome.received]

theorem checkHead_ne_undialled (d : Destination) : checkHead d ≠ .error (.undialled f) := by
  rw [checkHead]
  cases d.headFault? <;> simp

theorem named_ne_undialled (outcome : Outcome) : outcome.named ≠ .error (.undialled f) := by
  cases outcome <;> simp [Outcome.named]

theorem known_ne_undialled (outcome : Outcome) : outcome.known ≠ .error (.undialled f) := by
  cases outcome <;> simp [Outcome.known]

theorem mapError_eq_ok_iff {α ε δ : Type} {x : Except ε α} {g : ε → δ} {a : α} :
    x.mapError g = .ok a ↔ x = .ok a := by
  cases x <;> simp [Except.mapError]

theorem mapError_eq_undialled_iff {α : Type} {x : Except DialFault α} :
    x.mapError NoAnswer.undialled = .error (.undialled f) ↔ x = .error f := by
  cases x <;> simp [Except.mapError]

theorem bind_eq_undialled {α β : Type} {x : Except NoAnswer α} {g : α → Except NoAnswer β}
    (h : x >>= g = .error (.undialled f)) :
    x = .error (.undialled f) ∨ ∃ a, x = .ok a ∧ g a = .error (.undialled f) := by
  cases x with
  | error e => exact .inl (congrArg Except.error (Except.error.inj h))
  | ok a => exact .inr ⟨a, rfl, h⟩

/-- A request that goes to somebody is checked and written, and then it is up to the network. -/
theorem ask_of_addressed (h : r.destination.authority ≠ []) :
    net.ask r timeout = (do
      let port ← r.destination.check.mapError .undialled
      checkHead r.destination
      (net r).named
      checkPort port
      (net r).known
      checkTimeout timeout
      (net r).received) := by
  rw [Network.ask]
  exact if_neg (by simpa using h)

theorem ask_of_written {port : Option Int} (h : Written r port) :
    net.ask r timeout = (do
      (net r).named
      checkPort port
      (net r).known
      checkTimeout timeout
      (net r).received) := by
  rw [ask_of_addressed h.addressed, Destination.check_eq_ok_iff.2 h.sound,
    checkHead_eq_ok_iff.2 h.head]
  rfl

/-- Which requests are given up in a way that callers do not reckon with. -/
theorem ask_eq_undialled_iff :
    net.ask r timeout = .error (.undialled f) ↔ Undialled net r timeout f := by
  constructor
  · intro h
    by_cases haddressed : r.destination.authority = []
    · rw [Network.ask, if_pos (by rw [haddressed]; rfl)] at h
      cases h
    · rw [ask_of_addressed haddressed] at h
      -- each step is passed, or it is the one at which the request is given up
      rcases bind_eq_undialled h with h | ⟨port, hcheck, h⟩
      · exact .flawed haddressed (Destination.check_eq_error_iff.1 (mapError_eq_undialled_iff.1 h))
      have hsound := Destination.check_eq_ok_iff.1 (mapError_eq_ok_iff.1 hcheck)
      rcases bind_eq_undialled h with h | ⟨⟨⟩, hhead, h⟩
      · exact absurd h (checkHead_ne_undialled _)
      rcases bind_eq_undialled h with h | ⟨⟨⟩, hnamed, h⟩
      · exact absurd h (named_ne_undialled _)
      have hwritten : Written r port := ⟨haddressed, hsound, checkHead_eq_ok_iff.1 hhead⟩
      rcases bind_eq_undialled h with h | ⟨⟨⟩, hport, h⟩
      · obtain ⟨n, rfl, hn, rfl⟩ := checkPort_eq_undialled_iff.1 h
        exact .port hwritten (named_eq_ok_iff.1 hnamed) hn
      rcases bind_eq_undialled h with h | ⟨⟨⟩, hknown, h⟩
      · exact absurd h (known_ne_undialled _)
      rcases bind_eq_undialled h with h | ⟨⟨⟩, -, h⟩
      · obtain ⟨hlong, rfl⟩ := checkTimeout_eq_undialled_iff.1 h
        exact .timeout hwritten (named_eq_ok_iff.1 hnamed) (checkPort_eq_ok_iff.1 hport)
          (known_eq_ok_iff.1 hknown) hlong
      · exact absurd h (received_ne_undialled _)
  · rintro (⟨haddressed, hflawed⟩ | ⟨hwritten, hnamed, hn⟩ |
      ⟨hwritten, hnamed, hport, hknown, hlong⟩)
    · rw [ask_of_addressed haddressed, Destination.check_eq_error_iff.2 hflawed]
      rfl
    · rw [ask_of_written hwritten, named_eq_ok_iff.2 hnamed,
        checkPort_eq_undialled_iff.2 ⟨_, rfl, hn, rfl⟩]
      rfl
    · rw [ask_of_written hwritten, named_eq_ok_iff.2 hnamed, checkPort_eq_ok_iff.2 hport,
        known_eq_ok_iff.2 hknown, checkTimeout_eq_undialled_iff.2 ⟨hlong, rfl⟩]
      rfl

end Feed

end Headline
