import Headline.Link.Destination
import Headline.Number.Binary64

/-!
# The network

A request is checked and written, then the host is looked up, called and waited for. What comes of
that is an answer with its status, or one of the reasons why there is none.
-/

namespace Headline.Feed

/-- An answer, after redirections. -/
structure Response where
  status : Int
  body : Octets
  deriving DecidableEq, Repr

/-- Why there is no answer. -/
inductive NoAnswer where
  | unreachable (reason : Text)
  | broken (message : Text)
  | invalid (message : Text)
  | undialled (fault : Link.DialFault)
  deriving DecidableEq, Repr

/-- The wording of the reason. -/
def NoAnswer.message : NoAnswer → Text
  | unreachable reason => "<urlopen error ".toList ++ reason ++ ['>']
  | broken message => message
  | invalid message => message
  | undialled f => f.message

/-! ## Timeouts -/

/-- A bound on whole numbers of 64 bits with a sign: 2 to the power of 63. -/
def wordBound : Nat := 9223372036854775808

/-- How the size of a number compares with the bound. -/
def compareWithBound : Binary64 → Ordering
  | .finite _ mantissa exponent =>
    compare (mantissa * Binary64.twoTo exponent.toNat)
      (wordBound * Binary64.twoTo (-exponent).toNat)
  | _ => .gt

/-- How a number in nanoseconds compares with the bound, given the number in seconds: it is
multiplied and rounded in the 64-bit format. -/
def compareNanoseconds (mantissa : Nat) (exponent : Int) : Ordering :=
  compareWithBound (Binary64.ofRatio false
    (mantissa * 1000000000 * Binary64.twoTo exponent.toNat) (Binary64.twoTo (-exponent).toNat))

/-- Checks that one can wait for so many seconds. -/
def checkTimeout : Binary64 → Except NoAnswer Unit
  | .nan => .error (.invalid "Invalid value NaN (not a number)".toList)
  | .infinite _ => .error (.undialled .timeoutTooLarge)
  | .finite negative mantissa exponent =>
    let size := compareNanoseconds mantissa exponent
    if size = .gt ∨ (size = .eq ∧ ¬ negative) then .error (.undialled .timeoutTooLarge)
    else if negative ∧ mantissa ≠ 0 then .error (.invalid "Timeout value out of range".toList)
    else .ok ()

/-! ## Asking -/

/-- What becomes of a message on its way: the name of the host cannot be encoded or is not known,
nobody is there, the connection breaks, or an answer comes. -/
inductive Outcome where
  | unnamed (message : Text)
  | unknown (reason : Text)
  | unreachable (reason : Text)
  | broken (message : Text)
  | answered (response : Response)
  deriving DecidableEq, Repr

namespace Outcome

/-- The name of the host is encoded. -/
def named : Outcome → Except NoAnswer Unit
  | unnamed message => .error (.invalid message)
  | _ => .ok ()

/-- The name of the host is looked up. -/
def known : Outcome → Except NoAnswer Unit
  | unknown reason => .error (.unreachable reason)
  | _ => .ok ()

/-- The host is called. -/
def received : Outcome → Except NoAnswer Response
  | unnamed message => .error (.invalid message)
  | unknown reason => .error (.unreachable reason)
  | unreachable reason => .error (.unreachable reason)
  | broken message => .error (.broken message)
  | answered response => .ok response

end Outcome

/-- A network, as what becomes of the messages that are handed to it. -/
abbrev Network := Link.Request → Outcome

/-- Checks that a port fits into a machine word. -/
def checkPort : Option Int → Except NoAnswer Unit
  | none => .ok ()
  | some n =>
    if -(wordBound : Int) ≤ n ∧ n < wordBound then .ok () else .error (.undialled .portTooLarge)

/-- Checks that the head of a message can be written. -/
def checkHead (d : Link.Destination) : Except NoAnswer Unit :=
  match d.headFault? with
  | some message => .error (.invalid message)
  | none => .ok ()

/-- Asks for an address and waits for the answer. -/
def Network.ask (net : Network) (r : Link.Request) (timeout : Binary64) :
    Except NoAnswer Response :=
  let d := r.destination
  if d.authority.isEmpty then .error (.unreachable "no host given".toList)
  else do
    let port ← d.check.mapError .undialled
    checkHead d
    (net r).named
    checkPort port
    (net r).known
    checkTimeout timeout
    (net r).received

end Headline.Feed
