import Headline.CommandLine.Switches
import Headline.Search.Config

/-!
# Arguments

The program has two commands, each with one operand, the query. `Invocation.ofArguments` reads what
to do, or says what is wrong with the arguments and which command complains.
-/

namespace Headline.CommandLine

open Search

/-- What the search command is asked for, beside the query. -/
structure SearchSwitches where
  limit : Option Nat := none
  all : Bool := false
  sortField : Option SortField := none
  sortOrder : Option SortOrder := none
  strict : Bool := false
  source : Option Text := none
  noBanner : Bool := false
  deriving Repr

/-- What to do. -/
inductive Invocation where
  | search (query : Text) (switches : SearchSwitches)
  | check (query : Text)
  deriving Repr

/-- Why nothing is done: help was asked for, or a command found a fault. -/
inductive Refusal where
  | help
  | usage (command : Text) (fault : UsageFault)
  deriving DecidableEq, Repr

/-! ## Switches -/

/-- A switch without a shorter name. -/
def longSwitch (name : String) (hasValue : Bool) : Switch := ⟨none, name.toList, hasValue⟩

/-- The switches of the search command. -/
def searchSwitches : List Switch :=
  [help, longSwitch "--limit" true, longSwitch "--all" false, longSwitch "--sort-field" true,
   longSwitch "--order" true, longSwitch "--strict" false, longSwitch "--source" true,
   longSwitch "--no-banner" false]

/-- The value of a switch that names one of several choices. -/
def choice {α : Type} (s : Switch) (ofName? : Text → Option α) (choices : List Text) (v : Text) :
    Except UsageFault α :=
  match ofName? v with
  | some a => .ok a
  | none => .error (.invalidChoice s.title v choices)

/-- The value of a switch that has to be a positive integer. -/
def positive (s : Switch) (v : Text) : Except UsageFault Nat :=
  match readPositive? v with
  | some n => .ok n
  | none => .error (.notPositive s.title v)

/-- Takes a switch of the search command into account. -/
def SearchSwitches.apply (o : SearchSwitches) (s : Switch) (v : Text) :
    Except UsageFault SearchSwitches :=
  if s.long = "--limit".toList then do
    return { o with limit := ← positive s v }
  else if s.long = "--all".toList then .ok { o with all := true }
  else if s.long = "--sort-field".toList then do
    let names := [SortField.published, .updated].map SortField.name
    return { o with sortField := ← choice s SortField.ofName? names v }
  else if s.long = "--order".toList then do
    let names := [SortOrder.ascending, .descending].map SortOrder.name
    return { o with sortOrder := ← choice s SortOrder.ofName? names v }
  else if s.long = "--strict".toList then .ok { o with strict := true }
  else if s.long = "--source".toList then .ok { o with source := v }
  else .ok { o with noBanner := true }

/-! ## The arguments of a command -/

/-- What has been read of a command's arguments: the query, the switches, and what the command does
not know. -/
structure Progress (α : Type) where
  query : Option Text
  switches : α
  unknown : List Text

/-- What a switch without a value makes of text attached to it. Behind the letter for help, more of
the same letter may follow. -/
def attachedTo (s : Switch) (isShort : Bool) (v : Text) : Refusal ⊕ UsageFault :=
  let rest := v.dropWhile (· == 'h')
  if isShort ∧ v ≠ [] then
    if rest = [] then .inl .help else .inr (.ignoredValue s rest)
  else .inr (.ignoredValue s v)

/-- Reads the arguments of the command `name`, in order. -/
def readArguments {α : Type} (name : Text) (apply : α → Switch → Text → Except UsageFault α)
    (p : Progress α) : List (Text × Argument) → Except Refusal (Progress α)
  | [] => .ok p
  | (_, .switch s isShort attached) :: rest =>
    match attached, s.hasValue, rest with
    | some v, true, rest =>
      match apply p.switches s v with
      | .error f => .error (.usage name f)
      | .ok o => readArguments name apply { p with switches := o } rest
    | some v, false, _ =>
      match attachedTo s isShort v with
      | .inl refusal => .error refusal
      | .inr f => .error (.usage name f)
    | none, true, (v, .operand _) :: rest =>
      match apply p.switches s v with
      | .error f => .error (.usage name f)
      | .ok o => readArguments name apply { p with switches := o } rest
    | none, true, _ => .error (.usage name (.expectedValue s))
    | none, false, rest =>
      if s = help then .error .help
      else
        match apply p.switches s [] with
        | .error f => .error (.usage name f)
        | .ok o => readArguments name apply { p with switches := o } rest
  | (s, .unknown _) :: rest =>
    readArguments name apply { p with unknown := p.unknown ++ [s] } rest
  | (s, .operand _) :: rest =>
    match p.query, rest with
    | some _, rest => readArguments name apply { p with unknown := p.unknown ++ [s] } rest
    | none, (_, .separator) :: rest => readArguments name apply { p with query := some s } rest
    | none, rest => readArguments name apply { p with query := some s } rest
  | (s, .separator) :: rest =>
    match p.query, rest with
    | none, (q, .operand _) :: rest => readArguments name apply { p with query := some q } rest
    | _, rest => readArguments name apply { p with unknown := p.unknown ++ [s] } rest

/-- The query and the switches of a command, and what it does not know. -/
def readCommand {α : Type} (name : Text) (switches : List Switch)
    (apply : α → Switch → Text → Except UsageFault α) (initial : α) (arguments : List Text) :
    Except Refusal (Text × α × List Text) := do
  let classified ← (classifyAll switches arguments).mapError (.usage name)
  let p ← readArguments name apply ⟨none, initial, []⟩ classified
  match p.query with
  | none => .error (.usage name (.required "query".toList))
  | some q => return (q, p.switches, p.unknown)

/-! ## The whole command line -/

/-- The name of the program. -/
def programName : Text := "newslens".toList

/-- The invocation if no arguments are left over. -/
def whole (unknown : List Text) (i : Invocation) : Except Refusal Invocation :=
  if unknown.isEmpty then .ok i else .error (.usage programName (.unrecognized unknown))

/-- Reads the name of the command and its arguments. `unknown` holds what stands before it. -/
def readInvocation (unknown : List Text) (command : Text) (arguments : List Text) :
    Except Refusal Invocation :=
  let full := programName ++ ' ' :: command
  if command = "search".toList then do
    let (q, o, more) ← readCommand full searchSwitches SearchSwitches.apply {} arguments
    whole (unknown ++ more) (.search q o)
  else if command = "check".toList then do
    let (q, _, more) ← readCommand full [help] (fun o _ _ => .ok o) () arguments
    whole (unknown ++ more) (.check q)
  else
    .error (.usage programName
      (.invalidChoice "command".toList command ["search".toList, "check".toList]))

/-- Finds the command behind the switches of the program itself. -/
def findCommand (unknown : List Text) : List (Text × Argument) → Except Refusal Invocation
  | [] => .error (.usage programName (.required "command".toList))
  | (_, .switch s isShort attached) :: _ =>
    match attached with
    | none => .error .help
    | some v =>
      match attachedTo s isShort v with
      | .inl refusal => .error refusal
      | .inr f => .error (.usage programName f)
  | (s, .unknown _) :: rest => findCommand (unknown ++ [s]) rest
  | (s, .operand _) :: rest => readInvocation unknown s (rest.map Prod.fst)
  | (s, .separator) :: rest =>
    if rest.isEmpty then .error (.usage programName (.required "command".toList))
    else readInvocation unknown s (rest.map Prod.fst)

/-- What arguments ask for. -/
def Invocation.ofArguments (arguments : List Text) : Except Refusal Invocation := do
  let classified ← (classifyAll [help] arguments).mapError (.usage programName)
  findCommand [] classified

end Headline.CommandLine
