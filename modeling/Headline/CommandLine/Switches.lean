import Headline.Number.Literal

/-!
# Switches

Arguments that start with a hyphen are switches. A long switch may be cut short as long as it is
clear which one is meant, and may have its value attached behind an equals sign. After a lone `--`
all arguments are operands.
-/

namespace Headline.CommandLine

/-- A switch of a command: its name, a shorter name if it has one, and whether it has a value. -/
structure Switch where
  short : Option Text
  long : Text
  hasValue : Bool
  deriving DecidableEq, Repr

/-- How messages name a switch. -/
def Switch.title (s : Switch) : Text :=
  match s.short with
  | none => s.long
  | some short => short ++ '/' :: s.long

/-- The switch that asks for help, which every command has. -/
def help : Switch := ⟨some "-h".toList, "--help".toList, false⟩

/-- What is wrong with arguments. -/
inductive UsageFault where
  | required (name : Text)
  | unrecognized (arguments : List Text)
  | ambiguous (argument : Text) (candidates : List Text)
  | expectedValue (s : Switch)
  | ignoredValue (s : Switch) (value : Text)
  | invalidChoice (title value : Text) (choices : List Text)
  | notPositive (title value : Text)
  deriving DecidableEq, Repr

/-- The wording of the fault. -/
def UsageFault.message : UsageFault → Text
  | required name => "the following arguments are required: ".toList ++ name
  | unrecognized arguments => "unrecognized arguments: ".toList ++ Text.join [' '] arguments
  | ambiguous argument candidates =>
    "ambiguous option: ".toList ++ argument ++ " could match ".toList
      ++ Text.join ", ".toList candidates
  | expectedValue s => "argument ".toList ++ s.title ++ ": expected one argument".toList
  | ignoredValue s value =>
    "argument ".toList ++ s.title ++ ": ignored explicit argument ".toList ++ value.quoted
  | invalidChoice title value choices =>
    "argument ".toList ++ title ++ ": invalid choice: ".toList ++ value.quoted
      ++ " (choose from ".toList ++ Text.join ", ".toList (choices.map Text.quoted) ++ [')']
  | notPositive title value =>
    "argument ".toList ++ title ++ ": ".toList ++ Headline.notPositive value

/-! ## What an argument is -/

/-- An argument: an operand, the separator, a switch with the value attached to it, or a switch
that the command does not have. `isShort` tells whether a switch goes by its shorter name. -/
inductive Argument where
  | operand (s : Text)
  | separator
  | switch (s : Switch) (isShort : Bool) (attached : Option Text)
  | unknown (s : Text)
  deriving DecidableEq, Repr

/-- Whether a character is a decimal digit of any script. -/
def isDecimal (c : Char) : Bool := (decimalValue? c).isSome

/-- Whether an argument looks like a negative number. One line feed may follow it. -/
def isNegativeNumber (s : Text) : Bool :=
  match if s.getLast? = some '\n' then s.dropLast else s with
  | '-' :: s =>
    match s.dropWhile isDecimal with
    | [] => !s.isEmpty
    | '.' :: r => !r.isEmpty && r.all isDecimal
    | _ => false
  | _ => false

/-- An argument taken apart at its first equals sign. -/
def splitValue (s : Text) : Text × Option Text :=
  match Text.cutAt (· == '=') s with
  | (name, _ :: value) => (name, some value)
  | (name, []) => (name, none)

/-- The switches that an argument may stand for, each with its name and the value attached: a long
name cut short, or a short name with more letters behind it. -/
def candidates (switches : List Switch) (s : Text) : List (Text × Argument) :=
  let (name, value) := splitValue s
  switches.filterMap fun sw =>
    if s.take 2 = ['-', '-'] then
      if name.isPrefixOf sw.long then some (sw.long, .switch sw false value) else none
    else if sw.short = some (s.take 2) then some (s.take 2, .switch sw true (some (s.drop 2)))
    else none

/-- The switch of an exact name, with the value attached to it. -/
def exactly (switches : List Switch) (name : Text) (value : Option Text) : Option Argument :=
  (switches.find? fun sw => sw.long = name || sw.short = some name).map fun sw =>
    .switch sw (sw.short = some name) value

/-- An argument that starts with a hyphen and is the exact name of no switch. -/
def classifyInexact (switches : List Switch) (s : Text) : Except UsageFault Argument :=
  match candidates switches s with
  | [(_, a)] => .ok a
  | [] =>
    if isNegativeNumber s || s.contains ' ' then .ok (.operand s) else .ok (.unknown s)
  | several => .error (.ambiguous s (several.map Prod.fst))

/-- What an argument is to a command with the given switches. -/
def classify (switches : List Switch) (s : Text) : Except UsageFault Argument :=
  let (name, value) := splitValue s
  if s.head? ≠ some '-' then .ok (.operand s)
  else
    match exactly switches s none with
    | some a => .ok a
    | none =>
      if s.length = 1 then .ok (.operand s)
      else
        match value.bind fun _ => exactly switches name value with
        | some a => .ok a
        | none => classifyInexact switches s

/-- What each argument is, beside its text. After the separator there are only operands. -/
def classifyAll (switches : List Switch) : List Text → Except UsageFault (List (Text × Argument))
  | [] => .ok []
  | s :: rest =>
    if s = ['-', '-'] then .ok ((s, .separator) :: rest.map fun r => (r, .operand r))
    else do
      let a ← classify switches s
      let as ← classifyAll switches rest
      return (s, a) :: as

end Headline.CommandLine
