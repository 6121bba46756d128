import CommandShell.Machine.Process

/-!
# Options of utilities

Options are letters after a hyphen or words after two hyphens, of which a beginning is enough that
no other one shares. They may stand between operands. Two hyphens alone end them.
-/

namespace CommandShell

/-- An option that a utility knows. -/
structure Choice where
  /-- What it is called in the list of options that were given. -/
  letter : Char
  /-- The letter itself can be given. -/
  short : Bool := true
  long? : Option String := none
  takesValue : Bool := false

namespace Choice

/-- An option that was given, with its value. -/
structure Given where
  letter : Char
  value : String := ""

/-- Options and operands. -/
structure Split where
  options : List Given
  operands : List String

/-- Puts an option before others. -/
def Split.withOption (g : Given) (s : Split) : Split := { s with options := g :: s.options }

/-- Puts an operand before others. -/
def Split.withOperand (operand : String) (s : Split) : Split :=
  { s with operands := operand :: s.operands }

/-- Reads letters after a hyphen. The value of an option is the rest of the letters, or the next
argument, which is then used up. -/
def readLetters (choices : List Choice) (next? : Option String) :
    List Char → Except String (List Given × Bool)
  | [] => .ok ([], false)
  | letter :: rest =>
    match choices.find? fun c => c.short && c.letter == letter, rest, next? with
    | none, _, _ => .error ("invalid option -- '" ++ String.singleton letter ++ "'")
    | some c, _, _ =>
      if !c.takesValue then do
        let (given, usesNext) ← readLetters choices next? rest
        return (⟨letter, ""⟩ :: given, usesNext)
      else match rest, next? with
        | [], none =>
          .error ("option requires an argument -- '" ++ String.singleton letter ++ "'")
        | [], some next => .ok ([⟨letter, next⟩], true)
        | rest, _ => .ok ([⟨letter, String.ofList rest⟩], false)

/-- The option that a word stands for. -/
def ofWord (choices : List Choice) (word : String) : Except String Choice :=
  let longs := choices.filterMap fun c => c.long?.map fun long => (long, c)
  match longs.lookup word with
  | some c => .ok c
  | none =>
    match longs.filter fun (long, _) => long.startsWith word with
    | [] => .error ("unrecognized option '--" ++ word ++ "'")
    | [(_, c)] => .ok c
    | several =>
      let names := several.map fun (long, _) => " '--" ++ long ++ "'"
      .error ("option '--" ++ word ++ "' is ambiguous; possibilities:" ++ String.join names)

/-- Reads a word after two hyphens. A value follows an equals sign, or is the next argument. -/
def readWord (choices : List Choice) (next? : Option String) (text : String) :
    Except String (Given × Bool) := do
  let word := String.ofList (text.toList.takeWhile (· ≠ '='))
  let value? := match text.toList.dropWhile (· ≠ '=') with
    | _ :: value => some (String.ofList value)
    | [] => none
  let c ← ofWord choices word
  let name := "option '--" ++ c.long?.getD word ++ "'"
  match c.takesValue, value?, next? with
  | false, none, _ => return (⟨c.letter, ""⟩, false)
  | false, some _, _ => throw (name ++ " doesn't allow an argument")
  | true, some value, _ => return (⟨c.letter, value⟩, false)
  | true, none, some next => return (⟨c.letter, next⟩, true)
  | true, none, none => throw (name ++ " requires an argument")

/-- Reads arguments. -/
def read (choices : List Choice) : List String → Except String Split
  | [] => .ok ⟨[], []⟩
  | "--" :: rest => .ok ⟨[], rest⟩
  | "-" :: rest => do return (← read choices rest).withOperand "-"
  | arg :: [] =>
    match arg.toList with
    | '-' :: '-' :: word => do
      let (given, _) ← readWord choices none (String.ofList word)
      return ⟨[given], []⟩
    | '-' :: letters => do return ⟨(← readLetters choices none letters).1, []⟩
    | _ => .ok ⟨[], [arg]⟩
  | arg :: next :: rest =>
    match arg.toList with
    | '-' :: '-' :: word => do
      let (given, usesNext) ← readWord choices (some next) (String.ofList word)
      let later ← if usesNext then read choices rest else read choices (next :: rest)
      return later.withOption given
    | '-' :: letters => do
      let (given, usesNext) ← readLetters choices (some next) letters
      let later ← if usesNext then read choices rest else read choices (next :: rest)
      return { later with options := given ++ later.options }
    | _ => do return (← read choices (next :: rest)).withOperand arg

end Choice

namespace Choice.Split

/-- The option was given. -/
def has (s : Split) (letter : Char) : Bool := s.options.any fun g => g.letter == letter

end Choice.Split

namespace Start

/-- The name that a program gives itself in messages. -/
def name (s : Start) : String := s.args.headD ""

/-- A message with the name of the program. -/
def message (s : Start) (text : String) : Stream × List UInt8 :=
  complaint (s.name ++ ": " ++ text)

/-- Ends with a message about the arguments. -/
def misused (s : Start) (text : String) : Done :=
  s.leave 1 [s.message text, complaint ("Try '" ++ s.name ++ " --help' for more information.")]

/-- Runs a utility on its options and operands. -/
def withOptions (s : Start) (choices : List Choice) (run : Choice.Split → Done) : Done :=
  match Choice.read choices s.operands with
  | .ok split => run split
  | .error text => s.misused text

/-- Runs a utility on its options and operands, of which there has to be one. -/
def withOperands (s : Start) (choices : List Choice) (run : Choice.Split → Done) : Done :=
  s.withOptions choices fun split =>
    if split.operands.isEmpty then s.misused "missing operand" else run split

end Start
end CommandShell
