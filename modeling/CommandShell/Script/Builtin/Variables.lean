import CommandShell.Script.Builtin.Answer
import CommandShell.Script.Expansion

/-!
# Commands about variables and settings

Variables are exported, protected, made local, removed and listed; the positional parameters and
the options of the script are set.
-/

namespace CommandShell
namespace Script
namespace Builtin

/-! ## Variables -/

/-- Lists the variables that are chosen, by their names. Each is written with its value, if it has
one, after a word. -/
def listVariables (before : String) (chosen : Variable → Bool) : Act Answer := do
  let listed := (← get).bindings.filter fun (_, v) => chosen v
  let sorted := listed.mergeSort fun a b => decide (a.1 ≤ b.1)
  let lines := sorted.map fun (name, v) =>
    let value := match v.value? with
      | some value => "=" ++ quoted value
      | none => ""
    before ++ name ++ value ++ "\n"
  return .text (String.join lines)

/-- Cuts an operand into a name and a value. -/
def cutOperand (operand : String) : String × Option String :=
  let name := String.ofList (operand.toList.takeWhile (· ≠ '='))
  match operand.toList.dropWhile (· ≠ '=') with
  | _ :: value => (name, some (String.ofList value))
  | [] => (name, none)

/-- No variable is called by this name. -/
def badName {α : Type} (name : String) : Act α := fail (name ++ ": bad variable name")

/-- Marks variables, which may get values at the same time, or lists those that are marked. -/
def mark (word : String) (isMarked : Variable → Bool) (change : Variable → Variable) : Builtin :=
  fun operands => do
    let g ← readOptions [('p', false)] operands
    if g.has 'p' || g.operands.isEmpty then listVariables (word ++ " ") isMarked
    else
      for operand in g.operands do
        let (name, value?) := cutOperand operand
        if !Word.isName name then badName name
        match value? with
        | some value => assign name value false
        | none => pure ()
        let v := ((← get).lookup? name).getD {}
        setVariable name (some (change v))
      return {}

/-- Passes variables on to other programs. -/
def exportCommand : Builtin :=
  mark "export" Variable.exported fun v => { v with exported := true }

/-- Protects variables. -/
def readOnlyCommand : Builtin :=
  mark "readonly" Variable.readOnly fun v => { v with readOnly := true }

/-- Removes a variable. -/
def remove (name : String) : Act Unit := do
  if !Word.isName name then badName name
  let v := ((← get).lookup? name).getD {}
  if v.readOnly then fail (name ++ ": is read only")
  setVariable name none

/-- Removes variables or functions. -/
def unset : Builtin := fun operands => do
  let g ← readOptions [('f', false), ('v', false)] operands
  for name in g.operands do
    if (g.options.getLast?.map Prod.fst) = some 'f' then
      modify fun env => { env with functions := env.functions.filter fun f => f.1 != name }
    else remove name
  return {}

/-- Keeps a variable or the options in mind, to be restored when the function ends. -/
def hide (h : Hidden) : Act Unit := modify fun env =>
  match env.hidden with
  | [] => env
  | innermost :: others => { env with hidden := (h :: innermost) :: others }

/-- Makes variables or the options local to a function. -/
def localCommand : Builtin := fun operands => do
  if (← get).hidden.isEmpty then fail "not in a function"
  let g ← readOptions [] operands
  for operand in g.operands do
    let env ← get
    if operand = "-" then hide (.options env.options)
    else
      let (name, value?) := cutOperand operand
      if !Word.isName name then badName name
      hide (.variable name (env.lookup? name))
      match value? with
      | some value => assign name value false
      | none => pure ()
  return {}

/-! ## Options of the script -/

/-- The options and their letters, in the order in which they are listed. Two have no letter. -/
def optionNames : List (String × Char) :=
  [("errexit", 'e'), ("noglob", 'f'), ("ignoreeof", 'I'), ("interactive", 'i'), ("monitor", 'm'),
    ("noexec", 'n'), ("stdin", 's'), ("xtrace", 'x'), ("verbose", 'v'), ("vi", 'V'),
    ("emacs", 'E'), ("noclobber", 'C'), ("allexport", 'a'), ("notify", 'b'), ("nounset", 'u'),
    ("privileged", 'p'), ("nolog", '\x01'), ("debug", '\x02')]

/-- Sets an option or takes it back. Only one way of editing lines can be set. -/
def setLetter (value : Bool) (letter : Char) : Act Unit := modify fun env =>
  let others := env.options.filter fun o =>
    o != letter && !(value && letter == 'V' && o == 'E') && !(value && letter == 'E' && o == 'V')
  { env with options := if value then letter :: others else others }

/-- Sets the option of a letter. -/
def setOption (value : Bool) (letter : Char) : Act Unit := do
  if !Expansion.optionOrder.contains letter then
    fail ("Illegal option -" ++ String.singleton letter)
  if value && letter == 'm' then
    complain "can't access tty; job control turned off"
  else setLetter value letter

/-- The list of the options, as a table or as commands that set them. -/
def optionList (isSet : Char → Bool) (asTable : Bool) : String :=
  let lines := optionNames.map fun (name, letter) =>
    if asTable then
      name ++ String.ofList (List.replicate (16 - name.length) ' ')
        ++ (if isSet letter then "on" else "off") ++ "\n"
    else "set " ++ (if isSet letter then "-o " else "+o ") ++ name ++ "\n"
  (if asTable then "Current option settings\n" else "") ++ String.join lines

/-- Sets the option of a name. -/
def setNamed (value : Bool) (name : String) : Act Unit :=
  match optionNames.lookup name with
  | some letter => setLetter value letter
  | none => fail ("Illegal option " ++ (if value then "-o " else "+o ") ++ name)

/-- What is asked for beside the setting of options. -/
structure Settings where
  /-- A list of the options. -/
  output : String := ""
  operands : List String
  /-- Two hyphens ended the options. -/
  ended : Bool := false
  /-- The first operand is a script; this can only be said where a script is started. -/
  isScript : Bool := false

/-- Whether options are set where a script is started, or later by the script itself. -/
structure Occasion where
  atStart : Bool
  isSet : Env → Char → Bool

/-- Sets the options of some letters; the letter `o` takes the name of an option from the other
arguments. -/
def setLetters (o : Occasion) (value : Bool) (later : List String) : List Char → Act Settings
  | [] => return { operands := later }
  | letter :: letters => do
    match letter, later with
    | 'o', [] =>
      let output := optionList (o.isSet (← get)) value
      let s ← setLetters o value [] letters
      return { s with output := output ++ s.output }
    | 'o', name :: later =>
      setNamed value name
      setLetters o value later letters
    | letter, later =>
      if o.atStart && letter == 'c' then
        return { ← setLetters o value later letters with isScript := true }
      if !(o.atStart && letter == 'l') then setOption value letter
      setLetters o value later letters

/-- Sets the options at the start of at most `most` arguments. -/
def setOptions (o : Occasion) : (most : Nat) → List String → Act Settings
  | 0, operands => return { operands }
  | _, [] => return { operands := [] }
  | most + 1, arg :: rest => do
    match arg.toList with
    | ['-'] =>
      if !o.atStart then
        setLetter false 'x'
        setLetter false 'v'
      return { operands := rest }
    | ['-', '-'] => return { operands := rest, ended := true }
    | sign :: letters =>
      if sign ≠ '-' ∧ sign ≠ '+' then return { operands := arg :: rest }
      let first ← setLetters o (sign = '-') rest letters
      let more ← setOptions o most first.operands
      return { more with
        output := first.output ++ more.output
        isScript := first.isScript || more.isScript }
    | [] => return { operands := arg :: rest }

/-- Sets options and positional parameters, or lists the variables. -/
def set : Builtin := fun operands => do
  if operands.isEmpty then listVariables "" fun v => v.value?.isSome
  else
    let s ← setOptions ⟨false, fun env => env.options.contains⟩ operands.length operands
    if s.ended || !s.operands.isEmpty then
      modify fun env => { env with positional := s.operands, optionOffset := 0 }
    return .text s.output

/-- Takes positional parameters away. -/
def shift : Builtin := fun operands => do
  let count ← match operands with
    | [] => pure 1
    | text :: _ => number text
  if (← get).positional.length < count then fail "can't shift that many"
  modify fun env => { env with positional := env.positional.drop count, optionOffset := 0 }
  return {}

/-! ## Options of a script's own arguments -/

/-- Where the reading of options stands: the number of the next argument, from one on, and the
letters that are left of the one before. -/
structure Reading where
  next : Nat
  letters : List Char

/-- Notes what was read: the option in a variable, and how far the reading came. -/
def noteOption (target : String) (option : Char) (args : List String) (r : Reading)
    (status : Nat) : Act Answer := do
  assign "OPTIND" (toString r.next) false
  assign target (String.singleton option) false
  let length := ((args[r.next - 2]?).getD "").length
  let optionOffset := if r.letters.isEmpty then 0 else length - r.letters.length
  modify fun env => { env with optionOffset }
  return .ofStatus status

/-- Reads the next option of some arguments; the first operand lists the letters, of which those
with a colon take a value. -/
def getopts : Builtin := fun operands => do
  let g ← readOptions [] operands
  match g.operands with
  | letters :: name :: given =>
    let env ← get
    let args := if given.isEmpty then env.positional else given
    let next := ((env.value? "OPTIND").map Signal.numberOf).getD 1
    let (next, offset) :=
      if next < 1 ∨ args.length + 1 < next then (1, 0) else (next, env.optionOffset)
    let begun : List Char :=
      if next ≤ 1 ∨ offset = 0 then [] else ((args[next - 2]?).getD "").toList.drop offset
    let isQuiet : Bool := letters.toList.head? = some ':'
    let r? : Option Reading := match begun, (args[next - 1]?).map String.toList with
      | _ :: _, _ => some ⟨next, begun⟩
      | [], some ('-' :: letter :: rest) => some ⟨next + 1, letter :: rest⟩
      | [], _ => none
    match r? with
    | none => noteOption name '?' args ⟨next, []⟩ 1
    | some ⟨next, ['-']⟩ =>
      if begun.isEmpty then noteOption name '?' args ⟨next, []⟩ 1
      else unknown isQuiet name args ⟨next, []⟩ '-'
    | some ⟨next, []⟩ => noteOption name '?' args ⟨next, []⟩ 1
    | some ⟨next, c :: rest⟩ =>
      match letters.toList.dropWhile fun l => l ≠ c || l == ':' with
      | [] => unknown isQuiet name args ⟨next, rest⟩ c
      | _ :: ':' :: _ =>
        match rest, args[next - 1]? with
        | [], none =>
          if isQuiet then
            assign "OPTARG" (String.singleton c) false
            noteOption name ':' args ⟨next, []⟩ 0
          else
            tell ("No arg for -" ++ String.singleton c ++ " option\n")
            remove "OPTARG"
            noteOption name '?' args ⟨next, []⟩ 0
        | [], some value =>
          assign "OPTARG" value false
          noteOption name c args ⟨next + 1, []⟩ 0
        | rest, _ =>
          assign "OPTARG" (String.ofList rest) false
          noteOption name c args ⟨next, []⟩ 0
      | _ =>
        assign "OPTARG" "" false
        noteOption name c args ⟨next, rest⟩ 0
  | _ => fail "Usage: getopts optstring var [arg...]"
where
  /-- Goes on after a letter that is none of the options. -/
  unknown (isQuiet : Bool) (name : String) (args : List String)
      (r : Reading) (c : Char) : Act Answer := do
    if isQuiet then assign "OPTARG" (String.singleton c) false
    else
      tell ("Illegal option -" ++ String.singleton c ++ "\n")
      remove "OPTARG"
    noteOption name '?' args r 0

end Builtin
end Script
end CommandShell
