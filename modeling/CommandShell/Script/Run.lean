import CommandShell.Script.Builtin.Control
import CommandShell.Script.Redirect

/-!
# Running scripts

A command is run in steps: what it contains is run by a runner that is given, so that a command
that would go down without end comes to an end here. A simple command first has its words
expanded, then its streams redirected and its variables set, and then runs what its first word
names.
-/

namespace CommandShell
namespace Script

/-! ## Scripts in words -/

/-- Runs a script for its output, without the newlines at its end. -/
def substitute (run : Runner) : Expansion.Substitution := fun line script closed => do
  match Grammar.inner line script closed with
  | .error m =>
    modify fun env => { env with line := m.line }
    fail ("Syntax error: " ++ m.text)
  | .ok command =>
    settleJobs run
    let place ← newChannel (.collected [])
    let ending ← inSubshell run
      (fun s => { s with streams := (1, place) :: s.streams.filter fun entry => entry.1 != 1 })
      (run { isLast := true } command)
    tellEnding ending
    modify fun env => { env with substituted := statusOf ending }
    receiveAll run
    let bytes := match (← get).channels[place]? with
      | some (.collected parts) => parts.reverse.flatten
      | _ => []
    let kept := ((bytes.filter (· ≠ 0)).reverse.dropWhile (· = 0x0A)).reverse
    return Utf8.decodeChars kept

/-! ## Simple commands -/

/-- The commands whose operands can be assignments. -/
def assigners : List String := ["alias", "export", "local", "readonly"]

/-- Expands words; an assignment among the operands of some commands is not divided. -/
def expandArguments (run : Runner) (args : List String) : List Word → Act (List String)
  | [] => return args
  | word :: rest => do
    let name? := (args.filter (· ≠ "command")).head?
    match (Word.assignment? word).filter fun _ => (name?.map assigners.contains).getD false with
    | some (name, value) =>
      let text ← expandValue (substitute run) value
      expandArguments run (args ++ [name ++ "=" ++ text]) rest
    | none =>
      let texts ← expand (substitute run) word
      expandArguments run (args ++ texts) rest

/-- A command that is to be called. -/
structure Call where
  args : List String
  /-- The words `command` before it: functions are not considered, and mistakes are not fatal. -/
  isProtected : Bool := false
  /-- The program is looked for where those of the system are. -/
  isStandard : Bool := false

namespace Call

/-- Takes the word `command` and its option `-p` away, if nothing else is asked of it. -/
def strip : (most : Nat) → Call → Call
  | 0, call => call
  | most + 1, call =>
    match call.args with
    | "command" :: rest =>
      let isStandard (arg : String) : Bool :=
        arg.startsWith "-p" && arg.toList.all fun c => c == '-' || c == 'p'
      let options := rest.takeWhile isStandard
      let (ended, rest) := match rest.drop options.length with
        | "--" :: rest => (true, rest)
        | rest => (false, rest)
      let name := rest.headD ""
      if rest.isEmpty || (!ended && name.startsWith "-" && name != "-") then call
      else
        strip most {
          args := rest
          isProtected := true
          isStandard := call.isStandard || !options.isEmpty }
    | _ => call

/-- The call of some arguments. -/
def ofArguments (args : List String) : Call := strip args.length { args }

/-- Where the program of a call is looked for. -/
def searchPath (env : Env) (call : Call) : Option String :=
  if call.isStandard then some Meaning.standardPath else env.value? "PATH"

/-- What the first argument stands for. -/
def meaning (env : Env) (call : Call) : Meaning :=
  Meaning.ofName env (!call.isProtected) (searchPath env call) (call.args.headD "")

end Call

/-- Describes commands, or does nothing. -/
def commandCommand : Builtin := fun operands => do
  let g ← Builtin.readOptions [('p', false), ('v', false), ('V', false)] operands
  let env ← get
  let searchPath := if g.has 'p' then some Meaning.standardPath else env.value? "PATH"
  match g.operands with
  | [] => return {}
  | name :: _ =>
    if !(g.has 'v' || g.has 'V') then return {}
    let (text, status) ← Builtin.describe (g.has 'V') searchPath name
    return { output := Utf8.encode text, status }

/-- Runs a command of the script language. A mistake ends the script only in a special one. -/
def callBuiltin (isSpecial : Bool) (name : String) (builtin : Act Answer) : Act Unit := do
  let speaker? := (← get).speaker?
  modify fun env => { env with speaker? := some name }
  let act : Act Unit := do
    let answer ← builtin
    if ← put 1 answer.output then setStatus answer.status
    else
      complain (name ++ ": I/O error")
      setStatus (answer.status ||| 1)
  afterwards (fun env => { env with speaker? }) fun env =>
    match act env with
    | .error .fails env => if isSpecial then .error .fails env else .ok () env
    | result => result

/-- Restores what local variables have hidden. -/
def Env.unhide (env : Env) : Env :=
  (env.hidden.headD []).foldl
    (fun env h =>
      match h with
      | .variable name before? => { env with toScope := env.toScope.withVariable name before? }
      | .options before => { env with options := before })
    { env with hidden := env.hidden.drop 1 }

/-- Functions call each other to at most this depth. -/
def mostCalls : Nat := 1000

/-- Calls a function with operands. -/
def callFunction (run : Runner) (mode : Mode) (body : Command) (operands : List String) :
    Act Unit := do
  if mostCalls ≤ (← get).hidden.length then
    fail ("Maximum function recursion depth (" ++ toString mostCalls ++ ") reached")
  let before := (← get).toScope
  let restore (env : Env) : Env :=
    { env.unhide with
      positional := before.positional
      loops := before.loops
      optionOffset := before.optionOffset }
  afterwards restore do
    modify fun env => { env with
      positional := operands
      loops := 0
      optionOffset := 0
      hidden := [] :: env.hidden }
    let act : Act Unit := run { isTested := mode.isTested } body
    fun env =>
      match act env with
      | .error .returns env => .ok () env
      | result => result

/-- Calls what the first argument stands for. -/
def Call.run (starter : Starter) (runner : Runner) (mode : Mode) (call : Call) : Act Unit := do
  let env ← get
  let name := call.args.headD ""
  let operands := call.args.drop 1
  let builtin := if name = "command" then commandCommand else Builtin.run starter runner name
  match call.meaning env with
  | .special => callBuiltin (!call.isProtected) name (builtin operands)
  | .ordinary => callBuiltin false name (builtin operands)
  | .function body => callFunction runner mode body operands
  | .absent f =>
    complain (name ++ ": " ++ Programs.reason f)
    setStatus 127
  | .program path =>
    let all := Programs.paths (call.searchPath env) name
    if path != name then remember name path
    Programs.run starter runner mode (all.dropWhile (· ≠ path)) call.args

/-- Writes what is about to be run, after a mark and to the streams as they were before. -/
def trace (run : Runner) (streams : List (Nat × Nat)) (texts : List String) : Act Unit := do
  let env ← get
  if !env.has 'x' then return
  modify fun env => { env with options := env.options.filter (· != 'x') }
  let mark ← expandDocument (substitute run) ((env.value? "PS4").getD "").toList
  let now := (← get).streams
  modify fun env => { env with streams, options := env.options ++ ['x'] }
  tell (mark ++ String.intercalate " " texts ++ "\n")
  modify fun env => { env with streams := now }

/-- Gives variables their values; the answer says which. -/
def assignAll (run : Runner) (exports : Bool) (assignments : List (String × Word)) :
    Act (List String) :=
  assignments.mapM fun (name, word) => do
    let value ← expandValue (substitute run) word
    assign name value exports
    return name ++ "=" ++ value

/-- Runs a simple command. -/
def runSimple (starter : Starter) (run : Runner) (mode : Mode) (line : Nat) (words : List Word)
    (redirections : List Redirection) : Act Unit := do
  modify fun env => { env with line, substituted := 0 }
  let assignments := (words.takeWhile fun w => (Word.assignment? w).isSome).filterMap
    Word.assignment?
  let args ← expandArguments run [] (words.drop assignments.length)
  let call := Call.ofArguments args
  let isSpecial : Bool := match call.meaning (← get) with
    | .special => !call.isProtected
    | _ => false
  let plans ← redirections.mapM (Redirection.plan (substitute run))
  let before := (← get).toScope
  let isExec : Bool := call.args.head? = some "exec"
  if !(← Redirection.carryOutAll true plans) then
    modify fun env => { env with streams := before.streams }
    if isSpecial then throw .fails
  else
    let keepsStreams (env : Env) : Env :=
      if isExec then env else Redirection.restore plans before.streams env
    afterwards keepsStreams do
      if args.isEmpty then
        let texts ← assignAll run false assignments
        if !texts.isEmpty then trace run before.streams texts
        modify fun env => { env with status := env.substituted }
      else if isSpecial then
        let texts ← assignAll run (isExec && 1 < args.length) assignments
        trace run before.streams (texts ++ args)
        call.run starter run mode
      else
        let restore (env : Env) : Env := assignments.foldl
          (fun env (name, _) =>
            { env with toScope := env.toScope.withVariable name (before.lookup? name) }) env
        afterwards restore do
          let texts ← assignAll run true assignments
          trace run before.streams (texts ++ args)
          call.run starter run mode

/-! ## Compound commands -/

/-- The commands of a pipeline. -/
def elements : Command → List Command
  | .piped first next => first :: elements next
  | c => [c]

/-- Looks for the program of a command that will be run in a subshell. -/
def lookAhead : Command → Act Unit
  | .simple _ words _ => do
    let env ← get
    let name := match words.dropWhile fun w => (Word.assignment? w).isSome with
      | word :: _ => (Word.plain? word).getD ""
      | [] => ""
    if Word.isName name then
      match Meaning.ofName env true (env.value? "PATH") name with
      | .program path => remember name path
      | _ => pure ()
  | _ => pure ()

/-- Runs the commands of a pipeline, each on the output of the one before. -/
def runPiped (run : Runner) (mode : Mode) (input? : Option (List UInt8))
    (endings : List Child.Ending) : List Command → Act (List Child.Ending)
  | [] => return endings.reverse
  | c :: rest => do
    lookAhead c
    let source? ← input?.mapM fun bytes => newChannel (.waiting bytes)
    let target? ← if rest.isEmpty then pure none else some <$> newChannel (.collected [])
    let change (s : Scope) : Scope :=
      let others := s.streams.filter fun entry =>
        !(entry.1 == 0 && source?.isSome) && !(entry.1 == 1 && target?.isSome)
      let opened := (source?.map fun place => (0, place)).toList
        ++ (target?.map fun place => (1, place)).toList
      { s with streams := opened ++ others }
    let ending ← inSubshell run change (run { isLast := true, isTested := mode.isTested } c)
    let output? := target?.bind ((← get).channels[·]?)
    let bytes := match output? with
      | some (.collected parts) => parts.reverse.flatten
      | _ => []
    runPiped run mode (some bytes) (ending :: endings) rest

/-- Runs a pipeline. Its status is that of the last command. -/
def runPipeline (run : Runner) (mode : Mode) (c : Command) : Act Unit := do
  settleJobs run
  let endings ← runPiped run mode none [] (elements c)
  endings.forM tellEnding
  setStatus (statusOf (endings.getLastD (.exit 0)))
  receiveAll run

/-- Runs a subshell. Where nothing comes after it in its process, it is not one of its own. -/
def runSubshell (run : Runner) (mode : Mode) (line : Nat) (body : Command)
    (redirections : List Redirection) : Act Unit := do
  modify fun env => { env with line }
  let plans ← redirections.mapM (Redirection.plan (substitute run))
  let act : Act Unit := do
    if ← Redirection.carryOutAll false plans then
      run { isLast := true, isTested := mode.isTested } body
    else throw .fails
  if mode.isLast && !(← get).hasTraps then
    act
    throw .exits
  else waitFor run id act

/-- What comes after a turn of a loop. -/
inductive AfterTurn where
  | goesOn
  | ends

/-- Does something inside a loop, and takes notice of a jump that concerns the loop. -/
def inLoop (act : Act Unit) : Act AfterTurn := fun env =>
  match act env with
  | .ok _ env => .ok .goesOn env
  | .error (.breaks loops) env =>
    if loops ≤ 1 then .ok .ends env else .error (.breaks (loops - 1)) env
  | .error (.continues loops) env =>
    if loops ≤ 1 then .ok .goesOn env else .error (.continues (loops - 1)) env
  | .error jump env => .error jump env

/-- Does something with one more loop around it. -/
def withLoop (act : Act Unit) : Act Unit := do
  modify fun env => { env with loops := env.loops + 1 }
  afterwards (fun env => { env with loops := env.loops - 1 }) act

/-- No loop turns more often. -/
def mostTurns : Nat := 1000000

/-- Whether a condition says that a loop goes on with its body; `none` if it says that the next
turn is to begin. -/
def holds (run : Runner) (whileSucceeding : Bool) (condition : Command) : Act (Option Bool) :=
  fun env =>
    match run { isTested := true } condition env with
    | .ok _ env => .ok (some (decide (env.status = 0) == whileSucceeding)) env
    | .error (.breaks loops) env =>
      if loops ≤ 1 then .ok (some false) env else .error (.breaks (loops - 1)) env
    | .error (.continues loops) env =>
      if loops ≤ 1 then .ok none env else .error (.continues (loops - 1)) env
    | .error jump env => .error jump env

/-- Runs the turns of a loop with a condition. The status is that of the last turn of the body. -/
def runTurns (run : Runner) (mode : Mode) (whileSucceeding : Bool) (condition body : Command) :
    (most : Nat) → (status : Nat) → Act Unit
  | 0, _ => throw (.gone (.signal Signal.kill))
  | most + 1, status => do
    match ← holds run whileSucceeding condition with
    | none => runTurns run mode whileSucceeding condition body most status
    | some false => setStatus status
    | some true =>
      match ← inLoop (run { isTested := mode.isTested } body) with
      | .ends => pure ()
      | .goesOn =>
        runTurns run mode whileSucceeding condition body most (← get).status

/-- Runs the body of a loop for each of some texts. -/
def runEach (run : Runner) (mode : Mode) (name : String) (body : Command) :
    List String → Act Unit
  | [] => pure ()
  | text :: rest => do
    assign name text false
    match ← inLoop (run { isTested := mode.isTested } body) with
    | .ends => pure ()
    | .goesOn => runEach run mode name body rest

/-- Runs the first clause with a pattern that a text fits. -/
def runClauses (run : Runner) (mode : Mode) (text : List Char) : Command → Act Unit
  | .clause patterns body next => do
    let fits ← patterns.anyM fun pattern => do
      let marks ← expandMarks (substitute run) pattern
      return Pattern.fits (Pattern.ofMarks marks) text
    if !fits then runClauses run mode text next
    else if body != .nothing then run mode body
    else setStatus 0
  | _ => setStatus 0

/-! ## Commands -/

/-- A failure of this command ends the script, if that is asked for. -/
def Command.endsByFailure : Command → Bool
  | .simple _ _ _ | .subshell _ _ _ | .background _ | .piped _ _ => true
  | _ => false

/-- Runs a command; `run` runs what it contains. -/
def stepInto (starter : Starter) (run : Runner) (mode : Mode) : Command → Act Unit
  | .nothing => pure ()
  | .simple line words redirections => runSimple starter run mode line words redirections
  | .inOrder first next => do
    run { isTested := mode.isTested } first
    run mode next
  | .ifSucceeds first next => do
    run { isTested := true } first
    if (← get).status = 0 then run mode next
  | .ifFails first next => do
    run { isTested := true } first
    if (← get).status ≠ 0 then run mode next
  | .negated body => do
    run { isTested := true } body
    setStatus (if (← get).status = 0 then 1 else 0)
  | .piped first next => runPipeline run mode (.piped first next)
  | .background body => startJob body
  | .subshell line body redirections => runSubshell run mode line body redirections
  | .redirected line body redirections => do
    modify fun env => { env with line }
    let isPossible ← Redirection.around (substitute run) redirections
      (run { isTested := mode.isTested } body)
    if !isPossible && (← get).has 'e' && !mode.isTested then throw .exits
  | .branch condition first otherwise => do
    run { isTested := true } condition
    if (← get).status = 0 then run mode first
    else if otherwise = .nothing then setStatus 0
    else run mode otherwise
  | .loop whileSucceeding condition body =>
    withLoop (runTurns run mode whileSucceeding condition body mostTurns 0)
  | .forEach line name words body => do
    modify fun env => { env with line }
    let texts ← words.mapM (expand (substitute run))
    if texts.all List.isEmpty then setStatus 0
    withLoop (runEach run mode name body texts.flatten)
  | .select line word clauses => do
    modify fun env => { env with line }
    let text ← expandWhole (substitute run) word
    runClauses run mode text.toList clauses
  | .clause _ _ _ => pure ()
  | .define name body => do
    modify fun env => { env with
      functions := (name, body) :: env.functions.filter fun f => f.1 != name
      status := 0 }

/-- Runs a command that goes down at most so deep. One that would go deeper ends its process. -/
def Command.run (starter : Starter) : (depth : Nat) → Runner
  | 0, _, _ => throw (.gone (.signal 11))
  | depth + 1, mode, command => do
    let run := Command.run starter depth
    runTraps run
    stepInto starter run mode command
    runTraps run
    let env ← get
    if command.endsByFailure && env.has 'e' && env.status ≠ 0 && !mode.isTested then throw .exits

/-! ## Scripts -/

/-- Commands go down at most so deep. -/
def deepest : Nat := 20000

/-- Writes the lines of a script that are about to be run, if the options say so. -/
def showLines (lines : List String) (tokens rest : List Token) : Act Unit := do
  if (← get).has 'v' then
    let first := Grammar.lineOf tokens - 1
    let isLast : Bool := Grammar.next rest = .scriptEnd
    let count := if isLast then lines.length else Grammar.lineOf rest - 1 - first
    for line in (lines.drop first).take count do
      tell (line ++ "\n")

/-- The text of the script that is asked for by the operands: an operand itself, a file or the
input. The answer also says whether it comes from a file. -/
def source (s : Builtin.Settings) : Act (List Char × Bool) := do
  match s.operands with
  | [] =>
    if s.isScript then fail "-c requires an argument"
    modify fun env => { env with options := 's' :: env.options.filter (· != 's') }
    let input := available (← get) 0
    leave 0 []
    return (Utf8.decodeChars input, true)
  | first :: rest =>
    if s.isScript then
      modify fun env => { env with zero := rest.headD env.zero, positional := rest.drop 1 }
      return (first.toList, false)
    if (← get).has 's' then
      modify fun env => { env with positional := s.operands }
      let input := available (← get) 0
      leave 0 []
      return (Utf8.decodeChars input, true)
    match (← get).standing.read first with
    | .error f =>
      let reason := if f = .missing ∨ f = .notDirectory then "No such file" else f.sentence
      fail ("cannot open " ++ first ++ ": " ++ reason)
    | .ok bytes =>
      modify fun env => { env with zero := first, positional := rest }
      return (Utf8.decodeChars bytes, true)

/-- Keeps the way to the place where the script starts. That of the one who started it is taken
over if it leads there. -/
def keepFirstWay : Act Unit := do
  let env ← get
  let given? := (env.value? "PWD").filter fun path =>
    Path.isAbsolute path && match env.tree.resolve env.here path with
      | .ok ⟨place, .directory⟩ => place == env.here
      | _ => false
  Builtin.keepWay (← match given? with
    | some path => pure path
    | none => Builtin.requirePhysical)

/-- Runs the script that the arguments ask for. -/
def runArguments (run : Runner) (args : List String) : Act Unit := do
  keepFirstWay
  let s ← Builtin.setOptions ⟨true, fun _ _ => true⟩ args.length args
  let _ ← put 1 (Utf8.encode s.output)
  let (text, isShown) ← source s
  let lines := (cutAt '\n' text).map String.ofList
  let shown := if lines.getLast? = some "" then lines.dropLast else lines
  let tokens := Token.ofScript 1 text
  let before (tokens rest : List Token) : Act Unit := do
    if isShown then
      modify fun env => { env with fileReadUpTo := env.readUpTo }
      showLines shown tokens rest
  let _ ← runLines run before (tokens.length + 1) tokens

/-- The variables that a script has at its start. -/
def firstVariables (environment : Environment) (parent : Nat) : List (String × Variable) :=
  let own := [("IFS", " \t\n"), ("OPTIND", "1"), ("PPID", toString parent), ("PS1", "$ "),
    ("PS2", "> "), ("PS4", "+ ")]
  let passed := environment.filter fun entry =>
    Word.isName entry.1 && !(["IFS", "OPTIND", "PPID"].contains entry.1)
  let ownKept := own.filter fun entry => !(passed.any fun other => other.1 == entry.1)
  (passed.map fun (name, value) => (name, { value? := some value, exported := true }))
    ++ ownKept.map fun (name, value) => (name, { value? := some value })

/-- The channels that a script starts with, and its open streams. -/
def firstChannels (s : Start) : Array Channel × List (Nat × Nat) :=
  let output : Channel := if s.outputFault? = some .noSpace then .device true else .stream .out
  let isOpen (number : Nat) : Bool :=
    if number = 0 then s.inputFault?.isNone
    else number ≠ 1 || s.outputFault? ≠ some .closedStream
  (#[.waiting s.input, output, .stream .err],
    ([0, 1, 2].filter isOpen).map fun number => (number, number))

/-- The environment in which the process `pid`, which the processes `outer` led to, starts. -/
def firstEnv (pid : Nat) (outer : List Nat) (s : Start) : Env where
  zero := s.args.headD "sh"
  positional := []
  bindings := firstVariables s.environment (outer.getLast?.getD 1)
  functions := []
  options := []
  status := 0
  substituted := 0
  background? := none
  line := 0
  readUpTo := 1
  fileReadUpTo := 1
  speaker? := none
  here := s.standing.here
  logical := ""
  mask := s.mask
  streams := (firstChannels s).2
  traps := []
  deaf := s.ignored
  caught := []
  hidden := []
  loops := 0
  process := pid
  isSubshell := false
  optionOffset := 0
  found := []
  interrupted? := none
  tree := s.standing.tree
  channels := (firstChannels s).1
  written := []
  jobs := []
  nextProcess := pid * 1000
  script := pid
  arrived := []
  outer := outer
  sent := []

/-- Runs the script that the arguments ask for, as the process `pid`. -/
def run (starter : Starter) (pid : Nat) (outer : List Nat) (s : Start) : Done :=
  let runner := Command.run starter deepest
  let whole : Act Child.Ending := do
    let ending ← asProcess runner (runArguments runner s.operands)
    finishJobs runner
    return ending
  match whole (firstEnv pid outer s) with
  | .ok ending env =>
    let input : List UInt8 := match (env.channels[0]? : Option Channel) with
      | some (.waiting bytes) => bytes
      | _ => []
    { output := env.written.reverse, tree := env.tree, input, ending, sent := env.sent }
  | .error _ env =>
    { output := env.written.reverse, tree := env.tree, input := [], ending := .exit mistaken }

end Script
end CommandShell
