import CommandShell.FileTree
import CommandShell.Text.Numeral

/-!
# Conditions

A condition is written as a row of texts: comparisons of texts and numbers and questions about
files, joined and negated. What a text is depends on its place: an operator that has nothing to
work on is a text like any other.
-/

namespace CommandShell
namespace Script
namespace Condition

/-- What a text is where it can be an operator. -/
inductive Lexeme where
  | operand
  | unary (operator : String)
  | binary (operator : String)
  | not
  | and
  | or
  | opening
  | closing
  /-- The condition ends here. -/
  | nothing
deriving DecidableEq

/-- The operators before a text. -/
def unaryOperators : List String :=
  ["-r", "-w", "-x", "-e", "-f", "-d", "-c", "-b", "-p", "-u", "-g", "-k", "-s", "-t", "-z", "-n",
    "-h", "-O", "-G", "-L", "-S"]

/-- The operators between two texts. -/
def binaryOperators : List String :=
  ["=", "!=", "<", ">", "-eq", "-ne", "-ge", "-gt", "-le", "-lt", "-nt", "-ot", "-ef"]

/-- What a text is, wherever it stands. -/
def lexemeOf (text : String) : Lexeme :=
  if unaryOperators.contains text then .unary text
  else if binaryOperators.contains text then .binary text
  else match text with
    | "!" => .not
    | "-a" => .and
    | "-o" => .or
    | "(" => .opening
    | ")" => .closing
    | _ => .operand

/-- A row of texts and the place where they are looked at. -/
structure Row where
  texts : Array String
  standing : Standing

namespace Row

/-- What the text at a position is there. -/
def lexeme (r : Row) (position : Nat) : Lexeme :=
  match r.texts[position]? with
  | none => .nothing
  | some text =>
    match lexemeOf text, r.texts[position + 1]?, r.texts[position + 2]? with
    | .unary _, none, _ => .operand
    | .opening, none, _ => .operand
    | .unary operator, some next, some _ =>
      match lexemeOf next with
      | .binary _ => .operand
      | _ => .unary operator
    | found, _, _ => found

end Row

/-! ## Questions -/

/-- The value of a text as a number. -/
def number (text : String) : Except String Int :=
  match Numeral.decimal? text with
  | some value => .ok value
  | none => .error ("Illegal number: " ++ text)

/-- A comparison of two texts. Of times nothing is known. -/
def compare (s : Standing) (operator first second : String) : Except String Bool := do
  match operator with
  | "=" => return first = second
  | "!=" => return first ≠ second
  | "<" => return decide (first < second)
  | ">" => return decide (second < first)
  | "-eq" => return (← number first) = (← number second)
  | "-ne" => return (← number first) ≠ (← number second)
  | "-ge" => return !decide ((← number first) < (← number second))
  | "-gt" => return !decide ((← number first) ≤ (← number second))
  | "-le" => return decide ((← number first) ≤ (← number second))
  | "-lt" => return decide ((← number first) < (← number second))
  | "-ef" =>
    match s.tree.resolve s.here first, s.tree.resolve s.here second with
    | .ok a, .ok b => return a.path = b.path
    | _, _ => return false
  | _ => return false

/-- A question about a file or a text. -/
def ask (s : Standing) (operator text : String) : Except String Bool := do
  let node? := match s.tree.resolve s.here text with
    | .ok found => some found.node
    | .error _ => none
  match operator, node? with
  | "-z", _ => return text = ""
  | "-n", _ => return text ≠ ""
  | "-t", _ =>
    let _ ← number text
    return false
  | "-h", _ | "-L", _ =>
    match s.tree.spot false s.here text with
    | .ok ⟨_, some (.link _)⟩ => return true
    | _ => return false
  | _, none => return false
  | "-f", some (.file _ _) | "-f", some (.program _) => return true
  | "-f", _ => return false
  | "-d", some node => return node = .directory
  | "-c", some (.device _) => return true
  | "-c", _ => return false
  | "-x", some (.file _ executable) => return executable
  | "-x", some (.device _) => return false
  | "-x", _ => return true
  | "-s", some (.file bytes _) => return !bytes.isEmpty
  | "-s", some (.device _) => return false
  | "-s", _ => return true
  | "-r", _ | "-w", _ | "-e", _ | "-O", _ | "-G", _ => return true
  | _, _ => return false

/-! ## Evaluation -/

/-- A step of an evaluation, which goes from position to position. -/
abbrev Evaluation := StateT Nat (Except String)

/-- What is said about an operator without its second text. -/
def argumentExpected {α : Type} (operator : String) : Evaluation α :=
  throw (operator ++ ": argument expected")

/-- Goes on by some positions, and says what is there. -/
def step (r : Row) (count : Nat) : Evaluation Lexeme := do
  modify (· + count)
  return r.lexeme (← get)

mutual

/-- Conditions of which one has to hold. Afterwards the position is that of the last text. -/
def disjunction (r : Row) : (depth : Nat) → Lexeme → Evaluation Bool
  | 0, _ => return false
  | depth + 1, found => do
    let first ← conjunction r depth found
    if r.lexeme ((← get) + 1) = .or then
      let second ← disjunction r depth (← step r 2)
      return first || second
    return first

/-- Conditions that all have to hold. -/
def conjunction (r : Row) : (depth : Nat) → Lexeme → Evaluation Bool
  | 0, _ => return false
  | depth + 1, found => do
    let first ← negation r depth found
    if r.lexeme ((← get) + 1) = .and then
      let second ← conjunction r depth (← step r 2)
      return first && second
    return first

/-- A condition that may be negated. -/
def negation (r : Row) : (depth : Nat) → Lexeme → Evaluation Bool
  | 0, _ => return false
  | depth + 1, found => do
    match found with
    | .not =>
      let next := r.lexeme ((← get) + 1)
      if next ≠ .nothing then modify (· + 1)
      return !(← negation r depth next)
    | found => primary r depth found

/-- A condition in parentheses, a question, a comparison, or a text that must not be empty. -/
def primary (r : Row) : (depth : Nat) → Lexeme → Evaluation Bool
  | 0, _ => return false
  | depth + 1, found => do
    match found with
    | .nothing => return false
    | .opening =>
      let next ← step r 1
      if next = .closing then return false
      let value ← disjunction r depth next
      if (← step r 1) ≠ .closing then throw "closing paren expected"
      return value
    | .unary operator =>
      modify (· + 1)
      match r.texts[(← get)]? with
      | none => argumentExpected operator
      | some text => StateT.lift (ask r.standing operator text)
    | _ =>
      let first := r.texts.getD (← get) ""
      match r.lexeme ((← get) + 1) with
      | .binary operator =>
        modify (· + 2)
        match r.texts[(← get)]? with
        | none => argumentExpected operator
        | some second => StateT.lift (compare r.standing operator first second)
      | _ => return first ≠ ""

end

/-- Evaluates a whole row, given what its first text is. Two texts that are left are too many. -/
def whole (standing : Standing) (texts : List String) (asOperand : Bool) : Except String Bool := do
  let r : Row := ⟨texts.toArray, standing⟩
  let first := if asOperand then .operand else r.lexeme 0
  let (value, last) ← (disjunction r (8 * (texts.length + 2)) first).run 0
  match r.texts[last]?, r.texts[last + 1]? with
  | some text, some _ =>
    throw ((if text = "" then "" else text ++ ": ") ++ "unexpected operator")
  | _, _ => return value

/-- Evaluates three texts. Between two texts an operator is one whatever the texts are, and
parentheses and a negation around few texts count first. Where the three are `negated` already, a
negation before them says nothing new. -/
def evaluateThree (standing : Standing) (negated : Bool) (first operator second : String) :
    Except String Bool :=
  let value (negated : Bool) (texts : List String) (asOperand : Bool) : Except String Bool :=
    (whole standing texts asOperand).map (· != negated)
  match lexemeOf operator with
  | .binary _ => value negated [first, operator, second] true
  | _ =>
    if first = "(" ∧ second = ")" then value negated [operator] false
    else if first = "!" then value true [operator, second] false
    else value negated [first, operator, second] false

/-- Evaluates a condition. Short ones are read in a way of their own. -/
def evaluate (standing : Standing) : List String → Except String Bool
  | [] => .ok false
  | [first, operator, second] => evaluateThree standing false first operator second
  | [first, second, third, last] =>
    if first = "(" ∧ last = ")" then whole standing [second, third] false
    else if first = "!" then evaluateThree standing true second third last
    else whole standing [first, second, third, last] false
  | texts => whole standing texts false

end Condition
end Script
end CommandShell
