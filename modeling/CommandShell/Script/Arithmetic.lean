import CommandShell.Script.Syntax
import CommandShell.Text.Numeral

/-!
# Arithmetic in scripts

Expressions over integers of 64 bits with variables. An expression is evaluated while it is read,
so of several mistakes in it the one that comes first is reported. Assignments are kept beside the
value and are made afterwards.
-/

namespace CommandShell
namespace Script
namespace Arithmetic

/-! ## Elements of expressions -/

/-- An element of an expression. -/
inductive Lexeme where
  | number (value : Int)
  | name (text : String)
  | operator (text : String)
  /-- A character that belongs to no expression. -/
  | bad
deriving DecidableEq

/-- The operators, of which the longest that fits is read. -/
def operators : List String :=
  ["<<=", ">>=", "==", "!=", "<=", ">=", "<<", ">>", "&&", "||", "+=", "-=", "*=", "/=", "%=",
    "&=", "^=", "|=", "=", "<", ">", "!", "&", "|", "+", "-", "*", "/", "%", "^", "~", "?", ":",
    "(", ")"]

/-- The end of the range of the integers. -/
def rangeEnd : Nat := Nat.pow 2 63

/-- Cuts at most `most` elements from the start of an expression. -/
def cut : (most : Nat) → List Char → List Lexeme
  | 0, _ => []
  | _, [] => []
  | most + 1, c :: rest =>
    if c = ' ' ∨ c = '\t' ∨ c = '\n' then cut most rest
    else if c.isDigit then
      let (value, _, rest) := Numeral.takeMagnitude (c :: rest)
      .number (min value (rangeEnd - 1) : Nat) :: cut most rest
    else if Word.beginsName c then
      let name := c :: rest.takeWhile Word.isInName
      .name (String.ofList name) :: cut most (rest.dropWhile Word.isInName)
    else match operators.find? fun text => text.toList.isPrefixOf (c :: rest) with
      | some text => .operator text :: cut most ((c :: rest).drop text.length)
      | none => [.bad]

/-! ## Operations -/

/-- An integer in the range, by its last 64 bits. -/
def wrap (value : Int) : Int := Int.bmod value (Nat.pow 2 64)

/-- How loosely an operator between two values binds them. -/
def looseness? : String → Option Nat
  | "*" | "/" | "%" => some 0
  | "+" | "-" => some 1
  | "<<" | ">>" => some 2
  | "<" | "<=" | ">" | ">=" => some 3
  | "==" | "!=" => some 4
  | "&" => some 5
  | "^" => some 6
  | "|" => some 7
  | _ => none

/-- More than the looseness of any operator. -/
def loosest : Nat := 8

/-- The value of a truth. -/
def ofBool (b : Bool) : Int := if b then 1 else 0

/-- An operation on the bits of two integers. -/
def onBits (operation : Nat → Nat → Nat) (a b : Int) : Int :=
  let bits (value : Int) : Nat := (value % (Nat.pow 2 64 : Nat)).toNat
  wrap (operation (bits a) (bits b))

/-- How far a shift goes. -/
def shiftBy (b : Int) : Nat := (b % 64).toNat

/-- The value of an operator between two values, if there is one. -/
def operate (operator : String) (a b : Int) : Except String Int :=
  match operator with
  | "*" => .ok (wrap (a * b))
  | "/" => if b = 0 then .error "division by zero" else .ok (wrap (Int.tdiv a b))
  | "%" => if b = 0 then .error "division by zero" else .ok (wrap (Int.tmod a b))
  | "+" => .ok (wrap (a + b))
  | "-" => .ok (wrap (a - b))
  | "<<" => .ok (wrap (a * (Nat.pow 2 (shiftBy b) : Nat)))
  | ">>" => .ok (Int.fdiv a (Nat.pow 2 (shiftBy b) : Nat))
  | "<" => .ok (ofBool (a < b))
  | "<=" => .ok (ofBool (a ≤ b))
  | ">" => .ok (ofBool (b < a))
  | ">=" => .ok (ofBool (b ≤ a))
  | "==" => .ok (ofBool (a = b))
  | "!=" => .ok (ofBool (a ≠ b))
  | "&" => .ok (onBits Nat.land a b)
  | "^" => .ok (onBits Nat.xor a b)
  | _ => .ok (onBits Nat.lor a b)

/-! ## Evaluation -/

/-- Why an expression has no value. -/
inductive Failure where
  /-- The expression is at fault. -/
  | expression (reason : String)
  /-- The value of a variable is no number. -/
  | value (text : String)

/-- Reads the value of a variable as a number. An empty one is zero. -/
def ofValue (text : String) : Except Failure Int :=
  let trimmed := (text.toList.reverse.dropWhile Numeral.isBlank).reverse
  match Numeral.readInteger (String.ofList trimmed) with
  | (value, .whole) =>
    if -(rangeEnd : Int) ≤ value ∧ value < rangeEnd then .ok value else .error (.value text)
  | _ => .error (.value text)

/-- What is left of the expression, and the variables that were given values, the last first. -/
structure State where
  rest : List Lexeme
  assigned : List (String × Int)

/-- A step of an evaluation. -/
abbrev Evaluation := StateT State (Except Failure)

/-- The expression has no value for a reason. -/
def failFor {α : Type} (reason : String) : Evaluation α := throw (.expression reason)

/-- The next element. -/
def peek : Evaluation (Option Lexeme) := do return (← get).rest.head?

/-- Goes over the next element. -/
def advance : Evaluation Unit := modify fun s => { s with rest := s.rest.drop 1 }

/-- The next element is this operator; then goes over it. -/
def takes (operator : String) : Evaluation Bool := do
  if (← peek) = some (.operator operator) then
    advance
    return true
  return false

/-- The value of a variable. -/
def look (values : String → String) (name : String) : Evaluation Int := do
  match (← get).assigned.lookup name with
  | some value => return value
  | none => StateT.lift (ofValue (values name))

/-- Gives a variable a value. -/
def assign (name : String) (value : Int) : Evaluation Int := do
  modify fun s => { s with assigned := (name, value) :: s.assigned }
  return value

/-- The operator of an assignment; without one the value is assigned as it is. -/
def assignment? : Lexeme → Option (Option String)
  | .operator "=" => some none
  | .operator text =>
    let operator := String.ofList text.toList.dropLast
    if text.toList.getLast? = some '=' ∧ text.length ≠ 1
        ∧ ["*", "/", "%", "+", "-", "<<", ">>", "&", "^", "|"].contains operator then
      some (some operator)
    else none
  | _ => none

mutual

/-- Evaluates an expression with assignments. If `idle` says so it is only read, and has no
effects. -/
def evaluate (values : String → String) : (depth : Nat) → (idle : Bool) → Evaluation Int
  | 0, _ => failFor "expecting primary"
  | depth + 1, idle => do
    match (← get).rest with
    | .name name :: next :: rest =>
      match assignment? next with
      | some operator? =>
        set { (← get) with rest }
        let value ← evaluate values depth idle
        if idle then return value
        match operator? with
        | none => assign name value
        | some operator =>
          match operate operator (← look values name) value with
          | .ok value => assign name value
          | .error reason => failFor reason
      | none => conditional values depth idle
    | _ => conditional values depth idle

/-- Evaluates an expression with a choice between two. -/
def conditional (values : String → String) : (depth : Nat) → (idle : Bool) → Evaluation Int
  | 0, _ => failFor "expecting primary"
  | depth + 1, idle => do
    let condition ← disjunction values depth idle
    if ← takes "?" then
      let first ← evaluate values depth (idle || condition = 0)
      if !(← takes ":") then failFor "expecting ':'"
      let second ← conditional values depth (idle || condition ≠ 0)
      return if condition ≠ 0 then first else second
    return condition

/-- Evaluates conditions of which one has to hold. -/
def disjunction (values : String → String) : (depth : Nat) → (idle : Bool) → Evaluation Int
  | 0, _ => failFor "expecting primary"
  | depth + 1, idle => do
    let first ← conjunction values depth idle
    if ← takes "||" then
      let second ← disjunction values depth (idle || first ≠ 0)
      return ofBool (first ≠ 0 || second ≠ 0)
    return first

/-- Evaluates conditions that all have to hold. -/
def conjunction (values : String → String) : (depth : Nat) → (idle : Bool) → Evaluation Int
  | 0, _ => failFor "expecting primary"
  | depth + 1, idle => do
    let first ← chain values depth idle loosest (← primary values depth idle)
    if ← takes "&&" then
      let second ← conjunction values depth (idle || first = 0)
      return ofBool (first ≠ 0 && second ≠ 0)
    return first

/-- Goes on after a value with operators that bind more tightly than `limit`. -/
def chain (values : String → String) :
    (depth : Nat) → (idle : Bool) → (limit : Nat) → (first : Int) → Evaluation Int
  | 0, _, _, _ => failFor "expecting primary"
  | depth + 1, idle, limit, first => do
    match ← peek with
    | some (.operator operator) =>
      match (looseness? operator).filter (· < limit) with
      | none => return first
      | some looseness =>
        advance
        let second ← chain values depth idle looseness (← primary values depth idle)
        match if idle then .ok second else operate operator first second with
        | .ok value => chain values depth idle limit value
        | .error reason => failFor reason
    | _ => return first

/-- Evaluates a number, a variable, an expression in parentheses, or one of these after a sign. -/
def primary (values : String → String) : (depth : Nat) → (idle : Bool) → Evaluation Int
  | 0, _ => failFor "expecting primary"
  | depth + 1, idle => do
    match ← peek with
    | some (.number value) =>
      advance
      return value
    | some (.name name) =>
      advance
      if idle then return 0
      look values name
    | some (.operator "(") =>
      advance
      let value ← evaluate values depth idle
      if !(← takes ")") then failFor "expecting ')'"
      return value
    | some (.operator "+") =>
      advance
      primary values depth idle
    | some (.operator "-") =>
      advance
      return wrap (-(← primary values depth idle))
    | some (.operator "!") =>
      advance
      return ofBool ((← primary values depth idle) = 0)
    | some (.operator "~") =>
      advance
      return -(← primary values depth idle) - 1
    | _ => failFor "expecting primary"

end

/-- The value of an expression, and the variables that it gives values, the first one first. -/
structure Result where
  value : Int
  assigned : List (String × Int)

/-- Evaluates a whole expression, given the values of variables. -/
def run (values : String → String) (expression : List Char) : Except Failure Result :=
  let lexemes := cut expression.length expression
  let depth := 8 * (lexemes.length + 2)
  let whole : Evaluation Int := do
    let value ← evaluate values depth false
    if (← get).rest.isEmpty then return value
    failFor "expecting EOF"
  match whole ⟨lexemes, []⟩ with
  | .ok (value, s) => .ok ⟨value, s.assigned.reverse⟩
  | .error f => .error f

end Arithmetic
end Script
end CommandShell
