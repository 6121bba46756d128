import CommandShell.Text.Numeral

/-!
# Permissions of new files

The permissions that new files do not get are a number of three octal digits, for the owner, the
group and the others. It can be given as such a number, or by letters that change the permissions
that are left.
-/

namespace CommandShell
namespace Script
namespace Permissions

/-- All permissions. -/
def all : Nat := 0o777

/-- The digit of the owner, the group or the others is multiplied with this to get it to its
place. -/
def placeOf? : Char → Option Nat
  | 'u' => some 0o100
  | 'g' => some 0o010
  | 'o' => some 0o001
  | 'a' => some 0o111
  | _ => none

/-- What a letter after an operator stands for, when `left` are the permissions that are left. -/
def digitOf? (left : Nat) : Char → Option Nat
  | 'r' => some 4
  | 'w' => some 2
  | 'x' => some 1
  | 'u' => some (left / 0o100 % 8)
  | 'g' => some (left / 0o010 % 8)
  | 'o' => some (left % 8)
  | 'X' => some (if left &&& 0o111 = 0 then 0 else 1)
  | 's' => some 0
  | _ => none

/-- Permissions without some of them. -/
def without (permissions taken : Nat) : Nat := permissions ^^^ (permissions &&& taken)

/-- The permissions that letters leave, from `now`; `left` are those at the start and `places`
the places that a clause has named so far. At most `most` operators are read. -/
def changed? (left : Nat) : (most : Nat) → (now places : Nat) → List Char → Option Nat
  | 0, _, _, _ => none
  | _, now, _, [] => some now
  | most + 1, now, places, chars =>
    let named := (chars.takeWhile fun c => (placeOf? c).isSome).filterMap placeOf?
    let places := named.foldl (· ||| ·) places
    let places := if places = 0 then 0o111 else places
    let apply (operator : Char) (rest : List Char) : Option Nat :=
      let digits := (rest.takeWhile fun c => (digitOf? left c).isSome).filterMap (digitOf? left)
      let value := digits.foldl (· ||| ·) 0 * places
      let next := match operator with
        | '-' => without now value
        | '=' => without now (places * 7) ||| value
        | _ => now ||| value
      match rest.dropWhile fun c => (digitOf? left c).isSome with
      | ',' :: rest => changed? left most next 0 rest
      | c :: rest =>
        if c = '=' ∨ c = '+' ∨ c = '-' then changed? left most next places (c :: rest) else none
      | [] => some next
    match chars.dropWhile fun c => (placeOf? c).isSome with
    | [] => some now
    | c :: rest => if c = '=' ∨ c = '+' ∨ c = '-' then apply c rest else none

/-- The permissions that new files do not get after a change by letters. -/
def maskAfter? (mask : Nat) (letters : List Char) : Option Nat :=
  let left := without all mask
  (changed? left (letters.length + 1) left 0 letters).map (without all)

/-- An octal number with four digits. -/
def toDigits (mask : Nat) : String :=
  String.ofList ([0o1000, 0o100, 0o10, 1].map fun place => Nat.digitChar (mask / place % 8))

/-- The permissions that are left, in letters. -/
def toLetters (mask : Nat) : String :=
  let left := without all mask
  let clause (who : String) (digit : Nat) : String :=
    let letters := [('r', 4), ('w', 2), ('x', 1)].filter fun entry => digit &&& entry.2 != 0
    who ++ "=" ++ String.ofList (letters.map Prod.fst)
  String.intercalate ","
    [clause "u" (left / 0o100 % 8), clause "g" (left / 0o010 % 8), clause "o" (left % 8)]

end Permissions
end Script
end CommandShell
