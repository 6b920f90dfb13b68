import Barrage.Json

/-!
# Writing JSON text

The text of a value on one line, without blanks. Quotes, backslashes and control characters are
escaped; how a scalar is written is left to the caller.
-/

namespace Barrage.Json

variable {K : Type}

/-- The digits of a natural number in hexadecimal, padded with zeros on the left. -/
def hexDigits (width n : Nat) : List Char :=
  let digits := Nat.toDigits 16 n
  List.replicate (width - digits.length) '0' ++ digits

/-- A character inside quotes. -/
def escapeChar (c : Char) : List Char :=
  if c = '"' ∨ c = '\\' then ['\\', c]
  else if c.toNat < 0x20 then '\\' :: 'u' :: hexDigits 4 c.toNat
  else [c]

/-- A text in quotes. -/
def quote (s : String) : String :=
  String.ofList ('"' :: s.toList.flatMap escapeChar ++ ['"'])

mutual

/-- The text of a value. -/
def print (scalar : K → String) : Json K → String
  | .null => "null"
  | .bool b => if b then "true" else "false"
  | .int i => toString i
  | .real x => scalar x
  | .str s => quote s
  | .arr items => "[" ++ ",".intercalate (printItems scalar items) ++ "]"
  | .obj members => "\x7b" ++ ",".intercalate (printMembers scalar members) ++ "\x7d"

/-- The texts of the items of a list. -/
def printItems (scalar : K → String) : List (Json K) → List String
  | [] => []
  | j :: rest => print scalar j :: printItems scalar rest

/-- The texts of the members of an object. -/
def printMembers (scalar : K → String) : List (String × Json K) → List String
  | [] => []
  | (key, j) :: rest => (quote key ++ ":" ++ print scalar j) :: printMembers scalar rest

end

end Barrage.Json
