import Barrage.Json
import Barrage.Number.Numeral

/-!
# Reading JSON text

The grammar of RFC 8259 and nothing beside it: blanks are space, tab, line feed and carriage
return; control characters in texts have to be escaped, and escapes of surrogates come in pairs;
numbers have no leading zeros; nothing but blanks follows the value. Values may be nested
`maxDepth` deep.

Which scalar a number is, is for the caller to say: `parse?` is given a reading of numerals. Whole
numbers that fit sixty-four bits are integers under every reading.

A reader takes a list of characters and gives what it read with the characters that are left, or
nothing. Lists and objects are read by one loop, `items`, over a reader of one item; its fuel is
the length of the whole text, which is more than it can use. The reader of values recurses on the
depth that is left.
-/

namespace Barrage.Json

variable {K : Type}

/-- Reads something from the front of a text. -/
abbrev Reader (α : Type) := List Char → Option (α × List Char)

/-- How deep lists and objects may be nested. -/
def maxDepth : Nat := 127

/-- The four characters that may stand between tokens. -/
def isBlank (c : Char) : Bool := c == ' ' || c == '\t' || c == '\n' || c == '\r'

/-- A text without the blanks at its front. -/
def skipBlanks (cs : List Char) : List Char := cs.dropWhile isBlank

/-- The value of a hexadecimal digit of either case. -/
def hexValue? (c : Char) : Option Nat :=
  if c.isDigit then some (c.toNat - '0'.toNat)
  else if 'a' ≤ c ∧ c ≤ 'f' then some (c.toNat - 'a'.toNat + 10)
  else if 'A' ≤ c ∧ c ≤ 'F' then some (c.toNat - 'A'.toNat + 10)
  else none

/-- Four hexadecimal digits as a number. -/
def unit? (a b c d : Char) : Option Nat := do
  let a ← hexValue? a
  let b ← hexValue? b
  let c ← hexValue? c
  let d ← hexValue? d
  return ((a * 16 + b) * 16 + c) * 16 + d

/-- First half of a surrogate pair. -/
def isHighSurrogate (u : Nat) : Bool := 0xD800 ≤ u && u < 0xDC00

/-- Second half of a surrogate pair. -/
def isLowSurrogate (u : Nat) : Bool := 0xDC00 ≤ u && u < 0xE000

/-- The character of an escape of one letter. -/
def escaped? : Char → Option Char
  | '"' => some '"'
  | '\\' => some '\\'
  | '/' => some '/'
  | 'b' => some '\x08'
  | 'f' => some '\x0c'
  | 'n' => some '\n'
  | 'r' => some '\r'
  | 't' => some '\t'
  | _ => none

/-- Reads the rest of a text up to its closing quote; `done` are the characters so far, the last one
in front. -/
def textRest (done : List Char) : Reader String
  | [] => none
  | '"' :: rest => some (String.ofList done.reverse, rest)
  | '\\' :: 'u' :: a :: b :: c :: d :: rest =>
    match unit? a b c d with
    | none => none
    | some u =>
      if isLowSurrogate u then none
      else if isHighSurrogate u then
        match rest with
        | '\\' :: 'u' :: a :: b :: c :: d :: rest =>
          match unit? a b c d with
          | none => none
          | some v =>
            if isLowSurrogate v then
              let code := 0x10000 + (u - 0xD800) * 1024 + (v - 0xDC00)
              textRest (Char.ofNat code :: done) rest
            else none
        | _ => none
      else textRest (Char.ofNat u :: done) rest
  | '\\' :: c :: rest =>
    match escaped? c with
    | none => none
    | some e => textRest (e :: done) rest
  | c :: rest => if c.toNat < 0x20 ∨ c = '\\' then none else textRest (c :: done) rest

/-- The digits at the front of a text, at least one. -/
def digits1 (cs : List Char) : Option (List Char × List Char) :=
  match cs.span Char.isDigit with
  | ([], _) => none
  | found => some found

/-- The digits of a whole part: a zero stands alone. -/
def wholePart (cs : List Char) : Option (List Char × List Char) :=
  match cs with
  | '0' :: rest => if (rest.head?.map Char.isDigit).getD false then none else some (['0'], rest)
  | _ => digits1 cs

/-- A point with the digits behind it, if there is one. -/
def fractionPart : List Char → Option (Option (List Char) × List Char)
  | '.' :: rest => (digits1 rest).map fun (ds, rest) => (some ds, rest)
  | cs => some (none, cs)

/-- The digits of an exponent behind its letter. -/
def exponentDigits : List Char → Option (Int × List Char)
  | '-' :: rest => (digits1 rest).map fun (ds, rest) => (-(digitsValue ds : Int), rest)
  | '+' :: rest => (digits1 rest).map fun (ds, rest) => ((digitsValue ds : Int), rest)
  | cs => (digits1 cs).map fun (ds, rest) => ((digitsValue ds : Int), rest)

/-- An exponent, if there is one. -/
def exponentPart : List Char → Option (Option Int × List Char)
  | 'e' :: rest => (exponentDigits rest).map fun (e, rest) => (some e, rest)
  | 'E' :: rest => (exponentDigits rest).map fun (e, rest) => (some e, rest)
  | cs => some (none, cs)

/-- The value of a numeral. A whole number is an integer, if it fits and is not a negative zero; for
any other, `real?` says which scalar it is. -/
def ofNumeral? (real? : Numeral → Option K) (n : Numeral) : Option (Json K) :=
  let digits := digitsValue n.whole
  if n.isWhole && n.negative && digits != 0 && digits ≤ 0x8000000000000000 then
    some (.int (-(digits : Int)))
  else if n.isWhole && !n.negative && digits < 0x10000000000000000 then some (.int digits)
  else (real? n).map .real

/-- Reads a numeral. -/
def numeral : Reader Numeral := fun cs => do
  let (negative, cs) := match cs with
    | '-' :: rest => (true, rest)
    | cs => (false, cs)
  let (whole, cs) ← wholePart cs
  let (places, cs) ← fractionPart cs
  let (exponent, cs) ← exponentPart cs
  return ({ negative, whole, places, exponent }, cs)

/-- Reads a number. -/
def number (real? : Numeral → Option K) : Reader (Json K) := fun cs => do
  let (n, cs) ← numeral cs
  return (← ofNumeral? real? n, cs)

/-- Reads items with commas between them, up to a closing character. -/
def items {α : Type} (item : Reader α) (close : Char) : Nat → List α → Reader (List α)
  | 0, _, _ => none
  | fuel + 1, done, cs =>
    match item cs with
    | none => none
    | some (a, cs) =>
      match skipBlanks cs with
      | ',' :: cs => items item close fuel (a :: done) cs
      | c :: cs => if c = close then some ((a :: done).reverse, cs) else none
      | [] => none

/-- Reads items up to a closing character; there may be none. -/
def itemsOrNone {α : Type} (item : Reader α) (close : Char) (fuel : Nat) : Reader (List α) :=
  fun cs => match skipBlanks cs with
    | [] => none
    | c :: rest => if c = close then some ([], rest) else items item close fuel [] (c :: rest)

/-- Reads a key, a colon and a value. -/
def member (value : Reader (Json K)) : Reader (String × Json K) := fun cs =>
  match skipBlanks cs with
  | '"' :: cs => do
    let (key, cs) ← textRest [] cs
    match skipBlanks cs with
    | ':' :: cs =>
      let (v, cs) ← value cs
      return ((key, v), cs)
    | _ => none
  | _ => none

/-- Reads a value that starts with none of the brackets. -/
def atom (real? : Numeral → Option K) : Reader (Json K)
  | 'n' :: 'u' :: 'l' :: 'l' :: cs => some (.null, cs)
  | 't' :: 'r' :: 'u' :: 'e' :: cs => some (.bool true, cs)
  | 'f' :: 'a' :: 'l' :: 's' :: 'e' :: cs => some (.bool false, cs)
  | '"' :: cs => (textRest [] cs).map fun (s, cs) => (.str s, cs)
  | cs => number real? cs

/-- Reads a value nested at most `depth` deep. -/
def value (real? : Numeral → Option K) (fuel : Nat) : (depth : Nat) → Reader (Json K)
  | 0, cs => atom real? (skipBlanks cs)
  | depth + 1, cs =>
    match skipBlanks cs with
    | '[' :: cs =>
      (itemsOrNone (value real? fuel depth) ']' fuel cs).map fun (vs, cs) => (.arr vs, cs)
    | '\x7b' :: cs =>
      (itemsOrNone (member (value real? fuel depth)) '\x7d' fuel cs).map fun (ms, cs) =>
        (ofMembers ms, cs)
    | cs => atom real? cs

/-- The value that a text stands for. `real?` says which scalar a numeral is, if it is in range. -/
def parse? (real? : Numeral → Option K) (text : String) : Option (Json K) :=
  let cs := text.toList
  match value real? cs.length maxDepth cs with
  | some (v, rest) => if skipBlanks rest = [] then some v else none
  | none => none

end Barrage.Json
