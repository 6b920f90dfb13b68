/-!
# Rounding quotients to the nearest integer

`divHalfEven` divides two natural numbers and rounds to the nearest integer, a tie going to the
even neighbour. Reading a decimal into a binary number and printing a number with a fixed count of
decimal places are both this one division, at different scales; `tenTo` gives the decimal ones.
-/

namespace Barrage

/-- The power of ten that scales a number to `n` decimal places. -/
def tenTo (n : Nat) : Nat := Nat.pow 10 n

/-- The integer nearest to `num / den`; halfway between two integers, the even one. -/
def divHalfEven (num den : Nat) : Nat :=
  let quotient := num / den
  let remainder := num % den
  if 2 * remainder < den then quotient
  else if den < 2 * remainder then quotient + 1
  else quotient + quotient % 2

end Barrage
