import Barrage.Number.Binary64

/-!
# Numbers with a fixed count of decimal places

A binary64 number has an exact decimal expansion. `Fixed.text` cuts it after a given count of
places, rounding half to even, and writes the digits with the sign in front; a negative zero, or a
negative number that rounds to zero, keeps its sign.
-/

namespace Barrage.Fixed

/-- The digits of a natural number, padded with zeros on the left to `width` of them. -/
def padded (width n : Nat) : String :=
  let digits := toString n
  String.ofList (List.replicate (width - digits.length) '0') ++ digits

/-- A number of units of the last place, with the point in front of its last `places` digits. -/
def point (places units : Nat) : String :=
  let whole := toString (units / tenTo places)
  if places = 0 then whole else whole ++ "." ++ padded places (units % tenTo places)

/-- The number of units of the last place that is nearest to the magnitude `m * 2 ^ q`. -/
def units (places m : Nat) (q : Int) : Nat :=
  if 0 ≤ q then (m <<< q.toNat) * tenTo places
  else divHalfEven (m * tenTo places) (1 <<< (-q).toNat)

/-- A number with `places` decimal places. -/
def text (places : Nat) (x : Binary64) : String :=
  let sign := if x.isNegative then "-" else ""
  if x.isNaN then "NaN"
  else match x.magnitude? with
    | none => sign ++ "inf"
    | some (m, q) => sign ++ point places (units places m q)

end Barrage.Fixed
