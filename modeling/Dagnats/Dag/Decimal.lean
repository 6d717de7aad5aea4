import Mathlib.Algebra.Order.Floor.Semiring
import Mathlib.Data.Nat.Log
import Mathlib.Data.Rat.Floor

/-!
# The text of a float64

`strconv.FormatFloat(x, 'g', -1, 64)`, which `%v` prints. A float64 other than zero is
`f * 2 ^ k` with a significand `f < 2 ^ 53`, given here by its value. Its digits are
the fewest that read back as the same float64, and among those the nearest.
-/

namespace Dagnats

/-- `b ^ z`. -/
def ratPow (b : ℕ) : ℤ → ℚ
  | .ofNat n => (b ^ n : ℕ)
  | .negSucc n => mkRat 1 (b ^ (n + 1))

/-- The largest `z` with `b ^ z ≤ q`, for `q` greater than zero. -/
def floorLog (b : ℕ) (q : ℚ) : ℤ :=
  let z : ℤ := Nat.log b q.num.toNat - Nat.log b q.den
  if ratPow b z ≤ q then z else z - 1

/-- The exponent `k` of the float64 `q`; it is the same for all that are subnormal. -/
def binaryExponent (q : ℚ) : ℤ :=
  max (floorLog 2 q - 52) (-1074)

/-- The decimal `x` is read as the float64 `q`: it is at most half the way to the next
one, and halves go to an even significand. Below a power of two the gap is half as
wide. -/
def readsAs (q x : ℚ) : Bool :=
  let gap := ratPow 2 (binaryExponent q)
  let f := q / gap
  let below := if f = 2 ^ 52 ∧ -1074 < binaryExponent q then gap / 4 else gap / 2
  if f.num % 2 = 0 then decide (q - below ≤ x ∧ x ≤ q + gap / 2)
  else decide (q - below < x ∧ x < q + gap / 2)

/-- The nearest decimal with `n` digits that is read as `q`: its digits as a number. -/
def digitsWithin (q : ℚ) (n : ℕ) : Option ℕ :=
  let unit := ratPow 10 (floorLog 10 q - (n - 1))
  let low := ⌊q / unit⌋.toNat
  match readsAs q (low * unit), readsAs q ((low + 1 : ℕ) * unit) with
  | true, true =>
    let rest := q / unit - low
    some (if rest < 1 / 2 ∨ (rest = 1 / 2 ∧ low % 2 = 0) then low else low + 1)
  | true, false => some low
  | false, true => some (low + 1)
  | false, false => none

/-- The digits of `q`, and the exponent of the first of them. -/
def shortestDecimal (q : ℚ) : List Char × ℤ :=
  match (List.range 17).findSome? fun n => (digitsWithin q (n + 1)).map (n + 1, ·) with
  | some (n, digits) =>
    let text := (toString digits).toList
    -- nines that were rounded up have one digit more
    ((text.reverse.dropWhile (· = '0')).reverse, floorLog 10 q + (text.length - n))
  | none => ([], 0)

/-- With an exponent of at least two digits where it is below -4 or above 5. -/
def formatPositive (q : ℚ) : String :=
  let (digits, exponent) := shortestDecimal q
  let fraction : List Char → List Char := fun ds => if ds.isEmpty then [] else '.' :: ds
  String.ofList <|
    if exponent < -4 ∨ 6 ≤ exponent then
      let size := (toString exponent.natAbs).toList
      digits.take 1 ++ fraction (digits.drop 1) ++ ['e', if exponent < 0 then '-' else '+'] ++
        List.replicate (2 - size.length) '0' ++ size
    else if exponent < 0 then
      '0' :: '.' :: (List.replicate (exponent.natAbs - 1) '0' ++ digits)
    else
      let whole := exponent.toNat + 1
      digits.take whole ++ List.replicate (whole - digits.length) '0' ++
        fraction (digits.drop whole)

/-- The sign of a zero is not part of the value. -/
def formatFloat (q : ℚ) : String :=
  if q = 0 then "0" else if q < 0 then "-" ++ formatPositive (-q) else formatPositive q

end Dagnats
