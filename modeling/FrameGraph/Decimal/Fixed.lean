import FrameGraph.Decimal.Binary64

/-!
# Decimals with fixed places

A number written with a fixed number of decimal places, rounded from its exact value, to the even
last digit on an exact tie.
-/

namespace FrameGraph

/-- The non-negative fraction `num / den` with the given number of places. -/
def fixedPlaces (places num den : Nat) : List Char :=
  let scaled := roundDiv (num * Nat.pow 10 places) den
  let digits := Nat.toDigits 10 scaled
  let padded := List.replicate (places + 1 - digits.length) '0' ++ digits
  padded.take (padded.length - places) ++ '.' :: padded.drop (padded.length - places)

namespace Binary64

/-- The text of a number with the given number of places. The sign of a negative number stays also
where every digit shown is zero. -/
def fixedText (places : Nat) : Binary64 → String
  | .nan => "nan"
  | .infinite neg => if neg then "-inf" else "inf"
  | .finite neg m e =>
    let (num, den) := scaleBy m 1 (-e)
    let body := fixedPlaces places num den
    String.ofList (if neg then '-' :: body else body)

end Binary64

end FrameGraph
