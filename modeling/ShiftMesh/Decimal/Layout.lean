import ShiftMesh.Decimal.Shortest

/-!
# ShiftMesh.Decimal.Layout — the text of a double

A `Layout` holds the decisions of a format: which exponents are written positionally, whether whole
values keep a point, which way ties go, and the words for values that are no numbers.

* `Layout.render`: the text of a double in a layout.
* `Layout.plain`: every value positionally, whole values without a point.
* `Layout.document`: positional from `10^-5` up to `10^16` with at least one fraction digit, a
  signed exponent beyond, and no word for values that are not finite but `null`.
-/

namespace ShiftMesh.Decimal

/-- The decisions of a number format. -/
structure Layout where
  /-- Which of two shortest candidates is taken. -/
  tie : Tie
  /-- The exponents of the leading digit that are written positionally. -/
  positional : Int → Bool
  /-- The fraction of a positional value that is whole. -/
  wholeFraction : String
  /-- The text of a value that is no number. -/
  nan : String
  /-- The text of an infinity, by its sign. -/
  infinite : Bool → String

namespace Layout

/-- A run of zeros. -/
def zeros (n : Nat) : List Char := List.replicate n '0'

/-- The significant digits of a decimal: its digits without the zeros at the end. -/
def significant (d : Digits) : List Char × Int :=
  let written := Nat.toDigits 10 d.digits
  let kept := (written.reverse.dropWhile (· == '0')).reverse
  (kept, d.exponent + (written.length - kept.length : Nat))

/-- A decimal point before the fraction. -/
def withPoint (whole fraction : List Char) : List Char := whole ++ '.' :: fraction

/-- Significant digits written positionally, where the leading one stands for `10^leading`. -/
def positionalText (wholeFraction : String) (ds : List Char) (leading : Int) : List Char :=
  if leading < 0 then withPoint ['0'] (zeros (-leading - 1).toNat ++ ds)
  else
    let wholeDigits := leading.toNat + 1
    if ds.length ≤ wholeDigits then ds ++ zeros (wholeDigits - ds.length) ++ wholeFraction.toList
    else withPoint (ds.take wholeDigits) (ds.drop wholeDigits)

/-- Significant digits written with an exponent. -/
def exponentText (ds : List Char) (leading : Int) : List Char :=
  let mantissa := match ds with
    | [] => []
    | [d] => [d]
    | d :: rest => withPoint [d] rest
  mantissa ++ 'e' :: (if leading < 0 then '-' else '+') :: Nat.toDigits 10 leading.natAbs

/-- The text of a positive decimal. -/
def digitsText (l : Layout) (d : Digits) : List Char :=
  let (ds, exponent) := significant d
  let leading := exponent + ds.length - 1
  if l.positional leading then positionalText l.wholeFraction ds leading
  else exponentText ds leading

/-- The text of a double. -/
def render (l : Layout) (x : Float) : String :=
  match Binary.ofFloat x with
  | .nan => l.nan
  | .infinite negative => l.infinite negative
  | .finite negative m q =>
    let magnitude :=
      if m = 0 then '0' :: l.wholeFraction.toList else l.digitsText (shortest l.tie m q)
    String.ofList (if negative then '-' :: magnitude else magnitude)

/-- Every value positionally and whole values without a point. -/
def plain : Layout where
  tie := .up
  positional _ := true
  wholeFraction := ""
  nan := "NaN"
  infinite negative := if negative then "-inf" else "inf"

/-- Positional from `10^-5` up to `10^16` with at least one fraction digit, and a signed exponent
beyond. -/
def document : Layout where
  tie := .toEven
  positional e := decide (-5 ≤ e) && decide (e < 16)
  wholeFraction := ".0"
  nan := "null"
  infinite _ := "null"

end Layout

end ShiftMesh.Decimal
