import ShiftMesh.Decimal.Binary

/-!
# ShiftMesh.Decimal.Shortest — the fewest digits that read back as a double

The decimals that round to the double `m · 2^q` fill an interval around it, with its ends if `m` is
even.  On the grid of the decimals with `n` digits the only candidates are the two neighbours of the
value.

* `Interval`: the value and the two ends, over a common denominator.
* `Interval.candidate?`: the neighbour on a grid that lies in the interval; of two the nearer, of
  two at equal distance the one that `Tie` names.
* `shortest`: the candidate on the coarsest grid that has one, tried for one digit, two digits, up
  to 17.
-/

namespace ShiftMesh.Decimal

/-- The value `digits · 10^exponent`. -/
structure Digits where
  digits : Nat
  exponent : Int
  deriving Repr, BEq, DecidableEq, Inhabited

/-- Which of two candidates at equal distance is taken. -/
inductive Tie where
  /-- The even one. -/
  | toEven
  /-- The larger one. -/
  | up
  deriving Repr, BEq, DecidableEq, Inhabited

/-- A value between two ends, as numerators over one denominator. -/
structure Interval where
  low : Nat
  value : Nat
  high : Nat
  denominator : Nat
  /-- Whether the ends belong to the interval. -/
  closed : Bool
  deriving Repr, BEq, DecidableEq, Inhabited

namespace Interval

/-- The decimals that round to `m · 2^q`, where `m` is positive.  Below a power of two the doubles
lie twice as dense, so the lower end is nearer there. -/
def around (m : Nat) (q : Int) : Interval :=
  let up := Nat.pow 2 (q - 2).toNat
  let below := if m = Nat.pow 2 52 ∧ -1074 < q then 1 else 2
  { low := (4 * m - below) * up
    value := 4 * m * up
    high := (4 * m + 2) * up
    denominator := Nat.pow 2 (2 - q).toNat
    closed := m % 2 = 0 }

/-- The interval in units of `10^g`. -/
def scaled (i : Interval) (g : Int) : Interval :=
  let finer := Nat.pow 10 (-g).toNat
  { low := i.low * finer
    value := i.value * finer
    high := i.high * finer
    denominator := i.denominator * Nat.pow 10 g.toNat
    closed := i.closed }

/-- Whether a whole number of units lies in the interval. -/
def holds (i : Interval) (k : Nat) : Bool :=
  let n := k * i.denominator
  if i.closed then decide (i.low ≤ n) && decide (n ≤ i.high)
  else decide (i.low < n) && decide (n < i.high)

/-- The neighbour of the value on the grid of whole units that lies in the interval: of two the
nearer, and of two at equal distance the one that the tie rule names. -/
def candidate? (i : Interval) (tie : Tie) : Option Nat :=
  let k := i.value / i.denominator
  match i.holds k, i.holds (k + 1) with
  | false, false => none
  | true, false => some k
  | false, true => some (k + 1)
  | true, true =>
    let toLower := i.value - k * i.denominator
    let toUpper := (k + 1) * i.denominator - i.value
    if toLower < toUpper then some k
    else if toUpper < toLower then some (k + 1)
    else
      match tie with
      | .up => some (k + 1)
      | .toEven => some (if k % 2 = 0 then k else k + 1)

end Interval

/-- The number of decimal digits of a number. -/
def digitCount (n : Nat) : Nat := (Nat.toDigits 10 n).length

/-- The exponent of the leading digit of a positive fraction. -/
def leadingExponent (numerator denominator : Nat) : Int :=
  let e : Int := (digitCount numerator : Int) - digitCount denominator
  if denominator * Nat.pow 10 e.toNat ≤ numerator * Nat.pow 10 (-e).toNat then e else e - 1

/-- The candidate on the first of so many grids, with `n`, `n + 1`, … digits, that has one, and else
the value cut at the next grid. -/
def firstCandidate (i : Interval) (tie : Tie) (leading : Int) : (grids : Nat) → (n : Nat) → Digits
  | 0, n =>
    let cut := i.scaled (leading - n + 1)
    ⟨cut.value / cut.denominator, leading - n + 1⟩
  | grids + 1, n =>
    let g := leading - n + 1
    match (i.scaled g).candidate? tie with
    | some k => ⟨k, g⟩
    | none => firstCandidate i tie leading grids (n + 1)

/-- The fewest digits that read back as `m · 2^q`, where `m` is positive, and of those the
nearest. -/
def shortest (tie : Tie) (m : Nat) (q : Int) : Digits :=
  let i := Interval.around m q
  firstCandidate i tie (leadingExponent i.value i.denominator) 17 1

end ShiftMesh.Decimal
