/-! # The shortest decimal that reads back

A binary number stands for all reals that round to it. `shortest` finds the decimal with the
fewest digits among these reals, and of those with the fewest digits the one nearest to the
number itself. On the grid of decimals with a given count of digits only the two neighbours of
the number have to be tried. -/

namespace TapeRing.Decimal

/-- The positive number `mantissa * 2 ^ exponent`, of which `narrow` says that its lower neighbour
    is only half as far away as its upper one. -/
structure Binary where
  mantissa : Nat
  exponent : Int
  narrow : Bool
deriving DecidableEq, Repr

/-- The number `digits * 10 ^ exponent`. -/
structure Digits where
  digits : Nat
  exponent : Int
deriving DecidableEq, Repr

/-- The order of `a * 2 ^ q` and `d * 10 ^ k`. -/
def compareScaled (a : Nat) (q : Int) (d : Nat) (k : Int) : Ordering :=
  compare (a * Nat.pow 2 q.toNat * Nat.pow 10 (-k).toNat)
    (d * Nat.pow 10 k.toNat * Nat.pow 2 (-q).toNat)

namespace Binary

/-- A decimal rounds to the number. The ends of the interval do if the mantissa is even. -/
def contains (b : Binary) (d : Nat) (k : Int) : Bool :=
  let low := compareScaled (4 * b.mantissa - if b.narrow then 1 else 2) (b.exponent - 2) d k
  let high := compareScaled (4 * b.mantissa + 2) (b.exponent - 2) d k
  if b.mantissa % 2 = 0 then low != .gt && high != .lt
  else low == .lt && high == .gt

/-- The greatest power of ten that does not exceed the number, looked for from above. -/
def leadingExponent (b : Binary) : Int :=
  let least : Int := -324
  let reached := (List.range 633).reverse.find? fun (i : Nat) =>
    compareScaled b.mantissa b.exponent 1 (least + i) != .lt
  match reached with
  | some i => least + i
  | none => least

/-- The number divided by a power of ten, rounded down. -/
def scaledDown (b : Binary) (k : Int) : Nat :=
  (b.mantissa * Nat.pow 2 b.exponent.toNat * Nat.pow 10 (-k).toNat) /
    (Nat.pow 10 k.toNat * Nat.pow 2 (-b.exponent).toNat)

/-- The nearer of the decimals `d` and `d + 1` at `10 ^ k`; of two equally near ones the even
    one. -/
def nearer (b : Binary) (d : Nat) (k : Int) : Nat :=
  match compareScaled (2 * b.mantissa) b.exponent (2 * d + 1) k with
  | .lt => d
  | .gt => d + 1
  | .eq => if d % 2 = 0 then d else d + 1

/-- A decimal of up to `count` digits that rounds to the number, if there is one. -/
def withDigits? (b : Binary) (leading : Int) (count : Nat) : Option Digits :=
  let k := leading - (count - 1)
  let d := b.scaledDown k
  match b.contains d k, b.contains (d + 1) k with
  | true, true => some ⟨b.nearer d k, k⟩
  | true, false => some ⟨d, k⟩
  | false, true => some ⟨d + 1, k⟩
  | false, false => none

/-- The shortest decimal that rounds to the number. Seventeen digits are always enough. -/
def shortest (b : Binary) : Digits :=
  let leading := b.leadingExponent
  match (List.range 17).findSome? fun i => b.withDigits? leading (i + 1) with
  | some digits => digits
  | none => ⟨b.scaledDown (leading - 16), leading - 16⟩

end Binary

/-- The magnitude of a finite number in double precision, if it is not zero. -/
def ofFloat? (value : Float) : Option Binary :=
  let bits := value.toBits.toNat
  let fraction : Nat := bits % Nat.pow 2 52
  let biased : Nat := bits / Nat.pow 2 52 % Nat.pow 2 11
  if biased = 0 then
    if fraction = 0 then none else some ⟨fraction, -1074, false⟩
  else some ⟨fraction + Nat.pow 2 52, (biased : Int) - 1075, fraction = 0 && biased != 1⟩

/-- The number in double precision that a decimal is read as: the leading digits that fit into 64
    bits, scaled by powers of ten that are themselves in double precision. -/
def toFloat (negative : Bool) (mantissa : Nat) (exponent : Int) : Float :=
  let (mantissa, exponent) := leadingDigits mantissa exponent
  let magnitude := scale (Float.ofNat mantissa) exponent 4
  if negative then -magnitude else magnitude
where
  /-- Drops digits from the end until the rest fits into 64 bits. -/
  leadingDigits (mantissa : Nat) (exponent : Int) : Nat × Int :=
    if mantissa < UInt64.size then (mantissa, exponent)
    else leadingDigits (mantissa / 10) (exponent + 1)
  termination_by mantissa
  decreasing_by
    simp only [UInt64.size] at *
    omega
  /-- Multiplies by a power of ten, in steps of at most 308. -/
  scale (value : Float) (exponent : Int) : (fuel : Nat) → Float
    | 0 => value
    | fuel + 1 =>
        if 0 ≤ exponent then value * Float.ofScientific 1 false exponent.toNat
        else if -308 ≤ exponent then value / Float.ofScientific 1 false (-exponent).toNat
        else scale (value / Float.ofScientific 1 false 308) (exponent + 308) fuel

/-- The text of a decimal that is not zero. It is positional if its leading digit stands at a power
    of ten from -5 to 15, and otherwise has one digit before the point. -/
def Digits.text (d : Digits) : String :=
  let trailing := ((Nat.toDigits 10 d.digits).reverse.takeWhile (· = '0')).length
  let digits := (Nat.toDigits 10 d.digits).reverse.dropWhile (· = '0') |>.reverse
  let last : Int := d.exponent + trailing
  let leading : Int := last + digits.length - 1
  if leading < -5 ∨ 15 < leading then
    let fraction := if digits.length = 1 then [] else '.' :: digits.drop 1
    String.ofList (digits.take 1 ++ fraction) ++ "e" ++ toString leading
  else if leading < 0 then
    String.ofList ('0' :: '.' :: List.replicate (-leading - 1).toNat '0' ++ digits)
  else if 0 ≤ last then
    String.ofList (digits ++ List.replicate last.toNat '0' ++ ['.', '0'])
  else
    String.ofList (digits.take (leading + 1).toNat ++ '.' :: digits.drop (leading + 1).toNat)

example : (Digits.mk 15 (-1)).text = "1.5" := by decide +kernel

example : (Digits.mk 1 15).text = "1000000000000000.0" := by decide +kernel

example : (Digits.mk 1 16).text = "1e16" := by decide +kernel

example : (Digits.mk 1 (-5)).text = "0.00001" := by decide +kernel

example : (Digits.mk 1234 (-10)).text = "1.234e-7" := by decide +kernel

/-- The shortest text of a finite number in double precision. -/
def floatText (value : Float) : String :=
  let sign := if value.toBits.toNat < Nat.pow 2 63 then "" else "-"
  match ofFloat? value with
  | none => sign ++ "0.0"
  | some b => sign ++ b.shortest.text

end TapeRing.Decimal
