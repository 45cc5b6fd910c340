/-! Numbers of 53 binary digits with a binary exponent between -1074 and 971: rounding a ratio to the nearest
    one, products and quotients, and the shortest decimal text that still names the number. Everything is
    computed on natural numbers. -/

namespace PageWidgets
namespace Json

/-- The number `mantissa * 2 ^ exponent`, with a sign. -/
structure Binary64 where
  negative : Bool
  mantissa : Nat
  exponent : Int
  deriving DecidableEq, Repr

namespace Binary64

/-- The ratio `num / den` divided by `2 ^ e`, as a ratio. -/
def scaleDown (num den : Nat) (e : Int) : Nat × Nat :=
  if 0 ≤ e then (num, den * Nat.pow 2 e.toNat) else (num * Nat.pow 2 (-e).toNat, den)

/-- The quotient to the nearest natural number, a half going to the even neighbour. -/
def nearest (num den : Nat) : Nat :=
  let q := num / den
  let r := num % den
  if 2 * r < den then q
  else if den < 2 * r then q + 1
  else if q % 2 = 0 then q else q + 1

/-- The number of 53 binary digits nearest to a ratio; nothing when it is too large for the exponent. -/
def ofRatio (num den : Nat) : Option (Nat × Int) :=
  if num = 0 then some (0, -1074)
  else
    let low : Int := (Nat.log2 num : Int) - (Nat.log2 den : Int) - 53
    let (n, d) := scaleDown num den low
    let fitted := if Nat.pow 2 53 * d ≤ n then low + 1 else low
    let e := max fitted (-1074)
    let (n, d) := scaleDown num den e
    let m := nearest n d
    let (m, e) := if m = Nat.pow 2 53 then (Nat.pow 2 52, e + 1) else (m, e)
    if 971 < e then none else some (m, e)

/-- The ratio `num * 2 ^ e / den`, rounded. -/
def ofScaled (num : Nat) (e : Int) (den : Nat) : Option (Nat × Int) :=
  if 0 ≤ e then ofRatio (num * Nat.pow 2 e.toNat) den else ofRatio num (den * Nat.pow 2 (-e).toNat)

/-- The rounded power of ten. -/
def powerOfTen (k : Nat) : Nat × Int := (ofRatio (Nat.pow 10 k) 1).getD (0, -1074)

/-- The rounded product of two magnitudes. -/
def product (a b : Nat × Int) : Option (Nat × Int) := ofScaled (a.1 * b.1) (a.2 + b.2) 1

/-- The rounded quotient of two magnitudes. -/
def quotient (a b : Nat × Int) : Option (Nat × Int) := ofScaled a.1 (a.2 - b.2) b.1

/-- The magnitude `significand * 10 ^ exponent`, with one rounding for the significand, one for the power of
    ten and one for their product or quotient. Divisions by more than `10 ^ 308` are done in steps; two of
    them take every 64-bit significand to zero, so four steps are enough. -/
def ofDecimal (significand : Nat) (exponent : Int) : Option (Nat × Int) :=
  match ofRatio significand 1 with
  | none => none
  | some start => go 4 start exponent
where
  go : Nat → Nat × Int → Int → Option (Nat × Int)
    | 0, f, _ => some f
    | steps + 1, f, e =>
      if 0 ≤ e then
        if e ≤ 308 then product f (powerOfTen e.toNat)
        else if f.1 = 0 then some f else none
      else if -308 ≤ e then quotient f (powerOfTen (-e).toNat)
      else if f.1 = 0 then some f
      else
        match quotient f (powerOfTen 308) with
        | none => none
        | some g => go steps g (e + 308)

/-! ### Shortest decimal text -/

/-- Is `a * 10 ^ k` below `b * 2 ^ e`? -/
def decimalBelow (a : Nat) (k : Int) (b : Nat) (e : Int) : Bool :=
  let left := a * (if 0 ≤ k then Nat.pow 10 k.toNat else 1) * (if 0 ≤ e then 1 else Nat.pow 2 (-e).toNat)
  let right := b * (if 0 ≤ e then Nat.pow 2 e.toNat else 1) * (if 0 ≤ k then 1 else Nat.pow 10 (-k).toNat)
  left < right

/-- Is `a * 10 ^ k` equal to `b * 2 ^ e`? -/
def decimalEqual (a : Nat) (k : Int) (b : Nat) (e : Int) : Bool :=
  let left := a * (if 0 ≤ k then Nat.pow 10 k.toNat else 1) * (if 0 ≤ e then 1 else Nat.pow 2 (-e).toNat)
  let right := b * (if 0 ≤ e then Nat.pow 2 e.toNat else 1) * (if 0 ≤ k then 1 else Nat.pow 10 (-k).toNat)
  left == right

/-- Does `d * 10 ^ k` round to `m * 2 ^ e`? The bounds are given in quarters of the last binary digit; they
    belong to the interval when `m` is even. -/
def namesNumber (m : Nat) (e : Int) (d : Nat) (k : Int) : Bool :=
  let low := if m = Nat.pow 2 52 ∧ -1074 < e then 4 * m - 1 else 4 * m - 2
  let high := 4 * m + 2
  let aboveLow := !decimalBelow d k low (e - 2) && !decimalEqual d k low (e - 2)
  let belowHigh := decimalBelow d k high (e - 2)
  (aboveLow || (m % 2 == 0 && decimalEqual d k low (e - 2)))
    && (belowHigh || (m % 2 == 0 && decimalEqual d k high (e - 2)))

/-- The exponent of the leading decimal digit of `num / den`, for a ratio of at least `10 ^ -400`. -/
def leadingExponent (num den : Nat) : Int :=
  if den ≤ num then ((Nat.toDigits 10 (num / den)).length : Int) - 1
  else -(((List.range 400).find? fun j => den ≤ num * Nat.pow 10 (j + 1)).getD 399 : Int) - 1

/-- The decimal `digits * 10 ^ k` with the fewest digits that names the number, the nearer of two. Ten in the
    last place is one in the place before; with more than one digit it was found there already. -/
def shortest (m : Nat) (e : Int) : Nat × Int :=
  let (num, den) := scaleDown m 1 (-e)
  let lead := leadingExponent num den
  let attempt (p : Nat) : Option (Nat × Int) :=
    let k := lead - (p : Int)
    let d := if 0 ≤ k then num / (den * Nat.pow 10 k.toNat) else num * Nat.pow 10 (-k).toNat / den
    match namesNumber m e d k, namesNumber m e (d + 1) k with
    | true, true =>
      let twice := 2 * d + 1
      if decimalBelow twice k (2 * m) e then some (d + 1, k)
      else if decimalEqual twice k (2 * m) e then some (if d % 2 = 0 then d else d + 1, k)
      else some (d, k)
    | true, false => some (d, k)
    | false, true => some (d + 1, k)
    | false, false => none
  match (List.range 17).findSome? attempt with
  | some (10, k) => (1, k + 1)
  | some found => found
  | none => (m, e)

/-- `n` zeros. -/
def zeros (n : Nat) : String := String.ofList (List.replicate n '0')

/-- A decimal exponent: its sign, and at least two digits. -/
def exponentText (e : Int) : String :=
  let digits := toString e.natAbs
  (if e < 0 then "e-" else "e+") ++ (if digits.length < 2 then "0" ++ digits else digits)

/-- The text of `digits * 10 ^ k`: with a point from `10 ^ -5` up to below `10 ^ 16`, else with an exponent. -/
def decimalText (digits : Nat) (k : Int) : String :=
  let ds := toString digits
  let chars := ds.toList
  let point : Int := ds.length + k
  if 0 ≤ k ∧ point ≤ 16 then ds ++ zeros k.toNat ++ ".0"
  else if 0 < point ∧ point ≤ 16 then
    String.ofList (chars.take point.toNat) ++ "." ++ String.ofList (chars.drop point.toNat)
  else if -5 < point ∧ point ≤ 0 then "0." ++ zeros (-point).toNat ++ ds
  else
    let fraction := String.ofList (chars.drop 1)
    String.ofList (chars.take 1) ++ (if fraction.isEmpty then "" else "." ++ fraction)
      ++ exponentText (point - 1)

/-- The text of a number. -/
def text (x : Binary64) : String :=
  (if x.negative then "-" else "")
    ++ (if x.mantissa = 0 then "0.0"
        else let (digits, k) := shortest x.mantissa x.exponent; decimalText digits k)

end Binary64
end Json
end PageWidgets
