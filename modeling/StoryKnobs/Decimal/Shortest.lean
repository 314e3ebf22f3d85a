/-!
# The shortest decimal of a binary number

A floating-point number is written with the fewest digits that read back as the same number, and
among those with the digits nearest to it. All comparisons are made in whole numbers.
-/

namespace StoryKnobs.Decimal

/-- The number `significand * 2 ^ exponent`, and whether the next smaller number is only half as
far away as the next larger one. -/
structure Binary where
  significand : Nat
  exponent : Int
  narrowBelow : Bool
deriving DecidableEq, Repr, Inhabited

def Binary.ofFloat (value : Float) : Binary :=
  let bits := value.toBits.toNat
  let fraction : Nat := bits % Nat.pow 2 52
  let scale : Nat := bits / Nat.pow 2 52 % Nat.pow 2 11
  if scale = 0 then ⟨fraction, -1074, false⟩
  else ⟨fraction + Nat.pow 2 52, (scale : Int) - 1075, fraction = 0 && 1 < scale⟩

/-- The number `digits * 10 ^ exponent`. -/
structure Numeral where
  digits : Nat
  exponent : Int
deriving DecidableEq, Repr, Inhabited

/-- The same number with a last digit that is not zero, where the digits end in at most one zero. -/
def Numeral.trim (numeral : Numeral) : Numeral :=
  if numeral.digits % 10 = 0 then ⟨numeral.digits / 10, numeral.exponent + 1⟩ else numeral

/-- How `left * 10 ^ power` and `right * 2 ^ scale` compare. -/
def order (left : Nat) (power : Int) (right : Nat) (scale : Int) : Ordering :=
  compare (left * Nat.pow 10 power.toNat * Nat.pow 2 (-scale).toNat)
    (right * Nat.pow 2 scale.toNat * Nat.pow 10 (-power).toNat)

namespace Binary

/-- Whether `digits * 10 ^ power` is nearer to `value` than to any other number. A point half-way to
a neighbour counts if the significand is even. -/
def owns (value : Binary) (digits : Nat) (power : Int) : Bool :=
  let below := 4 * value.significand - (if value.narrowBelow then 1 else 2)
  let above := 4 * value.significand + 2
  let low := order digits power below (value.exponent - 2)
  let high := order digits power above (value.exponent - 2)
  if value.significand % 2 = 0 then low != .lt && high != .gt else low == .gt && high == .lt

/-- The number of digits before the decimal point; negative or zero for small numbers. -/
def width (value : Binary) : Int :=
  let test := fun count : Nat =>
    order 1 ((count : Int) - 330) value.significand value.exponent == .gt
  (((List.range 660).find? test).getD 0 : Int) - 330

/-- The largest multiple of `10 ^ power` that is not above `value`. -/
def floor (value : Binary) (power : Int) : Nat :=
  (value.significand * Nat.pow 2 value.exponent.toNat * Nat.pow 10 (-power).toNat) /
    (Nat.pow 10 power.toNat * Nat.pow 2 (-value.exponent).toNat)

/-- Of the two neighbours of `value` among the multiples of `10 ^ power`, the nearer one that reads
back as `value`; of two that are equally near, the even one. -/
def roundTo? (value : Binary) (power : Int) : Option Numeral :=
  let below := value.floor power
  let nearer := order (2 * below + 1) power (2 * value.significand) value.exponent
  let first := if nearer == .gt || (nearer == .eq && below % 2 = 0) then below else below + 1
  let other := if first = below then below + 1 else below
  if value.owns first power then some (Numeral.mk first power).trim
  else if value.owns other power then some (Numeral.mk other power).trim
  else none

/-- The decimal with the fewest digits that reads back as `value`. -/
def shortest (value : Binary) : Numeral :=
  ((List.range 17).findSome? fun count : Nat =>
    value.roundTo? (value.width - ((count : Int) + 1))).getD ⟨0, 0⟩

end Binary

/-- Where the point of a number is written out and where an exponent is used instead. -/
structure Layout where
  /-- The fewest digits before the point for which it is written out. -/
  lowest : Int
  /-- The most digits before the point for which it is written out. -/
  highest : Int
  exponentMark : String

namespace Layout

def place (layout : Layout) (text : List Char) (point : Int) : List Char :=
  let zeros := fun count : Int => List.replicate count.toNat '0'
  if 0 < point && point ≤ layout.highest then
    if text.length ≤ point then text ++ zeros (point - text.length) ++ ['.', '0']
    else text.take point.toNat ++ '.' :: text.drop point.toNat
  else if layout.lowest ≤ point && point ≤ 0 then '0' :: '.' :: zeros (-point) ++ text
  else
    let exponent := layout.exponentMark.toList ++ (toString (point - 1)).toList
    match text with
    | first :: second :: others => first :: '.' :: second :: others ++ exponent
    | _ => text ++ exponent

def write (layout : Layout) (value : Float) : String :=
  let sign := if value.toBits.toNat / Nat.pow 2 63 = 1 then "-" else ""
  let binary := Binary.ofFloat value
  if binary.significand = 0 then sign ++ "0.0"
  else
    let numeral := binary.shortest
    let text := Nat.toDigits 10 numeral.digits
    sign ++ String.ofList (layout.place text (numeral.exponent + text.length))

end Layout

end StoryKnobs.Decimal
