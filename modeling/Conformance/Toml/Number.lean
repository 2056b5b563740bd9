/-
Conformance/Toml/Number.lean

TOML's numbers.  A literal is given whole; the question is only whether all of
it is a number.
-/
import Conformance.Text.Cut
import Conformance.Toml.Value

namespace Conformance.Toml

/-! ### Digits -/

/-- The value of a digit, up to sixteen of them. -/
def digitValue (c : Char) : Nat :=
  if c.isDigit then c.toNat - '0'.toNat
  else if 'a' ≤ c && c ≤ 'f' then c.toNat - 'a'.toNat + 10
  else if 'A' ≤ c && c ≤ 'F' then c.toNat - 'A'.toNat + 10
  else 16

/-- Whether a character is a digit in a base. -/
def isDigitIn (base : Nat) (c : Char) : Bool :=
  digitValue c < base

/-- The number that digits in a base stand for. -/
def ofDigits (base : Nat) (digits : List Char) : Nat :=
  digits.foldl (fun n c => base * n + digitValue c) 0

/-- The digits of a literal in which single underscores may stand between two
digits. -/
def digits? (base : Nat) (cs : List Char) : Option (List Char) :=
  let groups := Text.pieces '_' cs
  if groups.all fun g => !g.isEmpty && g.all (isDigitIn base) then
    some groups.flatten
  else none

/-- A sign, if there is one, and the rest. -/
def splitSign : List Char → Bool × List Char
  | '+' :: cs => (false, cs)
  | '-' :: cs => (true, cs)
  | cs => (false, cs)

/-- The digits of a whole decimal number, which has no superfluous zero in
front. -/
def wholeDigits? (cs : List Char) : Option (List Char) :=
  match cs with
  | ['0'] => some cs
  | '0' :: _ => none
  | _ => digits? 10 cs

/-! ### Integers -/

/-- A number with its sign. -/
def signed (negative : Bool) (n : Nat) : Int :=
  if negative then -(n : Int) else n

/-- An integer that fits in 64 bits. -/
def fitting? (n : Int) : Option Int :=
  if -Int.pow 2 63 ≤ n && n < Int.pow 2 63 then some n else none

/-- Reads an integer: decimal with a sign, or hexadecimal, octal or binary
without one. -/
def integer? (cs : List Char) : Option Int :=
  match cs with
  | '0' :: 'x' :: digits =>
    (digits? 16 digits).bind fun ds => fitting? (ofDigits 16 ds)
  | '0' :: 'o' :: digits =>
    (digits? 8 digits).bind fun ds => fitting? (ofDigits 8 ds)
  | '0' :: 'b' :: digits =>
    (digits? 2 digits).bind fun ds => fitting? (ofDigits 2 ds)
  | _ =>
    let (negative, body) := splitSign cs
    (wholeDigits? body).bind fun ds =>
      fitting? (signed negative (ofDigits 10 ds))

/-! ### Floats -/

/-- A decimal number, `digits` · 10 ^ `exponent`, without its sign. -/
structure Decimal where
  digits : Nat
  exponent : Int
  deriving DecidableEq, Repr

/-- The least number that is too large for a 64-bit float, halfway between the
largest float and the next power of two. -/
def floatBound : Nat := Nat.pow 2 1024 - Nat.pow 2 970

/-- Whether a number rounds to infinity as a 64-bit float.  The number of its
digits decides, except near the bound, where it is compared exactly; a huge
exponent is never written out. -/
def Decimal.overflows (d : Decimal) : Bool :=
  if d.digits = 0 then false
  else
    let magnitude : Int := (Nat.toDigits 10 d.digits).length + d.exponent
    if magnitude ≤ 308 then false
    else if magnitude ≥ 310 then true
    else if d.exponent ≥ 0 then
      floatBound ≤ d.digits * Nat.pow 10 d.exponent.toNat
    else floatBound * Nat.pow 10 (-d.exponent).toNat ≤ d.digits

/-- The text before and after the exponent mark. -/
def splitExponent : List Char → List Char × Option (List Char)
  | [] => ([], none)
  | c :: cs =>
    if c = 'e' || c = 'E' then ([], some cs)
    else
      let (mantissa, exponent) := splitExponent cs
      (c :: mantissa, exponent)

/-- Reads the digits after an exponent mark. -/
def exponent? (cs : List Char) : Option Int :=
  let (negative, body) := splitSign cs
  (digits? 10 body).map fun ds => signed negative (ofDigits 10 ds)

/-- Reads a number with a fraction, an exponent or both, without its sign. -/
def decimal? (cs : List Char) : Option Decimal := do
  let (mantissa, exponentText) := splitExponent cs
  let exponent ← match exponentText with
    | some text => exponent? text
    | none => some 0
  match Text.firstCut? '.' mantissa with
  | some (whole, fraction) =>
    let whole ← wholeDigits? whole
    let fraction ← digits? 10 fraction
    return ⟨ofDigits 10 (whole ++ fraction), exponent - fraction.length⟩
  | none =>
    let whole ← wholeDigits? mantissa
    if exponentText.isSome then
      return ⟨ofDigits 10 whole, exponent⟩
    else none

/-- Whether a literal is a float.  A positive number too large for 64 bits is
none. -/
def isFloat (cs : List Char) : Bool :=
  let (negative, body) := splitSign cs
  body = ['i', 'n', 'f'] || body = ['n', 'a', 'n'] ||
    match decimal? body with
    | some d => negative || !d.overflows
    | none => false

end Conformance.Toml
