import TrustBoundary.Json.Fault
import TrustBoundary.Json.Number

/-!
# Reading numbers

A numeral has a whole part without needless zeros, and may have a fraction and an exponent.  Without
either it is a whole number, provided that it fits 64 bits.  The value of any other numeral is found
in three steps: its digits are collected as long as the collected number fits 64 unsigned bits; that
number is rounded to a double; and the double is multiplied or divided by the power of ten that is
left.  Two roundings take place, so the result is not always the nearest double.

`skipNumeral` steps over a numeral without asking for its value.
-/

namespace TrustBoundary.Json

/-- The value of a decimal digit. -/
def digitValue (c : Char) : Nat := c.toNat - '0'.toNat

/-- The collected number with one more digit, if that fits 64 bits. -/
@[irreducible] def withDigit? (significand : Nat) (c : Char) : Option Nat :=
  let n := 10 * significand + digitValue c
  if n < 0x10000000000000000 then some n else none

/-- Collects the digits of a whole part.  Gives the collected number, how many digits found no more
room, and the rest. -/
def collectWhole (significand : Nat) : List Char → Nat × Nat × List Char
  | [] => (significand, 0, [])
  | c :: rest =>
    if c.isDigit then
      match withDigit? significand c with
      | some n => collectWhole n rest
      | none => (significand, ((c :: rest).takeWhile Char.isDigit).length,
          (c :: rest).dropWhile Char.isDigit)
    else (significand, 0, c :: rest)

/-- Collects the digits of a fraction.  Gives the collected number, how many digits it took in, and
the rest; digits that find no room are passed over. -/
def collectFraction (significand taken : Nat) : List Char → Nat × Nat × List Char
  | [] => (significand, taken, [])
  | c :: rest =>
    if c.isDigit then
      match withDigit? significand c with
      | some n => collectFraction n (taken + 1) rest
      | none => (significand, taken, (c :: rest).dropWhile Char.isDigit)
    else (significand, taken, c :: rest)

/-- The largest exponent that a numeral may write. -/
def exponentLimit : Nat := 0x7fffffff

/-- Collects the digits of an exponent up to the limit.  Gives `none` for a larger one, with the
rest behind the first digit that leads beyond the limit. -/
def collectExponent (exponent : Nat) : List Char → Option Nat × List Char
  | [] => (some exponent, [])
  | c :: rest =>
    if c.isDigit then
      let n := 10 * exponent + digitValue c
      if n ≤ exponentLimit then collectExponent n rest else (none, rest)
    else (some exponent, c :: rest)

/-- The double nearest to a power of ten. -/
def powerOfTen (n : Nat) : Float := Float.ofScientific 1 false n

/-- Divides by `1e308` a number of times, or until nothing is left. -/
def divideOften : Nat → Float → Float
  | 0, x => x
  | n + 1, x => if x == 0 then x else divideOften n (x / powerOfTen 308)

/-- The double that is read for `significand * 10 ^ exponent`, if there is one. -/
def scaled? (significand : Nat) (exponent : Int) : Option Float :=
  let x := significand.toUInt64.toFloat
  if 0 ≤ exponent then
    if exponent ≤ 308 then
      let y := x * powerOfTen exponent.toNat
      if y.isInf then none else some y
    else if x == 0 then some x
    else none
  else
    let places := exponent.natAbs
    let divisions := (places - 1) / 308
    some (divideOften divisions x / powerOfTen (places - 308 * divisions))

/-- The number with the given sign and magnitude, if it is finite. -/
def signed? (negative : Bool) (magnitude : Float) : Option Number :=
  Number.ofFloat? (if negative then -magnitude else magnitude)

/-- The number that is read for `± significand * 10 ^ exponent`; `rest` follows the numeral. -/
def scaledNumber (negative : Bool) (significand : Nat) (exponent : Int) (rest : List Char) :
    Except Fault (Number × List Char) :=
  match (scaled? significand exponent).bind (signed? negative) with
  | some n => .ok (n, rest)
  | none => stop .numberOutOfRange rest

/-- Reads an exponent from behind its mark, and gives the number. -/
def readExponent (negative : Bool) (significand : Nat) (exponent : Int) (cs : List Char) :
    Except Fault (Number × List Char) :=
  let (down, digits) := match cs with
    | '-' :: rest => (true, rest)
    | '+' :: rest => (false, rest)
    | rest => (false, rest)
  match digits with
  | [] => stop .endInValue []
  | c :: rest =>
    if c.isDigit then
      match collectExponent (digitValue c) rest with
      | (some e, rest) =>
        scaledNumber negative significand (exponent + if down then -(e : Int) else e) rest
      | (none, rest) =>
        if significand ≠ 0 ∧ !down then stop .numberOutOfRange rest
        else scaledNumber negative 0 0 (rest.dropWhile Char.isDigit)
    else stopAt .invalidNumber (c :: rest)

/-- Reads what may follow the digits of a numeral that is no whole number. -/
def readTail (negative : Bool) (significand : Nat) (exponent : Int) (cs : List Char) :
    Except Fault (Number × List Char) :=
  match cs with
  | 'e' :: rest | 'E' :: rest => readExponent negative significand exponent rest
  | rest => scaledNumber negative significand exponent rest

/-- Reads a fraction from behind the point, and gives the number. -/
def readFraction (negative : Bool) (significand : Nat) (exponent : Int) (cs : List Char) :
    Except Fault (Number × List Char) :=
  match cs with
  | [] => stop .endInValue []
  | c :: _ =>
    if c.isDigit then
      let (significand, taken, rest) := collectFraction significand 0 cs
      readTail negative significand (exponent - taken) rest
    else stopAt .invalidNumber cs

/-- The number of a numeral without fraction and exponent: a whole number, or a double where 64
bits do not hold it and for the negative zero. -/
def plainNumber (negative : Bool) (significand dropped : Nat) (rest : List Char) :
    Except Fault (Number × List Char) :=
  let n : Int := if negative then -significand else significand
  match (if dropped = 0 ∧ (negative → significand ≠ 0) then Number.ofInt? n else none) with
  | some n => .ok (n, rest)
  | none => scaledNumber negative significand dropped rest

/-- Reads a numeral from behind its sign. -/
def readNumeral (negative : Bool) : List Char → Except Fault (Number × List Char)
  | [] => stop .endInValue []
  | c :: rest =>
    if c.isDigit then
      if c = '0' ∧ (rest.head?.any Char.isDigit) then stopAt .invalidNumber rest
      else
        let (significand, dropped, tail) :=
          if c = '0' then (0, 0, rest) else collectWhole (digitValue c) rest
        match tail with
        | '.' :: fraction => readFraction negative significand dropped fraction
        | 'e' :: exponent | 'E' :: exponent => readExponent negative significand dropped exponent
        | tail => plainNumber negative significand dropped tail
    else stopAt .invalidNumber (c :: rest)

/-- Steps over an exponent from behind its mark. -/
def skipExponent (cs : List Char) : Except Fault (List Char) :=
  let digits := match cs with
    | '-' :: rest | '+' :: rest => rest
    | rest => rest
  match digits with
  | [] => stop .invalidNumber []
  | c :: rest =>
    if c.isDigit then .ok (rest.dropWhile Char.isDigit) else stopAt .invalidNumber (c :: rest)

/-- Steps over what may follow the digits of a numeral. -/
def skipTail (cs : List Char) : Except Fault (List Char) :=
  match cs with
  | 'e' :: rest | 'E' :: rest => skipExponent rest
  | rest => .ok rest

/-- Steps over a numeral from behind its sign. -/
def skipNumeral : List Char → Except Fault (List Char)
  | [] => stop .invalidNumber []
  | c :: rest =>
    if c.isDigit then
      if c = '0' ∧ (rest.head?.any Char.isDigit) then stopAt .invalidNumber rest
      else
        match (if c = '0' then rest else rest.dropWhile Char.isDigit) with
        | '.' :: fraction =>
          if fraction.head?.any Char.isDigit then skipTail (fraction.dropWhile Char.isDigit)
          else stopAt .invalidNumber fraction
        | tail => skipTail tail
    else stopAt .invalidNumber (c :: rest)

end TrustBoundary.Json
