import Mathlib.Data.List.Sort
import Mathlib.Data.String.Basic

/-! Typed literals of a logical semantic query and the byte grammars they are checked against. -/
namespace Postgresem

inductive DataType where
  | boolean | integer | numeric | text | date | timestamp | timestampTz
  deriving DecidableEq, Repr

/-- A literal carries its own type tag; `integer` holds an `i64`, the other payloads are the
texts of the document. -/
inductive Literal where
  | text (value : String)
  | boolean (value : Bool)
  | integer (value : Int)
  | numeric (value : String)
  | date (value : String)
  | timestamp (value : String)
  deriving DecidableEq, Repr

/-- The UTF-8 bytes of a string, as `str::as_bytes` gives them. -/
def bytesOf (value : String) : List UInt8 := value.toUTF8.data.toList

def isAsciiDigit (byte : UInt8) : Bool := 48 ≤ byte && byte ≤ 57

/-- `parse_digits`: `none` on an empty or non-digit slice and on `u32` overflow. -/
def parseDigits (bytes : List UInt8) : Option Nat :=
  if bytes.isEmpty || !bytes.all isAsciiDigit then none
  else bytes.foldlM (fun value byte =>
    if value * 10 < 2 ^ 32 then
      let next := value * 10 + (byte.toNat - 48)
      if next < 2 ^ 32 then some next else none
    else none) 0

def divisibleBy (value divisor : Nat) : Bool := value / divisor * divisor == value

def isLeapYear (year : Nat) : Bool :=
  divisibleBy year 4 && (!divisibleBy year 100 || divisibleBy year 400)

def validNumeric (value : String) : Bool :=
  let bytes := bytesOf value
  if bytes.isEmpty then false
  else
    let start := if bytes[0]? == some 45 then 1 else 0
    if start == bytes.length then false
    else
      let unsigned := bytes.drop start
      let integerEnd := (unsigned.findIdx? (· == 46)).getD unsigned.length
      let integer := unsigned.take integerEnd
      if integer.isEmpty || !integer.all isAsciiDigit
          || (decide (1 < integer.length) && integer[0]? == some 48) then false
      else if integerEnd == unsigned.length then true
      else
        let fraction := unsigned.drop (integerEnd + 1)
        !fraction.isEmpty && fraction.all isAsciiDigit

def daysInMonth (year month : Nat) : Nat :=
  match month with
  | 2 => if isLeapYear year then 29 else 28
  | 4 | 6 | 9 | 11 => 30
  | _ => 31

def validDateBytes (bytes : List UInt8) : Bool :=
  if bytes.length != 10 || bytes[4]? != some 45 || bytes[7]? != some 45 then false
  else
    match parseDigits (bytes.take 4), parseDigits ((bytes.drop 5).take 2),
      parseDigits ((bytes.drop 8).take 2) with
    | some year, some month, some day =>
      if !(decide (1 ≤ month) && decide (month ≤ 12)) then false
      else decide (1 ≤ day) && decide (day ≤ daysInMonth year month)
    | _, _, _ => false

def validDate (value : String) : Bool := validDateBytes (bytesOf value)

/-- The position after an optional fraction, or `none` for a lone decimal point. -/
def fractionEnd (bytes : List UInt8) : Option Nat :=
  if bytes[19]? == some 46 then
    let digits := ((bytes.drop 20).takeWhile isAsciiDigit).length
    if digits == 0 then none else some (20 + digits)
  else some 19

/-- The zone suffix that starts at `position`: `Z`, or a signed `HH:MM` offset. -/
def validOffset (bytes : List UInt8) (position : Nat) : Bool :=
  if bytes[position]? == some 90 then position + 1 == bytes.length
  else if !(bytes[position]? == some 43 || bytes[position]? == some 45)
      || bytes.length != position + 6 || bytes[position + 3]? != some 58 then false
  else
    match parseDigits ((bytes.drop (position + 1)).take 2),
      parseDigits ((bytes.drop (position + 4)).take 2) with
    | some offsetHour, some offsetMinute =>
      decide (offsetHour ≤ 23) && decide (offsetMinute ≤ 59)
    | _, _ => false

def validTimestamp (value : String) : Bool :=
  let bytes := bytesOf value
  if decide (bytes.length < 20) || bytes[10]? != some 84 || !validDateBytes (bytes.take 10) then
    false
  else if bytes[13]? != some 58 || bytes[16]? != some 58 then false
  else
    match parseDigits ((bytes.drop 11).take 2), parseDigits ((bytes.drop 14).take 2),
      parseDigits ((bytes.drop 17).take 2) with
    | some hour, some minute, some second =>
      if decide (23 < hour) || decide (59 < minute) || decide (59 < second) then false
      else
        match fractionEnd bytes with
        | none => false
        | some position => validOffset bytes position
    | _, _, _ => false

namespace Literal

def isWellFormed : Literal → Bool
  | .text _ | .boolean _ | .integer _ => true
  | .numeric value => validNumeric value
  | .date value => validDate value
  | .timestamp value => validTimestamp value

def typeName : Literal → String
  | .text _ => "text"
  | .boolean _ => "boolean"
  | .integer _ => "integer"
  | .numeric _ => "numeric"
  | .date _ => "date"
  | .timestamp _ => "timestamp"

end Literal

example : validTimestamp "2026-02-28T23:59:59.5+09:00" = true := by decide
example : validDate "2026-02-29" = false := by decide

end Postgresem
