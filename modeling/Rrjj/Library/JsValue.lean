import Mathlib.Data.Rat.Defs
import Mathlib.Tactic

/-! JavaScript values as data, as far as they are read: what a value is, and its properties. -/

namespace Library

abbrev JsText := List UInt16

namespace JsText

def encodeChar (c : Char) : JsText :=
  if c.toNat < 0x10000 then [UInt16.ofNat c.toNat]
  else
    [UInt16.ofNat (0xd800 + (c.toNat - 0x10000) / 0x400),
      UInt16.ofNat (0xdc00 + (c.toNat - 0x10000) % 0x400)]

def of (text : String) : JsText := text.toList.flatMap encodeChar

def lineFeed : UInt16 := 10
def carriageReturn : UInt16 := 13

def splitLines : JsText → List JsText
  | [] => [[]]
  | unit :: rest =>
    if unit = lineFeed then [] :: splitLines rest
    else
      match splitLines rest with
      | [] => [[unit]]
      | line :: lines =>
        -- a carriage return goes with the line feed after it
        if unit = carriageReturn ∧ rest.head? = some lineFeed then line :: lines
        else (unit :: line) :: lines

def isSpace (unit : UInt16) : Bool :=
  (9 ≤ unit && unit ≤ 13) || (0x2000 ≤ unit && unit ≤ 0x200a) ||
    unit ∈ [0x20, 0xa0, 0x1680, 0x2028, 0x2029, 0x202f, 0x205f, 0x3000, 0xfeff]

/-- `trim` leaves nothing. -/
def isBlank (text : JsText) : Bool := text.all isSpace

end JsText

inductive JsNumber where
  | finite (value : ℚ)
  | infinite (negative : Bool)
  | nan
  deriving DecidableEq

def maxSafeInteger : ℕ := 2 ^ 53 - 1

def JsNumber.safeInteger? : JsNumber → Option ℤ
  | .finite value =>
    if value.den = 1 ∧ value.num.natAbs ≤ maxSafeInteger then some value.num else none
  | _ => none

/-- `other` is a value that is no data: a function, a symbol. -/
inductive JsValue where
  | undefined
  | null
  | bool (value : Bool)
  | number (value : JsNumber)
  | text (value : JsText)
  | array (elements : List JsValue)
  | object (fields : List (JsText × JsValue))
  | other

namespace JsValue

def isRecord : JsValue → Bool
  | .object _ => true
  | _ => false

def get (key : String) : JsValue → JsValue
  | .object fields => (fields.lookup (JsText.of key)).getD .undefined
  | _ => .undefined

def safeInteger? : JsValue → Option ℤ
  | .number value => value.safeInteger?
  | _ => none

def nonempty? : JsValue → Option JsText
  | .text value => if value.isEmpty then none else some value
  | _ => none

def orElse (value fallback : JsValue) : JsValue :=
  match value with
  | .undefined | .null => fallback
  | value => value

end JsValue
end Library
