import MzzPlork.Core.JsValue
import MzzPlork.Core.JsonText

/-!
# The Server's End of the Wire

`server/src/protocol.js`: the line a message is sent as, with what the
language does for it. `JSON.stringify` works on UTF-16, and the socket encodes
its result in UTF-8.

An integer of a magnitude below 2^53 is written in decimal. How other numbers
are written is the parameter it is everywhere on the server.

## Main definitions

* `utf8`: The bytes of a string.
* `unitsOf`, `charOf`: One character out of UTF-16 and out of UTF-8.
* `isWellFormed`: A string without lone surrogates.
* `quote`: A string as `JSON.stringify` writes it.
* `jsonStringify`: `JSON.stringify`.
* `encodeMessage`: The line of a message.
-/

namespace MzzPlork

namespace Wire

section Unicode

/-- The first half of a surrogate pair. -/
def isHigh (u : UInt16) : Bool := 0xD800 ≤ u && u < 0xDC00

/-- The second half of a surrogate pair. -/
def isLow (u : UInt16) : Bool := 0xDC00 ≤ u && u < 0xE000

/-- The character of a pair. -/
def pairChar (high low : UInt16) : Char :=
  Char.ofNat (0x10000 + (high.toNat - 0xD800) * 0x400 + (low.toNat - 0xDC00))

/-- The character of a code unit on its own. A surrogate is none, and is
    replaced. -/
def unitChar (u : UInt16) : Char :=
  if isHigh u || isLow u then Char.ofNat 0xFFFD else Char.ofNat u.toNat

/-- The characters of a string. -/
def chars : JsString → List Char
  | [] => []
  | [u] => [unitChar u]
  | u :: u' :: s =>
    if isHigh u && isLow u' then pairChar u u' :: chars s else unitChar u :: chars (u' :: s)

/-- A string in UTF-8, as a socket encodes it. -/
def utf8 (s : JsString) : Bytes := (chars s).flatMap String.utf8EncodeChar

/-- The code units of a character. -/
def unitsOf (c : Char) : JsString :=
  if c.toNat < 0x10000 then [c.toNat.toUInt16]
  else [(0xD800 + (c.toNat - 0x10000) / 0x400).toUInt16, (0xDC00 + c.toNat % 0x400).toUInt16]

/-- The number whose bits the bytes of one character carry. -/
def carried : Bytes → Nat
  | [a] => a.toNat
  | [a, b] => a.toNat % 32 * 64 + b.toNat % 64
  | [a, b, c] => a.toNat % 16 * 4096 + b.toNat % 64 * 64 + c.toNat % 64
  | [a, b, c, d] =>
    a.toNat % 8 * 262144 + b.toNat % 64 * 4096 + c.toNat % 64 * 64 + d.toNat % 64
  | _ => 0

/-- The character some bytes are the UTF-8 of. An overlong sequence is not that
    of its character, and neither a surrogate nor a number beyond the last
    character has one. -/
def charOf (octets : Bytes) : Option Char :=
  let c := Char.ofNat (carried octets)
  if String.utf8EncodeChar c = octets then some c else none

/-- `s.isWellFormed()`. -/
def isWellFormed : JsString → Bool
  | [] => true
  | [u] => !(isHigh u || isLow u)
  | u :: u' :: s =>
    if isHigh u && isLow u' then isWellFormed s
    else !(isHigh u || isLow u) && isWellFormed (u' :: s)

/-- The value of a hexadecimal digit. -/
def hexOf (u : UInt16) : Option Nat :=
  if 48 ≤ u && u ≤ 57 then some (u.toNat - 48)
  else if 97 ≤ u && u ≤ 102 then some (u.toNat - 87)
  else if 65 ≤ u && u ≤ 70 then some (u.toNat - 55)
  else none

end Unicode

section Stringify

/-- A hexadecimal digit, in lower case. -/
def hexUnit (n : Nat) : UInt16 := if n < 10 then (48 + n).toUInt16 else (87 + n).toUInt16

/-- `\u` and four digits. -/
def unicodeEscape (u : UInt16) : JsString :=
  js "\\u" ++ [hexUnit (u.toNat / 4096), hexUnit (u.toNat / 256 % 16),
    hexUnit (u.toNat / 16 % 16), hexUnit (u.toNat % 16)]

/-- A code unit that is no part of a pair. -/
def quoteUnit (u : UInt16) : JsString :=
  match u with
  | 8 => js "\\b"
  | 9 => js "\\t"
  | 10 => js "\\n"
  | 12 => js "\\f"
  | 13 => js "\\r"
  | 34 => js "\\\""
  | 92 => js "\\\\"
  | u => if u < 32 || isHigh u || isLow u then unicodeEscape u else [u]

/-- The code units between the quotes. -/
def quoteUnits : JsString → JsString
  | [] => []
  | [u] => quoteUnit u
  | u :: u' :: s =>
    if isHigh u && isLow u' then u :: u' :: quoteUnits s else quoteUnit u ++ quoteUnits (u' :: s)

/-- A string as `JSON.stringify` writes it. -/
def quote (s : JsString) : JsString := js "\"" ++ quoteUnits s ++ js "\""

/-- An integer of a magnitude below 2^53. -/
def isSafeInteger (n : JsNumber) : Bool :=
  match n with
  | .finite q => q.den = 1 ∧ q.num.natAbs < 2 ^ 53
  | .infinite _ => false

/-- A number as `JSON.stringify` writes it. -/
def numberUnits (fmt : NumberFormat) (n : JsNumber) : JsString :=
  match n with
  | .finite q =>
    if isSafeInteger n then (JsonText.integerText q.num).map UInt8.toUInt16 else fmt q
  | .infinite _ => js "null"

mutual

/-- `JSON.stringify`. -/
def jsonStringify (fmt : NumberFormat) : JsValue → JsString
  | .null => js "null"
  | .bool b => if b then js "true" else js "false"
  | .num n => numberUnits fmt n
  | .str s => quote s
  | .arr items => js "[" ++ stringifyItems fmt items ++ js "]"
  | .obj fields => js "\x7b" ++ stringifyFields fmt fields ++ js "\x7d"

/-- The items of an array, with commas between them. -/
def stringifyItems (fmt : NumberFormat) : List JsValue → JsString
  | [] => []
  | item :: items =>
    jsonStringify fmt item ++ if items.isEmpty then [] else js "," ++ stringifyItems fmt items

/-- The properties of an object, with commas between them. -/
def stringifyFields (fmt : NumberFormat) : List (JsString × JsValue) → JsString
  | [] => []
  | (key, value) :: fields =>
    quote key ++ js ":" ++ jsonStringify fmt value ++
      if fields.isEmpty then [] else js "," ++ stringifyFields fmt fields

end

end Stringify

/-- `encodeMessage`. A payload that is missing or falsy becomes an empty object. -/
def encodeMessage (fmt : NumberFormat) (type : JsString) (payload : Option JsValue) : JsString :=
  jsonStringify fmt (.obj [(js "type", .str type),
    (js "payload", JsValue.orElse payload (.obj []))]) ++ js "\n"

end Wire

end MzzPlork
