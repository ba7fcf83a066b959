import Mathlib.Data.Int.Log
import Mathlib.Data.Nat.Digits.Defs
import Mathlib.Data.Rat.Floor
import MzzPlork.Base.BinaryFloat
import MzzPlork.Base.JsonTree
import MzzPlork.Core.ClientJson

/-!
# JSON Texts on the Client

`runtime/src/Json.cpp`: the recursive-descent parser and the writer.

The parser works on one cursor into the whole text. Its functions return the
cursor they leave behind next to what the source returns. Their recursion is
bounded by a fuel, and running out of it is an outcome of its own. So is the
exception that `compare` throws at a position past the end of the text.

The source has doubles for numbers, and `std::strtod` rounds a literal to one.
The parser does not look at the numbers it reads, so `parse` has them as they are
written, and `parseDoubles` has what the source returns. What is done with numbers
elsewhere is done with the exact ones.

## Main definitions

* `Cursor`: The text and the position in it.
* `Outcome`: What a parser function returns.
* `parseStringLiteral`, `parseValue`, `parseArray`, `parseObjectValue`: The
  parser functions, the two loops as `arrayItems` and `objectFields`.
* `parse`, `parseObject`: The entry points.
* `Double`, `parseDoubles`: The numbers of the source.
* `escapeJsonString`, `numberText`, `stringify`, `stringifyObject`: The writer.
-/

namespace MzzPlork

namespace JsonText

/-- `std::isspace`, in the locale a program starts in. -/
def isSpace (b : UInt8) : Bool := (9 ≤ b && b ≤ 13) || b = 32

/-- `std::isdigit`. -/
def isDigit (b : UInt8) : Bool := 48 ≤ b && b ≤ 57

/-- `Cursor`. -/
structure Cursor where
  text : Bytes
  pos : Nat
  deriving DecidableEq

namespace Cursor

/-- `Eof`. -/
def eof (c : Cursor) : Bool := c.text.length ≤ c.pos

/-- `Peek`, which is NUL at the end. -/
def peek (c : Cursor) : UInt8 := c.text.getD c.pos 0

/-- `pos += n`. -/
def advance (c : Cursor) (n : Nat) : Cursor := { c with pos := c.pos + n }

/-- `Next`, which stays where it is at the end. -/
def next (c : Cursor) : Cursor × UInt8 := if c.eof then (c, 0) else (c.advance 1, c.peek)

/-- The run of bytes of a kind at the position. -/
def run (c : Cursor) (p : UInt8 → Bool) : Bytes := (c.text.drop c.pos).takeWhile p

/-- `while (!Eof() && p(Peek())) pos++`. -/
def skipWhile (c : Cursor) (p : UInt8 → Bool) : Cursor := c.advance (c.run p).length

/-- `SkipWhitespace`. -/
def skipWhitespace (c : Cursor) : Cursor := c.skipWhile isSpace

/-- `Consume`. White space is skipped also where the byte is another one. -/
def consume (c : Cursor) (expected : UInt8) : Cursor × Bool :=
  let c := c.skipWhitespace
  if c.peek ≠ expected then (c, false) else (c.advance 1, true)

/-- `text.substr(pos, n)`. -/
def substr (c : Cursor) (n : Nat) : Bytes := (c.text.drop c.pos).take n

/-- `text.compare(pos, literal.size(), literal) == 0`, for a position in the
    text. -/
def startsWith (c : Cursor) (literal : Bytes) : Bool := c.substr literal.length = literal

end Cursor

/-- What a parser function returns. -/
inductive Outcome (α : Type) where
  | ok (c : Cursor) (a : α)
  | error (c : Cursor) (message : Bytes)
  /-- `std::out_of_range`. -/
  | outOfRange
  | outOfFuel
  deriving DecidableEq

/-- `if (!...) return false;` after a call. -/
def Outcome.bind {α β : Type} (r : Outcome α) (f : Cursor → α → Outcome β) : Outcome β :=
  match r with
  | .ok c a => f c a
  | .error c message => .error c message
  | .outOfRange => .outOfRange
  | .outOfFuel => .outOfFuel

/-- What a one-byte escape stands for. -/
def unescape (esc : UInt8) : Option UInt8 :=
  match esc with
  | 34 => some 34    -- "
  | 92 => some 92    -- \
  | 47 => some 47    -- /
  | 110 => some 10   -- n
  | 116 => some 9    -- t
  | 114 => some 13   -- r
  | 98 => some 8     -- b
  | 102 => some 12   -- f
  | _ => none

/-- The value of a hexadecimal digit. -/
def hexDigit (b : UInt8) : Option Nat :=
  if isDigit b then some (b.toNat - 48)
  else if 97 ≤ b && b ≤ 102 then some (b.toNat - 87)
  else if 65 ≤ b && b ≤ 70 then some (b.toNat - 55)
  else none

/-- The number the digits at the start of a string denote, 0 if there are none. -/
def hexValue : Nat → Bytes → Nat
  | acc, [] => acc
  | acc, b :: t =>
    match hexDigit b with
    | some d => hexValue (16 * acc + d) t
    | none => acc

/-- Whether a number is negative, and what follows its sign. -/
def signOf : Bytes → Bool × Bytes
  | 45 :: t => (true, t)
  | 43 :: t => (false, t)
  | t => (false, t)

/-- What follows the prefix `0x`. Without a digit after it, it is none, but
    then the value is 0 either way. -/
def dropHexPrefix : Bytes → Bytes
  | 48 :: 120 :: t => t
  | 48 :: 88 :: t => t
  | t => t

/-- `std::strtol(s, nullptr, 16)`. -/
def strtol16 (s : Bytes) : Int :=
  let (negative, t) := signOf (s.dropWhile isSpace)
  let n := hexValue 0 (dropHexPrefix t)
  if negative then -n else n

/-- `static_cast<char>(strtol(hex, nullptr, 16) & 0xFF)`. -/
def codeUnit (hex : Bytes) : UInt8 := (strtol16 hex % 256).toNat.toUInt8

/-- The loop of `ParseStringLiteral`. -/
def stringBody : Nat → Cursor → Bytes → Outcome Bytes
  | 0, _, _ => .outOfFuel
  | fuel + 1, c, out =>
    if c.eof || c.peek = 34 then .ok c out
    else
      let (c, ch) := c.next
      -- The bytes of a longer character go through one by one.
      if ch ≠ 92 then stringBody fuel c (out ++ [ch])
      else
        let (c, esc) := c.next
        match unescape esc with
        | some b => stringBody fuel c (out ++ [b])
        | none =>
          if esc ≠ 117 then .error c (ascii "unsupported escape sequence")
          else if c.text.length < c.pos + 4 then .error c (ascii "truncated \\u escape")
          -- One byte for four digits, whatever they are.
          else stringBody fuel (c.advance 4) (out ++ [codeUnit (c.substr 4)])

/-- `ParseStringLiteral`. The fuel is enough, as every round takes a byte. -/
def parseStringLiteral (c : Cursor) : Outcome Bytes :=
  match c.consume 34 with
  | (c, false) => .error c (ascii "expected opening quote")
  | (c, true) =>
    (stringBody (c.text.length + 1) c []).bind fun c out =>
      match c.consume 34 with
      | (c, false) => .error c (ascii "unterminated string")
      | (c, true) => .ok c out

/-- The number a list of decimal digits denotes. -/
def decimalValue (digits : Bytes) : Nat := digits.foldl (fun acc b => 10 * acc + (b.toNat - 48)) 0

/-- The exponent of a literal, `none` where `std::strtod` would stop short of the
    end. -/
def exponentOf : Bytes → Option Int
  | [] => some 0
  | e :: t =>
    let (negative, digits) := signOf t
    if (e = 101 || e = 69) && digits ≠ [] && digits.all isDigit then
      some (if negative then -(decimalValue digits : Int) else decimalValue digits)
    else none

/-- The digits after a decimal point, if there is one, and what follows. -/
def fractionOf : Bytes → Bytes × Bytes
  | 46 :: t => (t.takeWhile isDigit, t.dropWhile isDigit)
  | t => ([], t)

/-- The number a literal denotes. The literal has no letters other than `e` and
    `E`, and there is none where `std::strtod` stops short of its end. -/
def numberOf (s : Bytes) : Option Rat :=
  let (negative, t) := signOf s
  let whole := t.takeWhile isDigit
  let (fraction, t) := fractionOf (t.dropWhile isDigit)
  if whole = [] ∧ fraction = [] then none
  else
    (exponentOf t).map fun (exponent : Int) =>
      let n : Rat := decimalValue (whole ++ fraction) * 10 ^ (exponent - (fraction.length : Int))
      if negative then -n else n

/-- The bytes a number is taken from. -/
def isNumberByte (b : UInt8) : Bool :=
  isDigit b || b = 46 || b = 101 || b = 69 || b = 43 || b = 45

/-- The end of `ParseValue`. -/
def parseNumber (c : Cursor) : Outcome ClientValue :=
  let start := c
  -- A sign alone is a literal too, which `std::strtod` refuses.
  let c := if c.peek = 45 then c.advance 1 else c
  let c := c.skipWhile isNumberByte
  if c.pos = start.pos then .error c (ascii "expected a value")
  else
    let numText := start.substr (c.pos - start.pos)
    match numberOf numText with
    | none => .error c (ascii "invalid number literal: " ++ numText)
    | some num => .ok c (.num num)

/-- `ParseValue` where the value is none of a string, an object or an array.
    The first comparison throws past the end. -/
def parseWord (c : Cursor) : Outcome ClientValue :=
  if c.text.length < c.pos then .outOfRange
  else if c.startsWith (ascii "true") then .ok (c.advance 4) (.bool true)
  else if c.startsWith (ascii "false") then .ok (c.advance 5) (.bool false)
  else if c.startsWith (ascii "null") then .ok (c.advance 4) .null
  else parseNumber c

mutual

/-- `ParseValue`. -/
def parseValue : Nat → Cursor → Outcome ClientValue
  | 0, _ => .outOfFuel
  | fuel + 1, c =>
    let c := c.skipWhitespace
    if c.peek = 34 then (parseStringLiteral c).bind fun c s => .ok c (.str s)
    else if c.peek = 123 then parseObjectValue fuel c
    else if c.peek = 91 then parseArray fuel c
    else parseWord c

/-- `ParseArray`. -/
def parseArray : Nat → Cursor → Outcome ClientValue
  | 0, _ => .outOfFuel
  | fuel + 1, c =>
    match c.consume 91 with
    | (c, false) => .error c (ascii "expected '['")
    | (c, true) =>
      let c := c.skipWhitespace
      if c.peek = 93 then .ok (c.advance 1) (.arr []) else arrayItems fuel c []

/-- The loop of `ParseArray`. -/
def arrayItems : Nat → Cursor → List ClientValue → Outcome ClientValue
  | 0, _, _ => .outOfFuel
  | fuel + 1, c, items =>
    (parseValue fuel c).bind fun c item =>
      match c.skipWhitespace.consume 44 with
      -- An item has to follow, so `[1,]` is an error.
      | (c, true) => arrayItems fuel c (items ++ [item])
      | (c, false) =>
        match c.consume 93 with
        | (c, true) => .ok c (.arr (items ++ [item]))
        | (c, false) => .error c (ascii "expected ',' or ']' in array")

/-- `ParseObjectValue`. -/
def parseObjectValue : Nat → Cursor → Outcome ClientValue
  | 0, _ => .outOfFuel
  | fuel + 1, c =>
    match c.consume 123 with
    | (c, false) => .error c (ascii "expected '\x7b'")
    | (c, true) =>
      let c := c.skipWhitespace
      if c.peek = 125 then .ok (c.advance 1) (.obj []) else objectFields fuel c []

/-- The loop of `ParseObjectValue`. -/
def objectFields : Nat → Cursor → ClientObject → Outcome ClientValue
  | 0, _, _ => .outOfFuel
  | fuel + 1, c, fields =>
    (parseStringLiteral c.skipWhitespace).bind fun c key =>
      match c.consume 58 with
      | (c, false) => .error c (ascii "expected ':' after key \"" ++ key ++ ascii "\"")
      | (c, true) =>
        (parseValue fuel c).bind fun c value =>
          match c.skipWhitespace.consume 44 with
          -- A name that comes again gets the later value.
          | (c, true) => objectFields fuel c (ClientObject.set fields key value)
          | (c, false) =>
            match c.consume 125 with
            | (c, true) => .ok c (.obj (ClientObject.set fields key value))
            | (c, false) =>
              .error c (ascii "expected ',' or '\x7d' after value for \"" ++ key ++ ascii "\"")

end

/-- `Parse`. What follows the value in the text is not looked at. -/
def parse (text : Bytes) : Outcome ClientValue := parseValue (3 * text.length + 3) ⟨text, 0⟩

/-- The format of a `double`. -/
def binary64 : BinaryFormat := ⟨52, -1074, 971, by decide⟩

/-- A `double` that a literal is read as. The sign of a zero is left out. -/
inductive Double where
  | finite (q : Rat)
  | infinite (negative : Bool)
  deriving DecidableEq

/-- The number of a literal as `std::strtod` returns it: rounded to the nearest
    double, to the even one of two, and infinite out of their range. -/
def Double.ofRat (q : Rat) : Double :=
  match binary64.round q with
  | some r => .finite r
  | none => .infinite (q < 0)

/-- `Parse`, with the numbers of the source. -/
def parseDoubles (text : Bytes) : Outcome (Json Bytes Double) :=
  (parse text).bind fun c value => .ok c (value.transform id Double.ofRat id)

/-- `ParseObject`. -/
def parseObject (text : Bytes) : Outcome ClientObject :=
  (parse text).bind fun c value =>
    match value with
    | .obj fields => .ok c fields
    | _ => .error c (ascii "root value is not an object")

/-- One character of `EscapeJsonString`. -/
def escapeChar (ch : UInt8) : Bytes :=
  match ch with
  | 34 => ascii "\\\""
  | 92 => ascii "\\\\"
  | 10 => ascii "\\n"
  | 9 => ascii "\\t"
  | 13 => ascii "\\r"
  | ch => [ch]

/-- `EscapeJsonString`. -/
def escapeJsonString (s : Bytes) : Bytes := s.flatMap escapeChar

/-- Digits as characters. -/
def digitsText (ds : List Nat) : Bytes := ds.map (fun d => (48 + d).toUInt8)

/-- A natural number in decimal. -/
def natText (n : Nat) : Bytes :=
  if n = 0 then digitsText [0] else digitsText (Nat.digits 10 n).reverse

/-- `out << n`, for a `long long`. -/
def integerText (n : Int) : Bytes := if n < 0 then 45 :: natText n.natAbs else natText n.natAbs

/-- `d == static_cast<long long>(d)`. Outside the range of the type the
    conversion gives its least value on the platform the client is built for,
    which is another number. -/
def isLongLong (q : Rat) : Bool := q.den = 1 ∧ -2 ^ 63 ≤ q.num ∧ q.num < 2 ^ 63

/-- The six significant digits of a number that is not 0, as one number, and
    the decimal exponent of the first of them. -/
def sixDigits (q : Rat) : Nat × Int :=
  let e := Int.log 10 |q|
  let m := roundHalfEven (|q| / 10 ^ (e - 5))
  -- Six nines that are rounded up have seven digits.
  if m = 10 ^ 6 then (10 ^ 5, e + 1) else (m, e)

/-- A decimal point and the digits after it, where there are any. -/
def fractionText (ds : List Nat) : Bytes := if ds = [] then [] else 46 :: digitsText ds

/-- The exponent of the scientific notation, of two digits at least. -/
def exponentText (e : Int) : Bytes :=
  ascii "e" ++ (if e < 0 then ascii "-" else ascii "+") ++
    (if e.natAbs < 10 then digitsText [0] else []) ++ natText e.natAbs

/-- `out << d`: six significant digits without trailing zeros, in scientific
    notation where the exponent is less than -4 or not less than 6. -/
def generalText (q : Rat) : Bytes :=
  let (m, e) := sixDigits q
  let ds := ((Nat.digits 10 m).dropWhile (· = 0)).reverse
  (if q < 0 then ascii "-" else []) ++
    if e < -4 ∨ 6 ≤ e then
      digitsText (ds.take 1) ++ fractionText (ds.drop 1) ++ exponentText e
    else if e < 0 then
      digitsText [0] ++ fractionText (List.replicate (-e - 1).toNat 0 ++ ds)
    else
      let n := e.toNat + 1
      digitsText (ds.take n ++ List.replicate (n - ds.length) 0) ++ fractionText (ds.drop n)

/-- A number, as `StringifyInto` writes it. -/
def numberText (q : Rat) : Bytes := if isLongLong q then integerText q.num else generalText q

/-- A string between quotes. -/
def quoted (s : Bytes) : Bytes := ascii "\"" ++ escapeJsonString s ++ ascii "\""

mutual

/-- `Stringify`. -/
def stringify : ClientValue → Bytes
  | .null => ascii "null"
  | .bool b => if b then ascii "true" else ascii "false"
  | .num q => numberText q
  | .str s => quoted s
  | .arr items => ascii "[" ++ itemsText items ++ ascii "]"
  | .obj fields => ascii "\x7b" ++ fieldsText fields ++ ascii "\x7d"

/-- The loop over the items of an array. -/
def itemsText : List ClientValue → Bytes
  | [] => []
  | item :: items =>
    stringify item ++ if items.isEmpty then [] else ascii "," ++ itemsText items

/-- The loop over the fields of an object. -/
def fieldsText : ClientObject → Bytes
  | [] => []
  | (key, val) :: fields =>
    quoted key ++ ascii ":" ++ stringify val ++
      if fields.isEmpty then [] else ascii "," ++ fieldsText fields

end

/-- `StringifyObject`. -/
def stringifyObject (fields : ClientObject) : Bytes := stringify (.obj fields)

end JsonText

end MzzPlork
