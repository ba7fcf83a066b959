import MzzPlork.Core.Protocol

/-!
# `JSON.parse`

The parser of the JavaScript programs, on UTF-16 code units, as RFC 8259 has
the grammar.

The functions return what is left of the text next to what they have read.
Their recursion is bounded by a fuel, and running out of it is an outcome of
its own. Which number a numeral denotes is a parameter.

## Main definitions

* `Parsed`: What a parser function comes to.
* `stringRest`: What follows the quote of a string.
* `numberRest`: Where a number ends.
* `parseValue`, `parseItems`, `parseMembers`: The grammar.
* `jsonParse`: `JSON.parse`.
-/

namespace MzzPlork

namespace JsonParse

/-- What a parser function comes to. -/
inductive Parsed where
  | ok (v : JsValue) (rest : JsString)
  | syntaxError
  | outOfFuel

/-- White space. -/
def isSpace (u : UInt16) : Bool := u = 9 || u = 10 || u = 13 || u = 32

def skipSpace (s : JsString) : JsString := s.dropWhile isSpace

section Strings

/-- What a one-letter escape stands for. -/
def unescape (u : UInt16) : Option UInt16 :=
  match u with
  | 34 => some 34    -- "
  | 92 => some 92    -- \
  | 47 => some 47    -- /
  | 98 => some 8     -- b
  | 102 => some 12   -- f
  | 110 => some 10   -- n
  | 114 => some 13   -- r
  | 116 => some 9    -- t
  | _ => none

/-- The code unit four digits stand for. -/
def fourDigits (a b c d : UInt16) : Option UInt16 := do
  let a ← Wire.hexOf a
  let b ← Wire.hexOf b
  let c ← Wire.hexOf c
  let d ← Wire.hexOf d
  some (4096 * a + 256 * b + 16 * c + d).toUInt16

/-- What a string says behind its opening quote, and what follows it. A control
    character has to be escaped. -/
def stringRest : JsString → Option (JsString × JsString)
  | [] => none
  | u :: s =>
    if u = 34 then some ([], s)
    else if u < 32 then none
    else if u = 92 then
      match s with
      | [] => none
      | e :: s =>
        if e = 117 then
          match s with
          | a :: b :: c :: d :: s => do
            let u ← fourDigits a b c d
            let r ← stringRest s
            some (u :: r.1, r.2)
          | _ => none
        else do
          let u ← unescape e
          let r ← stringRest s
          some (u :: r.1, r.2)
    else (stringRest s).map (fun r => (u :: r.1, r.2))

end Strings

section Numbers

def isDigit (u : UInt16) : Bool := 48 ≤ u && u ≤ 57

/-- What follows one or more digits. -/
def digitsRest (s : JsString) : Option JsString :=
  if (s.head?.map isDigit).getD false then some (s.dropWhile isDigit) else none

/-- What follows the integer part. No digit follows a leading zero. -/
def integerRest (s : JsString) : Option JsString :=
  if s.head? = some 48 then some s.tail else digitsRest s

/-- What follows the fraction, if there is one. -/
def fractionRest (s : JsString) : Option JsString :=
  if s.head? = some 46 then digitsRest s.tail else some s

/-- What follows the exponent, if there is one. -/
def exponentRest (s : JsString) : Option JsString :=
  if s.head? = some 101 ∨ s.head? = some 69 then
    if s.tail.head? = some 43 ∨ s.tail.head? = some 45 then digitsRest s.tail.tail
    else digitsRest s.tail
  else some s

/-- What follows a number. -/
def numberRest (s : JsString) : Option JsString := do
  let s ← integerRest (if s.head? = some 45 then s.tail else s)
  let s ← fractionRest s
  exponentRest s

end Numbers

section Values

variable (toNumber : JsString → JsNumber)

/-- A literal name, or else a number. -/
def parseScalar (s : JsString) : Parsed :=
  if (js "true").isPrefixOf s then .ok (.bool true) (s.drop 4)
  else if (js "false").isPrefixOf s then .ok (.bool false) (s.drop 5)
  else if (js "null").isPrefixOf s then .ok .null (s.drop 4)
  else
    match numberRest s with
    | some rest => .ok (.num (toNumber (s.take (s.length - rest.length)))) rest
    | none => .syntaxError

/-- A property. One that is there already is overwritten. -/
def setField (fields : List (JsString × JsValue)) (key : JsString) (value : JsValue) :
    List (JsString × JsValue) :=
  if (fields.lookup key).isSome then
    fields.map (fun field => if field.1 = key then (key, value) else field)
  else fields ++ [(key, value)]

/-- A name and the colon behind it, and what follows the white space there. -/
def keyRest (s : JsString) : Option (JsString × JsString) :=
  match s with
  | [] => none
  | u :: s =>
    if u = 34 then
      match stringRest s with
      | none => none
      | some (key, s) =>
        match skipSpace s with
        | [] => none
        | u :: s => if u = 58 then some (key, skipSpace s) else none
    else none

mutual

/-- A value, from its first code unit on. -/
def parseValue : Nat → JsString → Parsed
  | 0, _ => .outOfFuel
  | _ + 1, [] => .syntaxError
  | n + 1, u :: s =>
    if u = 34 then
      match stringRest s with
      | some (v, rest) => .ok (.str v) rest
      | none => .syntaxError
    else if u = 123 then
      if (skipSpace s).head? = some 125 then .ok (.obj []) (skipSpace s).tail
      else parseMembers n [] (skipSpace s)
    else if u = 91 then
      if (skipSpace s).head? = some 93 then .ok (.arr []) (skipSpace s).tail
      else parseItems n [] (skipSpace s)
    else parseScalar toNumber (u :: s)

/-- The items of an array behind those read, from the first code unit of the
    next one on. -/
def parseItems : Nat → List JsValue → JsString → Parsed
  | 0, _, _ => .outOfFuel
  | n + 1, items, s =>
    match parseValue n s with
    | .ok v rest =>
      match skipSpace rest with
      | [] => .syntaxError
      | u :: rest =>
        if u = 44 then parseItems n (items ++ [v]) (skipSpace rest)
        else if u = 93 then .ok (.arr (items ++ [v])) rest
        else .syntaxError
    | .syntaxError => .syntaxError
    | .outOfFuel => .outOfFuel

/-- The members of an object behind those read, likewise. -/
def parseMembers : Nat → List (JsString × JsValue) → JsString → Parsed
  | 0, _, _ => .outOfFuel
  | n + 1, fields, s =>
    match keyRest s with
    | none => .syntaxError
    | some (key, rest) =>
      match parseValue n rest with
      | .ok v rest =>
        match skipSpace rest with
        | [] => .syntaxError
        | u :: rest =>
          if u = 44 then parseMembers n (setField fields key v) (skipSpace rest)
          else if u = 125 then .ok (.obj (setField fields key v)) rest
          else .syntaxError
      | .syntaxError => .syntaxError
      | .outOfFuel => .outOfFuel

end

/-- `JSON.parse`, `none` where it throws. No text needs more fuel than this. -/
def jsonParse (s : JsString) : Option JsValue :=
  match parseValue toNumber (2 * s.length + 1) (skipSpace s) with
  | .ok v rest => if skipSpace rest = [] then some v else none
  | _ => none

end Values

end JsonParse

end MzzPlork
