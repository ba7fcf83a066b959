import Mathlib.Data.Rat.Cast.Order
import MzzPlork.Core.Json

/-!
# JavaScript Values

The conversions of the language that the JavaScript programs apply to values
that came out of `JSON.parse`.

Such values have no methods of their own, so the conversion to a string fails
in one case only: an object with a `toString` property of its own. The
property hides the inherited method, is not callable itself, and what the
language tries next does not return a primitive. The language throws a
`TypeError` there, which is `none` here. An array converts its items, so it
fails with them.

How a finite number is written out is the one conversion that is not spelled
out. It is a parameter of everything that depends on it.

## Main definitions

* `JsString`: UTF-16 code units.
* `JsNumber`: A number as `JSON.parse` produces it, `1e999` included.
* `JsValue`: A value as `JSON.parse` produces it.
* `truthy`: Conversion to a boolean.
* `strictEq`: Comparison.
* `toText`: Conversion to a string, `none` where it throws.
-/

namespace MzzPlork

/-- A JavaScript string. -/
abbrev JsString := List UInt16

/-- A literal of the source. The source's literals are all ASCII. -/
def js (s : String) : JsString := s.toList.map (fun c => c.toNat.toUInt16)

/-- A number out of `JSON.parse`. Literals too large for the format become
    infinite; there is no `NaN` among them, and the sign of zero is not
    observable in what the programs do with it. -/
inductive JsNumber where
  | finite (q : Rat)
  | infinite (negative : Bool)
  deriving DecidableEq

namespace JsNumber

/-- `k === n`, for a number that is a count. -/
def isNat (n : JsNumber) (k : Nat) : Bool :=
  match n with
  | .finite q => q = k
  | .infinite _ => false

/-- `k < n`. -/
def above (n : JsNumber) (k : Nat) : Bool :=
  match n with
  | .finite q => (k : Rat) < q
  | .infinite negative => !negative

end JsNumber

/-- A value out of `JSON.parse`. -/
abbrev JsValue := Json JsString JsNumber

/-- How the language writes finite numbers. -/
abbrev NumberFormat := Rat → JsString

namespace JsValue

/-- Conversion to a boolean. -/
def truthy : JsValue → Bool
  | .null => false
  | .bool b => b
  | .num (.finite q) => q ≠ 0
  | .num (.infinite _) => true
  | .str s => s ≠ []
  | .arr _ => true
  | .obj _ => true

/-- `v || fallback`, for a property that may be absent. -/
def orElse (v : Option JsValue) (fallback : JsValue) : JsValue :=
  match v with
  | some x => if truthy x then x else fallback
  | none => fallback

/-- `v === v'`, for values out of different texts: two objects or arrays are
    never the same one there. If one of the two is neither, where they come from
    makes no difference. -/
def strictEq : JsValue → JsValue → Bool
  | .null, .null => true
  | .bool b, .bool b' => b = b'
  | .num n, .num n' => n = n'
  | .str s, .str s' => s = s'
  | _, _ => false

/-- `v === null`. -/
def isNull : JsValue → Bool
  | .null => true
  | _ => false

mutual

/-- `String(v)`. -/
def toText (fmt : NumberFormat) : JsValue → Option JsString
  | .null => some (js "null")
  | .bool b => some (js (if b then "true" else "false"))
  | .num (.finite q) => some (fmt q)
  | .num (.infinite negative) => some (js (if negative then "-Infinity" else "Infinity"))
  | .str s => some s
  | .arr items => joinText fmt items
  | .obj fields =>
    if (fields.lookup (js "toString")).isSome then none else some (js "[object Object]")

/-- `items.join(",")`, where `null` items are written as nothing. -/
def joinText (fmt : NumberFormat) : List JsValue → Option JsString
  | [] => some []
  | item :: items => do
    let head ← if isNull item then some [] else toText fmt item
    let tail ← joinText fmt items
    some (if items.isEmpty then head else head ++ js "," ++ tail)

end

/-- `String(v)` for a property that may be absent. -/
def textOf (fmt : NumberFormat) (v : Option JsValue) : Option JsString :=
  match v with
  | some x => toText fmt x
  | none => some (js "undefined")

end JsValue

end MzzPlork
