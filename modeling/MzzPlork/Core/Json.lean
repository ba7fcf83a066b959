/-!
# JSON Values

The values both sides of the wire work on, over a type of strings and a type
of numbers that each side fills in: bytes for the C++ client, UTF-16 code
units for the JavaScript programs.

A value here is one that has been parsed already, so the keys of an object
are distinct and the order of its fields is that of the parser's result.

## Main definitions

* `Json`: A JSON value.
* `Json.field`: Property access, `none` where there is no such property.
-/

namespace MzzPlork

/-- A JSON value. -/
inductive Json (σ ν : Type) where
  | null
  | bool (b : Bool)
  | num (n : ν)
  | str (s : σ)
  | arr (items : List (Json σ ν))
  | obj (fields : List (σ × Json σ ν))

namespace Json

variable {σ ν : Type} [DecidableEq σ]

/-- The value stored under a key. Only objects have any. -/
def field (v : Json σ ν) (k : σ) : Option (Json σ ν) :=
  match v with
  | .obj fields => fields.lookup k
  | _ => none

end Json

end MzzPlork
