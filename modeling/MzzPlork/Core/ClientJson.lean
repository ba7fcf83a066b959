import MzzPlork.Core.Bytes
import MzzPlork.Core.Json

/-!
# JSON on the Client

`runtime/src/Json.h`: the accessors the client reads parsed messages with.
Strings are bytes and numbers are exact; the source's are doubles.

## Main definitions

* `ClientValue`, `ClientObject`: The client's `json::Value` and `json::Object`.
* `asString`, `asNumber`, `asBool`: The accessors with a fallback.
* `set`: Assignment of a field.
* `stringAt`, `boolAt`: An accessor behind a lookup.
-/

namespace MzzPlork

/-- `json::Value`. -/
abbrev ClientValue := Json Bytes Rat

/-- `json::Object`, as the list of its fields. -/
abbrev ClientObject := List (Bytes × ClientValue)

namespace ClientValue

/-- `AsString`. -/
def asString (v : ClientValue) (fallback : Bytes) : Bytes :=
  match v with
  | .str s => s
  | _ => fallback

/-- `AsNumber`. -/
def asNumber (v : ClientValue) (fallback : Rat) : Rat :=
  match v with
  | .num n => n
  | _ => fallback

/-- `AsBool`. -/
def asBool (v : ClientValue) (fallback : Bool) : Bool :=
  match v with
  | .bool b => b
  | _ => fallback

/-- `AsObject`, with an empty object for anything else. -/
def objectOrEmpty (v : ClientValue) : ClientObject :=
  match v with
  | .obj fields => fields
  | _ => []

end ClientValue

namespace ClientObject

/-- `o[k] = v`. The fields of a `std::map` are in the order of their keys. -/
def set : ClientObject → Bytes → ClientValue → ClientObject
  | [], k, v => [(k, v)]
  | (k', v') :: rest, k, v =>
    if k < k' then (k, v) :: (k', v') :: rest
    else if k = k' then (k, v) :: rest
    else (k', v') :: set rest k v

/-- `o.count(k) ? o.at(k).AsString() : fallback`. -/
def stringAt (o : ClientObject) (k fallback : Bytes) : Bytes :=
  match o.lookup k with
  | some v => v.asString []
  | none => fallback

/-- `o.count(k) ? o.at(k).AsNumber() : 0`. -/
def numberAt (o : ClientObject) (k : Bytes) : Rat :=
  match o.lookup k with
  | some v => v.asNumber 0
  | none => 0

/-- `o[k].AsBool(false)`. -/
def boolAt (o : ClientObject) (k : Bytes) : Bool :=
  match o.lookup k with
  | some v => v.asBool false
  | none => false

end ClientObject

end MzzPlork
