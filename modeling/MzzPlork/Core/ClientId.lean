import Mathlib.Data.List.FinRange
import MzzPlork.Core.Bytes

/-!
# The Client's Id

`GenerateRandomId` and `ClientRuntime::LoadOrCreateClientId` of
`runtime/src/Runtime.cpp`.

The id is kept in a file of its own, which is read and written as text: on
Windows a line break is two bytes in the file, and a file that is read ends at
the first Ctrl-Z.

## Main definitions

* `generateRandomId`: The text of sixteen random bytes.
* `readText`, `writeText`: A file that is opened as text.
* `loadOrCreateClientId`: The id of a launch, with what becomes of the file.
* `clientIds`: Launch after launch.
-/

namespace MzzPlork

namespace ClientId

/-- `oss << std::hex << n`, where one digit is enough. -/
def hexChar (n : Nat) : UInt8 := if n < 10 then (48 + n).toUInt8 else (87 + n).toUInt8

/-- One turn of the loop of `GenerateRandomId`. -/
def hexPiece (i : Nat) (byte : UInt8) : Bytes :=
  (if i = 4 ∨ i = 6 ∨ i = 8 ∨ i = 10 then ascii "-" else []) ++
    [hexChar ((byte >>> 4) &&& 15).toNat, hexChar (byte &&& 15).toNat]

/-- `GenerateRandomId`, of what `BCryptGenRandom` has filled in. -/
def generateRandomId (bytes : Fin 16 → UInt8) : Bytes :=
  (List.finRange 16).flatMap (fun i => hexPiece i.val (bytes i))

/-- What a file that is opened as text is read as. -/
def readText : Bytes → Bytes
  | [] => []
  | [b] => if b = 26 then [] else [b]
  | b :: c :: t =>
    if b = 26 then []
    else if b = 13 ∧ c = 10 then 10 :: readText t
    else b :: readText (c :: t)

/-- What a file that is opened as text is written as. -/
def writeText (t : Bytes) : Bytes := t.flatMap (fun b => if b = 10 then [13, 10] else [b])

/-- `std::getline`, of a file that has just been opened. -/
def getline (content : Bytes) : Bytes := (readText content).takeWhile (· ≠ 10)

/-- What one launch finds and draws. -/
structure Launch where
  /-- What `BCryptGenRandom` draws, zeros where it fails. -/
  bytes : Fin 16 → UInt8
  /-- A file that is there can be opened. -/
  readable : Bool
  /-- The file can be created, or emptied where it is there. -/
  writable : Bool

/-- The line that the `ifstream` has, empty where it has none. -/
def storedId (readable : Bool) (file : Option Bytes) : Bytes :=
  match file with
  | some content => if readable then getline content else []
  | none => []

/-- `LoadOrCreateClientId`. -/
def loadOrCreateClientId (launch : Launch) (file : Option Bytes) : Bytes × Option Bytes :=
  let id := storedId launch.readable file
  if id ≠ [] then (id, file)
  else
    let id := generateRandomId launch.bytes
    (id, if launch.writable then some (writeText id) else file)

/-- The ids of launches, one after the other. -/
def clientIds : List Launch → Option Bytes → List Bytes
  | [], _ => []
  | launch :: launches, file =>
    let loaded := loadOrCreateClientId launch file
    loaded.1 :: clientIds launches loaded.2

end ClientId

end MzzPlork
