import MzzPlork.Core.JsonText

/-!
# What the Parser Does to its Cursor

`runtime/src/Json.cpp` once more, for what its functions do to the cursor they
share: the position is assigned, the text is read at a position with `substr`
or `compare`, and a call of `ParseValue` returns true.

Each function has a list of these, in the order of the source. What a call
leaves behind is taken from the parser itself. A loop that moves the cursor one
byte at a time is noted once, where it ends.

## Main definitions

* `Note`: One of the three.
* `stringNotes`, `wordNotes`, `valueNotes`, `arrayNotes`, `objectNotes`: What
  the parser functions do.
* `parseNotes`: What `Parse` does.
-/

namespace MzzPlork

namespace JsonText

/-- What happens to the cursor. -/
inductive Note where
  /-- `pos` is assigned. -/
  | moved (pos : Nat)
  /-- `text.substr(pos, ...)` or `text.compare(pos, ...)`. -/
  | read (pos : Nat)
  /-- `ParseValue` returns true. -/
  | parsed (first last : Nat)
  deriving DecidableEq

/-- What comes after a call that returned true. -/
def Outcome.notes {α : Type} (r : Outcome α) (f : Cursor → List Note) : List Note :=
  match r with
  | .ok c _ => f c
  | _ => []

/-- `Consume`. -/
def consumeNotes (c : Cursor) (expected : UInt8) : List Note :=
  [.moved c.skipWhitespace.pos, .moved (c.consume expected).1.pos]

/-- The loop of `ParseStringLiteral`. -/
def bodyNotes : Nat → Cursor → List Note
  | 0, _ => []
  | fuel + 1, c =>
    if c.eof || c.peek = 34 then []
    else
      let (c, ch) := c.next
      if ch ≠ 92 then .moved c.pos :: bodyNotes fuel c
      else
        let start := c
        let (c, esc) := c.next
        match unescape esc with
        | some _ => .moved start.pos :: .moved c.pos :: bodyNotes fuel c
        | none =>
          if esc ≠ 117 then [.moved start.pos, .moved c.pos]
          else if c.text.length < c.pos + 4 then [.moved start.pos, .moved c.pos]
          else
            .moved start.pos :: .moved c.pos :: .read c.pos :: .moved (c.advance 4).pos
              :: bodyNotes fuel (c.advance 4)

/-- `ParseStringLiteral`. -/
def stringNotes (c : Cursor) : List Note :=
  consumeNotes c 34 ++
    match c.consume 34 with
    | (_, false) => []
    | (c, true) =>
      bodyNotes (c.text.length + 1) c ++
        (stringBody (c.text.length + 1) c []).notes fun c => consumeNotes c 34

/-- The end of `ParseValue`, which reads the number once it has been skipped. -/
def numberNotes (c : Cursor) : List Note :=
  let start := c
  let c := if c.peek = 45 then c.advance 1 else c
  let stop := c.skipWhile isNumberByte
  if stop.pos = start.pos then [.moved c.pos, .moved stop.pos]
  else [.moved c.pos, .moved stop.pos, .read start.pos]

/-- `ParseValue` where the value is none of a string, an object or an array. -/
def wordNotes (c : Cursor) : List Note :=
  .read c.pos ::
    if c.startsWith (ascii "true") then [.moved (c.advance 4).pos]
    else
      .read c.pos ::
        if c.startsWith (ascii "false") then [.moved (c.advance 5).pos]
        else
          .read c.pos ::
            if c.startsWith (ascii "null") then [.moved (c.advance 4).pos] else numberNotes c

mutual

/-- `ParseValue`. -/
def valueNotes : Nat → Cursor → List Note
  | 0, _ => []
  | fuel + 1, c =>
    let start := c
    let c := c.skipWhitespace
    .moved c.pos ::
      ((if c.peek = 34 then stringNotes c
        else if c.peek = 123 then objectNotes fuel c
        else if c.peek = 91 then arrayNotes fuel c
        else wordNotes c) ++
      (parseValue (fuel + 1) start).notes fun c => [.parsed start.pos c.pos])

/-- `ParseArray`. -/
def arrayNotes : Nat → Cursor → List Note
  | 0, _ => []
  | fuel + 1, c =>
    consumeNotes c 91 ++
      match c.consume 91 with
      | (_, false) => []
      | (c, true) =>
        let c := c.skipWhitespace
        .moved c.pos :: if c.peek = 93 then [.moved (c.advance 1).pos] else itemsNotes fuel c

/-- The loop of `ParseArray`. -/
def itemsNotes : Nat → Cursor → List Note
  | 0, _ => []
  | fuel + 1, c =>
    valueNotes fuel c ++
      (parseValue fuel c).notes fun c =>
        let c := c.skipWhitespace
        .moved c.pos :: consumeNotes c 44 ++
          match c.consume 44 with
          | (c, true) => itemsNotes fuel c
          | (c, false) => consumeNotes c 93

/-- `ParseObjectValue`. -/
def objectNotes : Nat → Cursor → List Note
  | 0, _ => []
  | fuel + 1, c =>
    consumeNotes c 123 ++
      match c.consume 123 with
      | (_, false) => []
      | (c, true) =>
        let c := c.skipWhitespace
        .moved c.pos :: if c.peek = 125 then [.moved (c.advance 1).pos] else fieldsNotes fuel c

/-- The loop of `ParseObjectValue`. -/
def fieldsNotes : Nat → Cursor → List Note
  | 0, _ => []
  | fuel + 1, c =>
    let c := c.skipWhitespace
    .moved c.pos :: stringNotes c ++
      (parseStringLiteral c).notes fun c =>
        consumeNotes c 58 ++
          match c.consume 58 with
          | (_, false) => []
          | (c, true) =>
            valueNotes fuel c ++
              (parseValue fuel c).notes fun c =>
                let c := c.skipWhitespace
                .moved c.pos :: consumeNotes c 44 ++
                  match c.consume 44 with
                  | (c, true) => fieldsNotes fuel c
                  | (c, false) => consumeNotes c 125

end

/-- `Parse`. -/
def parseNotes (text : Bytes) : List Note := valueNotes (3 * text.length + 3) ⟨text, 0⟩

/-- The positions that the cursor is given. -/
def positions (notes : List Note) : List Nat :=
  notes.filterMap fun
    | .moved pos => some pos
    | _ => none

/-- The positions at which the text is read. -/
def reads (notes : List Note) : List Nat :=
  notes.filterMap fun
    | .read pos => some pos
    | _ => none

/-- Where the calls of `ParseValue` that return true start and end. -/
def values (notes : List Note) : List (Nat × Nat) :=
  notes.filterMap fun
    | .parsed first last => some (first, last)
    | _ => none

end JsonText

end MzzPlork
