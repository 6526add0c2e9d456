import TrustBoundary.Json.Decoder
import TrustBoundary.Json.Numeral
import TrustBoundary.Json.Value

/-!
# Reading values

`Value.decoder` reads any value.  Lists and objects may be nested 127 deep.  Of two members of an
object with one name the later stays.
-/

namespace TrustBoundary.Json.Value

/-- How deep lists and objects may be nested. -/
def maxDepth : Nat := 127

/-- Reads a value; `inner` reads the values inside a list or object, unless these are too deep. -/
def decoderWith (inner : Option (Decoder Value)) : Decoder Value := fun cs =>
  match skipGap cs with
  | [] => stop .endInValue []
  | c :: rest =>
    if c = 'n' then (literal ['u', 'l', 'l'] rest).map fun rest => (.null, rest)
    else if c = 't' then (literal ['r', 'u', 'e'] rest).map fun rest => (.bool true, rest)
    else if c = 'f' then (literal ['a', 'l', 's', 'e'] rest).map fun rest => (.bool false, rest)
    else if c = '-' then Decoder.map .number (readNumeral true) rest
    else if c.isDigit then Decoder.map .number (readNumeral false) (c :: rest)
    else if c = '"' then Decoder.map .string readString rest
    else if c = '[' then
      match inner with
      | none => stopAt .tooDeep (c :: rest)
      | some inner =>
        Decoder.map (fun items => .array items.reverse)
          (foldList (fun items => inner.map fun v => v :: items) []) rest
    else if c = '\x7b' then
      match inner with
      | none => stopAt .tooDeep (c :: rest)
      | some inner =>
        Decoder.map .ofFields
          (foldObject (fun fs name cs => do
            let (v, rest) ← inner (← colon cs)
            return (fs.insert name v, rest)) Fields.empty) rest
    else stopAt .expectedValue (c :: rest)

/-- Reads a value in which lists and objects are nested at most `depth` deep. -/
def decoder : Nat → Decoder Value
  | 0 => decoderWith none
  | depth + 1 => decoderWith (some (decoder depth))

/-- Reads a text that holds one value. -/
def read (text : String) : Except Error Value := (decoder maxDepth).run text

end TrustBoundary.Json.Value
