import TrustBoundary.Decimal.Reading
import TrustBoundary.Event.Timestamp
import TrustBoundary.Text.Blank

/-!
# Reading timestamps

The reader takes more than the writer gives.  Blanks may stand before every number and before the
marks between them; numbers need no zeros in front; a year may carry a sign, and then has any number
of digits; date and time are divided by a blank or by `T` in either case; and the time is that of
UTC (`Z` or `UTC` in any case) or of an offset from it in hours and minutes.

The parts are read from left to right.  A month, day, hour, minute or second that no date or time
has is refused right where it stands; that the month has so many days, and that the calendar has the
year, is asked at the end.
-/

namespace TrustBoundary.Timestamp

/-- Why a text is no timestamp. -/
inductive Error where
  /-- A part has a value that no date or time has. -/
  | outOfRange
  /-- The time in UTC lies beyond the calendar. -/
  | impossible
  /-- A character is none that can stand here. -/
  | invalid
  /-- The text ends too early. -/
  | tooShort
  /-- The text goes on behind the timestamp. -/
  | tooLong
deriving DecidableEq

/-- The wording of an error. -/
def Error.message : Error → String
  | outOfRange => "input is out of range"
  | impossible => "no possible date and time matching input"
  | invalid => "input contains invalid characters"
  | tooShort => "premature end of input"
  | tooLong => "trailing input"

/-- Reads a number of at least one digit and, where a width is given, at most that many. -/
def readNumber (width : Option Nat) (cs : List Char) : Except Error (Nat × List Char) :=
  match cs with
  | [] => .error .tooShort
  | c :: _ =>
    if c.isDigit then
      let digits := cs.takeWhile Char.isDigit
      let digits := width.elim digits digits.take
      .ok (Decimal.digitsValue digits, cs.drop digits.length)
    else .error .invalid

/-- Reads a number of at most two digits that lies between two bounds, after any blanks. -/
def readPart (least most : Nat) (cs : List Char) : Except Error (Nat × List Char) := do
  let (n, rest) ← readNumber (some 2) (Text.trimLeft cs)
  if least ≤ n ∧ n ≤ most then return (n, rest) else .error .outOfRange

/-- Reads a year, after any blanks: four digits at most, or a sign and any number of digits. -/
def readYear (cs : List Char) : Except Error (Int × List Char) := do
  let (year, rest) ← match Text.trimLeft cs with
    | '-' :: rest => do
      let (n, rest) ← readNumber none rest
      pure (-(n : Int), rest)
    | '+' :: rest => do
      let (n, rest) ← readNumber none rest
      pure ((n : Int), rest)
    | rest => do
      let (n, rest) ← readNumber (some 4) rest
      pure ((n : Int), rest)
  if -0x80000000 ≤ year ∧ year < 0x80000000 then return (year, rest) else .error .outOfRange

/-- Reads a mark between two numbers, after any blanks. -/
def readMark (mark : Char) (cs : List Char) : Except Error (List Char) :=
  match Text.trimLeft cs with
  | [] => .error .tooShort
  | c :: rest => if c = mark then .ok rest else .error .invalid

/-- Reads what divides date and time. -/
def readDivider : List Char → Except Error (List Char)
  | [] => .error .tooShort
  | c :: rest => if c = 'T' ∨ c = 't' ∨ c = ' ' then .ok rest else .error .invalid

/-- Reads a fraction of a second, if there is one, in nanoseconds.  Digits beyond the ninth do not
count. -/
def readNano : List Char → Except Error (Nat × List Char)
  | '.' :: cs => do
    let (_, _) ← readNumber (some 9) cs
    let digits := (cs.takeWhile Char.isDigit).take 9
    return (Decimal.digitsValue digits * Nat.pow 10 (9 - digits.length), cs.dropWhile Char.isDigit)
  | cs => .ok (0, cs)

/-- Reads two digits of an offset. -/
def readPair : List Char → Except Error ((Char × Char) × List Char)
  | [] => .error .tooShort
  | [c] => if c.utf8Size < 2 then .error .tooShort else .error .invalid
  | c :: d :: rest =>
    if c.isDigit && d.isDigit then .ok ((c, d), rest) else .error .invalid

/-- The value of two digits. -/
def pairValue (pair : Char × Char) : Nat := Decimal.digitsValue [pair.1, pair.2]

/-- Reads the difference to UTC in minutes. -/
def readOffset : List Char → Except Error (Int × List Char)
  | 'Z' :: rest | 'z' :: rest => .ok (0, rest)
  | [] => .error .tooShort
  | c :: rest =>
    match c :: rest with
    | u :: t :: k :: rest' =>
      if u.toUpper = 'U' ∧ t.toUpper = 'T' ∧ k.toUpper = 'C' then .ok (0, rest')
      else readSigned c rest
    | _ => readSigned c rest
where
  /-- Reads hours and minutes behind a sign. -/
  readSigned (c : Char) (rest : List Char) : Except Error (Int × List Char) := do
    unless c = '+' ∨ c = '-' ∨ c = '\u2212' do throw .invalid
    let (hours, rest) ← readPair rest
    let (minutes, rest) ← readPair (rest.dropWhile fun c => c = ':' || Text.isBlank c)
    if '5' < minutes.1 then throw .outOfRange
    let offset : Int := pairValue hours * 60 + pairValue minutes
    return (if c = '+' then offset else -offset, rest)

/-- The timestamp of a local time `offset` minutes ahead of UTC. -/
def ofLocal (date : Date) (hour minute second nano : Nat) (offset : Int) :
    Except Error Timestamp :=
  let total : Int := hour * 60 + minute - offset
  let day? :=
    if total < 0 then date.previous? else if 24 * 60 ≤ total then date.next? else some date
  let inDay := (total % (24 * 60)).toNat
  match day? with
  | none => .error .impossible
  | some day =>
    if hs : second ≤ 60 then
      if hn : nano < 1000000000 then
        .ok ⟨day, inDay / 60, inDay % 60, second, nano, by omega, by omega, hs, hn⟩
      else .error .outOfRange
    else .error .outOfRange

/-- Reads a timestamp. -/
def read (text : String) : Except Error Timestamp := do
  let (year, cs) ← readYear text.toList
  let (month, cs) ← readPart 1 12 (← readMark '-' cs)
  let (day, cs) ← readPart 1 31 (← readMark '-' cs)
  let (hour, cs) ← readPart 0 23 (← readDivider cs)
  let (minute, cs) ← readPart 0 59 (← readMark ':' cs)
  let (second, cs) ← readPart 0 60 (← readMark ':' cs)
  let (nano, cs) ← readNano cs
  let (offset, cs) ← readOffset (Text.trimLeft cs)
  unless (Text.trimLeft cs).isEmpty do throw .tooLong
  let some date := Date.of? year month day | throw .outOfRange
  unless offset.natAbs < 24 * 60 do throw .outOfRange
  ofLocal date hour minute second nano offset

end TrustBoundary.Timestamp
