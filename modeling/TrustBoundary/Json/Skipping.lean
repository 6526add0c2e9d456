import TrustBoundary.Json.Decoder
import TrustBoundary.Json.Numeral

/-!
# Stepping over values

`skipValue` steps over a value that nobody asks for.  It keeps the enclosing lists and objects on a
stack, so they may be nested to any depth, and it does not look at what numbers and strings stand
for.
-/

namespace TrustBoundary.Json

/-- What a value is enclosed in. -/
inductive Enclosure where
  | list
  | object
deriving DecidableEq

/-- Steps over the name of a member and its colon. -/
def skipName (cs : List Char) : Except Fault (List Char) :=
  match skipGap cs with
  | [] => stop .endInObject []
  | '"' :: rest => do colon (← skipString rest)
  | rest => stopAt .nameNotString rest

/-- What has been stepped over last. -/
inductive Skipped where
  /-- Something after which a value is due. -/
  | opening
  /-- A value. -/
  | value

/-- Steps over values until the outermost of the enclosures is closed.  Every step takes at least
one character, and `fuel` is larger than the number of characters. -/
def skipThrough : Nat → Skipped → List Enclosure → List Char → Except Fault (List Char)
  | 0, _, _, _ => stop .endInValue []
  | _ + 1, .value, [], cs => .ok cs
  | fuel + 1, .value, .list :: outer, cs =>
    match skipGap cs with
    | [] => stop .endInList []
    | ',' :: rest => skipThrough fuel .opening (.list :: outer) rest
    | ']' :: rest => skipThrough fuel .value outer rest
    | rest => stopAt .expectedListCommaOrEnd rest
  | fuel + 1, .value, .object :: outer, cs =>
    match skipGap cs with
    | [] => stop .endInObject []
    | ',' :: rest => do skipThrough fuel .opening (.object :: outer) (← skipName rest)
    | '\x7d' :: rest => skipThrough fuel .value outer rest
    | rest => stopAt .expectedObjectCommaOrEnd rest
  | fuel + 1, .opening, outer, cs =>
    match skipGap cs with
    | [] => stop .endInValue []
    | c :: rest =>
      if c = 'n' then do skipThrough fuel .value outer (← literal ['u', 'l', 'l'] rest)
      else if c = 't' then do skipThrough fuel .value outer (← literal ['r', 'u', 'e'] rest)
      else if c = 'f' then do skipThrough fuel .value outer (← literal ['a', 'l', 's', 'e'] rest)
      else if c = '-' then do skipThrough fuel .value outer (← skipNumeral rest)
      else if c.isDigit then do skipThrough fuel .value outer (← skipNumeral (c :: rest))
      else if c = '"' then do skipThrough fuel .value outer (← skipString rest)
      else if c = '[' then
        match skipGap rest with
        | [] => stop .endInList []
        | ']' :: rest => skipThrough fuel .value outer rest
        | rest => skipThrough fuel .opening (.list :: outer) rest
      else if c = '\x7b' then
        match skipGap rest with
        | [] => stop .endInObject []
        | '\x7d' :: rest => skipThrough fuel .value outer rest
        | rest => do skipThrough fuel .opening (.object :: outer) (← skipName rest)
      else stopAt .expectedValue (c :: rest)

/-- Steps over one value. -/
def skipValue (cs : List Char) : Except Fault (List Char) :=
  skipThrough (cs.length + 2) .opening [] cs

end TrustBoundary.Json
