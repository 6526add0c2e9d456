import TrustBoundary.Cipher.Blake2b

/-!
# The key derivation Argon2id

A secret and a salt fill a memory of blocks of 1024 bytes: lanes of equal length, each in four
segments, several times over.  Every block is made of the one before it in its lane and of another
one, which is chosen by address blocks in the first half of the first pass and by the block before
afterwards.  The key is the hash of the last blocks of all lanes.
-/

namespace TrustBoundary.Argon2id

/-- What a derivation may cost. -/
structure Cost where
  /-- The memory in kibibytes. -/
  memory : UInt32 := 19456
  /-- How often the memory is filled. -/
  iterations : UInt32 := 2
  /-- The number of lanes. -/
  parallelism : UInt32 := 1
deriving DecidableEq

/-- Why no derivation can have a cost. -/
inductive CostFault where
  | memoryTooSmall
  | timeTooSmall
  | tooFewLanes
  | tooManyLanes
deriving DecidableEq

/-- The wording of a fault. -/
def CostFault.message : CostFault → String
  | memoryTooSmall => "memory cost is too small"
  | timeTooSmall => "time cost is too small"
  | tooFewLanes => "not enough threads"
  | tooManyLanes => "too many threads"

/-- What is wrong with a cost: a lane needs eight kibibytes, and there are less than 2²⁴ lanes. -/
def Cost.fault? (cost : Cost) : Option CostFault :=
  if cost.memory < 8 then some .memoryTooSmall
  else if cost.memory < cost.parallelism * 8 then some .memoryTooSmall
  else if cost.iterations < 1 then some .timeTooSmall
  else if cost.parallelism < 1 then some .tooFewLanes
  else if cost.parallelism > 0xffffff then some .tooManyLanes
  else none

/-! ### Blocks -/

/-- A block of 1024 bytes. -/
abbrev Block := Vector UInt64 128

/-- The block of zeros. -/
def zero : Block := Vector.replicate 128 0

/-- The sum of two blocks, bit by bit. -/
@[inline] def add (x y : Block) : Block := x.zipWith (· ^^^ ·) y

/-- A sum to which the lower halves add twice their product. -/
@[inline] def mulAdd (x y : UInt64) : UInt64 :=
  x + y + 2 * (x &&& 0xffffffff) * (y &&& 0xffffffff)

/-- Four words stirred into each other. -/
def stir (q : Quad UInt64) : Quad UInt64 :=
  let a := mulAdd q.a q.b
  let d := Blake2b.turn (q.d ^^^ a) 32
  let c := mulAdd q.c d
  let b := Blake2b.turn (q.b ^^^ c) 24
  let a := mulAdd a b
  let d := Blake2b.turn (d ^^^ a) 16
  let c := mulAdd c d
  ⟨a, Blake2b.turn (b ^^^ c) 63, c, d⟩

/-- Nothing for each of four columns. -/
def nothing : Quad Unit := ⟨(), (), (), ()⟩

/-- Sixteen words of a block stirred into each other: those at the places that `line` tells. -/
def stirLine (b : Block) (line : Fin 16 → Fin 128) : Vector UInt64 16 :=
  let row (i : Nat) (h : i + 3 < 16) : Quad UInt64 :=
    ⟨b.get (line ⟨i, by omega⟩), b.get (line ⟨i + 1, by omega⟩), b.get (line ⟨i + 2, by omega⟩),
      b.get (line ⟨i + 3, h⟩)⟩
  let s : Quad (Quad UInt64) :=
    ⟨row 0 (by decide), row 4 (by decide), row 8 (by decide), row 12 (by decide)⟩
  let s := s.weave nothing nothing fun _ => stir
  #v[s.a.a, s.a.b, s.a.c, s.a.d, s.b.a, s.b.b, s.b.c, s.b.d,
    s.c.a, s.c.b, s.c.c, s.c.d, s.d.a, s.d.b, s.d.c, s.d.d]

/-- Each of the eight rows of eight pairs of words stirred. -/
def stirRows (b : Block) : Block :=
  let rows : Vector (Vector UInt64 16) 8 :=
    Vector.ofFn fun i => stirLine b fun k => ⟨16 * i + k, by omega⟩
  Vector.ofFn fun n => (rows.get ⟨n / 16, by omega⟩).get ⟨n % 16, by omega⟩

/-- Each of the eight columns of eight pairs of words stirred. -/
def stirColumns (b : Block) : Block :=
  let columns : Vector (Vector UInt64 16) 8 :=
    Vector.ofFn fun i => stirLine b fun k => ⟨16 * (k / 2) + 2 * i + k % 2, by omega⟩
  Vector.ofFn fun n =>
    (columns.get ⟨n % 16 / 2, by omega⟩).get ⟨2 * (n / 16) + n % 2, by omega⟩

/-- A block made of two. -/
def compress (x y : Block) : Block :=
  let sum := add x y
  add sum (stirColumns (stirRows sum))

/-- A block of 1024 bytes, every word with its lowest byte first. -/
def blockOf (bytes : List UInt8) : Block :=
  let words := ((Bytes.pieces 7 bytes).map fun w => (Bytes.toNat w).toUInt64).toArray
  Vector.ofFn fun i => words.getD i 0

/-- The 1024 bytes of a block. -/
def bytesOf (b : Block) : List UInt8 := b.toList.flatMap fun w => Bytes.ofNat 8 w.toNat

/-! ### The memory -/

/-- How the memory is divided. -/
structure Layout where
  lanes : Nat
  /-- The number of blocks of a segment. -/
  segment : Nat
  passes : Nat

/-- The number of blocks of a lane. -/
def Layout.lane (l : Layout) : Nat := 4 * l.segment

/-- The number of all blocks. -/
def Layout.size (l : Layout) : Nat := l.lanes * l.lane

/-- The largest memory of whole segments that a cost allows. -/
def Cost.layout (cost : Cost) : Layout :=
  ⟨cost.parallelism.toNat, cost.memory.toNat / (4 * cost.parallelism.toNat), cost.iterations.toNat⟩

/-- A segment of a lane in a pass. -/
structure Segment where
  pass : Nat
  slice : Nat
  lane : Nat

/-- Whether the blocks of a segment are chosen by address blocks. -/
def Segment.isAddressed (s : Segment) : Bool := s.pass == 0 && s.slice < 2

/-- The address block of a segment with this number. -/
def addressBlock (l : Layout) (s : Segment) (number : Nat) : Block :=
  let words : Array UInt64 := #[s.pass.toUInt64, s.lane.toUInt64, s.slice.toUInt64, l.size.toUInt64,
    l.passes.toUInt64, 2, number.toUInt64]
  compress zero (compress zero (Vector.ofFn fun i => words.getD i 0))

/-- Where the other block of a new block stands: `word` chooses the lane and the block in it among
those that are ready, the later ones more often.  -/
def reference (l : Layout) (s : Segment) (index : Nat) (word : UInt64) : Nat :=
  let lane := if s.pass = 0 ∧ s.slice = 0 then s.lane else (word >>> 32).toNat % l.lanes
  let finished := if s.pass = 0 then s.slice * l.segment else l.lane - l.segment
  let ready :=
    if lane = s.lane then finished + index - 1 else if index = 0 then finished - 1 else finished
  let x := (word &&& 0xffffffff).toNat
  let back := (ready * ((x * x) >>> 32)) >>> 32
  let first := if s.pass = 0 ∨ s.slice = 3 then 0 else (s.slice + 1) * l.segment
  lane * l.lane + (first + (ready - 1 - back)) % l.lane

/-- The block at an index of a segment filled. -/
def fillBlock (l : Layout) (s : Segment) (addresses memory : Array Block) (index : Nat) :
    Array Block :=
  let column := s.slice * l.segment + index
  let place := s.lane * l.lane + column
  let before := memory.getD (s.lane * l.lane + (column + l.lane - 1) % l.lane) zero
  let word :=
    if s.isAddressed then (addresses.getD (index / 128) zero).get ⟨index % 128, by omega⟩
    else before.get 0
  let made := compress before (memory.getD (reference l s index word) zero)
  memory.setIfInBounds place (if s.pass = 0 then made else add made (memory.getD place zero))

/-- A segment filled.  The first two blocks of a lane are there from the start. -/
def fillSegment (l : Layout) (memory : Array Block) (s : Segment) : Array Block :=
  let addresses := if s.isAddressed
    then ((List.range ((l.segment + 127) / 128)).map fun i => addressBlock l s (i + 1)).toArray
    else #[]
  let first := if s.pass = 0 ∧ s.slice = 0 then 2 else 0
  ((List.range l.segment).drop first).foldl (fillBlock l s addresses) memory

/-- The segments in the order in which they are filled. -/
def segments (l : Layout) : List Segment :=
  (List.range l.passes).flatMap fun pass =>
    (List.range 4).flatMap fun slice => (List.range l.lanes).map fun lane => ⟨pass, slice, lane⟩

/-- The hash of all that goes in. -/
def seed (cost : Cost) (size : Nat) (secret salt : List UInt8) : List UInt8 :=
  let number (n : Nat) : List UInt8 := Bytes.ofNat 4 n
  Blake2b.hash 64 (number cost.parallelism.toNat ++ number size ++ number cost.memory.toNat ++
    number cost.iterations.toNat ++ number 0x13 ++ number 2 ++ number secret.length ++ secret ++
    number salt.length ++ salt ++ number 0 ++ number 0)

/-- The memory before it is filled: the first two blocks of each lane come from the seed. -/
def start (l : Layout) (seed : List UInt8) : Array Block :=
  let blockAt (lane column : Nat) : Block :=
    blockOf (Blake2b.longHash 1024 (seed ++ Bytes.ofNat 4 column ++ Bytes.ofNat 4 lane))
  (List.range l.lanes).foldl (fun memory lane =>
    (memory.setIfInBounds (lane * l.lane) (blockAt lane 0)).setIfInBounds (lane * l.lane + 1)
      (blockAt lane 1)) (Array.replicate l.size zero)

/-- A key of `size` bytes. -/
def derive (cost : Cost) (size : Nat) (secret salt : List UInt8) : List UInt8 :=
  let l := cost.layout
  let memory := (segments l).foldl (fillSegment l) (start l (seed cost size secret salt))
  let last := (List.range l.lanes).foldl
    (fun sum lane => add sum (memory.getD (lane * l.lane + l.lane - 1) zero)) zero
  Blake2b.longHash size (bytesOf last)

theorem length_derive {size : Nat} (h : size ≤ 64) (cost : Cost) (secret salt : List UInt8) :
    (derive cost size secret salt).length = size := Blake2b.length_longHash h _

end TrustBoundary.Argon2id
