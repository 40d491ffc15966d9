import SqlFerry.Bytes.Utf8

/-!
# Deflated bytes

Blocks of bytes that are stored, or written as symbols under codes that are fixed or described in
the block. Inflating may be given room for so many bytes: it then goes on up to the first byte that
is due and has none.
-/

namespace SqlFerry.Bytes.Deflate

inductive Halt where
  /-- The bytes end. -/
  | dry
  /-- A byte is due that there is no room for. -/
  | full
  | bad (what : String)
  deriving DecidableEq, Repr

/-! ## Bits -/

/-- Bytes of which the first `used` bits of the first are read already, the lowest first. -/
structure Bits where
  bytes : Octets
  used : Nat := 0

namespace Bits

def bit? (b : Bits) : Option (Nat × Bits) :=
  match b.bytes with
  | [] => none
  | x :: rest =>
    let v := x.toNat / Nat.pow 2 b.used % 2
    some (v, if b.used = 7 then ⟨rest, 0⟩ else ⟨x :: rest, b.used + 1⟩)

def aligned (b : Bits) : Octets :=
  if b.used = 0 then b.bytes else b.bytes.drop 1

end Bits

structure Inflation where
  out : Octets := []
  bits : Bits
  room : Option Nat := none

def Inflation.fitting (s : Inflation) (n : Nat) : Nat :=
  (s.room.map (min n)).getD n

/-- Steps that inflate. What came out before they stop stays. -/
abbrev Inflating := ExceptT Halt (StateM Inflation)

private def bad {α : Type} (what : String) : Inflating α :=
  throw (.bad what)

private def bit : Inflating Nat := do
  match (← get).bits.bit? with
  | none => throw .dry
  | some (v, bits) =>
    modify fun s => { s with bits }
    return v

private def number : (n : Nat) → Inflating Nat
  | 0 => return 0
  | n + 1 => do
    let v ← bit
    return v + 2 * (← number n)

/-! ## Codes of symbols -/

/-- The codes of symbols: for each length how many there are, and the symbols in the order of their
codes. -/
structure Code where
  counts : List Nat
  symbols : List Nat

namespace Code

/-- The code in which each symbol has the length given at its place; length zero means none. -/
def ofLengths (lengths : List Nat) : Code :=
  let of (n : Nat) := (lengths.zipIdx.filter (·.1 == n)).map (·.2)
  let groups := (List.range (max 1 (lengths.foldl max 0))).map fun n => of (n + 1)
  { counts := groups.map List.length, symbols := groups.flatten }

private def symbolFrom (symbols : List Nat) :
    (counts : List Nat) → (code first index : Nat) → Inflating (Option Nat)
  | [], _, _, _ => return none
  | count :: counts, code, first, index => do
    let code := code + (← bit)
    if code < first + count then return symbols[index + (code - first)]?
    else symbolFrom symbols counts (2 * code) (2 * (first + count)) (index + count)

/-- Reads one symbol, if the next bits are the code of one. No more bits are read than the longest
code has, and one where there is no code. -/
def symbol? (c : Code) : Inflating (Option Nat) :=
  symbolFrom c.symbols c.counts 0 0 0

/-- How many codes of the longest length are left. It is negative if there are too many codes of any
length. -/
private def left (c : Code) : Int :=
  c.counts.foldl (fun (codes : Int) (n : Nat) => 2 * codes - n) 1

def isComplete (c : Code) : Bool :=
  c.left == 0

/-- Whether the lengths can be used: complete, or a single code of one bit. -/
def isUsable (c : Code) : Bool :=
  c.isComplete || (c.symbols.length == 1 && c.counts.head? == some 1)

end Code

private def lengthBases : List (Nat × Nat) :=
  [(3, 0), (4, 0), (5, 0), (6, 0), (7, 0), (8, 0), (9, 0), (10, 0), (11, 1), (13, 1), (15, 1),
   (17, 1), (19, 2), (23, 2), (27, 2), (31, 2), (35, 3), (43, 3), (51, 3), (59, 3), (67, 4),
   (83, 4), (99, 4), (115, 4), (131, 5), (163, 5), (195, 5), (227, 5), (258, 0)]

private def distanceBases : List (Nat × Nat) :=
  [(1, 0), (2, 0), (3, 0), (4, 0), (5, 1), (7, 1), (9, 2), (13, 2), (17, 3), (25, 3), (33, 4),
   (49, 4), (65, 5), (97, 5), (129, 6), (193, 6), (257, 7), (385, 7), (513, 8), (769, 8),
   (1025, 9), (1537, 9), (2049, 10), (3073, 10), (4097, 11), (6145, 11), (8193, 12), (12289, 12),
   (16385, 13), (24577, 13)]

/-- Repeats `length` bytes from `distance` back, over and over if these are fewer; `out` has the
last byte first. -/
private def repeatBack (out : Octets) (distance length : Nat) : Octets :=
  let source := ((out.drop (distance - length)).take (min distance length)).reverse
  ((List.replicate (length / distance + 1) source).flatten.take length).reverse ++ out

private def based (bases : List (Nat × Nat)) (symbol : Nat) (complaint : String) :
    Inflating Nat := do
  match bases[symbol]? with
  | none => bad complaint
  | some (base, extra) => return base + (← number extra)

private def distance (distances : Code) : Inflating Nat := do
  let complaint := "invalid distance code"
  match ← distances.symbol? with
  | none => bad complaint
  | some d => based distanceBases d complaint

private def put (b : UInt8) : Inflating Unit := do
  let s ← get
  if s.room = some 0 then throw .full
  set { s with out := b :: s.out, room := s.room.map (· - 1) }

private def putAgain (back length : Nat) : Inflating Unit := do
  let s ← get
  if s.room = some 0 then throw .full
  if s.out[back - 1]?.isNone then bad "invalid distance too far back"
  let n := s.fitting length
  set { s with out := repeatBack s.out back n, room := s.room.map (· - n) }
  if n < length then throw .full

private def inflateCodes (literals distances : Code) : (fuel : Nat) → Inflating Unit
  | 0 => throw .dry
  | n + 1 => do
    let complaint := "invalid literal/length code"
    match ← literals.symbol? with
    | none => bad complaint
    | some s =>
      if s < 256 then
        put s.toUInt8
        inflateCodes literals distances n
      else if s = 256 then return
      else
        let length ← based lengthBases (s - 257) complaint
        putAgain (← distance distances) length
        inflateCodes literals distances n

private def fixedLiterals : Code :=
  .ofLengths (List.replicate 144 8 ++ List.replicate 112 9 ++ List.replicate 24 7 ++
    List.replicate 8 8)

private def fixedDistances : Code :=
  .ofLengths (List.replicate 30 5)

private def lengthOrder : List Nat :=
  [16, 17, 18, 0, 8, 7, 9, 6, 10, 5, 11, 4, 12, 3, 13, 2, 14, 1, 15]

/-- Reads `total` lengths, which may be repeated. Under a code without symbols each is zero. -/
private def readLengths (code : Code) (total : Nat) :
    (fuel : Nat) → (done : List Nat) → Inflating (List Nat)
  | 0, _ => throw .dry
  | n + 1, done => do
    let complaint := "invalid bit length repeat"
    if total = done.length then return done.reverse
    else if total < done.length then bad complaint
    else match ← code.symbol? with
      | none => readLengths code total n (0 :: done)
      | some 16 =>
        let k ← number 2
        match done.head? with
        | none => bad complaint
        | some last => readLengths code total n (List.replicate (k + 3) last ++ done)
      | some 17 => do readLengths code total n (List.replicate ((← number 3) + 3) 0 ++ done)
      | some 18 => do readLengths code total n (List.replicate ((← number 7) + 11) 0 ++ done)
      | some s => readLengths code total n (s :: done)

private def readNumbers (bits : Nat) : (n : Nat) → Inflating (List Nat)
  | 0 => return []
  | n + 1 => do
    let v ← number bits
    return v :: (← readNumbers bits n)

private def dynamicCodes : Inflating (Code × Code) := do
  let literalCount := (← number 5) + 257
  let distanceCount := (← number 5) + 1
  let lengthCount := (← number 4) + 4
  if 286 < literalCount || 30 < distanceCount then bad "too many length or distance symbols"
  let lengths ← readNumbers 3 lengthCount
  let lengthOf (s : Nat) : Nat := ((lengthOrder.zip lengths).lookup s).getD 0
  let lengthCode := Code.ofLengths ((List.range 19).map lengthOf)
  if !lengthCode.isComplete && !lengthCode.symbols.isEmpty then bad "invalid code lengths set"
  let total := literalCount + distanceCount
  let all ← readLengths lengthCode total (total + 1) []
  let literals := Code.ofLengths (all.take literalCount)
  let distances := Code.ofLengths (all.drop literalCount)
  if all[256]?.getD 0 = 0 then bad "invalid code -- missing end-of-block"
  if !literals.isUsable then bad "invalid literal/lengths set"
  if !distances.isUsable && !distances.symbols.isEmpty then bad "invalid distances set"
  return (literals, distances)

def number16 (a b : UInt8) : Nat :=
  a.toNat + 256 * b.toNat

private def stored : Inflating Unit := do
  let s ← get
  match s.bits.aligned with
  | l0 :: l1 :: n0 :: n1 :: rest =>
    let length := number16 l0 l1
    if length + number16 n0 n1 ≠ 65535 then bad "invalid stored block lengths"
    let n := s.fitting (min length rest.length)
    set { out := (rest.take n).reverse ++ s.out, bits := ⟨rest.drop n, 0⟩,
          room := s.room.map (· - n) : Inflation }
    if n < length then throw (if n < rest.length then .full else .dry)
  | _ => throw .dry

private def inflateBlocks : (fuel : Nat) → Inflating Unit
  | 0 => throw .dry
  | n + 1 => do
    let last ← number 1
    let kind ← number 2
    let fuel := 8 * (← get).bits.bytes.length + 1
    match kind with
    | 0 => stored
    | 1 => inflateCodes fixedLiterals fixedDistances fuel
    | 2 =>
      let (literals, distances) ← dynamicCodes
      inflateCodes literals distances fuel
    | _ => bad "invalid block type"
    if last ≠ 1 then inflateBlocks n

def inflate (bs : Octets) (room : Option Nat := none) : Octets × Except Halt Octets :=
  let (r, s) := (inflateBlocks (8 * bs.length + 1)).run { bits := { bytes := bs }, room }
  (s.out.reverse, r.map fun _ => s.bits.aligned)

end SqlFerry.Bytes.Deflate
