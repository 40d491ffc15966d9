import SqlFerry.Bytes.Deflate
import SqlFerry.Value

/-!
# Gzip

Compressed files: members with a header, deflated blocks, a checksum and a length. Reading accepts
every kind of block; writing stores the bytes as they are.
-/

namespace SqlFerry.Bytes.Gzip

open Deflate (Halt number16 inflate)

/-! ## The checksum -/

private def crcStep (c : UInt32) : UInt32 :=
  if c % 2 == 1 then (c >>> 1) ^^^ 0xEDB88320 else c >>> 1

private def crcEntry (b : UInt32) : UInt32 :=
  crcStep (crcStep (crcStep (crcStep (crcStep (crcStep (crcStep (crcStep b)))))))

def crc32 (bs : Octets) : UInt32 :=
  (bs.foldl (fun c b => crcEntry ((c ^^^ b.toUInt32) &&& 0xFF) ^^^ (c >>> 8)) 0xFFFFFFFF) ^^^
    0xFFFFFFFF

/-! ## Damage -/

inductive Damage where
  | cutShort
  | noMember (start : Octets)
  | unknownMethod
  | wrongChecksum
  | wrongLength
  | badData (what : String)
  deriving DecidableEq, Repr

namespace Damage

def className : Damage → String
  | cutShort => "EOFError"
  | noMember _ | unknownMethod | wrongChecksum | wrongLength => "BadGzipFile"
  | badData _ => "error"

def message : Damage → String
  | cutShort => "Compressed file ended before the end-of-stream marker was reached"
  | noMember start => s!"Not a gzipped file ({Value.shownBytes start})"
  | unknownMethod => "Unknown compression method"
  | wrongChecksum => "CRC check failed"
  | wrongLength => "Incorrect length of data produced"
  | badData what => "Error -3 while decompressing data: " ++ what

def ofHalt : Halt → Damage
  | .bad what => .badData what
  | .dry | .full => .cutShort

end Damage

/-! ## Members -/

def magic : Octets :=
  [0x1F, 0x8B]

private def skip (n : Nat) (bs : Octets) : Except Damage Octets :=
  if n ≤ bs.length then .ok (bs.drop n) else .error .cutShort

private def skipText (bs : Octets) : Octets :=
  (bs.dropWhile (· != 0)).drop 1

private def skipExtra : Octets → Except Damage Octets
  | a :: b :: rest => skip (number16 a b) rest
  | _ => .error .cutShort

private def afterHeader (bs : Octets) : Except Damage Octets := do
  if !magic.isPrefixOf bs then throw (.noMember (bs.take 2))
  match bs.drop 2 with
  | method :: flags :: rest =>
    let bs ← skip 6 rest
    if method ≠ 8 then throw .unknownMethod
    let flag (n : Nat) : Bool := flags.toNat / Nat.pow 2 n % 2 == 1
    let bs ← if flag 2 then skipExtra bs else pure bs
    let bs := if flag 3 then skipText bs else bs
    let bs := if flag 4 then skipText bs else bs
    if flag 1 then skip 2 bs else return bs
  | _ => throw .cutShort

private def littleEndian (n : Nat) : Octets :=
  [n.toUInt8, (n / 256).toUInt8, (n / 65536).toUInt8, (n / 16777216).toUInt8]

private def afterTrailer (out rest : Octets) : Except Damage Octets := do
  let after ← skip 8 rest
  if rest.take 4 ≠ littleEndian (crc32 out).toNat then throw .wrongChecksum
  if (rest.drop 4).take 4 ≠ littleEndian out.length then throw .wrongLength
  return after

/-- What follows the header of the next member, if there is one, when `rest` follows the blocks of a
member that holds `out`. Zeros may stand between members and after the last. -/
private def nextMember (out rest : Octets) : Except Damage (Option Octets) := do
  match (← afterTrailer out rest).dropWhile (· == 0) with
  | [] => return none
  | more => return some (← afterHeader more)

private def members : (fuel : Nat) → Octets → Except Damage Octets
  | 0, _ => throw .cutShort
  | n + 1, bs => do
    let (out, rest) := inflate bs
    match ← nextMember out (← rest.mapError .ofHalt) with
    | none => return out
    | some more => return out ++ (← members n more)

def decompress (bs : Octets) : Except Damage Octets := do
  if bs.isEmpty then return []
  members bs.length (← afterHeader bs)

/-! ## The head of a file -/

def block : Nat :=
  8192

/-- A file of which the head is read: what came out so far, how many bytes may come out in all, and
what follows the header of the member that is being read, with how many bytes of it are taken and
how many came out of them. -/
private structure HeadReading where
  head : Octets := []
  bound : Nat := block
  member : Octets
  taken : Nat := 0
  given : Nat := 0

namespace HeadReading

/-- Adds bytes to the head. After the first of them there may be one block more. -/
private def add (r : HeadReading) (bs : Octets) : HeadReading :=
  let head := r.head ++ bs
  { r with
    head, given := r.given + bs.length
    bound := if r.head.isEmpty && !bs.isEmpty then head.length + block else r.bound }

/-- Reads on until the head is a whole block or the file ends. Each time the member is inflated from
its start, as what comes out of more bytes begins with what came out of fewer. -/
private def finish : (fuel : Nat) → HeadReading → Except Damage Octets
  | 0, _ => throw .cutShort
  | n + 1, r => do
    let taken := min (r.taken + block) r.member.length
    let (out, rest) := inflate (r.member.take taken) (some (r.given + (r.bound - r.head.length)))
    let next := { r.add (out.drop r.given) with taken }
    match rest with
    | .error (.bad what) => throw (.badData what)
    | .error _ =>
      if block ≤ next.head.length then return next.head.take block
      else if r.taken = r.member.length then throw .cutShort
      else finish n next
    | .ok rest =>
      if block ≤ next.head.length then return next.head.take block
      else match ← nextMember out (rest ++ r.member.drop taken) with
        | none => return next.head
        | some member => finish n { next with member, taken := 0, given := 0 }

end HeadReading

/-- The first block of the bytes that a file holds. The file is taken a block at a time, and where
the first does not give enough, what follows is asked for a whole block of which the rest is left:
damage that is met on the way counts, and no other. -/
def head (bs : Octets) : Except Damage Octets := do
  if bs.isEmpty then return []
  HeadReading.finish (bs.length + 1) { member := ← afterHeader bs }

/-! ## Writing -/

private def storedBlocks : (fuel : Nat) → Octets → Octets
  | 0, _ => []
  | n + 1, bs =>
    let part := bs.take 65535
    let rest := bs.drop 65535
    let length := part.length
    let head := [if rest.isEmpty then 1 else 0, length.toUInt8, (length / 256).toUInt8,
      (65535 - length).toUInt8, ((65535 - length) / 256).toUInt8]
    head ++ part ++ if rest.isEmpty then [] else storedBlocks n rest

def compress (bs : Octets) : Octets :=
  [0x1F, 0x8B, 8, 0, 0, 0, 0, 0, 2, 0xFF] ++ storedBlocks (bs.length + 1) bs ++
    littleEndian (crc32 bs).toNat ++ littleEndian bs.length

end SqlFerry.Bytes.Gzip
