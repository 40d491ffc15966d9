/-!
# UTF-8

Text from bytes and back. Bytes that are no text are cut into the longest beginnings of characters;
decoding either stops at the first of them or puts a replacement character for each.
-/

namespace SqlFerry.Bytes

abbrev Octets := List UInt8

/-- How many bytes the character has that a byte begins, and the range its second byte is in. -/
private def leadClass (b : Nat) : Option (Nat × Nat × Nat) :=
  if 0xC2 ≤ b && b ≤ 0xDF then some (2, 0x80, 0xBF)
  else if b == 0xE0 then some (3, 0xA0, 0xBF)
  else if b == 0xED then some (3, 0x80, 0x9F)
  else if 0xE1 ≤ b && b ≤ 0xEF then some (3, 0x80, 0xBF)
  else if b == 0xF0 then some (4, 0x90, 0xBF)
  else if b == 0xF4 then some (4, 0x80, 0x8F)
  else if 0xF1 ≤ b && b ≤ 0xF3 then some (4, 0x80, 0xBF)
  else none

private def continues (low high : Nat) : Octets → Option Nat
  | b :: _ => if low ≤ b.toNat && b.toNat ≤ high then some (b.toNat % 64) else none
  | [] => none

/-- The character that begins the bytes and how many of them it takes, or how many bytes belong to
no character. -/
def decodeOne (b : UInt8) (rest : Octets) : Char × Nat ⊕ Nat :=
  let n := b.toNat
  if n < 0x80 then .inl (Char.ofNat n, 1)
  else match leadClass n with
    | none => .inr 1
    | some (length, low, high) =>
      match continues low high rest with
      | none => .inr 1
      | some x =>
        if length = 2 then .inl (Char.ofNat (n % 32 * 64 + x), 2)
        else match continues 0x80 0xBF (rest.drop 1) with
          | none => .inr 2
          | some y =>
            if length = 3 then .inl (Char.ofNat ((n % 16 * 64 + x) * 64 + y), 3)
            else match continues 0x80 0xBF (rest.drop 2) with
              | none => .inr 3
              | some z => .inl (Char.ofNat (((n % 8 * 64 + x) * 64 + y) * 64 + z), 4)

structure Undecodable where
  offset : Nat
  length : Nat
  first : UInt8
  reason : String
  deriving DecidableEq, Repr

namespace Undecodable

private def firstHex (u : Undecodable) : String :=
  let digits := Nat.toDigits 16 u.first.toNat
  String.ofList (List.replicate (2 - digits.length) '0' ++ digits)

def message (u : Undecodable) : String :=
  "'utf-8' codec can't decode " ++
    (if u.length = 1 then s!"byte 0x{u.firstHex} in position {u.offset}"
      else s!"bytes in position {u.offset}-{u.offset + u.length - 1}") ++ ": " ++ u.reason

end Undecodable

private def reasonFor (b : UInt8) (length : Nat) (rest : Octets) : String :=
  if (leadClass b.toNat).isNone then "invalid start byte"
  else if rest.length < length then "unexpected end of data"
  else "invalid continuation byte"

/-- Decodes bytes; `skip` of them belong to what was decoded already. -/
private def decodeFrom (offset skip : Nat) (done : List Char) :
    Octets → Except Undecodable (List Char)
  | [] => .ok done.reverse
  | b :: rest =>
    match skip with
    | k + 1 => decodeFrom (offset + 1) k done rest
    | 0 => match decodeOne b rest with
      | .inl (c, n) => decodeFrom (offset + 1) (n - 1) (c :: done) rest
      | .inr n => .error { offset, length := n, first := b, reason := reasonFor b n rest }

def decode (bs : Octets) : Except Undecodable (List Char) :=
  decodeFrom 0 0 [] bs

private def decodeLossyFrom (skip : Nat) (done : List Char) : Octets → List Char
  | [] => done.reverse
  | b :: rest =>
    match skip with
    | k + 1 => decodeLossyFrom k done rest
    | 0 => match decodeOne b rest with
      | .inl (c, n) => decodeLossyFrom (n - 1) (c :: done) rest
      | .inr n => decodeLossyFrom (n - 1) ('\ufffd' :: done) rest

def decodeLossy (bs : Octets) : List Char :=
  decodeLossyFrom 0 [] bs

def encode (s : String) : Octets :=
  s.toUTF8.data.toList

end SqlFerry.Bytes
