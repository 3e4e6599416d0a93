/-!
Content digests.

The 64-bit xxHash of a file's bytes, with seed zero. Stripes of four words are mixed into four
lanes; what is left goes in by words, half words and bytes, and a last mixing spreads the bits.
-/

namespace LintRepair.Digest

/-- The five odd multipliers of the digest. -/
def prime1 : UInt64 := 11400714785074694791
@[inherit_doc prime1] def prime2 : UInt64 := 14029467366897019727
@[inherit_doc prime1] def prime3 : UInt64 := 1609587929392839161
@[inherit_doc prime1] def prime4 : UInt64 := 9650029242287828579
@[inherit_doc prime1] def prime5 : UInt64 := 2870177450012600261

/-- Rotates a word to the left. -/
def rotate (word bits : UInt64) : UInt64 :=
  (word <<< bits) ||| (word >>> (64 - bits))

/-- The word whose bytes are given, the lowest one first. -/
def littleEndian : List UInt8 → UInt64
  | [] => 0
  | byte :: rest => byte.toUInt64 + (littleEndian rest <<< 8)

/-- Mixes a word into a lane. -/
def mixWord (lane word : UInt64) : UInt64 :=
  rotate (lane + word * prime2) 31 * prime1

/-- The four lanes that stripes are mixed into. -/
structure Lanes where
  a : UInt64
  b : UInt64
  c : UInt64
  d : UInt64

/-- The lanes before the first stripe. -/
def Lanes.start : Lanes := ⟨prime1 + prime2, prime2, 0, 0 - prime1⟩

/-- The `index`-th word of the bytes. -/
def wordAt (bytes : List UInt8) (index : Nat) : UInt64 :=
  littleEndian ((bytes.drop (8 * index)).take 8)

/-- Mixes a stripe of four words into the lanes. -/
def Lanes.mix (lanes : Lanes) (bytes : List UInt8) : Lanes :=
  ⟨mixWord lanes.a (wordAt bytes 0), mixWord lanes.b (wordAt bytes 1),
    mixWord lanes.c (wordAt bytes 2), mixWord lanes.d (wordAt bytes 3)⟩

/-- Mixes so many stripes into the lanes. -/
def Lanes.mixAll : Nat → Lanes → List UInt8 → Lanes
  | 0, lanes, _ => lanes
  | count + 1, lanes, bytes => mixAll count (lanes.mix bytes) (bytes.drop 32)

/-- Folds one lane into the digest. -/
def foldLane (digest lane : UInt64) : UInt64 :=
  (digest ^^^ mixWord 0 lane) * prime1 + prime4

/-- The digest of the lanes. -/
def Lanes.digest (lanes : Lanes) : UInt64 :=
  let sum := rotate lanes.a 1 + rotate lanes.b 7 + rotate lanes.c 12 + rotate lanes.d 18
  foldLane (foldLane (foldLane (foldLane sum lanes.a) lanes.b) lanes.c) lanes.d

/-- Mixes so many whole words into the digest. -/
def mixWords : Nat → UInt64 → List UInt8 → UInt64
  | 0, digest, _ => digest
  | count + 1, digest, bytes =>
      mixWords count (rotate (digest ^^^ mixWord 0 (wordAt bytes 0)) 27 * prime1 + prime4)
        (bytes.drop 8)

/-- Mixes half a word into the digest. -/
def mixHalf (digest : UInt64) (bytes : List UInt8) : UInt64 :=
  rotate (digest ^^^ (littleEndian (bytes.take 4) * prime1)) 23 * prime2 + prime3

/-- Mixes single bytes into the digest. -/
def mixBytes (digest : UInt64) (bytes : List UInt8) : UInt64 :=
  bytes.foldl (fun h byte => rotate (h ^^^ (byte.toUInt64 * prime5)) 11 * prime1) digest

/-- Spreads the bits of the digest. -/
def avalanche (digest : UInt64) : UInt64 :=
  let h := (digest ^^^ (digest >>> 33)) * prime2
  let h := (h ^^^ (h >>> 29)) * prime3
  h ^^^ (h >>> 32)

/-- Mixes the last bytes, fewer than a stripe, into the digest. -/
def mixTail (digest : UInt64) (bytes : List UInt8) : UInt64 :=
  let words := bytes.length / 8
  let digest := mixWords words digest bytes
  let rest := bytes.drop (8 * words)
  if 4 ≤ rest.length then mixBytes (mixHalf digest rest) (rest.drop 4) else mixBytes digest rest

/-- The digest of some bytes. -/
def ofBytes (bytes : ByteArray) : UInt64 :=
  let all := bytes.toList
  let stripes := all.length / 32
  let start := if stripes = 0 then prime5 else (Lanes.mixAll stripes Lanes.start all).digest
  avalanche (mixTail (start + all.length.toUInt64) (all.drop (32 * stripes)))

/-- One hexadecimal digit of a digest, counted from the lowest one. -/
def hexDigit (digest : UInt64) (index : Nat) : Char :=
  Nat.digitChar ((digest.toNat >>> (4 * index)) % 16)

/-- The digest as sixteen hexadecimal digits. -/
def hex (digest : UInt64) : String :=
  String.ofList ((List.range 16).reverse.map (hexDigit digest))

end LintRepair.Digest
