import MiniBox.Sha256

namespace MiniBox.Fips

open ByteStream Sha256

def rotr (n : ℕ) (x : UInt32) : UInt32 := ⟨x.toBitVec.rotateRight n⟩

def ch (x y z : UInt32) : UInt32 := (x &&& y) ^^^ (~~~x &&& z)
def maj (x y z : UInt32) : UInt32 := (x &&& y) ^^^ (x &&& z) ^^^ (y &&& z)
def bigSigma0 (x : UInt32) : UInt32 := rotr 2 x ^^^ rotr 13 x ^^^ rotr 22 x
def bigSigma1 (x : UInt32) : UInt32 := rotr 6 x ^^^ rotr 11 x ^^^ rotr 25 x
def smallSigma0 (x : UInt32) : UInt32 := rotr 7 x ^^^ rotr 18 x ^^^ (x >>> 3)
def smallSigma1 (x : UInt32) : UInt32 := rotr 17 x ^^^ rotr 19 x ^^^ (x >>> 10)

def blockWord (p : Bytes 64) (t : Fin 16) : UInt32 :=
  UInt32.ofNat ((p ⟨4 * t, by omega⟩).toNat * 2 ^ 24 + (p ⟨4 * t + 1, by omega⟩).toNat * 2 ^ 16 +
    (p ⟨4 * t + 2, by omega⟩).toNat * 2 ^ 8 + (p ⟨4 * t + 3, by omega⟩).toNat)

def messageWord (p : Bytes 64) (t : ℕ) : UInt32 :=
  if h : t < 16 then blockWord p ⟨t, h⟩
  else smallSigma1 (messageWord p (t - 2)) + messageWord p (t - 7) + smallSigma0 (messageWord p (t - 15)) +
    messageWord p (t - 16)

def constants : List UInt32 := [
  0x428a2f98, 0x71374491, 0xb5c0fbcf, 0xe9b5dba5, 0x3956c25b, 0x59f111f1, 0x923f82a4, 0xab1c5ed5,
  0xd807aa98, 0x12835b01, 0x243185be, 0x550c7dc3, 0x72be5d74, 0x80deb1fe, 0x9bdc06a7, 0xc19bf174,
  0xe49b69c1, 0xefbe4786, 0x0fc19dc6, 0x240ca1cc, 0x2de92c6f, 0x4a7484aa, 0x5cb0a9dc, 0x76f988da,
  0x983e5152, 0xa831c66d, 0xb00327c8, 0xbf597fc7, 0xc6e00bf3, 0xd5a79147, 0x06ca6351, 0x14292967,
  0x27b70a85, 0x2e1b2138, 0x4d2c6dfc, 0x53380d13, 0x650a7354, 0x766a0abb, 0x81c2c92e, 0x92722c85,
  0xa2bfe8a1, 0xa81a664b, 0xc24b8b70, 0xc76c51a3, 0xd192e819, 0xd6990624, 0xf40e3585, 0x106aa070,
  0x19a4c116, 0x1e376c08, 0x2748774c, 0x34b0bcb5, 0x391c0cb3, 0x4ed8aa4a, 0x5b9cca4f, 0x682e6ff3,
  0x748f82ee, 0x78a5636f, 0x84c87814, 0x8cc70208, 0x90befffa, 0xa4506ceb, 0xbef9a3f7, 0xc67178f2]

def step (p : Bytes 64) (v : Words) (t : ℕ) : Words :=
  let t1 := v.h + bigSigma1 v.e + ch v.e v.f v.g + constants.getD t 0 + messageWord p t
  let t2 := bigSigma0 v.a + maj v.a v.b v.c
  ⟨t1 + t2, v.a, v.b, v.c, v.d + t1, v.e, v.f, v.g⟩

def compression (v : Words) (p : Bytes 64) : Words :=
  let r := (List.range 64).foldl (step p) v
  ⟨v.a + r.a, v.b + r.b, v.c + r.c, v.d + r.d, v.e + r.e, v.f + r.f, v.g + r.g, v.h + r.h⟩

def initialHash : Words :=
  ⟨0x6a09e667, 0xbb67ae85, 0x3c6ef372, 0xa54ff53a, 0x510e527f, 0x9b05688c, 0x1f83d9ab, 0x5be0cd19⟩

theorem exists_zeros (n : ℕ) : ∃ k, (n + 1 + k) % 64 = 56 := ⟨(55 + 64 - n % 64) % 64, by omega⟩

def zeros (n : ℕ) : ℕ := Nat.find (exists_zeros n)

def bitLength (n : ℕ) : List UInt8 := (List.range 8).map fun i => UInt8.ofNat (8 * n / 2 ^ (56 - 8 * i))

def pad (m : List UInt8) : List UInt8 := m ++ 0x80 :: (List.replicate (zeros m.length) 0 ++ bitLength m.length)

def blockAt (m : List UInt8) (k : ℕ) : Bytes 64 := fun i => m.getD (64 * k + i) 0

def hashValue (f : Words → Bytes 64 → Words) (m : List UInt8) : ℕ → Words
  | 0 => initialHash
  | k + 1 => f (hashValue f m k) (blockAt m k)

def wordBytes (x : UInt32) : List UInt8 :=
  [UInt8.ofNat (x.toNat / 2 ^ 24), UInt8.ofNat (x.toNat / 2 ^ 16), UInt8.ofNat (x.toNat / 2 ^ 8), UInt8.ofNat x.toNat]

def digest (m : List UInt8) : List UInt8 :=
  let v := hashValue compression (pad m) ((pad m).length / 64)
  [v.a, v.b, v.c, v.d, v.e, v.f, v.g, v.h].flatMap wordBytes

end MiniBox.Fips
