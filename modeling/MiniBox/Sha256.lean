import MiniBox.ByteStream

namespace MiniBox.Sha256

open ByteStream

def ror (v s : UInt32) : UInt32 := (v >>> s) ||| (v <<< (32 - s))

def roundConstants : List UInt32 := [
  0x428a2f98, 0x71374491, 0xb5c0fbcf, 0xe9b5dba5, 0x3956c25b, 0x59f111f1, 0x923f82a4, 0xab1c5ed5,
  0xd807aa98, 0x12835b01, 0x243185be, 0x550c7dc3, 0x72be5d74, 0x80deb1fe, 0x9bdc06a7, 0xc19bf174,
  0xe49b69c1, 0xefbe4786, 0x0fc19dc6, 0x240ca1cc, 0x2de92c6f, 0x4a7484aa, 0x5cb0a9dc, 0x76f988da,
  0x983e5152, 0xa831c66d, 0xb00327c8, 0xbf597fc7, 0xc6e00bf3, 0xd5a79147, 0x06ca6351, 0x14292967,
  0x27b70a85, 0x2e1b2138, 0x4d2c6dfc, 0x53380d13, 0x650a7354, 0x766a0abb, 0x81c2c92e, 0x92722c85,
  0xa2bfe8a1, 0xa81a664b, 0xc24b8b70, 0xc76c51a3, 0xd192e819, 0xd6990624, 0xf40e3585, 0x106aa070,
  0x19a4c116, 0x1e376c08, 0x2748774c, 0x34b0bcb5, 0x391c0cb3, 0x4ed8aa4a, 0x5b9cca4f, 0x682e6ff3,
  0x748f82ee, 0x78a5636f, 0x84c87814, 0x8cc70208, 0x90befffa, 0xa4506ceb, 0xbef9a3f7, 0xc67178f2]

structure Words where
  a : UInt32
  b : UInt32
  c : UInt32
  d : UInt32
  e : UInt32
  f : UInt32
  g : UInt32
  h : UInt32
  deriving DecidableEq, Repr

structure Ctx where
  h : Words
  len : UInt64
  buf : Bytes 64
  fill : ℕ

def byteAt (p : Bytes 64) (i : ℕ) : UInt32 := if h : i < 64 then (p ⟨i, h⟩).toUInt32 else 0

def loadWord (p : Bytes 64) (i : ℕ) : UInt32 :=
  (byteAt p (i * 4) <<< 24) ||| (byteAt p (i * 4 + 1) <<< 16) ||| (byteAt p (i * 4 + 2) <<< 8) |||
    byteAt p (i * 4 + 3)

def extendSchedule (w : List UInt32) (i : ℕ) : List UInt32 :=
  let x := w.getD (i - 15) 0
  let y := w.getD (i - 2) 0
  let s0 := ror x 7 ^^^ ror x 18 ^^^ (x >>> 3)
  let s1 := ror y 17 ^^^ ror y 19 ^^^ (y >>> 10)
  w ++ [w.getD (i - 16) 0 + s0 + w.getD (i - 7) 0 + s1]

def schedule (p : Bytes 64) : List UInt32 :=
  (List.range' 16 48).foldl extendSchedule ((List.range 16).map (loadWord p))

def round (w : List UInt32) (s : Words) (i : ℕ) : Words :=
  let bigS1 := ror s.e 6 ^^^ ror s.e 11 ^^^ ror s.e 25
  let ch := (s.e &&& s.f) ^^^ (~~~s.e &&& s.g)
  let t1 := s.h + bigS1 + ch + roundConstants.getD i 0 + w.getD i 0
  let bigS0 := ror s.a 2 ^^^ ror s.a 13 ^^^ ror s.a 22
  let maj := (s.a &&& s.b) ^^^ (s.a &&& s.c) ^^^ (s.b &&& s.c)
  let t2 := bigS0 + maj
  ⟨t1 + t2, s.a, s.b, s.c, s.d + t1, s.e, s.f, s.g⟩

def compress (s : Words) (p : Bytes 64) : Words :=
  let r := (List.range 64).foldl (round (schedule p)) s
  ⟨s.a + r.a, s.b + r.b, s.c + r.c, s.d + r.d, s.e + r.e, s.f + r.f, s.g + r.g, s.h + r.h⟩

def init : Ctx where
  h := ⟨0x6a09e667, 0xbb67ae85, 0x3c6ef372, 0xa54ff53a, 0x510e527f, 0x9b05688c, 0x1f83d9ab, 0x5be0cd19⟩
  len := 0
  buf := zeroes 64
  fill := 0

def absorb (c : Ctx) (data : List UInt8) : Ctx :=
  let buf := overlay c.buf c.fill data
  if c.fill + data.length = 64 then { c with h := compress c.h buf, buf := buf, fill := 0 }
  else { c with buf := buf, fill := c.fill + data.length }

def updateLoop : ℕ → Ctx → List UInt8 → Ctx
  | 0, c, _ => c
  | _ + 1, c, [] => c
  | fuel + 1, c, x :: xs =>
    let take := min (64 - c.fill) (x :: xs).length
    updateLoop fuel (absorb c ((x :: xs).take take)) ((x :: xs).drop take)

def update (c : Ctx) (data : List UInt8) : Ctx :=
  updateLoop data.length { c with len := c.len + UInt64.ofNat data.length } data

def padLoop : ℕ → Ctx → Ctx
  | 0, c => c
  | fuel + 1, c =>
    if c.fill = 56 then c
    else
      let c := update c [0]
      padLoop fuel { c with len := c.len - 1 }

def lengthBytes (bits : UInt64) : List UInt8 :=
  (List.range 8).map fun i => (bits >>> UInt64.ofNat (56 - 8 * i)).toUInt8

def Words.at (w : Words) : ℕ → UInt32
  | 0 => w.a
  | 1 => w.b
  | 2 => w.c
  | 3 => w.d
  | 4 => w.e
  | 5 => w.f
  | 6 => w.g
  | _ => w.h

def final (c : Ctx) : Bytes 32 :=
  let bits := c.len * 8
  let c := padLoop 64 (update c [0x80])
  let c := update { c with len := c.len - 8 } (lengthBytes bits)
  fun k => (c.h.at (k.val / 4) >>> UInt32.ofNat (24 - 8 * (k.val % 4))).toUInt8

end MiniBox.Sha256
