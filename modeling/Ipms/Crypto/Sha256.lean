import Ipms.Agent.Gpo.Text

/-
  Ipms.Crypto.Sha256

  The portable SHA-256 of FIPS 180-4 over a list of bytes, and its lowercase
  hexadecimal text.
-/

namespace Ipms.Crypto

open Ipms.ManagementJson

/-- The round constants. -/
def k : List UInt32 :=
  [0x428a2f98, 0x71374491, 0xb5c0fbcf, 0xe9b5dba5, 0x3956c25b, 0x59f111f1, 0x923f82a4, 0xab1c5ed5,
    0xd807aa98, 0x12835b01, 0x243185be, 0x550c7dc3, 0x72be5d74, 0x80deb1fe, 0x9bdc06a7, 0xc19bf174,
    0xe49b69c1, 0xefbe4786, 0x0fc19dc6, 0x240ca1cc, 0x2de92c6f, 0x4a7484aa, 0x5cb0a9dc, 0x76f988da,
    0x983e5152, 0xa831c66d, 0xb00327c8, 0xbf597fc7, 0xc6e00bf3, 0xd5a79147, 0x06ca6351, 0x14292967,
    0x27b70a85, 0x2e1b2138, 0x4d2c6dfc, 0x53380d13, 0x650a7354, 0x766a0abb, 0x81c2c92e, 0x92722c85,
    0xa2bfe8a1, 0xa81a664b, 0xc24b8b70, 0xc76c51a3, 0xd192e819, 0xd6990624, 0xf40e3585, 0x106aa070,
    0x19a4c116, 0x1e376c08, 0x2748774c, 0x34b0bcb5, 0x391c0cb3, 0x4ed8aa4a, 0x5b9cca4f, 0x682e6ff3,
    0x748f82ee, 0x78a5636f, 0x84c87814, 0x8cc70208, 0x90befffa, 0xa4506ceb, 0xbef9a3f7, 0xc67178f2]

/-- The eight working words. -/
structure Words where
  (a b c d e f g h : UInt32)

/-- The initial hash value. -/
def initial : Words :=
  ⟨0x6a09e667, 0xbb67ae85, 0x3c6ef372, 0xa54ff53a, 0x510e527f, 0x9b05688c, 0x1f83d9ab, 0x5be0cd19⟩

/-- Rotate a word to the right. -/
def rotr (x n : UInt32) : UInt32 := (x >>> n) ||| (x <<< (32 - n))

/-- The padded message: a one bit, zeros, and the bit length in eight bytes. -/
def pad (bytes : Bytes) : Bytes :=
  let bits := UInt64.ofNat (bytes.length * 8)
  let zeros := (56 + 64 - (bytes.length + 1) % 64) % 64
  bytes ++ (0x80 : UInt8) :: List.replicate zeros (0 : UInt8) ++
    ([56, 48, 40, 32, 24, 16, 8, 0] : List UInt64).map fun shift => (bits >>> shift).toUInt8

/-- The sixteen message words of a block, big endian. -/
def blockWords (block : Bytes) : List UInt32 :=
  (List.range 16).map fun i =>
    (List.range 4).foldl (fun w j => (w <<< 8) ||| (block.getD (4 * i + j) 0).toUInt32) 0

/-- Extend the message schedule by one word. -/
def extend (w : List UInt32) (i : Nat) : List UInt32 :=
  let at_ (n : Nat) := w.getD n 0
  let s0 := rotr (at_ (i - 15)) 7 ^^^ rotr (at_ (i - 15)) 18 ^^^ (at_ (i - 15) >>> 3)
  let s1 := rotr (at_ (i - 2)) 17 ^^^ rotr (at_ (i - 2)) 19 ^^^ (at_ (i - 2) >>> 10)
  w ++ [at_ (i - 16) + s0 + at_ (i - 7) + s1]

/-- The message schedule of a block. -/
def schedule (block : Bytes) : List UInt32 :=
  ((List.range 64).drop 16).foldl extend (blockWords block)

/-- One round with its constant and message word. -/
def round (s : Words) (kw : UInt32 × UInt32) : Words :=
  let t1 := s.h + (rotr s.e 6 ^^^ rotr s.e 11 ^^^ rotr s.e 25) +
    ((s.e &&& s.f) ^^^ (~~~s.e &&& s.g)) + kw.1 + kw.2
  let t2 := (rotr s.a 2 ^^^ rotr s.a 13 ^^^ rotr s.a 22) +
    ((s.a &&& s.b) ^^^ (s.a &&& s.c) ^^^ (s.b &&& s.c))
  { a := t1 + t2, b := s.a, c := s.b, d := s.c, e := s.d + t1, f := s.e, g := s.f, h := s.g }

/-- Add a block to the hash value. -/
def compress (s : Words) (block : Bytes) : Words :=
  let t := (k.zip (schedule block)).foldl round s
  ⟨s.a + t.a, s.b + t.b, s.c + t.c, s.d + t.d, s.e + t.e, s.f + t.f, s.g + t.g, s.h + t.h⟩

/-- The hash value of the padded message, one 64-byte block after the other. -/
def digestWords (padded : Bytes) : Words :=
  (List.range (padded.length / 64)).foldl
    (fun s n => compress s ((padded.drop (64 * n)).take 64)) initial

/-- A hexadecimal digit of a word. -/
def hexChar (v shift : UInt32) : Char :=
  ("0123456789abcdef".toList.getD ((v >>> shift) &&& 15).toNat '0')

/-- The eight hexadecimal digits of a word. -/
def wordHex (v : UInt32) : List Char := [28, 24, 20, 16, 12, 8, 4, 0].map (hexChar v)

/-- The SHA-256 of bytes in lowercase hexadecimal. -/
@[irreducible] def sha256 (bytes : Bytes) : String :=
  let s := digestWords (pad bytes)
  String.ofList ([s.a, s.b, s.c, s.d, s.e, s.f, s.g, s.h].flatMap wordHex)

/-! ## The text is always a digest -/

open Ipms.Agent.Gpo

theorem lowerHex_hexChar (v shift : UInt32) : lowerHex (hexChar v shift) = true := by
  have h : ∀ n : Nat, lowerHex ("0123456789abcdef".toList.getD n '0') = true := by
    intro n
    by_cases hn : n < 16
    · exact (by decide : ∀ n < 16, lowerHex ("0123456789abcdef".toList.getD n '0') = true) n hn
    · have hlen : "0123456789abcdef".toList.length ≤ n := by
        have : "0123456789abcdef".toList.length = 16 := by decide
        omega
      rw [List.getD_eq_getElem?_getD, List.getElem?_eq_none hlen]
      decide
  exact h _

theorem digest_sha256 (bytes : Bytes) : digest (sha256 bytes) = true := by
  unfold digest sha256
  simp only [String.toList_ofList, Bool.and_eq_true, beq_iff_eq, List.all_eq_true]
  refine ⟨rfl, ?_⟩
  intro c hc
  obtain ⟨v, _, hv⟩ := List.mem_flatMap.mp hc
  obtain ⟨shift, _, rfl⟩ := List.mem_map.mp hv
  exact lowerHex_hexChar v shift

/-- The digest of the empty message. -/
example : sha256 [] = "e3b0c44298fc1c149afbf4c8996fb92427ae41e4649b934ca495991b7852b855" := by
  decide +kernel

end Ipms.Crypto
