/-
# The primitives under the frame codec

`newRLPXFrameRW` (`rlpx.go`) builds the codec from an AES-CTR stream with the all-zero IV,
an AES block cipher that whitens MAC digests, two Keccak-256 states and, once the protocol
handshake asks for it, snappy compression. The model keeps these primitives abstract, as a
`Suite`, and fixes only what the codec depends on:

* the CTR stream of a key is a fixed keystream, and `XORKeyStream` xors data with it from
  the stream's current position (`xorKeyStream`);
* a Keccak-256 state is the transcript it has absorbed, and `Sum` is a function of that
  transcript with 32-byte values;
* a block encryption returns one 16-byte block;
* snappy `Decode` inverts `Encode`, and `DecodedLen` gives the original length.

The module also holds the 24-bit length helpers `putInt24`/`readInt24` and their round
trip `readInt24_putInt24`.
-/
import Rlpx.Rlp

namespace Rlpx

/-! ## The suite -/

/-- The primitives of one frame codec, with the laws the codec relies on. -/
structure Suite where
  /-- Byte `n` of the AES-CTR keystream of a key, with the all-zero IV. -/
  keystream : Bytes → Nat → UInt8
  /-- `cipher.Block.Encrypt` of the AES cipher of a key, on the first block of its input. -/
  encryptBlock : Bytes → Bytes → Bytes
  /-- `hash.Hash.Sum` of a Keccak-256 state that has absorbed the given transcript. -/
  sum : Bytes → Bytes
  /-- `snappy.Encode`. -/
  snappyEncode : Bytes → Bytes
  /-- `snappy.DecodedLen`. -/
  snappyDecodedLen : Bytes → Except Fault Nat
  /-- `snappy.Decode`. -/
  snappyDecode : Bytes → Except Fault Bytes
  encryptBlock_length : ∀ k b, (encryptBlock k b).length = 16
  sum_length : ∀ t, (sum t).length = 32
  snappyDecodedLen_encode : ∀ p, snappyDecodedLen (snappyEncode p) = .ok p.length
  snappyDecode_encode : ∀ p, snappyDecode (snappyEncode p) = .ok p

attribute [simp] Suite.encryptBlock_length Suite.sum_length

/-- A suite with the identity cipher, constant digests and no compression. It is no
protection at all, but it meets every law, so the laws can hold together. -/
def Suite.clear : Suite where
  keystream _ _ := 0
  encryptBlock _ _ := List.replicate 16 0
  sum _ := List.replicate 32 0
  snappyEncode p := p
  snappyDecodedLen p := .ok p.length
  snappyDecode p := .ok p
  encryptBlock_length _ _ := List.length_replicate _ _
  sum_length _ := List.length_replicate _ _
  snappyDecodedLen_encode _ := rfl
  snappyDecode_encode _ := rfl

/-- `aes.NewCipher` accepts keys of 16, 24 and 32 bytes. -/
def aesKeyOk (k : Bytes) : Prop := k.length = 16 ∨ k.length = 24 ∨ k.length = 32

/-- Whether a key is a valid AES key can be decided. -/
instance (k : Bytes) : Decidable (aesKeyOk k) := inferInstanceAs (Decidable (_ ∨ _))

/-! ## The keystream -/

variable (S : Suite)

/-- `XORKeyStream` of the CTR stream of `key` standing at keystream position `pos`. -/
def xorKeyStream (key : Bytes) : Nat → Bytes → Bytes
  | _, [] => []
  | pos, b :: bs => (b ^^^ S.keystream key pos) :: xorKeyStream key (pos + 1) bs

variable {S}

/-- Whitening keeps the length. -/
@[simp] theorem length_xorKeyStream (key : Bytes) (pos : Nat) (b : Bytes) :
    (xorKeyStream S key pos b).length = b.length := by
  induction b generalizing pos with
  | nil => rfl
  | cons x b ih => simp [xorKeyStream, ih]

/-- The stream continues across calls: two `XORKeyStream` calls are one. -/
theorem xorKeyStream_append (key : Bytes) (pos : Nat) (a b : Bytes) :
    xorKeyStream S key pos (a ++ b) =
      xorKeyStream S key pos a ++ xorKeyStream S key (pos + a.length) b := by
  induction a generalizing pos with
  | nil => rfl
  | cons x a ih => simp [xorKeyStream, ih, Nat.add_assoc, Nat.add_comm 1]

/-- Decrypting at the position the data was encrypted at gives it back. -/
@[simp] theorem xorKeyStream_xorKeyStream (key : Bytes) (pos : Nat) (b : Bytes) :
    xorKeyStream S key pos (xorKeyStream S key pos b) = b := by
  induction b generalizing pos with
  | nil => rfl
  | cons x b ih => simp [xorKeyStream, ih]

/-- Whitening at one key and position tells byte strings apart. -/
theorem xorKeyStream_injective (key : Bytes) (pos : Nat) :
    Function.Injective (xorKeyStream S key pos) := fun a b h => by
  rw [← xorKeyStream_xorKeyStream key pos a, h, xorKeyStream_xorKeyStream]

/-! ## 24-bit lengths -/

/-- `maxUint24 = ^uint32(0) >> 8`. -/
def maxUint24 : UInt32 := 0xFFFFFF

/-- `putInt24`: the three bytes `putInt24(v, b)` writes into `b[0:3]`. -/
def putInt24 (v : UInt32) : Bytes := [(v >>> 16).toUInt8, (v >>> 8).toUInt8, v.toUInt8]

/-- `readInt24`: the big-endian number in `b[0:3]`. -/
def readInt24 (b : Bytes) : UInt32 :=
  (b.getD 2 0).toUInt32 ||| ((b.getD 1 0).toUInt32 <<< 8) ||| ((b.getD 0 0).toUInt32 <<< 16)

/-- `putInt24` writes three bytes. -/
@[simp] theorem length_putInt24 (v : UInt32) : (putInt24 v).length = 3 := rfl

/-- Or-ing a number below `2 ^ k` into a multiple of `2 ^ k` adds it. -/
theorem two_pow_mul_or {a b k : Nat} (hb : b < 2 ^ k) : 2 ^ k * a ||| b = 2 ^ k * a + b := by
  apply Nat.eq_of_testBit_eq
  intro j
  rw [Nat.testBit_or, Nat.testBit_mul_pow_two_add a hb, ← Nat.add_zero (2 ^ k * a),
    Nat.testBit_mul_pow_two_add a (Nat.two_pow_pos k)]
  split_ifs with h
  · simp
  · simp [Nat.testBit_lt_two_pow (lt_of_lt_of_le hb (Nat.pow_le_pow_right (by norm_num)
      (by omega : k ≤ j)))]

/-- Shifting a `uint32` right by less than 32 divides its value. -/
theorem UInt32.toNat_shiftRight_of_lt (v s : UInt32) (hs : s.toNat < 32) :
    (v >>> s).toNat = v.toNat / 2 ^ s.toNat := by
  have h : (s.toBitVec % 32).toNat = s.toNat := by
    rw [BitVec.toNat_umod]; exact Nat.mod_eq_of_lt hs
  show (v.toBitVec >>> (s.toBitVec % 32)).toNat = _
  rw [BitVec.ushiftRight_eq', BitVec.toNat_ushiftRight, Nat.shiftRight_eq_div_pow, h]; rfl

/-- Shifting a `uint32` left by less than 32 multiplies its value modulo `2 ^ 32`. -/
theorem UInt32.toNat_shiftLeft_of_lt (v s : UInt32) (hs : s.toNat < 32) :
    (v <<< s).toNat = v.toNat * 2 ^ s.toNat % 2 ^ 32 := by
  have h : (s.toBitVec % 32).toNat = s.toNat := by
    rw [BitVec.toNat_umod]; exact Nat.mod_eq_of_lt hs
  show (v.toBitVec <<< (s.toBitVec % 32)).toNat = _
  rw [BitVec.shiftLeft_eq', BitVec.toNat_shiftLeft, Nat.shiftLeft_eq, h]; rfl

/-- Or of `uint32` values is or of their values. -/
theorem UInt32.toNat_or (a b : UInt32) : (a ||| b).toNat = a.toNat ||| b.toNat :=
  BitVec.toNat_or ..

/-- `readInt24` is the big-endian value of the first three bytes. -/
theorem toNat_readInt24 (b0 b1 b2 : UInt8) (rest : Bytes) :
    (readInt24 (b0 :: b1 :: b2 :: rest)).toNat =
      2 ^ 16 * b0.toNat + 2 ^ 8 * b1.toNat + b2.toNat := by
  have h0 := b0.toNat_lt
  have h1 := b1.toNat_lt
  have h2 := b2.toNat_lt
  simp only [readInt24, List.getD_cons_succ, List.getD_cons_zero, UInt32.toNat_or,
    UInt32.toNat_shiftLeft_of_lt _ 8 (by decide), UInt32.toNat_shiftLeft_of_lt _ 16 (by decide),
    UInt8.toUInt32_toNat, UInt32.toNat_ofNat, UInt32.size, Nat.reduceMod]
  rw [Nat.mod_eq_of_lt (by omega), Nat.mod_eq_of_lt (by omega), Nat.lor_comm b2.toNat,
    Nat.mul_comm b1.toNat, two_pow_mul_or (by omega), Nat.lor_comm, Nat.mul_comm b0.toNat,
    two_pow_mul_or (by omega)]
  omega

/-- `putInt24` writes the low three bytes big-endian. -/
theorem toNat_putInt24 (v : UInt32) :
    (putInt24 v).map UInt8.toNat =
      [v.toNat / 2 ^ 16 % 256, v.toNat / 2 ^ 8 % 256, v.toNat % 256] := by
  simp only [putInt24, List.map_cons, List.map_nil, UInt32.toUInt8_toNat,
    UInt32.toNat_shiftRight_of_lt _ 16 (by decide), UInt32.toNat_shiftRight_of_lt _ 8 (by decide),
    UInt32.toNat_ofNat, UInt32.size]

/-- A length below `2 ^ 24` reads back from its three header bytes. -/
theorem readInt24_putInt24 {v : UInt32} (hv : v.toNat < 2 ^ 24) (rest : Bytes) :
    readInt24 (putInt24 v ++ rest) = v := by
  apply UInt32.toNat.inj
  have h := toNat_putInt24 v
  simp only [putInt24, List.map_cons, List.map_nil, List.cons.injEq] at h
  rw [putInt24, List.cons_append, List.cons_append, List.cons_append, toNat_readInt24, h.1,
    h.2.1, h.2.2.1]
  omega

end Rlpx
