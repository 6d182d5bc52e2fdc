/-
# Private keys from bytes (`crypto.go`)

`ToECDSA` reads a private key from big-endian bytes on the curve of the `CryptoType`,
and `FromECDSA` writes it back, padded to the curve size (`math.PaddedBigBytes`).
`toECDSA` checks the length against the curve's bit size, but it checks the scalar against
the order of secp256k1, whatever the curve.

* `fromECDSA_toECDSA`: bytes that load as a key export back unchanged, on every curve.
* `toECDSA_fromECDSA`: a 256-bit key whose scalar is in range and whose public key is
  the one `ScalarBaseMult` gives exports to bytes that load back to that key.

Both rest on the big-endian round trips of `math.ReadBits` and `big.Int.SetBytes`
(`setBytes_readBits`, `readBits_setBytes`).
-/
import Rlpx.Signature

namespace Rlpx

/-! ## Big-endian bytes -/

/-- `new(big.Int).SetBytes(buf)`: the big-endian value of `buf`. -/
def setBytes (buf : Bytes) : Nat := buf.foldl (fun acc b => acc * 256 + b.toNat) 0

/-- `math.ReadBits(bigint, buf)` into a buffer of `n` bytes: the low `n` bytes of the
value, big-endian. -/
def readBits (bigint : Nat) : Nat → Bytes
  | 0 => []
  | n + 1 => readBits (bigint / 256) n ++ [UInt8.ofNat bigint]

/-- `bigint.Bytes()`: the value big-endian, in as few bytes as hold its `BitLen()` bits. -/
def bigIntBytes (bigint : Nat) : Bytes := readBits bigint ((bigint.size + 7) / 8)

/-- `math.PaddedBigBytes(bigint, n)`: the value big-endian, padded to `n` bytes. -/
def paddedBigBytes (bigint n : Nat) : Bytes :=
  if bigint.size / 8 ≥ n then bigIntBytes bigint else readBits bigint n

/-- One more byte shifts the big-endian value by a byte. -/
@[simp] theorem setBytes_append_singleton (buf : Bytes) (b : UInt8) :
    setBytes (buf ++ [b]) = setBytes buf * 256 + b.toNat := by
  simp [setBytes, List.foldl_append]

/-- `math.ReadBits` fills the whole buffer. -/
@[simp] theorem length_readBits (bigint n : Nat) : (readBits bigint n).length = n := by
  induction n generalizing bigint with
  | zero => rfl
  | succ n ih => simp [readBits, ih]

/-- Reading the low `n` bytes back gives the value modulo `256 ^ n`. -/
theorem setBytes_readBits (n : Nat) : ∀ bigint, setBytes (readBits bigint n) = bigint % 256 ^ n := by
  induction n with
  | zero => intro bigint; simp [readBits, setBytes, Nat.mod_one]
  | succ n ih =>
    intro bigint
    have hhigh : bigint % (256 * 256 ^ n) / 256 = bigint / 256 % 256 ^ n :=
      Nat.mod_mul_right_div_self _ _ _
    have hlow : bigint % (256 * 256 ^ n) % 256 = bigint % 256 := Nat.mod_mul_right_mod _ _ _
    have hsplit := Nat.div_add_mod (bigint % (256 * 256 ^ n)) 256
    rw [readBits, setBytes_append_singleton, ih, UInt8.toNat_ofNat_mod, pow_succ']
    omega

/-- Bytes written back in as many bytes are the same bytes. -/
theorem readBits_setBytes (buf : Bytes) : readBits (setBytes buf) buf.length = buf := by
  induction buf using List.reverseRecOn with
  | nil => rfl
  | append_singleton buf b ih =>
    have hb := b.toNat_lt
    have hdiv : (setBytes buf * 256 + b.toNat) / 256 = setBytes buf := by omega
    have hmod : UInt8.ofNat (setBytes buf * 256 + b.toNat) = b := by
      apply UInt8.toNat.inj
      rw [UInt8.toNat_ofNat_mod]
      omega
    rw [List.length_append, List.length_singleton, readBits, setBytes_append_singleton, hdiv,
      hmod, ih]

/-- The big-endian value of `n` bytes is below `256 ^ n`. -/
theorem setBytes_lt (buf : Bytes) : setBytes buf < 256 ^ buf.length := by
  calc setBytes buf = setBytes (readBits (setBytes buf) buf.length) := by rw [readBits_setBytes]
    _ = setBytes buf % 256 ^ buf.length := setBytes_readBits _ _
    _ < 256 ^ buf.length := Nat.mod_lt _ (by positivity)

/-- A value that fits in `n` bytes is padded, not written in full. -/
theorem paddedBigBytes_of_lt {bigint n : Nat} (h : bigint < 256 ^ n) :
    paddedBigBytes bigint n = readBits bigint n := by
  have hsize : bigint.size ≤ 8 * n := Nat.size_le.mpr (by rwa [pow_mul])
  unfold paddedBigBytes bigIntBytes
  split_ifs with hge
  · rw [show (bigint.size + 7) / 8 = n by omega]
  · rfl

/-! ## Keys -/

/-- The curve as `toECDSA` uses it: `Params().BitSize`, and `ScalarBaseMult` with `none`
for a `nil` X. -/
structure Curve (Pub : Type) where
  bitSize : Nat
  scalarBaseMult : Bytes → Option Pub

/-- `ecdsa.PrivateKey`: its curve, the scalar `D` and the public key. -/
structure PrivateKey (Pub : Type) where
  curve : Curve Pub
  d : Nat
  publicKey : Pub

/-- `secp256k1N`, the order of secp256k1. -/
def secp256k1N : Nat := 0xfffffffffffffffffffffffffffffffebaaedce6af48a03bbfd25e8cd0364141

/-- `secp256k1halfN`. -/
def secp256k1halfN : Nat := secp256k1N / 2

variable {Pub : Type}

/-- `toECDSA`. -/
def toECDSA (curve : Curve Pub) (d : Bytes) (strict : Bool) : Except Fault (PrivateKey Pub) :=
  if strict ∧ 8 * d.length ≠ curve.bitSize then
    .error (.error ("invalid length, need " ++ toString curve.bitSize ++ " bits"))
  else if setBytes d ≥ secp256k1N then .error (.error "invalid private key, >=N")
  else if setBytes d = 0 then .error (.error "invalid private key, zero or negative")
  else match curve.scalarBaseMult d with
    | none => .error (.error "invalid private key")
    | some pub => .ok ⟨curve, setBytes d, pub⟩

/-- `ToECDSA`, with `curves` giving `elliptic.P256()`, `sm2.P256Sm2()` and `S256()`. -/
def ToECDSA (curves : CryptoType → Curve Pub) (ct : CryptoType) (d : Bytes) :
    Except Fault (PrivateKey Pub) :=
  toECDSA (curves ct) d true

/-- `ToECDSAUnsafe`: `ToECDSA` with the error dropped. -/
def toECDSAUnsafe (curves : CryptoType → Curve Pub) (ct : CryptoType) (d : Bytes) :
    Option (PrivateKey Pub) :=
  (ToECDSA curves ct d).toOption

/-- `FromECDSA`. -/
def fromECDSA : Option (PrivateKey Pub) → Bytes
  | none => []
  | some priv => paddedBigBytes priv.d (priv.curve.bitSize / 8)

/-- `ValidateSignatureValues`. -/
def validateSignatureValues (v : UInt8) (r s : Int) (homestead : Bool) : Bool :=
  if r < 1 ∨ s < 1 then false
  else if homestead ∧ s > secp256k1halfN then false
  else decide (r < secp256k1N ∧ s < secp256k1N ∧ (v = 0 ∨ v = 1))

/-- The Homestead rules accept a subset of the Frontier ones: the low half of `s` only. -/
theorem validateSignatureValues_homestead {v : UInt8} {r s : Int}
    (h : validateSignatureValues v r s true = true) :
    validateSignatureValues v r s false = true ∧ s ≤ secp256k1halfN := by
  unfold validateSignatureValues at h ⊢
  split_ifs at h with h1 h2
  exact ⟨by simpa [h1] using h, by simpa using h2⟩

/-! ## The two round trips -/

/-- A key `toECDSA` loads in strict mode has the curve's size, the curve, and the value of
the bytes. -/
theorem toECDSA_ok_inv {curve : Curve Pub} {d : Bytes} {k : PrivateKey Pub}
    (h : toECDSA curve d true = .ok k) :
    8 * d.length = curve.bitSize ∧ k.curve = curve ∧ k.d = setBytes d := by
  unfold toECDSA at h
  split_ifs at h with h1
  split at h <;> cases h
  exact ⟨by simpa using h1, rfl, rfl⟩

/-- **A loaded key exports to its bytes.** On every curve, bytes that `toECDSA` accepts
in strict mode are what `FromECDSA` writes for the key. -/
theorem fromECDSA_toECDSA {curve : Curve Pub} {d : Bytes} {k : PrivateKey Pub}
    (h : toECDSA curve d true = .ok k) : fromECDSA (some k) = d := by
  obtain ⟨hlen, rfl, hd⟩ := toECDSA_ok_inv h
  have hn : k.curve.bitSize / 8 = d.length := by omega
  rw [fromECDSA, hn, hd, paddedBigBytes_of_lt (setBytes_lt d), readBits_setBytes]

/-- Thirty-two bytes `7` on a 256-bit curve. -/
theorem fromECDSA_toECDSA_sevens :
    toECDSA (⟨256, fun d => some d.length⟩ : Curve Nat) (List.replicate 32 7) true =
        .ok ⟨⟨256, fun d => some d.length⟩, setBytes (List.replicate 32 7), 32⟩ ∧
      fromECDSA (some (⟨⟨256, fun d => some d.length⟩, setBytes (List.replicate 32 7), 32⟩ :
        PrivateKey Nat)) = List.replicate 32 7 :=
  have h : toECDSA (⟨256, fun d => some d.length⟩ : Curve Nat) (List.replicate 32 7) true =
      .ok ⟨⟨256, fun d => some d.length⟩, setBytes (List.replicate 32 7), 32⟩ := rfl
  ⟨h, fromECDSA_toECDSA h⟩

/-- **An exported key loads back.** A key on a 256-bit curve whose scalar is between 0
and the order of secp256k1 and whose public key is what `ScalarBaseMult` gives for its
exported bytes loads back from those bytes to the same key. -/
theorem toECDSA_fromECDSA {k : PrivateKey Pub} (hbits : k.curve.bitSize = 256) (hpos : 0 < k.d)
    (hlt : k.d < secp256k1N)
    (hpub : k.curve.scalarBaseMult (fromECDSA (some k)) = some k.publicKey) :
    toECDSA k.curve (fromECDSA (some k)) true = .ok k := by
  have hfit : k.d < 256 ^ 32 := lt_trans hlt (by decide)
  have hbytes : fromECDSA (some k) = readBits k.d 32 := by
    rw [fromECDSA, hbits]; exact paddedBigBytes_of_lt hfit
  have hset : setBytes (fromECDSA (some k)) = k.d := by
    rw [hbytes, setBytes_readBits, Nat.mod_eq_of_lt hfit]
  have hlen : 8 * (fromECDSA (some k)).length = k.curve.bitSize := by
    rw [hbytes, length_readBits, hbits]
  unfold toECDSA
  rw [if_neg (by simp [hlen]), hset, if_neg (by omega), if_neg (by omega), hpub]

end Rlpx
