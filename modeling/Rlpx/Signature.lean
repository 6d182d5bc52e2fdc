/-
# Signature recovery (`crypto/signature_cgo.go`)

The package dispatches every call on the global `CryptoType`: P256 and SM2 append the
signer's 33-byte compressed key to a 65-byte signature, and S256 recovers the key from a
65-byte recoverable signature. The curve packages (`p256`, `sm2`, `secp256k1`,
`elliptic`) are outside the sources and are kept as a `Backend` and a `Signer` of
functions; `Ecrecover`, `SigToPub`, `Sign`, `VerifySignature`, `DecompressPubkey`,
`CompressPubkey` and `UnmarshalPubkey` are modelled statement by statement, `fmt.Println`
included where it slices its argument.

* `sigToPub_panics_short`: on a signature shorter than 65 bytes `SigToPub` and
  `Ecrecover` slice `sig[65:]` and panic, whatever the `CryptoType`.
* `sigToPub_unverified`: for P256 and SM2, `SigToPub` returns the key appended after
  byte 65 and reads neither the 65 signature bytes nor the digest, so it returns a key for
  a signature `VerifySignature` rejects.
* `sigToPub_sign`: for P256 and SM2, a signature `Sign` returns is 98 bytes, and
  `SigToPub` recovers the signer's key from it when the curve decompresses what it
  compresses. With S256, a secp256k1 package that recovers only from 65-byte signatures
  fails on every 98-byte one (`sigToPub_s256_error`).
-/
import Rlpx.Basic

namespace Rlpx

/-- The values of the package variable `CryptoType` the code dispatches on. -/
inductive CryptoType where
  | p256
  | sm2
  | s256
  deriving DecidableEq, Repr

/-- The curve-package functions `signature_cgo.go` and `crypto.go` call, over public keys
`Pub`. -/
structure Backend (Pub : Type) where
  /-- `p256.ECRecovery`. -/
  p256ECRecovery : Bytes → Bytes → Except Fault Pub
  /-- `p256.DecompressPubkey`. -/
  p256DecompressPubkey : Bytes → Except Fault Pub
  /-- `p256.Verify`. -/
  p256Verify : Pub → Bytes → Bytes → Bool
  /-- `sm2.ToECDSAPublickey(sm2.Decompress(b))`. -/
  sm2Decompress : Bytes → Pub
  /-- `sm2.Verify(sm2.ToSm2Publickey(pub), nil, digest, sig)`. -/
  sm2Verify : Pub → Bytes → Bytes → Bool
  /-- `secp256k1.RecoverPubkey`. -/
  secp256k1RecoverPubkey : Bytes → Bytes → Except Fault Bytes
  /-- `secp256k1.DecompressPubkey`, `none` for `x == nil`. -/
  secp256k1DecompressPubkey : Bytes → Option Pub
  /-- `secp256k1.VerifySignature`. -/
  secp256k1VerifySignature : Bytes → Bytes → Bytes → Bool
  /-- `elliptic.Unmarshal` on the curve of a `CryptoType`, `none` for `x == nil`. -/
  unmarshal : CryptoType → Bytes → Option Pub
  /-- The key `&ecdsa.PublicKey{Curve: S256(), X: nil, Y: nil}`. -/
  nilCoordinates : Pub
  /-- `elliptic.Marshal` of a key's coordinates, which `FromECDSAPub` returns. -/
  marshal : Pub → Bytes

variable {Pub : Type} (B : Backend Pub)

/-- `FromECDSAPub`. -/
def fromECDSAPub (pub : Pub) : Bytes := B.marshal pub

/-- Go's `string(n)` of an integer: the character with code point `n`. -/
def goRuneString (n : Nat) : String := String.singleton (Char.ofNat n)

/-- `DecompressPubkey`. -/
def decompressPubkey (ct : CryptoType) (pubkey : Bytes) : Except Fault Pub :=
  if pubkey.length ≠ 33 then
    .error (.error ("DecompressPubkey length is wrong !" ++ goRuneString pubkey.length))
  else match ct with
    | .p256 => B.p256DecompressPubkey pubkey
    | .sm2 => .ok (B.sm2Decompress pubkey)
    | .s256 => match B.secp256k1DecompressPubkey pubkey with
      | none => .error (.error "invalid public key")
      | some p => .ok p

/-- `UnmarshalPubkey`. -/
def unmarshalPubkey (ct : CryptoType) (pub : Bytes) : Except Fault Pub :=
  match B.unmarshal ct pub with
  | none => .error (.error "invalid public key")
  | some p => .ok p

/-- `fmt.Println(..., sig[65:])`: only the slice expression can fail. -/
def printTail (sig : Bytes) : Except Fault Unit := do
  let _ ← sliceFrom sig 65
  pure ()

/-- `Ecrecover`. -/
def ecrecover (ct : CryptoType) (hash sig : Bytes) : Except Fault Bytes := do
  if sig.length ≠ 98 then printTail sig
  match ct with
  | .p256 =>
    let p256pub ← B.p256ECRecovery hash (← sliceTo sig 65)
    pure (fromECDSAPub B p256pub)
  | .sm2 => pure (fromECDSAPub B (B.sm2Decompress (← sliceFrom sig 65)))
  | .s256 => B.secp256k1RecoverPubkey hash sig

/-- `SigToPub`. -/
def sigToPub (ct : CryptoType) (hash sig : Bytes) : Except Fault Pub :=
  match ct with
  | .p256 => do decompressPubkey B .p256 (← sliceFrom sig 65)
  | .sm2 => do decompressPubkey B .sm2 (← sliceFrom sig 65)
  | .s256 => do
    let s ← ecrecover B .s256 hash sig
    pure ((B.unmarshal .s256 s).getD B.nilCoordinates)

/-- `VerifySignature`. -/
def verifySignature (ct : CryptoType) (pubkey digestHash signature : Bytes) : Bool :=
  if signature.length ≠ 98 ∨ digestHash.length ≠ 32 then false
  else match ct with
    | .p256 =>
      let key := if pubkey.length = 33 then decompressPubkey B .p256 pubkey
        else unmarshalPubkey B .p256 pubkey
      match key with
      | .ok p => B.p256Verify p digestHash signature
      | .error _ => false
    | .sm2 =>
      let key := if pubkey.length = 33 then decompressPubkey B .sm2 pubkey
        else unmarshalPubkey B .sm2 pubkey
      match key with
      | .ok p => B.sm2Verify p digestHash signature
      | .error _ => false
    | .s256 => B.secp256k1VerifySignature pubkey digestHash signature

/-- A backend over keys given by their 33 compressed bytes, in which a signature is valid
when its first 65 bytes are `demoSign` of the key and the digest: a stand-in for a
curve package whose verification reads the signature bytes. -/
def demoSign (pub digest : Bytes) : Bytes := copyArray 65 (digest ++ pub)

/-- The backend of `demoSign`. -/
def Backend.demo : Backend Bytes where
  p256ECRecovery _ sig := .ok (sig.drop 65)
  p256DecompressPubkey c := .ok c
  p256Verify pub digest sig := sig.take 65 == demoSign pub digest
  sm2Decompress c := c
  sm2Verify pub digest sig := sig.take 65 == demoSign pub digest
  secp256k1RecoverPubkey _ sig := .ok (sig.drop 65)
  secp256k1DecompressPubkey c := some c
  secp256k1VerifySignature pub digest sig := sig.take 65 == demoSign pub digest
  unmarshal _ b := some b
  nilCoordinates := []
  marshal pub := pub

/-! ## Signing -/

/-- The curve-package functions `Sign` and `CompressPubkey` call, over private keys
`Priv`. -/
structure Signer (Priv Pub : Type) where
  /-- `prv.PublicKey`. -/
  pubOf : Priv → Pub
  /-- `p256.Sign(prv, digest)`. -/
  p256Sign : Priv → Bytes → Except Fault Bytes
  /-- `sm2.Sign(sm2.ToSm2privatekey(prv), nil, digest)`. -/
  sm2Sign : Priv → Bytes → Except Fault Bytes
  /-- `secp256k1.Sign(digest, math.PaddedBigBytes(prv.D, prv.Params().BitSize/8))`. -/
  secp256k1Sign : Bytes → Priv → Except Fault Bytes
  /-- `p256.CompressPubkey`. -/
  p256CompressPubkey : Pub → Bytes
  /-- `sm2.Compress(sm2.ToSm2Publickey(pub))`. -/
  sm2Compress : Pub → Bytes
  /-- `secp256k1.CompressPubkey(pub.X, pub.Y)`. -/
  secp256k1CompressPubkey : Pub → Bytes

variable {Priv : Type} (G : Signer Priv Pub)

/-- The package constant `DigestLength`, the length of a Keccak-256 digest. -/
def digestLength : Nat := 32

/-- `CompressPubkey` of a key; its callers pass `&prv.PublicKey`, never `nil`. -/
def compressPubkey (ct : CryptoType) (pub : Pub) : Bytes :=
  match ct with
  | .p256 => G.p256CompressPubkey pub
  | .sm2 => G.sm2Compress pub
  | .s256 => G.secp256k1CompressPubkey pub

/-- `Sign`: for P256 and SM2 the 65-byte curve signature followed by the signer's
compressed key; for S256 the recoverable signature of a 32-byte digest. -/
def sign (ct : CryptoType) (digestHash : Bytes) (prv : Priv) : Except Fault Bytes :=
  match ct with
  | .p256 => do
    let p256sign ← G.p256Sign prv digestHash
    if p256sign.length ≠ 65 then
      .error (.error ("sig length is wrong !!!" ++ goRuneString p256sign.length))
    else pure (p256sign ++ compressPubkey G .p256 (G.pubOf prv))
  | .sm2 => do
    let smsign ← G.sm2Sign prv digestHash
    if smsign.length ≠ 65 then
      .error (.error ("sig length is wrong !!!" ++ goRuneString smsign.length))
    else pure (smsign ++ compressPubkey G .sm2 (G.pubOf prv))
  | .s256 =>
    if digestHash.length ≠ digestLength then
      .error (.error ("hash is required to be exactly " ++ toString digestLength ++
        " bytes (" ++ toString digestHash.length ++ ")"))
    else G.secp256k1Sign digestHash prv

/-! ## Short signatures -/

/-- Printing the tail of a signature shorter than 65 bytes panics. -/
theorem printTail_of_lt {sig : Bytes} (h : sig.length < 65) :
    printTail sig = .error (.panic sliceBoundsOutOfRange) := by
  simp [printTail, sliceFrom_of_lt h]

/-- **Recovery panics on short signatures**: for every `CryptoType` and digest, a
signature of fewer than 65 bytes makes both `SigToPub` and `Ecrecover` panic on the
slice `sig[65:]`. -/
theorem sigToPub_panics_short (ct : CryptoType) (hash sig : Bytes) (h : sig.length < 65) :
    Panics (sigToPub B ct hash sig) ∧ Panics (ecrecover B ct hash sig) := by
  have hne : sig.length ≠ 98 := by omega
  have hrec : ecrecover B ct hash sig = .error (.panic sliceBoundsOutOfRange) := by
    simp only [ecrecover, hne, ne_eq, not_false_eq_true, if_true, printTail_of_lt h]
    rfl
  refine ⟨?_, by rw [hrec]; trivial⟩
  cases ct with
  | s256 => simp only [sigToPub, hrec]; trivial
  | _ => simp only [sigToPub, sliceFrom_of_lt h]; trivial

/-- The empty signature. -/
theorem sigToPub_panics_empty :
    ([] : Bytes).length < 65 ∧
      Panics (sigToPub Backend.demo .p256 [] []) ∧ Panics (ecrecover Backend.demo .p256 [] []) :=
  ⟨by decide, sigToPub_panics_short Backend.demo .p256 [] [] (by decide)⟩

/-! ## Recovery without verification -/

/-- **A key without a valid signature.** With P256, the digest of 32 zero bytes and a
signature of 65 bytes `1` followed by the compressed key `2 … 2`, `SigToPub` returns the
key, but `VerifySignature` of that key, digest and signature is false. -/
theorem sigToPub_unverified :
    sigToPub Backend.demo .p256 (List.replicate 32 0) (List.replicate 65 1 ++ List.replicate 33 2)
        = .ok (List.replicate 33 2) ∧
      verifySignature Backend.demo .p256 (fromECDSAPub Backend.demo (List.replicate 33 2))
        (List.replicate 32 0) (List.replicate 65 1 ++ List.replicate 33 2) = false := by
  constructor <;> rfl

/-! ## Signing and recovering -/

variable {B G}

/-- A key decompresses only from 33 bytes. -/
theorem length_of_decompressPubkey {ct : CryptoType} {c : Bytes} {p : Pub}
    (h : decompressPubkey B ct c = .ok p) : c.length = 33 := by
  by_contra hc
  simp [decompressPubkey, hc] at h

/-- What `Sign` returns for P256 and SM2: a 65-byte curve signature followed by the
signer's compressed key. -/
theorem sign_eq_append {ct : CryptoType} (hct : ct ≠ .s256) {digest sig : Bytes} {prv : Priv}
    (h : sign G ct digest prv = .ok sig) :
    ∃ r, r.length = 65 ∧ sig = r ++ compressPubkey G ct (G.pubOf prv) := by
  cases ct with
  | s256 => exact absurd rfl hct
  | p256 | sm2 =>
    simp only [sign, Except.bind_eq_ok] at h
    obtain ⟨r, -, h⟩ := h
    split_ifs at h with hr
    exact ⟨r, not_not.mp hr, (Except.ok.inj h).symm⟩

/-- **`SigToPub` inverts `Sign`.** For P256 and SM2, when the curve's compressed keys
decompress back to the key, every signature `Sign` returns is 98 bytes, and `SigToPub`
recovers the signer's public key from it, for every digest. -/
theorem sigToPub_sign {ct : CryptoType} (hct : ct ≠ .s256)
    (hdec : ∀ p, decompressPubkey B ct (compressPubkey G ct p) = .ok p) {digest sig : Bytes}
    {prv : Priv} (h : sign G ct digest prv = .ok sig) :
    sig.length = 98 ∧ ∀ hash, sigToPub B ct hash sig = .ok (G.pubOf prv) := by
  obtain ⟨r, hr, rfl⟩ := sign_eq_append hct h
  have hc := length_of_decompressPubkey (hdec (G.pubOf prv))
  have hslice : sliceFrom (r ++ compressPubkey G ct (G.pubOf prv)) 65 =
      .ok (compressPubkey G ct (G.pubOf prv)) := by
    rw [sliceFrom_of_le (by simp [hr]), List.drop_left' hr]
  refine ⟨by simp [hr, hc], fun hash => ?_⟩
  cases ct with
  | s256 => exact absurd rfl hct
  | p256 | sm2 => simp only [sigToPub, hslice, Except.ok_bind, hdec]

/-- With S256, a secp256k1 package that refuses signatures other than 65 bytes makes
`SigToPub` fail on every 98-byte signature. -/
theorem sigToPub_s256_error
    (hB : ∀ hash sig, sig.length ≠ 65 → ∃ e, B.secp256k1RecoverPubkey hash sig = .error e)
    {hash sig : Bytes} (h : sig.length = 98) : ∃ e, sigToPub B .s256 hash sig = .error e := by
  obtain ⟨e, he⟩ := hB hash sig (by omega)
  exact ⟨e, by simp [sigToPub, ecrecover, h, he]⟩

end Rlpx
