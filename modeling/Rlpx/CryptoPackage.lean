/-
# The handshake over the crypto package

The handshake results assume `HsCrypto.Laws` of the crypto calls. Four of those calls are
functions of `crypto/signature_cgo.go` and `crypto/crypto.go` that `Rlpx.Signature` models
for each `CryptoType`: `Sign`, `SigToPub`, `FromECDSAPub` and `UnmarshalPubkey`.
`HsCrypto.withPackage` puts them in a suite, and this module says when that suite has
the laws.

* `withPackage_laws`: for P256 and SM2 it has them, given what the curve packages are
  relied on for: `Sign` does not fail, the curve decompresses the keys it compresses, and
  `elliptic.Marshal` writes `0x04` and 64 bytes that `elliptic.Unmarshal` reads back.
* For S256 no handshake completes. `makeAuthMsg` copies the 65-byte recoverable
  signature into the 98-byte `Signature` field, and the receiver hands all 98 bytes to
  `SigToPub`, which passes them unchanged to `secp256k1.RecoverPubkey`. A secp256k1
  package that recovers only from 65-byte signatures fails there, so the receiver fails on
  the auth packet, writes nothing, and the initiator never gets a response
  (`handshake_s256_never_completes`).
-/
import Rlpx.Authentication
import Rlpx.Signature

namespace Rlpx

variable {Priv Pub : Type}

/-- The suite of `CryptoType` `ct`: the package's `Sign`, `SigToPub`, `FromECDSAPub` and
`UnmarshalPubkey`, with the curve packages `G` and `B`; key agreement, hashing, ECIES and
certificates as in `C`. -/
def HsCrypto.withPackage (C : HsCrypto Priv Pub) (ct : CryptoType) (G : Signer Priv Pub)
    (B : Backend Pub) : HsCrypto Priv Pub :=
  { C with sign := Rlpx.sign G ct, sigToPub := Rlpx.sigToPub B ct, marshal := fromECDSAPub B,
           unmarshalPubkey := Rlpx.unmarshalPubkey B ct }

/-- A stand-in signer over one-byte keys: a curve signature is 65 copies of the key, and
a compressed key is the key and 32 zeros. -/
def Signer.toy : Signer UInt8 UInt8 where
  pubOf k := k
  p256Sign k _ := .ok (List.replicate 65 k)
  sm2Sign k _ := .ok (List.replicate 65 k)
  secp256k1Sign _ k := .ok (List.replicate 65 k)
  p256CompressPubkey p := p :: List.replicate 32 0
  sm2Compress p := p :: List.replicate 32 0
  secp256k1CompressPubkey p := p :: List.replicate 32 0

/-- The curve packages of `Signer.toy`, marshalling as `HsCrypto.toy` does; its secp256k1
recovers only from 65-byte signatures and verifies only 64-byte ones. -/
def Backend.toy : Backend UInt8 where
  p256ECRecovery _ sig := .ok (sig.headD 0)
  p256DecompressPubkey c := .ok (c.headD 0)
  p256Verify pub _ sig := sig.headD 0 == pub
  sm2Decompress c := c.headD 0
  sm2Verify pub _ sig := sig.headD 0 == pub
  secp256k1RecoverPubkey _ sig :=
    if sig.length = 65 then .ok (0x04 :: (List.replicate 63 0 ++ [sig.headD 0]))
    else .error (.error "invalid signature length")
  secp256k1DecompressPubkey c := some (c.headD 0)
  secp256k1VerifySignature pub _ sig := sig.length == 64 && sig.headD 0 == pub.headD 0
  unmarshal _ b := if b.length = 65 then some (b.getD 64 0) else none
  nilCoordinates := 0
  marshal p := 0x04 :: (List.replicate 63 0 ++ [p])

/-! ## P256 and SM2 -/

section Curves

variable {C : HsCrypto Priv Pub} {ct : CryptoType} {G : Signer Priv Pub} {B : Backend Pub}

/-- **P256 and SM2 meet the handshake's laws.** For every lawful suite `C` and curve
packages on which `Sign` does not fail, compressed keys decompress back and marshalled
keys are `0x04` and 64 bytes that unmarshal back, the suite with the package's own `Sign`,
`SigToPub`, `FromECDSAPub` and `UnmarshalPubkey` is lawful. -/
theorem withPackage_laws (hC : C.Laws) (hct : ct ≠ .s256) (hpub : G.pubOf = C.pubOf)
    (hsign : ∀ d k, ∃ sig, sign G ct d k = .ok sig)
    (hdec : ∀ p, decompressPubkey B ct (compressPubkey G ct p) = .ok p)
    (hmar : ∀ p, ∃ x, B.marshal p = 0x04 :: x ∧ x.length = pubLen)
    (hunm : ∀ p, B.unmarshal ct (B.marshal p) = some p) : (C.withPackage ct G B).Laws where
  generateShared_comm := hC.generateShared_comm
  generateShared_ok := hC.generateShared_ok
  keccak256_length := hC.keccak256_length
  sign_ok d k := by
    obtain ⟨sig, hs⟩ := hsign d k
    obtain ⟨hlen, hrec⟩ := sigToPub_sign hct hdec hs
    refine ⟨sig, hs, ?_⟩
    show sigToPub B ct d (copyArray sigLen sig) = .ok (C.pubOf k)
    rw [show sigLen = 98 from rfl, copyArray_of_length hlen, hrec, hpub]
  encrypt_ok := hC.encrypt_ok
  decrypt_encrypt := hC.decrypt_encrypt
  marshal_eq := hmar
  unmarshal_marshal p := by
    show unmarshalPubkey B ct (B.marshal p) = .ok p
    rw [unmarshalPubkey, hunm]

/-- The P256 suite over the toy curve packages. -/
theorem withPackage_laws_toy :
    HsCrypto.toy.Laws ∧ CryptoType.p256 ≠ .s256 ∧ Signer.toy.pubOf = HsCrypto.toy.pubOf ∧
      (∀ d k, ∃ sig, sign Signer.toy .p256 d k = .ok sig) ∧
      (∀ p, decompressPubkey Backend.toy .p256 (compressPubkey Signer.toy .p256 p) = .ok p) ∧
      (∀ p, ∃ x, Backend.toy.marshal p = 0x04 :: x ∧ x.length = pubLen) ∧
      (∀ p, Backend.toy.unmarshal .p256 (Backend.toy.marshal p) = some p) ∧
      (HsCrypto.toy.withPackage .p256 Signer.toy Backend.toy).Laws := by
  have hsign : ∀ d k, ∃ sig, sign Signer.toy .p256 d k = .ok sig := fun _ _ => ⟨_, rfl⟩
  have hdec : ∀ p, decompressPubkey Backend.toy .p256 (compressPubkey Signer.toy .p256 p) =
      .ok p := fun _ => rfl
  have hmar : ∀ p, ∃ x, Backend.toy.marshal p = 0x04 :: x ∧ x.length = pubLen :=
    fun _ => ⟨_, rfl, by simp [pubLen]⟩
  have hunm : ∀ p, Backend.toy.unmarshal .p256 (Backend.toy.marshal p) = some p := fun _ => rfl
  exact ⟨HsCrypto.toy_laws, by decide, rfl, hsign, hdec, hmar, hunm,
    withPackage_laws HsCrypto.toy_laws (by decide) rfl hsign hdec hmar hunm⟩

end Curves

/-! ## S256 -/

section S256

variable {C : HsCrypto Priv Pub} {G : Signer Priv Pub} {B : Backend Pub}

/-- The receiver recovers the initiator's ephemeral key from the whole signature field. -/
theorem handleAuthMsg_sigToPub {msg : AuthMsgV4} {prv : Priv} {coins : Coins Priv}
    {h h' : EncHandshake Priv Pub} (hh : handleAuthMsg C msg prv coins h = .ok h') :
    ∃ d K, C.sigToPub d msg.signature = .ok K := by
  simp only [handleAuthMsg, Except.bind_eq_ok] at hh
  obtain ⟨_, _, _, _, d, -, K, hK, -⟩ := hh
  exact ⟨d, K, hK⟩

variable [DecidableEq Pub]

/-- An S256 receiver fails on every auth packet: its script is one read, and it ends with
a fault. -/
theorem receiverEncHandshake_s256_play
    (hB : ∀ hash sig, sig.length ≠ 65 → ∃ e, B.secp256k1RecoverPubkey hash sig = .error e)
    {cm : Option CertManager} {prv : Priv} {coins : Coins Priv} {es : List Event}
    {r : Except Fault (Secrets (Option Pub))}
    (h : (receiverEncHandshake (C.withPackage .s256 G B) cm prv coins).play es = some r) :
    ∃ buf e, es = [.read buf] ∧ r = .error e := by
  simp only [receiverEncHandshake] at h
  obtain ⟨es₁, es₂, r₁, rfl, hread, h₂⟩ := Proc.play_bind_split h
  obtain ⟨buf, rfl, -, -⟩ := readHandshakeMsg_inv hread
  rcases r₁ with e | ⟨msg, packet⟩
  · obtain ⟨rfl, rfl⟩ := Proc.play_done_inv h₂
    exact ⟨buf, e, rfl, rfl⟩
  · rw [Proc.done_ok_bind] at h₂
    obtain ⟨es₃, es₄, r₂, rfl, hlift, h₃⟩ := Proc.play_bind_split h₂
    obtain ⟨rfl, hh⟩ := Proc.play_done_inv hlift
    rcases r₂ with e | h'
    · obtain ⟨rfl, rfl⟩ := Proc.play_done_inv h₃
      exact ⟨buf, e, rfl, rfl⟩
    · obtain ⟨d, K, hK⟩ := handleAuthMsg_sigToPub hh
      obtain ⟨e, he⟩ : ∃ e, sigToPub B .s256 d msg.signature = .error e :=
        sigToPub_s256_error hB msg.signature_length
      cases he.symm.trans hK

/-- A returning initiator has written its auth packet and read a full response. -/
theorem initiatorEncHandshake_reads_response {C : HsCrypto Priv Pub} {cm : Option CertManager}
    {prv : Priv} {remote : Pub} {coins : Coins Priv} {es : List Event} {s : Secrets (Option Pub)}
    (h : (initiatorEncHandshake C cm prv remote coins).play es = some (.ok s)) :
    ∃ auth resp es', es = .write auth :: .read resp :: es' ∧ resp.length = encAuthRespLen := by
  simp only [initiatorEncHandshake] at h
  obtain ⟨_, -, hp₁⟩ := Proc.play_lift_bind_inv h
  obtain ⟨auth, -, hp₂⟩ := Proc.play_lift_bind_inv hp₁
  rw [Proc.send_bind] at hp₂
  obtain ⟨es₁, rfl, hp₃⟩ := Proc.play_write_inv hp₂
  obtain ⟨es₂, es₃, _, rfl, hread, -⟩ := Proc.play_bind_inv hp₃
  obtain ⟨resp, rfl, hlen, -⟩ := readHandshakeMsg_inv hread
  exact ⟨auth, resp, es₃, rfl, hlen⟩

/-- **No S256 handshake completes.** For every suite whose `SigToPub` is the S256 one
over a secp256k1 package that recovers only from 65-byte signatures, all certificates,
keys and coins: in every run of two nodes' handshake, the receiver has written nothing,
and neither side has returned secrets. -/
theorem handshake_s256_never_completes (hB : ∀ hash sig, sig.length ≠ 65 →
    ∃ e, B.secp256k1RecoverPubkey hash sig = .error e) (C : HsCrypto Priv Pub)
    (cmA cmB : Option CertManager) (prvA prvB : Priv) (coinsA coinsB : Coins Priv)
    {t : Link (Secrets (Option Pub)) (Secrets (Option Pub))}
    (hrun : Link.Reaches (handshakeLink (C.withPackage .s256 G B) cmA cmB prvA prvB coinsA coinsB) t) :
    t.ba = [] ∧ (∀ s, t.a ≠ .done (.ok s)) ∧ ∀ s, t.b ≠ .done (.ok s) := by
  obtain ⟨esA, esB, hA, hB', -, hba⟩ := Link.exists_after_flow hrun
  obtain ⟨es', r, hr⟩ := Proc.exists_play t.b
  obtain ⟨buf, e, hes, -⟩ := receiverEncHandshake_s256_play hB ((hB' es').trans hr)
  have hsent : Event.sent esB = [] ∧ Event.sent es' = [] := by simpa using congrArg Event.sent hes
  rw [hsent.1, eq_comm, List.append_eq_nil] at hba
  refine ⟨hba.2, fun s hs => ?_, fun s hs => ?_⟩
  · have hplay := hA []
    rw [List.append_nil, hs] at hplay
    obtain ⟨auth, resp, es'', rfl, hlen⟩ := initiatorEncHandshake_reads_response hplay
    obtain ⟨rfl, -⟩ : resp = [] ∧ _ := by simpa using hba.1
    exact absurd hlen (by decide)
  · have hplay := hB' []
    rw [List.append_nil, hs] at hplay
    obtain ⟨_, _, -, hok⟩ := receiverEncHandshake_s256_play hB hplay
    cases hok

/-- The S256 suite over a toy secp256k1 package that recovers only from 65-byte signatures. -/
theorem handshake_s256_never_completes_toy :
    (∀ hash sig, sig.length ≠ 65 → ∃ e, Backend.toy.secp256k1RecoverPubkey hash sig = .error e) ∧
      Link.Reaches (handshakeLink (HsCrypto.toy.withPackage .s256 Signer.toy Backend.toy) none none
        1 2 ⟨[], 3⟩ ⟨[], 4⟩) (handshakeLink (HsCrypto.toy.withPackage .s256 Signer.toy Backend.toy)
        none none 1 2 ⟨[], 3⟩ ⟨[], 4⟩) ∧
      (handshakeLink (HsCrypto.toy.withPackage .s256 Signer.toy Backend.toy) none none 1 2 ⟨[], 3⟩
        ⟨[], 4⟩).ba = [] := by
  have hB : ∀ hash sig, sig.length ≠ 65 →
      ∃ e, Backend.toy.secp256k1RecoverPubkey hash sig = .error e :=
    fun _ _ h => ⟨_, if_neg h⟩
  exact ⟨hB, .refl, (handshake_s256_never_completes hB HsCrypto.toy none none 1 2 ⟨[], 3⟩ ⟨[], 4⟩
    .refl).1⟩

end S256

end Rlpx
