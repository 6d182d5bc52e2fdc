/-
# The encryption handshake (`rlpx.go`)

The initiator sends an `authMsgV4` sealed to the receiver's static key; the receiver
answers with an `authRespV4` sealed to the initiator's; when both sides hold a
certificate they then swap certificates; and each side derives the session `secrets`
from the ephemeral ECDH secret, the two nonces and the two packets.

The crypto calls are a `HsCrypto` of functions over private keys `Priv` and public keys
`Pub`; `Laws` collects what the protocol relies on of them. The handshake state
`encHandshake` is a record passed along, its pointers `Option`s whose `none` is Go's
`nil`; each side is a `Proc` over its end of the connection (`Link`). The two plaintext
layouts are fixed: whatever the field contents, the sealed auth plaintext is
`authMsgLen` bytes and the response plaintext `authRespLen` bytes (`length_authPlain`,
`length_authRespPlain`).
-/
import Rlpx.Frame
import Rlpx.Link

namespace Rlpx

/-! ## Constants -/

/-- `sskLen`. -/
def sskLen : Nat := 16

/-- `sigLen`. -/
def sigLen : Nat := 98

/-- `pubLen`. -/
def pubLen : Nat := 64

/-- `shaLen`. -/
def shaLen : Nat := 32

/-- `authRLPDecLen`. -/
def authRLPDecLen : Int := -25

/-- `authRespRLPIncLen`. -/
def authRespRLPIncLen : Nat := 5

/-- `certSize`, the length of the big-endian certificate size before each plaintext. -/
def certSizeLen : Nat := 2

/-- `authMsgLen`. -/
def authMsgLen : Nat := (sigLen + shaLen + pubLen + shaLen + 1 + authRLPDecLen + certSizeLen).toNat

/-- `authRespLen`. -/
def authRespLen : Nat := pubLen + shaLen + 1 + authRespRLPIncLen + certSizeLen

/-- `eciesOverhead`: the ephemeral public key, the IV and the MAC. -/
def eciesOverhead : Nat := 65 + 16 + 32

/-- `encAuthMsgLen`. -/
def encAuthMsgLen : Nat := authMsgLen + eciesOverhead

/-- `encAuthRespLen`. -/
def encAuthRespLen : Nat := authRespLen + eciesOverhead

/-- `TaiRLPXVersion`. -/
def taiRLPXVersion : UInt64 := 15

/-- `authMsgLen` is 204 bytes. -/
theorem authMsgLen_eq : authMsgLen = 204 := rfl

/-- `authRespLen` is 104 bytes. -/
theorem authRespLen_eq : authRespLen = 104 := rfl

/-! ## Crypto calls -/

/-- The crypto calls of the handshake: `&prv.PublicKey`, `crypto.GenerateShared` with
`sskLen`, `crypto.Keccak256` of the concatenated arguments, `crypto.Sign`,
`crypto.SigToPub`, `crypto.Encrypt` and `crypto.Decrypt` without shared info,
`elliptic.Marshal` of a key (`crypto.FromECDSAPub`), `crypto.UnmarshalPubkey`, and
`crypto.FromCertBytesToPubKey`. -/
structure HsCrypto (Priv Pub : Type) where
  pubOf : Priv → Pub
  generateShared : Priv → Pub → Except Fault Bytes
  keccak256 : Bytes → Bytes
  sign : Bytes → Priv → Except Fault Bytes
  sigToPub : Bytes → Bytes → Except Fault Pub
  encrypt : Pub → Bytes → Except Fault Bytes
  decrypt : Priv → Bytes → Except Fault Bytes
  marshal : Pub → Bytes
  unmarshalPubkey : Bytes → Except Fault Pub
  fromCertBytesToPubKey : Bytes → Except Fault Pub

/-- What the handshake relies on of its crypto: ECDH agrees and yields 32 bytes, hashes
are 32 bytes, a signature made with a key recovers that key, encryption succeeds with
`eciesOverhead` bytes of envelope and decryption with the matching key inverts it, and a
marshalled key is `0x04` and 64 bytes, which unmarshal back to the key. -/
structure HsCrypto.Laws {Priv Pub : Type} (C : HsCrypto Priv Pub) : Prop where
  generateShared_comm : ∀ a b, C.generateShared a (C.pubOf b) = C.generateShared b (C.pubOf a)
  generateShared_ok : ∀ a p, ∃ s, C.generateShared a p = .ok s ∧ s.length = 32
  keccak256_length : ∀ b, (C.keccak256 b).length = 32
  sign_ok : ∀ d k, ∃ sig, C.sign d k = .ok sig ∧ C.sigToPub d (copyArray sigLen sig) = .ok (C.pubOf k)
  encrypt_ok : ∀ p m, ∃ c, C.encrypt p m = .ok c ∧ c.length = m.length + eciesOverhead
  decrypt_encrypt : ∀ k m c, C.encrypt (C.pubOf k) m = .ok c → C.decrypt k c = .ok m
  marshal_eq : ∀ p, ∃ x, C.marshal p = 0x04 :: x ∧ x.length = pubLen
  unmarshal_marshal : ∀ p, C.unmarshalPubkey (C.marshal p) = .ok p

/-- A stand-in suite over one-byte keys, in which a public key is its private key: the
shared secret is 32 copies of the product of the keys, the hash keeps the first 32 bytes,
a signature is the signing key, the envelope is `eciesOverhead` copies of the recipient's
key after the plaintext, a key marshals to `0x04`, 63 zeros and itself, and a
certificate's key is its first byte. -/
def HsCrypto.toy : HsCrypto UInt8 UInt8 where
  pubOf k := k
  generateShared a p := .ok (List.replicate 32 (a * p))
  keccak256 b := copyArray 32 b
  sign _ k := .ok [k]
  sigToPub _ s := .ok (s.headD 0)
  encrypt p m := .ok (m ++ List.replicate eciesOverhead p)
  decrypt k c :=
    if c.drop (c.length - eciesOverhead) = List.replicate eciesOverhead k then
      .ok (c.take (c.length - eciesOverhead))
    else .error (.error "ecies: invalid message")
  marshal p := 0x04 :: (List.replicate 63 0 ++ [p])
  unmarshalPubkey b := if b.length = 65 then .ok (b.getD 64 0) else .error (.error "invalid public key")
  fromCertBytesToPubKey b := .ok (b.headD 0)

/-- The toy suite has the laws. -/
theorem HsCrypto.toy_laws : HsCrypto.toy.Laws where
  generateShared_comm a b := by simp only [HsCrypto.toy, mul_comm]
  generateShared_ok _ _ := ⟨_, rfl, List.length_replicate _ _⟩
  keccak256_length _ := length_copyArray _ _
  sign_ok _ k := ⟨[k], rfl, rfl⟩
  encrypt_ok _ m := ⟨_, rfl, by simp⟩
  decrypt_encrypt k m c h := by
    cases h
    simp [HsCrypto.toy, List.drop_left', List.take_left']
  marshal_eq _ := ⟨_, rfl, by simp [pubLen]⟩
  unmarshal_marshal _ := rfl

/-- A `certManager`: the node's certificate and `list.VerifyCert`. -/
structure CertManager where
  cert : Bytes
  verifyCert : Bytes → Except Fault Unit

/-- What a side draws at random: the bytes `rand.Read` puts in its nonce and the key
`crypto.GenerateKey` returns. -/
structure Coins (Priv : Type) where
  nonce : Bytes
  randomPrivKey : Priv

/-! ## Messages -/

/-- `authMsgV4`; `CertSize` is not part of the RLP encoding. -/
structure AuthMsgV4 where
  signature : Bytes
  initiatorPubkey : Bytes
  nonce : Bytes
  version : UInt64
  certSize : UInt16
  signature_length : signature.length = sigLen
  initiatorPubkey_length : initiatorPubkey.length = pubLen
  nonce_length : nonce.length = shaLen

/-- `authRespV4`; `CertSize` is not part of the RLP encoding. -/
structure AuthRespV4 where
  randomPubkey : Bytes
  nonce : Bytes
  version : UInt64
  certSize : UInt16
  randomPubkey_length : randomPubkey.length = pubLen
  nonce_length : nonce.length = shaLen

/-- An `authMsgV4` whose arrays are filled by `copy` from the given slices. -/
def AuthMsgV4.ofBytes (signature initiatorPubkey nonce : Bytes) (version : UInt64)
    (certSize : UInt16) : AuthMsgV4 :=
  { signature := copyArray sigLen signature, initiatorPubkey := copyArray pubLen initiatorPubkey,
    nonce := copyArray shaLen nonce, version := version, certSize := certSize,
    signature_length := length_copyArray _ _, initiatorPubkey_length := length_copyArray _ _,
    nonce_length := length_copyArray _ _ }

/-- An `authRespV4` whose arrays are filled by `copy` from the given slices. -/
def AuthRespV4.ofBytes (randomPubkey nonce : Bytes) (version : UInt64) (certSize : UInt16) :
    AuthRespV4 :=
  { randomPubkey := copyArray pubLen randomPubkey, nonce := copyArray shaLen nonce,
    version := version, certSize := certSize, randomPubkey_length := length_copyArray _ _,
    nonce_length := length_copyArray _ _ }

/-- The certificate size of a built `authMsgV4` is the one given. -/
@[simp] theorem AuthMsgV4.ofBytes_certSize (a b c : Bytes) (v : UInt64) (s : UInt16) :
    (AuthMsgV4.ofBytes a b c v s).certSize = s := rfl

/-- The version of a built `authMsgV4` is the one given. -/
@[simp] theorem AuthMsgV4.ofBytes_version (a b c : Bytes) (v : UInt64) (s : UInt16) :
    (AuthMsgV4.ofBytes a b c v s).version = v := rfl

/-- The signature of a built `authMsgV4` is the one given, copied into its array. -/
@[simp] theorem AuthMsgV4.ofBytes_signature (a b c : Bytes) (v : UInt64) (s : UInt16) :
    (AuthMsgV4.ofBytes a b c v s).signature = copyArray sigLen a := rfl

/-- The key of a built `authMsgV4` is the one given, copied into its array. -/
@[simp] theorem AuthMsgV4.ofBytes_initiatorPubkey (a b c : Bytes) (v : UInt64) (s : UInt16) :
    (AuthMsgV4.ofBytes a b c v s).initiatorPubkey = copyArray pubLen b := rfl

/-- The nonce of a built `authMsgV4` is the one given, copied into its array. -/
@[simp] theorem AuthMsgV4.ofBytes_nonce (a b c : Bytes) (v : UInt64) (s : UInt16) :
    (AuthMsgV4.ofBytes a b c v s).nonce = copyArray shaLen c := rfl

/-- The certificate size of a built `authRespV4` is the one given. -/
@[simp] theorem AuthRespV4.ofBytes_certSize (a b : Bytes) (v : UInt64) (s : UInt16) :
    (AuthRespV4.ofBytes a b v s).certSize = s := rfl

/-- The version of a built `authRespV4` is the one given. -/
@[simp] theorem AuthRespV4.ofBytes_version (a b : Bytes) (v : UInt64) (s : UInt16) :
    (AuthRespV4.ofBytes a b v s).version = v := rfl

/-- The key of a built `authRespV4` is the one given, copied into its array. -/
@[simp] theorem AuthRespV4.ofBytes_randomPubkey (a b : Bytes) (v : UInt64) (s : UInt16) :
    (AuthRespV4.ofBytes a b v s).randomPubkey = copyArray pubLen a := rfl

/-- The nonce of a built `authRespV4` is the one given, copied into its array. -/
@[simp] theorem AuthRespV4.ofBytes_nonce (a b : Bytes) (v : UInt64) (s : UInt16) :
    (AuthRespV4.ofBytes a b v s).nonce = copyArray shaLen b := rfl

/-- Copying into an array of the same length twice is copying once. -/
@[simp] theorem copyArray_copyArray (n : Nat) (b : Bytes) :
    copyArray n (copyArray n b) = copyArray n b :=
  copyArray_of_length (length_copyArray n b)

/-- `rlp.EncodeToBytes(msg)`: a list of the byte arrays and the version. -/
def AuthMsgV4.encode (m : AuthMsgV4) : Bytes :=
  Rlp.encodeList (Rlp.encodeString m.signature ++ Rlp.encodeString m.initiatorPubkey ++
    Rlp.encodeString m.nonce ++ Rlp.encodeUint m.version)

/-- `rlp.EncodeToBytes(msg)`. -/
def AuthRespV4.encode (m : AuthRespV4) : Bytes :=
  Rlp.encodeList (Rlp.encodeString m.randomPubkey ++ Rlp.encodeString m.nonce ++
    Rlp.encodeUint m.version)

/-- `Stream.ListEnd` on a list with input left. -/
def errNotAtEOL : Fault := .error "rlp: call of ListEnd not positioned at EOL"

/-- `rlp.Decode(bytes.NewReader(input), msg)` into a fresh `authMsgV4`: the struct's list,
each field in order, nothing left in the list; what follows the list is not read. -/
def AuthMsgV4.decode (input : Bytes) : Except Fault AuthMsgV4 := do
  let (payload, _) ← Rlp.decodeList input
  let (sig, p1) ← Rlp.decodeByteArray sigLen payload
  let (pub, p2) ← Rlp.decodeByteArray pubLen p1
  let (nonce, p3) ← Rlp.decodeByteArray shaLen p2
  let (version, p4) ← Rlp.decodeUint p3
  if p4 ≠ [] then throw errNotAtEOL
  pure (AuthMsgV4.ofBytes sig pub nonce version 0)

/-- `rlp.Decode(bytes.NewReader(input), msg)` into a fresh `authRespV4`. -/
def AuthRespV4.decode (input : Bytes) : Except Fault AuthRespV4 := do
  let (payload, _) ← Rlp.decodeList input
  let (pub, p1) ← Rlp.decodeByteArray pubLen payload
  let (nonce, p2) ← Rlp.decodeByteArray shaLen p1
  let (version, p3) ← Rlp.decodeUint p2
  if p3 ≠ [] then throw errNotAtEOL
  pure (AuthRespV4.ofBytes pub nonce version 0)

/-- `decodePlain` of both messages: a decoding error is a panic, with the same text in
both. -/
def decodePlain {M : Type} (decode : Bytes → Except Fault M) (input : Bytes) : Except Fault M :=
  match decode input with
  | .ok m => .ok m
  | .error _ => .error (.panic "authRespV4 decode error")

/-- `plainDecoder`: `decodePlain` and `setCertSize` of a message type. -/
structure PlainDecoder (M : Type) where
  decodePlain : Bytes → Except Fault M
  setCertSize : M → UInt16 → M

/-- `authMsgV4` as a `plainDecoder`. -/
def AuthMsgV4.plainDecoder : PlainDecoder AuthMsgV4 where
  decodePlain := decodePlain AuthMsgV4.decode
  setCertSize m size := { m with certSize := size }

/-- `authRespV4` as a `plainDecoder`. -/
def AuthRespV4.plainDecoder : PlainDecoder AuthRespV4 where
  decodePlain := decodePlain AuthRespV4.decode
  setCertSize m size := { m with certSize := size }

/-! ## The plaintext layouts -/

/-- An RLP header is one byte below 56, and one byte and the length's bytes from there on. -/
theorem length_head (small large : UInt8) (n : Nat) :
    (Rlp.head small large n).length = if n < 56 then 1 else 1 + Rlp.intsize n := by
  unfold Rlp.head; split_ifs <;> simp [Nat.add_comm]

/-- The RLP encoding of a string of at least two bytes is its header and the string. -/
theorem length_encodeString {b : Bytes} (h2 : 2 ≤ b.length) :
    (Rlp.encodeString b).length = (Rlp.head 0x80 0xB7 b.length).length + b.length := by
  rw [Rlp.encodeString, if_neg (fun h => absurd h.1 (by omega)), List.length_append]

/-- The current version encodes to one byte. -/
theorem encodeUint_taiRLPXVersion : Rlp.encodeUint taiRLPXVersion = [15] := by decide

/-- The RLP encoding of an `authMsgV4` of the current version is 202 bytes, whatever its
fields hold. -/
theorem AuthMsgV4.length_encode (m : AuthMsgV4) (hv : m.version = taiRLPXVersion) :
    m.encode.length = 202 := by
  have h1 : 2 ≤ m.signature.length := by rw [m.signature_length]; decide
  have h2 : 2 ≤ m.initiatorPubkey.length := by rw [m.initiatorPubkey_length]; decide
  have h3 : 2 ≤ m.nonce.length := by rw [m.nonce_length]; decide
  simp only [AuthMsgV4.encode, Rlp.encodeList, List.length_append, hv,
    encodeUint_taiRLPXVersion, length_encodeString h1, length_encodeString h2,
    length_encodeString h3, m.signature_length, m.initiatorPubkey_length, m.nonce_length,
    length_head]
  simp [sigLen, pubLen, shaLen, Rlp.intsize_of_lt]

/-- The RLP encoding of an `authRespV4` of the current version is 102 bytes. -/
theorem AuthRespV4.length_encode (m : AuthRespV4) (hv : m.version = taiRLPXVersion) :
    m.encode.length = 102 := by
  have h1 : 2 ≤ m.randomPubkey.length := by rw [m.randomPubkey_length]; decide
  have h2 : 2 ≤ m.nonce.length := by rw [m.nonce_length]; decide
  simp only [AuthRespV4.encode, Rlp.encodeList, List.length_append, hv,
    encodeUint_taiRLPXVersion, length_encodeString h1, length_encodeString h2,
    m.randomPubkey_length, m.nonce_length, length_head]
  simp [pubLen, shaLen, Rlp.intsize_of_lt]

/-- A string of the array's length decodes back into the array. -/
theorem decodeByteArray_encodeString_of_length {b rest : Bytes} {n : Nat} (h : b.length = n)
    (h2 : 2 ≤ n) (hn : n < 256 ^ 8) :
    Rlp.decodeByteArray n (Rlp.encodeString b ++ rest) = .ok (b, rest) := by
  subst h; exact Rlp.decodeByteArray_encodeString h2 hn

/-- An encoded integer decodes back with nothing left. -/
theorem decodeUint_encodeUint_nil (i : UInt64) : Rlp.decodeUint (Rlp.encodeUint i) = .ok (i, []) := by
  simpa using Rlp.decodeUint_encodeUint i []

/-- **An `authMsgV4` decodes from its encoding**, whatever follows, with `CertSize` left
at zero. -/
theorem AuthMsgV4.decode_encode (m : AuthMsgV4) (rest : Bytes) :
    AuthMsgV4.decode (m.encode ++ rest) = .ok { m with certSize := 0 } := by
  have h1 : 2 ≤ m.signature.length := by rw [m.signature_length]; decide
  have h2 : 2 ≤ m.initiatorPubkey.length := by rw [m.initiatorPubkey_length]; decide
  have h3 : 2 ≤ m.nonce.length := by rw [m.nonce_length]; decide
  have hp : (Rlp.encodeString m.signature ++ (Rlp.encodeString m.initiatorPubkey ++
      (Rlp.encodeString m.nonce ++ Rlp.encodeUint m.version))).length < 256 ^ 8 := by
    have := Rlp.length_encodeUint_le m.version
    simp only [List.length_append, length_encodeString h1, length_encodeString h2,
      length_encodeString h3, length_head, m.signature_length, m.initiatorPubkey_length,
      m.nonce_length]
    simp [sigLen, pubLen, shaLen, Rlp.intsize_of_lt]; omega
  simp only [AuthMsgV4.decode, AuthMsgV4.encode, List.append_assoc, Rlp.decodeList_encodeList hp,
    bind, Except.bind,
    decodeByteArray_encodeString_of_length m.signature_length (by decide) (by decide),
    decodeByteArray_encodeString_of_length m.initiatorPubkey_length (by decide) (by decide),
    decodeByteArray_encodeString_of_length m.nonce_length (by decide) (by decide),
    decodeUint_encodeUint_nil, copyArray_of_length m.signature_length,
    AuthMsgV4.ofBytes, copyArray_of_length m.initiatorPubkey_length,
    copyArray_of_length m.nonce_length]
  rfl

/-- **An `authRespV4` decodes from its encoding**, whatever follows, with `CertSize` left
at zero. -/
theorem AuthRespV4.decode_encode (m : AuthRespV4) (rest : Bytes) :
    AuthRespV4.decode (m.encode ++ rest) = .ok { m with certSize := 0 } := by
  have h1 : 2 ≤ m.randomPubkey.length := by rw [m.randomPubkey_length]; decide
  have h2 : 2 ≤ m.nonce.length := by rw [m.nonce_length]; decide
  have hp : (Rlp.encodeString m.randomPubkey ++
      (Rlp.encodeString m.nonce ++ Rlp.encodeUint m.version)).length < 256 ^ 8 := by
    have := Rlp.length_encodeUint_le m.version
    simp only [List.length_append, length_encodeString h1, length_encodeString h2, length_head,
      m.randomPubkey_length, m.nonce_length]
    simp [pubLen, shaLen, Rlp.intsize_of_lt]; omega
  simp only [AuthRespV4.decode, AuthRespV4.encode, List.append_assoc, Rlp.decodeList_encodeList hp,
    bind, Except.bind,
    decodeByteArray_encodeString_of_length m.randomPubkey_length (by decide) (by decide),
    decodeByteArray_encodeString_of_length m.nonce_length (by decide) (by decide),
    decodeUint_encodeUint_nil, AuthRespV4.ofBytes, copyArray_of_length m.randomPubkey_length,
    copyArray_of_length m.nonce_length]
  rfl

/-! ## Byte helpers -/

/-- `binary.BigEndian.PutUint16` into a fresh 2-byte buffer. -/
def putUint16 (v : UInt16) : Bytes := [(v >>> 8).toUInt8, v.toUInt8]

/-- `binary.BigEndian.Uint16(b)` of a slice of at least 2 bytes. -/
def uint16BE (b : Bytes) : UInt16 := (b.getD 1 0).toUInt16 ||| ((b.getD 0 0).toUInt16 <<< 8)

/-- The text of Go's run-time panic for an index out of range. -/
def indexOutOfRange : String := "runtime error: index out of range"

/-- The text of Go's run-time panic for a `nil` pointer dereference. -/
def nilDereference : String := "runtime error: invalid memory address or nil pointer dereference"

/-- `xor(one, other)`: indexes `other` at every position of `one`. -/
def xor (one other : Bytes) : Except Fault Bytes :=
  if other.length < one.length then .error (.panic indexOutOfRange) else .ok (xorBytes one other)

/-- Dereference a pointer. -/
def deref {α : Type} : Option α → Except Fault α
  | some a => .ok a
  | none => .error (.panic nilDereference)

/-- Shifting a `uint16` right by eight keeps its high byte. -/
theorem UInt16.toNat_shiftRight_eight (v : UInt16) : (v >>> 8).toNat = v.toNat / 2 ^ 8 := by
  show (v.toBitVec >>> ((8 : UInt16).toBitVec % 16)).toNat = _
  rw [BitVec.ushiftRight_eq', BitVec.toNat_ushiftRight, Nat.shiftRight_eq_div_pow]; rfl

/-- Shifting a `uint16` left by eight moves its low byte up. -/
theorem UInt16.toNat_shiftLeft_eight (v : UInt16) :
    (v <<< 8).toNat = v.toNat * 2 ^ 8 % 2 ^ 16 := by
  show (v.toBitVec <<< ((8 : UInt16).toBitVec % 16)).toNat = _
  rw [BitVec.shiftLeft_eq', BitVec.toNat_shiftLeft, Nat.shiftLeft_eq]; rfl

/-- Or of `uint16` values is or of their values. -/
theorem UInt16.toNat_or (a b : UInt16) : (a ||| b).toNat = a.toNat ||| b.toNat :=
  BitVec.toNat_or ..

/-- `binary.BigEndian.PutUint16` writes two bytes. -/
@[simp] theorem length_putUint16 (v : UInt16) : (putUint16 v).length = 2 := rfl

/-- The certificate size reads back from its two bytes. -/
theorem uint16BE_putUint16 (v : UInt16) : uint16BE (putUint16 v) = v := by
  apply UInt16.ext
  have hv := v.toNat_lt
  simp only [uint16BE, putUint16, List.getD_cons_succ, List.getD_cons_zero,
    UInt16.toNat_or, UInt16.toNat_shiftLeft_eight, UInt8.toUInt16_toNat, UInt16.toUInt8_toNat,
    UInt16.toNat_shiftRight_eight]
  have h1 : v.toNat / 2 ^ 8 % 2 ^ 8 * 2 ^ 8 % 2 ^ 16 = 2 ^ 8 * (v.toNat / 2 ^ 8) := by omega
  rw [h1, Nat.lor_comm, two_pow_mul_or (Nat.mod_lt _ (by norm_num))]
  omega

/-- **The sealed auth plaintext is `authMsgLen` bytes**, whatever its fields hold. -/
theorem length_authPlain (m : AuthMsgV4) (hv : m.version = taiRLPXVersion) (size : UInt16) :
    (putUint16 size ++ m.encode).length = authMsgLen := by
  rw [List.length_append, length_putUint16, m.length_encode hv]; rfl

/-- **The sealed response plaintext is `authRespLen` bytes**, whatever its fields hold. -/
theorem length_authRespPlain (m : AuthRespV4) (hv : m.version = taiRLPXVersion) (size : UInt16) :
    (putUint16 size ++ m.encode).length = authRespLen := by
  rw [List.length_append, length_putUint16, m.length_encode hv]; rfl

/-! ## The handshake state and its methods -/

/-- `encHandshake`. -/
structure EncHandshake (Priv Pub : Type) where
  certSize : UInt16
  initiator : Bool
  remote : Option Pub
  initNonce : Bytes
  respNonce : Bytes
  randomPrivKey : Option Priv
  remoteRandomPub : Option Pub

variable {Priv Pub : Type} (C : HsCrypto Priv Pub)

/-- `importPublicKey`: a 64-byte key gets the uncompressed-key flag `0x04` in front. -/
def importPublicKey (pubKey : Bytes) : Except Fault Pub :=
  if pubKey.length = 64 then C.unmarshalPubkey (0x04 :: pubKey)
  else if pubKey.length = 65 then C.unmarshalPubkey pubKey
  else .error (.error ("invalid public key length " ++ toString pubKey.length ++ " (expect 64/65)"))

/-- `exportPubkey`: the marshalled key without its flag byte. -/
def exportPubkey (pub : Pub) : Except Fault Bytes := sliceFrom (C.marshal pub) 1

/-- `encHandshake.staticSharedSecret`. -/
def staticSharedSecret (h : EncHandshake Priv Pub) (prv : Priv) : Except Fault Bytes := do
  C.generateShared prv (← deref h.remote)

/-- `encHandshake.makeAuthMsg`. -/
def makeAuthMsg (coins : Coins Priv) (prv : Priv) (h : EncHandshake Priv Pub) :
    Except Fault (EncHandshake Priv Pub × AuthMsgV4) := do
  let h := { h with initNonce := copyArray shaLen coins.nonce,
                    randomPrivKey := some coins.randomPrivKey }
  let token ← staticSharedSecret C h prv
  let signed ← xor token h.initNonce
  let signature ← C.sign signed coins.randomPrivKey
  let pub ← sliceFrom (C.marshal (C.pubOf prv)) 1
  pure (h, AuthMsgV4.ofBytes signature pub h.initNonce taiRLPXVersion h.certSize)

/-- `encHandshake.handleAuthResp`: it records the nonce and the imported key, then fails
on a wrong version before it reports an import error. -/
def handleAuthResp (msg : AuthRespV4) (h : EncHandshake Priv Pub) :
    Except Fault (EncHandshake Priv Pub) :=
  let imported := importPublicKey C msg.randomPubkey
  let h := { h with respNonce := msg.nonce,
                    remoteRandomPub := match imported with | .ok p => some p | .error _ => none }
  if msg.version ≠ taiRLPXVersion then
    .error (.error ("enc AuthResp " ++ toString msg.version ++ " version error"))
  else imported.map fun _ => h

/-- `encHandshake.handleAuthMsg`, with `coins` for the key `crypto.GenerateKey` returns. -/
def handleAuthMsg (msg : AuthMsgV4) (prv : Priv) (coins : Coins Priv)
    (h : EncHandshake Priv Pub) : Except Fault (EncHandshake Priv Pub) := do
  let rpub ← importPublicKey C msg.initiatorPubkey
  let h := { h with initNonce := msg.nonce, remote := some rpub }
  let h := if h.randomPrivKey.isNone then { h with randomPrivKey := some coins.randomPrivKey }
    else h
  let token ← staticSharedSecret C h prv
  let signedMsg ← xor token h.initNonce
  let remoteRandomPub ← C.sigToPub signedMsg msg.signature
  pure { h with remoteRandomPub := some remoteRandomPub }

/-- `encHandshake.makeAuthResp`. -/
def makeAuthResp (coins : Coins Priv) (h : EncHandshake Priv Pub) :
    Except Fault (EncHandshake Priv Pub × AuthRespV4) := do
  let h := { h with respNonce := copyArray shaLen coins.nonce }
  let pub ← exportPubkey C (C.pubOf (← deref h.randomPrivKey))
  pure (h, AuthRespV4.ofBytes pub h.respNonce taiRLPXVersion h.certSize)

/-- `sealPlain` of both messages: the big-endian `CertSize`, then the RLP encoding,
encrypted to `h.remote`. -/
def sealPlain (h : EncHandshake Priv Pub) (certSize : UInt16) (data : Bytes) :
    Except Fault Bytes := do
  C.encrypt (← deref h.remote) (putUint16 certSize ++ data)

/-- `encHandshake.secrets`: the MAC hashes are given as the transcripts they absorb. -/
def secrets (auth authResp : Bytes) (h : EncHandshake Priv Pub) :
    Except Fault (Secrets (Option Pub)) := do
  let ecdheSecret ← C.generateShared (← deref h.randomPrivKey) (← deref h.remoteRandomPub)
  let sharedSecret := C.keccak256 (ecdheSecret ++ C.keccak256 (h.respNonce ++ h.initNonce))
  let aesSecret := C.keccak256 (ecdheSecret ++ sharedSecret)
  let mac := C.keccak256 (ecdheSecret ++ aesSecret)
  let mac1 := (← xor mac h.respNonce) ++ auth
  let mac2 := (← xor mac h.initNonce) ++ authResp
  pure { remote := h.remote, aes := aesSecret, mac := mac,
         egressMAC := if h.initiator then mac1 else mac2,
         ingressMAC := if h.initiator then mac2 else mac1 }

/-- The session secrets from the ECDH secret `e`, the nonces and the two packets, as
`encHandshake.secrets` computes them on a side that is the initiator or not. -/
def secretsOf (e respNonce initNonce auth authResp : Bytes) (initiator : Bool)
    (remote : Option Pub) : Secrets (Option Pub) :=
  let sharedSecret := C.keccak256 (e ++ C.keccak256 (respNonce ++ initNonce))
  let aesSecret := C.keccak256 (e ++ sharedSecret)
  let mac := C.keccak256 (e ++ aesSecret)
  let mac1 := xorBytes mac respNonce ++ auth
  let mac2 := xorBytes mac initNonce ++ authResp
  { remote := remote, aes := aesSecret, mac := mac,
    egressMAC := if initiator then mac1 else mac2, ingressMAC := if initiator then mac2 else mac1 }

/-! ## The methods on well-formed inputs -/

section Methods

variable {C}

/-- `xor` with a long enough second argument does not fail. -/
theorem xor_of_length_le {one other : Bytes} (h : one.length ≤ other.length) :
    xor one other = .ok (xorBytes one other) := if_neg (by omega)

/-- Under the laws, `exportPubKey` drops the `0x04` prefix of the marshalled key. -/
theorem exportPubkey_eq (hC : C.Laws) (p : Pub) :
    exportPubkey C p = .ok ((C.marshal p).drop 1) := by
  obtain ⟨x, hx, _⟩ := hC.marshal_eq p
  exact sliceFrom_of_le (by simp [hx])

/-- Under the laws, an exported key is `pubLen` bytes. -/
theorem length_marshal_drop (hC : C.Laws) (p : Pub) : ((C.marshal p).drop 1).length = pubLen := by
  obtain ⟨x, hx, hlen⟩ := hC.marshal_eq p
  simp [hx, hlen]

/-- **Export and import round-trip**: a key without its flag byte imports back. -/
theorem importPublicKey_marshal (hC : C.Laws) (p : Pub) :
    importPublicKey C ((C.marshal p).drop 1) = .ok p := by
  obtain ⟨x, hx, hlen⟩ := hC.marshal_eq p
  have h := hC.unmarshal_marshal p
  rw [hx] at h ⊢
  simpa [importPublicKey, hlen, pubLen] using h

variable {coins : Coins Priv} {prv : Priv} {h : EncHandshake Priv Pub}

/-- `makeAuthMsg` when its crypto calls go through: the auth message of the signature, the
own key and the nonce. -/
theorem makeAuthMsg_eq {r : Pub} {tok sig : Bytes} (htok : C.generateShared prv r = .ok tok)
    (hlen : tok.length = 32)
    (hsig : C.sign (xorBytes tok (copyArray shaLen coins.nonce)) coins.randomPrivKey = .ok sig)
    (hm : 1 ≤ (C.marshal (C.pubOf prv)).length) (hr : h.remote = some r) :
    makeAuthMsg C coins prv h =
      .ok ({ h with initNonce := copyArray shaLen coins.nonce,
                    randomPrivKey := some coins.randomPrivKey },
           AuthMsgV4.ofBytes sig ((C.marshal (C.pubOf prv)).drop 1) (copyArray shaLen coins.nonce)
             taiRLPXVersion h.certSize) := by
  have hx : xor tok (copyArray shaLen coins.nonce) =
      .ok (xorBytes tok (copyArray shaLen coins.nonce)) :=
    xor_of_length_le (by simp [hlen, shaLen])
  simp [makeAuthMsg, staticSharedSecret, hr, deref, htok, hx, hsig, sliceFrom_of_le hm]

/-- `handleAuthMsg` when its crypto calls go through: it records the initiator's key, nonce
and ephemeral key. -/
theorem handleAuthMsg_eq {msg : AuthMsgV4} {rpub K : Pub} {tok : Bytes}
    (hpub : importPublicKey C msg.initiatorPubkey = .ok rpub)
    (htok : C.generateShared prv rpub = .ok tok) (hlen : tok.length = 32)
    (hrec : C.sigToPub (xorBytes tok msg.nonce) msg.signature = .ok K)
    (hnone : h.randomPrivKey = none) :
    handleAuthMsg C msg prv coins h =
      .ok { h with initNonce := msg.nonce, remote := some rpub,
                   randomPrivKey := some coins.randomPrivKey, remoteRandomPub := some K } := by
  have hx : xor tok msg.nonce = .ok (xorBytes tok msg.nonce) :=
    xor_of_length_le (by rw [hlen, msg.nonce_length]; rfl)
  simp [handleAuthMsg, hpub, hnone, staticSharedSecret, deref, htok, hx, hrec]

/-- `makeAuthResp` under the laws: the response of the ephemeral key and the nonce. -/
theorem makeAuthResp_eq (hC : C.Laws) (k : Priv) (hk : h.randomPrivKey = some k) :
    makeAuthResp C coins h =
      .ok ({ h with respNonce := copyArray shaLen coins.nonce },
           AuthRespV4.ofBytes ((C.marshal (C.pubOf k)).drop 1) (copyArray shaLen coins.nonce)
             taiRLPXVersion h.certSize) := by
  simp [makeAuthResp, hk, deref, exportPubkey_eq hC]

/-- `handleAuthResp` of a response of the current version whose key imports records its
nonce and key. -/
theorem handleAuthResp_eq {msg : AuthRespV4} {p : Pub} (hv : msg.version = taiRLPXVersion)
    (hp : importPublicKey C msg.randomPubkey = .ok p) :
    handleAuthResp C msg h = .ok { h with respNonce := msg.nonce, remoteRandomPub := some p } := by
  simp [handleAuthResp, hv, hp]
  rfl

/-- `secrets` under the laws is `secretsOf` the ECDH secret of the ephemeral keys. -/
theorem secrets_eq (hC : C.Laws) {k : Priv} {p : Pub} {e auth authResp : Bytes}
    (he : C.generateShared k p = .ok e) (hk : h.randomPrivKey = some k)
    (hp : h.remoteRandomPub = some p) (hr : h.respNonce.length = 32)
    (hi : h.initNonce.length = 32) :
    secrets C auth authResp h =
      .ok (secretsOf C e h.respNonce h.initNonce auth authResp h.initiator h.remote) := by
  have hx : ∀ n : Bytes, n.length = 32 → ∀ b, xor (C.keccak256 b) n = .ok (xorBytes (C.keccak256 b) n) :=
    fun n hn b => xor_of_length_le (by rw [hC.keccak256_length, hn])
  simp [secrets, secretsOf, hk, hp, deref, he, hx _ hr, hx _ hi]

end Methods

/-! ## The two sides -/

/-- What `readHandshakeMsg` does with the bytes it read: decrypt them, split off the
big-endian certificate size and decode the rest; the bytes read are returned as the
packet. -/
def openHandshakeMsg {M : Type} (dec : PlainDecoder M) (prv : Priv) (buf : Bytes) :
    Except Fault (M × Bytes) :=
  match C.decrypt prv buf with
  | .ok plain => do
    let pfx ← sliceTo plain 2
    let size := uint16BE pfx
    let msg ← dec.decodePlain (← sliceFrom plain 2)
    pure (dec.setCertSize msg size, buf)
  | .error _ => .error (.error "Decrypt error")

/-- The first two bytes of a sealed plaintext are its size prefix. -/
theorem sliceTo_putUint16 (v : UInt16) (b : Bytes) : sliceTo (putUint16 v ++ b) 2 = .ok (putUint16 v) := by
  rw [sliceTo_of_le (by simp), List.take_left' (length_putUint16 v)]

/-- Past its first two bytes a sealed plaintext is its body. -/
theorem sliceFrom_putUint16 (v : UInt16) (b : Bytes) : sliceFrom (putUint16 v ++ b) 2 = .ok b := by
  rw [sliceFrom_of_le (by simp), List.drop_left' (length_putUint16 v)]

/-- A packet that decrypts to a sealed `authMsgV4` opens to the message. -/
theorem openHandshakeMsg_auth (prv : Priv) (m : AuthMsgV4) {c : Bytes}
    (h : C.decrypt prv c = .ok (putUint16 m.certSize ++ m.encode)) :
    openHandshakeMsg C AuthMsgV4.plainDecoder prv c = .ok (m, c) := by
  have hd := AuthMsgV4.decode_encode m []
  rw [List.append_nil] at hd
  simp [openHandshakeMsg, h, sliceTo_putUint16, sliceFrom_putUint16, uint16BE_putUint16,
    AuthMsgV4.plainDecoder, decodePlain, hd]

/-- A packet that decrypts to a sealed `authRespV4` opens to the message. -/
theorem openHandshakeMsg_authResp (prv : Priv) (m : AuthRespV4) {c : Bytes}
    (h : C.decrypt prv c = .ok (putUint16 m.certSize ++ m.encode)) :
    openHandshakeMsg C AuthRespV4.plainDecoder prv c = .ok (m, c) := by
  have hd := AuthRespV4.decode_encode m []
  rw [List.append_nil] at hd
  simp [openHandshakeMsg, h, sliceTo_putUint16, sliceFrom_putUint16, uint16BE_putUint16,
    AuthRespV4.plainDecoder, decodePlain, hd]

/-- An auth plaintext that does not start with a list header does not decode. -/
theorem AuthMsgV4.decode_of_lt {b : UInt8} (rest : Bytes) (hb : b < 0xC0) :
    ∃ e, AuthMsgV4.decode (b :: rest) = .error e := by
  obtain ⟨e, he⟩ := Rlp.decodeList_of_lt rest hb
  exact ⟨e, by simp [AuthMsgV4.decode, he]⟩

/-- A response plaintext that does not start with a list header does not decode. -/
theorem AuthRespV4.decode_of_lt {b : UInt8} (rest : Bytes) (hb : b < 0xC0) :
    ∃ e, AuthRespV4.decode (b :: rest) = .error e := by
  obtain ⟨e, he⟩ := Rlp.decodeList_of_lt rest hb
  exact ⟨e, by simp [AuthRespV4.decode, he]⟩

/-- **A plaintext that does not decode panics** in `decodePlain`, for either message. -/
theorem openHandshakeMsg_decode_error {M : Type} {decode : Bytes → Except Fault M}
    {set : M → UInt16 → M} {prv : Priv} {c plain : Bytes} {e : Fault}
    (h : C.decrypt prv c = .ok plain) (h2 : 2 ≤ plain.length)
    (hd : decode (plain.drop 2) = .error e) :
    openHandshakeMsg C ⟨decodePlain decode, set⟩ prv c =
      .error (.panic "authRespV4 decode error") := by
  simp [openHandshakeMsg, h, sliceTo_of_le h2, sliceFrom_of_le h2, decodePlain, hd]

/-- `readHandshakeMsg`: read `plainSize` bytes and open them. -/
def readHandshakeMsg {M : Type} (dec : PlainDecoder M) (plainSize : Nat) (prv : Priv) :
    Proc (M × Bytes) := do
  let buf ← Proc.recv plainSize
  Proc.lift (openHandshakeMsg C dec prv buf)

/-- The size checks of a side that holds a certificate: the peer advertised a certificate,
of the size of its own, both as `uint16`. -/
def checkCertSize (cm : CertManager) (peerSize : UInt16) (zeroMsg : String) : Proc Unit := do
  if peerSize = 0 then Proc.throw (.error zeroMsg)
  if UInt16.ofNat cm.cert.length ≠ peerSize then Proc.throw (.error "remote cert size error")

variable [DecidableEq Pub]

/-- Read the peer's certificate of the advertised size and check it. -/
def readPeerCert (cm : CertManager) (peerSize : UInt16) (remote : Option Pub) : Proc Unit := do
  let buf ← Proc.recv peerSize.toNat
  Proc.lift (cm.verifyCert buf)
  let pub ← Proc.lift (C.fromCertBytesToPubKey buf)
  if some pub ≠ remote then Proc.throw (.error "cert not match private key")

/-- `len(t.cm.cert)` of a node with certificate manager `cm`, and 0 without one. -/
def certLen : Option CertManager → Nat
  | some cm => cm.cert.length
  | none => 0

/-- The initiator's certificate exchange, entered when `t.cm != nil && len(t.cm.cert) != 0`:
check the advertised size, write its certificate, then read and check the peer's. -/
def initiatorCertExchange (cm : Option CertManager) (peerSize : UInt16) (remote : Option Pub) :
    Proc Unit :=
  match cm with
  | some cm =>
    if cm.cert.length ≠ 0 then do
      checkCertSize cm peerSize "initiator remote cert size  equal 0"
      Proc.send cm.cert
      readPeerCert C cm peerSize remote
    else pure ()
  | none => pure ()

/-- `rlpx.initiatorEncHandshake` of a node with certificate manager `cm`, key `prv`,
dialing `remote`. -/
def initiatorEncHandshake (cm : Option CertManager) (prv : Priv) (remote : Pub)
    (coins : Coins Priv) : Proc (Secrets (Option Pub)) := do
  let size := certLen cm
  let h : EncHandshake Priv Pub :=
    { certSize := UInt16.ofNat size, initiator := true, remote := some remote, initNonce := [],
      respNonce := [], randomPrivKey := none, remoteRandomPub := none }
  let (h, authMsg) ← Proc.lift (makeAuthMsg C coins prv h)
  let authPacket ← Proc.lift (sealPlain C h authMsg.certSize authMsg.encode)
  Proc.send authPacket
  let (authRespMsg, authRespPacket) ←
    readHandshakeMsg C AuthRespV4.plainDecoder encAuthRespLen prv
  let h ← Proc.lift (handleAuthResp C authRespMsg h)
  initiatorCertExchange C cm authRespMsg.certSize h.remote
  Proc.lift (secrets C authPacket authRespPacket h)

/-- The receiver's certificate checks, made when `t.cm != nil && len(t.cm.cert) != 0`:
the manager whose certificate is then exchanged (`find`), if any. -/
def receiverCertCheck (cm : Option CertManager) (peerSize : UInt16) :
    Proc (Option CertManager) :=
  match cm with
  | some cm =>
    if cm.cert.length ≠ 0 then do
      checkCertSize cm peerSize "receiver remote cert size  equal 0"
      pure (some cm)
    else pure none
  | none => pure none

/-- The receiver's certificate exchange when `find` holds: read and check the peer's
certificate, then write its own. -/
def receiverCertExchange (found : Option CertManager) (peerSize : UInt16)
    (remote : Option Pub) : Proc Unit :=
  match found with
  | some cm => do
    readPeerCert C cm peerSize remote
    Proc.send cm.cert
  | none => pure ()

/-- `rlpx.receiverEncHandshake` of a node with certificate manager `cm` and key `prv`. -/
def receiverEncHandshake (cm : Option CertManager) (prv : Priv) (coins : Coins Priv) :
    Proc (Secrets (Option Pub)) := do
  let (authMsg, authPacket) ← readHandshakeMsg C AuthMsgV4.plainDecoder encAuthMsgLen prv
  let size := UInt16.ofNat (certLen cm)
  let h : EncHandshake Priv Pub :=
    { certSize := size, initiator := false, remote := none, initNonce := [], respNonce := [],
      randomPrivKey := none, remoteRandomPub := none }
  let h ← Proc.lift (handleAuthMsg C authMsg prv coins h)
  let found ← receiverCertCheck cm authMsg.certSize
  let (h, authRespMsg) ← Proc.lift (makeAuthResp C coins h)
  let authRespPacket ← Proc.lift (sealPlain C h authRespMsg.certSize authRespMsg.encode)
  Proc.send authRespPacket
  if authMsg.version ≠ taiRLPXVersion then
    Proc.throw (.error ("enc handshake " ++ toString authMsg.version ++ " version error"))
  receiverCertExchange C found authMsg.certSize h.remote
  Proc.lift (secrets C authPacket authRespPacket h)

end Rlpx
