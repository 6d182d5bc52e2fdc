/-
# Key agreement

Each side of the handshake is checked on its own, as the script of reads and writes it
performs when the peer behaves: the initiator writes its sealed auth packet, reads the
response packet, exchanges certificates, and derives `secretsOf` the ECDH secret, the two
nonces and the two packets (`initiator_play`); the receiver does the dual
(`receiver_play`). The two scripts are dual, so the link of the two programs runs to the
end (`Link.reaches_of_play`), and by confluence no interleaving ends anywhere else.
-/
import Rlpx.Handshake
import Rlpx.Session

namespace Rlpx

variable {Priv Pub : Type} {C : HsCrypto Priv Pub}

/-! ## What the handshake promises -/

/-- Secrets the two sides agree on: the same AES and MAC keys, the initiator's egress MAC
absorbing what the receiver's ingress MAC absorbs and the other way round, and each side
holding the other's static key as its remote. -/
structure SecretsAgree (pubA pubB : Pub) (sA sB : Secrets (Option Pub)) : Prop where
  aes_eq : sA.aes = sB.aes
  mac_eq : sA.mac = sB.mac
  egress_eq_ingress : sA.egressMAC = sB.ingressMAC
  ingress_eq_egress : sA.ingressMAC = sB.egressMAC
  remote_initiator : sA.remote = some pubB
  remote_receiver : sB.remote = some pubA

/-- What the handshake promises from the start `s`: both sides end with secrets `sA` and
`sB` and nothing left in flight, every run can still get there and none halts elsewhere,
and the secrets agree. -/
structure KeyAgreement (s : Link (Secrets (Option Pub)) (Secrets (Option Pub))) (pubA pubB : Pub)
    (sA sB : Secrets (Option Pub)) : Prop where
  reaches : Link.Reaches s ⟨.done (.ok sA), .done (.ok sB), [], []⟩
  completes : ∀ t, Link.Reaches s t → Link.Reaches t ⟨.done (.ok sA), .done (.ok sB), [], []⟩
  halted_eq : ∀ t, Link.Reaches s t → Link.Halted t → t = ⟨.done (.ok sA), .done (.ok sB), [], []⟩
  agree : SecretsAgree pubA pubB sA sB

/-- One run to both ends is all the runs: by confluence, every run can still get there and
none halts elsewhere. -/
theorem KeyAgreement.of_reaches {s : Link (Secrets (Option Pub)) (Secrets (Option Pub))}
    {pubA pubB : Pub} {sA sB : Secrets (Option Pub)}
    (h : Link.Reaches s ⟨.done (.ok sA), .done (.ok sB), [], []⟩)
    (hag : SecretsAgree pubA pubB sA sB) : KeyAgreement s pubA pubB sA sB :=
  ⟨h, fun _ ht => Link.reaches_halted h (Link.halted_done _ _ _ _) ht,
    fun _ ht hth => Link.halted_unique ht h hth (Link.halted_done _ _ _ _), hag⟩

/-- The initiator's and the receiver's `secretsOf` one ECDH secret, one pair of nonces and
one pair of packets agree: the keys are computed alike and the two MAC transcripts swap. -/
theorem secretsOf_agree (e respNonce initNonce pA pB : Bytes) (pubA pubB : Pub) :
    SecretsAgree pubA pubB (secretsOf C e respNonce initNonce pA pB true (some pubB))
      (secretsOf C e respNonce initNonce pA pB false (some pubA)) :=
  ⟨rfl, rfl, rfl, rfl, rfl, rfl⟩

/-- Under the laws, the AES key of `secretsOf` is 32 bytes. -/
theorem secretsOf_aes_length (hC : C.Laws) (e respNonce initNonce pA pB : Bytes) (i : Bool)
    (r : Option Pub) : (secretsOf C e respNonce initNonce pA pB i r).aes.length = 32 :=
  hC.keccak256_length _

/-- Under the laws, the MAC key of `secretsOf` is 32 bytes. -/
theorem secretsOf_mac_length (hC : C.Laws) (e respNonce initNonce pA pB : Bytes) (i : Bool)
    (r : Option Pub) : (secretsOf C e respNonce initNonce pA pB i r).mac.length = 32 :=
  hC.keccak256_length _

/-- Secrets with 32-byte AES and MAC keys build a codec. -/
theorem newRLPXFrameRW_ok {Pub : Type} {s : Secrets Pub} (haes : s.aes.length = 32)
    (hmac : s.mac.length = 32) : ∃ rw, newRLPXFrameRW s = .ok rw := by
  unfold newRLPXFrameRW
  rw [if_neg (by simp [aesKeyOk, hmac]), if_neg (by simp [aesKeyOk, haes])]
  exact ⟨_, rfl⟩

/-- Under the laws, the secrets `secretsOf` derives build a codec. -/
theorem newRLPXFrameRW_secretsOf (hC : C.Laws) (e respNonce initNonce pA pB : Bytes) (i : Bool)
    (r : Option Pub) :
    ∃ rw, newRLPXFrameRW (secretsOf C e respNonce initNonce pA pB i r) = .ok rw :=
  newRLPXFrameRW_ok (secretsOf_aes_length hC ..) (secretsOf_mac_length hC ..)

variable [DecidableEq Pub]

/-! ## The certificate exchange -/

section Certificates

variable {cm : CertManager} {peerSize : UInt16} {y : Bytes} {p : Pub}

/-- The size check passes a nonzero peer size equal to that of the own certificate. -/
theorem checkCertSize_ok (hs : peerSize ≠ 0) (hsz : UInt16.ofNat cm.cert.length = peerSize)
    (msg : String) : checkCertSize cm peerSize msg = pure () := by
  simp [checkCertSize, hs, hsz]

/-- Reading a certificate of the advertised size that the list accepts, with the expected
key, returns. -/
theorem readPeerCert_play (hy : y.length = peerSize.toNat) (hv : cm.verifyCert y = .ok ())
    (hp : C.fromCertBytesToPubKey y = .ok p) :
    (readPeerCert C cm peerSize (some p)).play [.read y] = some (.ok ()) := by
  simp [readPeerCert, hy, hv, hp]

/-- An initiator without a certificate exchanges nothing. -/
theorem initiatorCertExchange_none {cm : Option CertManager} (h : certLen cm = 0)
    (remote : Option Pub) : (initiatorCertExchange C cm peerSize remote).play [] = some (.ok ()) := by
  cases cm <;> simp_all [certLen, initiatorCertExchange]

/-- A receiver without a certificate checks nothing. -/
theorem receiverCertCheck_none {cm : Option CertManager} (h : certLen cm = 0) :
    (receiverCertCheck cm peerSize).play [] = some (.ok none) := by
  cases cm <;> simp_all [certLen, receiverCertCheck]

/-- An initiator holding a certificate writes it and reads the peer's, which returns when
the sizes agree, the list accepts it and its key is the remote key. -/
theorem initiatorCertExchange_some (hne : cm.cert.length ≠ 0) (hs : peerSize ≠ 0)
    (hsz : UInt16.ofNat cm.cert.length = peerSize) (hy : y.length = peerSize.toNat)
    (hv : cm.verifyCert y = .ok ()) (hp : C.fromCertBytesToPubKey y = .ok p) :
    (initiatorCertExchange C (some cm) peerSize (some p)).play [.write cm.cert, .read y] =
      some (.ok ()) := by
  simp [initiatorCertExchange, hne, checkCertSize_ok hs hsz, Proc.play_bind_end,
    readPeerCert_play hy hv hp]

/-- A receiver holding a certificate passes its size check when the sizes agree. -/
theorem receiverCertCheck_some (hne : cm.cert.length ≠ 0) (hs : peerSize ≠ 0)
    (hsz : UInt16.ofNat cm.cert.length = peerSize) :
    (receiverCertCheck (some cm) peerSize).play [] = some (.ok (some cm)) := by
  simp [receiverCertCheck, hne, checkCertSize_ok hs hsz]

/-- A receiver holding a certificate reads the peer's and writes its own, which returns when
the list accepts the peer's and its key is the remote key. -/
theorem receiverCertExchange_some (hy : y.length = peerSize.toNat)
    (hv : cm.verifyCert y = .ok ()) (hp : C.fromCertBytesToPubKey y = .ok p) :
    (receiverCertExchange C (some cm) peerSize (some p)).play [.read y, .write cm.cert] =
      some (.ok ()) := by
  rw [receiverCertExchange, show [Event.read y, .write cm.cert] = [.read y] ++ [.write cm.cert]
    from rfl, Proc.play_bind (readPeerCert_play hy hv hp)]
  simp [Proc.send]

end Certificates

/-! ## The two sides -/

section Sides

variable {prv : Priv} {coins : Coins Priv} {pA pB e tok : Bytes}

/-- **The initiator's conversation.** Given the response packet `pB` that decrypts to a
well-formed `authRespV4` of the current version, the initiator writes its sealed auth
packet `pA`, reads exactly `pB`, and goes on as its certificate exchange does, after which
it returns the secrets of the ECDH secret `e`, the response nonce, its own nonce and the
two packets. -/
theorem initiator_play (hC : C.Laws) {cm : Option CertManager} {remote rp : Pub} {sig : Bytes}
    {resp : AuthRespV4} (htok : C.generateShared prv remote = .ok tok) (hlen : tok.length = 32)
    (hsig : C.sign (xorBytes tok (copyArray shaLen coins.nonce)) coins.randomPrivKey = .ok sig)
    (henc : C.encrypt remote (putUint16 (UInt16.ofNat (certLen cm)) ++
      (AuthMsgV4.ofBytes sig ((C.marshal (C.pubOf prv)).drop 1) (copyArray shaLen coins.nonce)
        taiRLPXVersion (UInt16.ofNat (certLen cm))).encode) = .ok pA)
    (hlenB : pB.length = encAuthRespLen)
    (hdec : C.decrypt prv pB = .ok (putUint16 resp.certSize ++ resp.encode))
    (hv : resp.version = taiRLPXVersion) (hrp : importPublicKey C resp.randomPubkey = .ok rp)
    (he : C.generateShared coins.randomPrivKey rp = .ok e) (es : List Event) :
    (initiatorEncHandshake C cm prv remote coins).play ([.write pA, .read pB] ++ es) =
      (initiatorCertExchange C cm resp.certSize (some remote) >>= fun _ =>
        Proc.lift (.ok (secretsOf C e resp.nonce (copyArray shaLen coins.nonce) pA pB true
          (some remote)))).play es := by
  have hm : 1 ≤ (C.marshal (C.pubOf prv)).length := by
    obtain ⟨x, hx, -⟩ := hC.marshal_eq (C.pubOf prv); simp [hx]
  simp only [initiatorEncHandshake, readHandshakeMsg, makeAuthMsg_eq htok hlen hsig hm,
    sealPlain, deref, Except.ok_bind, AuthMsgV4.ofBytes_certSize, henc, Proc.lift_ok,
    Proc.done_ok_bind, Proc.send_bind, Proc.recv_bind, Proc.read_bind, Proc.write_bind,
    List.cons_append, List.nil_append, Proc.play_write, Proc.play_read, if_true, hlenB,
    openHandshakeMsg_authResp C prv resp hdec, handleAuthResp_eq hv hrp]
  rw [secrets_eq hC he rfl rfl (by simp [resp.nonce_length, shaLen]) (by simp [shaLen])]
  rfl

variable {cm : Option CertManager} {rpub K : Pub} {msg : AuthMsgV4}

/-- **The receiver's conversation.** Given the auth packet `pA` that decrypts to a
well-formed `authMsgV4` of the current version whose key imports and whose signature
recovers to `K`, the receiver reads exactly `pA`, passes its certificate checks as
`hfound` says, writes its sealed response packet `pB`, and goes on as its certificate
exchange does, after which it returns the secrets of the ECDH secret `e`, its own nonce,
the initiator's nonce and the two packets. -/
theorem receiver_play (hC : C.Laws) {found : Option CertManager}
    (hlenA : pA.length = encAuthMsgLen)
    (hdec : C.decrypt prv pA = .ok (putUint16 msg.certSize ++ msg.encode))
    (hv : msg.version = taiRLPXVersion) (hpub : importPublicKey C msg.initiatorPubkey = .ok rpub)
    (htok : C.generateShared prv rpub = .ok tok) (hlen : tok.length = 32)
    (hrec : C.sigToPub (xorBytes tok msg.nonce) msg.signature = .ok K)
    (hfound : (receiverCertCheck cm msg.certSize).play [] = some (.ok found))
    (henc : C.encrypt rpub (putUint16 (UInt16.ofNat (certLen cm)) ++
      (AuthRespV4.ofBytes ((C.marshal (C.pubOf coins.randomPrivKey)).drop 1)
        (copyArray shaLen coins.nonce) taiRLPXVersion (UInt16.ofNat (certLen cm))).encode) = .ok pB)
    (he : C.generateShared coins.randomPrivKey K = .ok e) (es : List Event) :
    (receiverEncHandshake C cm prv coins).play ([.read pA, .write pB] ++ es) =
      (receiverCertExchange C found msg.certSize (some rpub) >>= fun _ =>
        Proc.lift (.ok (secretsOf C e (copyArray shaLen coins.nonce) msg.nonce pA pB false
          (some rpub)))).play es := by
  simp only [receiverEncHandshake, readHandshakeMsg, Proc.recv_bind, Proc.read_bind,
    List.cons_append, List.nil_append, Proc.play_read, hlenA, if_true,
    openHandshakeMsg_auth C prv msg hdec, Proc.lift_ok, Proc.done_ok_bind,
    handleAuthMsg_eq hpub htok hlen hrec, Proc.play_bind_nil hfound,
    makeAuthResp_eq hC coins.randomPrivKey,
    sealPlain, deref, Except.ok_bind, AuthRespV4.ofBytes_certSize, henc, Proc.send_bind,
    Proc.play_write, hv, ne_eq, not_true_eq_false, if_false, Proc.pure_eq]
  rw [secrets_eq hC he rfl rfl (by simp [shaLen]) (by simp [msg.nonce_length, shaLen])]
  rfl

/-- A receiver whose certificate checks fail on a well-formed auth packet reads the
packet and returns their fault, having written nothing. -/
theorem receiver_play_check_error {err : Fault} (hlenA : pA.length = encAuthMsgLen)
    (hdec : C.decrypt prv pA = .ok (putUint16 msg.certSize ++ msg.encode))
    (hpub : importPublicKey C msg.initiatorPubkey = .ok rpub)
    (htok : C.generateShared prv rpub = .ok tok) (hlen : tok.length = 32)
    (hrec : C.sigToPub (xorBytes tok msg.nonce) msg.signature = .ok K)
    (hcheck : (receiverCertCheck cm msg.certSize).play [] = some (.error err)) :
    (receiverEncHandshake C cm prv coins).play [.read pA] = some (.error err) := by
  simp only [receiverEncHandshake, readHandshakeMsg, Proc.recv_bind, Proc.read_bind,
    Proc.play_read, hlenA, if_true, openHandshakeMsg_auth C prv msg hdec, Proc.lift_ok,
    Proc.done_ok_bind, handleAuthMsg_eq hpub htok hlen hrec]
  exact Proc.play_bind_error hcheck

end Sides

/-! ## Agreement -/

/-- The certificate configurations of the agreement: neither node offers a certificate,
or both hold certificates of one length below `2^16` that the peer's list accepts and that
carry the holder's static key. -/
inductive CertConfig (C : HsCrypto Priv Pub) (prvA prvB : Priv) :
    Option CertManager → Option CertManager → Prop
  | none {cmA cmB : Option CertManager} (hA : certLen cmA = 0) (hB : certLen cmB = 0) :
      CertConfig C prvA prvB cmA cmB
  | both {a b : CertManager} (hlen : a.cert.length = b.cert.length) (hpos : 0 < a.cert.length)
      (hlt : a.cert.length < 2 ^ 16) (hA : b.verifyCert a.cert = .ok ())
      (hB : a.verifyCert b.cert = .ok ())
      (hkA : C.fromCertBytesToPubKey a.cert = .ok (C.pubOf prvA))
      (hkB : C.fromCertBytesToPubKey b.cert = .ok (C.pubOf prvB)) :
      CertConfig C prvA prvB (some a) (some b)

/-- **The certificate exchanges fit together**: in a configuration of the agreement, the
initiator's exchange performs some events, and the receiver's checks and exchange perform
their duals, each with the size the other advertised. -/
theorem CertConfig.exchange {prvA prvB : Priv} {cmA cmB : Option CertManager}
    (hcfg : CertConfig C prvA prvB cmA cmB) :
    ∃ evs found,
      (initiatorCertExchange C cmA (UInt16.ofNat (certLen cmB)) (some (C.pubOf prvB))).play evs =
        some (.ok ()) ∧
      (receiverCertCheck cmB (UInt16.ofNat (certLen cmA))).play [] = some (.ok found) ∧
      (receiverCertExchange C found (UInt16.ofNat (certLen cmA)) (some (C.pubOf prvA))).play
        (evs.map Event.dual) = some (.ok ()) := by
  cases hcfg with
  | none hA hB =>
    exact ⟨[], Option.none, initiatorCertExchange_none hA _, receiverCertCheck_none hB, rfl⟩
  | @both a b hlen hpos hlt hA hB hkA hkB =>
    have hsz : (UInt16.ofNat a.cert.length).toNat = a.cert.length := UInt16.toNat_ofNat_of_lt hlt
    have hne : UInt16.ofNat a.cert.length ≠ 0 := fun h => by simp [h] at hsz; omega
    simp only [certLen, ← hlen]
    refine ⟨[.write a.cert, .read b.cert], some b, initiatorCertExchange_some (by omega) hne rfl
      (by rw [hsz, hlen]) hB hkB, receiverCertCheck_some (by omega) hne (by rw [hlen]),
      receiverCertExchange_some hsz.symm hA hkA⟩

/-- The handshake of the node `(cmA, prvA)` dialing the node `(cmB, prvB)`: its
`initiatorEncHandshake` and the peer's `receiverEncHandshake` over an empty connection. -/
def handshakeLink (C : HsCrypto Priv Pub) (cmA cmB : Option CertManager) (prvA prvB : Priv)
    (coinsA coinsB : Coins Priv) : Link (Secrets (Option Pub)) (Secrets (Option Pub)) :=
  ⟨initiatorEncHandshake C cmA prvA (C.pubOf prvB) coinsA, receiverEncHandshake C cmB prvB coinsB,
    [], []⟩

/-- **Both conversations, whatever the certificates do.** For every suite with the laws
and all keys, nonces and ephemeral keys, there are the ECDH secret `e` of the two ephemeral
keys and packets `pA` and `pB` of the sizes the readers expect, such that the initiator
writes `pA`, reads `pB` and goes on as its certificate exchange does before it returns
`secretsOf` them with the receiver's nonce first; and the receiver reads `pA`, and then
returns the fault of its certificate checks if they fail, and otherwise writes `pB` and
goes on as its certificate exchange does before it returns the same `secretsOf`. -/
theorem handshake_packets (hC : C.Laws) (prvA prvB : Priv) (coinsA coinsB : Coins Priv)
    (cmA cmB : Option CertManager) :
    ∃ e pA pB, C.generateShared coinsA.randomPrivKey (C.pubOf coinsB.randomPrivKey) = .ok e ∧
      pA.length = encAuthMsgLen ∧ pB.length = encAuthRespLen ∧
      (∀ es, (initiatorEncHandshake C cmA prvA (C.pubOf prvB) coinsA).play
          ([.write pA, .read pB] ++ es) =
        (initiatorCertExchange C cmA (UInt16.ofNat (certLen cmB)) (some (C.pubOf prvB)) >>=
          fun _ => Proc.lift (.ok (secretsOf C e (copyArray shaLen coinsB.nonce)
            (copyArray shaLen coinsA.nonce) pA pB true (some (C.pubOf prvB))))).play es) ∧
      (∀ err, (receiverCertCheck cmB (UInt16.ofNat (certLen cmA))).play [] = some (.error err) →
        (receiverEncHandshake C cmB prvB coinsB).play [.read pA] = some (.error err)) ∧
      (∀ found es, (receiverCertCheck cmB (UInt16.ofNat (certLen cmA))).play [] =
          some (.ok found) →
        (receiverEncHandshake C cmB prvB coinsB).play ([.read pA, .write pB] ++ es) =
          (receiverCertExchange C found (UInt16.ofNat (certLen cmA)) (some (C.pubOf prvA)) >>=
            fun _ => Proc.lift (.ok (secretsOf C e (copyArray shaLen coinsB.nonce)
              (copyArray shaLen coinsA.nonce) pA pB false (some (C.pubOf prvA))))).play es) := by
  obtain ⟨tok, htok, hlen⟩ := hC.generateShared_ok prvA (C.pubOf prvB)
  obtain ⟨sig, hsig, hrec⟩ :=
    hC.sign_ok (xorBytes tok (copyArray shaLen coinsA.nonce)) coinsA.randomPrivKey
  obtain ⟨e, he, -⟩ := hC.generateShared_ok coinsA.randomPrivKey (C.pubOf coinsB.randomPrivKey)
  let msg := AuthMsgV4.ofBytes sig ((C.marshal (C.pubOf prvA)).drop 1)
    (copyArray shaLen coinsA.nonce) taiRLPXVersion (UInt16.ofNat (certLen cmA))
  let resp := AuthRespV4.ofBytes ((C.marshal (C.pubOf coinsB.randomPrivKey)).drop 1)
    (copyArray shaLen coinsB.nonce) taiRLPXVersion (UInt16.ofNat (certLen cmB))
  obtain ⟨pA, hencA, hlA⟩ := hC.encrypt_ok (C.pubOf prvB) (putUint16 msg.certSize ++ msg.encode)
  obtain ⟨pB, hencB, hlB⟩ := hC.encrypt_ok (C.pubOf prvA) (putUint16 resp.certSize ++ resp.encode)
  have hlenA : pA.length = encAuthMsgLen := by rw [hlA, length_authPlain msg rfl]; rfl
  have hlenB : pB.length = encAuthRespLen := by rw [hlB, length_authRespPlain resp rfl]; rfl
  have hpub : importPublicKey C msg.initiatorPubkey = .ok (C.pubOf prvA) := by
    rw [AuthMsgV4.ofBytes_initiatorPubkey, copyArray_of_length (length_marshal_drop hC _)]
    exact importPublicKey_marshal hC _
  have htokB := (hC.generateShared_comm _ _).trans htok
  have hrecB : C.sigToPub (xorBytes tok msg.nonce) msg.signature =
      .ok (C.pubOf coinsA.randomPrivKey) := by simpa [msg] using hrec
  have hrespNonce : resp.nonce = copyArray shaLen coinsB.nonce := by simp [resp]
  have hmsgNonce : msg.nonce = copyArray shaLen coinsA.nonce := by simp [msg]
  have hA := initiator_play hC htok hlen hsig hencA hlenB (hC.decrypt_encrypt prvA _ _ hencB) rfl
    (by rw [AuthRespV4.ofBytes_randomPubkey, copyArray_of_length (length_marshal_drop hC _)];
        exact importPublicKey_marshal hC _) he
  have hdecA := hC.decrypt_encrypt prvB _ _ hencA
  have heB := (hC.generateShared_comm _ _).trans he
  refine ⟨e, pA, pB, he, hlenA, hlenB, fun es => hrespNonce ▸ hA es,
    fun err => receiver_play_check_error hlenA hdecA hpub htokB hlen hrecB,
    fun found es hfound => ?_⟩
  rw [← hmsgNonce]
  exact receiver_play hC hlenA hdecA rfl hpub htokB hlen hrecB hfound hencB heB es

/-- **Both conversations when the certificates are exchanged.** Certificate exchanges
that perform `evsA` and `evsB` when fed the sizes the other side advertises complete both
conversations of `handshake_packets`. -/
theorem handshake_scripts (hC : C.Laws) (prvA prvB : Priv) (coinsA coinsB : Coins Priv)
    {cmA cmB found : Option CertManager} {evsA evsB : List Event}
    (hcA : (initiatorCertExchange C cmA (UInt16.ofNat (certLen cmB)) (some (C.pubOf prvB))).play
      evsA = some (.ok ()))
    (hfound : (receiverCertCheck cmB (UInt16.ofNat (certLen cmA))).play [] = some (.ok found))
    (hcB : (receiverCertExchange C found (UInt16.ofNat (certLen cmA)) (some (C.pubOf prvA))).play
      evsB = some (.ok ())) :
    ∃ e pA pB, C.generateShared coinsA.randomPrivKey (C.pubOf coinsB.randomPrivKey) = .ok e ∧
      pA.length = encAuthMsgLen ∧ pB.length = encAuthRespLen ∧
      (initiatorEncHandshake C cmA prvA (C.pubOf prvB) coinsA).play
        ([.write pA, .read pB] ++ evsA) = some (.ok (secretsOf C e (copyArray shaLen coinsB.nonce)
          (copyArray shaLen coinsA.nonce) pA pB true (some (C.pubOf prvB)))) ∧
      (receiverEncHandshake C cmB prvB coinsB).play ([.read pA, .write pB] ++ evsB) =
        some (.ok (secretsOf C e (copyArray shaLen coinsB.nonce)
          (copyArray shaLen coinsA.nonce) pA pB false (some (C.pubOf prvA)))) := by
  obtain ⟨e, pA, pB, he, hlA, hlB, hA, -, hB⟩ :=
    handshake_packets hC prvA prvB coinsA coinsB cmA cmB
  exact ⟨e, pA, pB, he, hlA, hlB, (hA evsA).trans (Proc.play_bind_end hcA),
    (hB found evsB hfound).trans (Proc.play_bind_end hcB)⟩

/-- **Key agreement.** For every crypto suite with the laws, all static keys, nonces and
ephemeral keys, and every certificate configuration of the agreement: whatever its fields,
an auth plaintext is `authMsgLen` bytes and a response plaintext `authRespLen` bytes; and
the initiator and the receiver, run against each other, both return secrets, consuming
exactly the packets and certificates the other wrote. The initiator's script writes its
auth packet `pA`, reads the response packet `pB` and exchanges certificates, and the
receiver's script is its dual. Both sides' secrets are `secretsOf` the ECDH secret `e` of
the two ephemeral keys, the receiver's nonce, the initiator's nonce and the two packets,
so they have equal 32-byte AES and MAC keys, swapped MAC transcripts, and each other's
static keys. -/
theorem handshake_agreement (hC : C.Laws) (prvA prvB : Priv) (coinsA coinsB : Coins Priv)
    {cmA cmB : Option CertManager} (hcfg : CertConfig C prvA prvB cmA cmB) :
    (∀ m : AuthMsgV4, m.version = taiRLPXVersion → ∀ size,
      (putUint16 size ++ m.encode).length = authMsgLen) ∧
    (∀ m : AuthRespV4, m.version = taiRLPXVersion → ∀ size,
      (putUint16 size ++ m.encode).length = authRespLen) ∧
    ∃ e pA pB evs sA sB,
      C.generateShared coinsA.randomPrivKey (C.pubOf coinsB.randomPrivKey) = .ok e ∧
      pA.length = encAuthMsgLen ∧ pB.length = encAuthRespLen ∧
      sA = secretsOf C e (copyArray shaLen coinsB.nonce) (copyArray shaLen coinsA.nonce) pA pB
        true (some (C.pubOf prvB)) ∧
      sB = secretsOf C e (copyArray shaLen coinsB.nonce) (copyArray shaLen coinsA.nonce) pA pB
        false (some (C.pubOf prvA)) ∧
      sA.aes.length = 32 ∧ sA.mac.length = 32 ∧
      (initiatorEncHandshake C cmA prvA (C.pubOf prvB) coinsA).play
        ([.write pA, .read pB] ++ evs) = some (.ok sA) ∧
      (receiverEncHandshake C cmB prvB coinsB).play
        ([.read pA, .write pB] ++ evs.map Event.dual) = some (.ok sB) ∧
      KeyAgreement (handshakeLink C cmA cmB prvA prvB coinsA coinsB) (C.pubOf prvA)
        (C.pubOf prvB) sA sB := by
  refine ⟨length_authPlain, length_authRespPlain, ?_⟩
  obtain ⟨evs, found, hcA, hfound, hcB⟩ := hcfg.exchange
  obtain ⟨e, pA, pB, he, hlA, hlB, hA, hB⟩ :=
    handshake_scripts hC prvA prvB coinsA coinsB hcA hfound hcB
  exact ⟨e, pA, pB, evs, _, _, he, hlA, hlB, rfl, rfl, secretsOf_aes_length hC ..,
    secretsOf_mac_length hC .., hA, hB,
    .of_reaches (Link.reaches_of_play hA (by simpa [Event.dual] using hB)) (secretsOf_agree ..)⟩

/-- Two nodes holding the one-byte certificates of their keys. -/
theorem handshake_agreement_toy :
    HsCrypto.toy.Laws ∧
      CertConfig HsCrypto.toy 1 2 (some ⟨[1], fun _ => .ok ()⟩) (some ⟨[2], fun _ => .ok ()⟩) ∧
      (∀ m : AuthMsgV4, m.version = taiRLPXVersion → ∀ size,
        (putUint16 size ++ m.encode).length = authMsgLen) ∧
      (∀ m : AuthRespV4, m.version = taiRLPXVersion → ∀ size,
        (putUint16 size ++ m.encode).length = authRespLen) ∧
      ∃ e pA pB evs sA sB,
        HsCrypto.toy.generateShared 3 (HsCrypto.toy.pubOf 4) = .ok e ∧
        pA.length = encAuthMsgLen ∧ pB.length = encAuthRespLen ∧
        sA = secretsOf HsCrypto.toy e (copyArray shaLen []) (copyArray shaLen []) pA pB true
          (some 2) ∧
        sB = secretsOf HsCrypto.toy e (copyArray shaLen []) (copyArray shaLen []) pA pB false
          (some 1) ∧
        sA.aes.length = 32 ∧ sA.mac.length = 32 ∧
        (initiatorEncHandshake HsCrypto.toy (some ⟨[1], fun _ => .ok ()⟩) 1 2 ⟨[], 3⟩).play
          ([.write pA, .read pB] ++ evs) = some (.ok sA) ∧
        (receiverEncHandshake HsCrypto.toy (some ⟨[2], fun _ => .ok ()⟩) 2 ⟨[], 4⟩).play
          ([.read pA, .write pB] ++ evs.map Event.dual) = some (.ok sB) ∧
        KeyAgreement (handshakeLink HsCrypto.toy (some ⟨[1], fun _ => .ok ()⟩)
          (some ⟨[2], fun _ => .ok ()⟩) 1 2 ⟨[], 3⟩ ⟨[], 4⟩) 1 2 sA sB :=
  have hcfg : CertConfig HsCrypto.toy 1 2 (some ⟨[1], fun _ => .ok ()⟩)
      (some ⟨[2], fun _ => .ok ()⟩) := .both rfl (by decide) (by decide) rfl rfl rfl rfl
  ⟨HsCrypto.toy_laws, hcfg, handshake_agreement HsCrypto.toy_laws 1 2 ⟨[], 3⟩ ⟨[], 4⟩ hcfg⟩

/-! ## The session the handshake sets up -/

/-- **The handshake sets up a session.** For every suite with the laws, all keys, nonces
and ephemeral keys, and every certificate configuration of the agreement, the run of the
two sides ends with secrets from which both build their frame codecs, and each side's
codec is in step with the other's: the initiator's egress with the receiver's ingress,
and the receiver's egress with the initiator's ingress. -/
theorem handshake_establishes_session (hC : C.Laws) (prvA prvB : Priv) (coinsA coinsB : Coins Priv)
    {cmA cmB : Option CertManager} (hcfg : CertConfig C prvA prvB cmA cmB) :
    ∃ sA sB W R,
      Link.Reaches (handshakeLink C cmA cmB prvA prvB coinsA coinsB)
        ⟨.done (.ok sA), .done (.ok sB), [], []⟩ ∧
      newRLPXFrameRW sA = .ok W ∧ newRLPXFrameRW sB = .ok R ∧ Synced W R ∧ Synced R W := by
  obtain ⟨evs, found, hcA, hfound, hcB⟩ := hcfg.exchange
  obtain ⟨e, pA, pB, -, -, -, hA, hB⟩ :=
    handshake_scripts hC prvA prvB coinsA coinsB hcA hfound hcB
  have hag := secretsOf_agree (C := C) e (copyArray shaLen coinsB.nonce)
    (copyArray shaLen coinsA.nonce) pA pB (C.pubOf prvA) (C.pubOf prvB)
  obtain ⟨W, hW⟩ := newRLPXFrameRW_secretsOf hC ..
  obtain ⟨R, hR⟩ := newRLPXFrameRW_secretsOf hC ..
  exact ⟨_, _, W, R, Link.reaches_of_play hA (by simpa [Event.dual] using hB), hW, hR,
    newRLPXFrameRW_synced hW hR hag.aes_eq.symm hag.mac_eq.symm hag.egress_eq_ingress.symm,
    newRLPXFrameRW_synced hR hW hag.aes_eq hag.mac_eq hag.ingress_eq_egress⟩

/-- Two nodes without certificates. -/
theorem handshake_establishes_session_toy :
    HsCrypto.toy.Laws ∧ CertConfig HsCrypto.toy 1 2 none none ∧
      ∃ sA sB W R,
        Link.Reaches (handshakeLink HsCrypto.toy none none 1 2 ⟨[], 3⟩ ⟨[], 4⟩)
          ⟨.done (.ok sA), .done (.ok sB), [], []⟩ ∧
        newRLPXFrameRW sA = .ok W ∧ newRLPXFrameRW sB = .ok R ∧ Synced W R ∧ Synced R W :=
  ⟨HsCrypto.toy_laws, .none rfl rfl,
    handshake_establishes_session HsCrypto.toy_laws 1 2 ⟨[], 3⟩ ⟨[], 4⟩ (.none rfl rfl)⟩

end Rlpx
