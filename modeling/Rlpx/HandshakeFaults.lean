/-
# Faults of the handshake

* `receiverEncHandshake_panics`: the envelope is public-key encryption, so anyone can
  make a node decrypt a plaintext of their choosing. When the byte after the 2-byte
  certificate size is not an RLP list header, as in 204 zero bytes, `decodePlain` panics,
  in `readHandshakeMsg` and so in `receiverEncHandshake`, before any check of the peer.
* `initiatorEncHandshake_panics`: the same holds of the response, so any node that is
  dialed can make the dialing node panic, with a packet that depends only on the dialing
  node's public key.
* `certExchange_misaligned`: both sides compare certificate lengths as `uint16`, but each
  writes its whole certificate. When the initiator's certificate is longer than the
  receiver's by a multiple of `2^16`, every size check passes, the receiver reads only the
  first `uint16(len)` bytes as the initiator's certificate, and both handshakes return
  with the rest of that certificate still in flight, where the frame reader will take it
  for a frame.
-/
import Rlpx.Agreement

namespace Rlpx

variable {Priv Pub : Type} {C : HsCrypto Priv Pub} [DecidableEq Pub]

/-! ## A plaintext that does not decode -/

/-- Past the two size bytes, a plaintext starts with its third byte. -/
theorem drop_two_eq_cons {plain : Bytes} (h : 2 < plain.length) :
    plain.drop 2 = plain.getD 2 0 :: plain.drop 3 := by
  rw [List.drop_eq_getElem_cons h, List.getD_eq_getElem _ _ h]

/-- **Undecodable plaintexts panic the receiver.** For every suite with the laws, node
key, certificate manager and coins, and every plaintext of `authMsgLen` bytes whose third
byte is below `0xC0`: its encryption to the node's key is a packet `c` that
`readHandshakeMsg` and `receiverEncHandshake` read whole and panic on. -/
theorem receiverEncHandshake_panics (hC : C.Laws) (cm : Option CertManager) (prv : Priv)
    (coins : Coins Priv) {plain : Bytes} (hlen : plain.length = authMsgLen)
    (hb : plain.getD 2 0 < 0xC0) :
    ∃ c, C.encrypt (C.pubOf prv) plain = .ok c ∧
      (readHandshakeMsg C AuthMsgV4.plainDecoder encAuthMsgLen prv).play [.read c] =
        some (.error (.panic "authRespV4 decode error")) ∧
      (receiverEncHandshake C cm prv coins).play [.read c] =
        some (.error (.panic "authRespV4 decode error")) := by
  obtain ⟨c, hc, hcl⟩ := hC.encrypt_ok (C.pubOf prv) plain
  have hl : encAuthMsgLen = c.length := by rw [hcl, hlen]; rfl
  have hd := drop_two_eq_cons (by rw [hlen, authMsgLen_eq]; omega)
  obtain ⟨e, he⟩ := AuthMsgV4.decode_of_lt (plain.drop 3) hb
  have hopen : openHandshakeMsg C AuthMsgV4.plainDecoder prv c =
      .error (.panic "authRespV4 decode error") :=
    openHandshakeMsg_decode_error C (hC.decrypt_encrypt prv _ c hc)
      (by rw [hlen, authMsgLen_eq]; omega) (hd ▸ he)
  refine ⟨c, hc, ?_, ?_⟩ <;> simp [readHandshakeMsg, receiverEncHandshake, hl, hopen]

/-- An auth plaintext of zeros. -/
theorem receiverEncHandshake_panics_zeros :
    HsCrypto.toy.Laws ∧ (List.replicate authMsgLen (0 : UInt8)).length = authMsgLen ∧
      (List.replicate authMsgLen (0 : UInt8)).getD 2 0 < 0xC0 ∧
      ∃ c, HsCrypto.toy.encrypt 1 (List.replicate authMsgLen 0) = .ok c ∧
        (readHandshakeMsg HsCrypto.toy AuthMsgV4.plainDecoder encAuthMsgLen 1).play [.read c] =
          some (.error (.panic "authRespV4 decode error")) ∧
        (receiverEncHandshake HsCrypto.toy none 1 ⟨[], 2⟩).play [.read c] =
          some (.error (.panic "authRespV4 decode error")) :=
  ⟨HsCrypto.toy_laws, List.length_replicate _ _, by decide,
    receiverEncHandshake_panics HsCrypto.toy_laws none 1 ⟨[], 2⟩ (List.length_replicate _ _)
      (by decide)⟩

/-- With the laws, the initiator writes an auth packet of `encAuthMsgLen` bytes, and
returns the fault of any response packet of `encAuthRespLen` bytes that does not open. -/
theorem initiator_open_error (hC : C.Laws) (cm : Option CertManager) (prv : Priv) (remote : Pub)
    (coins : Coins Priv) :
    ∃ pA, pA.length = encAuthMsgLen ∧ ∀ c err, c.length = encAuthRespLen →
      openHandshakeMsg C AuthRespV4.plainDecoder prv c = .error err →
      (initiatorEncHandshake C cm prv remote coins).play [.write pA, .read c] = some (.error err) := by
  obtain ⟨tok, htok, hlen⟩ := hC.generateShared_ok prv remote
  obtain ⟨sig, hsig, -⟩ :=
    hC.sign_ok (xorBytes tok (copyArray shaLen coins.nonce)) coins.randomPrivKey
  have hm : 1 ≤ (C.marshal (C.pubOf prv)).length := by
    obtain ⟨x, hx, -⟩ := hC.marshal_eq (C.pubOf prv); simp [hx]
  obtain ⟨pA, henc, hl⟩ := hC.encrypt_ok remote (putUint16 (UInt16.ofNat (certLen cm)) ++
    (AuthMsgV4.ofBytes sig ((C.marshal (C.pubOf prv)).drop 1) (copyArray shaLen coins.nonce)
      taiRLPXVersion (UInt16.ofNat (certLen cm))).encode)
  refine ⟨pA, by rw [hl, length_authPlain _ rfl]; rfl, fun c err hc hopen => ?_⟩
  simp only [initiatorEncHandshake, readHandshakeMsg, makeAuthMsg_eq htok hlen hsig hm,
    sealPlain, deref, Except.ok_bind, AuthMsgV4.ofBytes_certSize, henc, Proc.lift_ok,
    Proc.done_ok_bind, Proc.send_bind, Proc.recv_bind, Proc.read_bind, Proc.write_bind,
    Proc.play_write, Proc.play_read, if_true, hc, hopen]
  rfl

/-- **Undecodable responses panic the initiator.** For every suite with the laws,
certificate manager, key, dialed key and coins, and every plaintext of `authRespLen`
bytes whose third byte is below `0xC0`: its encryption to the initiator's key is a packet
`c` such that a peer that reads the auth packet and answers `c` makes the initiator
panic, and every run halts there. -/
theorem initiatorEncHandshake_panics (hC : C.Laws) (cm : Option CertManager) (prv : Priv)
    (remote : Pub) (coins : Coins Priv) {plain : Bytes} (hlen : plain.length = authRespLen)
    (hb : plain.getD 2 0 < 0xC0) :
    ∃ c, C.encrypt (C.pubOf prv) plain = .ok c ∧
      Link.Reaches ⟨initiatorEncHandshake C cm prv remote coins,
          Proc.recv encAuthMsgLen >>= fun _ => Proc.send c, [], []⟩
        ⟨.done (.error (.panic "authRespV4 decode error")), .done (.ok ()), [], []⟩ ∧
      ∀ t, Link.Reaches ⟨initiatorEncHandshake C cm prv remote coins,
          Proc.recv encAuthMsgLen >>= fun _ => Proc.send c, [], []⟩ t → Link.Halted t →
        t = ⟨.done (.error (.panic "authRespV4 decode error")), .done (.ok ()), [], []⟩ := by
  obtain ⟨c, hc, hcl⟩ := hC.encrypt_ok (C.pubOf prv) plain
  have hd := drop_two_eq_cons (by rw [hlen, authRespLen_eq]; omega)
  obtain ⟨e, he⟩ := AuthRespV4.decode_of_lt (plain.drop 3) hb
  have hopen : openHandshakeMsg C AuthRespV4.plainDecoder prv c =
      .error (.panic "authRespV4 decode error") :=
    openHandshakeMsg_decode_error C (hC.decrypt_encrypt prv _ c hc)
      (by rw [hlen, authRespLen_eq]; omega) (hd ▸ he)
  obtain ⟨pA, hpA, hA⟩ := initiator_open_error hC cm prv remote coins
  have hpeer : (Proc.recv encAuthMsgLen >>= fun _ => Proc.send c).play
      ([Event.write pA, .read c].map Event.dual) = some (.ok ()) := by
    simp [Event.dual, hpA, Proc.send]
  have hrun := Link.reaches_of_play (hA c _ (by rw [hcl, hlen]; rfl) hopen) hpeer
  exact ⟨c, hc, hrun, fun t ht hth => Link.halted_unique ht hrun hth (Link.halted_done _ _ _ _)⟩

/-- A response plaintext of zeros. -/
theorem initiatorEncHandshake_panics_zeros :
    HsCrypto.toy.Laws ∧ (List.replicate authRespLen (0 : UInt8)).length = authRespLen ∧
      (List.replicate authRespLen (0 : UInt8)).getD 2 0 < 0xC0 ∧
      ∃ c, HsCrypto.toy.encrypt 1 (List.replicate authRespLen 0) = .ok c ∧
        Link.Reaches ⟨initiatorEncHandshake HsCrypto.toy none 1 2 ⟨[], 3⟩,
            Proc.recv encAuthMsgLen >>= fun _ => Proc.send c, [], []⟩
          ⟨.done (.error (.panic "authRespV4 decode error")), .done (.ok ()), [], []⟩ ∧
        ∀ t, Link.Reaches ⟨initiatorEncHandshake HsCrypto.toy none 1 2 ⟨[], 3⟩,
            Proc.recv encAuthMsgLen >>= fun _ => Proc.send c, [], []⟩ t → Link.Halted t →
          t = ⟨.done (.error (.panic "authRespV4 decode error")), .done (.ok ()), [], []⟩ :=
  ⟨HsCrypto.toy_laws, List.length_replicate _ _, by decide,
    initiatorEncHandshake_panics HsCrypto.toy_laws none 1 2 ⟨[], 3⟩ (List.length_replicate _ _)
      (by decide)⟩

/-! ## Certificates longer than `2^16` bytes -/

/-- **The certificate exchange loses alignment.** For every suite with the laws and all
keys and coins: when the initiator's certificate `a` and the receiver's `b` have equal
lengths as `uint16`, `b` is shorter than `2^16` bytes and no longer than `a`, and the
lists and key extraction accept `b` and the first `len(b)` bytes of `a`, then both
handshakes return secrets, the receiver having read only those first bytes as `a`, and
the rest of `a` is left in flight, on every run. -/
theorem certExchange_misaligned (hC : C.Laws) (prvA prvB : Priv) (coinsA coinsB : Coins Priv)
    (a b : CertManager) (hsize : UInt16.ofNat a.cert.length = UInt16.ofNat b.cert.length)
    (hpos : 0 < b.cert.length) (hlt : b.cert.length < 2 ^ 16)
    (hab : b.cert.length ≤ a.cert.length)
    (hA : b.verifyCert (a.cert.take b.cert.length) = .ok ())
    (hkA : C.fromCertBytesToPubKey (a.cert.take b.cert.length) = .ok (C.pubOf prvA))
    (hB : a.verifyCert b.cert = .ok ())
    (hkB : C.fromCertBytesToPubKey b.cert = .ok (C.pubOf prvB)) :
    ∃ sA sB,
      Link.Reaches (handshakeLink C (some a) (some b) prvA prvB coinsA coinsB)
        ⟨.done (.ok sA), .done (.ok sB), a.cert.drop b.cert.length, []⟩ ∧
      ∀ t, Link.Reaches (handshakeLink C (some a) (some b) prvA prvB coinsA coinsB) t →
        Link.Halted t → t = ⟨.done (.ok sA), .done (.ok sB), a.cert.drop b.cert.length, []⟩ := by
  have hsz : (UInt16.ofNat (certLen (some b))).toNat = b.cert.length :=
    UInt16.toNat_ofNat_of_lt hlt
  have hne : UInt16.ofNat (certLen (some b)) ≠ 0 := fun h => by simp [h] at hsz; omega
  have hsize' : UInt16.ofNat (certLen (some a)) = UInt16.ofNat (certLen (some b)) := hsize
  have htake : (a.cert.take b.cert.length).length = b.cert.length := by simp [hab]
  obtain ⟨_, pA, pB, -, -, -, hpA, hpB⟩ := handshake_scripts hC prvA prvB coinsA coinsB
    (initiatorCertExchange_some (by omega) hne hsize hsz.symm hB hkB)
    (receiverCertCheck_some (by omega) (hsize' ▸ hne) hsize'.symm)
    (receiverCertExchange_some (by rw [htake, hsize', hsz]) hA hkA)
  obtain ⟨p, q, hr, hp, hq⟩ := Link.reaches_of_play_append hpA hpB
  obtain ⟨p₁, rfl, hp₁⟩ := Proc.eq_write_of_play hp
  obtain ⟨p₂, rfl, hp₂⟩ := Proc.eq_read_of_play hp₁
  obtain ⟨q₁, rfl, hq₁⟩ := Proc.eq_read_of_play hq
  obtain ⟨q₂, hq₂, hq₃⟩ := Proc.eq_write_of_play hq₁
  rw [htake] at hr
  have h₁ := Link.Step.readB (.read b.cert.length p₂) b.cert.length q₁ a.cert [] hab
  have h₂ := Link.Step.readA b.cert.length p₂ q₂ (a.cert.drop b.cert.length) b.cert le_rfl
  rw [Proc.eq_done_of_play_nil hq₃] at hq₂ h₂
  rw [hq₂] at h₁
  rw [List.take_length, List.drop_length, Proc.eq_done_of_play_nil hp₂] at h₂
  have hrun := hr.tail (.writeA _ _ _ _ _) |>.tail h₁ |>.tail (.writeB _ _ _ _ _) |>.tail h₂
  exact ⟨_, _, hrun, fun t ht hth => Link.halted_unique ht hrun hth (Link.halted_done _ _ _ _)⟩

/-- A certificate of 65537 bytes against one of a single byte: both pass the `uint16`
size checks, and 65536 bytes of the first are left in flight. -/
theorem certExchange_misaligned_toy :
    HsCrypto.toy.Laws ∧
      UInt16.ofNat (List.replicate 65537 (1 : UInt8)).length = UInt16.ofNat [(2 : UInt8)].length ∧
      0 < [(2 : UInt8)].length ∧ [(2 : UInt8)].length < 2 ^ 16 ∧
      [(2 : UInt8)].length ≤ (List.replicate 65537 (1 : UInt8)).length ∧
      ∃ sA sB,
        Link.Reaches (handshakeLink HsCrypto.toy (some ⟨List.replicate 65537 1, fun _ => .ok ()⟩)
          (some ⟨[2], fun _ => .ok ()⟩) 1 2 ⟨[], 3⟩ ⟨[], 4⟩)
          ⟨.done (.ok sA), .done (.ok sB), List.replicate 65536 1, []⟩ ∧
        ∀ t, Link.Reaches (handshakeLink HsCrypto.toy
            (some ⟨List.replicate 65537 1, fun _ => .ok ()⟩) (some ⟨[2], fun _ => .ok ()⟩)
            1 2 ⟨[], 3⟩ ⟨[], 4⟩) t →
          Link.Halted t → t = ⟨.done (.ok sA), .done (.ok sB), List.replicate 65536 1, []⟩ :=
  have hsize : UInt16.ofNat (List.replicate 65537 (1 : UInt8)).length =
      UInt16.ofNat [(2 : UInt8)].length := by rw [List.length_replicate]; rfl
  have hab : [(2 : UInt8)].length ≤ (List.replicate 65537 (1 : UInt8)).length := by
    rw [List.length_replicate]; decide
  ⟨HsCrypto.toy_laws, hsize, by decide, by decide, hab,
    certExchange_misaligned HsCrypto.toy_laws 1 2 ⟨[], 3⟩ ⟨[], 4⟩ _ _ hsize (by decide)
      (by decide) hab rfl rfl rfl rfl⟩

end Rlpx
