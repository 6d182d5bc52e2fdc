/-
# What a completed handshake authenticates

A node that holds a certificate exchanges certificates with its peer inside the
encryption handshake. Whatever the peer does, a run in which that node's handshake
returns has made it read a certificate that its certificate manager accepts and whose key
is the key the session is bound to: the key the initiator dialed
(`initiator_authenticates`), and the key the receiver records as its remote
(`receiver_authenticates`). Nothing is assumed of the crypto calls: the checks are in the
control flow of `initiatorEncHandshake` and `receiverEncHandshake`.

`doEncHandshake` returns the key the session is bound to; a dialing node gets back the
key it dialed, whatever the peer sends (`doEncHandshake_dial`).

The proofs invert one side's script step by step (`Proc.play_bind_inv`), the way the
Go functions return early on every error, and take any run of the link to the script the
side followed in it (`Link.exists_after`).
-/
import Rlpx.Agreement

namespace Rlpx

variable {Priv Pub : Type} {C : HsCrypto Priv Pub}

/-! ## The handshake state and the packets -/

/-- `makeAuthMsg` leaves the remote key of the handshake state alone. -/
theorem makeAuthMsg_remote {coins : Coins Priv} {prv : Priv} {h h' : EncHandshake Priv Pub}
    {m : AuthMsgV4} (hm : makeAuthMsg C coins prv h = .ok (h', m)) : h'.remote = h.remote := by
  simp only [makeAuthMsg, Except.bind_eq_ok] at hm
  obtain ⟨_, _, _, _, _, _, _, _, hm⟩ := hm
  cases hm; rfl

/-- `handleAuthResp` leaves the remote key of the handshake state alone. -/
theorem handleAuthResp_remote {msg : AuthRespV4} {h h' : EncHandshake Priv Pub}
    (hr : handleAuthResp C msg h = .ok h') : h'.remote = h.remote := by
  simp only [handleAuthResp] at hr
  split_ifs at hr
  cases himp : importPublicKey C msg.randomPubkey <;> simp [himp, Except.map] at hr
  rw [← hr]

/-- `secrets` binds the secrets to the remote key of the handshake state. -/
theorem secrets_remote {auth authResp : Bytes} {h : EncHandshake Priv Pub}
    {s : Secrets (Option Pub)} (hs : secrets C auth authResp h = .ok s) : s.remote = h.remote := by
  simp only [secrets, Except.bind_eq_ok] at hs
  obtain ⟨_, _, _, _, _, _, _, _, _, _, hs⟩ := hs
  cases hs; rfl

/-- `readHandshakeMsg` performs one read of exactly `size` bytes and returns what they open
to. -/
theorem readHandshakeMsg_inv {M : Type} {dec : PlainDecoder M} {size : Nat} {prv : Priv}
    {es : List Event} {r : Except Fault (M × Bytes)}
    (h : (readHandshakeMsg C dec size prv).play es = some r) :
    ∃ buf, es = [.read buf] ∧ buf.length = size ∧ openHandshakeMsg C dec prv buf = r := by
  rw [readHandshakeMsg, Proc.recv_bind] at h
  obtain ⟨buf, es', rfl, hn, h⟩ := Proc.play_read_inv h
  obtain ⟨rfl, ho⟩ := Proc.play_done_inv h
  exact ⟨buf, rfl, hn, ho⟩

variable [DecidableEq Pub]

/-! ## Inverting the certificate exchange -/

section Inversion

variable {cm : CertManager} {n : UInt16} {remote : Option Pub} {es : List Event}

/-- A size check that passes performs nothing, and the peer's size is nonzero and that of
the own certificate. -/
theorem checkCertSize_inv {msg : String} (h : (checkCertSize cm n msg).play es = some (.ok ())) :
    es = [] ∧ n ≠ 0 ∧ UInt16.ofNat cm.cert.length = n := by
  simp only [checkCertSize] at h
  by_cases h0 : n = 0
  · simp [h0, Proc.throw] at h
  by_cases h1 : UInt16.ofNat cm.cert.length = n
  · simp only [h0, h1, ne_eq, not_true_eq_false, if_false, Proc.pure_eq, Proc.done_ok_bind,
      Proc.play_done_eq_some] at h
    exact ⟨h.1, h0, h1⟩
  · simp [h0, h1, Proc.throw] at h

/-- A certificate read to the end was accepted by the list, and its key is `remote`. -/
theorem readPeerCert_inv (h : (readPeerCert C cm n remote).play es = some (.ok ())) :
    ∃ y p, es = [.read y] ∧ y.length = n.toNat ∧ cm.verifyCert y = .ok () ∧
      C.fromCertBytesToPubKey y = .ok p ∧ remote = some p := by
  rw [readPeerCert, Proc.recv_bind] at h
  obtain ⟨y, es', rfl, hn, h⟩ := Proc.play_read_inv h
  obtain ⟨⟨⟩, hv, h⟩ := Proc.play_lift_bind_inv h
  obtain ⟨p, hp, h⟩ := Proc.play_lift_bind_inv h
  split_ifs at h with hr
  · cases (Proc.play_done_inv h).2
  · exact ⟨y, p, by rw [(Proc.play_done_inv h).1], hn, hv, hp, (not_not.mp hr).symm⟩

/-- An initiator's certificate exchange that passes wrote its certificate and read one its
list accepts, whose key is `remote`. -/
theorem initiatorCertExchange_inv (hne : cm.cert.length ≠ 0)
    (h : (initiatorCertExchange C (some cm) n remote).play es = some (.ok ())) :
    ∃ y p, es = [.write cm.cert, .read y] ∧ cm.verifyCert y = .ok () ∧
      C.fromCertBytesToPubKey y = .ok p ∧ remote = some p := by
  rw [initiatorCertExchange, if_pos hne] at h
  obtain ⟨es₁, es₂, ⟨⟩, rfl, h₁, h₂⟩ := Proc.play_bind_inv h
  obtain ⟨rfl, -⟩ := checkCertSize_inv h₁
  rw [Proc.send_bind] at h₂
  obtain ⟨es₃, rfl, h₃⟩ := Proc.play_write_inv h₂
  obtain ⟨y, p, rfl, -, hv, hp, hr⟩ := readPeerCert_inv h₃
  exact ⟨y, p, rfl, hv, hp, hr⟩

/-- A receiver's certificate check that passes performs nothing and keeps the certificate
manager. -/
theorem receiverCertCheck_inv (hne : cm.cert.length ≠ 0) {found : Option CertManager}
    (h : (receiverCertCheck (some cm) n).play es = some (.ok found)) :
    es = [] ∧ found = some cm := by
  rw [receiverCertCheck, if_pos hne] at h
  obtain ⟨es₁, es₂, ⟨⟩, rfl, h₁, h₂⟩ := Proc.play_bind_inv h
  obtain ⟨rfl, hf⟩ := Proc.play_done_inv h₂
  exact ⟨by simpa using (checkCertSize_inv h₁).1, (Except.ok.inj hf).symm⟩

/-- A receiver's certificate exchange that passes read a certificate its list accepts, whose
key is `remote`, and wrote its own. -/
theorem receiverCertExchange_inv
    (h : (receiverCertExchange C (some cm) n remote).play es = some (.ok ())) :
    ∃ y p, es = [.read y, .write cm.cert] ∧ cm.verifyCert y = .ok () ∧
      C.fromCertBytesToPubKey y = .ok p ∧ remote = some p := by
  rw [receiverCertExchange] at h
  obtain ⟨es₁, es₂, ⟨⟩, rfl, h₁, h₂⟩ := Proc.play_bind_inv h
  obtain ⟨y, p, rfl, -, hv, hp, hr⟩ := readPeerCert_inv h₁
  obtain ⟨es₃, rfl, h₃⟩ := Proc.play_write_inv h₂
  exact ⟨y, p, by rw [(Proc.play_done_inv h₃).1]; rfl, hv, hp, hr⟩

end Inversion

/-! ## The two sides against any peer -/

section Sides

variable {cm : CertManager} {prv : Priv} {coins : Coins Priv} {es : List Event}
  {s : Secrets (Option Pub)}

/-- **What the initiator did when it returns.** An initiator holding a certificate that
returns secrets `s` on the events `es` wrote its auth packet, read a response packet,
wrote its certificate and read a certificate `y` its list accepts, whose key is the key
it dialed, the remote key of `s`. -/
theorem initiatorEncHandshake_play_inv (hne : cm.cert.length ≠ 0) {remote : Pub}
    (h : (initiatorEncHandshake C (some cm) prv remote coins).play es = some (.ok s)) :
    ∃ auth resp y, es = [.write auth, .read resp, .write cm.cert, .read y] ∧
      cm.verifyCert y = .ok () ∧ C.fromCertBytesToPubKey y = .ok remote ∧
      s.remote = some remote := by
  simp only [initiatorEncHandshake] at h
  obtain ⟨⟨h₀, msg⟩, hm, hp₁⟩ := Proc.play_lift_bind_inv h
  obtain ⟨auth, -, hp₂⟩ := Proc.play_lift_bind_inv hp₁
  rw [Proc.send_bind] at hp₂
  obtain ⟨es₁, rfl, hp₃⟩ := Proc.play_write_inv hp₂
  obtain ⟨es₂, es₃, ⟨resp, respPacket⟩, rfl, hread, hp₄⟩ := Proc.play_bind_inv hp₃
  obtain ⟨resp', rfl, -, -⟩ := readHandshakeMsg_inv hread
  obtain ⟨h₂, hr, hp₅⟩ := Proc.play_lift_bind_inv hp₄
  obtain ⟨es₄, es₅, ⟨⟩, rfl, hcert, hp₆⟩ := Proc.play_bind_inv hp₅
  obtain ⟨y, p, rfl, hv, hp, hrem⟩ := initiatorCertExchange_inv hne hcert
  obtain ⟨rfl, hs⟩ := Proc.play_done_inv hp₆
  have hremote : h₂.remote = some remote := by
    rw [handleAuthResp_remote hr, makeAuthMsg_remote hm]
  obtain rfl : p = remote := Option.some.inj (hrem.symm.trans hremote)
  exact ⟨auth, resp', y, by simp, hv, hp, (secrets_remote hs).trans hremote⟩

/-- **What the receiver did when it returns.** A receiver holding a certificate that
returns secrets `s` on the events `es` read an auth packet, wrote its response packet,
read a certificate `y` its list accepts and wrote its own; the key of `y` is the remote
key of `s`. -/
theorem receiverEncHandshake_play_inv (hne : cm.cert.length ≠ 0)
    (h : (receiverEncHandshake C (some cm) prv coins).play es = some (.ok s)) :
    ∃ auth resp y p, es = [.read auth, .write resp, .read y, .write cm.cert] ∧
      cm.verifyCert y = .ok () ∧ C.fromCertBytesToPubKey y = .ok p ∧ s.remote = some p := by
  simp only [receiverEncHandshake] at h
  obtain ⟨es₁, es₂, ⟨msg, authPacket⟩, rfl, hread, hp₁⟩ := Proc.play_bind_inv h
  obtain ⟨auth, rfl, -, -⟩ := readHandshakeMsg_inv hread
  obtain ⟨h₀, -, hp₂⟩ := Proc.play_lift_bind_inv hp₁
  obtain ⟨es₃, es₄, found, rfl, hcheck, hp₃⟩ := Proc.play_bind_inv hp₂
  obtain ⟨rfl, rfl⟩ := receiverCertCheck_inv hne hcheck
  obtain ⟨⟨h₁, respMsg⟩, -, hp₄⟩ := Proc.play_lift_bind_inv hp₃
  obtain ⟨resp, -, hp₅⟩ := Proc.play_lift_bind_inv hp₄
  rw [Proc.send_bind] at hp₅
  obtain ⟨es₅, rfl, hp₆⟩ := Proc.play_write_inv hp₅
  split_ifs at hp₆
  · simp [Proc.throw] at hp₆
  rw [Proc.pure_eq, Proc.done_ok_bind] at hp₆
  obtain ⟨es₆, es₇, ⟨⟩, rfl, hcert, hp₇⟩ := Proc.play_bind_inv hp₆
  obtain ⟨y, p, rfl, hv, hp, hrem⟩ := receiverCertExchange_inv hcert
  obtain ⟨rfl, hs⟩ := Proc.play_done_inv hp₇
  exact ⟨auth, resp, y, p, by simp, hv, hp, (secrets_remote hs).trans hrem⟩

/-- **The initiator authenticates its peer.** For every crypto suite, every certificate
manager holding a certificate, key, dialed key and coins, and every program `q` on the
other end of the connection: in every run in which the initiator has returned secrets
`s`, its script was to write its auth packet, read a response packet `resp`, write its
certificate and read a certificate `y`; the peer wrote `resp` and then `y`, followed by
what is still in flight; the list accepts `y`, the key of `y` is the key dialed, and `s` is
bound to that key. -/
theorem initiator_authenticates (hne : cm.cert.length ≠ 0) (remote : Pub) {Q : Type}
    (q : Proc Q) {t : Link (Secrets (Option Pub)) Q}
    (hrun : Link.Reaches ⟨initiatorEncHandshake C (some cm) prv remote coins, q, [], []⟩ t)
    (hdone : t.a = .done (.ok s)) :
    ∃ auth resp y esB,
      (initiatorEncHandshake C (some cm) prv remote coins).play
        [.write auth, .read resp, .write cm.cert, .read y] = some (.ok s) ∧
      q.After esB t.b ∧ Event.sent esB = resp ++ y ++ t.ba ∧
      cm.verifyCert y = .ok () ∧ C.fromCertBytesToPubKey y = .ok remote ∧
      s.remote = some remote := by
  obtain ⟨esA, esB, hA, hB, -, hba⟩ := Link.exists_after_flow hrun
  have h := hA []
  rw [hdone, List.append_nil] at h
  obtain ⟨auth, resp, y, rfl, hy⟩ := initiatorEncHandshake_play_inv hne h
  exact ⟨auth, resp, y, esB, h, hB, by simpa using hba, hy⟩

/-- The handshake of two nodes holding the one-byte certificates of their keys runs to
both ends. -/
theorem handshakeLink_toy_reaches :
    ∃ sA sB, Link.Reaches (handshakeLink HsCrypto.toy (some ⟨[1], fun _ => .ok ()⟩)
      (some ⟨[2], fun _ => .ok ()⟩) 1 2 ⟨[], 3⟩ ⟨[], 4⟩) ⟨.done (.ok sA), .done (.ok sB), [], []⟩ := by
  obtain ⟨evs, found, hcA, hfound, hcB⟩ :=
    (CertConfig.both rfl (by decide) (by decide) rfl rfl rfl rfl : CertConfig HsCrypto.toy 1 2
      (some ⟨[1], fun _ => .ok ()⟩) (some ⟨[2], fun _ => .ok ()⟩)).exchange
  obtain ⟨e, pA, pB, -, -, -, hA, hB⟩ :=
    handshake_scripts HsCrypto.toy_laws 1 2 ⟨[], 3⟩ ⟨[], 4⟩ hcA hfound hcB
  exact ⟨_, _, Link.reaches_of_play hA (by simpa [Event.dual] using hB)⟩

/-- The initiator of the handshake of two nodes holding the one-byte certificates of their
keys. -/
theorem initiator_authenticates_toy :
    [(1 : UInt8)].length ≠ 0 ∧
      ∃ t s, Link.Reaches (handshakeLink HsCrypto.toy (some ⟨[1], fun _ => .ok ()⟩)
          (some ⟨[2], fun _ => .ok ()⟩) 1 2 ⟨[], 3⟩ ⟨[], 4⟩) t ∧ t.a = .done (.ok s) ∧
        ∃ auth resp y esB,
          (initiatorEncHandshake HsCrypto.toy (some ⟨[1], fun _ => .ok ()⟩) 1 2 ⟨[], 3⟩).play
            [.write auth, .read resp, .write [1], .read y] = some (.ok s) ∧
          (receiverEncHandshake HsCrypto.toy (some ⟨[2], fun _ => .ok ()⟩) 2 ⟨[], 4⟩).After esB
            t.b ∧ Event.sent esB = resp ++ y ++ t.ba ∧
          CertManager.verifyCert ⟨[1], fun _ => .ok ()⟩ y = .ok () ∧
          HsCrypto.toy.fromCertBytesToPubKey y = .ok 2 ∧ s.remote = some 2 := by
  obtain ⟨sA, sB, hrun⟩ := handshakeLink_toy_reaches
  exact ⟨by decide, _, sA, hrun, rfl, initiator_authenticates (by decide) (2 : UInt8) _ hrun rfl⟩

/-- **The receiver authenticates its peer.** For every crypto suite, every certificate
manager holding a certificate, key and coins, and every program `q` on the other end of
the connection: in every run in which the receiver has returned secrets `s`, its script
was to read an auth packet `auth`, write its response packet, read a certificate `y` and
write its own; the peer wrote `auth` and then `y`, followed by what is still in flight;
the list accepts `y`, and `s` is bound to the key of `y`. -/
theorem receiver_authenticates (hne : cm.cert.length ≠ 0) {Q : Type} (q : Proc Q)
    {t : Link Q (Secrets (Option Pub))}
    (hrun : Link.Reaches ⟨q, receiverEncHandshake C (some cm) prv coins, [], []⟩ t)
    (hdone : t.b = .done (.ok s)) :
    ∃ auth resp y p esA,
      (receiverEncHandshake C (some cm) prv coins).play
        [.read auth, .write resp, .read y, .write cm.cert] = some (.ok s) ∧
      q.After esA t.a ∧ Event.sent esA = auth ++ y ++ t.ab ∧
      cm.verifyCert y = .ok () ∧ C.fromCertBytesToPubKey y = .ok p ∧ s.remote = some p := by
  obtain ⟨esA, esB, hA, hB, hab, -⟩ := Link.exists_after_flow hrun
  have h := hB []
  rw [hdone, List.append_nil] at h
  obtain ⟨auth, resp, y, p, rfl, hy⟩ := receiverEncHandshake_play_inv hne h
  exact ⟨auth, resp, y, p, esA, h, hA, by simpa using hab, hy⟩

/-- The receiver of the handshake of two nodes holding the one-byte certificates of their
keys. -/
theorem receiver_authenticates_toy :
    [(2 : UInt8)].length ≠ 0 ∧
      ∃ t s, Link.Reaches (handshakeLink HsCrypto.toy (some ⟨[1], fun _ => .ok ()⟩)
          (some ⟨[2], fun _ => .ok ()⟩) 1 2 ⟨[], 3⟩ ⟨[], 4⟩) t ∧ t.b = .done (.ok s) ∧
        ∃ auth resp y p esA,
          (receiverEncHandshake HsCrypto.toy (some ⟨[2], fun _ => .ok ()⟩) 2 ⟨[], 4⟩).play
            [.read auth, .write resp, .read y, .write [2]] = some (.ok s) ∧
          (initiatorEncHandshake HsCrypto.toy (some ⟨[1], fun _ => .ok ()⟩) 1 2 ⟨[], 3⟩).After esA
            t.a ∧ Event.sent esA = auth ++ y ++ t.ab ∧
          CertManager.verifyCert ⟨[2], fun _ => .ok ()⟩ y = .ok () ∧
          HsCrypto.toy.fromCertBytesToPubKey y = .ok p ∧ s.remote = some p := by
  obtain ⟨sA, sB, hrun⟩ := handshakeLink_toy_reaches
  exact ⟨by decide, _, sB, hrun, rfl, receiver_authenticates (by decide) _ hrun rfl⟩

end Sides

/-! ## The key `doEncHandshake` returns -/

/-- `rlpx.doEncHandshake`: the receiver's handshake when `dial` is `nil`, the initiator's
otherwise; on success, the codec it installs in `t.rw` and the key it returns. -/
def doEncHandshake (C : HsCrypto Priv Pub) (cm : Option CertManager) (prv : Priv)
    (dial : Option Pub) (coins : Coins Priv) : Proc (RlpxFrameRW × Option Pub) := do
  let sec ← match dial with
    | none => receiverEncHandshake C cm prv coins
    | some d => initiatorEncHandshake C cm prv d coins
  let rw ← Proc.lift (newRLPXFrameRW sec)
  pure (rw, sec.remote)

section Dial

variable {cm : Option CertManager} {prv : Priv} {coins : Coins Priv} {es : List Event}

/-- Whatever the peer sends, an initiator that returns secrets binds them to the key it
dialed. -/
theorem initiatorEncHandshake_remote {remote : Pub} {s : Secrets (Option Pub)}
    (h : (initiatorEncHandshake C cm prv remote coins).play es = some (.ok s)) :
    s.remote = some remote := by
  simp only [initiatorEncHandshake] at h
  obtain ⟨⟨h₀, msg⟩, hm, hp₁⟩ := Proc.play_lift_bind_inv h
  obtain ⟨auth, -, hp₂⟩ := Proc.play_lift_bind_inv hp₁
  rw [Proc.send_bind] at hp₂
  obtain ⟨es₁, rfl, hp₃⟩ := Proc.play_write_inv hp₂
  obtain ⟨es₂, es₃, ⟨resp, respPacket⟩, rfl, -, hp₄⟩ := Proc.play_bind_inv hp₃
  obtain ⟨h₂, hr, hp₅⟩ := Proc.play_lift_bind_inv hp₄
  obtain ⟨es₄, es₅, ⟨⟩, rfl, -, hp₆⟩ := Proc.play_bind_inv hp₅
  obtain ⟨rfl, hs⟩ := Proc.play_done_inv hp₆
  rw [secrets_remote hs, handleAuthResp_remote hr, makeAuthMsg_remote hm]

/-- **A dialing node gets back the key it dialed.** For every crypto suite, certificate
manager, key, dialed key and coins, and every program `q` on the other end of the
connection: in every run in which `doEncHandshake` has returned a codec and a key, the key
is the one dialed, and the codec is the one `newRLPXFrameRW` builds from secrets bound to
that key. -/
theorem doEncHandshake_dial (d : Pub) {Q : Type} (q : Proc Q)
    {t : Link (RlpxFrameRW × Option Pub) Q} {rw : RlpxFrameRW} {K : Option Pub}
    (hrun : Link.Reaches ⟨doEncHandshake C cm prv (some d) coins, q, [], []⟩ t)
    (hdone : t.a = .done (.ok (rw, K))) :
    K = some d ∧ ∃ s : Secrets (Option Pub), newRLPXFrameRW s = .ok rw ∧ s.remote = some d := by
  obtain ⟨es, -, hA, -⟩ := Link.exists_after hrun
  have h := hA []
  rw [hdone, List.append_nil] at h
  obtain ⟨es₁, es₂, s, -, hs, hp⟩ := Proc.play_bind_inv h
  obtain ⟨rw', hrw, hp'⟩ := Proc.play_lift_bind_inv hp
  obtain ⟨-, hret⟩ := Proc.play_done_inv hp'
  obtain ⟨rfl, rfl⟩ := Prod.mk.inj (Except.ok.inj hret)
  have hrem := initiatorEncHandshake_remote hs
  exact ⟨hrem, s, hrw, hrem⟩

/-- A node without a certificate dialing another through `doEncHandshake`. -/
theorem doEncHandshake_dial_toy :
    ∃ t rw K, Link.Reaches ⟨doEncHandshake HsCrypto.toy none 1 (some 2) ⟨[], 3⟩,
        receiverEncHandshake HsCrypto.toy none 2 ⟨[], 4⟩, [], []⟩ t ∧ t.a = .done (.ok (rw, K)) ∧
      K = some 2 ∧ ∃ s : Secrets (Option UInt8), newRLPXFrameRW s = .ok rw ∧ s.remote = some 2 := by
  obtain ⟨evs, found, hcA, hfound, hcB⟩ :=
    (CertConfig.none rfl rfl : CertConfig HsCrypto.toy 1 2 none none).exchange
  obtain ⟨e, pA, pB, -, -, -, hA, hB⟩ :=
    handshake_scripts HsCrypto.toy_laws 1 2 ⟨[], 3⟩ ⟨[], 4⟩ hcA hfound hcB
  obtain ⟨W, hW⟩ := newRLPXFrameRW_secretsOf HsCrypto.toy_laws e (copyArray shaLen [])
    (copyArray shaLen []) pA pB true (some (HsCrypto.toy.pubOf 2))
  have hD : (doEncHandshake HsCrypto.toy none 1 (some 2) ⟨[], 3⟩).play
      ([.write pA, .read pB] ++ evs) = some (.ok (W, some 2)) := by
    rw [doEncHandshake]
    refine (Proc.play_bind_end hA).trans ?_
    simp [hW]
    rfl
  have hrun := Link.reaches_of_play hD (by simpa [Event.dual] using hB)
  exact ⟨_, W, some 2, hrun, rfl, doEncHandshake_dial 2 _ hrun rfl⟩

end Dial

end Rlpx
