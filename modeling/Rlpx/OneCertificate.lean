/-
# Handshakes where one node holds a certificate

`handshake_agreement` covers the configurations where both nodes or neither offer a
certificate. When only one does, the size it reads from the peer's handshake message is
0, and its size check fails; what the run comes to depends on which side that is.

* `handshake_initiator_cert_only`: the initiator fails with
  "initiator remote cert size  equal 0" after it has read the response, by which time the
  receiver, which checks nothing, has returned secrets bound to the initiator's key.
* `handshake_receiver_cert_only`: the receiver fails with
  "receiver remote cert size  equal 0" before it writes its response, and the initiator is
  left waiting for a response that never comes.

In both cases every run halts in the one state given.
-/
import Rlpx.Agreement

namespace Rlpx

variable {Priv Pub : Type} {C : HsCrypto Priv Pub} [DecidableEq Pub]

/-! ## The size checks against a peer without a certificate -/

section ZeroSize

variable {cm : CertManager}

/-- An initiator holding a certificate fails its size check, without I/O, when the peer
advertises size `0`. -/
theorem initiatorCertExchange_zero (hne : cm.cert.length ≠ 0) (remote : Option Pub) :
    (initiatorCertExchange C (some cm) 0 remote).play [] =
      some (.error (.error "initiator remote cert size  equal 0")) := by
  simp [initiatorCertExchange, hne, checkCertSize, Proc.throw]

/-- A receiver holding a certificate fails its size check, without I/O, when the peer
advertises size `0`. -/
theorem receiverCertCheck_zero (hne : cm.cert.length ≠ 0) :
    (receiverCertCheck (some cm) 0).play [] =
      some (.error (.error "receiver remote cert size  equal 0")) := by
  simp [receiverCertCheck, hne, checkCertSize, Proc.throw]

end ZeroSize

/-! ## The two runs -/

/-- **A node with a certificate dials one without.** For every suite with the laws, all
keys, nonces and ephemeral keys, an initiator holding a certificate and a receiver
offering none: the run ends with the initiator failing on the size check and the
receiver holding secrets bound to the initiator's key, with nothing in flight, and no run
halts elsewhere. -/
theorem handshake_initiator_cert_only (hC : C.Laws) (prvA prvB : Priv)
    (coinsA coinsB : Coins Priv) {a : CertManager} {cmB : Option CertManager}
    (hne : a.cert.length ≠ 0) (hB : certLen cmB = 0) :
    ∃ sB, Link.Reaches (handshakeLink C (some a) cmB prvA prvB coinsA coinsB)
        ⟨.done (.error (.error "initiator remote cert size  equal 0")), .done (.ok sB), [], []⟩ ∧
      (∀ t, Link.Reaches (handshakeLink C (some a) cmB prvA prvB coinsA coinsB) t →
        Link.Halted t →
          t = ⟨.done (.error (.error "initiator remote cert size  equal 0")), .done (.ok sB), [],
            []⟩) ∧
      sB.remote = some (C.pubOf prvA) := by
  obtain ⟨e, pA, pB, -, -, -, hA, -, hBplay⟩ :=
    handshake_packets hC prvA prvB coinsA coinsB (some a) cmB
  have hzero : UInt16.ofNat (certLen cmB) = 0 := by rw [hB]; rfl
  have hA' : (initiatorEncHandshake C (some a) prvA (C.pubOf prvB) coinsA).play
      [.write pA, .read pB] = some (.error (.error "initiator remote cert size  equal 0")) := by
    rw [← List.append_nil [Event.write pA, .read pB], hA [], hzero]
    exact Proc.play_bind_error (initiatorCertExchange_zero hne _)
  have hB' := hBplay none [] (receiverCertCheck_none hB)
  rw [List.append_nil] at hB'
  have hrun := Link.reaches_of_play hA' (by simpa [Event.dual] using hB')
  exact ⟨_, hrun, fun t ht hth => Link.halted_unique ht hrun hth (Link.halted_done _ _ _ _), rfl⟩

/-- A node holding a one-byte certificate dials one without. -/
theorem handshake_initiator_cert_only_toy :
    HsCrypto.toy.Laws ∧ [(1 : UInt8)].length ≠ 0 ∧ certLen none = 0 ∧
      ∃ sB, Link.Reaches (handshakeLink HsCrypto.toy (some ⟨[1], fun _ => .ok ()⟩) none 1 2
          ⟨[], 3⟩ ⟨[], 4⟩)
          ⟨.done (.error (.error "initiator remote cert size  equal 0")), .done (.ok sB), [], []⟩ ∧
        (∀ t, Link.Reaches (handshakeLink HsCrypto.toy (some ⟨[1], fun _ => .ok ()⟩) none 1 2
            ⟨[], 3⟩ ⟨[], 4⟩) t → Link.Halted t →
          t = ⟨.done (.error (.error "initiator remote cert size  equal 0")), .done (.ok sB), [],
            []⟩) ∧
        sB.remote = some 1 :=
  ⟨HsCrypto.toy_laws, by decide, rfl,
    handshake_initiator_cert_only HsCrypto.toy_laws 1 2 ⟨[], 3⟩ ⟨[], 4⟩ (by decide) rfl⟩

/-- **A node without a certificate dials one with.** For every suite with the laws, all
keys, nonces and ephemeral keys, an initiator offering no certificate and a receiver
holding one: the run ends with the receiver failing on the size check, having read the
auth packet and written nothing, and the initiator waiting for the response, with nothing
in flight; no run halts elsewhere. -/
theorem handshake_receiver_cert_only (hC : C.Laws) (prvA prvB : Priv)
    (coinsA coinsB : Coins Priv) {cmA : Option CertManager} {b : CertManager}
    (hA : certLen cmA = 0) (hne : b.cert.length ≠ 0) :
    ∃ k, Link.Reaches (handshakeLink C cmA (some b) prvA prvB coinsA coinsB)
        ⟨.read encAuthRespLen k, .done (.error (.error "receiver remote cert size  equal 0")), [],
          []⟩ ∧
      ∀ t, Link.Reaches (handshakeLink C cmA (some b) prvA prvB coinsA coinsB) t →
        Link.Halted t →
          t = ⟨.read encAuthRespLen k,
            .done (.error (.error "receiver remote cert size  equal 0")), [], []⟩ := by
  obtain ⟨e, pA, pB, -, -, hlenB, hAplay, hBerr, -⟩ :=
    handshake_packets hC prvA prvB coinsA coinsB cmA (some b)
  have hzero : UInt16.ofNat (certLen cmA) = 0 := by rw [hA]; rfl
  have hA' := (hAplay []).trans (Proc.play_bind_end (initiatorCertExchange_none hA _))
  rw [List.append_nil] at hA'
  obtain ⟨kA, hkA, hkA'⟩ := Proc.eq_write_of_play hA'
  obtain ⟨k, hk, -⟩ := Proc.eq_read_of_play hkA'
  obtain ⟨kB, hkB, hkB'⟩ :=
    Proc.eq_read_of_play (hBerr _ (hzero ▸ receiverCertCheck_zero hne))
  have hread := Link.Step.readB (.read encAuthRespLen k) pA.length kB pA [] le_rfl
  rw [List.take_length, List.drop_length, Proc.eq_done_of_play_nil hkB'] at hread
  have hrun : Link.Reaches (handshakeLink C cmA (some b) prvA prvB coinsA coinsB)
      ⟨.read encAuthRespLen k, .done (.error (.error "receiver remote cert size  equal 0")), [],
        []⟩ := by
    rw [handshakeLink, hkA, hkB, hk, hlenB]
    exact .head (.writeA _ _ _ _ _) (.single hread)
  exact ⟨k, hrun, fun t ht hth =>
    Link.halted_unique ht hrun hth (Link.halted_read_done _ _ _ (by decide))⟩

/-- A node without a certificate dials one holding a one-byte certificate. -/
theorem handshake_receiver_cert_only_toy :
    HsCrypto.toy.Laws ∧ certLen none = 0 ∧ [(2 : UInt8)].length ≠ 0 ∧
      ∃ k, Link.Reaches (handshakeLink HsCrypto.toy none (some ⟨[2], fun _ => .ok ()⟩) 1 2
          ⟨[], 3⟩ ⟨[], 4⟩)
          ⟨.read encAuthRespLen k, .done (.error (.error "receiver remote cert size  equal 0")),
            [], []⟩ ∧
        ∀ t, Link.Reaches (handshakeLink HsCrypto.toy none (some ⟨[2], fun _ => .ok ()⟩) 1 2
            ⟨[], 3⟩ ⟨[], 4⟩) t → Link.Halted t →
          t = ⟨.read encAuthRespLen k,
            .done (.error (.error "receiver remote cert size  equal 0")), [], []⟩ :=
  ⟨HsCrypto.toy_laws, rfl, by decide,
    handshake_receiver_cert_only HsCrypto.toy_laws 1 2 ⟨[], 3⟩ ⟨[], 4⟩ rfl (by decide)⟩

end Rlpx
