/-
# Sessions: what one codec writes, the other reads back

Two codecs are `Synced` when the reader's ingress side is the writer's egress side: the
same keys, the reader's keystream position at the writer's, and the reader's MAC
transcript equal to the writer's. The section proves that a frame written from one side
and read on the other restores `Synced` (`writeMsg_readMsg`), and from it, by induction
on the messages, the session round trip `session_roundTrip`: every message that fits a
frame comes back with its code, size and payload, in order, with the codecs still in
step.
-/
import Rlpx.Frame

namespace Rlpx

open RlpxFrameRW

variable (S : Suite)

/-! ## The session invariant -/

/-- The reader `R` is in step with the writer `W`. -/
structure Synced (W R : RlpxFrameRW) : Prop where
  aesKey : R.aesKey = W.aesKey
  macKey : R.macKey = W.macKey
  pos : R.dec = W.enc
  transcript : R.ingressMAC = W.egressMAC
  snappy : R.snappy = W.snappy

/-- A message that fits a frame when sent with the snappy flag `snappy`: its size is its
payload's length, the encoded code and the framed payload (compressed when snappy is
on) stay below `2 ^ 24` bytes, and with snappy on the declared size does too. -/
structure Sendable (snappy : Bool) (m : Msg) : Prop where
  size_eq : m.size.toNat = m.payload.flatten.length
  fits : (Rlp.encodeUint m.code).length + (framedMsg S snappy m).payload.flatten.length ≤
    2 ^ 24 - 1
  snappy_size : snappy = true → m.size.toNat ≤ 2 ^ 24 - 1

/-- The message as `readMsg` hands it back: the same code and size, the payload in one
chunk. -/
def Msg.gathered (m : Msg) : Msg := { m with payload := [m.payload.flatten] }

/-! ## One frame -/

variable {S}

/-- Being in step does not depend on the reader's input. -/
theorem Synced.withInp {W R : RlpxFrameRW} (h : Synced W R) (inp : Bytes) :
    Synced W { R with inp := inp } :=
  ⟨h.aesKey, h.macKey, h.pos, h.transcript, h.snappy⟩

/-- Two fresh codecs are in step when the reader's secrets pair with the writer's: the
same keys, and the reader's ingress seed the writer's egress seed. -/
theorem newRLPXFrameRW_synced {Pub : Type} {s s' : Secrets Pub} {W R : RlpxFrameRW}
    (hW : newRLPXFrameRW s = .ok W) (hR : newRLPXFrameRW s' = .ok R) (haes : s'.aes = s.aes)
    (hmac : s'.mac = s.mac) (hseed : s'.ingressMAC = s.egressMAC) : Synced W R := by
  unfold newRLPXFrameRW at hW hR
  split_ifs at hW hR
  cases hW; cases hR
  exact ⟨haes, hmac, rfl, hseed, rfl⟩

/-- The framed message's size field is its payload length. -/
theorem toNat_framedMsg_size {snappy : Bool} {m : Msg} (hm : Sendable S snappy m) :
    (framedMsg S snappy m).size.toNat = (framedMsg S snappy m).payload.flatten.length := by
  have := hm.fits
  cases snappy
  · simpa [framedMsg] using hm.size_eq
  · simp only [framedMsg, if_true, List.flatten_cons, List.flatten_nil, List.append_nil,
      UInt32.toNat_ofNat_mod] at this ⊢
    omega

/-- Framing keeps the message code. -/
theorem framedMsg_code (snappy : Bool) (m : Msg) : (framedMsg S snappy m).code = m.code := by
  cases snappy <;> rfl

/-- The body plaintext up to the frame size is the code and the framed payload. -/
theorem framePlain_take {m : Msg}
    (h : (frameSize m).toNat = (Rlp.encodeUint m.code).length + m.payload.flatten.length) :
    (framePlain m).take (frameSize m).toNat = Rlp.encodeUint m.code ++ m.payload.flatten := by
  rw [framePlain, List.take_left' (by rw [List.length_append, h])]

/-- The reader decodes the framed message back to the message, gathered. -/
theorem decodeContent_framed {snappy : Bool} {m : Msg} (hm : Sendable S snappy m) :
    decodeContent S snappy (Rlp.encodeUint m.code ++ (framedMsg S snappy m).payload.flatten) =
      .ok m.gathered := by
  have hsz : UInt32.ofNat m.payload.flatten.length = m.size := by
    rw [← hm.size_eq, UInt32.ofNat_toNat_eq]
  cases snappy
  · simp [decodeContent, framedMsg, Rlp.decodeUint_encodeUint, Msg.gathered, ← hsz]
  · have hle := hm.snappy_size rfl
    have : ¬ maxUint24.toNat < m.payload.flatten.length := by rw [← hm.size_eq]; exact hle.not_lt
    simp only [decodeContent, framedMsg, if_true, Rlp.decodeUint_encodeUint,
      S.snappyDecodedLen_encode, S.snappyDecode_encode, List.flatten_cons, List.flatten_nil,
      List.append_nil, if_neg this, hsz]
    rfl

/-- **One frame**: a sendable message written by `W` comes back, gathered, from a reader in
step with it fed the written bytes and then anything; the reader consumes exactly the
frame, and the two stay in step. -/
theorem writeMsg_readMsg {W R : RlpxFrameRW} {m : Msg} (hs : Synced W R)
    (hm : Sendable S W.snappy m) :
    ∃ f W' R', writeMsg S m W = (W', .ok ()) ∧ W'.out = W.out ++ f ∧ Synced W' R' ∧
      W'.snappy = W.snappy ∧
      ∀ rest, readMsg S { R with inp := f ++ rest } = ({ R' with inp := rest }, .ok m.gathered) := by
  have hfits := hm.fits
  have hsz := toNat_framedMsg_size hm
  have hcode := framedMsg_code (S := S) W.snappy m
  have hfs := @toNat_frameSize (framedMsg S W.snappy m) (by rw [hcode]; omega)
  rw [hsz] at hfs
  have hpre : ¬ (W.snappy = true ∧ maxUint24 < m.size) := fun h =>
    absurd (hm.snappy_size h.1) (by rw [maxUint24_lt_iff] at h; omega)
  have hlen : (framePlain (framedMsg S W.snappy m)).length =
      (roundUp16 (frameSize (framedMsg S W.snappy m))).toNat := by
    rw [toNat_roundUp16 (by rw [hfs, hcode]; omega), framePlain, List.length_append,
      List.length_append, length_framePadding, hfs]
  refine ⟨frameBytes S W (frameSize (framedMsg S W.snappy m)) (framePlain (framedMsg S W.snappy m)),
    sealFrame S W (frameSize (framedMsg S W.snappy m)) (framePlain (framedMsg S W.snappy m)),
    { R with dec := R.dec + 16 + (framePlain (framedMsg S W.snappy m)).length,
             ingressMAC := frameTranscript S W (frameSize (framedMsg S W.snappy m))
               (framePlain (framedMsg S W.snappy m)) },
    ?_, rfl, ?_, rfl, fun rest => ?_⟩
  · rw [writeMsg_eq, if_neg hpre, if_neg (by rw [maxUint24_lt_iff, hfs, hcode]; omega)]
  · exact ⟨hs.aesKey, hs.macKey, by simp [sealFrame, hs.pos], by simp [sealFrame], hs.snappy⟩
  · rw [readMsg_frameBytes S W R _ _ rest hs.aesKey hs.macKey hs.pos hs.transcript
      (by rw [hfs, hcode]; omega) hlen, framePlain_take hfs, hcode]
    simp only [hs.snappy, decodeContent_framed hm]

/-! ## Whole sessions -/

variable (S)

/-- Successive `writeMsg` calls, stopping at the first failure. -/
def writeMsgs : List Msg → Go RlpxFrameRW Unit
  | [] => pure ()
  | m :: ms => do writeMsg S m; writeMsgs ms

/-- `n` successive `readMsg` calls, stopping at the first failure. -/
def readMsgs : Nat → Go RlpxFrameRW (List Msg)
  | 0 => pure []
  | n + 1 => do
    let m ← readMsg S
    let ms ← readMsgs n
    pure (m :: ms)

variable {S}

/-- **Session round trip.** A writer sends any list of sendable messages; a reader in step
with it reads as many messages from the bytes written, followed by anything. Every write
succeeds, every read succeeds and returns the matching message, in order, the reader
consumes exactly the written bytes, and the two codecs end in step. -/
theorem session_roundTrip {W R : RlpxFrameRW} (hs : Synced W R) (ms : List Msg)
    (hms : ∀ m ∈ ms, Sendable S W.snappy m) (rest : Bytes) :
    ∃ frames W' R', writeMsgs S ms W = (W', .ok ()) ∧ W'.out = W.out ++ frames ∧
      readMsgs S ms.length { R with inp := frames ++ rest } = (R', .ok (ms.map Msg.gathered)) ∧
      Synced W' R' ∧ R'.inp = rest := by
  induction ms generalizing W R with
  | nil => exact ⟨[], W, { R with inp := rest }, rfl, by simp, rfl, hs.withInp rest, rfl⟩
  | cons m ms ih =>
    obtain ⟨f, W₁, R₁, hw, hout, hs₁, hsn, hr⟩ := writeMsg_readMsg hs (hms m (.head _))
    obtain ⟨frames, W', R', hw', hout', hr', hs', hinp'⟩ :=
      ih hs₁ (fun m' h => hsn ▸ hms m' (.tail _ h))
    refine ⟨f ++ frames, W', R', ?_, by rw [hout', hout, List.append_assoc], ?_, hs', hinp'⟩
    · simp [writeMsgs, hw, hw']
    · simp [readMsgs, hr, hr']

/-- One two-chunk message through the suite without encryption. -/
theorem session_roundTrip_clear :
    let W : RlpxFrameRW :=
      { aesKey := List.replicate 16 0, macKey := List.replicate 16 0, enc := 0, dec := 0,
        egressMAC := [], ingressMAC := [], snappy := false, out := [], inp := [] }
    let ms : List Msg := [{ code := 16, size := 2, payload := [[1], [2]] }]
    Synced W W ∧ (∀ m ∈ ms, Sendable Suite.clear W.snappy m) ∧
    ∃ frames W' R', writeMsgs Suite.clear ms W = (W', .ok ()) ∧ W'.out = W.out ++ frames ∧
      readMsgs Suite.clear ms.length { W with inp := frames ++ [] } =
        (R', .ok (ms.map Msg.gathered)) ∧ Synced W' R' ∧ R'.inp = [] :=
  have hs := ⟨rfl, rfl, rfl, rfl, rfl⟩
  have hms := by simp only [List.mem_singleton, forall_eq]; exact ⟨by decide, by decide, by decide⟩
  ⟨hs, hms, session_roundTrip hs _ hms []⟩

end Rlpx
