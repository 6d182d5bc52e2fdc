/-
# The RLPx frame codec

`rlpxFrameRW` of `rlpx.go`: the codec that carries messages over an established
connection. Each message goes out as one frame:

* a 16-byte header (the 24-bit frame size, `zeroHeader`, zero filler) encrypted with the
  egress stream, then its 16-byte MAC;
* the body `ptype ‖ payload ‖ zero padding` to a 16-byte boundary, encrypted with the
  egress stream and absorbed by the egress MAC as it is written;
* the 16-byte frame MAC.

The state is the Go struct with its `conn` split into the bytes written (`out`) and the
bytes not yet read (`inp`); the two CTR streams are positions in the keystream of the
session's AES key, and the MAC hashes are the transcripts they have absorbed. `writeMsg`
and `readMsg` are the Go methods, statement by statement, in the `Go` monad, so a failed
call keeps what it had already changed.
-/
import Rlpx.Suite

namespace Rlpx

/-! ## Messages, secrets and the codec state -/

/-- `Msg`: a message code, its declared size, and the chunks its `io.Reader` payload
yields (a `bytes.Reader` yields all its bytes in one chunk). -/
structure Msg where
  code : UInt64
  size : UInt32
  payload : List Bytes
  deriving DecidableEq, Repr

/-- `secrets`: what the encryption handshake negotiates. -/
structure Secrets (Pub : Type) where
  remote : Pub
  aes : Bytes
  mac : Bytes
  egressMAC : Bytes
  ingressMAC : Bytes
  deriving DecidableEq, Repr

/-- `rlpxFrameRW`: the AES key of both CTR streams and their keystream positions, the key
of the MAC block cipher, the transcripts the two MAC hashes have absorbed, the snappy
flag, and the connection's written and unread bytes. -/
structure RlpxFrameRW where
  aesKey : Bytes
  macKey : Bytes
  enc : Nat
  dec : Nat
  egressMAC : Bytes
  ingressMAC : Bytes
  snappy : Bool
  out : Bytes
  inp : Bytes
  deriving DecidableEq, Repr

/-- `newRLPXFrameRW`: both CTR streams start at the beginning of the keystream of
`s.aes` (the all-zero IV); `aes.NewCipher` rejects a key of the wrong length, and the
constructor panics then. -/
def newRLPXFrameRW {Pub : Type} (s : Secrets Pub) : Except Fault RlpxFrameRW :=
  if ¬ aesKeyOk s.mac then .error (.panic "invalid MAC secret: crypto/aes: invalid key size")
  else if ¬ aesKeyOk s.aes then .error (.panic "invalid AES secret: crypto/aes: invalid key size")
  else .ok { aesKey := s.aes, macKey := s.mac, enc := 0, dec := 0, egressMAC := s.egressMAC,
             ingressMAC := s.ingressMAC, snappy := false, out := [], inp := [] }

/-- `zeroHeader`, written after the frame size in every header. -/
def zeroHeader : Bytes := [0xC2, 0x80, 0x80]

/-- `errPlainMessageTooLarge`. -/
def errPlainMessageTooLarge : Fault := .error "message length >= 16MB"

/-! ## The MAC -/

variable (S : Suite)

/-- `updateMAC`: encrypt the first block of the current digest, xor the seed into it,
absorb the result and return the first 16 bytes of the new digest. The hash is given as
its transcript and comes back extended; every caller passes a seed of at least 16 bytes. -/
def updateMAC (macKey seed mac : Bytes) : Bytes × Bytes :=
  let aesbuf := xorBytes (S.encryptBlock macKey (S.sum mac)) seed
  (mac ++ aesbuf, (S.sum (mac ++ aesbuf)).take 16)

/-! ## The codec's steps -/

namespace RlpxFrameRW

/-- The field `rw.snappy`. -/
def snappyFlag : Go RlpxFrameRW Bool := fun rw => (rw, .ok rw.snappy)

/-- `rw.enc.XORKeyStream(b, b)`. -/
def encXOR (b : Bytes) : Go RlpxFrameRW Bytes := fun rw =>
  ({ rw with enc := rw.enc + b.length }, .ok (xorKeyStream S rw.aesKey rw.enc b))

/-- `rw.dec.XORKeyStream(b, b)`. -/
def decXOR (b : Bytes) : Go RlpxFrameRW Bytes := fun rw =>
  ({ rw with dec := rw.dec + b.length }, .ok (xorKeyStream S rw.aesKey rw.dec b))

/-- `updateMAC(rw.egressMAC, rw.macCipher, seed)`. -/
def egressUpdateMAC (seed : Bytes) : Go RlpxFrameRW Bytes := fun rw =>
  ({ rw with egressMAC := (updateMAC S rw.macKey seed rw.egressMAC).1 },
    .ok (updateMAC S rw.macKey seed rw.egressMAC).2)

/-- `updateMAC(rw.ingressMAC, rw.macCipher, seed)`. -/
def ingressUpdateMAC (seed : Bytes) : Go RlpxFrameRW Bytes := fun rw =>
  ({ rw with ingressMAC := (updateMAC S rw.macKey seed rw.ingressMAC).1 },
    .ok (updateMAC S rw.macKey seed rw.ingressMAC).2)

/-- `rw.egressMAC.Sum(nil)`. -/
def egressSum : Go RlpxFrameRW Bytes := fun rw => (rw, .ok (S.sum rw.egressMAC))

/-- `rw.ingressMAC.Sum(nil)`. -/
def ingressSum : Go RlpxFrameRW Bytes := fun rw => (rw, .ok (S.sum rw.ingressMAC))

/-- `rw.ingressMAC.Write(b)`. -/
def ingressWrite (b : Bytes) : Go RlpxFrameRW Unit := fun rw =>
  ({ rw with ingressMAC := rw.ingressMAC ++ b }, .ok ())

/-- `rw.conn.Write(b)`. -/
def connWrite (b : Bytes) : Go RlpxFrameRW Unit := fun rw => ({ rw with out := rw.out ++ b }, .ok ())

/-- `io.ReadFull(rw.conn, buf)` with a buffer of `n` bytes. -/
def connReadFull (n : Nat) : Go RlpxFrameRW Bytes := fun rw =>
  ({ rw with inp := (readFull rw.inp n).1 }, (readFull rw.inp n).2)

/-- `tee.Write(p)` of the `cipher.StreamWriter` over `io.MultiWriter(rw.conn, rw.egressMAC)`:
encrypt `p` with the egress stream, write the ciphertext to the connection and to the
egress MAC. -/
def teeWrite (p : Bytes) : Go RlpxFrameRW Unit := fun rw =>
  let c := xorKeyStream S rw.aesKey rw.enc p
  ({ rw with enc := rw.enc + p.length, out := rw.out ++ c, egressMAC := rw.egressMAC ++ c },
    .ok ())

/-- `io.Copy(tee, msg.Payload)`: one `tee.Write` per chunk the payload reader yields. -/
def teeCopy : List Bytes → Go RlpxFrameRW Unit
  | [] => pure ()
  | c :: cs => do teeWrite S c; teeCopy cs

end RlpxFrameRW

open RlpxFrameRW

/-! ## Writing and reading a message -/

/-- The plaintext header block: the 24-bit frame size, `zeroHeader`, zero filler. -/
def headerPlain (fsize : UInt32) : Bytes := putInt24 fsize ++ zeroHeader ++ List.replicate 10 0

/-- The second half of `rlpxFrameRW.WriteMsg`, from `headbuf := make([]byte, 32)` on:
the encrypted header and its MAC, the body through the tee with its padding, the frame
MAC. -/
def writeFrame (fsize : UInt32) (ptype : Bytes) (payload : List Bytes) :
    Go RlpxFrameRW Unit := do
  let head ← encXOR S (headerPlain fsize)
  let headMAC ← egressUpdateMAC S head
  connWrite (head ++ headMAC)
  teeWrite S ptype
  teeCopy S payload
  if 0 < fsize % 16 then teeWrite S (List.replicate (16 - fsize % 16).toNat 0)
  let fmacseed ← egressSum S
  let mac ← egressUpdateMAC S fmacseed
  connWrite mac

/-- `rlpxFrameRW.WriteMsg`. -/
def writeMsg (msg : Msg) : Go RlpxFrameRW Unit := do
  let ptype := Rlp.encodeUint msg.code
  let snappy ← snappyFlag
  let msg ← if snappy then do
      if msg.size > maxUint24 then Go.throw errPlainMessageTooLarge
      let payload := S.snappyEncode msg.payload.flatten
      pure { msg with payload := [payload], size := UInt32.ofNat payload.length }
    else pure msg
  let fsize := UInt32.ofNat ptype.length + msg.size
  if fsize > maxUint24 then Go.throw (.error "message size overflows uint24")
  writeFrame S fsize ptype msg.payload

/-- The frame size rounded up to a 16-byte boundary. -/
def roundUp16 (fsize : UInt32) : UInt32 :=
  if 0 < fsize % 16 then fsize + (16 - fsize % 16) else fsize

/-- The message `readMsg` returns for the decrypted frame content up to `fsize`: the
code, then the rest as the payload, decompressed when snappy is on. -/
def decodeContent (snappy : Bool) (content : Bytes) : Except Fault Msg :=
  match Rlp.decodeUint content with
  | .error e => .error e
  | .ok (code, rest) =>
    if snappy then
      match S.snappyDecodedLen rest with
      | .error e => .error e
      | .ok size =>
        if maxUint24.toNat < size then .error errPlainMessageTooLarge
        else match S.snappyDecode rest with
          | .error e => .error e
          | .ok payload => .ok { code := code, size := UInt32.ofNat size, payload := [payload] }
    else .ok { code := code, size := UInt32.ofNat rest.length, payload := [rest] }

/-- `rlpxFrameRW.ReadMsg`. -/
def readMsg : Go RlpxFrameRW Msg := do
  let headbuf ← connReadFull 32
  let shouldMAC ← ingressUpdateMAC S (headbuf.take 16)
  if shouldMAC ≠ headbuf.drop 16 then Go.throw (.error "bad header MAC")
  let head ← decXOR S (headbuf.take 16)
  let fsize := readInt24 head
  let framebuf ← connReadFull (roundUp16 fsize).toNat
  ingressWrite framebuf
  let fmacseed ← ingressSum S
  let frameMAC ← connReadFull 16
  let shouldMAC ← ingressUpdateMAC S fmacseed
  if shouldMAC ≠ frameMAC then Go.throw (.error "bad frame MAC")
  let content ← decXOR S framebuf
  let snappy ← snappyFlag
  Go.lift (decodeContent S snappy (content.take fsize.toNat))

/-! ## What `writeMsg` does -/

/-- The zero padding after a body of `fsize` bytes, `zero16[:16-padding]`. -/
def framePadding (fsize : UInt32) : Bytes :=
  if 0 < fsize % 16 then List.replicate (16 - fsize % 16).toNat 0 else []

/-- The message `writeMsg` puts in the frame: with snappy on, its payload compressed. -/
def framedMsg (snappy : Bool) (msg : Msg) : Msg :=
  if snappy then
    { msg with payload := [S.snappyEncode msg.payload.flatten],
               size := UInt32.ofNat (S.snappyEncode msg.payload.flatten).length }
  else msg

/-- The frame size field, `uint32(len(ptype)) + msg.Size` in 32-bit arithmetic. -/
def frameSize (msg : Msg) : UInt32 := UInt32.ofNat (Rlp.encodeUint msg.code).length + msg.size

/-- The body plaintext of a frame: `ptype`, the payload, the padding. -/
def framePlain (msg : Msg) : Bytes :=
  Rlp.encodeUint msg.code ++ msg.payload.flatten ++ framePadding (frameSize msg)

/-- The bytes of a frame sealed from the state `rw`: encrypted header, header MAC,
encrypted body, frame MAC. -/
def frameBytes (rw : RlpxFrameRW) (fsize : UInt32) (plain : Bytes) : Bytes :=
  let head := xorKeyStream S rw.aesKey rw.enc (headerPlain fsize)
  let mac1 := updateMAC S rw.macKey head rw.egressMAC
  let body := xorKeyStream S rw.aesKey (rw.enc + 16) plain
  head ++ mac1.2 ++ body ++ (updateMAC S rw.macKey (S.sum (mac1.1 ++ body)) (mac1.1 ++ body)).2

/-- The egress transcript after sealing a frame from the state `rw`. -/
def frameTranscript (rw : RlpxFrameRW) (fsize : UInt32) (plain : Bytes) : Bytes :=
  let mac1 := updateMAC S rw.macKey (xorKeyStream S rw.aesKey rw.enc (headerPlain fsize))
    rw.egressMAC
  let body := xorKeyStream S rw.aesKey (rw.enc + 16) plain
  (updateMAC S rw.macKey (S.sum (mac1.1 ++ body)) (mac1.1 ++ body)).1

/-- The codec after sealing a frame of size field `fsize` and body plaintext `plain`. -/
def sealFrame (rw : RlpxFrameRW) (fsize : UInt32) (plain : Bytes) : RlpxFrameRW :=
  { rw with enc := rw.enc + 16 + plain.length,
            egressMAC := frameTranscript S rw fsize plain,
            out := rw.out ++ frameBytes S rw fsize plain }

/-- The header plaintext is one 16-byte block. -/
@[simp] theorem length_headerPlain (fsize : UInt32) : (headerPlain fsize).length = 16 := rfl

/-- Two writes through the tee are one write of both. -/
theorem teeWrite_teeWrite (a b : Bytes) :
    (teeWrite S a >>= fun _ => teeWrite S b) = teeWrite S (a ++ b) := by
  funext rw
  simp [teeWrite, xorKeyStream_append, Nat.add_assoc]

/-- **`io.Copy` through the tee is one buffered write** of the whole payload. -/
theorem teeCopy_eq (cs : List Bytes) : teeCopy S cs = teeWrite S cs.flatten := by
  induction cs with
  | nil => funext rw; simp [teeCopy, teeWrite, xorKeyStream]
  | cons c cs ih =>
    rw [teeCopy, ih, teeWrite_teeWrite, List.flatten_cons]

/-- **`writeFrame` seals one frame**: whatever chunks the payload comes in, the body is
written as if encrypted and absorbed in one piece. -/
theorem writeFrame_eq (fsize : UInt32) (ptype : Bytes) (cs : List Bytes) (rw : RlpxFrameRW) :
    writeFrame S fsize ptype cs rw =
      (sealFrame S rw fsize (ptype ++ cs.flatten ++ framePadding fsize), .ok ()) := by
  by_cases hp : 0 < fsize % 16
  · simp [writeFrame, hp, encXOR, egressUpdateMAC, connWrite, teeWrite, teeCopy_eq, egressSum,
      sealFrame, frameBytes, frameTranscript, framePadding, xorKeyStream_append, Nat.add_assoc]
  · simp [writeFrame, hp, encXOR, egressUpdateMAC, connWrite, teeWrite, teeCopy_eq, egressSum,
      sealFrame, frameBytes, frameTranscript, framePadding, xorKeyStream_append, Nat.add_assoc]

/-- **What `writeMsg` does**: it fails without touching the codec when the declared size
is too large for snappy or the 32-bit frame size exceeds `maxUint24`, and otherwise
seals one frame of the message as framed (compressed when snappy is on). -/
theorem writeMsg_eq (msg : Msg) (rw : RlpxFrameRW) :
    writeMsg S msg rw =
      if rw.snappy ∧ maxUint24 < msg.size then (rw, .error errPlainMessageTooLarge)
      else if maxUint24 < frameSize (framedMsg S rw.snappy msg) then
        (rw, .error (.error "message size overflows uint24"))
      else (sealFrame S rw (frameSize (framedMsg S rw.snappy msg))
        (framePlain (framedMsg S rw.snappy msg)), .ok ()) := by
  cases hs : rw.snappy
  · by_cases hf : maxUint24 < frameSize msg
    · simp only [frameSize] at hf
      simp [writeMsg, snappyFlag, hs, hf, framedMsg, frameSize]
    · simp only [frameSize] at hf
      simp [writeMsg, snappyFlag, hs, hf, writeFrame_eq, framedMsg, frameSize, framePlain]
  · by_cases hsz : maxUint24 < msg.size
    · simp [writeMsg, snappyFlag, hs, hsz]
    · by_cases hf : maxUint24 < frameSize (framedMsg S true msg)
      · simp only [framedMsg, frameSize, if_true] at hf
        simp [writeMsg, snappyFlag, hs, hsz, hf, framedMsg, frameSize]
      · simp only [framedMsg, frameSize, if_true] at hf
        simp [writeMsg, snappyFlag, hs, hsz, hf, writeFrame_eq, framedMsg, frameSize, framePlain]

/-! ## What `readMsg` does with a frame -/

/-- `updateMAC` returns 16 bytes. -/
@[simp] theorem length_updateMAC_tag (macKey seed mac : Bytes) :
    (updateMAC S macKey seed mac).2.length = 16 := by
  simp [updateMAC]

/-- `io.ReadFull` of the length of two blocks reads both. -/
theorem readFull_append_append {a b rest : Bytes} {n : Nat} (h : a.length + b.length = n) :
    readFull (a ++ (b ++ rest)) n = (rest, .ok (a ++ b)) := by
  rw [← List.append_assoc]; exact readFull_append (by simpa using h)

/-- **`readMsg` opens a frame sealed from a matching state**: a reader whose keys,
ingress position and ingress transcript are those of the writer's egress side, fed the
frame and then anything, consumes exactly the frame, ends with the writer's transcript
and position, and decodes the body plaintext up to the frame size. -/
theorem readMsg_frameBytes (W R : RlpxFrameRW) (fsize : UInt32) (plain rest : Bytes)
    (hkey : R.aesKey = W.aesKey) (hmac : R.macKey = W.macKey) (hpos : R.dec = W.enc)
    (htr : R.ingressMAC = W.egressMAC)
    (hfs : fsize.toNat < 2 ^ 24) (hlen : plain.length = (roundUp16 fsize).toNat) :
    readMsg S { R with inp := frameBytes S W fsize plain ++ rest } =
      ({ R with dec := R.dec + 16 + plain.length,
                ingressMAC := frameTranscript S W fsize plain, inp := rest },
       decodeContent S R.snappy (plain.take fsize.toNat)) := by
  have hh : readInt24 (headerPlain fsize) = fsize := by
    rw [headerPlain, List.append_assoc]; exact readInt24_putInt24 hfs _
  simp [readMsg, connReadFull, frameBytes, readFull_append, readFull_append_append,
    ingressUpdateMAC, decXOR, ingressWrite, ingressSum, snappyFlag, hkey, hmac, hpos, htr, hh, hlen,
    frameTranscript]

/-! ## Frame-size arithmetic -/

/-- A size exceeds `maxUint24` when its value does. -/
theorem maxUint24_lt_iff (x : UInt32) : maxUint24 < x ↔ 2 ^ 24 - 1 < x.toNat := Iff.rfl

/-- Below `2 ^ 32` the frame size field does not wrap. -/
theorem toNat_frameSize {msg : Msg}
    (h : (Rlp.encodeUint msg.code).length + msg.size.toNat < 2 ^ 32) :
    (frameSize msg).toNat = (Rlp.encodeUint msg.code).length + msg.size.toNat := by
  simp only [frameSize, UInt32.toNat_add, UInt32.toNat_ofNat_mod, UInt32.size]
  omega

/-- Below `2 ^ 24` the frame size rounds up to a multiple of 16 without wrapping. -/
theorem toNat_roundUp16 {fsize : UInt32} (h : fsize.toNat < 2 ^ 24) :
    (roundUp16 fsize).toNat =
      fsize.toNat + (if 0 < fsize.toNat % 16 then 16 - fsize.toNat % 16 else 0) := by
  have hm : (fsize % 16).toNat = fsize.toNat % 16 := UInt32.toNat_mod _ _
  have hlt : fsize.toNat % 16 < 16 := Nat.mod_lt _ (by norm_num)
  unfold roundUp16
  split_ifs with h1 h2 h2
  · rw [UInt32.toNat_add, UInt32.toNat_sub_of_le _ _ (by
      rw [UInt32.le_def, BitVec.le_def]; show (fsize % 16).toNat ≤ 16; omega), hm]
    simp only [UInt32.toNat_ofNat, UInt32.size]; omega
  · exact absurd (by rw [UInt32.lt_iff_toNat_lt, hm] at h1; simpa using h1) h2
  · exact absurd (by rw [UInt32.lt_iff_toNat_lt, hm]; simpa using h2) h1
  · simp

/-- The padding fills the last block of the frame. -/
theorem length_framePadding {fsize : UInt32} :
    (framePadding fsize).length =
      if 0 < fsize.toNat % 16 then 16 - fsize.toNat % 16 else 0 := by
  have hm : (fsize % 16).toNat = fsize.toNat % 16 := UInt32.toNat_mod _ _
  have hlt : fsize.toNat % 16 < 16 := Nat.mod_lt _ (by norm_num)
  unfold framePadding
  split_ifs with h1 h2 h2
  · rw [List.length_replicate, UInt32.toNat_sub_of_le _ _ (by
      rw [UInt32.le_def, BitVec.le_def]; show (fsize % 16).toNat ≤ 16; omega), hm]
    simp [UInt32.size]
  · exact absurd (by rw [UInt32.lt_iff_toNat_lt, hm] at h1; simpa using h1) h2
  · exact absurd (by rw [UInt32.lt_iff_toNat_lt, hm]; simpa using h2) h1
  · rfl

/-! ## The frame-size check -/

/-- **The size check wraps.** A plain message with code `0` and a payload of `2 ^ 32 - 1`
bytes, its `Size`, is `2 ^ 32` bytes of frame content, far over `2 ^ 24 - 1`; but the
32-bit sum `len(ptype) + msg.Size` wraps to `0`, the check passes, and `writeMsg` seals
and writes the whole frame with the size field `0` in its header. -/
theorem writeMsg_frameSize_wraps (rw : RlpxFrameRW) :
    let msg : Msg := { code := 0, size := 0xFFFFFFFF, payload := [List.replicate 0xFFFFFFFF 0] }
    msg.size.toNat = msg.payload.flatten.length ∧
      2 ^ 24 - 1 < (Rlp.encodeUint msg.code).length + msg.payload.flatten.length ∧
      writeMsg S msg { rw with snappy := false } =
        (sealFrame S { rw with snappy := false } 0 (Rlp.encodeUint msg.code ++ msg.payload.flatten),
          .ok ()) := by
  intro msg
  have hsize : frameSize msg = 0 := by
    show UInt32.ofNat (Rlp.encodeUint 0).length + 0xFFFFFFFF = 0
    decide
  have hlen : msg.payload.flatten.length = 0xFFFFFFFF := by
    simp only [msg, List.flatten_cons, List.flatten_nil, List.append_nil, List.length_replicate]
  refine ⟨by rw [hlen]; rfl, by rw [hlen]; decide, ?_⟩
  rw [writeMsg_eq]
  have hfits : ¬ maxUint24 < 0 := by decide
  have hpad : framePadding 0 = [] := rfl
  simp only [framedMsg, hsize, hfits, framePlain, hpad, List.append_nil, if_false,
    Bool.false_eq_true, false_and]

end Rlpx
