/-
# Streaming and buffered frame writes

`WriteMsg` sends the frame body through a `cipher.StreamWriter` over
`io.MultiWriter(conn, egressMAC)`: `ptype`, then each chunk `io.Copy` pulls from the
payload, then the padding, each encrypted where the stream stands and absorbed as it is
produced. `writeFrameBuffered` is the buffered writer that encrypts the whole padded
body with one `XORKeyStream` call and then absorbs it in one piece, the form `ReadMsg`
undoes (`ingressMAC.Write(framebuf)`, then one `XORKeyStream` over it). The two write
the same bytes and leave the same codec, whatever the chunks (`writeFrame_buffered`).
-/
import Rlpx.Frame

namespace Rlpx

open RlpxFrameRW

variable (S : Suite)

/-- `rw.egressMAC.Write(b)`. -/
def RlpxFrameRW.egressWrite (b : Bytes) : Go RlpxFrameRW Unit := fun rw =>
  ({ rw with egressMAC := rw.egressMAC ++ b }, .ok ())

/-- The buffered frame writer: header and header MAC as in `WriteMsg`, then the padded
body encrypted in one call, absorbed by the egress MAC and written, then the frame MAC. -/
def writeFrameBuffered (fsize : UInt32) (ptype payload : Bytes) : Go RlpxFrameRW Unit := do
  let head ← encXOR S (headerPlain fsize)
  let headMAC ← egressUpdateMAC S head
  connWrite (head ++ headMAC)
  let body ← encXOR S (ptype ++ payload ++ framePadding fsize)
  egressWrite body
  connWrite body
  let fmacseed ← egressSum S
  let mac ← egressUpdateMAC S fmacseed
  connWrite mac

/-- The buffered frame writer seals the frame of the padded body. -/
theorem writeFrameBuffered_eq (fsize : UInt32) (ptype payload : Bytes) (rw : RlpxFrameRW) :
    writeFrameBuffered S fsize ptype payload rw =
      (sealFrame S rw fsize (ptype ++ payload ++ framePadding fsize), .ok ()) := by
  simp [writeFrameBuffered, encXOR, egressUpdateMAC, connWrite, egressWrite, egressSum,
    sealFrame, frameBytes, frameTranscript, Nat.add_assoc]

/-- **Streaming writes are buffered writes**: for every split of the payload into the
chunks `io.Copy` hands the tee, the streaming frame writer and the buffered one write the
same bytes and leave the same keystream position and egress transcript. -/
theorem writeFrame_buffered (fsize : UInt32) (ptype : Bytes) (cs : List Bytes) :
    writeFrame S fsize ptype cs = writeFrameBuffered S fsize ptype cs.flatten := by
  funext rw
  rw [writeFrame_eq, writeFrameBuffered_eq]

end Rlpx
