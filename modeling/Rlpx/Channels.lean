/-
# A connection's two codecs as two message channels

Each node of a connection holds an `rlpxFrameRW`, and what one writes arrives behind the
bytes the other has not read. Taken together, the two codecs implement two FIFO queues of
messages, one each way (`Queues`). A `WriteMsg` of a sendable message enqueues it, and a
`ReadMsg` returns the oldest message in flight to its node, gathered into one chunk, or
fails when there is none. `Duplex.run_refines` proves that every interleaving of the four
calls, on both nodes and in both directions, returns what the queues return, and
`handshake_channels` starts it from the codecs the handshake sets up.

The invariant (`Flow`) says what is in flight one way: the reader's unread bytes are the
frames of the queued messages, sealed from where the reader stands, and sealing them
brings a writer to where the sending codec stands. A write and a read touch different
sides of a codec (`Rlpx.Disjoint`), so each call leaves the other direction's invariant
alone.
-/
import Rlpx.Agreement
import Rlpx.Disjoint

namespace Rlpx

open RlpxFrameRW

variable {S : Suite}

/-! ## Sealing reads the egress side only -/

/-- What sealing a frame reads: the keys, the egress keystream position and the egress
transcript. -/
def RlpxFrameRW.egressKey (rw : RlpxFrameRW) : Bytes × Bytes × Bool × Nat × Bytes :=
  (rw.aesKey, rw.macKey, rw.snappy, rw.enc, rw.egressMAC)

/-- The writer a reader is in step with before it has written anything: the reader's
ingress position and transcript taken as egress ones, and no bytes either way. -/
def RlpxFrameRW.mirror (r : RlpxFrameRW) : RlpxFrameRW :=
  { r with enc := r.dec, egressMAC := r.ingressMAC, out := [], inp := [] }

/-- A reader is in step with a writer exactly when its mirror has the writer's egress side. -/
theorem synced_iff {W R : RlpxFrameRW} : Synced W R ↔ R.mirror.egressKey = W.egressKey := by
  simp only [egressKey, mirror, Prod.mk.injEq]
  exact ⟨fun h => ⟨h.aesKey, h.macKey, h.snappy, h.pos, h.transcript⟩,
    fun ⟨ha, hm, hs, hp, ht⟩ => ⟨ha, hm, hp, ht, hs⟩⟩

/-- A reader is in step with its mirror. -/
theorem synced_mirror (r : RlpxFrameRW) : Synced r.mirror r := ⟨rfl, rfl, rfl, rfl, rfl⟩

/-- A write leaves the ingress side alone, so the writer as a reader is unchanged. -/
@[simp] theorem mirror_writeMsg (m : Msg) (rw : RlpxFrameRW) :
    (writeMsg S m rw).1.mirror = rw.mirror := by
  rw [← (writeMsg_confined S m).frame rw]; rfl

/-- A read leaves the egress side alone. -/
@[simp] theorem egressKey_readMsg (rw : RlpxFrameRW) : (readMsg S rw).1.egressKey = rw.egressKey := by
  rw [← (readMsg_confined S).frame rw]; rfl

/-- Two writers that agree on what sealing reads write the same frame, fail alike, and
end agreeing again. -/
theorem writeMsg_congr {x y : RlpxFrameRW} (h : x.egressKey = y.egressKey) (m : Msg) :
    (writeMsg S m x).2 = (writeMsg S m y).2 ∧
      (writeMsg S m x).1.egressKey = (writeMsg S m y).1.egressKey ∧
      ∃ f, (writeMsg S m x).1.out = x.out ++ f ∧ (writeMsg S m y).1.out = y.out ++ f := by
  have h' := h
  simp only [egressKey, Prod.mk.injEq] at h'
  obtain ⟨ha, hm, hs, he, ht⟩ := h'
  rw [writeMsg_eq, writeMsg_eq, hs]
  split_ifs
  · exact ⟨rfl, h, [], by simp, by simp⟩
  · exact ⟨rfl, h, [], by simp, by simp⟩
  · refine ⟨rfl, ?_, _, rfl, ?_⟩
    · simp [egressKey, sealFrame, frameTranscript, ha, hm, hs, he, ht]
    · simp [sealFrame, frameBytes, ha, hm, he, ht]

/-- Writers with one egress side write the same bytes and return the same results, and end
with one egress side. -/
theorem writeMsgs_congr {x y : RlpxFrameRW} (h : x.egressKey = y.egressKey) (q : List Msg) :
    (writeMsgs S q x).2 = (writeMsgs S q y).2 ∧
      (writeMsgs S q x).1.egressKey = (writeMsgs S q y).1.egressKey ∧
      ∃ f, (writeMsgs S q x).1.out = x.out ++ f ∧ (writeMsgs S q y).1.out = y.out ++ f := by
  induction q generalizing x y with
  | nil => exact ⟨rfl, h, [], by simp [writeMsgs], by simp [writeMsgs]⟩
  | cons m q ih =>
    obtain ⟨hr, hk, f, hfx, hfy⟩ := writeMsg_congr (S := S) h m
    simp only [writeMsgs, Go.bind_apply]
    rcases hx : writeMsg S m x with ⟨x₁, _ | ⟨⟩⟩ <;> rcases hy : writeMsg S m y with ⟨y₁, _ | ⟨⟩⟩ <;>
      rw [hx, hy] at hr hk <;> rw [hx] at hfx <;> rw [hy] at hfy <;> cases hr
    · exact ⟨rfl, hk, f, hfx, hfy⟩
    · obtain ⟨hr', hk', g, hgx, hgy⟩ := ih hk
      exact ⟨hr', hk', f ++ g, by rw [hgx, hfx, List.append_assoc],
        by rw [hgy, hfy, List.append_assoc]⟩

/-- Writing messages touches only the egress side. -/
theorem writeMsgs_confined (q : List Msg) : Confined Side.egress (writeMsgs S q) := by
  induction q with
  | nil => exact .pure ()
  | cons m q ih => exact .bind (writeMsg_confined S m) fun _ => ih

/-- Writing two queues after each other, when the first goes through, is writing the second
after the first. -/
theorem writeMsgs_append_of_ok {q : List Msg} {x x₁ : RlpxFrameRW}
    (h : writeMsgs S q x = (x₁, .ok ())) (q' : List Msg) :
    writeMsgs S (q ++ q') x = writeMsgs S q' x₁ := by
  induction q generalizing x with
  | nil => cases h; rfl
  | cons m q ih =>
    obtain ⟨x₂, ⟨⟩, hm, hq⟩ := Go.bind_eq_ok h
    simp only [List.cons_append, writeMsgs, Go.bind_apply, hm]
    exact ih hq

/-- Writing a queue of one message is writing that message. -/
theorem writeMsgs_singleton (m : Msg) (x : RlpxFrameRW) : writeMsgs S [m] x = writeMsg S m x := by
  simp only [writeMsgs, Go.bind_apply]
  rcases writeMsg S m x with ⟨x₁, _ | ⟨⟩⟩ <;> rfl

/-! ## What is in flight one way -/

variable (S)

/-- **The invariant of one direction.** The bytes the reader `r` has not read are the
frames of the sendable messages `q`, sealed from where `r` stands, and sealing them brings
a writer to where the sending codec `w` stands. -/
structure Flow (w r : RlpxFrameRW) (q : List Msg) : Prop where
  sendable : ∀ m ∈ q, Sendable S r.snappy m
  ok : (writeMsgs S q r.mirror).2 = .ok ()
  wire : (writeMsgs S q r.mirror).1.out = r.inp
  egress : (writeMsgs S q r.mirror).1.egressKey = w.egressKey

variable {S}

namespace Flow

variable {w r : RlpxFrameRW} {q : List Msg}

/-- Nothing is in flight between two fresh codecs in step. -/
theorem nil (hs : Synced w r) (hinp : r.inp = []) : Flow S w r [] :=
  ⟨by simp, rfl, hinp.symm, synced_iff.mp hs⟩

/-- A writer and a reader with bytes in flight between them agree on `snappy`. -/
theorem snappy_eq (hf : Flow S w r q) : w.snappy = r.snappy := by
  have hk := (writeMsgs_confined (S := S) q).keys_eq r.mirror
  have he := congrArg (fun k => k.2.2.1) hf.egress
  simp only [egressKey] at he
  simp only [keys, Prod.mk.injEq] at hk
  rw [← he, hk.2.2]; rfl

/-- The invariant reads the sender through what sealing reads. -/
theorem of_egressKey (hf : Flow S w r q) {w' : RlpxFrameRW} (h : w'.egressKey = w.egressKey) :
    Flow S w' r q :=
  ⟨hf.sendable, hf.ok, hf.wire, hf.egress.trans h.symm⟩

/-- The invariant reads the receiver through its mirror and its unread bytes. -/
theorem of_mirror (hf : Flow S w r q) {r' : RlpxFrameRW} (h : r'.mirror = r.mirror)
    (hi : r'.inp = r.inp) : Flow S w r' q := by
  have hs : r'.snappy = r.snappy := (congrArg RlpxFrameRW.snappy h :)
  exact ⟨hs ▸ hf.sendable, h ▸ hf.ok, by rw [h, hi]; exact hf.wire, h ▸ hf.egress⟩

/-- **A write enqueues.** A sendable message written by the sender is written whole, and
its frame, arriving behind the reader's unread bytes, puts it last in flight. -/
theorem send (hf : Flow S w r q) {m : Msg} (hm : Sendable S w.snappy m) :
    ∃ w' f, writeMsg S m w = (w', .ok ()) ∧ w'.out = w.out ++ f ∧
      Flow S w' { r with inp := r.inp ++ f } (q ++ [m]) := by
  let R : RlpxFrameRW := { w with dec := w.enc, ingressMAC := w.egressMAC }
  obtain ⟨f, w', -, hw, hout, -, -, -⟩ := writeMsg_readMsg (W := w) (R := R) ⟨rfl, rfl, rfl, rfl, rfl⟩ hm
  obtain ⟨hr, hk, g, hg, hg'⟩ := writeMsg_congr (S := S) hf.egress m
  rw [hw, hout] at hg'
  obtain rfl := List.append_cancel_left hg'
  have happ : writeMsgs S (q ++ [m]) ({ r with inp := r.inp ++ f } : RlpxFrameRW).mirror =
      writeMsg S m (writeMsgs S q r.mirror).1 := by
    rw [← writeMsgs_singleton]
    exact writeMsgs_append_of_ok (Prod.ext rfl hf.ok) [m]
  refine ⟨w', f, hw, hout, ⟨?_, ?_, ?_, ?_⟩⟩
  · intro m' hm'
    rcases List.mem_append.mp hm' with h | h
    · exact hf.sendable m' h
    · rw [List.mem_singleton.mp h, ← hf.snappy_eq]; exact hm
  · rw [happ, hr, hw]
  · rw [happ, hg, hf.wire]
  · rw [happ, hk, hw]

/-- **A read dequeues.** With `m` first in flight, the reader reads `m` back, gathered,
and the rest stays in flight. -/
theorem recv {m : Msg} (hf : Flow S w r (m :: q)) :
    ∃ r', readMsg S r = (r', .ok m.gathered) ∧ Flow S w r' q := by
  have hm := hf.sendable m (.head _)
  obtain ⟨f, W₁, R₁, hw, hout, hs₁, hsn, hread⟩ :=
    writeMsg_readMsg (synced_mirror r) (hm : Sendable S r.mirror.snappy m)
  have hq : writeMsgs S (m :: q) r.mirror = writeMsgs S q W₁ :=
    writeMsgs_append_of_ok (q := [m]) (by rw [writeMsgs_singleton, hw]) q
  obtain ⟨hr, hk, d, hd, hd'⟩ := writeMsgs_congr (S := S) (synced_iff.mp hs₁) q
  have hinp : r.inp = f ++ d := by
    rw [← hf.wire, hq, hd', hout]; rfl
  have hr' : readMsg S r = ({ R₁ with inp := d }, .ok m.gathered) := by
    rw [← hread d, ← hinp]
  refine ⟨_, hr', ⟨?_, ?_, ?_, ?_⟩⟩
  · intro m' hm'
    rw [show ({ R₁ with inp := d } : RlpxFrameRW).snappy = r.snappy from hs₁.snappy.trans hsn]
    exact hf.sendable m' (.tail _ hm')
  · rw [← hf.ok, hq]; exact hr
  · exact hd
  · rw [← hf.egress, hq]; exact hk

/-- With nothing in flight, a read finds no bytes and fails. -/
theorem recv_nil (hf : Flow S w r []) : readMsg S r = (r, .error (.error "EOF")) := by
  have hinp : r.inp = [] := hf.wire.symm
  cases r
  simp only at hinp
  subst hinp
  simp [readMsg, connReadFull, readFull, Go.bind_apply]

end Flow

/-! ## The connection and its specification -/

/-- The two codecs of a connection: `a` on the dialing node, `b` on the other. -/
structure Duplex where
  a : RlpxFrameRW
  b : RlpxFrameRW

/-- The calls the two nodes make on their codecs. -/
inductive Op where
  | sendA (m : Msg)
  | sendB (m : Msg)
  | recvA
  | recvB

/-- The bytes `x` wrote in becoming `x'` arrive behind those `y` has not read. -/
def deliver (x x' y : RlpxFrameRW) : RlpxFrameRW :=
  { y with inp := y.inp ++ x'.out.drop x.out.length }

variable (S)

/-- One call: `WriteMsg` on a node, with what it writes arriving at the other, or
`ReadMsg` on a node. -/
def Duplex.step (d : Duplex) : Op → Duplex × Except Fault (Option Msg)
  | .sendA m => (⟨(writeMsg S m d.a).1, deliver d.a (writeMsg S m d.a).1 d.b⟩,
      (writeMsg S m d.a).2.map fun _ => none)
  | .sendB m => (⟨deliver d.b (writeMsg S m d.b).1 d.a, (writeMsg S m d.b).1⟩,
      (writeMsg S m d.b).2.map fun _ => none)
  | .recvA => (⟨(readMsg S d.a).1, d.b⟩, (readMsg S d.a).2.map some)
  | .recvB => (⟨d.a, (readMsg S d.b).1⟩, (readMsg S d.b).2.map some)

/-- Calls made one after another, on either node in any order. -/
def Duplex.run (d : Duplex) : List Op → Duplex × List (Except Fault (Option Msg))
  | [] => (d, [])
  | op :: ops => (((d.step S op).1.run ops).1, (d.step S op).2 :: ((d.step S op).1.run ops).2)

/-- **The specification**: the messages in flight each way, oldest first. -/
structure Queues where
  ab : List Msg
  ba : List Msg

/-- A send appends to its queue; a receive takes the oldest message of its queue, gathered,
and fails on an empty queue. -/
def Queues.step (q : Queues) : Op → Queues × Option (Option Msg)
  | .sendA m => (⟨q.ab ++ [m], q.ba⟩, some none)
  | .sendB m => (⟨q.ab, q.ba ++ [m]⟩, some none)
  | .recvA =>
    match q.ba with
    | [] => (q, none)
    | m :: ba => (⟨q.ab, ba⟩, some (some m.gathered))
  | .recvB =>
    match q.ab with
    | [] => (q, none)
    | m :: ab => (⟨ab, q.ba⟩, some (some m.gathered))

/-- The operations run one after another on the two queues, with what each returns. -/
def Queues.run (q : Queues) : List Op → Queues × List (Option (Option Msg))
  | [] => (q, [])
  | op :: ops => (((q.step op).1.run ops).1, (q.step op).2 :: ((q.step op).1.run ops).2)

example (m : Msg) : (Queues.run ⟨[], []⟩ [.recvB, .sendA m, .sendA m, .recvB]).2 =
    [none, some none, some none, some (some m.gathered)] := rfl

/-- The connection `d` implements the queues `q`: each way, what is in flight is the
queue. -/
structure Duplex.Refines (d : Duplex) (q : Queues) : Prop where
  ab : Flow S d.a d.b q.ab
  ba : Flow S d.b d.a q.ba

/-- The sends among the calls are of messages that fit a frame. -/
def Op.Sendable (snappy : Bool) : Op → Prop
  | .sendA m => Rlpx.Sendable S snappy m
  | .sendB m => Rlpx.Sendable S snappy m
  | .recvA => True
  | .recvB => True

variable {S}

/-! ## Refinement -/

/-- What a write leaves alone: the writer as a reader, and its keys. -/
theorem writeMsg_frame {m : Msg} {x x' : RlpxFrameRW} {res : Except Fault Unit}
    (hw : writeMsg S m x = (x', res)) : x'.mirror = x.mirror ∧ x'.inp = x.inp ∧ x'.snappy = x.snappy := by
  have h := (writeMsg_confined S m).frame x
  rw [hw] at h
  dsimp only at h
  rw [← h]
  exact ⟨rfl, rfl, rfl⟩

/-- What a read leaves alone: the reader as a writer. -/
theorem readMsg_frame {x x' : RlpxFrameRW} {res : Except Fault Msg} (hr : readMsg S x = (x', res)) :
    x'.egressKey = x.egressKey ∧ x'.snappy = x.snappy := by
  have h := (readMsg_confined S).frame x
  rw [hr] at h
  dsimp only at h
  rw [← h]
  exact ⟨rfl, rfl⟩

section Steps

variable {d : Duplex} {m : Msg} {x : RlpxFrameRW} {f : Bytes}

/-- A send from the first end that goes through delivers the written bytes to the second. -/
theorem Duplex.step_sendA (hw : writeMsg S m d.a = (x, .ok ())) (hout : x.out = d.a.out ++ f) :
    d.step S (.sendA m) = (⟨x, { d.b with inp := d.b.inp ++ f }⟩, .ok none) := by
  simp [Duplex.step, deliver, hw, hout, Except.map]

/-- A send from the second end that goes through delivers the written bytes to the first. -/
theorem Duplex.step_sendB (hw : writeMsg S m d.b = (x, .ok ())) (hout : x.out = d.b.out ++ f) :
    d.step S (.sendB m) = (⟨{ d.a with inp := d.a.inp ++ f }, x⟩, .ok none) := by
  simp [Duplex.step, deliver, hw, hout, Except.map]

/-- A receive at the first end is its `ReadMsg`. -/
theorem Duplex.step_recvA {res : Except Fault Msg} (hr : readMsg S d.a = (x, res)) :
    d.step S .recvA = (⟨x, d.b⟩, res.map some) := by
  simp [Duplex.step, hr]

/-- A receive at the second end is its `ReadMsg`. -/
theorem Duplex.step_recvB {res : Except Fault Msg} (hr : readMsg S d.b = (x, res)) :
    d.step S .recvB = (⟨d.a, x⟩, res.map some) := by
  simp [Duplex.step, hr]

end Steps

/-- A write on one side of a connection keeps the other direction's invariant: the
writer's ingress side and the peer's egress side are untouched. -/
theorem Flow.of_send {w r r' : RlpxFrameRW} {q : List Msg} (hf : Flow S w r q) {m : Msg}
    {res : Except Fault Unit} (hw : writeMsg S m r = (r', res)) (f : Bytes) :
    Flow S { w with inp := w.inp ++ f } r' q := by
  obtain ⟨hm, hi, -⟩ := writeMsg_frame hw
  exact (hf.of_egressKey (show ({ w with inp := w.inp ++ f } : RlpxFrameRW).egressKey = _ from
    rfl)).of_mirror hm hi

/-- **One call refines one step of the queues**: it returns what the queues return, and
the connection still implements the queues after it. -/
theorem Duplex.step_refines {d : Duplex} {q : Queues} (h : d.Refines S q) {op : Op}
    (hop : op.Sendable S d.a.snappy) :
    (d.step S op).2.toOption = (q.step op).2 ∧ (d.step S op).1.Refines S (q.step op).1 ∧
      (d.step S op).1.a.snappy = d.a.snappy := by
  obtain ⟨ab, ba⟩ := q
  cases op with
  | sendA m =>
    obtain ⟨a', f, hw, hout, hab⟩ := h.ab.send hop
    rw [Duplex.step_sendA hw hout]
    exact ⟨rfl, ⟨hab, h.ba.of_send hw f⟩, (writeMsg_frame hw).2.2⟩
  | sendB m =>
    obtain ⟨b', f, hw, hout, hba⟩ := h.ba.send (h.ab.snappy_eq ▸ hop)
    rw [Duplex.step_sendB hw hout]
    exact ⟨rfl, ⟨h.ab.of_send hw f, hba⟩, rfl⟩
  | recvA =>
    cases ba with
    | nil =>
      rw [Duplex.step_recvA h.ba.recv_nil]
      exact ⟨rfl, h, rfl⟩
    | cons m ba =>
      obtain ⟨a', hr, hba⟩ := h.ba.recv
      rw [Duplex.step_recvA hr]
      exact ⟨rfl, ⟨h.ab.of_egressKey (readMsg_frame hr).1, hba⟩, (readMsg_frame hr).2⟩
  | recvB =>
    cases ab with
    | nil =>
      rw [Duplex.step_recvB h.ab.recv_nil]
      exact ⟨rfl, h, rfl⟩
    | cons m ab =>
      obtain ⟨b', hr, hab⟩ := h.ab.recv
      rw [Duplex.step_recvB hr]
      exact ⟨rfl, ⟨hab, h.ba.of_egressKey (readMsg_frame hr).1⟩, rfl⟩

/-- **Every interleaving refines the queues.** From a connection that implements the
queues `q`, any sequence of calls whose sends are of messages that fit a frame returns,
call by call, what the queues return, and the connection still implements them. -/
theorem Duplex.run_refines {d : Duplex} {q : Queues} (h : d.Refines S q) {ops : List Op}
    (hops : ∀ op ∈ ops, op.Sendable S d.a.snappy) :
    (d.run S ops).2.map Except.toOption = (q.run ops).2 ∧ (d.run S ops).1.Refines S (q.run ops).1 := by
  induction ops generalizing d q with
  | nil => exact ⟨rfl, h⟩
  | cons op ops ih =>
    obtain ⟨hout, h', hsn⟩ := Duplex.step_refines h (hops op (.head _))
    obtain ⟨hrest, h''⟩ := ih h' (fun op' hop' => hsn ▸ hops op' (.tail _ hop'))
    exact ⟨by simp only [Duplex.run, Queues.run, List.map_cons, hout, hrest], h''⟩

/-! ## From the handshake -/

/-- A codec `newRLPXFrameRW` builds has no input and `snappy` off. -/
theorem newRLPXFrameRW_fresh {Pub : Type} {s : Secrets Pub} {rw : RlpxFrameRW}
    (h : newRLPXFrameRW s = .ok rw) : rw.inp = [] ∧ rw.snappy = false := by
  unfold newRLPXFrameRW at h
  split_ifs at h
  cases h
  exact ⟨rfl, rfl⟩

variable {Priv Pub : Type} {C : HsCrypto Priv Pub} [DecidableEq Pub]

/-- **The handshake sets up two message channels.** For every frame suite, every
handshake suite with the laws, all keys, nonces and ephemeral keys, and every certificate
configuration of the agreement: the handshake run ends with secrets from which both nodes
build their codecs, and from there every interleaving of sends of messages that fit a
frame and receives, on both nodes, returns call by call what two FIFO queues return. -/
theorem handshake_channels (S : Suite) (hC : C.Laws) (prvA prvB : Priv)
    (coinsA coinsB : Coins Priv) {cmA cmB : Option CertManager}
    (hcfg : CertConfig C prvA prvB cmA cmB) :
    ∃ sA sB W R,
      Link.Reaches (handshakeLink C cmA cmB prvA prvB coinsA coinsB)
        ⟨.done (.ok sA), .done (.ok sB), [], []⟩ ∧
      newRLPXFrameRW sA = .ok W ∧ newRLPXFrameRW sB = .ok R ∧
      ∀ ops : List Op, (∀ op ∈ ops, op.Sendable S false) →
        ((⟨W, R⟩ : Duplex).run S ops).2.map Except.toOption = (Queues.run ⟨[], []⟩ ops).2 := by
  obtain ⟨evs, found, hcA, hfound, hcB⟩ := hcfg.exchange
  obtain ⟨e, pA, pB, -, -, -, hA, hB⟩ :=
    handshake_scripts hC prvA prvB coinsA coinsB hcA hfound hcB
  have hag := secretsOf_agree (C := C) e (copyArray shaLen coinsB.nonce)
    (copyArray shaLen coinsA.nonce) pA pB (C.pubOf prvA) (C.pubOf prvB)
  obtain ⟨W, hW⟩ := newRLPXFrameRW_secretsOf hC ..
  obtain ⟨R, hR⟩ := newRLPXFrameRW_secretsOf hC ..
  have hd : Duplex.Refines S ⟨W, R⟩ ⟨[], []⟩ :=
    ⟨.nil (newRLPXFrameRW_synced hW hR hag.aes_eq.symm hag.mac_eq.symm
        hag.egress_eq_ingress.symm) (newRLPXFrameRW_fresh hR).1,
      .nil (newRLPXFrameRW_synced hR hW hag.aes_eq hag.mac_eq hag.ingress_eq_egress)
        (newRLPXFrameRW_fresh hW).1⟩
  refine ⟨_, _, W, R, Link.reaches_of_play hA (by simpa [Event.dual] using hB), hW, hR,
    fun ops hops => (Duplex.run_refines hd ?_).1⟩
  rwa [(newRLPXFrameRW_fresh hW).2]

/-- Two nodes without certificates, and the suite without encryption. -/
theorem handshake_channels_clear :
    HsCrypto.toy.Laws ∧ CertConfig HsCrypto.toy 1 2 none none ∧
      ∃ sA sB W R,
        Link.Reaches (handshakeLink HsCrypto.toy none none 1 2 ⟨[], 3⟩ ⟨[], 4⟩)
          ⟨.done (.ok sA), .done (.ok sB), [], []⟩ ∧
        newRLPXFrameRW sA = .ok W ∧ newRLPXFrameRW sB = .ok R ∧
        ∀ ops : List Op, (∀ op ∈ ops, op.Sendable Suite.clear false) →
          ((⟨W, R⟩ : Duplex).run Suite.clear ops).2.map Except.toOption =
            (Queues.run ⟨[], []⟩ ops).2 :=
  ⟨HsCrypto.toy_laws, .none rfl rfl,
    handshake_channels Suite.clear HsCrypto.toy_laws 1 2 ⟨[], 3⟩ ⟨[], 4⟩ (.none rfl rfl)⟩

end Rlpx
