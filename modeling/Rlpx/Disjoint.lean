/-
# The read and write paths touch disjoint state

`rlpx` guards `WriteMsg` and `ReadMsg` with two independent locks, `wmu` and `rmu`, so one
write and one read may run at once on the same codec. That is sound because the two paths
share only what neither changes: the AES key, the MAC key and the snappy flag. A write
reads and changes only the egress side (the egress stream, the egress MAC, the outgoing
bytes) and a read only the ingress side.

The module states this as `Confined`: a step confined to a `Side` reads only the shared
keys and that side, and writes only that side. `Confined` holds of every primitive and is
kept by `bind` and `if`, so `writeMsg_confined` and `readMsg_confined` follow from the
code's own statements. Two steps confined to independent sides commute
(`Confined.comm`), and from that, by induction on the schedule,
`interleave_writesFirst`: any interleaving of writes and reads gives every call the same
result and the codec the same final state as running all the writes first.
-/
import Rlpx.Frame

namespace Rlpx

open RlpxFrameRW

/-! ## Sides -/

/-- The fields both paths read and neither writes. -/
def RlpxFrameRW.keys (rw : RlpxFrameRW) : Bytes × Bytes × Bool := (rw.aesKey, rw.macKey, rw.snappy)

/-- The fields one path owns, as a view `get` with its update `set`. -/
structure Side (σ : Type) where
  get : RlpxFrameRW → σ
  set : RlpxFrameRW → σ → RlpxFrameRW
  get_set : ∀ rw s, get (set rw s) = s
  set_get : ∀ rw, set rw (get rw) = rw
  set_set : ∀ rw s t, set (set rw s) t = set rw t
  keys_set : ∀ rw s, (set rw s).keys = rw.keys

/-- The write path's side: the egress stream position, the egress MAC, the bytes written. -/
def Side.egress : Side (Nat × Bytes × Bytes) where
  get rw := (rw.enc, rw.egressMAC, rw.out)
  set rw s := { rw with enc := s.1, egressMAC := s.2.1, out := s.2.2 }
  get_set _ _ := rfl
  set_get _ := rfl
  set_set _ _ _ := rfl
  keys_set _ _ := rfl

/-- The read path's side: the ingress stream position, the ingress MAC, the unread bytes. -/
def Side.ingress : Side (Nat × Bytes × Bytes) where
  get rw := (rw.dec, rw.ingressMAC, rw.inp)
  set rw s := { rw with dec := s.1, ingressMAC := s.2.1, inp := s.2.2 }
  get_set _ _ := rfl
  set_get _ := rfl
  set_set _ _ _ := rfl
  keys_set _ _ := rfl

/-- Two sides that share no field: updating one leaves the other's view alone, and the
updates commute. -/
structure Side.Independent {σ τ : Type} (A : Side σ) (B : Side τ) : Prop where
  get_set_left : ∀ rw t, A.get (B.set rw t) = A.get rw
  get_set_right : ∀ rw s, B.get (A.set rw s) = B.get rw
  set_comm : ∀ rw s t, A.set (B.set rw t) s = B.set (A.set rw s) t

/-- The egress and the ingress sides of a codec share no field. -/
theorem Side.egress_independent_ingress : Side.Independent Side.egress Side.ingress :=
  ⟨fun _ _ => rfl, fun _ _ => rfl, fun _ _ _ => rfl⟩

/-! ## Steps confined to a side -/

/-- The step `x` reads only the keys and the side `L`, and writes only `L`: its new state
is the old one with `L` updated, and its result and new view of `L` are the same from any
two states that agree on the keys and on `L`. -/
structure Confined {σ α : Type} (L : Side σ) (x : Go RlpxFrameRW α) : Prop where
  frame : ∀ rw, L.set rw (L.get (x rw).1) = (x rw).1
  congr : ∀ rw rw', rw.keys = rw'.keys → L.get rw = L.get rw' →
    (x rw).2 = (x rw').2 ∧ L.get (x rw).1 = L.get (x rw').1

namespace Confined

variable {σ α β : Type} {L : Side σ}

/-- A confined step leaves the session keys alone. -/
theorem keys_eq {x : Go RlpxFrameRW α} (hx : Confined L x) (rw : RlpxFrameRW) :
    (x rw).1.keys = rw.keys := by
  rw [← hx.frame, L.keys_set]

/-- Returning a value is confined to every side. -/
theorem pure (a : α) : Confined L (pure a : Go RlpxFrameRW α) :=
  ⟨fun rw => L.set_get rw, fun _ _ _ hs => ⟨rfl, hs⟩⟩

/-- Failing without touching the codec is confined to every side. -/
theorem throw (e : Fault) : Confined L (Go.throw e : Go RlpxFrameRW α) :=
  ⟨fun rw => L.set_get rw, fun _ _ _ hs => ⟨rfl, hs⟩⟩

/-- A computation without state is confined to every side. -/
theorem lift (r : Except Fault α) : Confined L (Go.lift r : Go RlpxFrameRW α) :=
  ⟨fun rw => L.set_get rw, fun _ _ _ hs => ⟨rfl, hs⟩⟩

/-- A branch between two confined steps is confined. -/
theorem ite {p : Prop} [Decidable p] {x y : Go RlpxFrameRW α} (hx : Confined L x)
    (hy : Confined L y) : Confined L (if p then x else y) := by
  split <;> assumption

/-- **Confinement is kept by sequencing**: the state after `x` is still the old one
with `L` updated, so `f` sees the same keys, and agreement on `L` carries through. -/
theorem bind {x : Go RlpxFrameRW α} {f : α → Go RlpxFrameRW β} (hx : Confined L x)
    (hf : ∀ a, Confined L (f a)) : Confined L (x >>= f) := by
  constructor
  · intro rw
    have h := hx.frame rw
    rw [Go.bind_apply]
    rcases hxr : x rw with ⟨s, _ | a⟩ <;> rw [hxr] at h
    · exact h
    · calc L.set rw (L.get (f a s).1)
          = L.set (L.set rw (L.get s)) (L.get (f a s).1) := (L.set_set ..).symm
        _ = (f a s).1 := by rw [h]; exact (hf a).frame s
  · intro rw rw' hk hs
    obtain ⟨hr, hg⟩ := hx.congr rw rw' hk hs
    have hk' : (x rw).1.keys = (x rw').1.keys := by rw [hx.keys_eq, hx.keys_eq, hk]
    simp only [Go.bind_apply]
    rcases hxr : x rw with ⟨s, _ | a⟩ <;> rcases hxr' : x rw' with ⟨s', _ | a'⟩ <;>
      rw [hxr, hxr'] at hr hg hk' <;> cases hr
    · exact ⟨rfl, hg⟩
    · exact (hf a).congr s s' hk' hg

/-- **Steps confined to independent sides commute**: run in either order, each returns
what it returns alone, and the final states agree. -/
theorem comm {τ γ : Type} {M : Side τ} (hLM : L.Independent M) {x : Go RlpxFrameRW α}
    {y : Go RlpxFrameRW γ} (hx : Confined L x) (hy : Confined M y) (rw : RlpxFrameRW) :
    (y (x rw).1).1 = (x (y rw).1).1 ∧ (x (y rw).1).2 = (x rw).2 ∧ (y (x rw).1).2 = (y rw).2 := by
  have hxy := hx.congr (y rw).1 rw (hy.keys_eq rw) (by rw [← hy.frame, hLM.get_set_left])
  have hyx := hy.congr (x rw).1 rw (hx.keys_eq rw) (by rw [← hx.frame, hLM.get_set_right])
  refine ⟨?_, hxy.1, hyx.1⟩
  calc (y (x rw).1).1
      = M.set (x rw).1 (M.get (y (x rw).1).1) := (hy.frame _).symm
    _ = M.set (L.set rw (L.get (x rw).1)) (M.get (y rw).1) := by rw [hyx.2, hx.frame]
    _ = L.set (M.set rw (M.get (y rw).1)) (L.get (x rw).1) := (hLM.set_comm ..).symm
    _ = L.set (y rw).1 (L.get (x (y rw).1).1) := by rw [hy.frame, hxy.2]
    _ = (x (y rw).1).1 := hx.frame _

/-- Reading the `snappy` flag, one of the keys, is confined to every side. -/
theorem snappyFlag : Confined L snappyFlag :=
  ⟨fun rw => L.set_get rw, fun _ _ hk hs =>
    ⟨congrArg (fun k : Bytes × Bytes × Bool => (.ok k.2.2 : Except Fault Bool)) hk, hs⟩⟩

end Confined

/-! ## The two paths -/

variable (S : Suite)

/-- `enc.XORKeyStream` touches only the egress side. -/
theorem encXOR_confined (b : Bytes) : Confined Side.egress (encXOR S b) :=
  ⟨fun _ => rfl, by rintro ⟨⟩ ⟨⟩ ⟨⟩ ⟨⟩; exact ⟨rfl, rfl⟩⟩

/-- `updateMAC` of the egress MAC touches only the egress side. -/
theorem egressUpdateMAC_confined (seed : Bytes) : Confined Side.egress (egressUpdateMAC S seed) :=
  ⟨fun _ => rfl, by rintro ⟨⟩ ⟨⟩ ⟨⟩ ⟨⟩; exact ⟨rfl, rfl⟩⟩

/-- `conn.Write` touches only the egress side. -/
theorem connWrite_confined (b : Bytes) : Confined Side.egress (connWrite b) :=
  ⟨fun _ => rfl, by rintro ⟨⟩ ⟨⟩ ⟨⟩ ⟨⟩; exact ⟨rfl, rfl⟩⟩

/-- Writing through the tee into the egress MAC and the connection touches only the egress
side. -/
theorem teeWrite_confined (p : Bytes) : Confined Side.egress (teeWrite S p) :=
  ⟨fun _ => rfl, by rintro ⟨⟩ ⟨⟩ ⟨⟩ ⟨⟩; exact ⟨rfl, rfl⟩⟩

/-- `egressMAC.Sum(nil)` touches only the egress side. -/
theorem egressSum_confined : Confined Side.egress (egressSum S) :=
  ⟨fun _ => rfl, by rintro ⟨⟩ ⟨⟩ ⟨⟩ ⟨⟩; exact ⟨rfl, rfl⟩⟩

/-- `io.Copy` of the body through the tee touches only the egress side. -/
theorem teeCopy_confined (cs : List Bytes) : Confined Side.egress (teeCopy S cs) :=
  teeCopy_eq S cs ▸ teeWrite_confined S _

/-- `writeFrame` touches only the egress side. -/
theorem writeFrame_confined (fsize : UInt32) (ptype : Bytes) (cs : List Bytes) :
    Confined Side.egress (writeFrame S fsize ptype cs) := by
  unfold writeFrame
  dsimp only
  repeat' first
    | (intro _) | apply encXOR_confined | apply egressUpdateMAC_confined | apply connWrite_confined
    | apply teeWrite_confined | apply teeCopy_confined | apply egressSum_confined
    | apply Confined.pure | apply Confined.bind | apply Confined.ite

/-- `WriteMsg` touches only the egress side. -/
theorem writeMsg_confined (msg : Msg) : Confined Side.egress (writeMsg S msg) := by
  unfold writeMsg
  dsimp only
  repeat' first
    | (intro _) | apply writeFrame_confined | apply Confined.snappyFlag | apply Confined.throw
    | apply Confined.pure | apply Confined.bind | apply Confined.ite

/-- `io.ReadFull` from the connection touches only the ingress side. -/
theorem connReadFull_confined (n : Nat) : Confined Side.ingress (connReadFull n) :=
  ⟨fun _ => rfl, by rintro ⟨⟩ ⟨⟩ ⟨⟩ ⟨⟩; exact ⟨rfl, rfl⟩⟩

/-- `updateMAC` of the ingress MAC touches only the ingress side. -/
theorem ingressUpdateMAC_confined (seed : Bytes) : Confined Side.ingress (ingressUpdateMAC S seed) :=
  ⟨fun _ => rfl, by rintro ⟨⟩ ⟨⟩ ⟨⟩ ⟨⟩; exact ⟨rfl, rfl⟩⟩

/-- `dec.XORKeyStream` touches only the ingress side. -/
theorem decXOR_confined (b : Bytes) : Confined Side.ingress (decXOR S b) :=
  ⟨fun _ => rfl, by rintro ⟨⟩ ⟨⟩ ⟨⟩ ⟨⟩; exact ⟨rfl, rfl⟩⟩

/-- `ingressMAC.Write` touches only the ingress side. -/
theorem ingressWrite_confined (b : Bytes) : Confined Side.ingress (ingressWrite b) :=
  ⟨fun _ => rfl, by rintro ⟨⟩ ⟨⟩ ⟨⟩ ⟨⟩; exact ⟨rfl, rfl⟩⟩

/-- `ingressMAC.Sum(nil)` touches only the ingress side. -/
theorem ingressSum_confined : Confined Side.ingress (ingressSum S) :=
  ⟨fun _ => rfl, by rintro ⟨⟩ ⟨⟩ ⟨⟩ ⟨⟩; exact ⟨rfl, rfl⟩⟩

/-- `ReadMsg` touches only the ingress side. -/
theorem readMsg_confined : Confined Side.ingress (readMsg S) := by
  unfold readMsg
  dsimp only
  repeat' first
    | (intro _) | apply connReadFull_confined | apply ingressUpdateMAC_confined
    | apply decXOR_confined | apply ingressWrite_confined | apply ingressSum_confined
    | apply Confined.snappyFlag | apply Confined.lift | apply Confined.throw
    | apply Confined.pure | apply Confined.bind | apply Confined.ite

/-- **A write and a read commute**: run in either order on any codec, each returns what
it returns alone, and the codec ends in the same state. -/
theorem writeMsg_readMsg_comm (msg : Msg) (rw : RlpxFrameRW) :
    (readMsg S (writeMsg S msg rw).1).1 = (writeMsg S msg (readMsg S rw).1).1 ∧
      (writeMsg S msg (readMsg S rw).1).2 = (writeMsg S msg rw).2 ∧
      (readMsg S (writeMsg S msg rw).1).2 = (readMsg S rw).2 :=
  Confined.comm Side.egress_independent_ingress (writeMsg_confined S msg) (readMsg_confined S) rw

/-! ## Interleavings -/

/-- A call on the codec: `WriteMsg` of a message, or `ReadMsg`. -/
inductive Call where
  | write (msg : Msg)
  | read

/-- What a call returned. -/
inductive Outcome where
  | wrote (r : Except Fault Unit)
  | read (r : Except Fault Msg)

/-- Whether a call is a write. -/
def Call.isWrite : Call → Bool
  | .write _ => true
  | .read => false

/-- Whether an outcome is that of a write. -/
def Outcome.isWrote : Outcome → Bool
  | .wrote _ => true
  | .read _ => false

/-- A write is a write. -/
@[simp] theorem Call.isWrite_write (msg : Msg) : (Call.write msg).isWrite = true := rfl

/-- A read is not a write. -/
@[simp] theorem Call.isWrite_read : Call.read.isWrite = false := rfl

/-- A write's outcome is a write's. -/
@[simp] theorem Outcome.isWrote_wrote (r : Except Fault Unit) : (Outcome.wrote r).isWrote = true :=
  rfl

/-- A read's outcome is not a write's. -/
@[simp] theorem Outcome.isWrote_read (r : Except Fault Msg) : (Outcome.read r).isWrote = false :=
  rfl

/-- One call on the codec. -/
def Call.exec : Call → RlpxFrameRW → RlpxFrameRW × Outcome
  | .write msg, rw => ((writeMsg S msg rw).1, .wrote (writeMsg S msg rw).2)
  | .read, rw => ((readMsg S rw).1, .read (readMsg S rw).2)

/-- The calls one after another, each on the state the previous one left, whether it
failed or not; the final state and every call's result, in order. -/
def runCalls : List Call → RlpxFrameRW → RlpxFrameRW × List Outcome
  | [], rw => (rw, [])
  | c :: cs, rw =>
    let r := c.exec S rw
    let q := runCalls cs r.1
    (q.1, r.2 :: q.2)

/-- The same calls with every write moved before every read, each group in its order. -/
def writesFirst (cs : List Call) : List Call :=
  cs.filter Call.isWrite ++ cs.filter (fun c => !c.isWrite)

/-- The results in the order of `writesFirst`. -/
def Outcome.writesFirst (os : List Outcome) : List Outcome :=
  os.filter Outcome.isWrote ++ os.filter (fun o => !o.isWrote)

/-- Each call returns an outcome of its own kind, so the runs keep the count of writes. -/
theorem length_filter_runCalls (cs : List Call) (rw : RlpxFrameRW) :
    ((runCalls S cs rw).2.filter Outcome.isWrote).length = (cs.filter Call.isWrite).length := by
  induction cs generalizing rw with
  | nil => rfl
  | cons c cs ih => cases c <;> simp [runCalls, Call.exec, ih]

/-- A read moves ahead of a block of writes: it returns what it returns first, and so do
the writes, and the state at the end is the same. -/
theorem runCalls_writes_read (ws rest : List Call) (hws : ∀ c ∈ ws, c.isWrite)
    (rw : RlpxFrameRW) :
    runCalls S (ws ++ .read :: rest) rw =
      let r := Call.exec S .read rw
      let q := runCalls S (ws ++ rest) r.1
      (q.1, q.2.take ws.length ++ r.2 :: q.2.drop ws.length) := by
  induction ws generalizing rw with
  | nil => rfl
  | cons c ws ih =>
    cases c with
    | read => simp at hws
    | write m =>
      obtain ⟨h1, h2, h3⟩ := writeMsg_readMsg_comm S m rw
      rw [List.cons_append, runCalls, ih (fun c hc => hws c (.tail _ hc))]
      simp [runCalls, Call.exec, h1, h2, h3]

/-- **Reads and writes interleave freely.** Run any interleaving of `WriteMsg` and
`ReadMsg` calls on a codec: every call returns what it returns when all the writes run
first, each group in its own order, and the codec ends in the same state. -/
theorem interleave_writesFirst (cs : List Call) (rw : RlpxFrameRW) :
    runCalls S (writesFirst cs) rw =
      ((runCalls S cs rw).1, Outcome.writesFirst (runCalls S cs rw).2) := by
  induction cs generalizing rw with
  | nil => rfl
  | cons c cs ih =>
    cases c with
    | write m =>
      have := ih (writeMsg S m rw).1
      simp only [writesFirst, Outcome.writesFirst] at this
      simp [writesFirst, Outcome.writesFirst, runCalls, Call.exec, this]
    | read =>
      have hn := length_filter_runCalls S cs (readMsg S rw).1
      have := ih (readMsg S rw).1
      simp only [writesFirst, Outcome.writesFirst] at this
      simp only [writesFirst, List.filter_cons, Call.isWrite_read, Bool.false_eq_true, if_false,
        Bool.not_false, if_true]
      rw [runCalls_writes_read S _ _ (fun c hc => (List.mem_filter.1 hc).2)]
      dsimp only [Call.exec]
      rw [this]
      simp [runCalls, Call.exec, Outcome.writesFirst, ← hn]

end Rlpx
