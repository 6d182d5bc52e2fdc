/-
# Go values for the RLPx model

The byte strings, faults and methods the model of `p2p/rlpx.go` and
`crypto/signature_cgo.go` is written with.

* `Bytes` is a Go `[]byte` whose capacity is its length;
* `Fault` is how a Go call ends abnormally: a returned `error`, or a run-time panic;
* `Go σ α` is a method with a pointer receiver of state `σ`: it mutates the receiver in
  place, then returns a value or an error, so a failed call keeps what it mutated.
-/
import Mathlib.Logic.Relation
import Mathlib.Data.Nat.Log
import Mathlib.Data.Nat.Size
import Mathlib.Data.Set.Finite.List
import Mathlib.Data.Fintype.Card
import Mathlib.Tactic.IntervalCases
import Mathlib.Tactic.Positivity
import Mathlib.Tactic.NormNum
import Mathlib.Tactic.Ring
import Mathlib.Tactic.SplitIfs
import Mathlib.Data.UInt
import Mathlib.Data.Nat.Bitwise
import Mathlib.Data.String.Basic

namespace Rlpx

/-! ## Byte strings and faults -/

/-- A Go byte slice `[]byte`. -/
abbrev Bytes := List UInt8

/-- How a Go call can end other than by returning normally: with a non-nil `error`, or
with a run-time panic (a slice out of range, an explicit `panic`). -/
inductive Fault where
  | error (msg : String)
  | panic (msg : String)
  deriving DecidableEq, Repr

/-- A result that ended in a panic. -/
def Panics {α : Type} : Except Fault α → Prop
  | .error (.panic _) => True
  | _ => False

/-- Whether a result panicked can be decided. -/
instance {α : Type} (r : Except Fault α) : Decidable (Panics r) :=
  match r with
  | .error (.panic _) => isTrue trivial
  | .error (.error _) => isFalse id
  | .ok _ => isFalse id

/-- A call that returns passes its value on. -/
@[simp] theorem Except.ok_bind {ε α β : Type} (a : α) (f : α → Except ε β) :
    (Except.ok a >>= f) = f a := rfl

/-- A call that fails ends the chain with its error. -/
@[simp] theorem Except.error_bind {ε α β : Type} (e : ε) (f : α → Except ε β) :
    (Except.error e >>= f) = Except.error e := rfl

/-- A chain of fallible calls that returns went through each of them. -/
theorem Except.bind_eq_ok {ε α β : Type} {x : Except ε α} {f : α → Except ε β} {b : β} :
    (x >>= f) = .ok b ↔ ∃ a, x = .ok a ∧ f a = .ok b := by
  cases x <;> simp

/-- Mapping over a returned value applies the function to it. -/
@[simp] theorem Except.map_ok' {ε α β : Type} (f : α → β) (a : α) :
    (f <$> (Except.ok a : Except ε α)) = Except.ok (f a) := rfl

/-- The text of Go's run-time panic for a slice expression out of range. -/
def sliceBoundsOutOfRange : String := "runtime error: slice bounds out of range"

/-- `b[lo:]`: Go panics when `lo` exceeds the length. -/
def sliceFrom (b : Bytes) (lo : Nat) : Except Fault Bytes :=
  if lo ≤ b.length then .ok (b.drop lo) else .error (.panic sliceBoundsOutOfRange)

/-- `b[:hi]` of a slice whose capacity is its length. -/
def sliceTo (b : Bytes) (hi : Nat) : Except Fault Bytes :=
  if hi ≤ b.length then .ok (b.take hi) else .error (.panic sliceBoundsOutOfRange)

/-- `b[lo:]` within the length drops the first `lo` bytes. -/
theorem sliceFrom_of_le {b : Bytes} {lo : Nat} (h : lo ≤ b.length) :
    sliceFrom b lo = .ok (b.drop lo) := if_pos h

/-- `b[lo:]` past the length panics. -/
theorem sliceFrom_of_lt {b : Bytes} {lo : Nat} (h : b.length < lo) :
    sliceFrom b lo = .error (.panic sliceBoundsOutOfRange) := if_neg (by omega)

/-- `b[:hi]` within the length keeps the first `hi` bytes. -/
theorem sliceTo_of_le {b : Bytes} {hi : Nat} (h : hi ≤ b.length) :
    sliceTo b hi = .ok (b.take hi) := if_pos h

/-- `b[:hi]` past the length panics. -/
theorem sliceTo_of_lt {b : Bytes} {hi : Nat} (h : b.length < hi) :
    sliceTo b hi = .error (.panic sliceBoundsOutOfRange) := if_neg (by omega)

/-- `copy(dst[:], src)` into a fresh `[n]byte` array: the first `n` bytes of `src`,
zero-filled when `src` is shorter. -/
def copyArray (n : Nat) (src : Bytes) : Bytes := (src ++ List.replicate n 0).take n

/-- The array `copy` writes into has its own length. -/
@[simp] theorem length_copyArray (n : Nat) (src : Bytes) : (copyArray n src).length = n := by
  simp [copyArray]

/-- Copying a slice into an array of its length copies it whole. -/
theorem copyArray_of_length {n : Nat} {src : Bytes} (h : src.length = n) :
    copyArray n src = src := by
  simp [copyArray, ← h]

/-! ## Exclusive or on bytes -/

/-- A byte built from a number is that number modulo `256`. -/
@[simp] theorem UInt8.toNat_ofNat_mod (n : Nat) : (UInt8.ofNat n).toNat = n % 256 := rfl

/-- A `uint32` built from a number is that number modulo `2 ^ 32`. -/
@[simp] theorem UInt32.toNat_ofNat_mod (n : Nat) :
    (UInt32.ofNat n).toNat = n % 2 ^ 32 := rfl

/-- `uint32` comparison is the comparison of the values. -/
theorem UInt32.lt_iff_toNat_lt {a b : UInt32} : a < b ↔ a.toNat < b.toNat := Iff.rfl

/-- A `uint64` rebuilt from its value is itself. -/
theorem UInt64.ofNat_toNat_eq (x : UInt64) : UInt64.ofNat x.toNat = x :=
  UInt64.toNat.inj (UInt64.toNat_ofNat_of_lt x.toNat_lt_size)

/-- A `uint32` rebuilt from its value is itself. -/
theorem UInt32.ofNat_toNat_eq (x : UInt32) : UInt32.ofNat x.toNat = x :=
  UInt32.toNat.inj (by rw [UInt32.toNat_ofNat_mod]; exact Nat.mod_eq_of_lt x.toNat_lt_size)

/-- Byte comparison is the comparison of the values. -/
theorem UInt8.lt_iff_toNat_lt {a b : UInt8} : a < b ↔ a.toNat < b.toNat := Iff.rfl

/-- Byte comparison is the comparison of the values. -/
theorem UInt8.le_iff_toNat_le {a b : UInt8} : a ≤ b ↔ a.toNat ≤ b.toNat := Iff.rfl

/-- Exclusive or with the same key twice gives the byte back. -/
@[simp] theorem UInt8.xor_xor_cancel (a k : UInt8) : a ^^^ k ^^^ k = a := by
  cases a; cases k
  apply congrArg UInt8.mk
  show (_ ^^^ _) ^^^ _ = _
  rw [BitVec.xor_assoc, BitVec.xor_self, BitVec.xor_zero]

/-- Exclusive or of bytes commutes. -/
theorem UInt8.xor_comm (a k : UInt8) : a ^^^ k = k ^^^ a := by
  cases a; cases k
  apply congrArg UInt8.mk
  exact BitVec.xor_comm _ _

/-- Exclusive or with a fixed key tells bytes apart. -/
theorem UInt8.xor_left_injective (k : UInt8) : Function.Injective (· ^^^ k) :=
  fun a b h => by simpa using congrArg (· ^^^ k) h

/-- Byte-wise exclusive or of `one` with the first `one.length` bytes of `other`. -/
def xorBytes (one other : Bytes) : Bytes := List.zipWith (· ^^^ ·) one other

/-- `xorBytes` is as long as the shorter of its arguments. -/
@[simp] theorem length_xorBytes (one other : Bytes) :
    (xorBytes one other).length = min one.length other.length := by
  simp [xorBytes]

/-- Whitening twice with a key at least as long gives the bytes back. -/
theorem xorBytes_xorBytes {a k : Bytes} (h : a.length ≤ k.length) :
    xorBytes (xorBytes a k) k = a := by
  induction a generalizing k with
  | nil => rfl
  | cons x a ih =>
    cases k with
    | nil => simp at h
    | cons y k =>
      simp only [xorBytes, List.zipWith_cons_cons, UInt8.xor_xor_cancel] at ih ⊢
      exact congrArg _ (ih (by simpa using h))

/-- `xorBytes` commutes. -/
theorem xorBytes_comm (one other : Bytes) : xorBytes one other = xorBytes other one :=
  List.zipWith_comm_of_comm _ UInt8.xor_comm one other

/-- Whitening with a key at least as long tells byte strings apart. -/
theorem xorBytes_left_inj {a b k : Bytes} (ha : a.length ≤ k.length)
    (hb : b.length ≤ k.length) (h : xorBytes a k = xorBytes b k) : a = b := by
  rw [← xorBytes_xorBytes ha, ← xorBytes_xorBytes hb, h]

/-! ## Methods on mutable state -/

/-- A Go method with a pointer receiver whose state is `σ`: it mutates the receiver in
place and returns a value or a fault. A call that fails keeps the mutations it made
before failing, as the Go code does. -/
def Go (σ α : Type) : Type := σ → σ × Except Fault α

namespace Go

/-- Methods chain as Go statements do: a fault ends the chain with the state it left. -/
instance (σ : Type) : Monad (Go σ) where
  pure a := fun s => (s, .ok a)
  bind x f := fun s => match x s with
    | (s', .ok a) => f a s'
    | (s', .error e) => (s', .error e)

/-- Return the fault `e` without touching the receiver. -/
def throw {σ α : Type} (e : Fault) : Go σ α := fun s => (s, .error e)

/-- Return `e` if it is an error, the value otherwise. -/
def lift {σ α : Type} (r : Except Fault α) : Go σ α := fun s => (s, r)

variable {σ α β : Type}

/-- Returning a value leaves the receiver alone. -/
@[simp] theorem pure_apply (a : α) (s : σ) : (pure a : Go σ α) s = (s, .ok a) := rfl

/-- A chain runs its first part, then the rest on the state that part left, unless it
failed. -/
@[simp] theorem bind_apply (x : Go σ α) (f : α → Go σ β) (s : σ) :
    (x >>= f) s = match x s with
      | (s', .ok a) => f a s'
      | (s', .error e) => (s', .error e) := rfl

/-- `throw` leaves the receiver alone. -/
@[simp] theorem throw_apply (e : Fault) (s : σ) : (throw e : Go σ α) s = (s, .error e) := rfl

/-- `lift` leaves the receiver alone. -/
@[simp] theorem lift_apply (r : Except Fault α) (s : σ) : (lift r : Go σ α) s = (s, r) := rfl

/-- A bind that returns normally ran both parts normally. -/
theorem bind_eq_ok {x : Go σ α} {f : α → Go σ β} {s s' : σ} {b : β}
    (h : (x >>= f) s = (s', .ok b)) : ∃ s₁ a, x s = (s₁, .ok a) ∧ f a s₁ = (s', .ok b) := by
  rw [bind_apply] at h
  rcases hx : x s with ⟨s₁, e | a⟩ <;> rw [hx] at h
  · cases h
  · exact ⟨s₁, a, rfl, h⟩

/-- A method that always returns normally, with the state `f s` and the value `g s`. -/
theorem ok_inv {x : Go σ α} {s s' : σ} {a : α} (h : x s = (s', .ok a)) {f : σ → σ}
    {g : σ → α} (hx : ∀ s, x s = (f s, .ok (g s))) : s' = f s ∧ a = g s := by
  rw [hx] at h
  simp only [Prod.mk.injEq, Except.ok.injEq] at h
  exact ⟨h.1.symm, h.2.symm⟩

end Go

/-! ## Reading a byte stream -/

/-- `io.ReadFull` of `n` bytes from the unread input `inp`: the bytes and what is left,
or, when fewer than `n` bytes remain, `EOF` (nothing left) or `unexpected EOF` (a few
bytes left, which the call consumes). -/
def readFull (inp : Bytes) (n : Nat) : Bytes × Except Fault Bytes :=
  if n ≤ inp.length then (inp.drop n, .ok (inp.take n))
  else ([], .error (.error (if inp = [] then "EOF" else "unexpected EOF")))

/-- `io.ReadFull` of `n` bytes from an input that starts with `n` bytes reads exactly them. -/
theorem readFull_append {b rest : Bytes} {n : Nat} (h : b.length = n) :
    readFull (b ++ rest) n = (rest, .ok b) := by
  subst h
  simp [readFull]

/-- `io.ReadFull` of more bytes than are left fails. -/
theorem readFull_of_lt {inp : Bytes} {n : Nat} (h : inp.length < n) :
    ∃ e, readFull inp n = ([], .error e) :=
  ⟨_, if_neg (by omega)⟩

end Rlpx
