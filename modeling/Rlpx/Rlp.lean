/-
# The RLP encoding of integers, byte strings and lists

The `rlp` package is outside `p2p/rlpx.go`, which uses it for the handshake messages
(`authMsgV4` and `authRespV4`, lists of fixed-length byte arrays and integers) and for the
frame's message code (`rlp.EncodeToBytes(msg.Code)`). This module is that encoding,
written as the package's encoder (`encbuf`) and stream decoder (`Stream`) compute it, with
the decoder's canonical-form checks.

The headline facts are the round trips the codec and the handshake rely on:

* `decodeUint_encodeUint`: a `uint64` decodes from its encoding, whatever follows it;
* `decodeByteArray_encodeString`, `decodeList_encodeList`: the same for fixed-size byte
  arrays of at least two bytes and for list payloads.
-/
import Rlpx.Basic

namespace Rlpx.Rlp

/-! ## Big-endian integers -/

/-- `putint`: the `k` low bytes of `i`, most significant first. -/
def putBE : Nat → Nat → Bytes
  | 0, _ => []
  | k + 1, i => putBE k (i / 256) ++ [UInt8.ofNat i]

/-- The number a big-endian byte string denotes. -/
def beValue (b : Bytes) : Nat := b.foldl (fun acc x => acc * 256 + x.toNat) 0

/-- `intsize`: how many bytes the big-endian form of `i` takes, at least one. -/
def intsize (i : Nat) : Nat := Nat.log 256 i + 1

/-- `putBE k` writes `k` bytes. -/
@[simp] theorem length_putBE (k i : Nat) : (putBE k i).length = k := by
  induction k generalizing i with
  | zero => rfl
  | succ k ih => simp [putBE, ih]

/-- One more byte shifts the big-endian value by a byte. -/
theorem beValue_append_singleton (b : Bytes) (x : UInt8) :
    beValue (b ++ [x]) = beValue b * 256 + x.toNat := by
  simp [beValue, List.foldl_append]

/-- The `k` bytes `putBE` writes read back modulo `256 ^ k`. -/
theorem beValue_putBE (k i : Nat) : beValue (putBE k i) = i % 256 ^ k := by
  induction k generalizing i with
  | zero => simp [putBE, beValue, Nat.mod_one]
  | succ k ih =>
    rw [putBE, beValue_append_singleton, ih, UInt8.toNat_ofNat_mod, pow_succ', Nat.mod_mul]
    ring

/-- A number fits in `intsize` bytes. -/
theorem lt_pow_intsize (i : Nat) : i < 256 ^ intsize i :=
  Nat.lt_pow_succ_log_self (by norm_num) i

/-- A number below `256 ^ k` needs at most `k` bytes. -/
theorem intsize_le {i k : Nat} (h : i < 256 ^ k) (hk : 0 < k) : intsize i ≤ k := by
  rcases Nat.eq_zero_or_pos i with rfl | hi
  · simp [intsize]; omega
  · have := Nat.log_lt_of_lt_pow (b := 256) (by omega) h
    simp only [intsize]; omega

/-- A number below `256` needs one byte. -/
theorem intsize_of_lt {i : Nat} (h : i < 256) : intsize i = 1 := by
  simp [intsize, Nat.log_of_lt h]

/-- A number written in `intsize` bytes reads back. -/
theorem beValue_putBE_intsize (i : Nat) : beValue (putBE (intsize i) i) = i := by
  rw [beValue_putBE, Nat.mod_eq_of_lt (lt_pow_intsize i)]

/-- The leading byte of `putBE k i`. -/
theorem putBE_head (k i : Nat) :
    (putBE (k + 1) i).headD 0 = UInt8.ofNat (i / 256 ^ k) := by
  induction k generalizing i with
  | zero => simp [putBE]
  | succ k ih =>
    have hne : putBE (k + 1) (i / 256) ≠ [] := by
      intro h; simpa using congrArg List.length h
    obtain ⟨x, xs, hx⟩ := List.exists_cons_of_ne_nil hne
    have hx0 := ih (i / 256)
    rw [hx, List.headD_cons] at hx0
    rw [putBE, hx, List.cons_append, List.headD_cons, hx0, Nat.div_div_eq_div_mul, ← pow_succ']

/-- The minimal big-endian form of a positive number has no leading zero byte. -/
theorem putBE_intsize_head_ne_zero {i : Nat} (hi : 0 < i) :
    (putBE (intsize i) i).headD 0 ≠ 0 := by
  rw [intsize, putBE_head]
  have hlo : 256 ^ Nat.log 256 i ≤ i := Nat.pow_log_le_self 256 (by omega)
  have hhi : i < 256 ^ (Nat.log 256 i + 1) := Nat.lt_pow_succ_log_self (by norm_num) i
  have h1 : 1 ≤ i / 256 ^ Nat.log 256 i := (Nat.one_le_div_iff (by positivity)).2 hlo
  have h2 : i / 256 ^ Nat.log 256 i < 256 := by
    rw [Nat.div_lt_iff_lt_mul (by positivity), ← pow_succ']; exact hhi
  intro h
  have := congrArg UInt8.toNat h
  rw [UInt8.toNat_ofNat_mod, Nat.mod_eq_of_lt h2] at this
  simp at this; omega

/-! ## Encoding -/

/-- `puthead`: the header of a string (`small = 0x80`, `large = 0xB7`) or a list
(`small = 0xC0`, `large = 0xF7`) whose payload is `size` bytes. -/
def head (small large : UInt8) (size : Nat) : Bytes :=
  if size < 56 then [small + UInt8.ofNat size]
  else (large + UInt8.ofNat (intsize size)) :: putBE (intsize size) size

/-- `writeUint`: the encoding of an unsigned integer. -/
def encodeUint (i : UInt64) : Bytes :=
  if i = 0 then [0x80]
  else if i.toNat < 128 then [UInt8.ofNat i.toNat]
  else (0x80 + UInt8.ofNat (intsize i.toNat)) :: putBE (intsize i.toNat) i.toNat

/-- `writeBytes`: the encoding of a byte string or byte array. -/
def encodeString (b : Bytes) : Bytes :=
  if b.length = 1 ∧ b.headD 0 < 0x80 then b else head 0x80 0xB7 b.length ++ b

/-- The encoding of a list whose items encode to `payload`. -/
def encodeList (payload : Bytes) : Bytes := head 0xC0 0xF7 payload.length ++ payload

/-! ## Decoding -/

/-- The kinds of value `Stream.Kind` tells apart. -/
inductive Kind where
  | byte
  | string
  | list
  deriving DecidableEq, Repr

/-- `ErrCanonInt`. -/
def errCanonInt : Fault := .error "rlp: non-canonical integer format"

/-- `ErrCanonSize`. -/
def errCanonSize : Fault := .error "rlp: non-canonical size information"

/-- `ErrExpectedString`. -/
def errExpectedString : Fault := .error "rlp: expected String or Byte"

/-- `ErrExpectedList`. -/
def errExpectedList : Fault := .error "rlp: expected List"

/-- `ErrValueTooLarge`. -/
def errValueTooLarge : Fault := .error "rlp: value size exceeds available input length"

/-- `errUintOverflow`. -/
def errUintOverflow : Fault := .error "rlp: uint overflow"

/-- `io.EOF` from an exhausted stream. -/
def errEOF : Fault := .error "EOF"

/-- The payload of `size` bytes at the front of `input`, and what follows it. -/
def takePayload (kind : Kind) (size : Nat) (input : Bytes) :
    Except Fault (Kind × Bytes × Bytes) :=
  if size ≤ input.length then .ok (kind, input.take size, input.drop size)
  else .error errValueTooLarge

/-- `Stream.readKind` for a header whose size is given in `lenlen` further bytes: the
size must not have a leading zero and must be at least 56. -/
def readLongPayload (kind : Kind) (lenlen : Nat) (input : Bytes) :
    Except Fault (Kind × Bytes × Bytes) :=
  if input.length < lenlen then .error errEOF
  else if 1 < lenlen ∧ input.headD 0 = 0 then .error errCanonSize
  else
    let size := beValue (input.take lenlen)
    if size < 56 then .error errCanonSize else takePayload kind size (input.drop lenlen)

/-- `Stream.Kind`: the next value's kind, its payload (the byte itself for a single
byte) and the input after it. -/
def readKind : Bytes → Except Fault (Kind × Bytes × Bytes)
  | [] => .error errEOF
  | b :: rest =>
    if b < 0x80 then .ok (.byte, [b], rest)
    else if b < 0xB8 then takePayload .string (b - 0x80).toNat rest
    else if b < 0xC0 then readLongPayload .string (b - 0xB7).toNat rest
    else if b < 0xF8 then takePayload .list (b - 0xC0).toNat rest
    else readLongPayload .list (b - 0xF7).toNat rest

/-- `Stream.uint` into a Go `uint64` (also a Go `uint`): the value and the input after
it. -/
def decodeUint (input : Bytes) : Except Fault (UInt64 × Bytes) :=
  match readKind input with
  | .error e => .error e
  | .ok (.byte, p, rest) =>
    if p.headD 0 = 0 then .error errCanonInt else .ok (UInt64.ofNat (p.headD 0).toNat, rest)
  | .ok (.string, p, rest) =>
    if 8 < p.length then .error errUintOverflow
    else if 1 < p.length ∧ p.headD 0 = 0 then .error errCanonInt
    else if 0 < p.length ∧ beValue p < 128 then .error errCanonSize
    else .ok (UInt64.ofNat (beValue p), rest)
  | .ok (.list, _, _) => .error errExpectedString

/-- `decodeByteArray` into a `[n]byte`: the array and the input after it. -/
def decodeByteArray (n : Nat) (input : Bytes) : Except Fault (Bytes × Bytes) :=
  match readKind input with
  | .error e => .error e
  | .ok (.byte, p, rest) =>
    if n = 0 then .error (.error "rlp: input string too long")
    else if 1 < n then .error (.error "rlp: input string too short")
    else .ok (p, rest)
  | .ok (.string, p, rest) =>
    if n < p.length then .error (.error "rlp: input string too long")
    else if p.length < n then .error (.error "rlp: input string too short")
    else if p.length = 1 ∧ p.headD 0 < 0x80 then .error errCanonSize
    else .ok (p, rest)
  | .ok (.list, _, _) => .error errExpectedString

/-- `Stream.List`: the payload of the list at the front of `input`, and what follows. -/
def decodeList (input : Bytes) : Except Fault (Bytes × Bytes) :=
  match readKind input with
  | .error e => .error e
  | .ok (.list, p, rest) => .ok (p, rest)
  | .ok (_, _, _) => .error errExpectedList

end Rlpx.Rlp

namespace Rlpx.Rlp

/-! ## Round trips -/

/-- Taking a payload of its own length from the input returns it and the rest. -/
theorem takePayload_append {kind : Kind} {b rest : Bytes} {n : Nat} (h : b.length = n) :
    takePayload kind n (b ++ rest) = .ok (kind, b, rest) := by
  subst h; simp [takePayload]

/-- A header with its size in `intsize size` further bytes reads back, whatever follows. -/
theorem readLongPayload_putBE {kind : Kind} {b rest : Bytes} (h : 56 ≤ b.length) :
    readLongPayload kind (intsize b.length) (putBE (intsize b.length) b.length ++ b ++ rest) =
      .ok (kind, b, rest) := by
  have hlen := length_putBE (intsize b.length) b.length
  have hhead : (putBE (intsize b.length) b.length ++ b ++ rest).headD 0 =
      (putBE (intsize b.length) b.length).headD 0 := by
    cases hP : putBE (intsize b.length) b.length with
    | nil => rw [hP] at hlen; simp [intsize] at hlen
    | cons x xs => rfl
  rw [readLongPayload, if_neg (by simp only [List.length_append, hlen]; omega),
    if_neg (by rw [hhead]; exact fun h' => putBE_intsize_head_ne_zero (by omega) h'.2)]
  simp only [List.append_assoc, List.take_left' hlen, List.drop_left' hlen,
    beValue_putBE_intsize, if_neg (show ¬ b.length < 56 by omega)]
  exact takePayload_append rfl

/-- A tag byte plus a small size does not wrap. -/
theorem toNat_tag_add {t : UInt8} {n : Nat} (h : t.toNat + n < 256) :
    (t + UInt8.ofNat n).toNat = t.toNat + n := by
  rw [UInt8.toNat_add, UInt8.toNat_ofNat_mod, Nat.mod_eq_of_lt (by omega : n < 256)]
  exact Nat.mod_eq_of_lt h

/-- A header tag minus its base is the offset added to it. -/
theorem toNat_tag_add_sub {t : UInt8} {n : Nat} (h : t.toNat + n < 256) :
    (t + UInt8.ofNat n - t).toNat = n := by
  rw [UInt8.toNat_sub_of_le _ _ (by rw [UInt8.le_iff_toNat_le, toNat_tag_add h]; omega),
    toNat_tag_add h, Nat.add_sub_cancel_left]

/-- A string header reads back as a string of its payload, whatever follows. -/
theorem readKind_stringHead {b rest : Bytes} (hb : b.length < 256 ^ 8) :
    readKind (head 0x80 0xB7 b.length ++ b ++ rest) = .ok (.string, b, rest) := by
  by_cases h : b.length < 56
  · have ht : (0x80 : UInt8).toNat + b.length < 256 := by simp [UInt8.size]; omega
    simp only [head, if_pos h, List.singleton_append, List.cons_append, readKind,
      UInt8.lt_iff_toNat_lt, toNat_tag_add ht]
    rw [if_neg (by simp only [UInt8.toNat_ofNat, UInt8.size]; omega), if_pos (by simp only [UInt8.toNat_ofNat, UInt8.size]; omega),
      toNat_tag_add_sub ht]
    exact takePayload_append rfl
  · have hk := intsize_le hb (by norm_num)
    have ht : (0xB7 : UInt8).toNat + intsize b.length < 256 := by simp [UInt8.size]; omega
    simp only [head, if_neg h, List.cons_append, readKind, UInt8.lt_iff_toNat_lt,
      toNat_tag_add ht]
    rw [if_neg (by simp only [UInt8.toNat_ofNat, UInt8.size]; omega), if_neg (by simp only [UInt8.toNat_ofNat, UInt8.size, intsize]; omega),
      if_pos (by simp only [UInt8.toNat_ofNat, UInt8.size]; omega), toNat_tag_add_sub ht]
    exact readLongPayload_putBE (by omega)

/-- A list header reads back as a list of its payload, whatever follows. -/
theorem readKind_listHead {p rest : Bytes} (hp : p.length < 256 ^ 8) :
    readKind (head 0xC0 0xF7 p.length ++ p ++ rest) = .ok (.list, p, rest) := by
  by_cases h : p.length < 56
  · have ht : (0xC0 : UInt8).toNat + p.length < 256 := by simp [UInt8.size]; omega
    simp only [head, if_pos h, List.singleton_append, List.cons_append, readKind,
      UInt8.lt_iff_toNat_lt, toNat_tag_add ht]
    rw [if_neg (by simp only [UInt8.toNat_ofNat, UInt8.size]; omega), if_neg (by simp only [UInt8.toNat_ofNat, UInt8.size]; omega),
      if_neg (by simp only [UInt8.toNat_ofNat, UInt8.size]; omega), if_pos (by simp only [UInt8.toNat_ofNat, UInt8.size]; omega),
      toNat_tag_add_sub ht]
    exact takePayload_append rfl
  · have hk := intsize_le hp (by norm_num)
    have ht : (0xF7 : UInt8).toNat + intsize p.length < 256 := by simp [UInt8.size]; omega
    simp only [head, if_neg h, List.cons_append, readKind, UInt8.lt_iff_toNat_lt,
      toNat_tag_add ht]
    rw [if_neg (by simp only [UInt8.toNat_ofNat, UInt8.size]; omega), if_neg (by simp only [UInt8.toNat_ofNat, UInt8.size]; omega),
      if_neg (by simp only [UInt8.toNat_ofNat, UInt8.size]; omega), if_neg (by simp only [UInt8.toNat_ofNat, UInt8.size, intsize]; omega),
      toNat_tag_add_sub ht]
    exact readLongPayload_putBE (by omega)

/-- An encoded list decodes back to its payload and the rest. -/
theorem decodeList_encodeList {p rest : Bytes} (hp : p.length < 256 ^ 8) :
    decodeList (encodeList p ++ rest) = .ok (p, rest) := by
  rw [decodeList, encodeList, readKind_listHead hp]

/-- `takePayload` returns the kind it was given. -/
theorem takePayload_kind {kind k : Kind} {n : Nat} {input p rest : Bytes}
    (h : takePayload kind n input = .ok (k, p, rest)) : k = kind := by
  unfold takePayload at h
  split at h <;> cases h
  rfl

/-- `readLongPayload` returns the kind it was given. -/
theorem readLongPayload_kind {kind k : Kind} {n : Nat} {input p rest : Bytes}
    (h : readLongPayload kind n input = .ok (k, p, rest)) : k = kind := by
  simp only [readLongPayload] at h
  split_ifs at h
  exact takePayload_kind h

/-- **Only a byte from `0xC0` up starts a list**: `Stream.List` fails on input that starts
with any other byte. -/
theorem decodeList_of_lt {b : UInt8} (rest : Bytes) (hb : b < 0xC0) :
    ∃ e, decodeList (b :: rest) = .error e := by
  rcases h : readKind (b :: rest) with e | ⟨k, p, r⟩
  · exact ⟨e, by rw [decodeList, h]⟩
  · have hk : k ≠ .list := by
      simp only [readKind] at h
      split_ifs at h
      · cases h; decide
      · rw [takePayload_kind h]; decide
      · rw [readLongPayload_kind h]; decide
    refine ⟨errExpectedList, ?_⟩
    rw [decodeList, h]
    cases k
    · rfl
    · rfl
    · exact absurd rfl hk

/-- A byte array of at least two bytes decodes from its encoding, whatever follows. -/
theorem decodeByteArray_encodeString {b rest : Bytes} (h2 : 2 ≤ b.length)
    (hb : b.length < 256 ^ 8) :
    decodeByteArray b.length (encodeString b ++ rest) = .ok (b, rest) := by
  rw [encodeString, if_neg (fun h => absurd h.1 (by omega)), decodeByteArray,
    readKind_stringHead hb]
  simp only [lt_self_iff_false, if_false]
  rw [if_neg (fun h => absurd h.1 (by omega))]

/-- A `uint64` encodes to at most nine bytes. -/
theorem length_encodeUint_le (i : UInt64) : (encodeUint i).length ≤ 9 := by
  have hk := intsize_le (i := i.toNat) (k := 8) (by simpa using i.toNat_lt_size) (by norm_num)
  unfold encodeUint
  split_ifs <;> simp; omega

/-- **A `uint64` decodes from its encoding**, whatever follows it. -/
theorem decodeUint_encodeUint (i : UInt64) (rest : Bytes) :
    decodeUint (encodeUint i ++ rest) = .ok (i, rest) := by
  have hi := i.toNat_lt_size
  rw [encodeUint]
  split_ifs with h0 h1
  · subst h0; simp [decodeUint, readKind, takePayload, beValue]
  · have h0' : i.toNat ≠ 0 := fun h => h0 (UInt64.toNat.inj (by simpa using h))
    have hb : (UInt8.ofNat i.toNat).toNat = i.toNat := by simp; omega
    simp only [decodeUint, List.singleton_append, readKind, UInt8.lt_iff_toNat_lt, hb,
      if_pos (show i.toNat < (0x80 : UInt8).toNat from h1), List.headD_cons]
    rw [if_neg (fun h => h0' (by rw [← hb, h]; rfl)), UInt64.ofNat_toNat_eq]
  · have hk := intsize_le (i := i.toNat) (k := 8) (by simpa using hi) (by norm_num)
    have ht : (0x80 : UInt8).toNat + intsize i.toNat < 256 := by
      simp only [UInt8.toNat_ofNat, UInt8.size]; omega
    have hne := putBE_intsize_head_ne_zero (i := i.toNat) (by omega)
    simp only [decodeUint, List.cons_append, readKind, UInt8.lt_iff_toNat_lt,
      toNat_tag_add ht]
    rw [if_neg (by simp only [UInt8.toNat_ofNat, UInt8.size]; omega),
      if_pos (by simp only [UInt8.toNat_ofNat, UInt8.size]; omega), toNat_tag_add_sub ht,
      takePayload_append (length_putBE _ _)]
    simp only [length_putBE, beValue_putBE_intsize]
    rw [if_neg (by omega), if_neg (fun h => hne h.2), if_neg (fun h => h1 h.2),
      UInt64.ofNat_toNat_eq]

end Rlpx.Rlp
