/-
# Hex text: `crypto.Hex` and `HexToECDSA`

`Hex` writes its argument in lower-case hex, hashes that text, and turns the letter at
position `i` upper-case when nibble `i` of the hash is above 7; the text comes back after
`0x`. The hash is Keccak-256 for P256 and SM3 for SM2, 32 bytes either way, and the loop
reads `hash[i/2]` for every position `i`: the argument may be at most 32 bytes.

* `hex_checksum`: up to 32 bytes, the result is `0x` and two characters a byte, which
  lower-cased are the plain hex encoding: the checksum only changes case.
* `hex_panics_long`: on more than 32 bytes, `Hex` panics with an index out of range.

S256 has no case in the switch, and `Hex` returns the empty string.

`SaveECDSA` stores a key as the hex of `FromECDSA`, and `HexToECDSA` reads such text:
`hexToECDSA_saveECDSA` says that the text of a 256-bit key loads back to the key, through
`hex.DecodeString` (`decodeString_encodeToString`) and `ToECDSA`.
-/
import Rlpx.Handshake
import Rlpx.Keys

namespace Rlpx

/-! ## The encoding -/

/-- `hextable` of `encoding/hex`, the bytes of `"0123456789abcdef"`. -/
def hextable : Bytes :=
  [0x30, 0x31, 0x32, 0x33, 0x34, 0x35, 0x36, 0x37, 0x38, 0x39, 0x61, 0x62, 0x63, 0x64, 0x65, 0x66]

/-- `hex.EncodeToString`, as the bytes of the string: `hextable[v>>4]`, `hextable[v&0x0f]`
for each byte `v`. -/
def encodeToString (a : Bytes) : Bytes :=
  a.flatMap fun v => [hextable.getD (v >>> 4).toNat 0, hextable.getD (v &&& 0x0f).toNat 0]

/-- `b[i]`: the byte at `i`, or Go's index panic. -/
def indexByte (b : Bytes) (i : Nat) : Except Fault UInt8 :=
  match b.get? i with
  | some v => .ok v
  | none => .error (.panic indexOutOfRange)

/-- One pass of the loop of `Hex` on `result[i] = c`. -/
def checksumByte (hash : Bytes) (i : Nat) (c : UInt8) : Except Fault UInt8 := do
  let hashByte ← indexByte hash (i / 2)
  let hashByte := if i % 2 = 0 then hashByte >>> 4 else hashByte &&& 0xf
  pure (if c > 0x39 ∧ hashByte > 7 then c - 32 else c)

/-- The loop of `Hex` from position `i` over the rest `cs` of `result`. -/
def checksumLoop (hash : Bytes) : Nat → Bytes → Except Fault Bytes
  | _, [] => pure []
  | i, c :: cs => do
    let c ← checksumByte hash i c
    let cs ← checksumLoop hash (i + 1) cs
    pure (c :: cs)

/-- The body shared by the P256 and SM2 cases of `Hex`, with their hash `H`: the bytes of
the returned string. -/
def checksumHex (H : Bytes → Bytes) (a : Bytes) : Except Fault Bytes := do
  let unchecksummed := encodeToString a
  let hash := H unchecksummed
  let result ← checksumLoop hash 0 unchecksummed
  pure ([0x30, 0x78] ++ result)

/-- `Hex`, with `keccak256` the legacy Keccak-256 of `sha3` and `sm3` the SM3 hash. -/
def hex (keccak256 sm3 : Bytes → Bytes) (ct : CryptoType) (a : Bytes) : Except Fault Bytes :=
  match ct with
  | .p256 => checksumHex keccak256 a
  | .sm2 => checksumHex sm3 a
  | .s256 => pure []

/-! ## The loop -/

/-- Lower-case ASCII letters, the comparison the checksum is made to pass. -/
def toLowerAscii (c : UInt8) : UInt8 := if 0x41 ≤ c ∧ c ≤ 0x5A then c + 32 else c

/-- `hex.EncodeToString` writes two characters a byte. -/
theorem length_encodeToString (a : Bytes) : (encodeToString a).length = 2 * a.length := by
  induction a with
  | nil => rfl
  | cons v a ih =>
    simp only [encodeToString, List.flatMap_cons, List.length_append] at ih ⊢
    rw [ih]
    simp
    omega

/-- Shifting a byte right by four keeps its high nibble. -/
theorem UInt8.toNat_shiftRight_four (v : UInt8) : (v >>> 4).toNat = v.toNat / 2 ^ 4 := by
  show (v.toBitVec >>> ((4 : UInt8).toBitVec % 8)).toNat = _
  rw [BitVec.ushiftRight_eq', BitVec.toNat_ushiftRight, Nat.shiftRight_eq_div_pow]; rfl

/-- Masking a byte with `0x0f` keeps its low nibble. -/
theorem UInt8.toNat_and_fifteen (v : UInt8) : (v &&& 0x0f).toNat = v.toNat % 2 ^ 4 := by
  show (v.toBitVec &&& (15 : UInt8).toBitVec).toNat = _
  rw [BitVec.toNat_and]
  exact Nat.and_pow_two_sub_one_eq_mod _ 4

/-- Each of the sixteen digits is in `hextable`. -/
theorem mem_hextable_getD {n : Nat} (h : n < 16) : hextable.getD n 0 ∈ hextable := by
  interval_cases n <;> decide

/-- `hex.EncodeToString` writes only digits of `hextable`. -/
theorem mem_hextable_of_mem_encodeToString {a : Bytes} {c : UInt8} (h : c ∈ encodeToString a) :
    c ∈ hextable := by
  simp only [encodeToString, List.mem_flatMap, List.mem_cons, List.not_mem_nil, or_false] at h
  obtain ⟨v, -, rfl | rfl⟩ := h
  · exact mem_hextable_getD (by rw [UInt8.toNat_shiftRight_four]; have := v.toNat_lt; omega)
  · exact mem_hextable_getD (by rw [UInt8.toNat_and_fifteen]; omega)

/-- A hex digit is its own lower case, and so is the upper case of one of its letters. -/
theorem toLowerAscii_hextable :
    ∀ c ∈ hextable, toLowerAscii c = c ∧ (c > 0x39 → toLowerAscii (c - 32) = c) := by
  decide

/-- The checksum changes only the case of a digit. -/
theorem toLowerAscii_checksumChar {c : UInt8} (hc : c ∈ hextable) (hashByte : UInt8) :
    toLowerAscii (if c > 0x39 ∧ hashByte > 7 then c - 32 else c) = c := by
  obtain ⟨hlow, hup⟩ := toLowerAscii_hextable c hc
  split_ifs with hl
  · exact hup hl.1
  · exact hlow

/-- A checksummed digit lowers back to the digit. -/
theorem toLowerAscii_checksumByte {hash : Bytes} {i : Nat} {c c' : UInt8} (hc : c ∈ hextable)
    (h : checksumByte hash i c = .ok c') : toLowerAscii c' = c := by
  simp only [checksumByte, Except.bind_eq_ok] at h
  obtain ⟨_, -, h⟩ := h
  rw [← Except.ok.inj h]
  exact toLowerAscii_checksumChar hc _

/-- Indexing within the length returns a byte. -/
theorem indexByte_of_lt {b : Bytes} {i : Nat} (h : i < b.length) : ∃ v, indexByte b i = .ok v := by
  rw [indexByte, List.get?_eq_get h]
  exact ⟨_, rfl⟩

/-- Indexing past the length panics. -/
theorem indexByte_of_le {b : Bytes} {i : Nat} (h : b.length ≤ i) :
    indexByte b i = .error (.panic indexOutOfRange) := by
  rw [indexByte, List.get?_eq_none.mpr h]

/-- **The loop in range**: while every position it visits has its hash byte, the loop
returns as many characters as it is given, each the given one up to case. -/
theorem checksumLoop_ok (hash : Bytes) :
    ∀ (cs : Bytes) (i : Nat), (∀ c ∈ cs, c ∈ hextable) → i + cs.length ≤ 2 * hash.length →
      ∃ r, checksumLoop hash i cs = .ok r ∧ r.length = cs.length ∧ r.map toLowerAscii = cs
  | [], _, _, _ => ⟨[], rfl, rfl, rfl⟩
  | c :: cs, i, hcs, hlen => by
    simp only [List.length_cons] at hlen
    obtain ⟨v, hv⟩ := indexByte_of_lt (b := hash) (i := i / 2) (by omega)
    obtain ⟨c', hc'⟩ : ∃ c', checksumByte hash i c = .ok c' :=
      ⟨_, by simp only [checksumByte, hv]; rfl⟩
    obtain ⟨r, hr, hrlen, hrlow⟩ :=
      checksumLoop_ok hash cs (i + 1) (fun x hx => hcs x (List.mem_cons_of_mem _ hx)) (by omega)
    refine ⟨c' :: r, by simp only [checksumLoop, hc', hr]; rfl, by simp [hrlen], ?_⟩
    rw [List.map_cons, hrlow, toLowerAscii_checksumByte (hcs c (List.mem_cons_self _ _)) hc']

/-- **The loop out of range**: when its positions run past twice the hash length, the
loop panics. -/
theorem checksumLoop_panics (hash : Bytes) :
    ∀ (cs : Bytes) (i : Nat), cs ≠ [] → 2 * hash.length < i + cs.length →
      checksumLoop hash i cs = .error (.panic indexOutOfRange)
  | [], _, hne, _ => absurd rfl hne
  | c :: cs, i, _, h => by
    have ih := checksumLoop_panics hash cs (i + 1)
    simp only [List.length_cons] at h
    by_cases hi : hash.length ≤ i / 2
    · simp only [checksumLoop, checksumByte, indexByte_of_le hi]; rfl
    · obtain ⟨v, hv⟩ := indexByte_of_lt (b := hash) (i := i / 2) (by omega)
      have hrest := ih (by rintro rfl; simp at h; omega) (by omega)
      rw [checksumLoop, hrest]
      simp only [checksumByte, hv]
      rfl

/-! ## `Hex` -/

section Hex

variable {keccak256 sm3 : Bytes → Bytes} {ct : CryptoType}

/-- P256 and SM2 run the shared body with their 32-byte hash. -/
theorem hex_eq_checksumHex (hK : ∀ b, (keccak256 b).length = 32)
    (hS : ∀ b, (sm3 b).length = 32) (hct : ct ≠ .s256) :
    ∃ H : Bytes → Bytes, (∀ b, (H b).length = 32) ∧ hex keccak256 sm3 ct = checksumHex H := by
  cases ct with
  | p256 => exact ⟨keccak256, hK, rfl⟩
  | sm2 => exact ⟨sm3, hS, rfl⟩
  | s256 => exact absurd rfl hct

/-- **The checksum only changes case.** For P256 and SM2 with 32-byte hashes, `Hex` of at
most 32 bytes returns `0x` and two characters a byte, which lower-cased are the plain hex
encoding. -/
theorem hex_checksum (hK : ∀ b, (keccak256 b).length = 32) (hS : ∀ b, (sm3 b).length = 32)
    (hct : ct ≠ .s256) {a : Bytes} (ha : a.length ≤ 32) :
    ∃ r, hex keccak256 sm3 ct a = .ok ([0x30, 0x78] ++ r) ∧ r.length = 2 * a.length ∧
      r.map toLowerAscii = encodeToString a := by
  obtain ⟨H, hH, heq⟩ := hex_eq_checksumHex hK hS hct
  have hlen := hH (encodeToString a)
  obtain ⟨r, hr, hrlen, hrlow⟩ := checksumLoop_ok (H (encodeToString a)) (encodeToString a) 0 (fun _ => mem_hextable_of_mem_encodeToString)
    (by rw [length_encodeToString, hlen]; omega)
  refine ⟨r, by simp only [heq, checksumHex, hr]; rfl, by rw [hrlen, length_encodeToString], hrlow⟩

/-- Twenty bytes `0xAB` with P256. -/
theorem hex_checksum_address :
    (∀ b : Bytes, (copyArray 32 b).length = 32) ∧ CryptoType.p256 ≠ .s256 ∧
      (List.replicate 20 (0xAB : UInt8)).length ≤ 32 ∧
      ∃ r, hex (copyArray 32) (copyArray 32) .p256 (List.replicate 20 0xAB) = .ok ([0x30, 0x78] ++ r) ∧
        r.length = 2 * (List.replicate 20 (0xAB : UInt8)).length ∧
        r.map toLowerAscii = encodeToString (List.replicate 20 0xAB) :=
  ⟨length_copyArray 32, by decide, by decide,
    hex_checksum (length_copyArray 32) (length_copyArray 32) (by decide) (by decide)⟩

/-- **`Hex` panics past 32 bytes.** For P256 and SM2 with 32-byte hashes, `Hex` of more than
32 bytes reads past the end of the hash. -/
theorem hex_panics_long (hK : ∀ b, (keccak256 b).length = 32) (hS : ∀ b, (sm3 b).length = 32)
    (hct : ct ≠ .s256) {a : Bytes} (ha : 32 < a.length) :
    hex keccak256 sm3 ct a = .error (.panic indexOutOfRange) := by
  obtain ⟨H, hH, heq⟩ := hex_eq_checksumHex hK hS hct
  have hlen := hH (encodeToString a)
  have hne : encodeToString a ≠ [] := by
    rw [← List.length_pos, length_encodeToString]; omega
  simp only [heq, checksumHex, checksumLoop_panics (H (encodeToString a)) (encodeToString a) 0 hne
    (by rw [length_encodeToString, hlen]; omega)]
  rfl

/-- A 33-byte key with SM2. -/
theorem hex_panics_long_key :
    (∀ b : Bytes, (copyArray 32 b).length = 32) ∧ CryptoType.sm2 ≠ .s256 ∧
      32 < (List.replicate 33 (1 : UInt8)).length ∧
      hex (copyArray 32) (copyArray 32) .sm2 (List.replicate 33 1) =
        .error (.panic indexOutOfRange) :=
  ⟨length_copyArray 32, by decide, by decide,
    hex_panics_long (length_copyArray 32) (length_copyArray 32) (by decide) (by decide)⟩

end Hex

/-! ## Decoding hex, and keys stored as hex -/

/-- `fromHexChar` of `encoding/hex`: the value of a hex digit of either case. -/
def fromHexChar (c : UInt8) : Option UInt8 :=
  if 0x30 ≤ c ∧ c ≤ 0x39 then some (c - 0x30)
  else if 0x61 ≤ c ∧ c ≤ 0x66 then some (c - 0x61 + 10)
  else if 0x41 ≤ c ∧ c ≤ 0x46 then some (c - 0x41 + 10)
  else none

/-- `hex.DecodeString` on the bytes of the string, `none` for its errors: an odd length or
a byte that is not a hex digit. -/
def decodeString : Bytes → Option Bytes
  | [] => some []
  | [_] => none
  | a :: b :: rest => do
    let hi ← fromHexChar a
    let lo ← fromHexChar b
    let r ← decodeString rest
    pure ((hi <<< 4 ||| lo) :: r)

variable {Pub : Type}

/-- `HexToECDSA`. -/
def hexToECDSA (curves : CryptoType → Curve Pub) (ct : CryptoType) (hexkey : Bytes) :
    Except Fault (PrivateKey Pub) :=
  match decodeString hexkey with
  | none => .error (.error "invalid hex string")
  | some b => ToECDSA curves ct b

/-- The bytes `SaveECDSA` writes to its file. -/
def saveECDSA (key : Option (PrivateKey Pub)) : Bytes := encodeToString (fromECDSA key)

/-- Shifting a byte left by four moves its low nibble up. -/
theorem UInt8.toNat_shiftLeft_four (v : UInt8) : (v <<< 4).toNat = v.toNat * 2 ^ 4 % 2 ^ 8 := by
  show (v.toBitVec <<< ((4 : UInt8).toBitVec % 8)).toNat = _
  rw [BitVec.shiftLeft_eq', BitVec.toNat_shiftLeft, Nat.shiftLeft_eq]; rfl

/-- Or of bytes is or of their values. -/
theorem UInt8.toNat_or (a b : UInt8) : (a ||| b).toNat = a.toNat ||| b.toNat :=
  BitVec.toNat_or ..

/-- A byte is its high nibble shifted back, or-ed with its low nibble. -/
theorem UInt8.nibbles_eq (v : UInt8) : (v >>> 4) <<< 4 ||| (v &&& 0x0f) = v := by
  apply UInt8.toNat.inj
  have hv := v.toNat_lt
  rw [UInt8.toNat_or, UInt8.toNat_shiftLeft_four, UInt8.toNat_shiftRight_four,
    UInt8.toNat_and_fifteen, show v.toNat / 2 ^ 4 * 2 ^ 4 % 2 ^ 8 = 2 ^ 4 * (v.toNat / 2 ^ 4) by omega,
    two_pow_mul_or (Nat.mod_lt _ (by norm_num))]
  omega

/-- `fromHexChar` reads each digit of `hextable` back to its value. -/
theorem fromHexChar_hextable {x : UInt8} (hx : x.toNat < 16) :
    fromHexChar (hextable.getD x.toNat 0) = some x := by
  have h : ∀ n < 16, fromHexChar (hextable.getD n 0) = some (UInt8.ofNat n) := by
    intro n hn
    interval_cases n <;> decide
  rw [h _ hx]
  exact congrArg some (UInt8.toNat.inj (by rw [UInt8.toNat_ofNat_mod]; omega))

/-- **`hex.DecodeString` inverts `hex.EncodeToString`.** -/
theorem decodeString_encodeToString (a : Bytes) : decodeString (encodeToString a) = some a := by
  induction a with
  | nil => rfl
  | cons v a ih =>
    have hhi : (v >>> 4).toNat < 16 := by
      rw [UInt8.toNat_shiftRight_four]; have := v.toNat_lt; omega
    have hlo : (v &&& 0x0f).toNat < 16 := by rw [UInt8.toNat_and_fifteen]; omega
    simp only [encodeToString, List.flatMap_cons, List.cons_append, List.nil_append] at ih ⊢
    simp only [decodeString, fromHexChar_hextable hhi, fromHexChar_hextable hlo, ih]
    exact congrArg (fun b => some (b :: a)) (UInt8.nibbles_eq v)

/-- **A stored key loads back.** For a key on a 256-bit curve, the curve of its
`CryptoType`, whose scalar is between 0 and the order of secp256k1 and whose public key is
what `ScalarBaseMult` gives for its exported bytes: `HexToECDSA` of the text `SaveECDSA`
writes for the key is the key. -/
theorem hexToECDSA_saveECDSA {curves : CryptoType → Curve Pub} {ct : CryptoType}
    {k : PrivateKey Pub} (hcurve : curves ct = k.curve) (hbits : k.curve.bitSize = 256)
    (hpos : 0 < k.d) (hlt : k.d < secp256k1N)
    (hpub : k.curve.scalarBaseMult (fromECDSA (some k)) = some k.publicKey) :
    hexToECDSA curves ct (saveECDSA (some k)) = .ok k := by
  rw [hexToECDSA, saveECDSA, decodeString_encodeToString]
  show toECDSA (curves ct) (fromECDSA (some k)) true = .ok k
  rw [hcurve]
  exact toECDSA_fromECDSA hbits hpos hlt hpub

/-- The key `1` on a 256-bit curve. -/
theorem hexToECDSA_saveECDSA_one :
    (fun _ => ⟨256, fun _ => some 0⟩ : CryptoType → Curve Nat) .p256 = ⟨256, fun _ => some 0⟩ ∧
      (⟨⟨256, fun _ => some 0⟩, 1, 0⟩ : PrivateKey Nat).curve.bitSize = 256 ∧
      0 < (⟨⟨256, fun _ => some 0⟩, 1, 0⟩ : PrivateKey Nat).d ∧
      (⟨⟨256, fun _ => some 0⟩, 1, 0⟩ : PrivateKey Nat).d < secp256k1N ∧
      hexToECDSA (fun _ => ⟨256, fun _ => some 0⟩) .p256
        (saveECDSA (some (⟨⟨256, fun _ => some 0⟩, 1, 0⟩ : PrivateKey Nat))) =
        .ok ⟨⟨256, fun _ => some 0⟩, 1, 0⟩ :=
  ⟨rfl, rfl, by decide, by decide, hexToECDSA_saveECDSA rfl rfl (by decide) (by decide) rfl⟩

end Rlpx
