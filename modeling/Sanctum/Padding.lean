/-
Padding, which hides the length of a message.

A padded message is its length, four bytes in big-endian order, the message itself, and random bytes up
to the end of a block.  On a machine of 64 bits nothing overflows, and what comes out is as short as
blocks allow.  A vector has at most `isize::MAX` bytes, which is less than the largest power of two that
`usize` has.

Main definitions:

* `Sanctum.pad`, `Sanctum.unpad` — padding and taking it off, with `none` where the program stops;
* `Sanctum.PaddingBlock` — the block sizes of rooms, and the other powers of two that a vector can hold;
* `Sanctum.announcedLength` — the length at the beginning of a padded message.

Main results:

* `Sanctum.isLeast_divCeil_mul` — rounding up gives the least multiple;
* `Sanctum.pad_eq` — what padding makes of a message;
* `Sanctum.unpad_eq` — what taking it off makes of any bytes;
* `Sanctum.padding_exact` — **padding can be undone, is as short as possible and shows nothing but the
  number of blocks**.
-/

import Sanctum.Codec
import Sanctum.Room

set_option relaxedAutoImplicit false
set_option autoImplicit false

namespace Sanctum

/-! ### The operations -/

/-- `usize::is_power_of_two`. -/
def isPowerOfTwoUsize (n : UInt64) : Bool := (List.range 64).any fun k => n.toNat = 2 ^ k

/-- `usize::div_ceil`. -/
def divCeil (lhs rhs : ℕ) : ℕ :=
  if 0 < lhs % rhs then lhs / rhs + 1 else lhs / rhs

/-- `isize::MAX`. -/
def isizeMax : ℕ := 2 ^ 63 - 1

/-- The generator of the system: as many random bytes as are asked for. -/
abbrev FillBytes : Type := (count : ℕ) → {bytes : Bytes // bytes.length = count}

/-- Pad a message to a multiple of the block size. -/
def pad (fillBytes : FillBytes) (plaintext : Bytes) (blockSize : UInt64) : Option Bytes :=
  -- the two assertions
  if ¬ 8 ≤ blockSize then none
  else if !isPowerOfTwoUsize blockSize then none
  else
    let realLen := UInt32.ofNat plaintext.length
    let needed := 4 + plaintext.length
    let paddedLen := divCeil needed blockSize.toNat * blockSize.toNat
    -- `Vec::with_capacity` panics
    if isizeMax < paddedLen then none
    else
      let padBytes := paddedLen - needed
      some (putU32 realLen ++ plaintext ++ if 0 < padBytes then (fillBytes padBytes).1 else [])

/-- `&bytes[start..stop]`, which panics if it is not within the bytes. -/
def byteSlice (bytes : Bytes) (start stop : ℕ) : Option Bytes :=
  if start ≤ stop ∧ stop ≤ bytes.length then some ((bytes.take stop).drop start) else none

/-- Remove padding and extract the original message. -/
def unpad (padded : Bytes) : Option (Except SanctumError Bytes) :=
  if padded.length < 4 then some (.error (.malformedMessage "padded data too short"))
  else do
    let b₀ ← padded[0]?
    let b₁ ← padded[1]?
    let b₂ ← padded[2]?
    let b₃ ← padded[3]?
    let realLen := (fromBeBytes b₀ b₁ b₂ b₃).toNat
    if 4 + realLen > padded.length then
      some (.error (.malformedMessage "padding length prefix exceeds data"))
    else
      let message ← byteSlice padded 4 (4 + realLen)
      some (.ok message)

/-- **The block sizes** that rooms have after `RoomConfig::validate`, and the other powers of two from 8
on, as far as a vector can be as long as a block. -/
def PaddingBlock (blockSize : UInt64) : Prop :=
  (∃ config : RoomConfig, blockSize = config.validate.messagePaddingBlock.toUInt64) ∨
    isPowerOfTwoUsize blockSize ∧ 8 ≤ blockSize ∧ blockSize.toNat ≤ isizeMax

/-- The length at the beginning of a padded message. -/
def announcedLength : Bytes → ℕ
  | b₀ :: b₁ :: b₂ :: b₃ :: _ => (fromBeBytes b₀ b₁ b₂ b₃).toNat
  | _ => 0

/-! ### Rounding up -/

theorem divCeil_eq_ceilDiv {b : ℕ} (hb : 0 < b) (n : ℕ) : divCeil n b = n ⌈/⌉ b := by
  have hdiv := Nat.div_add_mod n b
  have hmod := Nat.mod_lt n hb
  rw [Nat.ceilDiv_eq_add_pred_div, divCeil]
  symm
  split_ifs with hpos
  · refine Nat.div_eq_of_lt_le ?_ ?_
    · rw [Nat.add_mul, Nat.mul_comm]
      omega
    · rw [Nat.add_mul, Nat.add_mul, Nat.mul_comm]
      omega
  · refine Nat.div_eq_of_lt_le ?_ ?_
    · rw [Nat.mul_comm]
      omega
    · rw [Nat.add_mul, Nat.mul_comm]
      omega

/-- **Rounding up gives the least multiple** that is large enough. -/
theorem isLeast_divCeil_mul {b : ℕ} (hb : 0 < b) (n : ℕ) :
    IsLeast {m | b ∣ m ∧ n ≤ m} (divCeil n b * b) := by
  rw [divCeil_eq_ceilDiv hb]
  constructor
  · refine ⟨Dvd.intro_left _ rfl, ?_⟩
    rw [Nat.mul_comm]
    exact (ceilDiv_le_iff_le_mul hb).1 le_rfl
  · rintro m ⟨⟨k, rfl⟩, hle⟩
    rw [Nat.mul_comm]
    exact Nat.mul_le_mul_left b ((ceilDiv_le_iff_le_mul hb).2 hle)

/-- Powers of two are multiples of the smaller ones. -/
theorem divCeil_mul_le {n i j : ℕ} (hle : i ≤ j) (hn : n ≤ 2 ^ j) : divCeil n (2 ^ i) * 2 ^ i ≤ 2 ^ j :=
  (isLeast_divCeil_mul (Nat.two_pow_pos i) n).2 ⟨pow_dvd_pow 2 hle, hn⟩

/-! ### Block sizes -/

theorem isPowerOfTwoUsize_iff {n : UInt64} :
    isPowerOfTwoUsize n = true ↔ ∃ k < 64, n.toNat = 2 ^ k := by
  simp [isPowerOfTwoUsize, List.any_eq_true]

/-- What `RoomConfig::validate` leaves: a power of two from 64 to 1024. -/
theorem messagePaddingBlock_validate (config : RoomConfig) :
    ∃ k, 6 ≤ k ∧ k ≤ 10 ∧ config.validate.messagePaddingBlock.toNat = 2 ^ k := by
  unfold RoomConfig.validate
  dsimp only
  split_ifs with hbad
  · exact ⟨8, by omega, by omega, rfl⟩
  · obtain ⟨⟨hpower, hlow⟩, hhigh⟩ : (isPowerOfTwo config.messagePaddingBlock = true ∧
        ¬ config.messagePaddingBlock < 64) ∧ ¬ 1024 < config.messagePaddingBlock := by
      simpa only [Bool.or_eq_true, Bool.not_eq_true', decide_eq_true_eq, not_or, Bool.not_eq_false,
        gt_iff_lt] using hbad
    obtain ⟨k, hk, hpow⟩ : ∃ k < 16, config.messagePaddingBlock.toNat = 2 ^ k := by
      simpa [isPowerOfTwo, List.any_eq_true] using hpower
    rw [UInt16.lt_iff_toNat_lt, hpow] at hlow hhigh
    refine ⟨k, ?_, ?_, hpow⟩
    · exact (Nat.pow_le_pow_iff_right (by norm_num : 1 < 2)).1 (not_lt.1 hlow : 2 ^ 6 ≤ 2 ^ k)
    · exact (Nat.pow_le_pow_iff_right (by norm_num : 1 < 2)).1 (not_lt.1 hhigh : 2 ^ k ≤ 2 ^ 10)

/-- A block size is a power of two that passes the assertions. -/
theorem PaddingBlock.exists_eq_pow {blockSize : UInt64} (h : PaddingBlock blockSize) :
    ∃ k, 3 ≤ k ∧ k ≤ 62 ∧ blockSize.toNat = 2 ^ k := by
  rcases h with ⟨config, rfl⟩ | ⟨hpower, hlow, hhigh⟩
  · obtain ⟨k, hlow, hhigh, hpow⟩ := messagePaddingBlock_validate config
    exact ⟨k, by omega, by omega, hpow⟩
  · obtain ⟨k, hk, hpow⟩ := isPowerOfTwoUsize_iff.1 hpower
    rw [UInt64.le_iff_toNat_le, hpow] at hlow
    rw [hpow] at hhigh
    refine ⟨k, (Nat.pow_le_pow_iff_right (by norm_num : 1 < 2)).1 (hlow : 2 ^ 3 ≤ 2 ^ k), ?_, hpow⟩
    by_contra hgt
    obtain rfl : k = 63 := by omega
    exact absurd hhigh (by decide)

/-! ### Padding -/

variable {fillBytes fillBytes' : FillBytes} {plaintext plaintext' : Bytes} {blockSize : UInt64}

/-- The length of a padded message. -/
def paddedLength (blockSize : UInt64) (length : ℕ) : ℕ :=
  divCeil (4 + length) blockSize.toNat * blockSize.toNat

/-- **What padding makes of a message**: the assertions hold, and the vector is not too long. -/
theorem pad_eq (fillBytes : FillBytes) (hblock : PaddingBlock blockSize)
    (hlen : plaintext.length < 2 ^ 32) :
    ∃ fill : Bytes, fill.length = paddedLength blockSize plaintext.length - (4 + plaintext.length) ∧
      pad fillBytes plaintext blockSize =
        some (putU32 (UInt32.ofNat plaintext.length) ++ plaintext ++ fill) := by
  obtain ⟨k, hlow, hhigh, hpow⟩ := hblock.exists_eq_pow
  have height : 8 ≤ blockSize := by
    rw [UInt64.le_iff_toNat_le, hpow]
    exact Nat.pow_le_pow_right (by norm_num : 0 < 2) hlow
  have hpower : isPowerOfTwoUsize blockSize = true := isPowerOfTwoUsize_iff.2 ⟨k, by omega, hpow⟩
  have hshort : paddedLength blockSize plaintext.length ≤ isizeMax := by
    rw [paddedLength, hpow]
    exact (divCeil_mul_le hhigh (by omega)).trans (by decide)
  have hassert : ¬ (!isPowerOfTwoUsize blockSize) = true := by rw [hpower]; exact Bool.false_ne_true
  refine ⟨if 0 < paddedLength blockSize plaintext.length - (4 + plaintext.length) then
    (fillBytes (paddedLength blockSize plaintext.length - (4 + plaintext.length))).1 else [], ?_, ?_⟩
  · split_ifs with hpos
    · exact (fillBytes _).2
    · exact (Nat.eq_zero_of_not_pos hpos).symm
  · unfold pad
    rw [if_neg (not_not.2 height), if_neg hassert]
    exact if_neg (Nat.not_lt.2 hshort)

theorem paddedLength_isLeast (hblock : PaddingBlock blockSize) (length : ℕ) :
    IsLeast {m | blockSize.toNat ∣ m ∧ 4 + length ≤ m} (paddedLength blockSize length) := by
  obtain ⟨k, -, -, hpow⟩ := hblock.exists_eq_pow
  exact isLeast_divCeil_mul (hpow ▸ Nat.two_pow_pos k) _

/-- The length of what padding makes. -/
theorem length_of_pad (hblock : PaddingBlock blockSize) (hlen : plaintext.length < 2 ^ 32)
    {padded : Bytes} (h : pad fillBytes plaintext blockSize = some padded) :
    padded.length = paddedLength blockSize plaintext.length := by
  obtain ⟨fill, hfill, heq⟩ := pad_eq fillBytes hblock hlen
  obtain rfl := Option.some_inj.1 (h.symm.trans heq)
  have hle := (paddedLength_isLeast hblock plaintext.length).1.2
  have hfour : (putU32 (UInt32.ofNat plaintext.length)).length = 4 := rfl
  rw [List.length_append, List.length_append, hfour, hfill]
  omega

/-! ### Taking it off -/

/-- What `unpad` makes of bytes that announce a length. -/
theorem unpad_cons (b₀ b₁ b₂ b₃ : UInt8) (rest : Bytes) : unpad (b₀ :: b₁ :: b₂ :: b₃ :: rest) =
    if rest.length < (fromBeBytes b₀ b₁ b₂ b₃).toNat then
      some (.error (.malformedMessage "padding length prefix exceeds data"))
    else some (.ok (rest.take (fromBeBytes b₀ b₁ b₂ b₃).toNat)) := by
  have hlength : (b₀ :: b₁ :: b₂ :: b₃ :: rest).length = rest.length + 4 := rfl
  have hunpad : unpad (b₀ :: b₁ :: b₂ :: b₃ :: rest) =
      if (b₀ :: b₁ :: b₂ :: b₃ :: rest).length < 4 then
        some (.error (.malformedMessage "padded data too short"))
      else if 4 + (fromBeBytes b₀ b₁ b₂ b₃).toNat > (b₀ :: b₁ :: b₂ :: b₃ :: rest).length then
        some (.error (.malformedMessage "padding length prefix exceeds data"))
      else (byteSlice (b₀ :: b₁ :: b₂ :: b₃ :: rest) 4 (4 + (fromBeBytes b₀ b₁ b₂ b₃).toNat)).bind
        fun message => some (.ok message) := rfl
  rw [hunpad, if_neg (by omega)]
  by_cases hlong : rest.length < (fromBeBytes b₀ b₁ b₂ b₃).toNat
  · rw [if_pos (by omega), if_pos hlong]
  · rw [if_neg (by omega), if_neg hlong, byteSlice, if_pos (by omega), Nat.add_comm 4]
    rfl

/-- **What `unpad` makes of any bytes**: it reads nothing beyond them. -/
theorem unpad_eq (bytes : Bytes) : unpad bytes =
    if bytes.length < 4 then some (.error (.malformedMessage "padded data too short"))
    else if bytes.length < 4 + announcedLength bytes then
      some (.error (.malformedMessage "padding length prefix exceeds data"))
    else some (.ok ((bytes.drop 4).take (announcedLength bytes))) := by
  rcases bytes with _ | ⟨b₀, _ | ⟨b₁, _ | ⟨b₂, _ | ⟨b₃, rest⟩⟩⟩⟩
  · rfl
  · rfl
  · rfl
  · rfl
  · have hlength : (b₀ :: b₁ :: b₂ :: b₃ :: rest).length = rest.length + 4 := rfl
    have hlong : ¬ (b₀ :: b₁ :: b₂ :: b₃ :: rest).length < 4 := by omega
    rw [unpad_cons, if_neg hlong]
    refine if_congr ?_ rfl rfl
    rw [hlength, announcedLength, Nat.add_comm rest.length]
    exact (Nat.add_lt_add_iff_left).symm

/-- **`unpad` fails with an error exactly on bytes that are too short**, and nowhere else. -/
theorem unpad_error_iff (bytes : Bytes) : unpad bytes ≠ none ∧
    ((∃ e, unpad bytes = some (.error e)) ↔
      bytes.length < 4 ∨ bytes.length < 4 + announcedLength bytes) := by
  rw [unpad_eq]
  split_ifs with hshort hlong
  · exact ⟨nofun, iff_of_true ⟨_, rfl⟩ (Or.inl hshort)⟩
  · exact ⟨nofun, iff_of_true ⟨_, rfl⟩ (Or.inr hlong)⟩
  · exact ⟨nofun, iff_of_false (by rintro ⟨e, ⟨⟩⟩) (not_or_intro hshort hlong)⟩

/-- Taking the padding off gives the message back, whatever fills the block. -/
theorem unpad_putU32 (hlen : plaintext.length < 2 ^ 32) (fill : Bytes) :
    unpad (putU32 (UInt32.ofNat plaintext.length) ++ plaintext ++ fill) = some (.ok plaintext) := by
  have hnum : (UInt32.ofNat plaintext.length).toNat = plaintext.length :=
    UInt32.toNat_ofNat_of_lt' hlen
  rw [List.append_assoc, putU32, List.cons_append, List.cons_append, List.cons_append, List.cons_append,
    List.nil_append, unpad_cons, fromBeBytes_putU32, hnum, List.length_append,
    if_neg (Nat.not_lt.2 (Nat.le_add_right _ _)), List.take_left]

/-! ### Exactness -/

/-- **Padding can be undone, is as short as possible and shows nothing but the number of blocks.** -/
theorem padding_exact (hblock : PaddingBlock blockSize) :
    (∀ fillBytes plaintext, plaintext.length < 2 ^ 32 → ∃ padded,
      pad fillBytes plaintext blockSize = some padded ∧ unpad padded = some (.ok plaintext) ∧
        IsLeast {m | blockSize.toNat ∣ m ∧ 4 + plaintext.length ≤ m} padded.length) ∧
    (∀ fillBytes fillBytes' plaintext plaintext' padded padded',
      plaintext.length < 2 ^ 32 → plaintext'.length < 2 ^ 32 →
        pad fillBytes plaintext blockSize = some padded →
        pad fillBytes' plaintext' blockSize = some padded' →
          (padded.length = padded'.length ↔
            (4 + plaintext.length) ⌈/⌉ blockSize.toNat =
              (4 + plaintext'.length) ⌈/⌉ blockSize.toNat)) ∧
    ∀ bytes, unpad bytes ≠ none ∧ ((∃ e, unpad bytes = some (.error e)) ↔
      bytes.length < 4 ∨ bytes.length < 4 + announcedLength bytes) := by
  refine ⟨?_, ?_, unpad_error_iff⟩
  · intro fillBytes plaintext hlen
    obtain ⟨fill, -, heq⟩ := pad_eq fillBytes hblock hlen
    refine ⟨_, heq, unpad_putU32 hlen fill, ?_⟩
    rw [length_of_pad hblock hlen heq]
    exact paddedLength_isLeast hblock plaintext.length
  · intro fillBytes fillBytes' plaintext plaintext' padded padded' hlen hlen' h h'
    obtain ⟨k, -, -, hpow⟩ := hblock.exists_eq_pow
    have hpos : 0 < blockSize.toNat := hpow ▸ Nat.two_pow_pos k
    rw [length_of_pad hblock hlen h, length_of_pad hblock hlen' h', paddedLength, paddedLength,
      divCeil_eq_ceilDiv hpos, divCeil_eq_ceilDiv hpos]
    exact Nat.mul_left_inj hpos.ne'

/-- A block that is filled with zeros. -/
def zeroFill : FillBytes := fun count => ⟨List.replicate count 0, List.length_replicate⟩

/-- The blocks of the default configuration. -/
theorem padding_exact_default : ∃ padded, pad zeroFill [104, 105] 256 = some padded ∧
    unpad padded = some (.ok [104, 105]) ∧ IsLeast {m | 256 ∣ m ∧ 6 ≤ m} padded.length :=
  (padding_exact (Or.inl ⟨.default, rfl⟩)).1 zeroFill [104, 105] (by decide)

/-- **With the largest power of two, padding stops the program.** -/
theorem pad_of_largest_block : isPowerOfTwoUsize 9223372036854775808 = true ∧
    (8 : UInt64) ≤ 9223372036854775808 ∧ pad zeroFill [] 9223372036854775808 = none := by
  refine ⟨by decide, by decide, rfl⟩

end Sanctum
