/-
Texts and numbers as bytes.

What is signed and what is stored is made of the bytes of texts and of numbers in big-endian order.  A
text is determined by its bytes, and a number by its digits; the text of a room identifier and that of a
valid fingerprint have a fixed length.

Main definitions:

* `Sanctum.beBytes` — some bytes of a number, in big-endian order;
* `Sanctum.RoomId.asStr` — the text of a room identifier.

Main results:

* `Sanctum.asBytes_injective`, `Sanctum.beBytes_inj`, `Sanctum.toBeBytes_injective`,
  `Sanctum.RoomId.asStr_injective` — nothing is lost;
* `Sanctum.RoomId.length_asStr`, `Sanctum.RoomId.mem_asStr` — the text of a room identifier has 36
  bytes, all of them hexadecimal digits or hyphens;
* `Sanctum.length_fingerprint` — a valid fingerprint has 40 bytes.
-/

import Sanctum.Room
import Sanctum.MessageService

set_option relaxedAutoImplicit false
set_option autoImplicit false

namespace Sanctum

/-! ### Texts -/

theorem asBytes_injective : Function.Injective asBytes := by
  intro a b h
  unfold asBytes at h
  rw [String.toUTF8_eq_toByteArray, String.toUTF8_eq_toByteArray] at h
  exact String.toByteArray_inj.1 (ByteArray.ext (Array.toList_inj.1 h))

theorem asBytes_ofList (chars : List Char) :
    asBytes (String.ofList chars) = chars.flatMap String.utf8EncodeChar := by
  unfold asBytes
  rw [String.toUTF8_eq_toByteArray, String.toByteArray_ofList, List.utf8Encode,
    List.toList_data_toByteArray]

theorem length_asBytes_ofList (chars : List Char) :
    (asBytes (String.ofList chars)).length = utf8Len chars := by
  rw [asBytes_ofList, List.length_flatMap]
  simp [utf8Len]

/-- A text of ASCII characters has one byte a character. -/
theorem asBytes_ofList_of_ascii {chars : List Char} (h : ∀ c ∈ chars, c.val ≤ 127) :
    asBytes (String.ofList chars) = chars.map fun c => c.val.toUInt8 := by
  rw [asBytes_ofList]
  induction chars with
  | nil => rfl
  | cons c chars ih =>
      rw [List.forall_mem_cons] at h
      rw [List.flatMap_cons, String.utf8EncodeChar_eq_singleton (Char.utf8Size_eq_one_iff.2 h.1),
        ih h.2]
      rfl

/-- **A valid fingerprint has 40 bytes.** -/
theorem length_fingerprint {text : String} {fp : Fingerprint} (h : Fingerprint.new text = .ok fp) :
    (asBytes fp.hex).length = 40 := by
  unfold Fingerprint.new at h
  dsimp only at h
  split at h
  · cases h
  · next hlength =>
      split at h
      · cases h
      · obtain rfl := Except.ok.inj h
        rw [length_asBytes_ofList]
        exact not_not.1 hlength

/-! ### Numbers -/

/-- A number is determined by its digits. -/
theorem eq_of_digits {b : ℕ} {k n m : ℕ} (hn : n < b ^ k) (hm : m < b ^ k)
    (h : ∀ i < k, n / b ^ i % b = m / b ^ i % b) : n = m := by
  induction k generalizing n m with
  | zero =>
      rw [pow_zero] at hn hm
      omega
  | succ k ih =>
      have hhead := h 0 (Nat.succ_pos k)
      rw [pow_zero, Nat.div_one, Nat.div_one] at hhead
      have htail : n / b = m / b := by
        rw [pow_succ] at hn hm
        refine ih (Nat.div_lt_of_lt_mul (by rwa [mul_comm])) (Nat.div_lt_of_lt_mul (by rwa [mul_comm]))
          ?_
        intro i hi
        have hi := h (i + 1) (Nat.succ_lt_succ hi)
        rwa [pow_succ', ← Nat.div_div_eq_div_mul, ← Nat.div_div_eq_div_mul] at hi
      rw [← Nat.div_add_mod n b, ← Nat.div_add_mod m b, hhead, htail]

/-- The last `k` bytes of a number, in big-endian order. -/
def beBytes (k n : ℕ) : Bytes := (List.range k).map fun i => UInt8.ofNat (n / 256 ^ (k - 1 - i))

@[simp] theorem length_beBytes (k n : ℕ) : (beBytes k n).length = k := by
  simp [beBytes]

theorem beBytes_inj {k n m : ℕ} (hn : n < 256 ^ k) (hm : m < 256 ^ k)
    (h : beBytes k n = beBytes k m) : n = m := by
  refine eq_of_digits hn hm ?_
  intro i hi
  have hbyte := List.map_inj_left.1 h (k - 1 - i) (List.mem_range.2 (by omega))
  have hindex : k - 1 - (k - 1 - i) = i := by omega
  rw [hindex] at hbyte
  have hnat := congrArg UInt8.toNat hbyte
  rwa [UInt8.toNat_ofNat', UInt8.toNat_ofNat'] at hnat

/-- `u64::to_be_bytes` writes all the bytes. -/
theorem toBeBytes_eq (n : UInt64) : toBeBytes n = beBytes 8 n.toNat := by
  refine List.map_congr_left ?_
  intro i hi
  have hlt : i < 8 := List.mem_range.1 hi
  have hshift : (56 - 8 * i) % 2 ^ 64 % 64 = 8 * (8 - 1 - i) := by omega
  refine UInt8.toNat_inj.1 ?_
  rw [UInt64.toNat_toUInt8, UInt64.toNat_shiftRight, UInt64.toNat_ofNat', UInt8.toNat_ofNat',
    Nat.shiftRight_eq_div_pow, hshift, pow_mul]
  norm_num

@[simp] theorem length_toBeBytes (n : UInt64) : (toBeBytes n).length = 8 := by
  rw [toBeBytes_eq, length_beBytes]

theorem toBeBytes_injective : Function.Injective toBeBytes := by
  intro n m h
  rw [toBeBytes_eq, toBeBytes_eq] at h
  exact UInt64.toNat_inj.1 (beBytes_inj n.toNat_lt m.toNat_lt h)

/-! ### Room identifiers -/

/-- A hexadecimal digit, in lower case. -/
def lowerHexDigit (n : ℕ) : Char := if n < 10 then Char.ofNat (48 + n) else Char.ofNat (87 + n)

namespace RoomId

/-- Some of the 32 hexadecimal digits of an identifier. -/
def hexDigits (id : RoomId) (start count : ℕ) : List Char :=
  (List.range count).map fun i => lowerHexDigit (id.uuid.toNat / 16 ^ (31 - (start + i)) % 16)

/-- The characters of an identifier, in groups of 8, 4, 4, 4 and 12 digits. -/
def chars (id : RoomId) : List Char :=
  id.hexDigits 0 8 ++ '-' :: (id.hexDigits 8 4 ++ '-' :: (id.hexDigits 12 4 ++
    '-' :: (id.hexDigits 16 4 ++ '-' :: id.hexDigits 20 12)))

/-- Full UUID string. -/
def asStr (id : RoomId) : String := String.ofList id.chars

theorem length_hexDigits (id : RoomId) (start count : ℕ) : (id.hexDigits start count).length = count := by
  simp [hexDigits]

theorem ascii_lowerHexDigit : ∀ n < 16, (lowerHexDigit n).val ≤ 127 ∧
    (lowerHexDigit n).val.toUInt8 ≠ 124 := by decide

theorem lowerHexDigit_inj : ∀ n < 16, ∀ m < 16, lowerHexDigit n = lowerHexDigit m → n = m := by
  decide

theorem mem_hexDigits {id : RoomId} {start count : ℕ} {c : Char} (h : c ∈ id.hexDigits start count) :
    c.val ≤ 127 ∧ c.val.toUInt8 ≠ 124 := by
  obtain ⟨i, -, rfl⟩ := List.mem_map.1 h
  exact ascii_lowerHexDigit _ (Nat.mod_lt _ (by norm_num))

theorem mem_chars {id : RoomId} {c : Char} (h : c ∈ id.chars) :
    c.val ≤ 127 ∧ c.val.toUInt8 ≠ 124 := by
  simp only [chars, List.mem_append, List.mem_cons] at h
  rcases h with h | rfl | h | rfl | h | rfl | h | rfl | h
  · exact mem_hexDigits h
  · decide
  · exact mem_hexDigits h
  · decide
  · exact mem_hexDigits h
  · decide
  · exact mem_hexDigits h
  · decide
  · exact mem_hexDigits h

theorem asBytes_asStr (id : RoomId) : asBytes id.asStr = id.chars.map fun c => c.val.toUInt8 :=
  asBytes_ofList_of_ascii fun _ h => (mem_chars h).1

/-- The text of an identifier has 36 bytes. -/
theorem length_asStr (id : RoomId) : (asBytes id.asStr).length = 36 := by
  rw [asBytes_asStr, List.length_map]
  simp [chars, length_hexDigits]

/-- There is no separator in the text of an identifier. -/
theorem mem_asStr {id : RoomId} {b : UInt8} (h : b ∈ asBytes id.asStr) : b ≠ 124 := by
  rw [asBytes_asStr] at h
  obtain ⟨c, hc, rfl⟩ := List.mem_map.1 h
  exact (mem_chars hc).2

theorem digit_eq_of_hexDigits {id id' : RoomId} {start count : ℕ}
    (h : id.hexDigits start count = id'.hexDigits start count) {j : ℕ} (hle : start ≤ j)
    (hlt : j < start + count) :
    id.uuid.toNat / 16 ^ (31 - j) % 16 = id'.uuid.toNat / 16 ^ (31 - j) % 16 := by
  have hdigit := List.map_inj_left.1 h (j - start) (List.mem_range.2 (by omega))
  have hj : start + (j - start) = j := by omega
  rw [hj] at hdigit
  exact lowerHexDigit_inj _ (Nat.mod_lt _ (by norm_num)) _ (Nat.mod_lt _ (by norm_num)) hdigit

/-- **An identifier is determined by its text.** -/
theorem asStr_injective : Function.Injective asStr := by
  intro id id' h
  have hchars : id.chars = id'.chars := String.ofList_injective h
  unfold chars at hchars
  obtain ⟨h₀, hchars⟩ := List.append_inj hchars (by simp only [length_hexDigits])
  obtain ⟨h₁, hchars⟩ := List.append_inj (List.cons.inj hchars).2 (by simp only [length_hexDigits])
  obtain ⟨h₂, hchars⟩ := List.append_inj (List.cons.inj hchars).2 (by simp only [length_hexDigits])
  obtain ⟨h₃, hchars⟩ := List.append_inj (List.cons.inj hchars).2 (by simp only [length_hexDigits])
  have h₄ := (List.cons.inj hchars).2
  have hdigits : ∀ j < 32,
      id.uuid.toNat / 16 ^ (31 - j) % 16 = id'.uuid.toNat / 16 ^ (31 - j) % 16 := by
    intro j hj
    rcases lt_or_ge j 8 with hj₀ | hj₀
    · exact digit_eq_of_hexDigits h₀ (Nat.zero_le j) (by omega)
    rcases lt_or_ge j 12 with hj₁ | hj₁
    · exact digit_eq_of_hexDigits h₁ hj₀ (by omega)
    rcases lt_or_ge j 16 with hj₂ | hj₂
    · exact digit_eq_of_hexDigits h₂ hj₁ (by omega)
    rcases lt_or_ge j 20 with hj₃ | hj₃
    · exact digit_eq_of_hexDigits h₃ hj₂ (by omega)
    · exact digit_eq_of_hexDigits h₄ hj₃ (by omega)
  have huuid : id.uuid.toNat = id'.uuid.toNat := by
    have hpow : (16 : ℕ) ^ 32 = 2 ^ 128 := by norm_num
    have hn : id.uuid.toNat < 16 ^ 32 := by
      rw [hpow]
      exact id.uuid.isLt
    have hm : id'.uuid.toNat < 16 ^ 32 := by
      rw [hpow]
      exact id'.uuid.isLt
    refine eq_of_digits hn hm ?_
    intro i hi
    have hi' : 31 - (31 - i) = i := by omega
    rw [← hi']
    exact hdigits (31 - i) (by omega)
  obtain ⟨uuid⟩ := id
  obtain ⟨uuid'⟩ := id'
  exact congrArg RoomId.mk (BitVec.eq_of_toNat_eq huuid)

/-- The text of an identifier: a random one of version 4. -/
example : asStr ⟨0x550e8400e29b41d4a716446655440000⟩ = "550e8400-e29b-41d4-a716-446655440000" := by
  decide

end RoomId

end Sanctum
