/-
Base64 without padding.

Three bytes are four digits of six bits.  One or two bytes at the end are two or three digits, whose last bits
are zero.  A decoder without padding reads this back, and takes no single digit at the end and no other bits
there.

Main definitions:

* `Base64.Alphabet`, `Base64.urlSafe` — the characters of the digits;
* `Base64.encode`, `Base64.decode` — the two directions.

Main results:

* `Base64.decode_encode` — **nothing is lost**;
* `Base64.mem_encode` — the characters of a text are digits.
-/

import Mathlib.Data.List.Basic
import Mathlib.Data.Option.Basic

set_option relaxedAutoImplicit false
set_option autoImplicit false

namespace Base64

/-- The characters of the digits, and the values of the characters. -/
structure Alphabet where
  char : ℕ → Char
  value : Char → Option ℕ
  value_char : ∀ n < 64, value (char n) = some n

/-- The characters that are safe in a URL. -/
def urlSafe : Alphabet where
  char n :=
    if n < 26 then Char.ofNat (65 + n)
    else if n < 52 then Char.ofNat (71 + n)
    else if n < 62 then Char.ofNat (n - 4)
    else if n = 62 then '-'
    else '_'
  value c :=
    if 'A' ≤ c ∧ c ≤ 'Z' then some (c.toNat - 65)
    else if 'a' ≤ c ∧ c ≤ 'z' then some (c.toNat - 71)
    else if '0' ≤ c ∧ c ≤ '9' then some (c.toNat + 4)
    else if c = '-' then some 62
    else if c = '_' then some 63
    else none
  value_char := by decide

variable (A : Alphabet)

/-- **The text of some bytes.** -/
def encode : List UInt8 → List Char
  | x :: y :: z :: rest =>
    let n := x.toNat * 65536 + y.toNat * 256 + z.toNat
    A.char (n / 262144) :: A.char (n / 4096 % 64) :: A.char (n / 64 % 64) :: A.char (n % 64) :: encode rest
  | [x, y] =>
    let n := x.toNat * 1024 + y.toNat * 4
    [A.char (n / 4096), A.char (n / 64 % 64), A.char (n % 64)]
  | [x] =>
    let n := x.toNat * 16
    [A.char (n / 64), A.char (n % 64)]
  | [] => []

/-- **The bytes of a text.** -/
def decode : List Char → Option (List UInt8)
  | a :: b :: c :: d :: rest => do
    let n := (← A.value a) * 262144 + (← A.value b) * 4096 + (← A.value c) * 64 + (← A.value d)
    let bytes ← decode rest
    some (UInt8.ofNat (n / 65536) :: UInt8.ofNat (n / 256 % 256) :: UInt8.ofNat (n % 256) :: bytes)
  | [a, b, c] => do
    let n := (← A.value a) * 4096 + (← A.value b) * 64 + (← A.value c)
    if n % 4 = 0 then some [UInt8.ofNat (n / 1024), UInt8.ofNat (n / 4 % 256)] else none
  | [a, b] => do
    let n := (← A.value a) * 64 + (← A.value b)
    if n % 16 = 0 then some [UInt8.ofNat (n / 16)] else none
  | [_] => none
  | [] => some []

variable {A}

theorem ofNat_eq {n : ℕ} {x : UInt8} (h : n = x.toNat) : UInt8.ofNat n = x := by
  rw [h, UInt8.ofNat_toNat]

/-- A number of four digits. -/
theorem digits_four (n : ℕ) :
    n / 262144 * 262144 + n / 4096 % 64 * 4096 + n / 64 % 64 * 64 + n % 64 = n := by
  omega

theorem digits_three (n : ℕ) : n / 4096 * 4096 + n / 64 % 64 * 64 + n % 64 = n := by
  omega

theorem digits_two (n : ℕ) : n / 64 * 64 + n % 64 = n := by
  omega

/-- **Nothing is lost.** -/
theorem decode_encode (bytes : List UInt8) : decode A (encode A bytes) = some bytes := by
  fun_induction encode A bytes with
  | case1 x y z rest n ih =>
      have hx := x.toNat_lt
      have hy := y.toNat_lt
      have hz := z.toNat_lt
      have hn : n = x.toNat * 65536 + y.toNat * 256 + z.toNat := rfl
      rw [decode, A.value_char _ (by omega), A.value_char _ (by omega), A.value_char _ (by omega),
        A.value_char _ (by omega), ih]
      simp only [bind, Option.bind_some, digits_four]
      rw [@ofNat_eq (n / 65536) x (by omega), @ofNat_eq (n / 256 % 256) y (by omega),
        @ofNat_eq (n % 256) z (by omega)]
  | case2 x y n =>
      have hx := x.toNat_lt
      have hy := y.toNat_lt
      have hn : n = x.toNat * 1024 + y.toNat * 4 := rfl
      rw [decode, A.value_char _ (by omega), A.value_char _ (by omega), A.value_char _ (by omega)]
      simp only [bind, Option.bind_some, digits_three]
      rw [if_pos (by omega), @ofNat_eq (n / 1024) x (by omega), @ofNat_eq (n / 4 % 256) y (by omega)]
  | case3 x n =>
      have hx := x.toNat_lt
      have hn : n = x.toNat * 16 := rfl
      rw [decode, A.value_char _ (by omega), A.value_char _ (by omega)]
      simp only [bind, Option.bind_some, digits_two]
      rw [if_pos (by omega), @ofNat_eq (n / 16) x (by omega)]
  | case4 => rfl

/-- The characters of a text are digits. -/
theorem mem_encode {bytes : List UInt8} {c : Char} (h : c ∈ encode A bytes) : ∃ n < 64, c = A.char n := by
  fun_induction encode A bytes with
  | case1 x y z rest n ih =>
      have hx := x.toNat_lt
      have hy := y.toNat_lt
      have hz := z.toNat_lt
      have hn : n = x.toNat * 65536 + y.toNat * 256 + z.toNat := rfl
      simp only [List.mem_cons] at h
      rcases h with h | h | h | h | h
      · exact ⟨_, by omega, h⟩
      · exact ⟨_, by omega, h⟩
      · exact ⟨_, by omega, h⟩
      · exact ⟨_, by omega, h⟩
      · exact ih h
  | case2 x y n =>
      have hx := x.toNat_lt
      have hn : n = x.toNat * 1024 + y.toNat * 4 := rfl
      have hy := y.toNat_lt
      simp only [List.mem_cons, List.not_mem_nil, or_false] at h
      rcases h with h | h | h
      · exact ⟨_, by omega, h⟩
      · exact ⟨_, by omega, h⟩
      · exact ⟨_, by omega, h⟩
  | case3 x n =>
      have hx := x.toNat_lt
      have hn : n = x.toNat * 16 := rfl
      simp only [List.mem_cons, List.not_mem_nil, or_false] at h
      rcases h with h | h
      · exact ⟨_, by omega, h⟩
      · exact ⟨_, by omega, h⟩
  | case4 => exact absurd h List.not_mem_nil

end Base64
