/-
Messages as sequences of fields.

A message is written field by field: a key with the number and the kind of the field, and its value, a
number of variable length or some bytes with their length before them.  A field with its default value is
not written.  A reader of such a message takes the fields in order, and knows from the next byte whether a
field is there.

A codec of a part of a message knows the keys with which the part may begin; it reads back what it wrote,
whatever follows, as long as that does not begin with one of these keys.  Codecs with different keys are
put in sequence, so the codec of a message is put together from those of its fields.

Main definitions:

* `Protobuf.varint`, `Protobuf.readVarint` — numbers of variable length;
* `Protobuf.Segment` — **a codec of a part of a message**;
* `Protobuf.number`, `Protobuf.delimited`, `Protobuf.optional`, `Protobuf.repeated` — the kinds of fields;
* `Protobuf.Segment.pair`, `Protobuf.Segment.iso` — codecs in sequence, and in other terms;
* `Protobuf.Segment.decodeAll` — reading a whole message.

Main results:

* `Protobuf.readVarint_varint` — a number is read back;
* `Protobuf.Segment.decodeAll_encode` — **a message is read back**.
-/

import Mathlib.Data.List.Basic
import Mathlib.Tactic.Common

set_option relaxedAutoImplicit false
set_option autoImplicit false

namespace Protobuf

/-! ### Numbers of variable length -/

/-- The base-128 digits of a number, the lowest first; `fuel` bounds the number of bytes. -/
def varintGo : ℕ → ℕ → List UInt8
  | 0, n => [UInt8.ofNat n]
  | fuel + 1, n =>
    if n < 128 then [UInt8.ofNat n] else UInt8.ofNat (n % 128 + 128) :: varintGo fuel (n / 128)

def varint (n : ℕ) : List UInt8 := varintGo n n

def readVarint : List UInt8 → Option (ℕ × List UInt8)
  | [] => none
  | b :: bs =>
    if b.toNat < 128 then some (b.toNat, bs)
    else (readVarint bs).map fun (n, rest) => (b.toNat - 128 + 128 * n, rest)

theorem readVarint_varintGo {fuel n : ℕ} (h : n ≤ fuel) (rest : List UInt8) :
    readVarint (varintGo fuel n ++ rest) = some (n, rest) := by
  induction fuel generalizing n with
  | zero =>
      obtain rfl := Nat.le_zero.1 h
      rfl
  | succ fuel ih =>
      unfold varintGo
      by_cases hn : n < 128
      · have hbyte : (UInt8.ofNat n).toNat = n := by
          rw [UInt8.toNat_ofNat']
          omega
        rw [if_pos hn, List.singleton_append, readVarint, hbyte, if_pos hn]
      · have hbyte : (UInt8.ofNat (n % 128 + 128)).toNat = n % 128 + 128 := by
          rw [UInt8.toNat_ofNat']
          omega
        have hdigits : n % 128 + 128 - 128 + 128 * (n / 128) = n := by omega
        rw [if_neg hn, List.cons_append, readVarint, hbyte, if_neg (by omega), ih (by omega),
          Option.map_some]
        dsimp only
        rw [hdigits]

/-- **A number is read back**, whatever follows it. -/
theorem readVarint_varint (n : ℕ) (rest : List UInt8) :
    readVarint (varint n ++ rest) = some (n, rest) := readVarint_varintGo (Nat.le_refl n) rest

/-- Some bytes with their length before them. -/
def lengthDelimited (bytes : List UInt8) : List UInt8 := varint bytes.length ++ bytes

def readDelimited (bytes : List UInt8) : Option (List UInt8 × List UInt8) :=
  (readVarint bytes).map fun (n, rest) => (rest.take n, rest.drop n)

theorem readDelimited_lengthDelimited (bytes rest : List UInt8) :
    readDelimited (lengthDelimited bytes ++ rest) = some (bytes, rest) := by
  rw [readDelimited, lengthDelimited, List.append_assoc, readVarint_varint, Option.map_some]
  simp only [List.take_left, List.drop_left]

/-! ### Codecs of parts of messages -/

/-- The key of a field with a number below 16, and of its kind: 0 for a number, 2 for some bytes. -/
def key (number kind : ℕ) : UInt8 := UInt8.ofNat (8 * number + kind)

/-- Something that does not begin with one of the keys. -/
def Clear (keys rest : List UInt8) : Prop := ∀ k ∈ keys, rest.head? ≠ some k

theorem clear_nil (keys : List UInt8) : Clear keys [] := by
  intro k _ h
  cases h

/-- The first keys are none of the others. -/
def Apart (keys keys' : List UInt8) : Prop := ∀ k ∈ keys, k ∉ keys'

instance (keys keys' : List UInt8) : Decidable (Apart keys keys') :=
  List.decidableBAll (fun k => k ∉ keys') keys

/-- **A codec of a part of a message**, with the keys with which the part may begin. -/
structure Segment (α : Type) where
  keys : List UInt8
  encode : α → List UInt8
  decode : List UInt8 → Option (α × List UInt8)
  /-- If the part is written at all, it begins with one of the keys. -/
  head_encode (a : α) : encode a = [] ∨ ∃ k ∈ keys, ∃ bytes, encode a = k :: bytes
  /-- The part is read back. -/
  decode_encode (a : α) (rest : List UInt8) :
    Clear keys rest → decode (encode a ++ rest) = some (a, rest)

namespace Segment

variable {α β : Type}

/-- What begins with a part that has other keys is clear. -/
theorem clear_append (f : Segment α) {keys : List UInt8} (h : Apart f.keys keys) (a : α)
    {rest : List UInt8} (hrest : Clear keys rest) : Clear keys (f.encode a ++ rest) := by
  rcases f.head_encode a with hnil | ⟨k, hk, bytes, hcons⟩
  · rwa [hnil, List.nil_append]
  · intro k' hk' hhead
    rw [hcons, List.cons_append, List.head?_cons, Option.some_inj] at hhead
    exact h k hk (hhead ▸ hk')

/-- One part after the other, with different keys. -/
def pair (f : Segment α) (g : Segment β) (h : Apart g.keys f.keys) : Segment (α × β) where
  keys := f.keys ++ g.keys
  encode p := f.encode p.1 ++ g.encode p.2
  decode bytes := (f.decode bytes).bind fun (a, rest) => (g.decode rest).map fun (b, rest) => ((a, b), rest)
  head_encode p := by
    rcases f.head_encode p.1 with hnil | ⟨k, hk, bytes, hcons⟩
    · rcases g.head_encode p.2 with hnil' | ⟨k, hk, bytes, hcons⟩
      · exact Or.inl (by rw [hnil, hnil', List.append_nil])
      · exact Or.inr ⟨k, List.mem_append_right _ hk, bytes, by rw [hnil, hcons, List.nil_append]⟩
    · exact Or.inr ⟨k, List.mem_append_left _ hk, bytes ++ g.encode p.2, by
        rw [hcons, List.cons_append]⟩
  decode_encode p rest hrest := by
    have hf : Clear f.keys rest := fun k hk => hrest k (List.mem_append_left _ hk)
    have hg : Clear g.keys rest := fun k hk => hrest k (List.mem_append_right _ hk)
    rw [List.append_assoc, f.decode_encode p.1 _ (g.clear_append h p.2 hf), Option.bind_some]
    dsimp only
    rw [g.decode_encode p.2 rest hg, Option.map_some]

/-- The same part in other terms. -/
def iso (f : Segment α) (ofParts : α → β) (parts : β → α) (h : ∀ b, ofParts (parts b) = b) : Segment β where
  keys := f.keys
  encode b := f.encode (parts b)
  decode bytes := (f.decode bytes).map fun (a, rest) => (ofParts a, rest)
  head_encode b := f.head_encode (parts b)
  decode_encode b rest hrest := by
    rw [f.decode_encode (parts b) rest hrest, Option.map_some]
    dsimp only
    rw [h b]

/-- Reading a whole message. -/
def decodeAll (f : Segment α) (bytes : List UInt8) : Option α :=
  match f.decode bytes with
  | some (a, []) => some a
  | _ => none

/-- **A message is read back.** -/
theorem decodeAll_encode (f : Segment α) (a : α) : f.decodeAll (f.encode a) = some a := by
  have h := f.decode_encode a [] (clear_nil f.keys)
  rw [List.append_nil] at h
  rw [decodeAll, h]

end Segment

/-! ### The kinds of fields -/

section Kinds

variable {α β : Type} (k : UInt8)

/-- Read a field if the next byte is its key, and else take the default value. -/
def readField (default : β) (read : List UInt8 → Option (β × List UInt8)) :
    List UInt8 → Option (β × List UInt8)
  | [] => some (default, [])
  | b :: bytes => if b = k then read bytes else some (default, b :: bytes)

theorem readField_key (default : β) (read : List UInt8 → Option (β × List UInt8))
    (bytes : List UInt8) : readField k default read (k :: bytes) = read bytes := if_pos rfl

theorem readField_clear (default : β) (read : List UInt8 → Option (β × List UInt8))
    {rest : List UInt8} (h : Clear [k] rest) : readField k default read rest = some (default, rest) := by
  cases rest with
  | nil => rfl
  | cons b bytes =>
      have hb : b ≠ k := by
        rintro rfl
        exact h b (List.mem_singleton_self b) rfl
      exact if_neg hb

/-- A number; 0 is not written. -/
def number (toNat : α → ℕ) (ofNat : ℕ → α) (h : ∀ a, ofNat (toNat a) = a) : Segment α where
  keys := [k]
  encode a := if toNat a = 0 then [] else k :: varint (toNat a)
  decode := readField k (ofNat 0) fun bytes => (readVarint bytes).map fun (n, rest) => (ofNat n, rest)
  head_encode a := by
    split
    · exact Or.inl rfl
    · exact Or.inr ⟨k, List.mem_singleton_self k, _, rfl⟩
  decode_encode a rest hrest := by
    split
    · next hzero => rw [List.nil_append, readField_clear k _ _ hrest, ← hzero, h a]
    · rw [List.cons_append, readField_key, readVarint_varint, Option.map_some]
      dsimp only
      rw [h a]

/-- Some bytes with a meaning; no bytes are not written. -/
def delimited (toBytes : α → List UInt8) (ofBytes : List UInt8 → Option α)
    (h : ∀ a, ofBytes (toBytes a) = some a) : Segment α where
  keys := [k]
  encode a := if toBytes a = [] then [] else k :: lengthDelimited (toBytes a)
  decode bytes := (readField k [] readDelimited bytes).bind fun (bytes, rest) =>
    (ofBytes bytes).map fun a => (a, rest)
  head_encode a := by
    split
    · exact Or.inl rfl
    · exact Or.inr ⟨k, List.mem_singleton_self k, _, rfl⟩
  decode_encode a rest hrest := by
    split
    · next hnil =>
        rw [List.nil_append, readField_clear k _ _ hrest, Option.bind_some]
        dsimp only
        rw [← hnil, h a, Option.map_some]
    · rw [List.cons_append, readField_key, readDelimited_lengthDelimited, Option.bind_some]
      dsimp only
      rw [h a, Option.map_some]

/-- A message that may be missing; it is written also if it has no fields. -/
def optional (f : Segment α) : Segment (Option α) where
  keys := [k]
  encode
    | none => []
    | some a => k :: lengthDelimited (f.encode a)
  decode := readField k none fun bytes => (readDelimited bytes).bind fun (bytes, rest) =>
    (f.decodeAll bytes).map fun a => (some a, rest)
  head_encode a := by
    cases a with
    | none => exact Or.inl rfl
    | some a => exact Or.inr ⟨k, List.mem_singleton_self k, _, rfl⟩
  decode_encode a rest hrest := by
    cases a with
    | none => exact readField_clear k _ _ hrest
    | some a =>
        rw [List.cons_append, readField_key, readDelimited_lengthDelimited, Option.bind_some]
        dsimp only
        rw [f.decodeAll_encode a, Option.map_some]

/-- Read fields with one key; `fuel` bounds their number. -/
def readRepeated (ofBytes : List UInt8 → Option α) : ℕ → List UInt8 → Option (List α × List UInt8)
  | 0, bytes => some ([], bytes)
  | fuel + 1, bytes => readField k [] (fun bytes => (readDelimited bytes).bind fun (bytes, rest) =>
      (ofBytes bytes).bind fun a => (readRepeated ofBytes fuel rest).map fun (as, rest) =>
        (a :: as, rest)) bytes

/-- The fields of a list. -/
def writeRepeated (toBytes : α → List UInt8) (as : List α) : List UInt8 :=
  as.flatMap fun a => k :: lengthDelimited (toBytes a)

theorem length_le_writeRepeated (toBytes : α → List UInt8) (as : List α) :
    as.length ≤ (writeRepeated k toBytes as).length := by
  induction as with
  | nil => exact Nat.le_refl 0
  | cons a as ih =>
      rw [writeRepeated, List.flatMap_cons, List.length_append, List.length_cons, List.length_cons,
        ← writeRepeated]
      omega

theorem readRepeated_writeRepeated {toBytes : α → List UInt8} {ofBytes : List UInt8 → Option α}
    (h : ∀ a, ofBytes (toBytes a) = some a) {fuel : ℕ} {as : List α} (hfuel : as.length ≤ fuel)
    {rest : List UInt8} (hrest : Clear [k] rest) :
    readRepeated k ofBytes fuel (writeRepeated k toBytes as ++ rest) = some (as, rest) := by
  induction as generalizing fuel with
  | nil =>
      cases fuel with
      | zero => rfl
      | succ fuel => exact readField_clear k _ _ hrest
  | cons a as ih =>
      obtain ⟨fuel, rfl⟩ : ∃ m, fuel = m + 1 := Nat.exists_eq_add_one.2 (Nat.lt_of_lt_of_le
        (Nat.succ_pos _) hfuel)
      rw [writeRepeated, List.flatMap_cons, ← writeRepeated, List.append_assoc, List.cons_append,
        readRepeated, readField_key, readDelimited_lengthDelimited, Option.bind_some]
      dsimp only
      rw [h a, Option.bind_some, ih (Nat.le_of_succ_le_succ hfuel), Option.map_some]

/-- A list of fields with one key. -/
def repeated (toBytes : α → List UInt8) (ofBytes : List UInt8 → Option α)
    (h : ∀ a, ofBytes (toBytes a) = some a) : Segment (List α) where
  keys := [k]
  encode := writeRepeated k toBytes
  decode bytes := readRepeated k ofBytes bytes.length bytes
  head_encode as := by
    cases as with
    | nil => exact Or.inl rfl
    | cons a as => exact Or.inr ⟨k, List.mem_singleton_self k, _, rfl⟩
  decode_encode as rest hrest := by
    refine readRepeated_writeRepeated k h ?_ hrest
    have hle := length_le_writeRepeated k toBytes as
    rw [List.length_append]
    omega

end Kinds

end Protobuf
