import Mathlib.Algebra.Group.Nat.Defs
import Mathlib.Data.List.Basic
import XmlInspect.Source

/-!
# Writing text as bytes

The charsets of this library only read. To say that they read the right thing there has to be
somebody who writes, and this module has the writing side of the three Unicode forms: UTF-8 as the
standard library writes it, and UTF-16 in both byte orders. Reading undoes writing for every text.

The bytes of a UTF-8 character after the first are the digits of its number to the base 64. A
character that is cut off in the middle has lost its last digits, so what is left spells a number
that is too small for the size that the first byte promises, and no byte of it is read as a part of
a character.
-/

namespace XmlInspect

/-! ## UTF-8 -/

namespace Utf8

/-- The bytes of a text. -/
def encode (text : List Char) : List UInt8 := text.flatMap String.utf8EncodeChar

theorem encode_cons (c : Char) (text : List Char) :
    encode (c :: text) = String.utf8EncodeChar c ++ encode text :=
  List.flatMap_cons

private theorem toList_loop (bytes : ByteArray) (i : Nat) (front : List UInt8) :
    ByteArray.toList.loop bytes i front = front.reverse ++ bytes.data.toList.drop i := by
  fun_induction ByteArray.toList.loop bytes i front with
  | case1 i front hlt ih =>
    have hget : bytes.get! i = bytes.data[i]! := rfl
    have hi : i < bytes.data.toList.length := by simpa using hlt
    rw [ih, List.drop_eq_getElem_cons hi, hget, getElem!_pos bytes.data i hlt]
    simp
  | case2 i front hlt =>
    have hi : bytes.data.toList.length ≤ i := by simpa using hlt
    rw [List.drop_eq_nil_of_le hi, List.append_nil]

/-- A string has the bytes of its characters. -/
theorem toList_toUTF8 (text : String) : text.toUTF8.toList = encode text.toList := by
  have hbytes : text.toUTF8 = text.toList.utf8Encode := by
    rw [String.toUTF8, ← String.toByteArray_ofList, String.ofList_toList]
  rw [hbytes, ByteArray.toList, toList_loop, List.utf8Encode, List.toList_data_toByteArray]
  rfl

/-- The size of a character depends on how large its number is. -/
theorem utf8Size_eq (c : Char) :
    c.utf8Size = if c.toNat < 0x80 then 1 else if c.toNat < 0x800 then 2
      else if c.toNat < 0x10000 then 3 else 4 := by
  have hval : c.val.toNat = c.toNat := rfl
  simp only [Char.utf8Size, UInt32.le_iff_toNat_le, hval]
  grind

theorem toNat_lt (c : Char) : c.toNat < 0x110000 := by
  have hvalid : c.toNat.isValidChar := c.valid
  rw [Nat.isValidChar] at hvalid
  omega

/-! ### The digits of a character -/

/-- The last `k` digits of a number to the base 64, each in a continuation byte. -/
def tails : Nat → Nat → List UInt8
  | 0, _ => []
  | k + 1, n => tails k (n / 64) ++ [UInt8.ofNat (n % 64 + 0x80)]

theorem length_tails (k n : Nat) : (tails k n).length = k := by
  induction k generalizing n with
  | zero => rfl
  | succ k ih => rw [tails, List.length_append, ih, List.length_singleton]

/-- Fewer digits are the digits of a smaller number. -/
theorem take_tails {j k : Nat} (h : j ≤ k) (n : Nat) :
    (tails k n).take j = tails j (n / 64 ^ (k - j)) := by
  induction k generalizing n with
  | zero =>
    obtain rfl : j = 0 := by omega
    rfl
  | succ k ih =>
    by_cases hj : j = k + 1
    · subst hj
      rw [List.take_of_length_le (Nat.le_of_eq (length_tails _ _)), Nat.sub_self, Nat.pow_zero,
        Nat.div_one]
    · have hle : j ≤ k := by omega
      rw [tails, List.take_append_of_le_length (by rwa [length_tails]), ih hle,
        Nat.div_div_eq_div_mul, ← Nat.pow_add_one', Nat.sub_add_comm hle]

theorem tail?_ofNat {n : Nat} (h : n < 64) : tail? (UInt8.ofNat (n + 0x80)) = some n := by
  have hnat : (UInt8.ofNat (n + 0x80)).toNat = n + 0x80 := by
    rw [UInt8.toNat_ofNat']
    omega
  rw [tail?, if_pos]
  · rw [hnat, Nat.add_sub_cancel]
  · rw [UInt8.le_iff_toNat_le, UInt8.lt_iff_toNat_lt, hnat]
    simp only [UInt8.reduceToNat]
    omega

/-- Reading all digits of a number gives the number. -/
theorem foldlM_tails (k n : Nat) :
    (tails k n).foldlM (fun n byte ↦ (tail? byte).map (64 * n + ·)) (n / 64 ^ k) = some n := by
  induction k generalizing n with
  | zero => simp [tails]
  | succ k ih =>
    have hstart : n / 64 ^ (k + 1) = n / 64 / 64 ^ k := by
      rw [Nat.div_div_eq_div_mul, Nat.pow_succ']
    have hlast : tail? (UInt8.ofNat (n % 64 + 0x80)) = some (n % 64) :=
      tail?_ofNat (Nat.mod_lt n (by decide))
    rw [tails, List.foldlM_append, hstart, ih, Option.bind_eq_bind, Option.bind_some,
      List.foldlM_cons, hlast, Option.map_some, Nat.div_add_mod]
    rfl

theorem compose?_tails (size k n : Nat) :
    compose? size (n / 64 ^ k) (tails k n) = charOfSize? size n := by
  rw [compose?, foldlM_tails]
  rfl

private theorem charOfSize?_toNat (c : Char) : charOfSize? c.utf8Size c.toNat = some c := by
  have hvalid : c.toNat.isValidChar := c.valid
  rw [charOfSize?, Char.ofNat_toNat, if_pos ⟨hvalid, rfl⟩]

theorem next?_cons (a : UInt8) (rest : List UInt8) :
    next? (a :: rest) =
      if a.toNat < 0x80 then some (Char.ofNat a.toNat, rest)
      else if a.toNat < 0xC0 then none
      else if a.toNat < 0xE0 then (compose? 2 (a.toNat - 0xC0) (rest.take 1)).map (·, rest.drop 1)
      else if a.toNat < 0xF0 then (compose? 3 (a.toNat - 0xE0) (rest.take 2)).map (·, rest.drop 2)
      else if a.toNat < 0xF8 then (compose? 4 (a.toNat - 0xF0) (rest.take 3)).map (·, rest.drop 3)
      else none := by
  simp only [next?, UInt8.lt_iff_toNat_lt, UInt8.reduceToNat]

/-- A character of several bytes is written as a first byte, by which its size is known, and its
other digits. -/
theorem exists_lead {c : Char} (h : c.utf8Size ≠ 1) :
    ∃ lead, String.utf8EncodeChar c = lead :: tails (c.utf8Size - 1) c.toNat ∧
      ∀ rest, next? (lead :: rest) =
        (compose? c.utf8Size (c.toNat / 64 ^ (c.utf8Size - 1)) (rest.take (c.utf8Size - 1))).map
          (·, rest.drop (c.utf8Size - 1)) := by
  have hlt := toNat_lt c
  have hval : c.val.toNat = c.toNat := rfl
  have hsize := utf8Size_eq c
  -- the sizes differ in how much of the number the first byte has room for
  by_cases hone : c.toNat < 0x80
  · rw [if_pos hone] at hsize
    exact absurd hsize h
  rw [if_neg hone] at hsize
  by_cases htwo : c.toNat < 0x800
  · rw [if_pos htwo] at hsize
    have hlead : (UInt8.ofNat (c.toNat / 64 % 32 + 192)).toNat = c.toNat / 64 + 0xC0 := by
      rw [UInt8.toNat_ofNat']
      omega
    refine ⟨UInt8.ofNat (c.toNat / 64 % 32 + 192), ?_, fun rest ↦ ?_⟩
    · rw [String.utf8EncodeChar, hval, if_neg (by omega), if_pos (by omega), hsize]
      rfl
    · rw [next?_cons, hlead, if_neg (by omega), if_neg (by omega), if_pos (by omega), hsize,
        Nat.add_sub_cancel]
      rfl
  rw [if_neg htwo] at hsize
  by_cases hthree : c.toNat < 0x10000
  · rw [if_pos hthree] at hsize
    have hlead : (UInt8.ofNat (c.toNat / 4096 % 16 + 224)).toNat = c.toNat / 4096 + 0xE0 := by
      rw [UInt8.toNat_ofNat']
      omega
    refine ⟨UInt8.ofNat (c.toNat / 4096 % 16 + 224), ?_, fun rest ↦ ?_⟩
    · rw [String.utf8EncodeChar, hval, if_neg (by omega), if_neg (by omega), if_pos (by omega),
        hsize]
      rfl
    · rw [next?_cons, hlead, if_neg (by omega), if_neg (by omega), if_neg (by omega),
        if_pos (by omega), hsize, Nat.add_sub_cancel]
      rfl
  · rw [if_neg hthree] at hsize
    have hlead : (UInt8.ofNat (c.toNat / 262144 % 8 + 240)).toNat = c.toNat / 262144 + 0xF0 := by
      rw [UInt8.toNat_ofNat']
      omega
    refine ⟨UInt8.ofNat (c.toNat / 262144 % 8 + 240), ?_, fun rest ↦ ?_⟩
    · rw [String.utf8EncodeChar, hval, if_neg (by omega), if_neg (by omega), if_neg (by omega),
        hsize]
      simp [tails, Nat.div_div_eq_div_mul]
    · rw [next?_cons, hlead, if_neg (by omega), if_neg (by omega), if_neg (by omega),
        if_neg (by omega), if_pos (by omega), hsize, Nat.add_sub_cancel]
      rfl

theorem next?_utf8EncodeChar (c : Char) (rest : List UInt8) :
    next? (String.utf8EncodeChar c ++ rest) = some (c, rest) := by
  by_cases hone : c.utf8Size = 1
  · have hlt : c.toNat < 0x80 := by
      have hsize := utf8Size_eq c
      grind
    have hbyte : c.val.toUInt8.toNat = c.toNat :=
      (UInt32.toNat_toUInt8 _).trans (Nat.mod_eq_of_lt (Nat.lt_trans hlt (by decide)))
    rw [String.utf8EncodeChar_eq_singleton hone, List.singleton_append, next?_cons, hbyte,
      if_pos hlt, Char.ofNat_toNat]
  · obtain ⟨lead, hbytes, hnext⟩ := exists_lead hone
    rw [hbytes, List.cons_append, hnext, List.take_left' (length_tails _ _),
      List.drop_left' (length_tails _ _), compose?_tails, charOfSize?_toNat, Option.map_some]

/-! ### Reading what was written -/

private theorem decode_of_next? {bytes rest : List UInt8} {c : Char}
    (h : next? bytes = some (c, rest)) : decode bytes = (decode rest).map (c :: ·) := by
  cases bytes with
  | nil => cases h
  | cons b bytes =>
    rw [decode]
    split
    · rename_i hnone
      rw [h] at hnone
      cases hnone
    · rename_i hsome
      rw [h] at hsome
      cases hsome
      rfl

/-- Reading undoes writing. -/
theorem decode_encode (text : List Char) : decode (encode text) = some text := by
  induction text with
  | nil => simp [encode, decode]
  | cons c text ih =>
    rw [encode_cons, decode_of_next? (next?_utf8EncodeChar c _), ih, Option.map_some]

/-! ### Reading what was cut off -/

private theorem decodeLossy_of_next? {bytes rest : List UInt8} {c : Char}
    (h : next? bytes = some (c, rest)) : decodeLossy bytes = c :: decodeLossy rest := by
  cases bytes with
  | nil => cases h
  | cons b bytes =>
    rw [decodeLossy]
    split
    · rename_i hnone
      rw [h] at hnone
      cases hnone
    · rename_i hsome
      rw [h] at hsome
      cases hsome
      rfl

theorem decodeLossy_of_none {b : UInt8} {bytes : List UInt8} (h : next? (b :: bytes) = none) :
    decodeLossy (b :: bytes) = '\uFFFD' :: decodeLossy bytes := by
  rw [decodeLossy]
  split
  · rfl
  · rename_i hsome
    rw [h] at hsome
    cases hsome

/-- What is left of a character that was cut off spells too small a number. -/
theorem next?_take_utf8EncodeChar {c : Char} {j : Nat} (hj : j + 1 < c.utf8Size) :
    next? ((String.utf8EncodeChar c).take (j + 1)) = none := by
  have hlt := toNat_lt c
  have hsize := utf8Size_eq c
  obtain ⟨lead, hbytes, hnext⟩ := exists_lead (c := c) (by omega)
  have hle : j ≤ c.utf8Size - 1 := by omega
  have hdigits : c.toNat / 64 ^ (c.utf8Size - 1) =
      c.toNat / 64 ^ (c.utf8Size - 1 - j) / 64 ^ j := by
    rw [Nat.div_div_eq_div_mul, ← Nat.pow_add, Nat.sub_add_cancel hle]
  have hsmall : c.toNat / 64 ^ (c.utf8Size - 1 - j) ≤ c.toNat / 64 :=
    Nat.div_le_div_left (Nat.le_self_pow (by omega) 64) (by decide)
  rw [hbytes, List.take_succ_cons, take_tails hle, hnext,
    List.take_of_length_le (by rwa [length_tails]), hdigits, compose?_tails]
  generalize c.toNat / 64 ^ (c.utf8Size - 1 - j) = n at hsmall
  rw [charOfSize?, if_neg, Option.map_none]
  rintro ⟨hvalid, hn⟩
  have hnat : (Char.ofNat n).toNat = n := by
    rw [Char.ofNat, dif_pos hvalid]
    rfl
  rw [utf8Size_eq, hnat] at hn
  grind

private theorem next?_of_isTail {b : UInt8} (h : (tail? b).isSome) (rest : List UInt8) :
    next? (b :: rest) = none := by
  by_cases hb : 0x80 ≤ b ∧ b < 0xC0
  · have hlow : 0x80 ≤ b.toNat := UInt8.le_iff_toNat_le.1 hb.1
    have hhigh : b.toNat < 0xC0 := UInt8.lt_iff_toNat_lt.1 hb.2
    rw [next?_cons, if_neg (Nat.not_lt.2 hlow), if_pos hhigh]
  · simp [tail?, hb] at h

private theorem isSome_tail?_of_mem_tails {k n : Nat} {b : UInt8} (h : b ∈ tails k n) :
    (tail? b).isSome := by
  induction k generalizing n with
  | zero => cases h
  | succ k ih =>
    rcases List.mem_append.1 h with h | h
    · exact ih h
    · rw [List.mem_singleton.1 h, tail?_ofNat (Nat.mod_lt n (by decide))]
      rfl

private theorem decodeLossy_of_isTail {bytes : List UInt8} (h : ∀ b ∈ bytes, (tail? b).isSome) :
    decodeLossy bytes = List.replicate bytes.length '\uFFFD' := by
  induction bytes with
  | nil => rw [decodeLossy, List.length_nil, List.replicate_zero]
  | cons b bytes ih =>
    obtain ⟨hb, hbytes⟩ := List.forall_mem_cons.1 h
    rw [decodeLossy_of_none (next?_of_isTail hb bytes), ih hbytes]
    rfl

private theorem exists_decodeLossy_take_utf8EncodeChar {c : Char} {n : Nat} (hn : n < c.utf8Size) :
    ∃ m, decodeLossy ((String.utf8EncodeChar c).take n) = List.replicate m '\uFFFD' := by
  cases n with
  | zero => exact ⟨0, by rw [List.take_zero, decodeLossy, List.replicate_zero]⟩
  | succ j =>
    have hnone := next?_take_utf8EncodeChar hn
    obtain ⟨lead, hbytes, -⟩ := exists_lead (c := c) (by omega)
    rw [hbytes, List.take_succ_cons] at hnone ⊢
    have hrest := decodeLossy_of_isTail
      (fun b (hb : b ∈ (tails (c.utf8Size - 1) c.toNat).take j) ↦
        isSome_tail?_of_mem_tails (List.mem_of_mem_take hb))
    exact ⟨_, by rw [decodeLossy_of_none hnone, hrest, ← List.replicate_succ]⟩

end Utf8

/-- The longest part at the front of a text that takes at most `n` bytes. -/
def Text.takeBytes : Nat → List Char → List Char
  | _, [] => []
  | n, c :: rest => if c.utf8Size ≤ n then c :: takeBytes (n - c.utf8Size) rest else []

theorem Text.prefix_takeBytes_iff {front text : List Char} {n : Nat} :
    front <+: takeBytes n text ↔ front <+: text ∧ byteSize front ≤ n := by
  induction text generalizing front n with
  | nil =>
    rw [takeBytes, List.prefix_nil]
    refine ⟨fun h ↦ ⟨h, ?_⟩, And.left⟩
    rw [h]
    exact Nat.zero_le n
  | cons c text ih =>
    cases front with
    | nil => simp
    | cons d front =>
      by_cases hc : c.utf8Size ≤ n
      · rw [takeBytes, if_pos hc, List.cons_prefix_cons, List.cons_prefix_cons, ih, and_assoc]
        refine and_congr_right fun hd ↦ and_congr_right fun _ ↦ ?_
        rw [hd, byteSize_cons]
        omega
      · rw [takeBytes, if_neg hc, List.prefix_nil, List.cons_prefix_cons, byteSize_cons]
        refine ⟨fun h ↦ (List.cons_ne_nil d front h).elim, fun h ↦ ?_⟩
        rw [h.1.1] at h
        omega

/-- A text that was cut off after some bytes is read up to the last whole character. -/
theorem Utf8.decodeLossy_take_encode (n : Nat) (text : List Char) :
    ∃ m, decodeLossy ((encode text).take n) =
      Text.takeBytes n text ++ List.replicate m '\uFFFD' := by
  induction text generalizing n with
  | nil => exact ⟨0, by simp [encode, decodeLossy, Text.takeBytes]⟩
  | cons c text ih =>
    have hlength := String.length_utf8EncodeChar c
    rw [encode_cons, Text.takeBytes]
    by_cases hc : c.utf8Size ≤ n
    · obtain ⟨m, hm⟩ := ih (n - c.utf8Size)
      refine ⟨m, ?_⟩
      rw [if_pos hc, List.take_append, List.take_of_length_le (by rwa [hlength]), hlength,
        decodeLossy_of_next? (next?_utf8EncodeChar c _), hm, List.cons_append]
    · rw [if_neg hc, List.take_append_of_le_length (by omega)]
      exact exists_decodeLossy_take_utf8EncodeChar (Nat.lt_of_not_le hc)

/-! ## UTF-16 -/

namespace Utf16

/-- The units of a character: one, or two surrogates. -/
def unitsOf (c : Char) : List Nat :=
  if c.toNat < 0x10000 then [c.toNat]
  else [0xD800 + (c.toNat - 0x10000) / 0x400, 0xDC00 + (c.toNat - 0x10000) % 0x400]

/-- The two bytes of a unit. -/
def bytesOf (order : ByteOrder) (unit : Nat) : List UInt8 :=
  match order with
  | .little => [UInt8.ofNat unit, UInt8.ofNat (unit / 0x100)]
  | .big => [UInt8.ofNat (unit / 0x100), UInt8.ofNat unit]

/-- The bytes of a text. -/
def encode (order : ByteOrder) (text : List Char) : List UInt8 :=
  (text.flatMap unitsOf).flatMap (bytesOf order)

private theorem lt_of_mem_unitsOf {c : Char} {u : Nat} (h : u ∈ unitsOf c) : u < 0x10000 := by
  have hlt := Utf8.toNat_lt c
  rw [unitsOf] at h
  split at h
  · rename_i hone
    rwa [List.mem_singleton.1 h]
  · rw [List.mem_cons, List.mem_singleton] at h
    omega

private theorem units_bytesOf (order : ByteOrder) {u : Nat} (h : u < 0x10000) (bytes : List UInt8) :
    units order (bytesOf order u ++ bytes) = (units order bytes).map (u :: ·) := by
  have hlow : (UInt8.ofNat u).toNat = u % 0x100 := UInt8.toNat_ofNat'
  have hhigh : (UInt8.ofNat (u / 0x100)).toNat = u / 0x100 := by
    rw [UInt8.toNat_ofNat']
    omega
  have hunit : u / 0x100 * 0x100 + u % 0x100 = u := Nat.div_add_mod' u 0x100
  cases order with
  | little => rw [bytesOf, List.cons_append, List.singleton_append, units, unit, hlow, hhigh, hunit]
  | big => rw [bytesOf, List.cons_append, List.singleton_append, units, unit, hlow, hhigh, hunit]

private theorem units_flatMap (order : ByteOrder) {us : List Nat} (h : ∀ u ∈ us, u < 0x10000) :
    units order (us.flatMap (bytesOf order)) = some us := by
  induction us with
  | nil => rfl
  | cons u us ih =>
    obtain ⟨hu, hus⟩ := List.forall_mem_cons.1 h
    rw [List.flatMap_cons, units_bytesOf order hu, ih hus, Option.map_some]

private theorem decodeUnits_unitsOf (c : Char) (us : List Nat) :
    decodeUnits (unitsOf c ++ us) = (decodeUnits us).map (c :: ·) := by
  have hvalid : c.toNat.isValidChar := c.valid
  rw [Nat.isValidChar] at hvalid
  by_cases hone : c.toNat < 0x10000
  · have hhigh : isHighSurrogate c.toNat = false := by
      simp only [isHighSurrogate, Bool.and_eq_false_iff, decide_eq_false_iff_not]
      omega
    have hlow : isLowSurrogate c.toNat = false := by
      simp only [isLowSurrogate, Bool.and_eq_false_iff, decide_eq_false_iff_not]
      omega
    rw [unitsOf, if_pos hone, List.singleton_append]
    cases us with
    | nil => simp [decodeUnits, hhigh, hlow]
    | cons v us => simp [decodeUnits, hhigh, hlow]
  · set n := c.toNat - 0x10000 with hn
    have hhigh : isHighSurrogate (0xD800 + n / 0x400) = true := by
      simp only [isHighSurrogate, Bool.and_eq_true, decide_eq_true_eq]
      omega
    have hlow : isLowSurrogate (0xDC00 + n % 0x400) = true := by
      simp only [isLowSurrogate, Bool.and_eq_true, decide_eq_true_eq]
      omega
    have hjoin : 0x10000 + n / 0x400 * 0x400 + n % 0x400 = c.toNat := by omega
    rw [unitsOf, if_neg hone, List.cons_append, List.singleton_append, decodeUnits, if_pos hhigh,
      if_pos hlow, Nat.add_sub_cancel_left, Nat.add_sub_cancel_left, hjoin]
    dsimp only
    rw [Char.ofNat_toNat]

private theorem decodeUnits_flatMap (text : List Char) :
    decodeUnits (text.flatMap unitsOf) = some text := by
  induction text with
  | nil => rfl
  | cons c text ih => rw [List.flatMap_cons, decodeUnits_unitsOf, ih, Option.map_some]

/-- Reading undoes writing. -/
theorem decode_encode (order : ByteOrder) (text : List Char) :
    decode order (encode order text) = some text := by
  have hunits : ∀ u ∈ text.flatMap unitsOf, u < 0x10000 := by
    intro u hu
    obtain ⟨c, -, hc⟩ := List.mem_flatMap.1 hu
    exact lt_of_mem_unitsOf hc
  rw [decode, encode, units_flatMap order hunits, Option.bind_some, decodeUnits_flatMap]

end Utf16

end XmlInspect
