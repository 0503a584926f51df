import Mathlib.Tactic.SplitIfs
import PatternAudit.Json.Byte
import PatternAudit.Proofs.ByteOrder

/-!
# Reading back the bytes of a text

The bytes of a character are read as one piece, whatever follows them (`pieces_char_append`). The
bytes of a text are therefore read as this text and no other (`decode_encode`). A byte of ASCII is
never a part of a longer character (`eq_of_byte_mem`).
-/

namespace PatternAudit.Utf8

/-! ## First bytes -/

section

variable {b : UInt8}

theorem lead?_one (h : b.toNat ≤ 0x7f) : lead? b = some ⟨b.toNat, 0, 0x80, 0xbf⟩ := by
  unfold lead?
  rw [if_pos]
  exact UInt8.lt_iff_toNat_lt.mpr (Nat.lt_succ_of_le h)

theorem lead?_two (hLeast : 0xc2 ≤ b.toNat) (hGreatest : b.toNat < 0xe0) :
    lead? b = some ⟨b.toNat - 0xc0, 1, 0x80, 0xbf⟩ := by
  unfold lead?
  simp only [UInt8.lt_iff_toNat_lt, UInt8.reduceToNat]
  rw [if_neg (by omega), if_neg (by omega), if_pos hGreatest]

theorem lead?_three (hLeast : 0xe0 ≤ b.toNat) (hGreatest : b.toNat < 0xf0) :
    lead? b = some ⟨b.toNat - 0xe0, 2, if b = 0xe0 then 0xa0 else 0x80,
      if b = 0xed then 0x9f else 0xbf⟩ := by
  unfold lead?
  simp only [UInt8.lt_iff_toNat_lt, UInt8.reduceToNat]
  rw [if_neg (by omega), if_neg (by omega), if_neg (by omega), if_pos hGreatest]

theorem lead?_four (hLeast : 0xf0 ≤ b.toNat) (hGreatest : b.toNat < 0xf5) :
    lead? b = some ⟨b.toNat - 0xf0, 3, if b = 0xf0 then 0x90 else 0x80,
      if b = 0xf4 then 0x8f else 0xbf⟩ := by
  unfold lead?
  simp only [UInt8.lt_iff_toNat_lt, UInt8.reduceToNat]
  rw [if_neg (by omega), if_neg (by omega), if_neg (by omega), if_neg (by omega), if_pos hGreatest]

end

/-! ## Following bytes -/

theorem follow_zero (bits : Nat) (least greatest : UInt8) (rest : List UInt8) :
    follow bits 0 least greatest rest = (.char (Char.ofNat bits), rest) := by
  cases rest <;> rfl

theorem follow_succ {least greatest b : UInt8} (bits more : Nat) (rest : List UInt8)
    (hLeast : least.toNat ≤ b.toNat) (hGreatest : b.toNat ≤ greatest.toNat) :
    follow bits (more + 1) least greatest (b :: rest) =
      follow (64 * bits + (b.toNat - 0x80)) more 0x80 0xbf rest :=
  if_pos ⟨UInt8.le_iff_toNat_le.mpr hLeast, UInt8.le_iff_toNat_le.mpr hGreatest⟩

/-- After the second byte of a character the bounds are those of any digit in base 64. -/
theorem follow_digit {b : UInt8} {digit : Nat} (bits more : Nat) (rest : List UInt8)
    (hb : b.toNat = 0x80 + digit) (hDigit : digit < 64) :
    follow bits (more + 1) 0x80 0xbf (b :: rest) =
      follow (64 * bits + digit) more 0x80 0xbf rest := by
  have hLeast : (0x80 : UInt8).toNat ≤ b.toNat := by
    rw [hb]
    exact Nat.le_add_right ..
  have hGreatest : b.toNat ≤ (0xbf : UInt8).toNat := by
    rw [hb]
    exact Nat.add_le_add_left (Nat.le_of_lt_succ hDigit) _
  rw [follow_succ bits more rest hLeast hGreatest, hb, Nat.add_sub_cancel_left]

/-! ## Characters

A form of two, three or four bytes gives back the code that it was made from. The bounds on the
second byte hold because no character is a surrogate.
-/

section

variable {a b d e : UInt8} {n : Nat}

theorem next_one (ha : a.toNat = n) (hMax : n ≤ 0x7f) (rest : List UInt8) :
    next a rest = (.char (Char.ofNat n), rest) := by
  rw [next, lead?_one (ha ▸ hMax)]
  simp only [follow_zero, ha]

theorem next_two (ha : a.toNat = 0xc0 + n / 64) (hb : b.toNat = 0x80 + n % 64)
    (hMin : 0x7f < n) (hMax : n ≤ 0x7ff) (rest : List UInt8) :
    next a (b :: rest) = (.char (Char.ofNat n), rest) := by
  rw [next, lead?_two (by omega) (by omega)]
  dsimp only
  rw [follow_digit _ _ _ hb (by omega), follow_zero, ha]
  congr 3
  omega

theorem next_three (ha : a.toNat = 0xe0 + n / 4096) (hb : b.toNat = 0x80 + n / 64 % 64)
    (hd : d.toNat = 0x80 + n % 64) (hMin : 0x7ff < n) (hMax : n ≤ 0xffff)
    (hValid : n < 0xd800 ∨ 0xdfff < n) (rest : List UInt8) :
    next a (b :: d :: rest) = (.char (Char.ofNat n), rest) := by
  have hLeast : (if a = 0xe0 then 0xa0 else 0x80 : UInt8).toNat ≤ b.toNat := by
    split_ifs with h
    · have hFirst : a.toNat = 0xe0 := congrArg UInt8.toNat h
      exact show 0xa0 ≤ b.toNat by omega
    · exact show 0x80 ≤ b.toNat by omega
  have hGreatest : b.toNat ≤ (if a = 0xed then 0x9f else 0xbf : UInt8).toNat := by
    split_ifs with h
    · have hFirst : a.toNat = 0xed := congrArg UInt8.toNat h
      exact show b.toNat ≤ 0x9f by omega
    · exact show b.toNat ≤ 0xbf by omega
  rw [next, lead?_three (by omega) (by omega)]
  dsimp only
  rw [follow_succ _ _ _ hLeast hGreatest, follow_digit _ _ _ hd (by omega), follow_zero, ha, hb]
  congr 3
  omega

theorem next_four (ha : a.toNat = 0xf0 + n / 262144) (hb : b.toNat = 0x80 + n / 4096 % 64)
    (hd : d.toNat = 0x80 + n / 64 % 64) (he : e.toNat = 0x80 + n % 64) (hMin : 0xffff < n)
    (hMax : n ≤ 0x10ffff) (rest : List UInt8) :
    next a (b :: d :: e :: rest) = (.char (Char.ofNat n), rest) := by
  have hLeast : (if a = 0xf0 then 0x90 else 0x80 : UInt8).toNat ≤ b.toNat := by
    split_ifs with h
    · have hFirst : a.toNat = 0xf0 := congrArg UInt8.toNat h
      exact show 0x90 ≤ b.toNat by omega
    · exact show 0x80 ≤ b.toNat by omega
  have hGreatest : b.toNat ≤ (if a = 0xf4 then 0x8f else 0xbf : UInt8).toNat := by
    split_ifs with h
    · have hFirst : a.toNat = 0xf4 := congrArg UInt8.toNat h
      exact show b.toNat ≤ 0x8f by omega
    · exact show b.toNat ≤ 0xbf by omega
  rw [next, lead?_four (by omega) (by omega)]
  dsimp only
  rw [follow_succ _ _ _ hLeast hGreatest, follow_digit _ _ _ hd (by omega),
    follow_digit _ _ _ he (by omega), follow_zero, ha, hb]
  congr 3
  omega

end

/-! ## Bytes of ASCII -/

section

open Json (byte)

theorem toNat_byte {c : Char} (h : c.toNat < 0x80) : (byte c).toNat = c.toNat := by
  rw [byte, Nat.toUInt8, UInt8.toNat_ofNat']
  omega

theorem byte_ne_byte {c d : Char} (hc : c.toNat < 0x80) (hd : d.toNat < 0x80) (h : c ≠ d) :
    byte c ≠ byte d := by
  intro hEq
  have hCode := congrArg UInt8.toNat hEq
  rw [toNat_byte hc, toNat_byte hd] at hCode
  exact h (Char.toNat_inj.mp hCode)

theorem utf8EncodeChar_ascii {c : Char} (h : c.toNat < 0x80) :
    String.utf8EncodeChar c = [byte c] := by
  rcases charBytes_cases c with ⟨_, hc⟩ | ⟨hMin, _⟩ | ⟨hMin, _⟩ | ⟨hMin, _⟩
  · obtain ⟨b, hb, hCode⟩ := List.map_eq_singleton_iff.mp hc
    rw [hb, UInt8.toNat_inj.mp (hCode.trans (toNat_byte h).symm)]
  all_goals omega

/-- A byte of ASCII stands for itself wherever it is met. -/
theorem eq_of_byte_mem {c d : Char} (hd : d.toNat < 0x80)
    (h : byte d ∈ String.utf8EncodeChar c) : c = d := by
  have hMem : (byte d).toNat ∈ charBytes c := List.mem_map_of_mem h
  rw [toNat_byte hd] at hMem
  refine Char.toNat_inj.mp ?_
  rcases charBytes_cases c with ⟨_, hc⟩ | ⟨_, _, hc⟩ | ⟨_, _, hc⟩ | ⟨_, hc⟩ <;>
    simp only [hc, List.mem_cons, List.not_mem_nil, or_false] at hMem <;> omega

end

/-! ## Texts -/

theorem pieces_char_append (c : Char) (rest : List UInt8) :
    pieces (String.utf8EncodeChar c ++ rest) = .char c :: pieces rest := by
  suffices h : ∃ b tail, String.utf8EncodeChar c = b :: tail ∧
      next b (tail ++ rest) = (.char (Char.ofNat c.toNat), rest) by
    obtain ⟨b, tail, hChar, hNext⟩ := h
    rw [hChar, List.cons_append, pieces, hNext, Char.ofNat_toNat]
  rcases charBytes_cases c with ⟨hMax, h⟩ | ⟨hMin, hMax, h⟩ | ⟨hMin, hMax, h⟩ | ⟨hMin, h⟩ <;>
    simp only [charBytes, List.map_eq_cons_iff, List.map_eq_nil_iff] at h
  · obtain ⟨a, _, hChar, ha, rfl⟩ := h
    exact ⟨a, [], hChar, next_one ha hMax rest⟩
  · obtain ⟨a, _, hChar, ha, b, _, rfl, hb, rfl⟩ := h
    exact ⟨a, [b], hChar, next_two ha hb hMin hMax rest⟩
  · obtain ⟨a, _, hChar, ha, b, _, rfl, hb, d, _, rfl, hd, rfl⟩ := h
    exact ⟨a, [b, d], hChar, next_three ha hb hd hMin hMax (c.valid.imp_right And.left) rest⟩
  · obtain ⟨a, _, hChar, ha, b, _, rfl, hb, d, _, rfl, hd, e, _, rfl, he, rfl⟩ := h
    exact ⟨a, [b, d, e], hChar, next_four ha hb hd he hMin (toNat_le_max c) rest⟩

theorem pieces_flatMap (cs : List Char) :
    pieces (cs.flatMap String.utf8EncodeChar) = cs.map .char := by
  induction cs with
  | nil => rw [List.flatMap_nil, pieces, List.map_nil]
  | cons c cs ih => rw [List.flatMap_cons, pieces_char_append, ih, List.map_cons]

theorem decode_flatMap (cs : List Char) :
    decode (cs.flatMap String.utf8EncodeChar) = .ok (String.ofList cs) := by
  have hChars : (cs.map Piece.char).mapM Piece.char? = some cs := by
    rw [List.mapM_map]
    induction cs with
    | nil => rfl
    | cons c cs ih =>
      rw [List.mapM_cons, ih]
      rfl
  unfold decode
  rw [pieces_flatMap, hChars]

theorem decode_encode (s : String) : decode (encode s) = .ok s := by
  rw [encode_eq_flatMap, decode_flatMap, String.ofList_toList]

theorem encode_append (s t : String) : encode (s ++ t) = encode s ++ encode t := by
  simp only [encode_eq_flatMap, String.toList_append, List.flatMap_append]

theorem encode_join_cons (s : String) (l : List String) :
    encode (String.join (s :: l)) = encode s ++ encode (String.join l) := by
  simp [encode_eq_flatMap, String.toList_join]

end PatternAudit.Utf8
