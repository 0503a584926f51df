import Mathlib.Data.String.Basic
import Mathlib.Order.Monotone.Basic
import PatternAudit.Text.Utf8

/-!
# Texts in the order of their bytes

Names are compared as texts, character by character. Every order that is promised to a reader of the
reports is an order of bytes. The two agree, because UTF-8 keeps the order of characters: a longer
form starts with a greater byte, and forms of one length are compared digit by digit in base 64.

* `charBytes_append_lt`: a lesser character has lesser bytes, whatever follows the two.
* `bytes_strictMono`: a lesser text has lesser bytes. Both orders are total, so comparing two texts
  is comparing their bytes (`bytes_lt_iff`), and different texts have different bytes.
-/

namespace PatternAudit.Utf8

/-- The bytes of a character, as numbers. -/
def charBytes (c : Char) : List Nat :=
  (String.utf8EncodeChar c).map UInt8.toNat

/-- The bytes of a text, as numbers. -/
def bytes (s : String) : List Nat :=
  (encode s).map UInt8.toNat

theorem encode_eq_flatMap (s : String) : encode s = s.toList.flatMap String.utf8EncodeChar := by
  unfold encode
  rw [← String.utf8Encode_toList]
  exact List.toList_data_toByteArray

theorem bytes_eq_flatMap (s : String) : bytes s = s.toList.flatMap charBytes := by
  rw [bytes, encode_eq_flatMap, List.map_flatMap]
  rfl

/-! ## Characters -/

theorem toNat_le_max (c : Char) : c.toNat ≤ 0x10ffff := by
  rcases c.valid with h | ⟨_, h⟩
  · exact Nat.le_trans (Nat.le_of_lt h) (by decide)
  · exact Nat.le_of_lt_succ h

/-- The four lengths of a form, each with its range of codes. The first byte tells the length, the
following ones are digits in base 64. -/
theorem charBytes_cases (c : Char) :
    (c.toNat ≤ 0x7f ∧ charBytes c = [c.toNat]) ∨
    (0x7f < c.toNat ∧ c.toNat ≤ 0x7ff ∧
      charBytes c = [0xc0 + c.toNat / 64, 0x80 + c.toNat % 64]) ∨
    (0x7ff < c.toNat ∧ c.toNat ≤ 0xffff ∧
      charBytes c = [0xe0 + c.toNat / 4096, 0x80 + c.toNat / 64 % 64, 0x80 + c.toNat % 64]) ∨
    (0xffff < c.toNat ∧
      charBytes c = [0xf0 + c.toNat / 262144, 0x80 + c.toNat / 4096 % 64,
        0x80 + c.toNat / 64 % 64, 0x80 + c.toNat % 64]) := by
  have hMax := toNat_le_max c
  have hVal : c.val.toNat = c.toNat := rfl
  unfold charBytes String.utf8EncodeChar
  simp only [hVal]
  split
  · refine Or.inl ⟨by assumption, ?_⟩
    simp only [List.map_cons, List.map_nil, UInt8.toNat_ofNat', List.cons.injEq, and_true]
    omega
  · split
    · refine Or.inr (Or.inl ⟨by omega, by assumption, ?_⟩)
      simp only [List.map_cons, List.map_nil, UInt8.toNat_ofNat', List.cons.injEq, and_true]
      omega
    · split
      · refine Or.inr (Or.inr (Or.inl ⟨by omega, by assumption, ?_⟩))
        simp only [List.map_cons, List.map_nil, UInt8.toNat_ofNat', List.cons.injEq, and_true]
        omega
      · refine Or.inr (Or.inr (Or.inr ⟨by omega, ?_⟩))
        simp only [List.map_cons, List.map_nil, UInt8.toNat_ofNat', List.cons.injEq, and_true]
        omega

theorem charBytes_ne_nil (c : Char) : charBytes c ≠ [] := by
  rcases charBytes_cases c with ⟨_, h⟩ | ⟨_, _, h⟩ | ⟨_, _, h⟩ | ⟨_, h⟩ <;> simp [h]

theorem charBytes_append_lt {c d : Char} (h : c < d) (x y : List Nat) :
    charBytes c ++ x < charBytes d ++ y := by
  have hcd : c.toNat < d.toNat := h
  have hMax := toNat_le_max d
  -- Forms of different lengths differ in their first byte, forms of one length in some digit.
  rcases charBytes_cases c with ⟨_, hc⟩ | ⟨_, _, hc⟩ | ⟨_, _, hc⟩ | ⟨_, hc⟩ <;>
    rcases charBytes_cases d with ⟨_, hd⟩ | ⟨_, _, hd⟩ | ⟨_, _, hd⟩ | ⟨_, hd⟩ <;>
    simp only [hc, hd, List.cons_append, List.nil_append, List.cons_lt_cons_iff] <;>
    omega

/-! ## Texts -/

theorem flatMap_charBytes_lt {l m : List Char} (h : l < m) :
    l.flatMap charBytes < m.flatMap charBytes := by
  induction l generalizing m with
  | nil =>
    cases m with
    | nil => exact absurd h (lt_irrefl _)
    | cons d m =>
      rw [List.flatMap_cons]
      cases hd : charBytes d with
      | nil => exact absurd hd (charBytes_ne_nil d)
      | cons b bs => exact List.nil_lt_cons _ _
  | cons c l ih =>
    cases m with
    | nil => exact absurd h (List.not_lt_nil _)
    | cons d m =>
      simp only [List.flatMap_cons]
      rcases List.cons_lt_cons_iff.mp h with hcd | ⟨rfl, hlm⟩
      · exact charBytes_append_lt hcd _ _
      · exact List.append_left_lt (ih hlm)

theorem bytes_strictMono : StrictMono bytes := by
  intro s t h
  rw [bytes_eq_flatMap, bytes_eq_flatMap]
  exact flatMap_charBytes_lt (String.lt_iff_toList_lt.mp h)

theorem bytes_lt_iff {s t : String} : bytes s < bytes t ↔ s < t :=
  bytes_strictMono.lt_iff_lt

theorem bytes_injective : Function.Injective bytes :=
  bytes_strictMono.injective

end PatternAudit.Utf8
