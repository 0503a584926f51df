import Mathlib.Data.List.Forall2
import PatternAudit.Json.Value
import PatternAudit.Proofs.Grammar
import PatternAudit.Proofs.Utf8

/-!
# What is written is JSON

The text that is written for a string is one of those that stand for it (`stringText_quote`), and
the text of a natural number is that of a location if it is small enough (`locationText_repr`).
Texts with commas between them are a list of what they stand for (`enclosed_of_forall₂`).
-/

namespace PatternAudit.Json

/-! ## Strings -/

theorem encode_toString (c : Char) : Utf8.encode c.toString = String.utf8EncodeChar c := by
  simp [Utf8.encode_eq_flatMap]

theorem utf8EncodeChar_digitChar {v : Nat} (h : v < 16) :
    String.utf8EncodeChar (Nat.digitChar v) = [byte (Nat.digitChar v)] := by
  have hAll : ∀ v < 16, String.utf8EncodeChar (Nat.digitChar v) = [byte (Nat.digitChar v)] := by
    decide
  exact hAll v h

/-- A control character is written by its code. -/
theorem charText_control {c : Char} (h : c.toNat < 0x20) :
    CharText c (Utf8.encode ("\\u00" ++
      String.ofList [Nat.digitChar (c.toNat / 16), Nat.digitChar (c.toNat % 16)])) := by
  have hHigh : c.toNat / 16 < 16 := by omega
  have hLow : c.toNat % 16 < 16 := Nat.mod_lt _ (by decide)
  have hCode := HexCode.four (.lower (v := 0) (by decide)) (.lower (v := 0) (by decide))
    (.lower hHigh) (.lower hLow)
  rw [show 16 * (16 * (16 * 0 + 0) + c.toNat / 16) + c.toNat % 16 = c.toNat by omega] at hCode
  have hDigits : Utf8.encode
      (String.ofList [Nat.digitChar (c.toNat / 16), Nat.digitChar (c.toNat % 16)]) =
        [byte (Nat.digitChar (c.toNat / 16)), byte (Nat.digitChar (c.toNat % 16))] := by
    rw [Utf8.encode_eq_flatMap, String.toList_ofList]
    simp [utf8EncodeChar_digitChar hHigh, utf8EncodeChar_digitChar hLow]
  rw [Utf8.encode_append, hDigits]
  exact .code hCode

theorem charText_escapeChar (c : Char) : CharText c (Utf8.encode (escapeChar c)) := by
  unfold escapeChar
  split_ifs with hQuote hSlash hBackspace hFeed hLine hReturn hTab hControl
  · subst hQuote
    exact .short (by decide)
  · subst hSlash
    exact .short (by decide)
  · subst hBackspace
    exact .short (by decide)
  · subst hFeed
    exact .short (by decide)
  · subst hLine
    exact .short (by decide)
  · subst hReturn
    exact .short (by decide)
  · subst hTab
    exact .short (by decide)
  · exact charText_control hControl
  · rw [encode_toString]
    exact .raw (Nat.le_of_not_lt hControl) hQuote hSlash

theorem charsText_escapeChar (cs : List Char) :
    CharsText cs (Utf8.encode (String.join (cs.map escapeChar))) := by
  induction cs with
  | nil => exact .nil
  | cons c cs ih =>
    rw [List.map_cons, Utf8.encode_join_cons]
    exact .cons (charText_escapeChar c) ih

theorem stringText_quote (s : String) : StringText s (Utf8.encode (quote s)) := by
  have hQuote : Utf8.encode "\"" = [byte '"'] := rfl
  unfold quote
  rw [Utf8.encode_append, Utf8.encode_append, hQuote]
  exact .quoted (charsText_escapeChar s.toList)

/-! ## Natural numbers -/

theorem isDigit_digitChar {v : Nat} (h : v < 10) :
    isDigit (byte (Nat.digitChar v)) ∧ digitValue (byte (Nat.digitChar v)) = v := by
  have hAll : ∀ v < 10, isDigit (byte (Nat.digitChar v)) ∧
      digitValue (byte (Nat.digitChar v)) = v := by
    decide
  exact hAll v h

theorem encode_repr (n : Nat) :
    Utf8.encode n.repr =
      (if n < 10 then [] else Utf8.encode (n / 10).repr) ++ [byte (Nat.digitChar (n % 10))] := by
  simp only [Utf8.encode_eq_flatMap, Nat.repr_eq_ofList_toDigits, String.toList_ofList]
  rw [Nat.toDigits_eq_if (by decide)]
  split
  · rename_i h
    simp [Nat.mod_eq_of_lt h, utf8EncodeChar_digitChar (Nat.lt_trans h (by decide))]
  · simp [utf8EncodeChar_digitChar (show n % 10 < 16 by omega)]

theorem decimal_concat (n : Nat) (t : List UInt8) (b : UInt8) :
    decimal n (t ++ [b]) = 10 * decimal n t + digitValue b := by
  simp [decimal]

theorem decimal_repr (n : Nat) : decimal 0 (Utf8.encode n.repr) = n := by
  induction n using Nat.strongRecOn with
  | ind n ih =>
    have hDigit := (isDigit_digitChar (show n % 10 < 10 by omega)).2
    rw [encode_repr, decimal_concat, hDigit]
    split
    · have hNil : decimal 0 [] = 0 := rfl
      omega
    · rw [ih (n / 10) (by omega)]
      omega

/-- A number that is not zero does not begin with the digit zero. -/
theorem exists_digits_repr {n : Nat} (hn : 0 < n) :
    ∃ b t, Utf8.encode n.repr = b :: t ∧ isDigit b ∧ b ≠ byte '0' ∧ Digits t := by
  induction n using Nat.strongRecOn with
  | ind n ih =>
    obtain ⟨hDigit, hValue⟩ := isDigit_digitChar (show n % 10 < 10 by omega)
    rw [encode_repr]
    split
    · refine ⟨_, [], rfl, hDigit, ?_, by decide⟩
      intro hZero
      rw [hZero] at hValue
      have : digitValue (byte '0') = 0 := rfl
      omega
    · obtain ⟨b, t, hText, hb, hZero, ht⟩ := ih (n / 10) (by omega) (by omega)
      refine ⟨b, t ++ [byte (Nat.digitChar (n % 10))], by rw [hText]; rfl, hb, hZero, ?_⟩
      exact ht.concat hDigit

theorem wholeText_repr (n : Nat) : WholeText (Utf8.encode n.repr) := by
  rcases Nat.eq_zero_or_pos n with rfl | hn
  · exact .zero
  · obtain ⟨b, t, hText, hb, hZero, ht⟩ := exists_digits_repr hn
    rw [hText]
    exact .digits hb hZero ht

theorem locationText_repr (n : UInt64) : LocationText n (Utf8.encode n.toNat.repr) :=
  ⟨wholeText_repr n.toNat, decimal_repr n.toNat⟩

/-! ## Lists -/

theorem memberText_of {key : String} {Value : List UInt8 → Prop} {s : String}
    (h : Value (Utf8.encode s)) : MemberText key Value (Utf8.encode (quote key ++ ":" ++ s)) := by
  have hColon : Utf8.encode ":" = [byte ':'] := rfl
  rw [Utf8.encode_append, Utf8.encode_append, hColon, List.append_assoc]
  exact .mk (.of (stringText_quote key)) (.of h)

section

variable {α : Type} {Item : α → List UInt8 → Prop}

theorem separated_of_forall₂ {a : α} {as : List α} {s : String} {ss : List String}
    (h : List.Forall₂ (fun a s => Item a (Utf8.encode s)) (a :: as) (s :: ss)) :
    Separated Item (a :: as) (Utf8.encode (",".intercalate (s :: ss))) := by
  induction as generalizing a s ss with
  | nil =>
    obtain _ | ⟨ha, hs⟩ := h
    cases hs
    rw [String.intercalate_singleton]
    exact .last ha
  | cons b as ih =>
    obtain _ | ⟨ha, hs⟩ := h
    obtain ⟨u, us, rfl⟩ : ∃ u us, ss = u :: us := by
      cases hs
      exact ⟨_, _, rfl⟩
    have hComma : Utf8.encode "," = [byte ','] := rfl
    rw [String.intercalate_cons_cons, Utf8.encode_append, Utf8.encode_append, hComma,
      List.append_assoc]
    exact .more ha (ih hs)

theorem enclosed_of_forall₂ {opening closing : Char} {as : List α} {ss : List String}
    (h : List.Forall₂ (fun a s => Item a (Utf8.encode s)) as ss) :
    Enclosed opening closing Item as
      (byte opening :: (Utf8.encode (",".intercalate ss) ++ [byte closing])) := by
  cases h with
  | nil => exact .empty blanks_nil
  | cons ha hs => exact .items (separated_of_forall₂ (.cons ha hs))

end

end PatternAudit.Json
