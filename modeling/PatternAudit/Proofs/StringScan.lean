import Mathlib.Data.List.Basic
import PatternAudit.Json.SkipScan
import PatternAudit.Json.StringScan
import PatternAudit.Proofs.Grammar
import PatternAudit.Proofs.Utf8

/-!
# Strings are read as what they stand for

However its characters are spelled, the scan of a string collects their bytes
(`StringScan.steps_chars`), and these are read back as the string (`StringScan.text_encode`). A
string that is passed over takes its scan back to where it was (`SkipString.steps_loose`).
-/

namespace PatternAudit.Json

/-! ## Runs of a scan -/

/-- Some bytes take a machine from one state to another, each of them by one step. -/
inductive Steps {σ : Type} (Step : σ → UInt8 → σ → Prop) : σ → List UInt8 → σ → Prop
  | nil (s : σ) : Steps Step s [] s
  | cons {s s' s'' : σ} {b : UInt8} {t : List UInt8} (hStep : Step s b s')
    (hSteps : Steps Step s' t s'') : Steps Step s (b :: t) s''

namespace Steps

variable {σ τ : Type} {Step : σ → UInt8 → σ → Prop} {Step' : τ → UInt8 → τ → Prop}

theorem append {s s' s'' : σ} {t u : List UInt8} (ht : Steps Step s t s')
    (hu : Steps Step s' u s'') : Steps Step s (t ++ u) s'' := by
  induction ht with
  | nil s => exact hu
  | cons hStep _ ih => exact .cons hStep (ih hu)

/-- The steps of one machine are steps of another one that contains it. -/
theorem map {f : σ → τ} (hf : ∀ {s b s'}, Step s b s' → Step' (f s) b (f s')) {s s' : σ}
    {t : List UInt8} (h : Steps Step s t s') : Steps Step' (f s) t (f s') := by
  induction h with
  | nil s => exact .nil (f s)
  | cons hStep _ ih => exact .cons (hf hStep) ih

/-- Bytes that all lead back to the state they come from. -/
theorem stay {s : σ} {t : List UInt8} (h : ∀ b ∈ t, Step s b s) : Steps Step s t s := by
  induction t with
  | nil => exact .nil s
  | cons b t ih =>
    exact .cons (h b List.mem_cons_self) (ih fun c hc => h c (List.mem_cons_of_mem b hc))

end Steps

/-! ## Bytes of characters -/

theorem hexValue?_of_hexDigit {v : Nat} {b : UInt8} (h : HexDigit v b) : hexValue? b = some v := by
  have hAll : ∀ v < 16, hexValue? (byte (Nat.digitChar v)) = some v ∧
      hexValue? (byte (Nat.digitChar v).toUpper) = some v := by
    decide
  cases h with
  | lower hv => exact (hAll v hv).1
  | upper hv => exact (hAll v hv).2

theorem shortEscape?_of_mem {letter c : Char} (h : (letter, c) ∈ shortEscapes) :
    byte letter ≠ byte 'u' ∧ shortEscape? (byte letter) = some (byte c) ∧
      String.utf8EncodeChar c = [byte c] := by
  have hAll : ∀ p ∈ shortEscapes, byte p.1 ≠ byte 'u' ∧
      shortEscape? (byte p.1) = some (byte p.2) ∧ String.utf8EncodeChar p.2 = [byte p.2] := by
    decide
  exact hAll (letter, c) h

/-- Whether a byte stands for itself inside a string. -/
def isPlain (b : UInt8) : Bool :=
  b != byte '"' && b != byte '\\' && !(b < 0x20)

theorem isPlain_iff {b : UInt8} :
    isPlain b ↔ b ≠ byte '"' ∧ b ≠ byte '\\' ∧ ¬ b < 0x20 := by
  simp [isPlain, and_assoc]

theorem isPlain_of_toNat {b : UInt8} (hControl : 0x20 ≤ b.toNat) (hQuote : b.toNat ≠ 0x22)
    (hSlash : b.toNat ≠ 0x5c) : isPlain b := by
  refine isPlain_iff.mpr ⟨?_, ?_, ?_⟩
  · exact fun h => hQuote (congrArg UInt8.toNat h)
  · exact fun h => hSlash (congrArg UInt8.toNat h)
  · exact fun h => Nat.not_lt.mpr hControl (UInt8.lt_iff_toNat_lt.mp h)

/-- A character that need not be escaped has no byte that must be. -/
theorem isPlain_of_mem_utf8EncodeChar {c : Char} (hControl : 0x20 ≤ c.toNat) (hQuote : c ≠ '"')
    (hSlash : c ≠ '\\') : ∀ b ∈ String.utf8EncodeChar c, isPlain b := by
  intro b hb
  have hMem : b.toNat ∈ Utf8.charBytes c := List.mem_map_of_mem hb
  have hQuote' : c.toNat ≠ 0x22 := fun h => hQuote (Char.toNat_inj.mp h)
  have hSlash' : c.toNat ≠ 0x5c := fun h => hSlash (Char.toNat_inj.mp h)
  -- Either the byte is the code of the character or it is no ASCII byte at all.
  have hCases : b.toNat = c.toNat ∨ 0x80 ≤ b.toNat := by
    rcases Utf8.charBytes_cases c with ⟨_, h⟩ | ⟨_, _, h⟩ | ⟨_, _, h⟩ | ⟨_, h⟩ <;>
      simp only [h, List.mem_cons, List.not_mem_nil, or_false] at hMem <;> omega
  rcases hCases with h | h
  · exact isPlain_of_toNat (h ▸ hControl) (h ▸ hQuote') (h ▸ hSlash')
  · exact isPlain_of_toNat (by omega) (by omega) (by omega)

/-! ## Strings that are read -/

namespace StringScan

/-- The string goes on. -/
def More (s : StringScan) (b : UInt8) (s' : StringScan) : Prop :=
  s.step b = .ok (.more s')

theorem more_plain {b : UInt8} (bytes : Array UInt8) (hb : isPlain b) :
    More ⟨bytes, .plain⟩ b ⟨bytes.push b, .plain⟩ := by
  obtain ⟨hQuote, hSlash, hControl⟩ := isPlain_iff.mp hb
  simp only [More, step, if_neg hQuote, if_neg hSlash, if_neg hControl]

theorem steps_plain (bytes : Array UInt8) {t : List UInt8} (ht : ∀ b ∈ t, isPlain b) :
    Steps More ⟨bytes, .plain⟩ t ⟨bytes ++ t.toArray, .plain⟩ := by
  induction t generalizing bytes with
  | nil =>
    rw [show bytes ++ [].toArray = bytes by simp]
    exact .nil _
  | cons b t ih =>
    have hRest := ih (bytes.push b) fun c hc => ht c (List.mem_cons_of_mem b hc)
    refine .cons (more_plain bytes (ht b List.mem_cons_self)) ?_
    simpa using hRest

theorem steps_escape {c : Char} {letter : Char} (bytes : Array UInt8)
    (h : (letter, c) ∈ shortEscapes) :
    Steps More ⟨bytes, .plain⟩ [byte '\\', byte letter]
      ⟨bytes ++ (String.utf8EncodeChar c).toArray, .plain⟩ := by
  obtain ⟨hLetter, hEscape, hBytes⟩ := shortEscape?_of_mem h
  have hSlash : More ⟨bytes, .plain⟩ (byte '\\') ⟨bytes, .escape⟩ := rfl
  refine .cons hSlash (.cons ?_ (.nil _))
  simp [More, step, hLetter, hEscape, hBytes]

theorem more_hexDigit {bytes : Array UInt8} {leading : Option Nat} {v d left : Nat} {b : UInt8}
    (h : HexDigit d b) :
    More ⟨bytes, .hex leading (some v) (left + 2)⟩ b
      ⟨bytes, .hex leading (some (16 * v + d)) (left + 1)⟩ := by
  simp [More, step, hexValue?_of_hexDigit h]

theorem more_lastHexDigit {bytes : Array UInt8} {leading : Option Nat} {v d : Nat} {b : UInt8}
    {s : StringScan} (h : HexDigit d b) (hTake : takeCode bytes leading (16 * v + d) = .ok s) :
    More ⟨bytes, .hex leading (some v) 1⟩ b s := by
  simp [More, step, hexValue?_of_hexDigit h, hTake, Except.map]

/-- The four digits of a code, after which the code is used. -/
theorem steps_hexCode {bytes : Array UInt8} {leading : Option Nat} {n : Nat} {t : List UInt8}
    {s : StringScan} (h : HexCode n t) (hTake : takeCode bytes leading n = .ok s) :
    Steps More ⟨bytes, .hex leading (some 0) 4⟩ t s := by
  cases h with
  | @four a b c d i j k l ha hb hc hd =>
    have hFirst : More ⟨bytes, .hex leading (some 0) 4⟩ a ⟨bytes, .hex leading (some i) 3⟩ := by
      have := @more_hexDigit bytes leading 0 i 2 a ha
      rwa [show 16 * 0 + i = i by omega] at this
    exact .cons hFirst (.cons (more_hexDigit hb) (.cons (more_hexDigit hc)
      (.cons (more_lastHexDigit hd hTake) (.nil s))))

theorem steps_code {c : Char} {t : List UInt8} (bytes : Array UInt8) (h : HexCode c.toNat t) :
    Steps More ⟨bytes, .plain⟩ (byte '\\' :: byte 'u' :: t)
      ⟨bytes ++ (String.utf8EncodeChar c).toArray, .plain⟩ := by
  have hValid : c.toNat < 0xd800 ∨ 0xdfff < c.toNat ∧ c.toNat < 0x110000 := c.valid
  have hTake : takeCode bytes none c.toNat =
      .ok ⟨bytes ++ (String.utf8EncodeChar c).toArray, .plain⟩ := by
    simp only [takeCode, pushCode, Char.ofNat_toNat]
    rw [if_neg (by omega), if_neg (by omega)]
  have hSlash : More ⟨bytes, .plain⟩ (byte '\\') ⟨bytes, .escape⟩ := rfl
  have hLetter : More ⟨bytes, .escape⟩ (byte 'u') ⟨bytes, .hex none (some 0) 4⟩ := rfl
  exact .cons hSlash (.cons hLetter (steps_hexCode h hTake))

theorem steps_pair {c : Char} {high low : Nat} {t u : List UInt8} (bytes : Array UInt8)
    (hHigh : HexCode (0xd800 + high) t) (hLow : HexCode (0xdc00 + low) u) (hHighLt : high < 0x400)
    (hLowLt : low < 0x400) (hChar : c.toNat = 0x10000 + 0x400 * high + low) :
    Steps More ⟨bytes, .plain⟩ (byte '\\' :: byte 'u' :: (t ++ byte '\\' :: byte 'u' :: u))
      ⟨bytes ++ (String.utf8EncodeChar c).toArray, .plain⟩ := by
  have hTakeHigh : takeCode bytes none (0xd800 + high) =
      .ok ⟨bytes, .partnerSlash (0xd800 + high)⟩ := by
    simp only [takeCode]
    rw [if_neg (by omega), if_pos (by omega)]
  have hTakeLow : takeCode bytes (some (0xd800 + high)) (0xdc00 + low) =
      .ok ⟨bytes ++ (String.utf8EncodeChar c).toArray, .plain⟩ := by
    have hCode : 0x10000 + (0xd800 + high - 0xd800) * 0x400 + (0xdc00 + low - 0xdc00) =
        c.toNat := by omega
    simp only [takeCode, pushCode, hCode, Char.ofNat_toNat]
    rw [if_pos (by omega)]
  have hSlash : More ⟨bytes, .plain⟩ (byte '\\') ⟨bytes, .escape⟩ := rfl
  have hLetter : More ⟨bytes, .escape⟩ (byte 'u') ⟨bytes, .hex none (some 0) 4⟩ := rfl
  have hPartner : More ⟨bytes, .partnerSlash (0xd800 + high)⟩ (byte '\\')
      ⟨bytes, .partnerLetter (0xd800 + high)⟩ := rfl
  have hPartner' : More ⟨bytes, .partnerLetter (0xd800 + high)⟩ (byte 'u')
      ⟨bytes, .hex (some (0xd800 + high)) (some 0) 4⟩ := rfl
  refine .cons hSlash (.cons hLetter ((steps_hexCode hHigh hTakeHigh).append ?_))
  exact .cons hPartner (.cons hPartner' (steps_hexCode hLow hTakeLow))

/-- However a character is written, its bytes are collected. -/
theorem steps_char {c : Char} {t : List UInt8} (h : CharText c t) (bytes : Array UInt8) :
    Steps More ⟨bytes, .plain⟩ t ⟨bytes ++ (String.utf8EncodeChar c).toArray, .plain⟩ := by
  cases h with
  | raw hControl hQuote hSlash =>
    exact steps_plain bytes (isPlain_of_mem_utf8EncodeChar hControl hQuote hSlash)
  | short hShort => exact steps_escape bytes hShort
  | code hCode => exact steps_code bytes hCode
  | pair hHigh hLow hHighLt hLowLt hChar => exact steps_pair bytes hHigh hLow hHighLt hLowLt hChar

theorem steps_chars {cs : List Char} {t : List UInt8} (h : CharsText cs t) (bytes : Array UInt8) :
    Steps More ⟨bytes, .plain⟩ t
      ⟨bytes ++ (cs.flatMap String.utf8EncodeChar).toArray, .plain⟩ := by
  induction h generalizing bytes with
  | nil =>
    rw [show bytes ++ (List.flatMap String.utf8EncodeChar []).toArray = bytes by simp]
    exact .nil _
  | @cons c cs t u hc _ ih =>
    have hSteps := (steps_char hc bytes).append (ih _)
    simpa using hSteps

theorem text_encode (s : String) : text (Utf8.encode s).toArray = .ok s := by
  simp only [text, Utf8.decode_encode]
  rfl

theorem steps_string {s : String} {t : List UInt8} (h : CharsText s.toList t) :
    Steps More start t ⟨(Utf8.encode s).toArray, .plain⟩ := by
  have hSteps := steps_chars h #[]
  rw [← Utf8.encode_eq_flatMap] at hSteps
  simpa [start] using hSteps

end StringScan

/-! ## Strings that are passed over -/

namespace SkipString

/-- The string goes on. -/
def More (s : SkipString) (b : UInt8) (s' : SkipString) : Prop :=
  s.step b = .ok (some s')

theorem more_plain {b : UInt8} (hb : isPlain b) : More .plain b .plain := by
  obtain ⟨hQuote, hSlash, hControl⟩ := isPlain_iff.mp hb
  simp only [More, step, if_neg hQuote, if_neg hSlash, if_neg hControl]

theorem more_hexDigit {d left : Nat} {b : UInt8} (h : HexDigit d b) :
    More (.hex true (left + 2)) b (.hex true (left + 1)) := by
  simp [More, step, hexValue?_of_hexDigit h]

theorem steps_code {n : Nat} {t : List UInt8} (h : HexCode n t) :
    Steps More .plain (byte '\\' :: byte 'u' :: t) .plain := by
  cases h with
  | @four a b c d _ _ _ _ ha hb hc hd =>
    have hSlash : More .plain (byte '\\') .escape := rfl
    have hLetter : More .escape (byte 'u') (.hex true 4) := rfl
    have hLast : More (.hex true 1) d .plain := by
      simp [More, step, hexValue?_of_hexDigit hd]
    exact .cons hSlash (.cons hLetter (.cons (more_hexDigit ha) (.cons (more_hexDigit hb)
      (.cons (more_hexDigit hc) (.cons hLast (.nil _))))))

theorem steps_char {c : Char} {t : List UInt8} (h : CharText c t) : Steps More .plain t .plain := by
  cases h with
  | raw hControl hQuote hSlash =>
    exact .stay fun b hb =>
      more_plain (isPlain_of_mem_utf8EncodeChar hControl hQuote hSlash b hb)
  | short hShort =>
    obtain ⟨hLetter, hEscape, _⟩ := shortEscape?_of_mem hShort
    have hSlash : More .plain (byte '\\') .escape := rfl
    refine .cons hSlash (.cons ?_ (.nil _))
    simp [More, step, hLetter, hEscape]
  | code hCode => exact steps_code hCode
  | pair hHigh hLow _ _ _ => exact (steps_code hHigh).append (steps_code hLow)

theorem steps_loose {t : List UInt8} (h : LooseText t) : Steps More .plain t .plain := by
  induction h with
  | nil => exact .nil _
  | char ht _ ih => exact (steps_char ht).append ih
  | code ht _ ih => exact (steps_code ht).append ih

end SkipString

end PatternAudit.Json
