import Mathlib.Tactic.SplitIfs
import PatternAudit.Json.NumberScan
import PatternAudit.Proofs.StringScan

/-!
# Numbers are read in the form that the grammar gives them

Two scans go through the digits, points and marks of a number: one keeps its value, the other does
not. They have the same shape (`NumberPhase.step_shape`), except that the first may find the number
too large. So what the grammar says is proved of the second alone and carried over.

* `SkipNumber.exists_steps_of_numberText`, `SkipNumber.numberText_of_steps`: the scan without a
  value runs through exactly the texts of numbers.
* `readNumber_of_numberText`: the text of a number is refused only for its size, and
  `numberText_of_readNumber`: nothing else is read as a number.
* `readNumber_of_locationText`: a location is read exactly.
-/

namespace PatternAudit.Json

/-! ## The form of a number -/

theorem isDelimiter_iff {b : UInt8} :
    isDelimiter b ↔ b = 0x20 ∨ b = 0x0a ∨ b = 0x09 ∨ b = 0x0d ∨ b = byte ',' ∨ b = byte ']' ∨
      b = byte '\x7d' := by
  simp [isDelimiter, isBlank, or_assoc]

namespace SkipNumber

/-- The number goes on. -/
def More (n : SkipNumber) (b : UInt8) (n' : SkipNumber) : Prop :=
  n.step b = .ok (some n')

theorem steps_digits {n : SkipNumber} {t : List UInt8}
    (hn : n = .whole ∨ n = .fraction ∨ n = .exponent) (ht : Digits t) : Steps More n t n := by
  refine .stay fun b hb => ?_
  rcases hn with rfl | rfl | rfl <;> exact if_pos (ht b hb)

/-- The state after the digits of a whole number. -/
def IsWhole (n : SkipNumber) : Prop := n = .zero ∨ n = .whole

theorem steps_whole {t : List UInt8} (h : WholeText t) :
    ∃ b u n, t = b :: u ∧ isDigit b ∧ Steps More (start b) u n ∧ IsWhole n := by
  cases h with
  | zero => exact ⟨_, [], .zero, rfl, rfl, .nil _, .inl rfl⟩
  | @digits b u hb hZero hu =>
    have hStart : start b = .whole := by
      have hSign : b ≠ byte '-' := by
        rintro rfl
        cases hb
      rw [start, if_neg hSign, if_neg hZero]
    refine ⟨b, u, .whole, rfl, hb, ?_, .inr rfl⟩
    rw [hStart]
    exact steps_digits (.inl rfl) hu

theorem steps_fraction {n : SkipNumber} {t : List UInt8} (hn : IsWhole n) (h : FractionText t) :
    ∃ n', Steps More n t n' ∧ (IsWhole n' ∨ n' = .fraction) := by
  cases h with
  | none => exact ⟨n, .nil n, .inl hn⟩
  | @digits b u hb hu =>
    have hPoint : More n (byte '.') .point := by
      rcases hn with rfl | rfl <;> rfl
    have hDigit : More .point b .fraction := if_pos hb
    exact ⟨.fraction, .cons hPoint (.cons hDigit (steps_digits (.inr (.inl rfl)) hu)), .inr rfl⟩

theorem steps_exponent {n : SkipNumber} {t : List UInt8} (hn : IsWhole n ∨ n = .fraction)
    (h : ExponentText t) : ∃ n', Steps More n t n' ∧ n'.isComplete := by
  cases h with
  | none => exact ⟨n, .nil n, by rcases hn with (rfl | rfl) | rfl <;> rfl⟩
  | @digits mark b sign u hMark hSign hb hu =>
    have hMark' : More n mark .mark := by
      rcases hn with (rfl | rfl) | rfl <;> rcases hMark with rfl | rfl <;> rfl
    have hDigits := @steps_digits .exponent u (.inr (.inr rfl)) hu
    refine ⟨.exponent, .cons hMark' ?_, rfl⟩
    rcases hSign with rfl | rfl | rfl
    · exact .cons (if_pos hb) hDigits
    · have hSigned : More .mark (byte '+') .signedMark := rfl
      exact .cons hSigned (.cons (if_pos hb) hDigits)
    · have hSigned : More .mark (byte '-') .signedMark := rfl
      exact .cons hSigned (.cons (if_pos hb) hDigits)

theorem steps_unsigned {t u v : List UInt8} (ht : WholeText t) (hu : FractionText u)
    (hv : ExponentText v) :
    ∃ b w n, t ++ u ++ v = b :: w ∧ isDigit b ∧ Steps More (start b) w n ∧ n.isComplete := by
  obtain ⟨b, w, n, rfl, hb, hWhole, hn⟩ := steps_whole ht
  obtain ⟨n', hFraction, hn'⟩ := steps_fraction hn hu
  obtain ⟨n'', hExponent, hn''⟩ := steps_exponent hn' hv
  exact ⟨b, _, n'', rfl, hb, (hWhole.append hFraction).append hExponent, hn''⟩

/-- A number that is complete ends before a delimiter. -/
theorem step_of_isDelimiter {n : SkipNumber} {b : UInt8} (hn : n.isComplete)
    (hb : isDelimiter b) : n.step b = .ok none := by
  rcases isDelimiter_iff.mp hb with rfl | rfl | rfl | rfl | rfl | rfl | rfl <;>
    cases n <;> first | rfl | cases hn

/-- The scan runs through the text of any number. -/
theorem exists_steps_of_numberText {t : List UInt8} (h : NumberText t) :
    ∃ b u n, t = b :: u ∧ (b = byte '-' ∨ isDigit b) ∧ Steps More (start b) u n ∧
      n.isComplete := by
  cases h with
  | plain ht hu hv =>
    obtain ⟨b, w, n, hText, hb, hSteps, hn⟩ := steps_unsigned ht hu hv
    exact ⟨b, w, n, hText, .inr hb, hSteps, hn⟩
  | negative ht hu hv =>
    obtain ⟨b, w, n, hText, hb, hSteps, hn⟩ := steps_unsigned ht hu hv
    have hFirst : More (start (byte '-')) b (start b) := if_pos hb
    exact ⟨byte '-', b :: w, n, by rw [hText], .inl rfl, .cons hFirst hSteps, hn⟩

/-! The other way round, every state tells what has been read since the sign. -/

/-- The texts after which the scan is in a state, without the sign. -/
def Passed : SkipNumber → List UInt8 → Prop
  | sign, t => t = []
  | zero, t => t = [byte '0']
  | whole, t => ∃ b u, t = b :: u ∧ isDigit b ∧ b ≠ byte '0' ∧ Digits u
  | point, t => ∃ u, WholeText u ∧ t = u ++ [byte '.']
  | fraction, t => ∃ u b v, WholeText u ∧ isDigit b ∧ Digits v ∧ t = u ++ byte '.' :: b :: v
  | mark, t => ∃ u v m, WholeText u ∧ FractionText v ∧ (m = byte 'e' ∨ m = byte 'E') ∧
    t = u ++ v ++ [m]
  | signedMark, t => ∃ u v m s, WholeText u ∧ FractionText v ∧ (m = byte 'e' ∨ m = byte 'E') ∧
    (s = byte '+' ∨ s = byte '-') ∧ t = u ++ v ++ [m, s]
  | exponent, t => ∃ u v m s b w, WholeText u ∧ FractionText v ∧ (m = byte 'e' ∨ m = byte 'E') ∧
    (s = [] ∨ s = [byte '+'] ∨ s = [byte '-']) ∧ isDigit b ∧ Digits w ∧
    t = u ++ v ++ m :: (s ++ b :: w)

theorem passed_of_more {n n' : SkipNumber} {b : UInt8} {t : List UInt8} (hn : n.Passed t)
    (h : More n b n') : n'.Passed (t ++ [b]) := by
  cases n with
  | sign =>
    cases hn
    simp only [More, step, start] at h
    split_ifs at h with hb hMinus hZero
    · cases hMinus
      cases hb
    · cases h
      rw [hZero]
      rfl
    · cases h
      exact ⟨b, [], rfl, hb, hZero, nofun⟩
  | zero =>
    cases hn
    simp only [More, step] at h
    split_ifs at h with hb hPoint hMark
    · cases h
      rw [hPoint]
      exact ⟨_, .zero, rfl⟩
    · cases h
      exact ⟨_, [], b, .zero, .none, hMark, rfl⟩
    · cases h
  | whole =>
    obtain ⟨c, u, rfl, hc, hZero, hu⟩ := hn
    simp only [More, step] at h
    split_ifs at h with hb hPoint hMark
    · cases h
      exact ⟨c, u ++ [b], rfl, hc, hZero, hu.concat hb⟩
    · cases h
      rw [hPoint]
      exact ⟨_, .digits hc hZero hu, rfl⟩
    · cases h
      exact ⟨_, [], b, .digits hc hZero hu, .none, hMark, by simp⟩
    · cases h
  | point =>
    obtain ⟨u, hu, rfl⟩ := hn
    simp only [More, step] at h
    split_ifs at h with hb
    cases h
    exact ⟨u, b, [], hu, hb, nofun, by simp⟩
  | fraction =>
    obtain ⟨u, c, v, hu, hc, hv, rfl⟩ := hn
    simp only [More, step] at h
    split_ifs at h with hb hMark
    · cases h
      exact ⟨u, c, v ++ [b], hu, hc, hv.concat hb, by simp⟩
    · cases h
      exact ⟨u, _, b, hu, .digits hc hv, hMark, rfl⟩
    · cases h
  | mark =>
    obtain ⟨u, v, m, hu, hv, hMark, rfl⟩ := hn
    simp only [More, step] at h
    split_ifs at h with hb hSign
    · cases h
      exact ⟨u, v, m, [], b, [], hu, hv, hMark, .inl rfl, hb, nofun, by simp⟩
    · cases h
      exact ⟨u, v, m, b, hu, hv, hMark, hSign, by simp⟩
  | signedMark =>
    obtain ⟨u, v, m, s, hu, hv, hMark, hSign, rfl⟩ := hn
    simp only [More, step] at h
    split_ifs at h with hb
    cases h
    refine ⟨u, v, m, [s], b, [], hu, hv, hMark, .inr ?_, hb, nofun, by simp⟩
    exact hSign.imp (congrArg (fun c => [c])) (congrArg fun c => [c])
  | exponent =>
    obtain ⟨u, v, m, s, c, w, hu, hv, hMark, hSign, hc, hw, rfl⟩ := hn
    simp only [More, step] at h
    split_ifs at h with hb
    · cases h
      exact ⟨u, v, m, s, c, w ++ [b], hu, hv, hMark, hSign, hc, hw.concat hb, by simp⟩
    · cases h

theorem passed_of_steps {n n' : SkipNumber} {t u : List UInt8} (hn : n.Passed t)
    (h : Steps More n u n') : n'.Passed (t ++ u) := by
  induction h generalizing t with
  | nil n => rwa [List.append_nil]
  | @cons n n' n'' b u hStep _ ih =>
    have hRest := ih (passed_of_more hn hStep)
    rwa [List.append_assoc] at hRest

/-- A text that has been passed to its end is a number, with or without a sign. -/
theorem exists_parts_of_passed {n : SkipNumber} {t : List UInt8} (hn : n.Passed t)
    (hComplete : n.isComplete) :
    ∃ u v w, WholeText u ∧ FractionText v ∧ ExponentText w ∧ t = u ++ v ++ w := by
  cases n with
  | zero => exact ⟨t, [], [], hn ▸ .zero, .none, .none, by simp⟩
  | whole =>
    obtain ⟨b, u, rfl, hb, hZero, hu⟩ := hn
    exact ⟨_, [], [], .digits hb hZero hu, .none, .none, by simp⟩
  | fraction =>
    obtain ⟨u, b, v, hu, hb, hv, rfl⟩ := hn
    exact ⟨u, _, [], hu, .digits hb hv, .none, by simp⟩
  | exponent =>
    obtain ⟨u, v, m, s, b, w, hu, hv, hMark, hSign, hb, hw, rfl⟩ := hn
    exact ⟨u, v, _, hu, hv, .digits hMark hSign hb hw, rfl⟩
  | _ => cases hComplete

/-- The scan runs through nothing but texts of numbers. -/
theorem numberText_of_steps {b : UInt8} {t : List UInt8} {n : SkipNumber}
    (hb : b = byte '-' ∨ isDigit b) (h : Steps More (start b) t n) (hn : n.isComplete) :
    NumberText (b :: t) := by
  rcases hb with rfl | hb
  · have hPassed := passed_of_steps (n := .sign) (t := []) rfl h
    obtain ⟨u, v, w, hu, hv, hw, hText⟩ := exists_parts_of_passed hPassed hn
    rw [List.nil_append] at hText
    rw [hText]
    exact .negative hu hv hw
  · -- The first digit is met after the empty text, as it would be after a sign.
    have hFirst : More .sign b (start b) := if_pos hb
    have hPassed := passed_of_steps (n := .sign) (t := []) rfl (.cons hFirst h)
    obtain ⟨u, v, w, hu, hv, hw, hText⟩ := exists_parts_of_passed hPassed hn
    rw [List.nil_append] at hText
    rw [hText]
    exact .plain hu hv hw

end SkipNumber

/-! ## Two scans of one shape -/

theorem digitValue_eq_zero_iff {b : UInt8} (hb : isDigit b) : digitValue b = 0 ↔ b = byte '0' := by
  simp only [isDigit, Bool.and_eq_true, decide_eq_true_eq, UInt8.le_iff_toNat_le] at hb
  constructor
  · intro h
    have hLeast : 0x30 ≤ b.toNat := hb.1
    have hValue : b.toNat - 0x30 = 0 := h
    exact UInt8.toNat_inj.mp (show b.toNat = 0x30 by omega)
  · rintro rfl
    rfl

namespace NumberPhase

/-- How far a number has been read, without its value. -/
def shape : NumberPhase → SkipNumber
  | sign => .sign
  | zero => .zero
  | whole _ | long _ _ => .whole
  | point _ _ => .point
  | fraction _ _ | fine _ _ => .fraction
  | mark _ _ => .mark
  | signedMark _ _ _ => .signedMark
  | exponent _ _ _ _ | vanished => .exponent

theorem exponentDigit_shape (m : Nat) (power : Int) (down : Bool) (value d : Nat) :
    exponentDigit m power down value d = .error .hugeNumber ∨
      (exponentDigit m power down value d).map (some ∘ shape) = .ok (some .exponent) := by
  unfold exponentDigit
  dsimp only
  split_ifs
  · exact .inr rfl
  · exact .inr rfl
  · exact .inl rfl

/-- A digit has the same effect on both scans, unless it makes the exponent too large. -/
theorem digit_shape (p : NumberPhase) {b : UInt8} (hb : isDigit b) :
    p.digit (digitValue b) = .error .hugeNumber ∨
      (p.digit (digitValue b)).map (some ∘ shape) = p.shape.step b := by
  cases p with
  | sign =>
    have hSign : b ≠ byte '-' := by
      rintro rfl
      cases hb
    refine .inr ?_
    simp only [digit, shape, SkipNumber.step, SkipNumber.start, if_pos hb, if_neg hSign,
      digitValue_eq_zero_iff hb]
    split_ifs <;> rfl
  | zero =>
    simp only [digit, shape, SkipNumber.step, if_pos hb]
    exact .inr rfl
  | whole m =>
    simp only [digit, shape, SkipNumber.step, if_pos hb]
    cases appendDigit? m (digitValue b) <;> exact .inr rfl
  | point m power =>
    simp only [digit, shape, SkipNumber.step, if_pos hb]
    cases appendDigit? m (digitValue b) <;> exact .inr rfl
  | fraction m power =>
    simp only [digit, shape, SkipNumber.step, if_pos hb]
    cases appendDigit? m (digitValue b) <;> exact .inr rfl
  | mark m power =>
    simp only [digit, shape, SkipNumber.step, if_pos hb]
    exact exponentDigit_shape ..
  | signedMark m power down =>
    simp only [digit, shape, SkipNumber.step, if_pos hb]
    exact exponentDigit_shape ..
  | exponent m power down value =>
    simp only [digit, shape, SkipNumber.step, if_pos hb]
    exact exponentDigit_shape ..
  | _ =>
    simp only [digit, shape, SkipNumber.step, if_pos hb]
    exact .inr rfl

theorem step_shape (p : NumberPhase) (b : UInt8) :
    p.step b = .error .hugeNumber ∨ (p.step b).map (Option.map shape) = p.shape.step b := by
  by_cases hb : isDigit b
  · have hStep : p.step b = (p.digit (digitValue b)).map some := if_pos hb
    rw [hStep]
    rcases p.digit_shape hb with h | h
    · exact .inl (by rw [h]; rfl)
    · rw [← h]
      refine .inr ?_
      cases p.digit (digitValue b) <;> rfl
  · refine .inr ?_
    -- Of the other bytes five have a meaning, and both scans can be run on these.
    by_cases hMember : b ∈ [byte '.', byte 'e', byte 'E', byte '+', byte '-']
    · simp only [List.mem_cons, List.not_mem_nil, or_false] at hMember
      rcases hMember with rfl | rfl | rfl | rfl | rfl <;> cases p <;> rfl
    · simp only [List.mem_cons, List.not_mem_nil, or_false, not_or] at hMember
      obtain ⟨hPoint, hMark, hMark', hPlus, hMinus⟩ := hMember
      cases p <;>
        simp [step, hb, hPoint, hMark, hMark', hPlus, hMinus, shape, SkipNumber.step, isComplete,
          Except.map]

theorem isComplete_shape (p : NumberPhase) : p.shape.isComplete = p.isComplete := by
  cases p <;> rfl

end NumberPhase

/-! ## What a text is read as -/

namespace NumberScan

/-- The number goes on. -/
def More (s : NumberScan) (b : UInt8) (s' : NumberScan) : Prop :=
  s.step b = .ok (some s')

/-- The scan after a byte that must not end the number. -/
def next (s : NumberScan) (b : UInt8) : Except Defect NumberScan :=
  match s.step b with
  | .ok (some s) => .ok s
  | .ok none => .error .trailingCharacters
  | .error d => .error d

end NumberScan

/-- The number that a whole text is read as. -/
def readNumber : List UInt8 → Except Defect Number
  | [] => .error .endInValue
  | b :: t =>
    if b = byte '-' ∨ isDigit b then t.foldlM NumberScan.next (.start b) >>= NumberScan.value
    else .error .noValue

namespace NumberScan

theorem next_eq_ok_iff {s s' : NumberScan} {b : UInt8} : s.next b = .ok s' ↔ More s b s' := by
  unfold next More
  cases s.step b with
  | error d => simp
  | ok next => cases next <;> simp

theorem foldlM_next_eq_ok_iff {s s' : NumberScan} {t : List UInt8} :
    t.foldlM next s = .ok s' ↔ Steps More s t s' := by
  constructor
  · intro h
    induction t generalizing s with
    | nil =>
      cases h
      exact .nil _
    | cons b t ih =>
      rw [List.foldlM_cons] at h
      cases hNext : s.next b with
      | error d =>
        rw [hNext] at h
        cases h
      | ok s'' =>
        rw [hNext] at h
        exact .cons (next_eq_ok_iff.mp hNext) (ih h)
  · intro h
    induction h with
    | nil s => rfl
    | cons hStep _ ih =>
      rw [List.foldlM_cons, next_eq_ok_iff.mpr hStep]
      exact ih

theorem shape_start (b : UInt8) : (start b).phase.shape = SkipNumber.start b := by
  unfold start SkipNumber.start
  split_ifs <;> rfl

theorem shape_of_more {s s' : NumberScan} {b : UInt8} (h : More s b s') :
    SkipNumber.More s.phase.shape b s'.phase.shape := by
  unfold More step at h
  have hShape := s.phase.step_shape b
  cases hStep : s.phase.step b with
  | error d =>
    rw [hStep] at h
    cases h
  | ok next =>
    rw [hStep] at h hShape
    cases next with
    | none => cases h
    | some p =>
      cases h
      rcases hShape with hHuge | hShape
      · cases hHuge
      · exact hShape.symm

/-- Where the scan without a value goes on, the other one does so too or finds the number too
large. -/
theorem next_of_shape {s : NumberScan} {b : UInt8} {n : SkipNumber}
    (h : SkipNumber.More s.phase.shape b n) :
    s.next b = .error .hugeNumber ∨ ∃ s', s.next b = .ok s' ∧ s'.phase.shape = n := by
  unfold SkipNumber.More at h
  unfold next step
  rcases s.phase.step_shape b with hHuge | hShape
  · rw [hHuge]
    exact .inl rfl
  · rw [h] at hShape
    cases hStep : s.phase.step b with
    | error d =>
      rw [hStep] at hShape
      cases hShape
    | ok next =>
      rw [hStep] at hShape
      cases next with
      | none => cases hShape
      | some p =>
        cases hShape
        exact .inr ⟨⟨s.negative, p⟩, rfl, rfl⟩

theorem foldlM_next_of_shape {s : NumberScan} {n n' : SkipNumber} {t : List UInt8}
    (hs : s.phase.shape = n) (h : Steps SkipNumber.More n t n') :
    t.foldlM next s = .error .hugeNumber ∨
      ∃ s', t.foldlM next s = .ok s' ∧ s'.phase.shape = n' := by
  induction h generalizing s with
  | nil n => exact .inr ⟨s, rfl, hs⟩
  | cons hStep _ ih =>
    subst hs
    rw [List.foldlM_cons]
    rcases next_of_shape hStep with hHuge | ⟨s', hNext, hs'⟩
    · rw [hHuge]
      exact .inl rfl
    · rw [hNext]
      exact ih hs'

theorem scaled_cases (s : NumberScan) (m : Nat) (power : Int) :
    s.scaled m power = .error .hugeNumber ∨ ∃ n, s.scaled m power = .ok n := by
  unfold scaled
  cases scale? m power with
  | none => exact .inl rfl
  | some x => exact .inr ⟨_, rfl⟩

theorem value_of_isComplete {s : NumberScan} (h : s.phase.isComplete) :
    s.value = .error .hugeNumber ∨ ∃ n, s.value = .ok n := by
  obtain ⟨negative, phase⟩ := s
  cases phase with
  | zero => exact .inr ⟨_, rfl⟩
  | whole m => exact .inr ⟨_, rfl⟩
  | vanished => exact .inr ⟨_, rfl⟩
  | long m power => exact scaled_cases ..
  | fraction m power => exact scaled_cases ..
  | fine m power => exact scaled_cases ..
  | exponent m power down value => exact scaled_cases ..
  | _ => cases h

theorem isComplete_of_value {s : NumberScan} {n : Number} (h : s.value = .ok n) :
    s.phase.isComplete := by
  obtain ⟨negative, phase⟩ := s
  cases phase <;> first | rfl | cases h

/-- A number that is complete ends before a delimiter. -/
theorem step_of_isDelimiter {s : NumberScan} {b : UInt8} (hs : s.phase.isComplete)
    (hb : isDelimiter b) : s.step b = .ok none := by
  obtain ⟨negative, phase⟩ := s
  rcases isDelimiter_iff.mp hb with rfl | rfl | rfl | rfl | rfl | rfl | rfl <;>
    cases phase <;> first | rfl | cases hs

end NumberScan

theorem readNumber_eq_ok_iff {t : List UInt8} {n : Number} :
    readNumber t = .ok n ↔ ∃ b u s, t = b :: u ∧ (b = byte '-' ∨ isDigit b) ∧
      Steps NumberScan.More (.start b) u s ∧ s.value = .ok n := by
  constructor
  · intro h
    cases t with
    | nil => cases h
    | cons b u =>
      rw [readNumber] at h
      split_ifs at h with hb
      cases hFold : u.foldlM NumberScan.next (.start b) with
      | error d =>
        rw [hFold] at h
        cases h
      | ok s =>
        rw [hFold] at h
        exact ⟨b, u, s, rfl, hb, NumberScan.foldlM_next_eq_ok_iff.mp hFold, h⟩
  · rintro ⟨b, u, s, rfl, hb, hSteps, hValue⟩
    rw [readNumber, if_pos hb, NumberScan.foldlM_next_eq_ok_iff.mpr hSteps]
    exact hValue

/-- The text of a number is refused for its size or not at all. -/
theorem readNumber_of_numberText {t : List UInt8} (h : NumberText t) :
    readNumber t = .error .hugeNumber ∨ ∃ n, readNumber t = .ok n := by
  obtain ⟨b, u, n, rfl, hb, hSteps, hn⟩ := SkipNumber.exists_steps_of_numberText h
  rw [readNumber, if_pos hb]
  rcases NumberScan.foldlM_next_of_shape (NumberScan.shape_start b) hSteps with
    hHuge | ⟨s, hFold, hs⟩
  · rw [hHuge]
    exact .inl rfl
  · rw [hFold]
    rw [← hs, NumberPhase.isComplete_shape] at hn
    exact NumberScan.value_of_isComplete hn

theorem numberText_of_readNumber {t : List UInt8} {n : Number} (h : readNumber t = .ok n) :
    NumberText t := by
  obtain ⟨b, u, s, rfl, hb, hSteps, hValue⟩ := readNumber_eq_ok_iff.mp h
  have hShape := hSteps.map (f := fun s => s.phase.shape) NumberScan.shape_of_more
  rw [NumberScan.shape_start] at hShape
  refine SkipNumber.numberText_of_steps hb hShape ?_
  rw [NumberPhase.isComplete_shape]
  exact NumberScan.isComplete_of_value hValue

/-! ## Locations -/

theorem decimal_cons (n : Nat) (b : UInt8) (t : List UInt8) :
    decimal n (b :: t) = decimal (10 * n + digitValue b) t := by
  unfold decimal
  rw [List.foldl_cons]

theorem le_decimal (n : Nat) (t : List UInt8) : n ≤ decimal n t := by
  induction t generalizing n with
  | nil => exact Nat.le_refl n
  | cons b t ih =>
    have hRest := ih (10 * n + digitValue b)
    rw [decimal_cons]
    omega

/-- As long as the value fits, every digit is kept. -/
theorem steps_digits {negative : Bool} {n : Nat} {t : List UInt8} (ht : Digits t)
    (hBound : decimal n t ≤ maxSignificand) :
    Steps NumberScan.More ⟨negative, .whole n⟩ t ⟨negative, .whole (decimal n t)⟩ := by
  induction t generalizing n with
  | nil => exact .nil _
  | cons b t ih =>
    rw [decimal_cons] at hBound ⊢
    have hFits : 10 * n + digitValue b ≤ maxSignificand := Nat.le_trans (le_decimal ..) hBound
    have hStep : NumberScan.More ⟨negative, .whole n⟩ b
        ⟨negative, .whole (10 * n + digitValue b)⟩ := by
      simp only [NumberScan.More, NumberScan.step, NumberPhase.step,
        if_pos (ht b List.mem_cons_self), NumberPhase.digit, appendDigit?, if_pos hFits]
      rfl
    exact .cons hStep (ih (fun c hc => ht c (List.mem_cons_of_mem b hc)) hBound)

/-- A location is read as it is written. -/
theorem readNumber_of_locationText {n : UInt64} {t : List UInt8} (h : LocationText n t) :
    readNumber t = .ok (.natural n.toNat) := by
  obtain ⟨hForm, hValue⟩ := h
  cases hForm with
  | zero =>
    rw [← hValue]
    rfl
  | @digits b t hb hZero ht =>
    have hSign : b ≠ byte '-' := by
      rintro rfl
      cases hb
    have hStart : NumberScan.start b = ⟨false, .whole (digitValue b)⟩ := by
      rw [NumberScan.start, if_neg hSign, if_neg hZero]
    rw [decimal_cons, Nat.mul_zero, Nat.zero_add] at hValue
    have hBound : decimal (digitValue b) t ≤ maxSignificand := by
      rw [hValue]
      exact Nat.le_sub_one_of_lt n.toNat_lt
    rw [readNumber_eq_ok_iff]
    refine ⟨b, t, _, rfl, .inr hb, hStart ▸ steps_digits ht hBound, ?_⟩
    rw [hValue]
    rfl

end PatternAudit.Json
