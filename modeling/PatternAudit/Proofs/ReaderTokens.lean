import PatternAudit.Proofs.SkipScan

/-!
# What the reader does on a token

The reader takes the text of a string or number at a place that awaits one as what it stands for
(`Reader.run_string`, `Reader.run_number`), and the text of a key likewise (`Reader.run_key`). From
these the run over a member is put together (`Reader.run_member`), and the run over a list of
members or items (`Reader.run_enclosed`). The lists are read item by item, so what the reader knows
after some of them is an invariant of the draft and of the items still to come.
-/

namespace PatternAudit.MatchFile.Reader

open Json

variable {limit : Nat} {d d' : Draft} {gap gap' : Gap} {place : Place} {holder : Holder}
  {t rest : List UInt8}

theorem run_gap_blanks {w : List UInt8} (hw : Blanks w) :
    run limit (atGap d gap) (w ++ rest) = run limit (atGap d gap) rest :=
  run_steps (.stay fun b hb => if_pos (hw b hb))

/-! ## Values -/

/-- The place of the value that is awaited. -/
def awaited : Gap → Option Place
  | .value place => some place
  | .firstOccurrence | .nextOccurrence => some .occurrence
  | .firstElement => some (.element .pattern)
  | .nextElement field => some (.element field)
  | _ => none

theorem step_awaited {b : UInt8} (hGap : awaited gap = some place) (hBlank : isBlank b = false)
    (hClose : b ≠ byte ']') : (atGap d gap).step limit b = openValue limit d place b := by
  have hStep : (atGap d gap).step limit b = stepGap limit d gap b := by
    simp [step, atGap, stepBetween, hBlank]
  rw [hStep]
  cases gap <;> cases hGap <;> first | rfl | exact if_neg hClose

/-- The characters of a string are collected, whichever token it belongs to. -/
theorem run_chars {f : StringScan → Token} {s : String} (h : CharsText s.toList t)
    (hf : ∀ {scan b scan'}, scan.step b = .ok (.more scan') →
      step limit ⟨d, .inside (f scan)⟩ b = .ok ⟨d, .inside (f scan')⟩) :
    run limit ⟨d, .inside (f .start)⟩ (t ++ rest) =
      run limit ⟨d, .inside (f ⟨(Utf8.encode s).toArray, .plain⟩)⟩ rest :=
  run_steps ((StringScan.steps_string h).map (f := fun scan => mk d (.inside (f scan))) hf)

theorem run_string {s : String} (hGap : awaited gap = some place) (h : StringText s t)
    (hStore : storeText limit d place s = .ok (d', gap')) :
    run limit (atGap d gap) (t ++ rest) = run limit (atGap d' gap') rest := by
  obtain @⟨t, h⟩ := h
  have hOpen : (atGap d gap).step limit (byte '"') = .ok ⟨d, .inside (.string place .start)⟩ :=
    step_awaited hGap rfl (by decide)
  have hInside : run limit ⟨d, .inside (.string place .start)⟩ (t ++ byte '"' :: rest) =
      run limit ⟨d, .inside (.string place ⟨(Utf8.encode s).toArray, .plain⟩)⟩
        (byte '"' :: rest) :=
    run_chars (f := .string place) h fun hStep => by
      simp only [step, stepInside, hStep]
      rfl
  have hClose : step limit ⟨d, .inside (.string place ⟨(Utf8.encode s).toArray, .plain⟩)⟩
      (byte '"') = .ok (atGap d' gap') := by
    change (orDefect (StringScan.text (Utf8.encode s).toArray) >>= fun s =>
      orFault (storeText limit d place s) >>= fun x => .ok (atGap x.1 x.2)) = _
    rw [StringScan.text_encode]
    change (orFault (storeText limit d place s) >>= fun x => .ok (atGap x.1 x.2)) = _
    rw [hStore]
    rfl
  rw [List.cons_append, List.append_assoc, run_step hOpen]
  exact hInside.trans (run_step hClose)

theorem run_number {n : Number} (hGap : awaited gap = some place) (h : readNumber t = .ok n)
    (hStore : storeNumber limit d place n = .ok (d', gap')) (hRest : Delimited rest) :
    run limit (atGap d gap) (t ++ rest) = run limit (atGap d' gap') rest := by
  obtain ⟨b, u, scan, rfl, hb, hSteps, hValue⟩ := readNumber_eq_ok_iff.mp h
  obtain ⟨c, tail, rfl, hc⟩ := hRest
  have hNot : ∀ c, ¬ (c = byte '-' ∨ isDigit c) → b ≠ c := fun c hc h => hc (h ▸ hb)
  have hOpen : (atGap d gap).step limit b = .ok ⟨d, .inside (.number place (.start b))⟩ := by
    rw [step_awaited hGap (isBlank_of_number hb) (hNot _ (by decide))]
    unfold openValue
    rw [if_neg (hNot _ (by decide)), if_pos hb]
  have hInside : Steps (StepsTo limit) ⟨d, .inside (.number place (.start b))⟩ u
      ⟨d, .inside (.number place scan)⟩ := by
    refine hSteps.map (f := fun scan => mk d (.inside (.number place scan))) ?_
    intro scan b scan' hMore
    have hStep : scan.step b = .ok (some scan') := hMore
    simp only [StepsTo, step, stepInside, hStep]
    rfl
  have hEnd : step limit ⟨d, .inside (.number place scan)⟩ c = (atGap d' gap').step limit c := by
    have hStep := NumberScan.step_of_isDelimiter (NumberScan.isComplete_of_value hValue) hc
    have hClose : closeNumber limit d place scan = .ok (d', gap') := by
      simp only [closeNumber, hValue, hStore]
    simp only [step, stepInside, hStep]
    change (orFault (closeNumber limit d place scan) >>= fun x => stepBetween limit x.1 x.2 c) = _
    rw [hClose]
    rfl
  rw [List.cons_append, run_step hOpen, run_steps hInside]
  exact run_congr hEnd

/-! ## Members -/

/-- Before a member of the given holder. -/
def BeforeMember (holder : Holder) (gap : Gap) : Prop :=
  gap = .firstMember holder ∨ gap = .nextMember holder

theorem run_key {key : String} (hGap : BeforeMember holder gap) (h : StringText key t) :
    run limit (atGap d gap) (t ++ rest) = run limit (atGap d (keyGap d holder key)) rest := by
  obtain @⟨t, h⟩ := h
  have hOpen : (atGap d gap).step limit (byte '"') = .ok ⟨d, .inside (.key holder .start)⟩ := by
    rcases hGap with rfl | rfl <;> rfl
  have hInside : run limit ⟨d, .inside (.key holder .start)⟩ (t ++ byte '"' :: rest) =
      run limit ⟨d, .inside (.key holder ⟨(Utf8.encode key).toArray, .plain⟩)⟩
        (byte '"' :: rest) :=
    run_chars (f := .key holder) h fun hStep => by
      simp only [step, stepInside, hStep]
      rfl
  have hClose : step limit ⟨d, .inside (.key holder ⟨(Utf8.encode key).toArray, .plain⟩)⟩
      (byte '"') = .ok (atGap d (keyGap d holder key)) := by
    change (orDefect (StringScan.text (Utf8.encode key).toArray) >>= fun key =>
      .ok (atGap d (keyGap d holder key))) = _
    rw [StringScan.text_encode]
    rfl
  rw [List.cons_append, List.append_assoc, run_step hOpen]
  exact hInside.trans (run_step hClose)

/-- The reader behind the colon of a member. -/
def afterColon (d : Draft) (holder : Holder) : Option Place → Reader
  | some place => atGap d (.value place)
  | none => ⟨d, .inside (.skip holder .start)⟩

/-- A member is read if its key may stand here and its value is read behind the colon. -/
theorem run_member {key : String} {Value : List UInt8 → Prop} {place : Option Place}
    (hGap : BeforeMember holder gap) (h : MemberText key Value t)
    (hKey : keyGap d holder key = .colon holder place)
    (hValue : ∀ {w v rest}, Blanks w → Value v → Delimited rest →
      run limit (afterColon d holder place) (w ++ (v ++ rest)) =
        run limit (atGap d' (.memberEnd holder)) rest)
    (hRest : Delimited rest) :
    run limit (atGap d gap) (t ++ rest) = run limit (atGap d' (.memberEnd holder)) rest := by
  obtain ⟨@⟨k, w, w', hw, hk, hw'⟩, @⟨v, u, u', hu, hv, hu'⟩⟩ := h
  have hColon : (atGap d (.colon holder place)).step limit (byte ':') =
      .ok (afterColon d holder place) := by
    cases place <;> rfl
  simp only [List.append_assoc, List.cons_append]
  rw [run_gap_blanks hw, run_key hGap hk, hKey, run_gap_blanks hw', run_step hColon,
    hValue hu hv (delimited_append hu' hRest), run_gap_blanks hu']

/-- A member whose value has no place is passed over. -/
theorem run_other_member {key : String} (hGap : BeforeMember holder gap)
    (h : MemberText key (PartText .value) t) (hKey : keyGap d holder key = .colon holder none)
    (hRest : Delimited rest) :
    run limit (atGap d gap) (t ++ rest) = run limit (atGap d (.memberEnd holder)) rest :=
  run_member hGap h hKey run_skip_value hRest

/-! ## Lists -/

section

variable {α : Type} {Item : α → List UInt8 → Prop} {Inv : Draft → List α → Prop}
  {first next after : Gap}

/-- If every item is read and preserves an invariant, then so is a list of them. The invariant also
knows the items that are still to come. -/
theorem run_separated {as : List α}
    (hItem : ∀ {d gap a as t rest}, gap = first ∨ gap = next → Inv d (a :: as) → Item a t →
      Delimited rest →
      ∃ d', Inv d' as ∧ run limit (atGap d gap) (t ++ rest) = run limit (atGap d' after) rest)
    (hComma : ∀ d, (atGap d after).step limit (byte ',') = .ok (atGap d next))
    (h : Separated Item as t) (hGap : gap = first ∨ gap = next) (hInv : Inv d as)
    (hRest : Delimited rest) :
    ∃ d', Inv d' [] ∧ run limit (atGap d gap) (t ++ rest) = run limit (atGap d' after) rest := by
  induction h generalizing d gap with
  | last h => exact hItem hGap hInv h hRest
  | @more a as t u ht hu ih =>
    have hComma' : Delimited (byte ',' :: (u ++ rest)) := delimited_cons rfl
    obtain ⟨d₁, hInv₁, hRun₁⟩ := hItem hGap hInv ht hComma'
    obtain ⟨d₂, hInv₂, hRun₂⟩ := ih (.inr rfl) hInv₁
    refine ⟨d₂, hInv₂, ?_⟩
    rw [List.append_assoc, List.cons_append, hRun₁, run_step (hComma d₁), hRun₂]

/-- The same between brackets. The closing bracket is left to the reader, who takes it in the same
way with and without items before it. -/
theorem run_enclosed {as : List α} {opening closing : Char} {r : Reader}
    (hItem : ∀ {d gap a as t rest}, gap = first ∨ gap = next → Inv d (a :: as) → Item a t →
      Delimited rest →
      ∃ d', Inv d' as ∧ run limit (atGap d gap) (t ++ rest) = run limit (atGap d' after) rest)
    (hComma : ∀ d, (atGap d after).step limit (byte ',') = .ok (atGap d next))
    (hOpen : r.step limit (byte opening) = .ok (atGap d first))
    (hClose : ∀ d, (atGap d first).step limit (byte closing) =
      (atGap d after).step limit (byte closing))
    (hDelimiter : isDelimiter (byte closing)) (h : Enclosed opening closing Item as t)
    (hInv : Inv d as) :
    ∃ d', Inv d' [] ∧
      run limit r (t ++ rest) = run limit (atGap d' after) (byte closing :: rest) := by
  cases h with
  | empty hw =>
    refine ⟨d, hInv, ?_⟩
    rw [List.cons_append, run_step hOpen, List.append_assoc, run_gap_blanks hw]
    exact run_congr (hClose d)
  | items h =>
    have hRest : Delimited (byte closing :: rest) := delimited_cons hDelimiter
    obtain ⟨d', hInv', hRun⟩ := run_separated hItem hComma h (.inl rfl) hInv hRest
    refine ⟨d', hInv', ?_⟩
    rw [List.cons_append, run_step hOpen, List.append_assoc]
    exact hRun

end

end PatternAudit.MatchFile.Reader
