import PatternAudit.Proofs.NumberScan
import PatternAudit.Proofs.ReaderRuns

/-!
# Values that are passed over

Whatever its depth, a value that nobody asks for leaves the reader behind the value, with nothing
changed (`Reader.run_skip_value`). Inside the value the reader keeps a stack of open brackets; a
part of the value is passed with the stack as it was found, so the proof is an induction on the
grammar for all stacks at once (`Reader.Passes`).

A number is over only when the next byte is seen. Therefore what is said of a part of a text always
mentions the bytes behind it.
-/

namespace PatternAudit.MatchFile.Reader

open Json

variable {limit : Nat} {d : Draft} {holder : Holder} {brackets : List Bracket} {rest : List UInt8}

/-! ## Runs made of steps -/

theorem run_step {r r' : Reader} {b : UInt8} (h : r.step limit b = .ok r') :
    run limit r (b :: rest) = run limit r' rest := by
  rw [run_cons, h]
  rfl

/-- One byte takes a reader to another. -/
def StepsTo (limit : Nat) (r : Reader) (b : UInt8) (r' : Reader) : Prop :=
  r.step limit b = .ok r'

theorem run_steps {r r' : Reader} {t : List UInt8} (h : Steps (StepsTo limit) r t r') :
    run limit r (t ++ rest) = run limit r' rest := by
  induction h with
  | nil => rfl
  | cons hStep _ ih => rw [List.cons_append, run_step hStep, ih]

/-- Two readers that take the next byte in the same way cannot be told apart. -/
theorem run_congr {r r' : Reader} {b : UInt8} (h : r.step limit b = r'.step limit b) :
    run limit r (b :: rest) = run limit r' (b :: rest) := by
  rw [run_cons, run_cons, h]

/-! ## The reader inside a value that is passed over -/

def skipping (d : Draft) (holder : Holder) (brackets : List Bracket) (phase : SkipPhase) : Reader :=
  ⟨d, .inside (.skip holder ⟨brackets, phase⟩)⟩

/-- The reader behind a value that stands inside the given brackets. -/
def passed (d : Draft) (holder : Holder) : List Bracket → Reader
  | [] => atGap d (.memberEnd holder)
  | bracket :: outer => skipping d holder (bracket :: outer) .after

theorem step_skipping {phase phase' : SkipPhase} {brackets' : List Bracket} {b : UInt8}
    (h : SkipScan.step ⟨brackets, phase⟩ b = .ok (.more ⟨brackets', phase'⟩)) :
    (skipping d holder brackets phase).step limit b = .ok (skipping d holder brackets' phase') := by
  simp only [step, skipping, stepInside, h]
  rfl

theorem step_skipping_complete {phase : SkipPhase} {outer : List Bracket} {b : UInt8}
    (h : SkipScan.step ⟨brackets, phase⟩ b = .ok (SkipScan.complete outer)) :
    (skipping d holder brackets phase).step limit b = .ok (passed d holder outer) := by
  simp only [step, skipping, stepInside, h]
  cases outer <;> rfl

/-- The places inside a value where blanks may stand. -/
def allowsBlanks : SkipPhase → Bool
  | .value | .opened | .key | .colon => true
  | _ => false

theorem run_skip_blanks {phase : SkipPhase} {w : List UInt8} (hPhase : allowsBlanks phase)
    (hw : Blanks w) :
    run limit (skipping d holder brackets phase) (w ++ rest) =
      run limit (skipping d holder brackets phase) rest := by
  refine run_steps (.stay fun b hb => step_skipping ?_)
  cases phase <;> first | exact if_pos (hw b hb) | cases hPhase

theorem run_passed_blanks {w : List UInt8} (hw : Blanks w) :
    run limit (passed d holder brackets) (w ++ rest) =
      run limit (passed d holder brackets) rest := by
  refine run_steps (.stay fun b hb => ?_)
  cases brackets with
  | nil => exact if_pos (hw b hb)
  | cons bracket outer => exact step_skipping (if_pos (hw b hb))

/-! ## Tokens -/

theorem run_skip_string {isKey : Bool} {t : List UInt8} (h : LooseText t) :
    run limit (skipping d holder brackets (.string isKey .plain)) (t ++ rest) =
      run limit (skipping d holder brackets (.string isKey .plain)) rest := by
  refine run_steps ((SkipString.steps_loose h).map (f := fun s =>
    skipping d holder brackets (.string isKey s)) fun {s b s'} hMore => step_skipping ?_)
  have hStep : s.step b = .ok (some s') := hMore
  simp only [SkipScan.step, hStep]
  rfl

theorem run_skip_word {b : UInt8} {left : List UInt8} :
    run limit (skipping d holder brackets (.word (b :: left))) (b :: (left ++ rest)) =
      run limit (passed d holder brackets) rest := by
  induction left generalizing b with
  | nil =>
    refine run_step (step_skipping_complete ?_)
    simp [SkipScan.step, SkipScan.wordStep]
  | cons c left ih =>
    rw [← ih]
    refine run_step (step_skipping ?_)
    simp [SkipScan.step, SkipScan.wordStep]

/-- Behind a number that is complete, a delimiter is taken as behind any value. -/
theorem run_skip_numberEnd {n : SkipNumber} (hn : n.isComplete) (hRest : Delimited rest) :
    run limit (skipping d holder brackets (.number n)) rest =
      run limit (passed d holder brackets) rest := by
  obtain ⟨b, tail, rfl, hb⟩ := hRest
  refine run_congr ?_
  cases brackets <;>
    simp only [step, skipping, passed, stepInside, SkipScan.step,
      SkipNumber.step_of_isDelimiter hn hb] <;> rfl

theorem isBlank_of_number {b : UInt8} (hb : b = byte '-' ∨ isDigit b) : isBlank b = false := by
  have hNot : ∀ c, ¬ (c = byte '-' ∨ isDigit c) → b ≠ c := fun c hc h => hc (h ▸ hb)
  simp [isBlank, hNot 0x20 (by decide), hNot 0x0a (by decide), hNot 0x09 (by decide),
    hNot 0x0d (by decide)]

theorem openValue_number {b : UInt8} (hb : b = byte '-' ∨ isDigit b) :
    SkipScan.openValue brackets b = .ok (.more ⟨brackets, .number (.start b)⟩) := by
  have hQuote : b ≠ byte '"' := by
    rintro rfl
    revert hb
    decide
  rw [SkipScan.openValue, if_neg hQuote, if_pos hb]

theorem run_skip_number {t : List UInt8} (h : NumberText t) (hRest : Delimited rest) :
    run limit (skipping d holder brackets .value) (t ++ rest) =
      run limit (passed d holder brackets) rest := by
  obtain ⟨b, u, n, rfl, hb, hSteps, hn⟩ := SkipNumber.exists_steps_of_numberText h
  have hOpen : SkipScan.step ⟨brackets, .value⟩ b =
      .ok (.more ⟨brackets, .number (.start b)⟩) := by
    simp only [SkipScan.step, isBlank_of_number hb, openValue_number hb]
    rfl
  rw [List.cons_append, run_step (step_skipping hOpen), ← run_skip_numberEnd hn hRest]
  refine run_steps (hSteps.map (f := fun n => skipping d holder brackets (.number n))
    fun {n c n'} hMore => step_skipping ?_)
  have hStep : n.step c = .ok (some n') := hMore
  simp only [SkipScan.step, hStep]
  rfl

/-! ## Parts of a value -/

/-- A part of a value is passed with all brackets as they were. Items and members are those of the
innermost bracket, and the whole of them is passed together with the bracket that closes it. -/
def Passes (limit : Nat) (d : Draft) (holder : Holder) : Part → List UInt8 → Prop
  | .value, t | .item, t => ∀ brackets rest, Delimited rest →
    run limit (skipping d holder brackets .value) (t ++ rest) =
      run limit (passed d holder brackets) rest
  | .items, t => ∀ outer rest,
    run limit (skipping d holder (.array :: outer) .value) (t ++ byte ']' :: rest) =
      run limit (passed d holder outer) rest
  | .member, t => ∀ outer rest, Delimited rest →
    run limit (skipping d holder (.object :: outer) .key) (t ++ rest) =
      run limit (passed d holder (.object :: outer)) rest
  | .members, t => ∀ outer rest,
    run limit (skipping d holder (.object :: outer) .key) (t ++ byte '\x7d' :: rest) =
      run limit (passed d holder outer) rest

theorem delimited_cons {b : UInt8} (hb : isDelimiter b) : Delimited (b :: rest) :=
  ⟨b, rest, rfl, hb⟩

theorem delimited_append {w : List UInt8} (hw : Blanks w) (hRest : Delimited rest) :
    Delimited (w ++ rest) := by
  cases w with
  | nil => exact hRest
  | cons b w =>
    have hb : isBlank b = true := hw b List.mem_cons_self
    exact delimited_cons (by simp [isDelimiter, hb])

/-- A value begins with a byte that cannot close an array before it. -/
theorem exists_head_of_value {t : List UInt8} (h : PartText .value t) :
    ∃ b u, t = b :: u ∧ isBlank b = false ∧ b ≠ byte ']' := by
  cases h with
  | number hNumber =>
    obtain ⟨b, u, _, rfl, hb, _⟩ := SkipNumber.exists_steps_of_numberText hNumber
    refine ⟨b, u, rfl, isBlank_of_number hb, ?_⟩
    rintro rfl
    revert hb
    decide
  | _ => exact ⟨_, _, rfl, rfl, by decide⟩

theorem exists_head_of_items {t : List UInt8} (h : PartText .items t) :
    ∃ w b u, t = w ++ b :: u ∧ Blanks w ∧ isBlank b = false ∧ b ≠ byte ']' := by
  have hItem : ∀ {t}, PartText .item t →
      ∃ w b u, t = w ++ b :: u ∧ Blanks w ∧ isBlank b = false ∧ b ≠ byte ']' := by
    intro t h
    cases h with
    | @item t w w' hw ht hw' =>
      obtain ⟨b, u, rfl, hBlank, hClose⟩ := exists_head_of_value ht
      exact ⟨w, b, u ++ w', rfl, hw, hBlank, hClose⟩
  cases h with
  | lastItem ht => exact hItem ht
  | @moreItems t u ht hu =>
    obtain ⟨w, b, v, rfl, hw, hb⟩ := hItem ht
    exact ⟨w, b, v ++ byte ',' :: u, by simp, hw, hb⟩

theorem exists_head_of_members {t : List UInt8} (h : PartText .members t) :
    ∃ w u, t = w ++ byte '"' :: u ∧ Blanks w := by
  have hMember : ∀ {t}, PartText .member t → ∃ w u, t = w ++ byte '"' :: u ∧ Blanks w := by
    intro t h
    cases h with
    | member hw _ _ _ => exact ⟨_, _, rfl, hw⟩
  cases h with
  | lastMember ht => exact hMember ht
  | @moreMembers t u ht hu =>
    obtain ⟨w, v, rfl, hw⟩ := hMember ht
    exact ⟨w, v ++ byte ',' :: u, by simp, hw⟩

/-- Behind an opening bracket, items are read as if they stood behind a comma. -/
theorem run_opened_items {outer : List Bracket} {t : List UInt8} (h : PartText .items t) :
    run limit (skipping d holder (.array :: outer) .opened) (t ++ rest) =
      run limit (skipping d holder (.array :: outer) .value) (t ++ rest) := by
  obtain ⟨w, b, u, rfl, hw, hBlank, hClose⟩ := exists_head_of_items h
  rw [List.append_assoc, run_skip_blanks rfl hw, run_skip_blanks rfl hw]
  refine run_congr ?_
  simp [step, skipping, stepInside, SkipScan.step, SkipScan.afterOpening, SkipScan.closes, hBlank,
    hClose]

theorem run_opened_members {outer : List Bracket} {t : List UInt8} (h : PartText .members t) :
    run limit (skipping d holder (.object :: outer) .opened) (t ++ rest) =
      run limit (skipping d holder (.object :: outer) .key) (t ++ rest) := by
  obtain ⟨w, u, rfl, hw⟩ := exists_head_of_members h
  rw [List.append_assoc, run_skip_blanks rfl hw, run_skip_blanks rfl hw]
  exact run_congr rfl

theorem passes_member {k t w w' : List UInt8} (hw : Blanks w) (hk : LooseText k) (hw' : Blanks w')
    (h : Passes limit d holder .item t) :
    Passes limit d holder .member
      (w ++ byte '"' :: (k ++ byte '"' :: (w' ++ byte ':' :: t))) := by
  intro outer rest hRest
  have hQuote : SkipScan.step ⟨.object :: outer, .key⟩ (byte '"') =
      .ok (.more ⟨.object :: outer, .string true .plain⟩) := rfl
  have hEnd : SkipScan.step ⟨.object :: outer, .string true .plain⟩ (byte '"') =
      .ok (.more ⟨.object :: outer, .colon⟩) := rfl
  have hColon : SkipScan.step ⟨.object :: outer, .colon⟩ (byte ':') =
      .ok (.more ⟨.object :: outer, .value⟩) := rfl
  simp only [List.append_assoc, List.cons_append]
  rw [run_skip_blanks rfl hw, run_step (step_skipping hQuote), run_skip_string hk,
    run_step (step_skipping hEnd), run_skip_blanks rfl hw', run_step (step_skipping hColon),
    h _ _ hRest]

theorem passes {part : Part} {t : List UInt8} (h : PartText part t) :
    Passes limit d holder part t := by
  -- A bracket that a constructor opens is on the stack for its parts and off it again behind them.
  induction h with
  | null | true | false =>
    intro brackets rest _
    exact (run_step (step_skipping rfl)).trans run_skip_word
  | number h =>
    intro brackets rest hRest
    exact run_skip_number h hRest
  | @string t h =>
    intro brackets rest _
    have hOpen : SkipScan.step ⟨brackets, .value⟩ (byte '"') =
        .ok (.more ⟨brackets, .string false .plain⟩) := rfl
    rw [List.cons_append, List.append_assoc, run_step (step_skipping hOpen), run_skip_string h]
    exact run_step (step_skipping_complete rfl)
  | @emptyArray w hw =>
    intro brackets rest _
    have hOpen : SkipScan.step ⟨brackets, .value⟩ (byte '[') =
        .ok (.more ⟨.array :: brackets, .opened⟩) := rfl
    rw [List.cons_append, List.append_assoc, run_step (step_skipping hOpen),
      run_skip_blanks rfl hw]
    exact run_step (step_skipping_complete rfl)
  | @array t ht ih =>
    intro brackets rest _
    have hOpen : SkipScan.step ⟨brackets, .value⟩ (byte '[') =
        .ok (.more ⟨.array :: brackets, .opened⟩) := rfl
    rw [List.cons_append, List.append_assoc, run_step (step_skipping hOpen), run_opened_items ht]
    exact ih brackets rest
  | @emptyObject w hw =>
    intro brackets rest _
    have hOpen : SkipScan.step ⟨brackets, .value⟩ (byte '\x7b') =
        .ok (.more ⟨.object :: brackets, .opened⟩) := rfl
    rw [List.cons_append, List.append_assoc, run_step (step_skipping hOpen),
      run_skip_blanks rfl hw]
    exact run_step (step_skipping_complete rfl)
  | @object t ht ih =>
    intro brackets rest _
    have hOpen : SkipScan.step ⟨brackets, .value⟩ (byte '\x7b') =
        .ok (.more ⟨.object :: brackets, .opened⟩) := rfl
    rw [List.cons_append, List.append_assoc, run_step (step_skipping hOpen), run_opened_members ht]
    exact ih brackets rest
  | @item t w w' hw ht hw' ih =>
    intro brackets rest hRest
    rw [List.append_assoc, List.append_assoc, run_skip_blanks rfl hw,
      ih brackets _ (delimited_append hw' hRest), run_passed_blanks hw']
  | lastItem ht ih =>
    intro outer rest
    rw [ih (.array :: outer) _ (delimited_cons rfl)]
    exact run_step (step_skipping_complete rfl)
  | @moreItems t u ht hu iht ihu =>
    intro outer rest
    have hComma : SkipScan.step ⟨.array :: outer, .after⟩ (byte ',') =
        .ok (.more ⟨.array :: outer, .value⟩) := rfl
    rw [List.append_assoc, List.cons_append, iht (.array :: outer) _ (delimited_cons rfl), passed,
      run_step (step_skipping hComma)]
    exact ihu outer rest
  | member hw hk hw' ht ih => exact passes_member hw hk hw' ih
  | lastMember ht ih =>
    intro outer rest
    rw [ih outer _ (delimited_cons rfl)]
    exact run_step (step_skipping_complete rfl)
  | @moreMembers t u ht hu iht ihu =>
    intro outer rest
    have hComma : SkipScan.step ⟨.object :: outer, .after⟩ (byte ',') =
        .ok (.more ⟨.object :: outer, .key⟩) := rfl
    rw [List.append_assoc, List.cons_append, iht outer _ (delimited_cons rfl), passed,
      run_step (step_skipping hComma)]
    exact ihu outer rest

/-- A value that is passed over, with the blanks before it, changes nothing. -/
theorem run_skip_value {t w : List UInt8} (hw : Blanks w) (h : PartText .value t)
    (hRest : Delimited rest) :
    run limit ⟨d, .inside (.skip holder .start)⟩ (w ++ (t ++ rest)) =
      run limit (atGap d (.memberEnd holder)) rest :=
  (run_skip_blanks rfl hw).trans (passes h [] rest hRest)

end PatternAudit.MatchFile.Reader
