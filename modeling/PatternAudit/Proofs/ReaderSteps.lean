import Mathlib.Logic.Basic
import Mathlib.Tactic.SplitIfs
import PatternAudit.MatchFile.Read
import PatternAudit.Proofs.Fallible

/-!
# What one byte does to the reader

The reader has many states, but few of its steps matter to what is known of a whole run: where the
list of occurrences is announced and opened, where an occurrence is added to it, and where the
outermost object is closed. `Reader.Effect` is all that a step can do in these respects, and
`Reader.step_effect` says so of every step. It is put together from one lemma for each function that
the step is made of; what a run keeps is then read off from `Reader.Effect` alone.
-/

namespace PatternAudit.MatchFile

open Json (byte isBlank)

/-! ## The steps that matter -/

/-- The number of occurrences that have been kept. -/
def Draft.count (d : Draft) : Nat := (d.found.getD #[]).size

namespace Reader

/-- Whether the reader is about to open the list of occurrences. -/
def awaitsList : Control → Bool
  | .between (.value .occurrences) => true
  | .between (.colon _ (some .occurrences)) => true
  | _ => false

/-- Whether the outermost object has been closed. -/
def isFinished : Control → Bool
  | .between .finished => true
  | _ => false

/-- What a step from `r` to `r'` on the byte `b` does to the list of occurrences, when it announces
the list and when it finishes. -/
structure Effect (limit : Nat) (b : UInt8) (r r' : Reader) : Prop where
  found : r'.draft.found = r.draft.found ∨
    (awaitsList r.control ∧ r'.draft.found = some #[]) ∨
    (∃ o, r.draft.count < limit ∧ r'.draft.found = some ((r.draft.found.getD #[]).push o))
  awaits : awaitsList r'.control → r'.draft.found = none ∨
    (awaitsList r.control ∧ r'.draft.found = r.draft.found)
  finished : isFinished r'.control → (isFinished r.control ∧ isBlank b) ∨ b = byte '\x7d'

namespace Effect

variable {limit : Nat} {b : UInt8} {r r' : Reader}

/-- Most steps do nothing of this. -/
theorem of_same (hFound : r'.draft.found = r.draft.found) (hAwaits : awaitsList r'.control = false)
    (hFinished : isFinished r'.control = false) : Effect limit b r r' :=
  ⟨.inl hFound, by simp [hAwaits], by simp [hFinished]⟩

/-- The end of a number is noticed on the byte after it, which is then met between two tokens. -/
theorem of_between {d : Draft} {gap : Gap} (h : Effect limit b (atGap d gap) r')
    (hFound : d.found = r.draft.found) (hAwaits : awaitsList (.between gap) = false)
    (hFinished : isFinished (.between gap) = false) : Effect limit b r r' := by
  refine ⟨?_, ?_, ?_⟩
  · rcases h.found with hSame | ⟨hAwaits', _⟩ | ⟨o, hBound, hAdd⟩
    · exact .inl (hSame.trans hFound)
    · exact absurd hAwaits' (by simp [atGap, hAwaits])
    · refine .inr (.inr ⟨o, ?_, ?_⟩)
      · simpa [atGap, Draft.count, hFound] using hBound
      · simpa [atGap, hFound] using hAdd
  · intro hAwaits'
    rcases h.awaits hAwaits' with hNone | ⟨hBefore, _⟩
    · exact .inl hNone
    · exact absurd hBefore (by simp [atGap, hAwaits])
  · intro hFinished'
    rcases h.finished hFinished' with ⟨hBefore, _⟩ | hBrace
    · exact absurd hBefore (by simp [atGap, hFinished])
    · exact .inr hBrace

end Effect

/-- The draft with one more occurrence, whose fields are no longer needed. -/
def withOccurrence (d : Draft) (o : Occurrence) : Draft :=
  { d with found := some ((d.found.getD #[]).push o), fields := {} }

theorem count_withOccurrence (d : Draft) (o : Occurrence) :
    (withOccurrence d o).count = d.count + 1 :=
  Array.size_push ..

theorem addOccurrence_eq (limit : Nat) (d : Draft) :
    addOccurrence limit d = takeOccurrence d.fields >>= fun o =>
      if limit ≤ d.count then .error .limit
      else .ok (atGap (withOccurrence d o) .occurrenceEnd) := by
  refine congrArg (takeOccurrence d.fields >>= ·) (funext fun o => ?_)
  exact if_congr isSome_checkLimit_iff rfl rfl

theorem addOccurrence_effect (limit : Nat) (b : UInt8) (r : Reader) {d : Draft}
    (hd : d = r.draft) : Ok (addOccurrence limit d) (Effect limit b r) := by
  subst hd
  rw [addOccurrence_eq]
  refine ok_bind fun o _ => ?_
  split
  · exact ok_error _
  · rename_i hBound
    exact ok_of_ok ⟨.inr (.inr ⟨o, Nat.not_le.mp hBound, rfl⟩), nofun, nofun⟩

theorem closeObject_effect (limit : Nat) (r : Reader) {d : Draft} (hd : d = r.draft)
    (holder : Holder) : Ok (closeObject limit d holder) (Effect limit (byte '\x7d') r) := by
  unfold closeObject
  cases holder with
  | file =>
    dsimp only
    split
    · exact ok_error _
    · exact ok_of_ok ⟨.inl (congrArg Draft.found hd), nofun, fun _ => .inr rfl⟩
  | occurrence => exact addOccurrence_effect limit _ r hd

theorem openValue_effect (limit : Nat) (b : UInt8) (r : Reader) {d : Draft} (hd : d = r.draft)
    {place : Place} (hPlace : place = .occurrences → awaitsList r.control) :
    Ok (openValue limit d place b) (Effect limit b r) := by
  subst hd
  unfold openValue
  split_ifs
  · exact ok_of_ok (.of_same rfl rfl rfl)
  · exact ok_of_ok (.of_same rfl rfl rfl)
  · split
    · exact ok_of_ok ⟨.inr (.inl ⟨hPlace rfl, rfl⟩), nofun, nofun⟩
    · exact ok_of_ok (.of_same rfl rfl rfl)
    · exact ok_error _
  · split
    · exact ok_of_ok (.of_same rfl rfl rfl)
    · exact ok_of_ok (.of_same rfl rfl rfl)
    · exact ok_error _
  · exact ok_of_ok (.of_same rfl rfl rfl)
  · exact ok_of_ok (.of_same rfl rfl rfl)
  · exact ok_of_ok (.of_same rfl rfl rfl)
  · exact ok_error _

theorem afterElement_effect (limit : Nat) (b : UInt8) (r : Reader) {d : Draft}
    (hd : d = r.draft) (field : Field) :
    Ok (afterElement limit d field b) (Effect limit b r) := by
  have hFound : d.found = r.draft.found := congrArg Draft.found hd
  unfold afterElement
  cases field with
  | pattern =>
    dsimp only
    split_ifs
    · exact ok_of_ok (.of_same hFound rfl rfl)
    · exact ok_error _
    · exact ok_error _
  | start =>
    dsimp only
    split_ifs
    · exact ok_of_ok (.of_same hFound rfl rfl)
    · exact ok_error _
    · exact ok_error _
  | stop =>
    dsimp only
    split_ifs
    · exact ok_of_ok (.of_same hFound rfl rfl)
    · exact addOccurrence_effect limit b r hd
    · exact ok_error _

theorem stepGap_effect (limit : Nat) (d : Draft) (gap : Gap) (b : UInt8) :
    Ok (stepGap limit d gap b) (Effect limit b (atGap d gap)) := by
  cases gap with
  | value place =>
    refine openValue_effect limit b (atGap d (.value place)) rfl ?_
    rintro rfl
    rfl
  | firstMember holder =>
    dsimp only [stepGap]
    split_ifs with hQuote hBrace
    · exact ok_of_ok (.of_same rfl rfl rfl)
    · rw [hBrace]
      exact closeObject_effect limit (atGap d _) rfl holder
    · exact ok_error _
  | nextMember holder =>
    dsimp only [stepGap]
    split_ifs
    · exact ok_of_ok (.of_same rfl rfl rfl)
    · exact ok_error _
    · exact ok_error _
  | colon holder place =>
    dsimp only [stepGap]
    split_ifs
    · cases place with
      | none => exact ok_of_ok (.of_same rfl rfl rfl)
      | some place =>
        -- The list of occurrences is as far away as before.
        refine ok_of_ok ⟨.inl rfl, ?_, nofun⟩
        intro hAwaits
        cases place <;> first | exact absurd hAwaits Bool.false_ne_true | exact .inr ⟨rfl, rfl⟩
    · exact ok_error _
  | repeated name => exact ok_error _
  | memberEnd holder =>
    dsimp only [stepGap]
    split_ifs with hComma hBrace
    · exact ok_of_ok (.of_same rfl rfl rfl)
    · rw [hBrace]
      exact closeObject_effect limit (atGap d _) rfl holder
    · exact ok_error _
  | firstOccurrence =>
    dsimp only [stepGap]
    split_ifs
    · exact ok_of_ok (.of_same rfl rfl rfl)
    · exact openValue_effect limit b (atGap d _) rfl nofun
  | nextOccurrence =>
    dsimp only [stepGap]
    split_ifs
    · exact ok_error _
    · exact openValue_effect limit b (atGap d _) rfl nofun
  | occurrenceEnd =>
    dsimp only [stepGap]
    split_ifs
    · exact ok_of_ok (.of_same rfl rfl rfl)
    · exact ok_of_ok (.of_same rfl rfl rfl)
    · exact ok_error _
  | firstElement =>
    dsimp only [stepGap]
    split_ifs
    · exact ok_error _
    · exact openValue_effect limit b (atGap d _) rfl nofun
  | nextElement field =>
    dsimp only [stepGap]
    split_ifs
    · exact ok_error _
    · exact openValue_effect limit b (atGap d _) rfl nofun
  | elementEnd field => exact afterElement_effect limit b (atGap d _) rfl field
  | surplus =>
    dsimp only [stepGap]
    split_ifs
    · exact ok_error _
    · exact ok_error _
  | finished => exact ok_error _

theorem stepBetween_effect (limit : Nat) (d : Draft) (gap : Gap) (b : UInt8) :
    Ok (stepBetween limit d gap b) (Effect limit b (atGap d gap)) := by
  unfold stepBetween
  split_ifs with hBlank
  · exact ok_of_ok ⟨.inl rfl, fun h => .inr ⟨h, rfl⟩, fun h => .inl ⟨h, hBlank⟩⟩
  · exact stepGap_effect limit d gap b

/-! ### Inside a token -/

/-- A value that is put in its place leaves the list alone. -/
structure Stored (d : Draft) (x : Draft × Gap) : Prop where
  found : x.1.found = d.found
  awaits : awaitsList (.between x.2) = false
  finished : isFinished (.between x.2) = false

theorem storeText_stored (limit : Nat) (d : Draft) (place : Place) (s : String) :
    Ok (storeText limit d place s) (Stored d) := by
  unfold storeText
  split
  · rename_i key
    exact ok_of_ok ⟨by cases key <;> rfl, rfl, rfl⟩
  · exact ok_of_ok ⟨rfl, rfl, rfl⟩
  · exact ok_of_ok ⟨rfl, rfl, rfl⟩
  · exact ok_error _

theorem storeNumber_stored (limit : Nat) (d : Draft) (place : Place) (n : Json.Number) :
    Ok (storeNumber limit d place n) (Stored d) := by
  unfold storeNumber
  split
  · rename_i key
    exact ok_of_ok ⟨by cases key <;> rfl, rfl, rfl⟩
  · exact ok_map fun _ => ⟨rfl, rfl, rfl⟩
  · exact ok_map fun _ => ⟨rfl, rfl, rfl⟩
  · exact ok_map fun _ => ⟨rfl, rfl, rfl⟩
  · exact ok_map fun _ => ⟨rfl, rfl, rfl⟩
  · exact ok_error _

theorem closeNumber_stored (limit : Nat) (d : Draft) (place : Place) (scan : Json.NumberScan) :
    Ok (closeNumber limit d place scan) (Stored d) := by
  unfold closeNumber
  split
  · exact ok_error _
  · exact storeNumber_stored limit d place _

theorem fieldGap_cases (d : Draft) (field : Field) :
    (∃ name, fieldGap d field = .repeated name) ∨
      fieldGap d field = .colon .occurrence (some (.member field)) := by
  unfold fieldGap
  split_ifs
  · exact .inl ⟨_, rfl⟩
  · exact .inr rfl

/-- After a key the reader complains of its repetition or looks for a colon. It goes on to the list
of occurrences only if there is none yet. -/
theorem keyGap_cases (d : Draft) (holder : Holder) (key : String) :
    (∃ name, keyGap d holder key = .repeated name) ∨
      ∃ place, keyGap d holder key = .colon holder place ∧
        (place = some .occurrences → d.found = none) := by
  cases holder with
  | file =>
    dsimp only [keyGap]
    split_ifs with _ _ _ _ _ _ hFound
    · exact .inr ⟨_, rfl, nofun⟩
    · exact .inr ⟨_, rfl, nofun⟩
    · exact .inr ⟨_, rfl, nofun⟩
    · exact .inr ⟨_, rfl, nofun⟩
    · exact .inr ⟨_, rfl, nofun⟩
    · exact .inl ⟨_, rfl⟩
    · exact .inr ⟨_, rfl, fun _ => by simpa using hFound⟩
    · exact .inr ⟨_, rfl, nofun⟩
  | occurrence =>
    have hField (field : Field) : (∃ name, fieldGap d field = .repeated name) ∨
        ∃ place, fieldGap d field = .colon .occurrence place ∧
          (place = some .occurrences → d.found = none) :=
      (fieldGap_cases d field).imp_right fun h => ⟨some (.member field), h, nofun⟩
    dsimp only [keyGap]
    split_ifs
    · exact hField .pattern
    · exact hField .start
    · exact hField .stop
    · exact .inr ⟨_, rfl, nofun⟩

theorem atKeyGap_effect (limit : Nat) (b : UInt8) (r : Reader) (holder : Holder) (key : String) :
    Effect limit b r (atGap r.draft (keyGap r.draft holder key)) := by
  rcases keyGap_cases r.draft holder key with ⟨name, hGap⟩ | ⟨place, hGap, hNone⟩
  · rw [hGap]
    exact .of_same rfl rfl rfl
  · rw [hGap]
    refine ⟨.inl rfl, ?_, nofun⟩
    intro hAwaits
    refine .inl (hNone ?_)
    cases place with
    | none => exact absurd hAwaits Bool.false_ne_true
    | some place => cases place <;> first | rfl | exact absurd hAwaits Bool.false_ne_true

theorem ok_of_orFault {α : Type} {x : Except Cause α} {P : α → Prop} (h : Ok x P) :
    Ok (orFault x) P := by
  intro a ha
  cases x with
  | error e => cases ha
  | ok b =>
    cases ha
    exact h a rfl

theorem stepInside_effect (limit : Nat) (d : Draft) (token : Token) (b : UInt8) :
    Ok (stepInside limit d token b) (Effect limit b ⟨d, .inside token⟩) := by
  cases token with
  | key holder scan =>
    dsimp only [stepInside]
    refine ok_bind fun outcome _ => ?_
    cases outcome with
    | more scan => exact ok_of_ok (.of_same rfl rfl rfl)
    | closed bytes =>
      exact ok_bind fun key _ => ok_of_ok (atKeyGap_effect limit b ⟨d, _⟩ holder key)
  | string place scan =>
    dsimp only [stepInside]
    refine ok_bind fun outcome _ => ?_
    cases outcome with
    | more scan => exact ok_of_ok (.of_same rfl rfl rfl)
    | closed bytes =>
      refine ok_bind fun s _ => ok_bind fun x hx => ?_
      have hStored := ok_of_orFault (storeText_stored limit d place s) x hx
      exact ok_of_ok (.of_same hStored.found hStored.awaits hStored.finished)
  | number place scan =>
    dsimp only [stepInside]
    refine ok_bind fun next _ => ?_
    cases next with
    | some scan => exact ok_of_ok (.of_same rfl rfl rfl)
    | none =>
      refine ok_bind fun x hx => ?_
      have hStored := ok_of_orFault (closeNumber_stored limit d place scan) x hx
      intro r' hr'
      exact (stepBetween_effect limit x.1 x.2 b r' hr').of_between hStored.found hStored.awaits
        hStored.finished
  | word place found left =>
    dsimp only [stepInside]
    cases left with
    | nil => exact ok_error _
    | cons expected left =>
      dsimp only
      split_ifs
      · exact ok_error _
      · exact ok_error _
      · exact ok_of_ok (.of_same rfl rfl rfl)
  | skip holder scan =>
    dsimp only [stepInside]
    refine ok_bind fun outcome _ => ?_
    cases outcome with
    | more scan => exact ok_of_ok (.of_same rfl rfl rfl)
    | ended => exact ok_of_ok (.of_same rfl rfl rfl)
    | endedBefore =>
      intro r' hr'
      exact (stepBetween_effect limit d _ b r' hr').of_between rfl rfl rfl

theorem step_effect (limit : Nat) (r : Reader) (b : UInt8) :
    Ok (r.step limit b) (Effect limit b r) := by
  obtain ⟨d, gap | token⟩ := r
  · exact stepBetween_effect limit d gap b
  · exact stepInside_effect limit d token b

end Reader

end PatternAudit.MatchFile
