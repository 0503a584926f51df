import Mathlib.Data.List.Count
import Mathlib.Data.List.TakeDrop
import PatternAudit.Proofs.StartOrder
import PatternAudit.Report.Listing

/-!
# Lines that tell occurrences apart

The line of an occurrence has two addresses of any number of digits and then the name as it is. The
name is not quoted and may look like more of the line: it may hold digits, blanks, dashes and even
line breaks. The line can be read back all the same (`readLine?_line`). No digit is a blank, so the
first blank ends the first address, and after the dash the next one ends the second. All the rest is
the name, whatever it holds.

The text report prints a heading or an occurrence at a time. What it prints for an occurrence is its
line, set in by two blanks, which no heading is. `Report.pieces` has these texts in their order, and
an occurrence stands among them as often as it is listed. Where a name holds a line break, the text
for its occurrence is compared as a whole.
-/

namespace PatternAudit

namespace Occurrence

/-! ## Reading addresses -/

/-- The value of a lower-case hexadecimal digit. -/
def digitValue (c : Char) : Nat :=
  if c.isDigit then c.toNat - '0'.toNat else c.toNat - 'a'.toNat + 10

def readHex (digits : List Char) : Nat :=
  digits.foldl (fun n c => 16 * n + digitValue c) 0

theorem digitValue_digitChar {d : Nat} (h : d < 16) : digitValue (Nat.digitChar d) = d := by
  decide +revert

theorem readHex_concat (digits : List Char) (c : Char) :
    readHex (digits ++ [c]) = 16 * readHex digits + digitValue c := by
  rw [readHex, List.foldl_append]
  rfl

theorem readHex_toDigits (n : Nat) : readHex (Nat.toDigits 16 n) = n := by
  induction n using Nat.strongRecOn with
  | ind n ih =>
    by_cases hDigit : n < 16
    · rw [Nat.toDigits_of_lt_base hDigit]
      calc
        readHex [n.digitChar] = 16 * 0 + digitValue n.digitChar := rfl
        _ = n := by rw [digitValue_digitChar hDigit, Nat.mul_zero, Nat.zero_add]
    · have hLess : n / 16 < n := by omega
      rw [Nat.toDigits_of_base_le (by decide) (by omega), readHex_concat, ih _ hLess,
        digitValue_digitChar (by omega)]
      omega

theorem blank_not_mem_toDigits (n : Nat) : ' ' ∉ Nat.toDigits 16 n := by
  have hDigit (d : Nat) : ' ' ≠ Nat.digitChar d := (Nat.digitChar_ne ' ' (by decide)).symm
  induction n using Nat.strongRecOn with
  | ind n ih =>
    by_cases hLess : n < 16
    · rw [Nat.toDigits_of_lt_base hLess, List.mem_singleton]
      exact hDigit n
    · rw [Nat.toDigits_of_base_le (by decide) (by omega), List.mem_append, List.mem_singleton]
      rintro (hMem | hEq)
      · exact ih (n / 16) (by omega) hMem
      · exact hDigit _ hEq

/-! ## Reading lines -/

/-- The text before the first blank and the text from there on. -/
def cutAtBlank (text : List Char) : List Char × List Char :=
  text.span fun c => c != ' '

theorem cutAtBlank_append {word : List Char} (h : ' ' ∉ word) (rest : List Char) :
    cutAtBlank (word ++ ' ' :: rest) = (word, ' ' :: rest) := by
  have hWord : ∀ c ∈ word, (c != ' ') = true := by
    intro c hc
    rw [bne_iff_ne]
    rintro rfl
    exact h hc
  rw [cutAtBlank, List.span_eq_takeWhile_dropWhile, List.takeWhile_append_of_pos hWord,
    List.dropWhile_append_of_pos hWord]
  simp

/-- The occurrence that a line lists: an address, a dash, an address and the name, with a blank
between each two of them. -/
def readLine? (text : List Char) : Option Occurrence :=
  match cutAtBlank text with
  | (start, ' ' :: '-' :: ' ' :: rest) =>
    match cutAtBlank rest with
    | (stop, ' ' :: name) =>
      some ⟨String.ofList name, .ofNat (readHex start), .ofNat (readHex stop)⟩
    | _ => none
  | _ => none

theorem toList_line (o : Occurrence) :
    o.line.toList = Nat.toDigits 16 o.start.toNat ++ ' ' :: '-' :: ' ' ::
      (Nat.toDigits 16 o.stop.toNat ++ ' ' :: o.pattern.toList) := by
  unfold line hex
  simp

theorem readLine?_line (o : Occurrence) : readLine? o.line.toList = some o := by
  have hStart := cutAtBlank_append (blank_not_mem_toDigits o.start.toNat)
    ('-' :: ' ' :: (Nat.toDigits 16 o.stop.toNat ++ ' ' :: o.pattern.toList))
  have hStop := cutAtBlank_append (blank_not_mem_toDigits o.stop.toNat) o.pattern.toList
  simp only [toList_line, readLine?, hStart, hStop, readHex_toDigits, String.ofList_toList,
    UInt64.ofNat_toNat]

example : readLine? "1 - ff 4 - 5 ab".toList = some ⟨"4 - 5 ab", 1, 0xff⟩ := by decide

theorem line_injective : Function.Injective line := by
  intro a b h
  apply Option.some.inj
  rw [← readLine?_line a, h, readLine?_line]

end Occurrence

namespace Report

/-! ## The pieces of a report -/

/-- What is printed for an occurrence. -/
def entry (o : Occurrence) : String :=
  line ("  " ++ o.line)

theorem entry_injective : Function.Injective entry := by
  intro a b h
  unfold entry line at h
  rw [String.append_left_inj, String.append_right_inj] at h
  exact Occurrence.line_injective h

def entries (os : List Occurrence) : List String :=
  (Occurrence.sortByStart os).map entry

theorem listing_eq_join (os : List Occurrence) : listing os = String.join (entries os) := rfl

/-- What the report prints, a heading or an occurrence at a time. -/
def pieces (verbose : Bool) (c : Classification) : List String :=
  line s!"correct: {c.correct.length.repr}" :: (if verbose then entries c.correct else []) ++
  line s!"wrong: {c.wrong.length.repr}" :: entries c.wrong ++
  line s!"references not found: {c.missed.length.repr}" :: entries c.missed ++
  [line s!"number of patterns used: {c.patternsUsed.length.repr}"]

/-- The occurrences that the report lists. -/
def listed (verbose : Bool) (c : Classification) : List Occurrence :=
  (if verbose then c.correct else []) ++ c.wrong ++ c.missed

theorem text_eq_join_pieces (verbose : Bool) (c : Classification) :
    text verbose c = String.join (pieces verbose c) := by
  unfold text pieces
  simp only [listing_eq_join]
  cases verbose
  · simp [String.append_assoc]
  · simp [String.append_assoc]

theorem count_entry_entries (os : List Occurrence) (o : Occurrence) :
    (entries os).count (entry o) = os.count o := by
  rw [entries, List.count_map_of_injective _ _ entry_injective]
  exact (sorts_sortByStart os).perm.count_eq o

/-- An occurrence is set in, a heading is not. -/
theorem heading_ne_entry {title : String} {first : Char} (hTitle : title.toList.head? = some first)
    (hFirst : first ≠ ' ') (rest : String) (o : Occurrence) : line (title ++ rest) ≠ entry o := by
  intro h
  have hHead := congrArg (fun s => s.toList.head?) h
  simp [line, entry, hTitle, hFirst] at hHead

theorem count_entry_pieces (verbose : Bool) (c : Classification) (o : Occurrence) :
    (pieces verbose c).count (entry o) = (listed verbose c).count o := by
  unfold pieces listed
  simp only [List.count_append]
  rw [List.count_cons_of_ne (heading_ne_entry rfl (by decide) _ _),
    List.count_cons_of_ne (heading_ne_entry rfl (by decide) _ _),
    List.count_cons_of_ne (heading_ne_entry rfl (by decide) _ _),
    List.count_cons_of_ne (heading_ne_entry rfl (by decide) _ _), count_entry_entries,
    count_entry_entries]
  cases verbose
  · rfl
  · simp only [if_true, count_entry_entries, List.count_nil, Nat.add_zero]

/-- Occurrences have the same line only if they are the same, with any names and at any addresses.
The report therefore prints the text of an occurrence as often as it lists that occurrence, and
never for another one. -/
theorem line_tells_apart :
    (∀ a b : Occurrence, a.line = b.line ↔ a = b) ∧
      (∀ a b : Occurrence, entry a = entry b ↔ a = b) ∧
        ∀ (verbose : Bool) (c : Classification),
          text verbose c = String.join (pieces verbose c) ∧
            ∀ o, (pieces verbose c).count (entry o) = (listed verbose c).count o := by
  refine ⟨?_, ?_, ?_⟩
  · intro a b
    exact Occurrence.line_injective.eq_iff
  · intro a b
    exact entry_injective.eq_iff
  · intro verbose c
    exact ⟨text_eq_join_pieces verbose c, count_entry_pieces verbose c⟩

end Report

end PatternAudit
