import PatternAudit.Proofs.GzipMember
import PatternAudit.Proofs.PathComponents
import PatternAudit.Proofs.Utf8

/-!
# Where the matches of an executable are kept

The name of the file is made from a text, and the path of the executable is bytes. A slash in the
bytes of a text is a slash of the text (`slash_of_mem_encode`), and bytes without a slash are read
as a text without one, even where they are broken (`slash_of_mem_lossy`). So the name is a single
component (`isName_of_matcher`). Whatever it holds, it ends in `.json`, and the path is never taken
for a compressed file (`isGzip_of_json`).
-/

namespace PatternAudit

/-! ## Slashes in texts -/

namespace Utf8

theorem slash_of_mem_encode {s : String} (h : Path.slash ∈ encode s) : '/' ∈ s.toList := by
  rw [encode_eq_flatMap, List.mem_flatMap] at h
  obtain ⟨c, hc, hSlash⟩ := h
  exact eq_of_byte_mem (d := '/') (by decide) hSlash ▸ hc

/-- A number that is no code gives the character with code 0, and only that. -/
theorem eq_toNat_of_ofNat_eq {n : Nat} {c : Char} (h : Char.ofNat n = c) (hc : c ≠ '\x00') :
    n = c.toNat := by
  by_cases hValid : n.isValidChar
  · have hChar : Char.ofNat n = Char.ofNatAux n hValid := dif_pos hValid
    rw [← h, hChar]
    rfl
  · have hChar : Char.ofNat n = '\x00' := dif_neg hValid
    exact absurd (h.symm.trans hChar) hc

theorem follow_ne_slash {bits more : Nat} (least greatest : UInt8) (bytes : List UInt8)
    (h : 0x80 ≤ bits * 64 ^ more) : (follow bits more least greatest bytes).1 ≠ .char '/' := by
  fun_induction follow bits more least greatest bytes with
  | case1 bits least greatest rest =>
    intro hChar
    have hCode : bits = 0x2f := eq_toNat_of_ofNat_eq (Piece.char.inj hChar) (by decide)
    omega
  | case2 => simp
  | case3 bits more least greatest b rest _ ih =>
    refine ih ?_
    calc 0x80 ≤ bits * 64 ^ (more + 1) := h
      _ = 64 * bits * 64 ^ more := by rw [Nat.pow_succ']; ac_rfl
      _ ≤ (64 * bits + (b.toNat - 0x80)) * 64 ^ more :=
        Nat.mul_le_mul_right _ (Nat.le_add_right ..)
  | case4 => simp

theorem follow_succ_ne_slash {bits more : Nat} {least greatest : UInt8} (bytes : List UInt8)
    (h : 0x80 ≤ (64 * bits + (least.toNat - 0x80)) * 64 ^ more) :
    (follow bits (more + 1) least greatest bytes).1 ≠ .char '/' := by
  cases bytes with
  | nil => simp [follow]
  | cons b rest =>
    rw [follow]
    split_ifs with hb
    · have hLeast : least.toNat ≤ b.toNat := UInt8.le_iff_toNat_le.mp hb.1
      refine follow_ne_slash _ _ _ (h.trans (Nat.mul_le_mul_right _ ?_))
      omega
    · simp

theorem lead_bound {b : UInt8} {lead : Lead} (hb : 0x80 ≤ b.toNat) (h : lead? b = some lead) :
    ∃ more, lead.more = more + 1 ∧
      0x80 ≤ (64 * lead.bits + (lead.least.toNat - 0x80)) * 64 ^ more := by
  rw [lead?] at h
  simp only [UInt8.lt_iff_toNat_lt, UInt8.reduceToNat] at h
  split at h
  · omega
  split at h
  · cases h
  split at h
  · obtain rfl := Option.some.inj h
    refine ⟨0, rfl, ?_⟩
    simp only [Nat.pow_zero]
    omega
  split at h
  · obtain rfl := Option.some.inj h
    refine ⟨1, rfl, ?_⟩
    dsimp only
    split_ifs with hFirst
    · simp only [UInt8.reduceToNat]
      omega
    · have hFirst' : b.toNat ≠ 0xe0 := fun h => hFirst (UInt8.toNat_inj.mp h)
      omega
  split at h
  · obtain rfl := Option.some.inj h
    refine ⟨2, rfl, ?_⟩
    dsimp only
    split_ifs with hFirst
    · simp only [UInt8.reduceToNat]
      omega
    · have hFirst' : b.toNat ≠ 0xf0 := fun h => hFirst (UInt8.toNat_inj.mp h)
      omega
  · cases h

/-- No longer form is read as a slash: the bounds on the second byte see to that. -/
theorem eq_slash_of_next {b : UInt8} {rest : List UInt8} (h : (next b rest).1 = .char '/') :
    b = Path.slash := by
  by_cases hOne : b.toNat ≤ 0x7f
  · rw [next_one rfl hOne] at h
    exact UInt8.toNat_inj.mp (eq_toNat_of_ofNat_eq (Piece.char.inj h) (by decide))
  · exfalso
    unfold next at h
    split at h
    · cases h
    · next lead hLead =>
      obtain ⟨more, hMore, hBound⟩ := lead_bound (by omega) hLead
      rw [hMore] at h
      exact follow_succ_ne_slash rest hBound h

theorem follow_suffix (bits more : Nat) (least greatest : UInt8) (bytes : List UInt8) :
    (follow bits more least greatest bytes).2 <:+ bytes := by
  fun_induction follow bits more least greatest bytes with
  | case1 => exact List.suffix_rfl
  | case2 => exact List.suffix_rfl
  | case3 bits more least greatest b rest _ ih => exact ih.trans (List.suffix_cons b rest)
  | case4 => exact List.suffix_rfl

theorem next_suffix (b : UInt8) (rest : List UInt8) : (next b rest).2 <:+ rest := by
  unfold next
  split
  · exact List.suffix_rfl
  · exact follow_suffix ..

theorem slash_mem_of_mem_pieces {bytes : List UInt8} (h : .char '/' ∈ pieces bytes) :
    Path.slash ∈ bytes := by
  fun_induction pieces bytes with
  | case1 => cases h
  | case2 b rest ih =>
    rcases List.mem_cons.mp h with hHead | hTail
    · exact eq_slash_of_next hHead.symm ▸ List.mem_cons_self
    · exact List.mem_cons_of_mem _ ((next_suffix b rest).subset (ih hTail))

theorem slash_of_mem_lossy {bytes : List UInt8} (h : '/' ∈ (lossy bytes).toList) :
    Path.slash ∈ bytes := by
  rw [lossy, String.toList_ofList, List.mem_map] at h
  obtain ⟨piece, hPiece, hSlash⟩ := h
  cases piece with
  | char c =>
    cases hSlash
    exact slash_mem_of_mem_pieces hPiece
  | broken => exact absurd hSlash (by decide)

end Utf8

/-! ## Where matches are kept -/

namespace Path

theorem isName_of_length {name : List UInt8} (hSlash : slash ∉ name) (h : 2 < name.length) :
    IsName name where
  slash_not_mem := hSlash
  isTrivial_eq := by
    rw [isTrivial, Bool.or_eq_false_iff, beq_eq_false_iff_ne, beq_eq_false_iff_ne]
    constructor <;> rintro rfl <;> simp at h
  ne_parent := by
    rintro rfl
    simp at h

theorem slash_not_mem_stem (p : Path) : '/' ∉ p.stem.toList := by
  unfold stem
  split
  · decide
  · next name hFile =>
    intro h
    have hStem : slash ∈ name :=
      (stemOf_iff.mpr rfl).isPrefix.subset (Utf8.slash_of_mem_lossy h)
    exact slash_not_mem_of_mem_segments _ _ (List.mem_of_mem_filter (mem_steps_of_fileName? hFile))
      hStem

theorem isName_of_matcher (p : Path) {matcher : String} (h : '/' ∉ matcher.toList) :
    IsName (Utf8.encode (p.stem ++ "_matched_" ++ matcher ++ ".json")) := by
  refine isName_of_length (fun hMem => ?_) ?_
  · have hSlash := Utf8.slash_of_mem_encode hMem
    simp only [String.toList_append, List.mem_append] at hSlash
    rcases hSlash with ((hStem | hMiddle) | hMatcher) | hEnd
    · exact p.slash_not_mem_stem hStem
    · exact absurd hMiddle (by decide)
    · exact h hMatcher
    · exact absurd hEnd (by decide)
  · have hEnd : (Utf8.encode ".json").length = 5 := by decide +kernel
    rw [Utf8.encode_append, List.length_append, hEnd]
    omega

theorem exists_steps_append (before : List UInt8) {t : List UInt8} (hSlash : slash ∉ t)
    (h : 2 < t.length) : ∃ front last, steps (before ++ t) = front ++ [last ++ t] := by
  by_cases hBefore : slash ∈ before
  · obtain ⟨front, last, rfl, hLast⟩ := exists_last_eq hBefore
    have hName : IsName (last ++ t) :=
      isName_of_length (by simp [hLast, hSlash]) (by simp; omega)
    refine ⟨steps front, last, ?_⟩
    rw [List.append_assoc, List.cons_append, steps_append_slash, hName.steps_eq]
  · have hName : IsName (before ++ t) :=
      isName_of_length (by simp [hBefore, hSlash]) (by simp; omega)
    exact ⟨[], before, hName.steps_eq⟩

theorem exists_withFileName_eq (p : Path) (name : List UInt8) :
    ∃ before, (p.withFileName name).bytes = before ++ name := by
  have hAppend (q : Path) : ∃ before, (q.append name).bytes = before ++ name := by
    by_cases hq : q.bytes = []
    · exact ⟨[], by rw [append_of_eq_nil hq, List.nil_append]⟩
    · obtain ⟨x, hx, -⟩ := exists_append_eq hq name
      exact ⟨x ++ [slash], by simp [hx]⟩
  unfold withFileName
  split
  · exact hAppend _
  · exact hAppend _

theorem isGzip_of_json {p : Path} {before : List UInt8}
    (h : p.bytes = before ++ Utf8.encode ".json") : p.isGzip = false := by
  have hJson : Utf8.encode ".json" = dot :: [0x6a, 0x73, 0x6f, 0x6e] := by decide +kernel
  rw [hJson] at h
  obtain ⟨front, last, hSteps⟩ := exists_steps_append before
    (t := dot :: [0x6a, 0x73, 0x6f, 0x6e]) (by decide) (by decide)
  have hFile : p.fileName? = some (last ++ dot :: [0x6a, 0x73, 0x6f, 0x6e]) := by
    rw [fileName?_eq, h, hSteps, List.getLast?_concat, Option.bind_some, if_neg]
    intro hParent
    have hLength := congrArg List.length hParent
    simp at hLength
  unfold isGzip extension?
  rw [hFile, Option.bind_some, splitName_of_dot (by decide)]
  split_ifs <;> rfl

end Path

/-- The matches are kept in the directory of the executable, under a name made from its stem. -/
theorem components_matchPath (executable : Path) (matcher : String) :
    ('/' ∉ matcher.toList → ∃ directory stem, Path.Beside executable.components directory stem ∧
      (matchPath executable matcher).components = directory ++
        [.name (Utf8.encode (Utf8.lossy stem ++ "_matched_" ++ matcher ++ ".json"))]) ∧
    ¬ (matchPath executable matcher).HasGzipExtension ∧
    ∀ disk bytes, disk (matchPath executable matcher) = .ok (.file bytes) →
      MatchFile.load disk (matchPath executable matcher) =
        MatchFile.read maxMatches (.ofBytes bytes) := by
  have hIsGzip : (matchPath executable matcher).isGzip = false := by
    obtain ⟨before, hBefore⟩ := executable.exists_withFileName_eq
      (Utf8.encode (executable.stem ++ "_matched_" ++ matcher ++ ".json"))
    rw [Utf8.encode_append, ← List.append_assoc] at hBefore
    exact Path.isGzip_of_json hBefore
  refine ⟨fun hMatcher => ?_, ?_, fun disk bytes hDisk => ?_⟩
  · obtain ⟨directory, stem, hBeside, hStem, hComponents⟩ :=
      executable.exists_beside (executable.isName_of_matcher hMatcher)
    refine ⟨directory, stem, hBeside, ?_⟩
    rw [← hStem]
    exact hComponents
  · rw [← Path.isGzip_iff, hIsGzip]
    exact Bool.false_ne_true
  · simp [MatchFile.load, MatchFile.source, hDisk, hIsGzip]

/-- A file name with two dots and a byte that is no text, with steps that do not count around it. -/
def brokenPath : Path :=
  ⟨Utf8.encode "./a//b" ++ 0xff :: Utf8.encode ".tar.gz/."⟩

theorem components_matchPath_brokenPath :
    '/' ∉ "x".toList ∧
      (matchPath brokenPath "x").components =
        [.current, .name (Utf8.encode "a"), .name (Utf8.encode "b\ufffd.tar_matched_x.json")] ∧
      ¬ (matchPath brokenPath "x").HasGzipExtension ∧
      ¬ (matchPath brokenPath "x/y.gz").HasGzipExtension := by
  have hMatcher : '/' ∉ "x".toList := by decide
  obtain ⟨hComponents, hPlain, _⟩ := components_matchPath brokenPath "x"
  obtain ⟨directory, stem, hBeside, hMatchPath⟩ := hComponents hMatcher
  have hLast : brokenPath.components = [.current, .name (Utf8.encode "a")] ++
      [.name (Utf8.encode "b" ++ 0xff :: Utf8.encode ".tar.gz")] := by
    decide +kernel
  have hStem : Path.StemOf (Utf8.encode "b" ++ 0xff :: Utf8.encode ".tar.gz")
      (Utf8.encode "b" ++ 0xff :: Utf8.encode ".tar") :=
    Path.stemOf_iff.mpr (by decide +kernel)
  obtain ⟨rfl, rfl⟩ := hBeside.unique (.file hLast hStem)
  refine ⟨hMatcher, hMatchPath.trans (by decide +kernel), hPlain, ?_⟩
  exact (components_matchPath brokenPath "x/y.gz").2.1

end PatternAudit
