import PatternAudit.MatchFile.Load
import PatternAudit.Proofs.ByteOrder
import PatternAudit.Proofs.ReaderRuns

/-!
# What a gzip file holds

A file is inflated in one pass that knows no grammar. Here is what it accepts: a `Header` is what
can be skipped (`skipHeader_eq_ok_iff`), and a `Member` of some content is a header, a stream that
inflates to the content, and the trailer of the content. A stream ends by itself, and what follows
it is left alone (`Inflater.run_eq_complete_iff`). Every content has a member, because stored blocks
inflate to their bytes (`Inflater.run_storedBlock`).

A source ends without failure exactly if the file begins with a member, and then it gives the
content of the member (`failure_source_eq_none_iff`, `source_of_member`). Nothing is read from a
source that fails, so a file with extension `gz` is read like its content.
-/

namespace PatternAudit.Gzip

/-! ## Numbers -/

/-- The lowest bytes of a number, the lowest one first. -/
def toLittleEndian : Nat → Nat → List UInt8
  | 0, _ => []
  | count + 1, n => n.toUInt8 :: toLittleEndian count (n / 256)

theorem length_toLittleEndian (count n : Nat) : (toLittleEndian count n).length = count := by
  induction count generalizing n with
  | zero => rfl
  | succ count ih => rw [toLittleEndian, List.length_cons, ih]

theorem eq_toLittleEndian_iff {count n : Nat} {bytes : List UInt8} (hLength : bytes.length = count)
    (hn : n < 256 ^ count) : bytes = toLittleEndian count n ↔ littleEndian bytes = n := by
  induction count generalizing n bytes with
  | zero =>
    have hBytes := List.length_eq_zero_iff.mp hLength
    have hZero : n = 0 := by omega
    simp [hBytes, hZero, toLittleEndian, littleEndian]
  | succ count ih =>
    obtain ⟨b, t, rfl⟩ := List.exists_cons_of_length_eq_add_one hLength
    have hn' : n / 256 < 256 ^ count := by
      rw [Nat.pow_succ] at hn
      omega
    have hb : b = n.toUInt8 ↔ b.toNat = n % 256 := by
      rw [← UInt8.toNat_inj, Nat.toUInt8, UInt8.toNat_ofNat']
    have hRest := ih (Nat.succ.inj hLength) hn'
    have hCons : littleEndian (b :: t) = b.toNat + 256 * littleEndian t := rfl
    have hLt := b.toNat_lt
    rw [toLittleEndian, List.cons.injEq, hb, hRest, hCons]
    omega

theorem littleEndian_pair_lt (low high : UInt8) : littleEndian [low, high] < 65536 := by
  have hLow := low.toNat_lt
  have hHigh := high.toNat_lt
  simp only [littleEndian, List.foldr_cons, List.foldr_nil]
  omega

theorem pair_eq_toLittleEndian (low high : UInt8) :
    [low, high] = toLittleEndian 2 (littleEndian [low, high]) :=
  (eq_toLittleEndian_iff rfl (by simpa using littleEndian_pair_lt low high)).mpr rfl

theorem littleEndian_pair {n : Nat} (hn : n < 65536) :
    littleEndian [n.toUInt8, (n / 256).toUInt8] = n :=
  (eq_toLittleEndian_iff rfl (by simpa using hn)).mp rfl

/-! ## Headers -/

/-- `skip` passes over the texts of a kind. -/
def Skips (skip : List UInt8 → Except SourceFailure (List UInt8)) (IsText : List UInt8 → Prop) :
    Prop :=
  ∀ bytes rest, skip bytes = .ok rest ↔ ∃ text, IsText text ∧ bytes = text ++ rest

theorem exists_cons_append_iff {P : List UInt8 → Prop} (hNil : ¬ P []) {b : UInt8}
    {bytes rest : List UInt8} :
    (∃ text, P text ∧ b :: bytes = text ++ rest) ↔
      ∃ text, P (b :: text) ∧ bytes = text ++ rest := by
  constructor
  · rintro ⟨text, hText, hBytes⟩
    match text with
    | [] => exact absurd hText hNil
    | c :: text =>
      obtain ⟨rfl, rfl⟩ := List.cons.inj hBytes
      exact ⟨text, hText, rfl⟩
  · rintro ⟨text, hText, rfl⟩
    exact ⟨b :: text, hText, rfl⟩

/-- A text that is there only if a flag says so. -/
def Flagged (present : Bool) (IsText : List UInt8 → Prop) (text : List UInt8) : Prop :=
  if present then IsText text else text = []

def skipFlagged (present : Bool) (skip : List UInt8 → Except SourceFailure (List UInt8))
    (bytes : List UInt8) : Except SourceFailure (List UInt8) :=
  if present then skip bytes else .ok bytes

theorem Skips.flagged {skip : List UInt8 → Except SourceFailure (List UInt8)}
    {IsText : List UInt8 → Prop} (h : Skips skip IsText) (present : Bool) :
    Skips (skipFlagged present skip) (Flagged present IsText) := by
  intro bytes rest
  cases present with
  | true => exact h bytes rest
  | false => simp [skipFlagged, Flagged]

/-- An extra field: its length, and as many bytes. -/
def IsExtra (text : List UInt8) : Prop :=
  ∃ content : List UInt8,
    content.length < 65536 ∧ text = toLittleEndian 2 content.length ++ content

theorem skips_skipExtra : Skips skipExtra IsExtra := by
  intro bytes rest
  constructor
  · intro h
    match bytes with
    | low :: high :: more =>
      simp only [skipExtra] at h
      split at h
      · next hLe =>
        cases h
        have hPair := pair_eq_toLittleEndian low high
        have hLt := littleEndian_pair_lt low high
        have hLength : (more.take (littleEndian [low, high])).length =
            littleEndian [low, high] := by
          rw [List.length_take]
          omega
        refine ⟨[low, high] ++ more.take (littleEndian [low, high]),
          ⟨more.take (littleEndian [low, high]), ?_, ?_⟩, ?_⟩
        · rw [hLength]
          exact hLt
        · rw [hLength, ← hPair]
        · rw [List.append_assoc, List.take_append_drop]
          rfl
      · cases h
  · rintro ⟨text, ⟨content, hLt, rfl⟩, rfl⟩
    have hNumber := littleEndian_pair hLt
    simp [toLittleEndian, skipExtra, hNumber]

/-- A name or a comment: at most `room` bytes, none of which is zero, and the zero that ends it. -/
def IsField (room : Nat) (text : List UInt8) : Prop :=
  ∃ content : List UInt8, content.length ≤ room ∧ 0 ∉ content ∧ text = content ++ [0]

theorem isField_cons_iff {room : Nat} {b : UInt8} {text : List UInt8} (hb : b ≠ 0) :
    IsField room (b :: text) ↔ ∃ room', room = room' + 1 ∧ IsField room' text := by
  constructor
  · rintro ⟨content, hLe, hZero, hText⟩
    match content with
    | [] => simp_all
    | c :: content =>
      obtain ⟨rfl, rfl⟩ := List.cons.inj hText
      refine ⟨room - 1, ?_, content, ?_, fun h => hZero (List.mem_cons_of_mem b h), rfl⟩
      all_goals
        rw [List.length_cons] at hLe
        omega
  · rintro ⟨room', rfl, content, hLe, hZero, rfl⟩
    exact ⟨b :: content, Nat.succ_le_succ hLe, by simp [hZero, hb.symm], rfl⟩

theorem skips_skipField (room : Nat) : Skips (skipField room) (IsField room) := by
  intro bytes rest
  induction bytes generalizing room with
  | nil => simp [skipField, IsField]
  | cons b bytes ih =>
    by_cases hb : b = 0
    · subst hb
      rw [skipField.eq_def]
      constructor
      · intro h
        cases h
        exact ⟨[0], ⟨[], Nat.zero_le room, List.not_mem_nil, rfl⟩, rfl⟩
      · rintro ⟨_, ⟨content, _, hZero, rfl⟩, hBytes⟩
        match content with
        | [] => simp_all
        | c :: content => simp_all
    · have hNil : ¬ IsField room [] := by
        rintro ⟨content, _, _, h⟩
        simp at h
      simp only [exists_cons_append_iff hNil, isField_cons_iff hb]
      cases room with
      | zero => simp [skipField, hb]
      | succ room =>
        simp [skipField, hb, ih room]

/-- The checksum of the header before it. -/
def IsChecksum (front text : List UInt8) : Prop :=
  text = toLittleEndian 2 ((crc32 front).toNat % 65536)

theorem skips_checkHeader (front : List UInt8) :
    Skips (checkHeader front) (IsChecksum front) := by
  have hLt : (crc32 front).toNat % 65536 < 65536 := Nat.mod_lt _ (by decide)
  intro bytes rest
  constructor
  · intro h
    match bytes with
    | low :: high :: more =>
      simp only [checkHeader] at h
      split at h
      · next hNumber =>
        cases h
        have hPair := pair_eq_toLittleEndian low high
        rw [hNumber] at hPair
        exact ⟨[low, high], hPair, rfl⟩
      · cases h
  · rintro ⟨text, rfl, rfl⟩
    have hNumber := littleEndian_pair hLt
    simp only [toLittleEndian, List.cons_append, List.nil_append, checkHeader]
    rw [if_pos hNumber]

/-- The beginning of a header, whose first four bytes are fixed but for the flags. -/
def IsFixed (flags : UInt8) (text : List UInt8) : Prop :=
  hasReserved flags = false ∧
    ∃ origin : List UInt8, origin.length = 6 ∧ text = [0x1f, 0x8b, 8, flags] ++ origin

theorem skipFixed_eq_ok_iff {flags : UInt8} {bytes rest : List UInt8} :
    skipFixed bytes = .ok (flags, rest) ↔ ∃ text, IsFixed flags text ∧ bytes = text ++ rest := by
  constructor
  · intro h
    match bytes with
    | _ :: _ :: _ :: _ :: o₁ :: o₂ :: o₃ :: o₄ :: o₅ :: o₆ :: _ =>
      simp only [skipFixed] at h
      split at h
      · cases h
      · next hFixed =>
        cases h
        simp only [not_or, not_not, Bool.not_eq_true] at hFixed
        obtain ⟨rfl, rfl, rfl, hReserved⟩ := hFixed
        exact ⟨_, ⟨hReserved, [o₁, o₂, o₃, o₄, o₅, o₆], rfl, rfl⟩, rfl⟩
  · rintro ⟨_, ⟨hReserved, origin, hLength, rfl⟩, rfl⟩
    match origin with
    | [_, _, _, _, _, _] => simp [skipFixed, hReserved]

/-- A header. Its flags tell which parts it has. -/
structure Header where
  flags : UInt8
  fixed : List UInt8
  extra : List UInt8
  name : List UInt8
  comment : List UInt8
  checksum : List UInt8
  isFixed : IsFixed flags fixed
  isExtra : Flagged (hasExtra flags) IsExtra extra
  isName : Flagged (hasName flags) (IsField maxFieldLength) name
  isComment : Flagged (hasComment flags) (IsField maxFieldLength) comment
  isChecksum :
    Flagged (hasChecksum flags) (IsChecksum (fixed ++ extra ++ name ++ comment)) checksum

def Header.bytes (h : Header) : List UInt8 :=
  h.fixed ++ h.extra ++ h.name ++ h.comment ++ h.checksum

theorem skipHeader_eq_bind (bytes : List UInt8) :
    skipHeader bytes =
      skipFixed bytes >>= fun (flags, rest) =>
        skipFlagged (hasExtra flags) skipExtra rest >>= fun rest =>
          skipFlagged (hasName flags) (skipField maxFieldLength) rest >>= fun rest =>
            skipFlagged (hasComment flags) (skipField maxFieldLength) rest >>= fun rest =>
              skipFlagged (hasChecksum flags)
                (checkHeader (bytes.take (bytes.length - rest.length))) rest := by
  unfold skipHeader
  congr 1
  funext (flags, rest)
  simp only [skipFlagged]
  cases hasExtra flags <;> cases hasName flags <;> cases hasComment flags <;> rfl

/-- What a header can be skipped from begins with it. -/
theorem skipHeader_eq_ok_iff {bytes body : List UInt8} :
    skipHeader bytes = .ok body ↔ ∃ header : Header, bytes = header.bytes ++ body := by
  have hFront : ∀ front rest : List UInt8,
      (front ++ rest).take ((front ++ rest).length - rest.length) = front := by
    intro front rest
    rw [List.length_append, Nat.add_sub_cancel, List.take_left]
  have hField := skips_skipField maxFieldLength
  rw [skipHeader_eq_bind]
  constructor
  · intro h
    obtain ⟨⟨flags, _⟩, hFixed, h⟩ := exists_of_bind_eq_ok h
    obtain ⟨_, hExtra, h⟩ := exists_of_bind_eq_ok h
    obtain ⟨_, hName, h⟩ := exists_of_bind_eq_ok h
    obtain ⟨_, hComment, h⟩ := exists_of_bind_eq_ok h
    obtain ⟨fixed, isFixed, rfl⟩ := skipFixed_eq_ok_iff.mp hFixed
    obtain ⟨extra, isExtra, rfl⟩ := (skips_skipExtra.flagged _ _ _).mp hExtra
    obtain ⟨name, isName, rfl⟩ := (hField.flagged _ _ _).mp hName
    obtain ⟨comment, isComment, rfl⟩ := (hField.flagged _ _ _).mp hComment
    simp only [← List.append_assoc] at h
    rw [hFront] at h
    obtain ⟨checksum, isChecksum, rfl⟩ := ((skips_checkHeader _).flagged _ _ _).mp h
    refine ⟨⟨flags, fixed, extra, name, comment, checksum, isFixed, isExtra, isName, isComment,
      isChecksum⟩, ?_⟩
    simp only [Header.bytes, List.append_assoc]
  · rintro ⟨header, rfl⟩
    obtain ⟨flags, fixed, extra, name, comment, checksum, isFixed, isExtra, isName, isComment,
      isChecksum⟩ := header
    simp only [Header.bytes, List.append_assoc]
    refine bind_eq_ok (skipFixed_eq_ok_iff.mpr ⟨fixed, isFixed, rfl⟩) ?_
    refine bind_eq_ok ((skips_skipExtra.flagged _ _ _).mpr ⟨extra, isExtra, rfl⟩) ?_
    refine bind_eq_ok ((hField.flagged _ _ _).mpr ⟨name, isName, rfl⟩) ?_
    refine bind_eq_ok ((hField.flagged _ _ _).mpr ⟨comment, isComment, rfl⟩) ?_
    simp only [← List.append_assoc]
    rw [List.append_assoc _ checksum, hFront]
    exact ((skips_checkHeader _).flagged _ _ _).mpr ⟨checksum, isChecksum, rfl⟩

/-! ## Streams -/

namespace Inflater

theorem add_testBit (count weight value n : Nat) :
    (if n.testBit count then value + weight * (n % 2 ^ count) + 2 ^ count * weight
      else value + weight * (n % 2 ^ count)) = value + weight * (n % 2 ^ (count + 1)) := by
  rw [Nat.mod_pow_succ, ← Nat.toNat_testBit, Nat.mul_add, ← Nat.add_assoc]
  cases n.testBit count <;> simp [Nat.mul_comm]

/-- A stream ends by itself, so what follows it is left as it is. -/
theorem run_eq_complete_iff {s : Inflater} {bytes output rest : List UInt8} :
    s.run bytes = .complete output rest ↔
      ∃ stream, s.run stream = .complete output [] ∧ bytes = stream ++ rest := by
  induction bytes generalizing s with
  | nil =>
    constructor
    · intro h
      cases h
    · rintro ⟨stream, hStream, hNil⟩
      rw [(List.append_eq_nil_iff.mp hNil.symm).1] at hStream
      cases hStream
  | cons b bytes ih =>
    have hNil : s.run [] ≠ .complete output [] := nofun
    rw [exists_cons_append_iff hNil]
    simp only [run]
    cases (s.byte b).control with
    | finished => simp [eq_comm]
    | corrupt => simp
    | _ => exact ih

theorem run_of_byte {s s' : Inflater} {b : UInt8} (hByte : s.byte b = s')
    (hFinished : s'.control ≠ .finished) (hCorrupt : s'.control ≠ .corrupt) (rest : List UInt8) :
    s.run (b :: rest) = s'.run rest := by
  subst hByte
  simp only [run]

/-- A number is gathered from its lowest bit on. -/
theorem foldl_step_bits (s : Inflater) (purpose : Purpose) {left count : Nat}
    (hCount : count < left) (weight value n : Nat) :
    (List.range count).foldl (fun s i => s.step (n.testBit i) (i == 7))
        (s.goto (.bits purpose left weight value)) =
      s.goto (.bits purpose (left - count) (2 ^ count * weight)
        (value + weight * (n % 2 ^ count))) := by
  induction count with
  | zero => simp [Nat.mod_one]
  | succ count ih =>
    have hMore : ¬ left - count ≤ 1 := by omega
    have hWeight : 2 * (2 ^ count * weight) = 2 ^ (count + 1) * weight := by
      rw [← Nat.mul_assoc, Nat.pow_succ, Nat.mul_comm 2]
    rw [List.range_succ, List.foldl_append, ih (by omega), List.foldl_cons, List.foldl_nil]
    simp only [step, goto, hMore, if_false, hWeight, add_testBit, Nat.sub_sub]

theorem byte_bits (s : Inflater) (purpose : Purpose) {left : Nat} (hLeft : 8 < left)
    (weight value : Nat) (b : UInt8) :
    (s.goto (.bits purpose left weight value)).byte b =
      s.goto (.bits purpose (left - 8) (256 * weight) (value + weight * b.toNat)) := by
  rw [byte, foldl_step_bits s purpose hLeft, Nat.mod_eq_of_lt b.toNat_lt]
  rfl

/-- What a number leads to does not depend on how it was gathered. -/
theorem byte_lastBits {s s' : Inflater} {purpose : Purpose} {weight value : Nat} {b : UInt8}
    (h : ∀ control, (s.goto control).takeNumber purpose (value + weight * b.toNat) true = s') :
    (s.goto (.bits purpose 8 weight value)).byte b = s' := by
  have hNumber := add_testBit 7 weight value b.toNat
  rw [Nat.mod_eq_of_lt b.toNat_lt] at hNumber
  rw [byte, List.range_succ, List.foldl_append, foldl_step_bits s purpose (by decide)]
  simp only [List.foldl_cons, List.foldl_nil, step, goto, hNumber]
  exact h _

/-- A number of two bytes. -/
theorem byte_pair (s s' : Inflater) (purpose : Purpose) {n : Nat} (hn : n < 65536)
    (h : ∀ control, (s.goto control).takeNumber purpose n true = s') :
    (s.goto (.gather purpose 16)).byte n.toUInt8 = s.goto (.bits purpose 8 256 (n % 256)) ∧
      (s.goto (.bits purpose 8 256 (n % 256))).byte (n / 256).toUInt8 = s' := by
  have hLow : n.toUInt8.toNat = n % 256 := UInt8.toNat_ofNat'
  have hHigh : (n / 256).toUInt8.toNat = n / 256 % 256 := UInt8.toNat_ofNat'
  have hSum : n % 256 + 256 * (n / 256 % 256) = n := by omega
  constructor
  · rw [Control.gather, byte_bits s purpose (by decide), hLow]
    simp
  · refine byte_lastBits ?_
    rw [hHigh, hSum]
    exact h

/-! ## Stored blocks -/

/-- The inflater between two blocks. -/
def between (output : ByteArray) (isLast : Bool) : Inflater :=
  ⟨output, isLast, .gather .blockHeader 3⟩

/-- What comes of the bytes after a block. -/
def runAfter (s : Inflater) (rest : List UInt8) : Inflated :=
  if s.isLast then .complete s.output.data.toList rest
  else (between s.output false).run rest

theorem run_of_endBlock {s s' : Inflater} {b : UInt8} (hByte : s.byte b = s'.endBlock)
    (rest : List UInt8) : s.run (b :: rest) = s'.runAfter rest := by
  obtain ⟨output, isLast, control⟩ := s'
  cases isLast with
  | true =>
    simp only [run, hByte]
    rfl
  | false => exact run_of_byte hByte nofun nofun rest

theorem byte_storedByte (s : Inflater) (left : Nat) (b : UInt8) :
    (s.goto (.gather (.storedByte left) 8)).byte b =
      if left ≤ 1 then (s.emit b).endBlock
      else (s.emit b).goto (.gather (.storedByte (left - 1)) 8) := by
  refine byte_lastBits fun control => ?_
  have hb : (0 + 1 * b.toNat).toUInt8 = b := by simp
  rw [takeNumber, hb]
  rfl

theorem run_storedBytes (s : Inflater) (b : UInt8) (chunk rest : List UInt8) :
    (s.goto (.gather (.storedByte (chunk.length + 1)) 8)).run (b :: chunk ++ rest) =
      ((b :: chunk).foldl emit s).runAfter rest := by
  induction chunk generalizing s b with
  | nil => exact run_of_endBlock (byte_storedByte s 1 b) rest
  | cons c chunk ih =>
    have hByte := byte_storedByte s ((c :: chunk).length + 1) b
    have hMore : ¬ (c :: chunk).length + 1 ≤ 1 := by simp
    rw [if_neg hMore] at hByte
    rw [List.cons_append, run_of_byte hByte nofun nofun]
    exact ih (s.emit b) c

/-- A block that holds its bytes as they are. -/
def storedBlock (isLast : Bool) (chunk : List UInt8) : List UInt8 :=
  (if isLast then 1 else 0) ::
    (toLittleEndian 2 chunk.length ++ toLittleEndian 2 (65535 - chunk.length) ++ chunk)

theorem run_storedBlock (output : ByteArray) (wasLast isLast : Bool) {chunk : List UInt8}
    (hChunk : chunk.length < 65536) (rest : List UInt8) :
    (between output wasLast).run (storedBlock isLast chunk ++ rest) =
      (chunk.foldl emit (between output isLast)).runAfter rest := by
  generalize hs : between output isLast = s
  have hHeader : (between output wasLast).byte (if isLast then 1 else 0) =
      s.goto (.gather .storedSize 16) := by
    subst hs
    cases isLast <;> rfl
  obtain ⟨hLow, hHigh⟩ := byte_pair s (s.goto (.gather (.storedCheck chunk.length) 16))
    .storedSize hChunk fun _ => rfl
  have hCheck : chunk.length + (65535 - chunk.length) = 65535 := by omega
  simp only [storedBlock, toLittleEndian, List.cons_append, List.nil_append]
  rw [run_of_byte hHeader nofun nofun, run_of_byte hLow nofun nofun,
    run_of_byte hHigh nofun nofun]
  cases chunk with
  | nil =>
    obtain ⟨hLow, hHigh⟩ := byte_pair s s.endBlock (.storedCheck 0) (by decide : 65535 < 65536)
      fun _ => rfl
    exact (run_of_byte hLow nofun nofun _).trans (run_of_endBlock hHigh rest)
  | cons b chunk =>
    obtain ⟨hLow, hHigh⟩ := byte_pair s (s.goto (.gather (.storedByte (b :: chunk).length) 8))
      (.storedCheck (b :: chunk).length) (by omega : 65535 - (b :: chunk).length < 65536)
      fun control => by
        simp only [takeNumber, hCheck, ne_eq, not_true_eq_false, if_false]
        rfl
    rw [run_of_byte hLow nofun nofun, run_of_byte hHigh nofun nofun]
    exact run_storedBytes s b chunk rest

theorem run_storedBlocks (content : List UInt8) (output : ByteArray) (wasLast : Bool) :
    (between output wasLast).run
        (content.flatMap (fun b => storedBlock false [b]) ++ storedBlock true []) =
      .complete (output.data.toList ++ content) [] := by
  induction content generalizing output wasLast with
  | nil =>
    have hEnd := run_storedBlock output wasLast true (by decide : [].length < 65536) []
    rw [List.append_nil] at hEnd
    rw [List.flatMap_nil, List.nil_append, hEnd, List.append_nil]
    rfl
  | cons b content ih =>
    have hShort : [b].length < 65536 := by simp
    have hOutput : (output.push b).data.toList ++ content =
        output.data.toList ++ b :: content := by simp
    rw [List.flatMap_cons, List.append_assoc, run_storedBlock output wasLast false hShort,
      ← hOutput]
    exact ih (output.push b) false

end Inflater

theorem inflate_eq_complete_iff {bytes output rest : List UInt8} :
    inflate bytes = .complete output rest ↔
      ∃ stream, inflate stream = .complete output [] ∧ bytes = stream ++ rest :=
  Inflater.run_eq_complete_iff

/-! ## Trailers -/

/-- The checksum and the length of some bytes, which follow the stream that they are in. -/
def trailer (content : List UInt8) : List UInt8 :=
  toLittleEndian 4 (crc32 content).toNat ++ toLittleEndian 4 (content.length % 2 ^ 32)

theorem trailerFailure_eq_none_iff {content rest : List UInt8} :
    trailerFailure content rest = none ↔ trailer content <+: rest := by
  have hSum : (crc32 content).toNat < 256 ^ 4 := (crc32 content).toNat_lt
  have hLength : content.length % 2 ^ 32 < 256 ^ 4 := Nat.mod_lt _ (by decide)
  have hTrailer : (trailer content).length = 8 := by
    rw [trailer, List.length_append, length_toLittleEndian, length_toLittleEndian]
  rw [List.prefix_iff_eq_take, hTrailer]
  unfold trailerFailure
  by_cases hShort : rest.length < 8
  · have hNe : trailer content ≠ rest.take 8 := by
      intro hEq
      have hTake := congrArg List.length hEq
      rw [hTrailer, List.length_take] at hTake
      omega
    simp [hShort, hNe]
  · have hFirst : (rest.take 4).length = 4 := by
      rw [List.length_take]
      omega
    have hSecond : ((rest.drop 4).take 4).length = 4 := by
      rw [List.length_take, List.length_drop]
      omega
    have hTake : rest.take (4 + 4) = rest.take 4 ++ (rest.drop 4).take 4 := List.take_add
    have hParts : rest.take 4 ++ (rest.drop 4).take 4 = trailer content ↔
        rest.take 4 = toLittleEndian 4 (crc32 content).toNat ∧
          (rest.drop 4).take 4 = toLittleEndian 4 (content.length % 2 ^ 32) := by
      constructor
      · intro h
        exact List.append_inj h (by rw [hFirst, length_toLittleEndian])
      · rintro ⟨hSum, hLength⟩
        rw [hSum, hLength, trailer]
    rw [if_neg hShort, @eq_comm _ (trailer content), hTake, hParts,
      eq_toLittleEndian_iff hFirst hSum, eq_toLittleEndian_iff hSecond hLength]
    simp

/-! ## Members -/

/-- A member of a gzip file, with its content. -/
structure Member (content : List UInt8) where
  header : Header
  stream : List UInt8
  inflates : inflate stream = .complete content []

namespace Member

variable {content : List UInt8}

def bytes (m : Member content) : List UInt8 :=
  m.header.bytes ++ m.stream ++ trailer content

/-- A member that is not compressed at all. -/
def stored (content : List UInt8) : Member content where
  header :=
    { flags := 0
      fixed := [0x1f, 0x8b, 8, 0, 0, 0, 0, 0, 0, 0xff]
      extra := []
      name := []
      comment := []
      checksum := []
      isFixed := ⟨rfl, [0, 0, 0, 0, 0, 0xff], rfl, rfl⟩
      isExtra := rfl
      isName := rfl
      isComment := rfl
      isChecksum := rfl }
  stream :=
    content.flatMap (fun b => Inflater.storedBlock false [b]) ++ Inflater.storedBlock true []
  inflates := Inflater.run_storedBlocks content .empty false

end Member

/-- A source gives the content of a stream, whatever the trailer is, but fails then if the trailer
is not there. -/
theorem source_append (header : Header) {stream content : List UInt8}
    (hInflate : inflate stream = .complete content []) (rest : List UInt8) :
    source (header.bytes ++ stream ++ rest) = ⟨content, trailerFailure content rest⟩ := by
  have hHeader : skipHeader (header.bytes ++ stream ++ rest) = .ok (stream ++ rest) :=
    skipHeader_eq_ok_iff.mpr ⟨header, List.append_assoc ..⟩
  have hStream : inflate (stream ++ rest) = .complete content rest :=
    inflate_eq_complete_iff.mpr ⟨stream, hInflate, rfl⟩
  simp only [source, hHeader, hStream]

theorem source_of_member {content bytes : List UInt8} (m : Member content)
    (h : m.bytes <+: bytes) : source bytes = .ofBytes content := by
  obtain ⟨more, rfl⟩ := h
  have hTrailer : trailerFailure content (trailer content ++ more) = none :=
    trailerFailure_eq_none_iff.mpr (List.prefix_append _ _)
  rw [Member.bytes, List.append_assoc _ (trailer content), source_append m.header m.inflates,
    hTrailer]
  rfl

theorem failure_source_eq_none_iff {bytes : List UInt8} :
    (source bytes).failure = none ↔ ∃ content, ∃ m : Member content, m.bytes <+: bytes := by
  constructor
  · intro h
    cases hHeader : skipHeader bytes with
    | error failure => simp [source, hHeader, Source.failed] at h
    | ok body =>
      cases hInflate : inflate body with
      | cut output => simp [source, hHeader, hInflate] at h
      | corrupt output rest => simp [source, hHeader, hInflate] at h
      | complete content rest =>
        obtain ⟨header, rfl⟩ := skipHeader_eq_ok_iff.mp hHeader
        obtain ⟨stream, hStream, rfl⟩ := inflate_eq_complete_iff.mp hInflate
        simp only [source, hHeader, hInflate] at h
        obtain ⟨more, rfl⟩ := trailerFailure_eq_none_iff.mp h
        refine ⟨content, ⟨header, stream, hStream⟩, more, ?_⟩
        simp [Member.bytes]
  · rintro ⟨content, m, h⟩
    rw [source_of_member m h]
    rfl

end PatternAudit.Gzip

namespace PatternAudit

/-! ## Names -/

/-- The extension is `gz`, in small or capital letters. -/
def Path.HasGzipExtension (p : Path) : Prop :=
  ∃ e : String, p.extension? = some (Utf8.encode e) ∧ e.toLower = "gz"

theorem eq_or_of_toLower_eq {c : Char} {small capital : Char} (h : c.toLower = small)
    (hCapital : small.val = capital.val + 32) : c = small ∨ c = capital := by
  by_cases hUpper : c.val ≥ 'A'.val ∧ c.val ≤ 'Z'.val
  · have hLower : c.toLower.val = c.val + 32 := congrArg Char.val (dif_pos hUpper)
    rw [← h, hLower] at hCapital
    exact .inr (Char.ext ((UInt32.add_left_inj 32).mp hCapital))
  · have hLower : c.toLower = c := dif_neg hUpper
    exact .inl (hLower.symm.trans h)

theorem toList_of_toLower_eq_gz {e : String} (h : e.toLower = "gz") :
    ∃ g z, e.toList = [g, z] ∧ (g = 'g' ∨ g = 'G') ∧ (z = 'z' ∨ z = 'Z') := by
  have hLower : e.toList.map Char.toLower = ['g', 'z'] := by
    rw [← String.toList_map]
    exact congrArg String.toList h
  obtain ⟨g, t, hList, hg, ht⟩ := List.map_eq_cons_iff.mp hLower
  obtain ⟨z, rfl, hz⟩ := List.map_eq_singleton_iff.mp ht
  exact ⟨g, z, hList, eq_or_of_toLower_eq hg rfl, eq_or_of_toLower_eq hz rfl⟩

theorem Path.isGzip_iff {p : Path} : p.isGzip = true ↔ p.HasGzipExtension := by
  constructor
  · intro h
    unfold Path.isGzip at h
    split at h
    · next g z hExtension =>
      simp only [Bool.and_eq_true, Bool.or_eq_true, beq_iff_eq] at h
      rcases h with ⟨rfl | rfl, rfl | rfl⟩
      · exact ⟨"gz", hExtension, by decide +kernel⟩
      · exact ⟨"gZ", hExtension, by decide +kernel⟩
      · exact ⟨"Gz", hExtension, by decide +kernel⟩
      · exact ⟨"GZ", hExtension, by decide +kernel⟩
    · cases h
  · rintro ⟨e, hExtension, hLower⟩
    obtain ⟨g, z, hList, hg, hz⟩ := toList_of_toLower_eq_gz hLower
    have hBytes : Utf8.encode e = String.utf8EncodeChar g ++ String.utf8EncodeChar z := by
      simp [Utf8.encode_eq_flatMap, hList]
    rw [Path.isGzip, hExtension, hBytes]
    rcases hg with rfl | rfl <;> rcases hz with rfl | rfl <;> rfl

namespace MatchFile

theorem failure_eq_none_of_read {limit : Nat} {source : Source} {file : MatchFile}
    (h : read limit source = .ok file) : source.failure = none :=
  (parse_eq_ok_iff.mp (read_eq_ok_iff.mp h).1).1

/-- A file with extension `gz` is read exactly if it begins with a member whose content is read, and
every content has a member. It is then read like a file that holds the content. What stands after
the member does not matter, but the trailer does: nothing is read without the right one. -/
theorem load_gzip {disk : Disk} {path : Path} {bytes : List UInt8}
    (hPath : path.HasGzipExtension) (hDisk : disk path = .ok (.file bytes)) :
    (∀ file, load disk path = .ok file ↔
      ∃ content, (∃ m : Gzip.Member content, m.bytes <+: bytes) ∧
        read maxMatches (.ofBytes content) = .ok file) ∧
    (∀ content, Nonempty (Gzip.Member content)) ∧
    (∀ content (m : Gzip.Member content) (plain : Path), m.bytes <+: bytes →
      ¬ plain.HasGzipExtension → disk plain = .ok (.file content) →
        load disk path = load disk plain) ∧
    (∀ (header : Gzip.Header) (stream content rest : List UInt8),
      bytes = header.bytes ++ stream ++ rest → Gzip.inflate stream = .complete content [] →
        ¬ Gzip.trailer content <+: rest → ∀ file, load disk path ≠ .ok file) := by
  have hLoad : load disk path = read maxMatches (Gzip.source bytes) := by
    simp [load, source, hDisk, Path.isGzip_iff.mpr hPath]
  rw [hLoad]
  refine ⟨?_, fun content => ⟨.stored content⟩, ?_, ?_⟩
  · intro file
    constructor
    · intro hRead
      obtain ⟨content, m, hMember⟩ :=
        Gzip.failure_source_eq_none_iff.mp (failure_eq_none_of_read hRead)
      rw [Gzip.source_of_member m hMember] at hRead
      exact ⟨content, ⟨m, hMember⟩, hRead⟩
    · rintro ⟨content, ⟨m, hMember⟩, hRead⟩
      rw [Gzip.source_of_member m hMember]
      exact hRead
  · intro content m plain hMember hPlain hContent
    have hIsGzip : plain.isGzip = false := by
      rw [← Bool.not_eq_true, Path.isGzip_iff]
      exact hPlain
    rw [Gzip.source_of_member m hMember]
    simp [load, source, hContent, hIsGzip]
  · rintro header stream content rest rfl hInflate hTrailer file hRead
    have hFailure := failure_eq_none_of_read hRead
    rw [Gzip.source_append header hInflate] at hFailure
    exact hTrailer (Gzip.trailerFailure_eq_none_iff.mp hFailure)

def listing : List UInt8 :=
  Utf8.encode "\x7b\"matches\": [[\"a\", 0, 1], [\"a\", 0, 2]]\x7d"

/-- The listing under the name `m`, compressed by a fixed code: ten bytes and the name, then the
stream. -/
def zippedFront : List UInt8 :=
  [0x1f, 0x8b, 8, 8, 0, 0, 0, 0, 2, 3, 0x6d, 0, 171, 86, 202, 77, 44, 73, 206, 72, 45, 86, 178, 82,
    136, 142, 86, 74, 84, 210, 81, 48, 208, 81, 48, 140, 213, 81, 128, 115, 140, 98, 99, 107, 1]

/-- The checksum `0xa323b899` and the length 39. -/
def zippedTrailer : List UInt8 :=
  [0x99, 0xb8, 0x23, 0xa3, 39, 0, 0, 0]

def zippedListing : Gzip.Member listing where
  header :=
    { flags := 8
      fixed := zippedFront.take 10
      extra := []
      name := [0x6d, 0]
      comment := []
      checksum := []
      isFixed := ⟨rfl, [0, 0, 0, 0, 2, 3], rfl, rfl⟩
      isExtra := rfl
      isName := ⟨[0x6d], by decide +kernel, by decide +kernel, rfl⟩
      isComment := rfl
      isChecksum := rfl }
  stream := zippedFront.drop 12
  inflates := by decide +kernel

theorem bytes_zippedListing : zippedListing.bytes = zippedFront ++ zippedTrailer := by
  decide +kernel

/-- The listing, the listing compressed with more bytes after it, and without its trailer. -/
def listingDisk : Disk := fun path =>
  if path = .ofString "m.json" then .ok (.file listing)
  else if path = .ofString "m.json.GZ" then .ok (.file (zippedFront ++ zippedTrailer ++ [0, 1]))
  else .ok (.file zippedFront)

theorem load_gzip_listing :
    load listingDisk (.ofString "m.json.GZ") = .ok ⟨{}, [⟨"a", 0, 1⟩, ⟨"a", 0, 2⟩]⟩ ∧
      load listingDisk (.ofString "m.json.GZ") = load listingDisk (.ofString "m.json") ∧
      ∀ file, load listingDisk (.ofString "cut.gZ") ≠ .ok file := by
  have hWhole : (Path.ofString "m.json.GZ").HasGzipExtension :=
    ⟨"GZ", by decide +kernel, by decide +kernel⟩
  have hCut : (Path.ofString "cut.gZ").HasGzipExtension :=
    ⟨"gZ", by decide +kernel, by decide +kernel⟩
  have hPlain : ¬ (Path.ofString "m.json").HasGzipExtension := by
    rw [← Path.isGzip_iff]
    decide +kernel
  have hRead : read maxMatches (.ofBytes listing) = .ok ⟨{}, [⟨"a", 0, 1⟩, ⟨"a", 0, 2⟩]⟩ := by
    decide +kernel
  have hMember : zippedListing.bytes <+: zippedFront ++ zippedTrailer ++ [0, 1] := by
    rw [bytes_zippedListing]
    exact List.prefix_append _ _
  obtain ⟨hAccepts, _, hSame, _⟩ := @load_gzip listingDisk _ _ hWhole rfl
  obtain ⟨_, _, _, hRefuses⟩ := @load_gzip listingDisk _ _ hCut rfl
  refine ⟨(hAccepts _).mpr ⟨listing, ⟨zippedListing, hMember⟩, hRead⟩,
    hSame listing zippedListing (.ofString "m.json") hMember hPlain rfl, ?_⟩
  exact hRefuses zippedListing.header zippedListing.stream listing [] rfl
    zippedListing.inflates (by decide +kernel)

end MatchFile

end PatternAudit
