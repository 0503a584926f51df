import Mathlib.Data.List.DropRight
import PatternAudit.Path

/-!
# The components of a path

Everything about the steps of a path follows from one equation: a slash anywhere in its bytes cuts
its steps in two (`steps_append_slash`). Going one step further adds a component
(`components_append`), and the parent has one component less (`components_parent`). Both keep what
the path begins with, and this is where slashes and dots that do not count have to be looked at.
The file name is the last component whenever this is a name (`fileName?_eq_some_iff`).
-/

namespace PatternAudit.Path

/-! ## Segments -/

theorem segments_ne_nil (bytes : List UInt8) : segments bytes ≠ [] :=
  List.splitOn_ne_nil slash bytes

theorem segments_append_slash (x y : List UInt8) :
    segments (x ++ slash :: y) = segments x ++ segments y :=
  List.splitOn_append_cons_self x y

theorem segments_of_not_mem {name : List UInt8} (h : slash ∉ name) : segments name = [name] :=
  List.splitOn_eq_singleton h

theorem head?_segments_append (x y : List UInt8) :
    (segments (x ++ slash :: y)).head? = (segments x).head? := by
  rw [segments_append_slash, List.head?_append_of_ne_nil _ (segments_ne_nil x)]

/-- The segments that count. -/
def steps (bytes : List UInt8) : List (List UInt8) :=
  (segments bytes).filter fun s => !isTrivial s

theorem steps_append_slash (x y : List UInt8) : steps (x ++ slash :: y) = steps x ++ steps y := by
  rw [steps, segments_append_slash, List.filter_append]
  rfl

theorem steps_nil : steps [] = [] :=
  rfl

theorem steps_slash_cons (y : List UInt8) : steps (slash :: y) = steps y := by
  have hSteps := steps_append_slash [] y
  rwa [steps_nil, List.nil_append, List.nil_append] at hSteps

/-- Bytes that are a single step, and not the one to the parent. -/
structure IsName (name : List UInt8) : Prop where
  slash_not_mem : slash ∉ name
  isTrivial_eq : isTrivial name = false
  ne_parent : name ≠ [dot, dot]

theorem IsName.steps_eq {name : List UInt8} (h : IsName name) : steps name = [name] := by
  rw [steps, segments_of_not_mem h.slash_not_mem]
  simp [h.isTrivial_eq]

theorem IsName.component_eq {name : List UInt8} (h : IsName name) :
    component name = .name name := by
  simp [component, h.ne_parent]

/-! ## What a path begins with -/

/-- What a path begins with before any step. -/
def lead (p : Path) : List Component :=
  if p.isAbsolute then [.root] else if p.startsHere then [.current] else []

theorem exists_bytes_eq_cons {p : Path} (h : p.isAbsolute) : ∃ b, p.bytes = slash :: b := by
  obtain ⟨bytes⟩ := p
  cases bytes with
  | nil => cases h
  | cons first b =>
    have hFirst : first = slash := by simpa [isAbsolute] using h
    exact ⟨b, by rw [hFirst]⟩

theorem body_of_relative {p : Path} (h : p.isAbsolute = false) : p.body = p.bytes := by
  simp [body, h]

theorem steps_body (p : Path) : steps p.body = steps p.bytes := by
  cases hAbsolute : p.isAbsolute with
  | true =>
    obtain ⟨b, hb⟩ := exists_bytes_eq_cons hAbsolute
    rw [body, if_pos hAbsolute, hb, List.tail_cons, steps_slash_cons]
  | false => rw [body_of_relative hAbsolute]

theorem components_eq (p : Path) : p.components = p.lead ++ (steps p.bytes).map component := by
  rw [← steps_body]
  rfl

theorem isAbsolute_of_isPrefix {b : List UInt8} {p : Path} (h : b <+: p.bytes)
    (hp : p.isAbsolute = false) : isAbsolute ⟨b⟩ = false := by
  obtain ⟨more, hMore⟩ := h
  cases b with
  | nil => rfl
  | cons first b =>
    rw [isAbsolute, ← hMore] at hp
    exact hp

theorem lead_of_relative {p : Path} (h : p.isAbsolute = false) :
    p.lead = if (segments p.bytes).head? = some [dot] then [.current] else [] := by
  simp [lead, startsHere, body_of_relative h, h]

theorem IsName.isAbsolute_eq {name : List UInt8} (h : IsName name) :
    isAbsolute ⟨name⟩ = false := by
  cases name with
  | nil => rfl
  | cons first rest =>
    have hFirst : first ≠ slash := by
      rintro rfl
      exact h.slash_not_mem List.mem_cons_self
    simpa [isAbsolute] using hFirst

/-! ## One step further -/

theorem append_of_eq_nil {p : Path} (hp : p.bytes = []) (name : List UInt8) :
    p.append name = ⟨name⟩ := by
  simp [append, hp]

theorem exists_append_eq {p : Path} (hp : p.bytes ≠ []) (name : List UInt8) :
    ∃ x, (p.append name).bytes = x ++ slash :: name ∧
      (p.bytes = x ∨ p.bytes = x ++ [slash]) := by
  obtain ⟨x, last, hBytes⟩ := (List.eq_nil_or_concat p.bytes).resolve_left hp
  rw [List.concat_eq_append] at hBytes
  unfold append
  rw [hBytes, List.getLast?_concat]
  by_cases hLast : last = slash
  · subst hLast
    exact ⟨x, by simp, .inr rfl⟩
  · exact ⟨x ++ [last], by simp [hLast], .inl rfl⟩

theorem isAbsolute_append (p : Path) {name : List UInt8} (hName : IsName name) :
    (p.append name).isAbsolute = p.isAbsolute := by
  by_cases hp : p.bytes = []
  · rw [append_of_eq_nil hp, hName.isAbsolute_eq, isAbsolute, hp]
    rfl
  · obtain ⟨x, hAppend, hx⟩ := exists_append_eq hp name
    rw [isAbsolute, isAbsolute, hAppend]
    rcases hx with hx | hx
    · rw [hx] at hp ⊢
      rw [List.head?_append_of_ne_nil _ hp]
    · rw [hx]
      cases x <;> rfl

theorem lead_append (p : Path) {name : List UInt8} (hName : IsName name) :
    (p.append name).lead = p.lead := by
  cases hAbsolute : p.isAbsolute with
  | true => simp [lead, isAbsolute_append p hName, hAbsolute]
  | false =>
    rw [lead_of_relative hAbsolute, lead_of_relative ((isAbsolute_append p hName).trans hAbsolute)]
    by_cases hp : p.bytes = []
    · -- Here the name is what the new path begins with.
      have hName' : name ≠ [dot] := by
        rintro rfl
        cases hName.isTrivial_eq
      rw [append_of_eq_nil hp, hp, segments_of_not_mem hName.slash_not_mem]
      simp [hName', segments]
    · obtain ⟨x, hAppend, hx | hx⟩ := exists_append_eq hp name
      · rw [hAppend, hx, head?_segments_append]
      · rw [hAppend, hx, head?_segments_append, head?_segments_append]

theorem steps_append (p : Path) {name : List UInt8} (hName : IsName name) :
    steps (p.append name).bytes = steps p.bytes ++ [name] := by
  by_cases hp : p.bytes = []
  · rw [append_of_eq_nil hp, hp, hName.steps_eq]
    rfl
  · obtain ⟨x, hAppend, hx | hx⟩ := exists_append_eq hp name
    · rw [hAppend, hx, steps_append_slash, hName.steps_eq]
    · rw [hAppend, hx, steps_append_slash, steps_append_slash, hName.steps_eq, steps_nil,
        List.append_nil]

theorem components_append (p : Path) {name : List UInt8} (hName : IsName name) :
    (p.append name).components = p.components ++ [.name name] := by
  rw [components_eq, components_eq, lead_append p hName, steps_append p hName, List.map_append,
    List.map_singleton, hName.component_eq, List.append_assoc]

/-! ## Without the last step -/

theorem filter_trimEnd (l : List (List UInt8)) :
    (trimEnd l).filter (fun s => !isTrivial s) = l.filter fun s => !isTrivial s := by
  have hTail : (l.rtakeWhile isTrivial).filter (fun s => !isTrivial s) = [] := by
    rw [List.filter_eq_nil_iff]
    intro s hs
    simp [List.mem_rtakeWhile_imp hs]
  have hSplit : trimEnd l ++ l.rtakeWhile isTrivial = l := List.rdropWhile_append_rtakeWhile
  conv_rhs => rw [← hSplit, List.filter_append, hTail, List.append_nil]

theorem trimEnd_cases (l : List (List UInt8)) :
    trimEnd l = [] ∨ ∃ front last, trimEnd l = front ++ [last] ∧ isTrivial last = false := by
  induction l using List.reverseRecOn with
  | nil => exact .inl rfl
  | append_singleton l last ih =>
    have hTrim : trimEnd (l ++ [last]) = if isTrivial last then trimEnd l else l ++ [last] :=
      List.rdropWhile_concat isTrivial l last
    rw [hTrim]
    cases hLast : isTrivial last with
    | true => exact ih
    | false => exact .inr ⟨l, last, rfl, hLast⟩

theorem getLast?_trimEnd (l : List (List UInt8)) :
    (trimEnd l).getLast? = (l.filter fun s => !isTrivial s).getLast? := by
  rw [← filter_trimEnd l]
  rcases trimEnd_cases l with h | ⟨front, last, h, hLast⟩
  · rw [h]
    rfl
  · simp [h, hLast]

theorem filter_dropLast_trimEnd (l : List (List UInt8)) :
    (trimEnd (trimEnd l).dropLast).filter (fun s => !isTrivial s) =
      (l.filter fun s => !isTrivial s).dropLast := by
  rw [filter_trimEnd, ← filter_trimEnd l]
  rcases trimEnd_cases l with h | ⟨front, last, h, hLast⟩
  · rw [h]
    rfl
  · simp [h, hLast]

theorem slash_not_mem_of_mem_segments (bytes : List UInt8) :
    ∀ segment ∈ segments bytes, slash ∉ segment := by
  induction bytes with
  | nil => simp [segments]
  | cons b bytes ih =>
    obtain ⟨first, rest, hSegments⟩ := List.exists_cons_of_ne_nil (segments_ne_nil bytes)
    have hCons : segments (b :: bytes) = if b == slash then [] :: segments bytes
        else (segments bytes).modifyHead (List.cons b) :=
      List.splitOn_cons_eq_if_modifyHead b bytes
    rw [hSegments] at hCons ih
    rw [hCons]
    by_cases hb : b = slash
    · simpa [hb] using ih
    · simpa [hb, Ne.symm hb] using ih

theorem join_segments (bytes : List UInt8) : join (segments bytes) = bytes :=
  List.intercalate_splitOn slash

theorem segments_join {l : List (List UInt8)} (hl : l ≠ []) (h : ∀ s ∈ l, slash ∉ s) :
    segments (join l) = l :=
  List.splitOn_intercalate slash h hl

theorem join_prefix_join (k more : List (List UInt8)) : join k <+: join (k ++ more) := by
  induction k with
  | nil => exact List.nil_prefix
  | cons s k ih =>
    cases k with
    | nil =>
      cases more with
      | nil => exact List.prefix_rfl
      | cons next more =>
        rw [join, join, List.singleton_append, List.intercalate_cons_cons,
          List.intercalate_singleton, List.append_assoc]
        exact List.prefix_append _ _
    | cons next k =>
      rw [join, join, List.cons_append, List.cons_append, List.intercalate_cons_cons,
        List.intercalate_cons_cons]
      exact (List.prefix_append_right_inj _).mpr ih

/-- The segments of the parent. -/
def kept (p : Path) : List (List UInt8) :=
  trimEnd (trimEnd (segments p.body)).dropLast

theorem kept_isPrefix (p : Path) : p.kept <+: segments p.body := by
  have hTrim (l : List (List UInt8)) : trimEnd l <+: l := List.rdropWhile_prefix isTrivial l
  have hInit : (trimEnd (segments p.body)).dropLast <+: trimEnd (segments p.body) :=
    List.dropLast_prefix _
  exact (hTrim _).trans (hInit.trans (hTrim _))

theorem slash_not_mem_of_mem_kept (p : Path) : ∀ s ∈ p.kept, slash ∉ s :=
  fun s hs => slash_not_mem_of_mem_segments p.body s (p.kept_isPrefix.subset hs)

theorem steps_join_kept (p : Path) : steps (join p.kept) = (steps p.bytes).dropLast := by
  have hKept : steps (join p.kept) = p.kept.filter fun s => !isTrivial s := by
    by_cases hNil : p.kept = []
    · rw [hNil]
      rfl
    · rw [steps, segments_join hNil p.slash_not_mem_of_mem_kept]
  rw [hKept, kept, filter_dropLast_trimEnd, ← steps_body]
  rfl

/-- A relative path with one step has an empty parent, unless it begins with a dot. -/
theorem parent_cases (p : Path) :
    (p.isAbsolute ∧ p.parent = ⟨slash :: join p.kept⟩) ∨
    (p.isAbsolute = false ∧ p.kept = [] ∧ p.startsHere ∧ p.parent = ⟨[dot]⟩) ∨
    (p.isAbsolute = false ∧ (p.kept = [] → p.startsHere = false) ∧
      p.parent = ⟨join p.kept⟩) := by
  have hParent : p.parent = if p.isAbsolute then ⟨slash :: join p.kept⟩
      else if p.kept.isEmpty && p.startsHere then ⟨[dot]⟩ else ⟨join p.kept⟩ := rfl
  rw [hParent]
  split_ifs with hAbsolute hHere
  · exact .inl ⟨hAbsolute, rfl⟩
  · simp only [Bool.and_eq_true, List.isEmpty_iff] at hHere
    exact .inr (.inl ⟨by simpa using hAbsolute, hHere.1, hHere.2, rfl⟩)
  · refine .inr (.inr ⟨by simpa using hAbsolute, ?_, rfl⟩)
    simpa using hHere

theorem steps_parent (p : Path) : steps p.parent.bytes = (steps p.bytes).dropLast := by
  rw [← steps_join_kept]
  rcases parent_cases p with ⟨-, hParent⟩ | ⟨-, hKept, -, hParent⟩ | ⟨-, -, hParent⟩
  · rw [hParent, steps_slash_cons]
  · rw [hParent, hKept]
    rfl
  · rw [hParent]

theorem lead_parent (p : Path) : p.parent.lead = p.lead := by
  rcases parent_cases p with ⟨hAbsolute, hParent⟩ | ⟨hAbsolute, -, hHere, hParent⟩ |
    ⟨hAbsolute, hNil, hParent⟩
  · have hRoot : lead ⟨slash :: join p.kept⟩ = [.root] := rfl
    rw [hParent, hRoot, lead, if_pos hAbsolute]
  · have hCurrent : lead ⟨[dot]⟩ = [.current] := rfl
    rw [hParent, hCurrent]
    simp [lead, hAbsolute, hHere]
  · obtain ⟨more, hMore⟩ := p.kept_isPrefix
    rw [body_of_relative hAbsolute] at hMore
    have hPrefix : join p.kept <+: p.bytes := by
      have hJoin := join_prefix_join p.kept more
      rwa [hMore, join_segments] at hJoin
    rw [hParent, lead_of_relative hAbsolute,
      lead_of_relative (isAbsolute_of_isPrefix hPrefix hAbsolute)]
    by_cases hKept : p.kept = []
    · have hHead : (segments p.bytes).head? ≠ some [dot] := by
        have hHere := hNil hKept
        simpa [startsHere, hAbsolute, body_of_relative hAbsolute] using hHere
      rw [hKept, if_neg hHead]
      rfl
    · rw [segments_join hKept p.slash_not_mem_of_mem_kept, ← hMore,
        List.head?_append_of_ne_nil _ hKept]

theorem components_parent {p : Path} (h : steps p.bytes ≠ []) :
    p.parent.components = p.components.dropLast := by
  rw [components_eq, components_eq, lead_parent, steps_parent, List.map_dropLast,
    List.dropLast_append_of_ne_nil (by simpa using h)]

/-! ## File names -/

theorem fileName?_eq (p : Path) :
    p.fileName? =
      (steps p.bytes).getLast?.bind fun s => if s = [dot, dot] then none else some s := by
  rw [fileName?, getLast?_trimEnd, ← steps_body, steps]
  cases ((segments p.body).filter fun s => !isTrivial s).getLast? with
  | none => rfl
  | some s => simp

theorem fileName?_eq_some_iff {p : Path} {name : List UInt8} :
    p.fileName? = some name ↔ p.components.getLast? = some (.name name) := by
  rw [fileName?_eq, components_eq]
  rcases List.eq_nil_or_concat (steps p.bytes) with hNil | ⟨front, last, hLast⟩
  · have hLead : p.lead.getLast? ≠ some (.name name) := by
      unfold lead
      split_ifs <;> simp
    simpa [hNil] using hLead
  · rw [hLast, List.concat_eq_append]
    by_cases hParent : last = [dot, dot]
    · simp [component, hParent]
    · simp [component, hParent]

theorem mem_steps_of_fileName? {p : Path} {name : List UInt8} (h : p.fileName? = some name) :
    name ∈ steps p.bytes := by
  rw [fileName?_eq, Option.bind_eq_some_iff] at h
  obtain ⟨s, hs, hName⟩ := h
  split_ifs at hName
  exact Option.some.inj hName ▸ List.mem_of_getLast? hs

/-- What is met in a list is met there for the last time. -/
theorem exists_last_eq {b : UInt8} {l : List UInt8} (h : b ∈ l) :
    ∃ before after, l = before ++ b :: after ∧ b ∉ after := by
  obtain ⟨after, before, hReverse, hFirst⟩ :=
    List.eq_append_cons_of_mem (List.mem_reverse.mpr h)
  refine ⟨before.reverse, after.reverse, ?_, by simpa using hFirst⟩
  rw [List.reverse_eq_iff.mp hReverse, List.reverse_append, List.reverse_cons, List.append_assoc,
    List.singleton_append]

theorem splitName_of_dot {before after : List UInt8} (h : dot ∉ after) :
    splitName (before ++ dot :: after) =
      if before.isEmpty then (before ++ dot :: after, none) else (before, some after) := by
  have hTake : ((before ++ dot :: after).reverse.takeWhile (· != dot)).reverse = after := by
    rw [List.reverse_append, List.reverse_cons, List.append_assoc,
      List.takeWhile_append_of_pos (by simpa using fun b hb => ne_of_mem_of_not_mem hb h)]
    simp
  have hLength : (before ++ dot :: after).length - after.length - 1 = before.length := by
    simp
    omega
  simp only [splitName, hTake, hLength, List.take_left]

theorem splitName_of_not_mem {name : List UInt8} (h : dot ∉ name) :
    splitName name = (name, none) := by
  have hTake : (name.reverse.takeWhile (· != dot)).reverse = name := by
    rw [List.takeWhile_eq_self_iff.mpr (by simpa using fun b hb => ne_of_mem_of_not_mem hb h),
      List.reverse_reverse]
  unfold splitName
  rw [hTake]
  simp

/-- The part of a file name before its last dot. A dot at the beginning does not count. -/
inductive StemOf : List UInt8 → List UInt8 → Prop
  | before {stem extension : List UInt8} (hStem : stem ≠ []) (hExtension : dot ∉ extension) :
    StemOf (stem ++ dot :: extension) stem
  | whole {name : List UInt8} (h : dot ∉ name.tail) : StemOf name name

theorem StemOf.isPrefix {name stem : List UInt8} (h : StemOf name stem) : stem <+: name := by
  cases h with
  | before => exact List.prefix_append ..
  | whole => exact List.prefix_rfl

theorem stemOf_iff {name stem : List UInt8} : StemOf name stem ↔ (splitName name).1 = stem := by
  constructor
  · intro h
    cases h with
    | before hStem hExtension => simp [splitName_of_dot hExtension, hStem]
    | whole hTail =>
      by_cases hDot : dot ∈ name
      · obtain ⟨first, tail, rfl⟩ := List.exists_cons_of_ne_nil (List.ne_nil_of_mem hDot)
        obtain rfl : dot = first := (List.mem_cons.mp hDot).resolve_right hTail
        have hSplit : splitName ([] ++ dot :: tail) = (dot :: tail, none) :=
          splitName_of_dot hTail
        exact congrArg Prod.fst hSplit
      · rw [splitName_of_not_mem hDot]
  · rintro rfl
    by_cases hDot : dot ∈ name
    · obtain ⟨before, after, rfl, hAfter⟩ := exists_last_eq hDot
      rw [splitName_of_dot hAfter]
      split_ifs with hBefore
      · rw [List.isEmpty_iff.mp hBefore]
        exact .whole hAfter
      · exact .before (by simpa using hBefore) hAfter
    · rw [splitName_of_not_mem hDot]
      exact .whole fun h => hDot (List.mem_of_mem_tail h)

/-- The directory of the files beside a path, and the stem that they are named after. -/
inductive Beside (components : List Component) : List Component → List UInt8 → Prop
  | file {directory : List Component} {name stem : List UInt8}
    (hLast : components = directory ++ [.name name]) (hStem : StemOf name stem) :
    Beside components directory stem
  | directory (hLast : ∀ name, components.getLast? ≠ some (.name name)) :
    Beside components components []

theorem Beside.unique {components d d' : List Component} {s s' : List UInt8}
    (h : Beside components d s) (h' : Beside components d' s') : d = d' ∧ s = s' := by
  cases h with
  | file hLast hStem =>
    cases h' with
    | file hLast' hStem' =>
      obtain ⟨hDirectory, hName⟩ := List.append_inj' (hLast.symm.trans hLast') rfl
      cases hName
      exact ⟨hDirectory, (stemOf_iff.mp hStem).symm.trans (stemOf_iff.mp hStem')⟩
    | directory hLast' => exact absurd (by rw [hLast, List.getLast?_concat]) (hLast' _)
  | directory hLast =>
    cases h' with
    | file hLast' _ => exact absurd (by rw [hLast', List.getLast?_concat]) (hLast _)
    | directory _ => exact ⟨rfl, rfl⟩

theorem exists_beside (p : Path) {name : List UInt8} (hName : IsName name) :
    ∃ directory stem, Beside p.components directory stem ∧ p.stem = Utf8.lossy stem ∧
      (p.withFileName name).components = directory ++ [.name name] := by
  cases hFile : p.fileName? with
  | none =>
    refine ⟨p.components, [], .directory fun name hLast => ?_, ?_, ?_⟩
    · rw [fileName?_eq_some_iff.mpr hLast] at hFile
      cases hFile
    · simp [stem, hFile, Utf8.lossy, Utf8.pieces]
    · rw [withFileName, hFile]
      exact components_append p hName
  | some old =>
    have hLast : p.components = p.components.dropLast ++ [.name old] :=
      (List.dropLast_append_getLast? _ (fileName?_eq_some_iff.mp hFile)).symm
    have hSteps : steps p.bytes ≠ [] := List.ne_nil_of_mem (mem_steps_of_fileName? hFile)
    refine ⟨p.components.dropLast, (splitName old).1, .file hLast (stemOf_iff.mpr rfl), ?_, ?_⟩
    · simp only [stem, hFile]
    · simp only [withFileName, hFile]
      rw [components_append _ hName, components_parent hSteps]

end PatternAudit.Path
