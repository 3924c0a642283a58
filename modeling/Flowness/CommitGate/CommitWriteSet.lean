import Flowness.Snapshot.ColdStorage

/-!
The write set that is read off a commit. The version control prints one line per changed file and
quotes a path that holds anything but printable ASCII; the reader takes for the path what is printed.
-/

namespace Flowness.CommitGate

open List Library Snapshot Dict

inductive EnvelopeWriteSetEntityType where
  | concept | conceptEdge | task | file | obligation | atReference | patch
deriving DecidableEq

inductive EnvelopeWriteChangeType where
  | created | modified | removed
deriving DecidableEq

/-- `_CHANGE_STRENGTH`. -/
def EnvelopeWriteChangeType.strength : EnvelopeWriteChangeType → Nat
  | .created => 0
  | .modified => 1
  | .removed => 2

theorem EnvelopeWriteChangeType.strength_injective :
    Function.Injective EnvelopeWriteChangeType.strength := by
  intro left right h
  cases left <;> cases right <;> simp_all [strength]

structure WriteEntry where
  entityType : EnvelopeWriteSetEntityType
  entityId : Text
  changeType : EnvelopeWriteChangeType
deriving DecidableEq

def keepStrongest (best : Dict Text EnvelopeWriteChangeType)
    (effect : Text × EnvelopeWriteChangeType) : Dict Text EnvelopeWriteChangeType :=
  match Dict.get best effect.1 with
  | none => Dict.set best effect.1 effect.2
  | some known =>
    if known.strength < effect.2.strength then Dict.set best effect.1 effect.2 else best

/-- `_record`. -/
def recordChange (best : Dict Text EnvelopeWriteChangeType) (path : Text)
    (change : EnvelopeWriteChangeType) : Dict Text EnvelopeWriteChangeType :=
  if strip path = [] then best else keepStrongest best (strip path, change)

/-- `status_change.get(code, MODIFIED)`. -/
def statusChange : Option Char → EnvelopeWriteChangeType
  | some 'A' => .created
  | some 'D' => .removed
  | _ => .modified

def readStatusFields (best : Dict Text EnvelopeWriteChangeType) (parts : List Text) :
    Dict Text EnvelopeWriteChangeType :=
  let code := (strip (parts.headD [])).head?
  match parts with
  | _ :: first :: second :: _ =>
    if code = some 'R' then recordChange (recordChange best first .removed) second .created
    else if code = some 'C' then recordChange best second .created
    else recordChange best first (statusChange code)
  | [_, first] => recordChange best first (statusChange code)
  | _ => best

def readStatusLine (best : Dict Text EnvelopeWriteChangeType) (line : Text) :
    Dict Text EnvelopeWriteChangeType :=
  readStatusFields best (line.splitOn '\t')

/-- `derive_actual_write_set_from_commit`; `gitShow` is the output for a commit, if there is one. -/
def deriveActualWriteSetFromCommit (gitShow : Text → Option Text) (commitSha : Text) :
    List WriteEntry :=
  if strip commitSha = [] then []
  else
    match gitShow (strip commitSha) with
    | none => []
    | some stdout => ((nonEmptyLines stdout).foldl readStatusLine []).map fun entry =>
        { entityType := .file, entityId := entry.1, changeType := entry.2 }

inductive FileChange where
  | added (path : Text)
  | modified (path : Text)
  | typeChanged (path : Text)
  | deleted (path : Text)
  | renamed (score : List (Fin 10)) (old new : Text)
  | copied (score : List (Fin 10)) (source new : Text)

def FileChange.effects : FileChange → List (Text × EnvelopeWriteChangeType)
  | .added path => [(path, .created)]
  | .modified path | .typeChanged path => [(path, .modified)]
  | .deleted path => [(path, .removed)]
  | .renamed _ old new => [(old, .removed), (new, .created)]
  | .copied _ _ new => [(new, .created)]

def isPlainChar (c : Char) : Bool :=
  0x20 ≤ c.toNat && c.toNat < 0x7F && c != '"' && c != '\\'

def octalDigit (n : Nat) : Char := Nat.digitChar (n % 8)

def quoteByte (byte : UInt8) : Text :=
  match byte.toNat with
  | 7 => ['\\', 'a']
  | 8 => ['\\', 'b']
  | 9 => ['\\', 't']
  | 10 => ['\\', 'n']
  | 11 => ['\\', 'v']
  | 12 => ['\\', 'f']
  | 13 => ['\\', 'r']
  | 34 => ['\\', '"']
  | 92 => ['\\', '\\']
  | n =>
    if 0x20 ≤ n ∧ n < 0x7F then [Char.ofNat n]
    else ['\\', octalDigit (n / 64), octalDigit (n / 8), octalDigit n]

/-- A path as it is printed, with `core.quotePath` on. -/
def printedPath (path : Text) : Text :=
  if path.all isPlainChar then path
  else '"' :: ((encodeText path).flatMap quoteByte ++ ['"'])

def FileChange.code : FileChange → Text
  | .added _ => ['A']
  | .modified _ => ['M']
  | .typeChanged _ => ['T']
  | .deleted _ => ['D']
  | .renamed score _ _ => 'R' :: score.map (Nat.digitChar ·.val)
  | .copied score _ _ => 'C' :: score.map (Nat.digitChar ·.val)

def FileChange.paths : FileChange → List Text
  | .added path | .modified path | .typeChanged path | .deleted path => [path]
  | .renamed _ old new | .copied _ old new => [old, new]

def FileChange.line (change : FileChange) : Text :=
  change.code ++ change.paths.flatMap fun path => '\t' :: printedPath path

/-- The output of `git show --name-status`. -/
def nameStatus (changes : List FileChange) : Text := changes.flatMap fun change => change.line ++ ['\n']

/-- One file entry for each path that is touched, with the strongest change made to it. -/
structure ExactWriteSet (changes : List FileChange) (entries : List WriteEntry) : Prop where
  once : (entries.map WriteEntry.entityId).Nodup
  exact : ∀ entry, entry ∈ entries ↔ entry.entityType = .file ∧
    (entry.entityId, entry.changeType) ∈ changes.flatMap FileChange.effects ∧
      ∀ other, (entry.entityId, other) ∈ changes.flatMap FileChange.effects →
        other.strength ≤ entry.changeType.strength

/-- A path that is printed as it is, with no space at its ends. -/
def PlainPath (path : Text) : Prop := path ≠ [] ∧ path.all isPlainChar = true ∧ strip path = path

instance (path : Text) : Decidable (PlainPath path) := inferInstanceAs (Decidable (_ ∧ _))

/-- Every path seen is kept, with the strongest change seen. -/
structure KeepsStrongest (seen : List (Text × EnvelopeWriteChangeType))
    (best : Dict Text EnvelopeWriteChangeType) : Prop where
  nodup : (Dict.keys best).Nodup
  strongest : ∀ path change, Dict.get best path = some change → (path, change) ∈ seen ∧
    ∀ other, (path, other) ∈ seen → other.strength ≤ change.strength
  kept : ∀ effect ∈ seen, ∃ change, Dict.get best effect.1 = some change

section

variable {seen : List (Text × EnvelopeWriteChangeType)} {best : Dict Text EnvelopeWriteChangeType}

theorem KeepsStrongest.keep (h : KeepsStrongest seen best) (effect : Text × EnvelopeWriteChangeType) :
    KeepsStrongest (seen ++ [effect]) (keepStrongest best effect) := by
  obtain ⟨touched, made⟩ := effect
  have hother : ∀ path, path ≠ touched →
      Dict.get (keepStrongest best (touched, made)) path = Dict.get best path := by
    intro path hpath
    unfold keepStrongest
    split
    · exact get_set_of_ne _ _ hpath
    · split
      · exact get_set_of_ne _ _ hpath
      · rfl
  have hsame : ∃ change, Dict.get (keepStrongest best (touched, made)) touched = some change ∧
      made.strength ≤ change.strength ∧ (∀ known, Dict.get best touched = some known →
        known.strength ≤ change.strength) ∧ (change = made ∨ Dict.get best touched = some change) := by
    unfold keepStrongest
    cases hknown : Dict.get best touched with
    | none => exact ⟨made, get_set_self _ _ _, Nat.le_refl _, by simp, .inl rfl⟩
    | some known =>
      dsimp only
      split
      next hlt =>
        refine ⟨made, get_set_self _ _ _, Nat.le_refl _, ?_, .inl rfl⟩
        intro other hsome
        cases hsome
        omega
      next hle =>
        refine ⟨known, hknown, by omega, ?_, .inr rfl⟩
        intro other hsome
        cases hsome
        exact Nat.le_refl _
  obtain ⟨change, hget, hmade, hknown, hfrom⟩ := hsame
  constructor
  · unfold keepStrongest
    split
    · exact nodup_keys_set h.nodup _ _
    · split
      · exact nodup_keys_set h.nodup _ _
      · exact h.nodup
  · intro path found hfound
    by_cases hpath : path = touched
    · subst hpath
      cases hget.symm.trans hfound
      constructor
      · rcases hfrom with rfl | hold
        · exact mem_append_right _ mem_cons_self
        · exact mem_append_left _ (h.strongest path change hold).1
      · intro other hmem
        rcases mem_append.mp hmem with hmem | hmem
        · obtain ⟨known, hold⟩ := h.kept _ hmem
          exact ((h.strongest path known hold).2 other hmem).trans (hknown known hold)
        · cases mem_singleton.mp hmem
          exact hmade
    · rw [hother path hpath] at hfound
      simpa [hpath] using h.strongest path found hfound
  · intro effect hmem
    by_cases hpath : effect.1 = touched
    · exact ⟨change, hpath ▸ hget⟩
    · rw [hother _ hpath]
      apply h.kept
      rcases mem_append.mp hmem with hmem | hmem
      · exact hmem
      · exact absurd (congrArg Prod.fst (mem_singleton.mp hmem)) hpath

theorem keepsStrongest (seen : List (Text × EnvelopeWriteChangeType)) :
    KeepsStrongest seen (seen.foldl keepStrongest []) := by
  induction seen using List.reverseRecOn with
  | nil => exact ⟨nodup_nil, by simp, by simp⟩
  | append_singleton seen effect ih =>
    rw [foldl_append]
    exact ih.keep effect

theorem KeepsStrongest.mem_iff (h : KeepsStrongest seen best) :
    (path, change) ∈ best ↔ (path, change) ∈ seen ∧
      ∀ other, (path, other) ∈ seen → other.strength ≤ change.strength := by
  rw [mem_iff_get h.nodup]
  refine ⟨h.strongest path change, fun ⟨hmem, hmax⟩ => ?_⟩
  obtain ⟨known, hknown⟩ := h.kept _ hmem
  obtain ⟨hseen, htop⟩ := h.strongest path known hknown
  have heq := EnvelopeWriteChangeType.strength_injective
    (Nat.le_antisymm (hmax known hseen) (htop change hmem))
  rw [hknown, heq]

end

def Printable (text : Text) : Prop := ∀ c ∈ text, 0x20 ≤ c.toNat ∧ c.toNat < 0x7F

theorem printable_octalDigit (n : Nat) :
    0x20 ≤ (octalDigit n).toNat ∧ (octalDigit n).toNat < 0x7F := by
  have hall : ∀ d : Fin 8, 0x20 ≤ (Nat.digitChar d).toNat ∧ (Nat.digitChar d).toNat < 0x7F := by
    decide
  exact hall ⟨n % 8, Nat.mod_lt _ (by decide)⟩

theorem printable_quoteByte (byte : UInt8) : Printable (quoteByte byte) := by
  unfold quoteByte Printable
  split
  case h_10 =>
    split_ifs with hplain
    · have hvalid : byte.toNat.isValidChar := .inl (by omega)
      have hcode : (Char.ofNat byte.toNat).toNat = byte.toNat := by
        rw [Char.ofNat, dif_pos hvalid]
        rfl
      rw [forall_mem_singleton, hcode]
      exact hplain
    · simp [printable_octalDigit]
  all_goals exact forall_mem_cons.mpr ⟨by decide, forall_mem_singleton.mpr (by decide)⟩

theorem printable_printedPath (path : Text) : Printable (printedPath path) := by
  unfold printedPath
  split
  next hplain =>
    intro c hc
    have h := all_eq_true.mp hplain c hc
    simp only [isPlainChar, Bool.and_eq_true, decide_eq_true_eq] at h
    exact ⟨h.1.1.1, h.1.1.2⟩
  · intro c hc
    rcases mem_cons.mp hc with rfl | hc
    · decide
    · rcases mem_append.mp hc with hc | hc
      · obtain ⟨byte, -, hc⟩ := mem_flatMap.mp hc
        exact printable_quoteByte byte c hc
      · cases mem_singleton.mp hc
        decide

theorem Printable.ne_tab (h : Printable text) : ∀ c ∈ text, (c == '\t') = false := by
  intro c hc
  apply beq_false_of_ne
  rintro rfl
  exact absurd (h _ hc).1 (by decide)

theorem splitOn_fields (h : Printable front) (paths : List Text) :
    (front ++ paths.flatMap fun path => '\t' :: printedPath path).splitOn '\t' =
      front :: paths.map printedPath := by
  induction paths generalizing front with
  | nil =>
    rw [flatMap_nil, append_nil]
    exact splitOnP_eq_singleton h.ne_tab
  | cons path paths ih =>
    have htail := ih (printable_printedPath path)
    rw [splitOn_eq_splitOnP] at htail ⊢
    rw [flatMap_cons, cons_append,
      splitOnP_append_cons_of_forall_mem h.ne_tab _ (by decide), htail]
    rfl

theorem printable_digits (score : List (Fin 10)) : Printable (score.map (Nat.digitChar ·.val)) := by
  have hall : ∀ digit : Fin 10, 0x20 ≤ (Nat.digitChar digit.val).toNat ∧
      (Nat.digitChar digit.val).toNat < 0x7F := by decide
  intro c hc
  obtain ⟨digit, -, rfl⟩ := mem_map.mp hc
  exact hall digit

theorem FileChange.printable_code (change : FileChange) : Printable change.code := by
  have hletter : ∀ (c : Char) (score : List (Fin 10)), 0x20 ≤ c.toNat ∧ c.toNat < 0x7F →
      Printable (c :: score.map (Nat.digitChar ·.val)) := by
    intro c score hc other hmem
    rcases mem_cons.mp hmem with rfl | hmem
    · exact hc
    · exact printable_digits score other hmem
  cases change with
  | added | modified | typeChanged | deleted => exact hletter _ [] (by decide)
  | renamed score | copied score => exact hletter _ score (by decide)

theorem head?_strip (hc : isSpace c = false) (rest : Text) :
    (strip (c :: rest)).head? = some c := by
  have hdrop : (c :: rest).dropWhile isSpace = c :: rest := by simp [hc]
  unfold strip
  rw [hdrop]
  cases hstrip : (c :: rest).rdropWhile isSpace with
  | nil =>
    have hall := rdropWhile_eq_nil_iff.mp hstrip c mem_cons_self
    rw [hc] at hall
    cases hall
  | cons first more =>
    have hprefix := rdropWhile_prefix isSpace (c :: rest)
    rw [hstrip] at hprefix
    rw [(cons_prefix_cons.mp hprefix).1]
    rfl

theorem readStatusLine_line (best : Dict Text EnvelopeWriteChangeType) (change : FileChange) :
    readStatusLine best change.line =
      change.effects.foldl (fun best effect => recordChange best (printedPath effect.1) effect.2) best := by
  unfold readStatusLine FileChange.line
  rw [splitOn_fields change.printable_code]
  unfold readStatusFields
  cases change with
  | added | modified | typeChanged | deleted => rfl
  | renamed score old new =>
    have hcode := head?_strip (c := 'R') (by decide) (score.map (Nat.digitChar ·.val))
    simp [FileChange.code, FileChange.paths, FileChange.effects, hcode]
  | copied score old new =>
    have hcode := head?_strip (c := 'C') (by decide) (score.map (Nat.digitChar ·.val))
    simp [FileChange.code, FileChange.paths, FileChange.effects, hcode]

theorem FileChange.strip_line_ne_nil (change : FileChange) : strip change.line ≠ [] := by
  have hhead : ∃ c rest, change.line = c :: rest ∧ isSpace c = false := by
    cases change <;> exact ⟨_, _, rfl, by decide⟩
  obtain ⟨c, rest, hline, hc⟩ := hhead
  have hsome := head?_strip hc rest
  rw [hline]
  intro hnil
  rw [hnil] at hsome
  cases hsome

theorem FileChange.line_unbroken (change : FileChange) : ∀ c ∈ change.line, isTextBreak c = false := by
  have hbreak : ∀ c : Char, 0x20 ≤ c.toNat ∧ c.toNat < 0x7F → isTextBreak c = false := by
    intro c ⟨hlow, hhigh⟩
    have hne : ∀ other : Char, other.toNat < 0x20 → c ≠ other := by
      rintro other hother rfl
      omega
    simp only [isTextBreak, Bool.or_eq_false_iff, beq_eq_false_iff_ne]
    refine ⟨⟨⟨⟨⟨⟨⟨⟨⟨hne _ (by decide), hne _ (by decide)⟩, ?_⟩, ?_⟩, ?_⟩, ?_⟩, ?_⟩, ?_⟩, ?_⟩, ?_⟩ <;> omega
  intro c hc
  rcases mem_append.mp hc with hc | hc
  · exact hbreak c (change.printable_code c hc)
  · obtain ⟨path, -, hc⟩ := mem_flatMap.mp hc
    rcases mem_cons.mp hc with rfl | hc
    · decide
    · exact hbreak c (printable_printedPath path c hc)

theorem nonEmptyLines_nameStatus (changes : List FileChange) :
    nonEmptyLines (nameStatus changes) = changes.map FileChange.line := by
  unfold nonEmptyLines nameStatus
  induction changes with
  | nil => rfl
  | cons change changes ih =>
    rw [flatMap_cons, append_assoc, singleton_append,
      splitOnP_append_cons_of_forall_mem change.line_unbroken _ (by decide),
      filter_cons_of_pos (by simpa using change.strip_line_ne_nil), ih, map_cons]

def readPath (path : Text) : Text := strip (printedPath path)

def readEffects (changes : List FileChange) : List (Text × EnvelopeWriteChangeType) :=
  ((changes.flatMap FileChange.effects).map fun effect => (readPath effect.1, effect.2)).filter
    (·.1 ≠ [])

theorem foldl_readStatusLine (changes : List FileChange) :
    (nonEmptyLines (nameStatus changes)).foldl readStatusLine [] =
      (readEffects changes).foldl keepStrongest [] := by
  have hfold : ∀ (effects : List (Text × EnvelopeWriteChangeType)) best,
      effects.foldl (fun best effect => recordChange best (printedPath effect.1) effect.2) best =
        ((effects.map fun effect => (readPath effect.1, effect.2)).filter (·.1 ≠ [])).foldl
          keepStrongest best := by
    intro effects
    induction effects with
    | nil => exact fun _ => rfl
    | cons effect effects ih =>
      intro best
      rw [foldl_cons, ih, map_cons]
      unfold recordChange readPath
      by_cases hempty : strip (printedPath effect.1) = [] <;> simp [hempty]
  rw [nonEmptyLines_nameStatus, readEffects, ← hfold, foldl_map, foldl_flatMap]
  simp only [readStatusLine_line]

theorem strip_strip (text : Text) : strip (strip text) = strip text := by
  have hfront : (strip text).dropWhile isSpace = strip text := by
    cases hdrop : text.dropWhile isSpace with
    | nil => simp [strip, hdrop]
    | cons c rest =>
      have hc : isSpace c = false := by
        have hhead := List.head?_dropWhile_not isSpace text
        rw [hdrop] at hhead
        simpa using hhead
      have hsome : (strip text).head? = some c := by
        rw [← head?_strip hc rest, strip, strip, hdrop, dropWhile_cons_of_neg (by simp [hc])]
      obtain ⟨more, hmore⟩ := List.head?_eq_some_iff.mp hsome
      rw [hmore, dropWhile_cons_of_neg (by simp [hc])]
  rw [strip, hfront]
  exact rdropWhile_idempotent isSpace _

theorem mem_of_mem_strip (h : c ∈ strip text) : c ∈ text :=
  (dropWhile_suffix _).subset ((List.rdropWhile_prefix _ _).subset h)

theorem readPath_plain (h : path.all isPlainChar = true) : readPath path = strip path := by
  rw [readPath, printedPath, if_pos h]

theorem length_readPath_quoted (h : path.all isPlainChar ≠ true) :
    path.length < (readPath path).length := by
  have hstrip : readPath path = '"' :: ((encodeText path).flatMap quoteByte ++ ['"']) := by
    rw [readPath, printedPath, if_neg h, strip, dropWhile_cons_of_neg (by decide), ← cons_append]
    exact rdropWhile_concat_neg _ _ _ (by decide)
  have hbyte : ∀ byte, 1 ≤ (quoteByte byte).length := by
    intro byte
    unfold quoteByte
    split <;> first | decide | (split <;> simp)
  have hbytes : ∀ bytes : Bytes, bytes.length ≤ (bytes.flatMap quoteByte).length := by
    intro bytes
    induction bytes with
    | nil => exact Nat.le_refl _
    | cons byte bytes ih =>
      have hone := hbyte byte
      rw [flatMap_cons, length_append, length_cons]
      omega
  have htext : ∀ text : Text, text.length ≤ (encodeText text).length := by
    intro text
    induction text with
    | nil => exact Nat.le_refl _
    | cons c text ih =>
      have hone : 1 ≤ (String.utf8EncodeChar c).length := by
        rw [String.length_utf8EncodeChar]
        exact c.utf8Size_pos
      rw [encodeText_cons, length_append, length_cons]
      omega
  have hpath := (htext path).trans (hbytes (encodeText path))
  rw [hstrip, length_cons, length_append]
  omega

theorem readPath_of_plainPath (h : PlainPath path) : readPath path = path := by
  rw [readPath_plain h.2.1, h.2.2]

theorem plainPath_of_readPath {touched : List Text}
    (h : ∀ path ∈ touched, path ≠ [] ∧ ∃ printed ∈ touched, readPath printed = path) :
    ∀ path ∈ touched, PlainPath path := by
  have hplain : ∀ n, ∀ path ∈ touched, path.length = n → path.all isPlainChar = true := by
    intro n
    induction n using Nat.strongRecOn with
    | _ n ih =>
      rintro path hpath rfl
      obtain ⟨-, printed, hprinted, hread⟩ := h path hpath
      by_cases hquoted : printed.all isPlainChar = true
      · rw [readPath_plain hquoted] at hread
        rw [← hread, all_eq_true]
        exact fun c hc => all_eq_true.mp hquoted c (mem_of_mem_strip hc)
      · have hlt := length_readPath_quoted hquoted
        rw [hread] at hlt
        exact absurd (ih _ hlt printed hprinted rfl) hquoted
  intro path hpath
  obtain ⟨hne, printed, -, hread⟩ := h path hpath
  refine ⟨hne, hplain _ path hpath rfl, ?_⟩
  rw [← hread, readPath, strip_strip]

theorem writeSet_exact_iff {gitShow : Text → Option Text} {commitSha : Text} (changes : List FileChange)
    (hsha : strip commitSha ≠ []) (hshow : gitShow (strip commitSha) = some (nameStatus changes)) :
    ExactWriteSet changes (deriveActualWriteSetFromCommit gitShow commitSha) ↔
      ∀ path ∈ (changes.flatMap FileChange.effects).map Prod.fst, PlainPath path := by
  unfold deriveActualWriteSetFromCommit
  rw [if_neg hsha, hshow]
  dsimp only
  rw [foldl_readStatusLine]
  have hbest := keepsStrongest (readEffects changes)
  have hmade := keepsStrongest (changes.flatMap FileChange.effects)
  generalize (readEffects changes).foldl keepStrongest [] = best at hbest
  constructor
  · intro h
    apply plainPath_of_readPath
    intro path hpath
    obtain ⟨effect, heffect, rfl⟩ := mem_map.mp hpath
    obtain ⟨change, hchange⟩ := hmade.kept effect heffect
    have hentry := (h.exact ⟨.file, effect.1, change⟩).mpr ⟨rfl, hmade.strongest _ _ hchange⟩
    obtain ⟨found, hfound, heq⟩ := mem_map.mp hentry
    have hid : found.1 = effect.1 := congrArg WriteEntry.entityId heq
    rw [← hid]
    obtain ⟨hread, hne⟩ := mem_filter.mp (hbest.mem_iff.mp hfound).1
    obtain ⟨printed, hprinted, heq⟩ := mem_map.mp hread
    exact ⟨by simpa using hne, printed.1, mem_map_of_mem hprinted, congrArg Prod.fst heq⟩
  · intro hplain
    have hread : readEffects changes = changes.flatMap FileChange.effects := by
      rw [readEffects, map_congr_left (g := id), map_id, filter_eq_self]
      · intro effect heffect
        simpa using (hplain _ (mem_map_of_mem heffect)).1
      · intro effect heffect
        rw [readPath_of_plainPath (hplain _ (mem_map_of_mem heffect))]
        rfl
    rw [hread] at hbest
    constructor
    · rw [map_map]
      exact hbest.nodup
    · intro entry
      rw [← hbest.mem_iff, mem_map]
      constructor
      · rintro ⟨found, hfound, rfl⟩
        exact ⟨rfl, hfound⟩
      · rintro ⟨hfile, hfound⟩
        refine ⟨_, hfound, ?_⟩
        rw [← hfile]

def plainChanges : List FileChange :=
  [.modified "a.py".toList, .renamed [1, 0, 0] "b c.py".toList "a.py".toList, .added "b c.py".toList]

theorem writeSet_plain :
    strip "HEAD".toList ≠ [] ∧ ExactWriteSet plainChanges
      (deriveActualWriteSetFromCommit (fun _ => some (nameStatus plainChanges)) "HEAD".toList) :=
  ⟨by decide, (writeSet_exact_iff plainChanges (by decide) rfl).mpr (by decide)⟩

theorem writeSet_quotes : ¬ExactWriteSet [.added "é.py".toList]
    (deriveActualWriteSetFromCommit (fun _ => some (nameStatus [.added "é.py".toList]))
      "HEAD".toList) := by
  have hread : deriveActualWriteSetFromCommit (fun _ => some (nameStatus [.added "é.py".toList]))
      "HEAD".toList = [⟨.file, "\"\\303\\251.py\"".toList, .created⟩] := rfl
  rw [hread]
  intro h
  have hentry := ((h.exact _).mp mem_cons_self).2.1
  revert hentry
  decide

end Flowness.CommitGate
