/-
The autosave block of the main configuration file.

The values that were set at run time are kept at the end of the file, after a header, as comment
lines that begin with `#*# `.  `FindAutosaveData` takes a file apart and strips the marks,
`FormatAutosaveBlock` writes the block from a configuration that `RawConfigParser.Write` renders.

* `findAutosaveData_block` — a file made of a text without marks, the header and something else is
  taken apart at the header;
* `findAutosaveData_plain` — a text without marks is all there is;
* `stripped_formatAutosaveBlock` — the lines of a block that was written come back as they were,
  but for white space at their ends.
-/
import KlipperGo.ConfigIncludes
import KlipperGo.Lines

namespace Config

open GoRuntime GoStrings Lines List

abbrev newline : Char := '\n'

variable (data : Text)

/-- The lines of a text as `strings.Split` gives them. -/
abbrev splitLines : List Text := splitOn newline data

/-- `strings.Join(lines, "\n")`. -/
abbrev joinLines (lines : List Text) : Text := [newline].intercalate lines

/-! ### The code -/

def mark : Text := "#*#".toList

def autosaveHeader : Text :=
  "\n#*# <---------------------- SAVE_CONFIG ---------------------->\n".toList ++
    "#*# DO NOT EDIT THIS BLOCK OR BELOW. The contents are auto-generated.\n#*#\n".toList

variable (line : Text) {lines : List Text}

def unmark : Text := if 4 < line.length then line.drop 4 else []

/-- The regular part of a file, and its autosave part without the marks. -/
def findAutosaveData : Text × Text :=
  let (regular, autosave) := match index autosaveHeader data with
    | some pos => (data.take pos, trimSpace (data.drop (pos + autosaveHeader.length)))
    | none => (data, [])
  -- a mark outside of the block
  if (index (newline :: (mark ++ [' '])) regular).isSome then (data, [])
  else
    let lines := splitLines autosave
    -- the check of the marks is made only if there is nothing to check
    if lines.any fun line => (!decide (mark <+: line) || (decide (4 ≤ line.length) &&
        !decide (mark ++ [' '] <+: line))) && autosave.isEmpty then (data, [])
    else (regular, joinLines ([] :: (lines.map unmark ++ [[]])))

variable (config : SortedMap) (autosaveData : Text) (fileconfig : SortedMap) (name : Text)

/-- One line of `StripDuplicates`, with the section it is in and whether the lines of the option
before are commented out. -/
def stripLine (isDupField : Bool) (line : Text) : Except Panic (Text × Bool × Text) :=
  match stripComment line with
  | [] => .ok (name, isDupField, line)
  | c :: pruned =>
    if c = ' ' ∨ c = '\t' then .ok (name, isDupField, if isDupField then '#' :: line else line)
    else
      match trimSpace (c :: pruned) with
      | [] => .error (.indexOutOfRange 0 0)
      | '[' :: rest => do
        let name ← slice ('[' :: rest) 1 rest.length
        return (name, false, line)
      | pruned =>
        let field := trimSpace (pruned.takeWhile (· ≠ '='))
        if (fileconfig.get name field).isSome then .ok (name, true, '#' :: line)
        else .ok (name, false, line)

def stripLines (fileconfig : SortedMap) : Text → Bool → List Text → Except Panic (List Text)
  | _, _, [] => .ok []
  | name, isDupField, line :: rest => do
    let (name, isDupField, line) ← stripLine fileconfig name isDupField line
    return line :: (← stripLines fileconfig name isDupField rest)

def stripDuplicates : Except Panic Text :=
  joinLines <$> stripLines fileconfig [] false (splitLines data)

/-- The lines that `Write` writes for an option. -/
def optionLines (value : Text) : List Text :=
  if newline ∈ value then
    (name ++ " = ".toList) :: (splitLines value).map ("    ".toList ++ ·)
  else [name ++ " = ".toList ++ value]

def sectionLines (options : Options) : List Text :=
  ('[' :: (name ++ [']'])) :: options.entries.flatMap fun e => optionLines e.1 e.2

/-- The lines of a configuration, its sections and options in some order. -/
def writeLines : List Text :=
  config.core.entries.flatMap fun e => sectionLines e.1 e.2

def renderConfig : Text := trimSpace (unlines newline (writeLines config))

def formatAutosaveBlock : Text :=
  let processed := (splitLines autosaveData).map fun line => trimSpace (mark ++ ' ' :: line)
  let header := trimRightFunc (fun c => c = '\r' ∨ c = '\n' ∨ c = '\t' ∨ c = ' ') autosaveHeader ++
    [newline]
  joinLines (header :: (processed ++ [[]]))

/-! ### The lines of a text -/

theorem splitLines_joinLines (h : Proper newline lines) (hne : lines ≠ []) :
    splitLines (joinLines lines) = lines := splitOn_intercalate newline h hne

theorem joinLines_splitLines : joinLines (splitLines data) = data :=
  intercalate_splitOn newline

/-! ### Taking a file apart -/

/-- No line but the first begins with the mark. -/
def Unmarked : Prop := ∀ line ∈ (splitLines data).tail, ¬ mark <+: line

variable {regular body : Text}

theorem no_mark_inside (h : Unmarked regular) {rest pat : Text}
    (hrest : ∀ c ∈ rest.head?, c = newline) (hpat : newline :: mark <+: pat) :
    ∀ m < regular.length, ¬ pat <+: (regular ++ rest).drop m := by
  intro m hm hstarts
  obtain ⟨line, hline, hmark⟩ := prefix_of_drop hrest hm (hpat.trans hstarts) (by decide)
  exact h line hline hmark

theorem not_contains_mark (h : Unmarked regular) {pat : Text} (hpat : newline :: mark <+: pat) :
    index pat regular = none := by
  refine index_eq_none fun m hstarts => ?_
  by_cases hm : m < regular.length
  · rw [← append_nil regular] at hstarts
    exact no_mark_inside h (by simp) hpat m hm hstarts
  · rw [drop_of_length_le (Nat.le_of_not_lt hm), prefix_nil] at hstarts
    rw [hstarts, prefix_nil] at hpat
    cases hpat

theorem autosaveHeader_mark : newline :: mark <+: autosaveHeader :=
  cons_prefix_cons.mpr ⟨rfl, prefix_append mark _⟩

theorem findAutosaveData_block (h : Unmarked regular) (hbody : trimSpace body ≠ []) :
    findAutosaveData (regular ++ (autosaveHeader ++ body)) =
      (regular, joinLines ([] :: ((splitLines (trimSpace body)).map unmark ++ [[]]))) := by
  have hindex : index autosaveHeader (regular ++ (autosaveHeader ++ body)) =
      some regular.length := by
    refine index_append (prefix_append _ _) (no_mark_inside h ?_ autosaveHeader_mark)
    rintro c ⟨⟩
    rfl
  have hbefore : index (newline :: (mark ++ [' '])) regular = none :=
    not_contains_mark h (cons_prefix_cons.mpr ⟨rfl, prefix_append mark _⟩)
  have hafter : (regular ++ (autosaveHeader ++ body)).drop
      (regular.length + autosaveHeader.length) = body := by
    rw [← append_assoc, ← length_append, drop_left]
  unfold findAutosaveData
  simp only [hindex, take_left, hbefore, hafter]
  simp [hbody]

theorem findAutosaveData_plain (h : Unmarked regular) :
    findAutosaveData regular = (regular, []) := by
  have hbefore : index (newline :: (mark ++ [' '])) regular = none :=
    not_contains_mark h (cons_prefix_cons.mpr ⟨rfl, prefix_append mark _⟩)
  unfold findAutosaveData
  simp only [not_contains_mark h autosaveHeader_mark, hbefore]
  rfl

/-! ### Writing the block and taking the file apart -/

theorem joinLines_cons (h : lines ≠ []) :
    joinLines (line :: lines) = line ++ newline :: joinLines lines := by
  rw [joinLines, intercalate_cons_of_ne_nil h, append_assoc]
  rfl

theorem joinLines_singleton : joinLines [line] = line := by
  simp [joinLines, intercalate]

theorem mem_joinLines {c : Char} (h : c ∈ joinLines lines) :
    c = newline ∨ ∃ line ∈ lines, c ∈ line := by
  induction lines with
  | nil => cases h
  | cons line lines ih =>
    rcases lines with _ | ⟨line', lines⟩
    · rw [joinLines_singleton] at h
      exact .inr ⟨line, mem_singleton_self line, h⟩
    · rcases mem_append.mp h with h | h
      · exact .inr ⟨line, mem_cons_self, h⟩
      · rcases mem_cons.mp h with h | h
        · exact .inl h
        · exact (ih h).imp_right fun ⟨l, hl, hc⟩ => ⟨l, mem_cons_of_mem line hl, hc⟩

theorem unlines_eq_joinLines (h : lines ≠ []) :
    unlines newline lines = joinLines lines ++ [newline] := by
  induction lines with
  | nil => exact absurd rfl h
  | cons line lines ih =>
    rcases lines with _ | ⟨line', lines⟩
    · rw [unlines_cons, joinLines_singleton, unlines_nil]
    · rw [unlines_cons, ih (by simp), joinLines_cons line (by simp), append_assoc, cons_append]

theorem joinLines_concat_nil (lines : List Text) :
    joinLines (lines ++ [[]]) = unlines newline lines := by
  induction lines with
  | nil => rfl
  | cons line lines ih => rw [cons_append, joinLines_cons line (by simp), ih, unlines_cons]

theorem head?_joinLines {line : Text} (h : line ≠ []) (lines : List Text) :
    (joinLines (line :: lines)).head? = line.head? := by
  obtain ⟨c, line, rfl⟩ := exists_cons_of_ne_nil h
  rcases lines with _ | ⟨line', lines⟩
  · rw [joinLines_singleton]
  · rfl

theorem getLast?_joinLines {line : Text} (h : line ≠ []) (lines : List Text) :
    (joinLines (lines ++ [line])).getLast? = line.getLast? := by
  induction lines with
  | nil => rw [nil_append, joinLines_singleton]
  | cons line' lines ih =>
    obtain ⟨c, hc⟩ := Option.isSome_iff_exists.mp (getLast?_isSome.mpr h)
    rw [cons_append, joinLines_cons line' (by simp), getLast?_append, getLast?_cons, ih, hc]
    rfl

theorem isSpace_newline : ∀ c ∈ [newline], isSpace c = true := forall_mem_singleton.mpr rfl

/-- White space around lines that have none at the ends of the text. -/
theorem trimSpace_unlines (hne : lines ≠ [])
    (hfirst : ∃ c ∈ lines.head?.bind List.head?, isSpace c = false)
    (hlast : ∃ c ∈ lines.getLast?.bind List.getLast?, isSpace c = false) :
    trimSpace (unlines newline lines) = joinLines lines := by
  rw [unlines_eq_joinLines hne, trimSpace, trimFunc_append_right isSpace_newline]
  refine trimFunc_of_ends ?_ ?_
  · obtain ⟨line, lines, rfl⟩ := exists_cons_of_ne_nil hne
    obtain ⟨c, hc, hspace⟩ := hfirst
    have hline : line.head? = some c := hc
    rw [head?_joinLines (by rintro rfl; cases hline), hline]
    rintro d ⟨⟩
    exact hspace
  · rcases eq_nil_or_concat' lines with rfl | ⟨lines, line, rfl⟩
    · exact absurd rfl hne
    · obtain ⟨c, hc, hspace⟩ := hlast
      have hline : line.getLast? = some c := by
        rwa [getLast?_concat, Option.bind_some] at hc
      rw [getLast?_joinLines (by rintro rfl; cases hline), hline]
      rintro d ⟨⟩
      exact hspace

def markLine : Text := trimSpace (mark ++ ' ' :: line)

theorem markLine_eq : markLine line = trimRightFunc isSpace (mark ++ ' ' :: line) := by
  refine trimFunc_of_head ?_
  rintro c ⟨⟩
  decide

theorem unmark_markLine : unmark (markLine line) = trimRightFunc isSpace line := by
  have hsplit : mark ++ ' ' :: line = (mark ++ [' ']) ++ line := by simp
  rw [markLine_eq, hsplit, trimRightFunc_append]
  by_cases h : trimRightFunc isSpace line = []
  · rw [if_pos h, h]
    decide
  · rw [if_neg h, unmark, if_pos]
    · rfl
    · have := length_pos_iff.mpr h
      rw [length_append]
      show 4 < 4 + _
      omega

theorem formatAutosaveBlock_eq : formatAutosaveBlock autosaveData =
      autosaveHeader ++ newline :: unlines newline ((splitLines autosaveData).map markLine) := by
  have hheader : trimRightFunc (fun c => c = '\r' ∨ c = '\n' ∨ c = '\t' ∨ c = ' ') autosaveHeader ++
      [newline] = autosaveHeader := by decide +kernel
  rw [formatAutosaveBlock, hheader, joinLines_cons _ (by simp), joinLines_concat_nil]
  rfl

theorem isSpace_mark : ∀ c ∈ mark, isSpace c = false := by
  have h : mark.all (fun c => !isSpace c) = true := rfl
  simpa using h

theorem exists_markLine : ∃ rest, markLine line = mark ++ rest := by
  obtain ⟨rest, -, h⟩ := trimFunc_append (r := ' ' :: line) (show mark ≠ [] by decide) isSpace_mark
  exact ⟨rest, h⟩

theorem markLine_proper (h : Proper newline lines) : Proper newline (lines.map markLine) := by
  intro marked hmarked hmem
  obtain ⟨line, hline, rfl⟩ := mem_map.mp hmarked
  rcases mem_append.mp (mem_of_mem_trimFunc hmem) with hmark | hrest
  · exact absurd hmark (by decide)
  · rcases mem_cons.mp hrest with heq | hmem
    · cases heq
    · exact h line hline hmem

/-- The lines of a block begin with the mark and have no white space behind them. -/
theorem trimSpace_markLines (hne : lines ≠ []) :
    trimSpace (unlines newline (lines.map markLine)) = joinLines (lines.map markLine) := by
  refine trimSpace_unlines (by simpa using hne) ?_ ?_
  · obtain ⟨line, lines, rfl⟩ := exists_cons_of_ne_nil hne
    obtain ⟨rest, hrest⟩ := exists_markLine line
    refine ⟨'#', ?_, by decide⟩
    rw [map_cons, head?_cons, Option.bind_some, hrest]
    rfl
  · rcases eq_nil_or_concat' lines with rfl | ⟨lines, line, rfl⟩
    · exact absurd rfl hne
    · obtain ⟨rest, hrest⟩ := exists_markLine line
      have hsome : (markLine line).getLast?.isSome := by
        rw [getLast?_isSome, hrest]
        simp [mark]
      obtain ⟨c, hc⟩ := Option.isSome_iff_exists.mp hsome
      refine ⟨c, ?_, trimFunc_getLast c hc⟩
      rw [map_append, map_singleton, getLast?_concat, Option.bind_some, hc]
      rfl

theorem stripped_formatAutosaveBlock (h : Unmarked regular) (autosaveData : Text) :
    findAutosaveData (regular ++ formatAutosaveBlock autosaveData ++ [newline]) =
      (regular, joinLines ([] ::
        ((splitLines autosaveData).map (trimRightFunc isSpace) ++ [[]]))) := by
  have hne : splitLines autosaveData ≠ [] := splitOnP_ne_nil _ _
  have hproper : Proper newline (splitLines autosaveData) := fun l hl => notMem_of_mem_splitOn hl
  have hlines := markLine_proper hproper
  have hbody : trimSpace (newline :: unlines newline ((splitLines autosaveData).map markLine) ++
      [newline]) = joinLines ((splitLines autosaveData).map markLine) := by
    rw [← trimSpace_markLines hne]
    exact trimFunc_pad isSpace_newline isSpace_newline
  have hjoin := splitLines_joinLines hlines (by simp)
  have hnonempty : joinLines ((splitLines autosaveData).map markLine) ≠ [] := by
    intro hempty
    rw [hempty] at hjoin
    have hmem : ([] : Text) ∈ (splitLines autosaveData).map markLine := by
      rw [← hjoin]
      exact mem_singleton_self ([] : Text)
    obtain ⟨line, -, hline⟩ := mem_map.mp hmem
    obtain ⟨rest, hrest⟩ := exists_markLine line
    rw [hline] at hrest
    cases hrest
  have hdata : regular ++ formatAutosaveBlock autosaveData ++ [newline] =
      regular ++ (autosaveHeader ++ (newline ::
        unlines newline ((splitLines autosaveData).map markLine) ++ [newline])) := by
    rw [formatAutosaveBlock_eq]
    simp
  have hunmark : (splitLines autosaveData).map (unmark ∘ markLine) =
      (splitLines autosaveData).map (trimRightFunc isSpace) :=
    map_congr_left fun line _ => unmark_markLine line
  rw [hdata, findAutosaveData_block h (by rwa [hbody]), hbody, hjoin, map_map, hunmark]

variable (data : Text)

/-- What stands behind the header at `pos`. -/
def block (pos : ℕ) : Text := trimSpace (data.drop (pos + autosaveHeader.length))

/-- A block is reported as unusable if there is a mark in front of it or it is empty; its lines
are not checked. -/
theorem findAutosaveData_of_index {pos : ℕ} (h : index autosaveHeader data = some pos) :
    findAutosaveData data =
      if (index (newline :: (mark ++ [' '])) (data.take pos)).isSome ∨ block data pos = [] then
        (data, [])
      else (data.take pos,
        joinLines ([] :: ((splitLines (block data pos)).map unmark ++ [[]]))) := by
  unfold findAutosaveData
  simp only [h]
  rw [show trimSpace (data.drop (pos + autosaveHeader.length)) = block data pos from rfl]
  generalize block data pos = body
  by_cases hmark : (index (newline :: (mark ++ [' '])) (data.take pos)).isSome
  · rw [if_pos hmark, if_pos (.inl hmark)]
  · by_cases hempty : body = []
    · subst hempty
      exact (if_neg hmark).trans ((if_pos rfl).trans (if_pos (.inr rfl)).symm)
    · rw [if_neg hmark, if_neg (not_or.mpr ⟨hmark, hempty⟩), if_neg (by simp [hempty])]

/-! ### Blocks that were edited -/

/-- The text that a line of a block stands for, if the line carries the mark. -/
def removed (line : Text) : Option Text :=
  if line = mark then some [] else if mark ++ [' '] <+: line then some (line.drop 4) else none

theorem unmark_of_removed {line text : Text} (h : removed line = some text) :
    unmark line = text := by
  unfold removed at h
  split at h
  · next hline =>
    cases h
    rw [hline]
    rfl
  · split at h
    · cases h
      rw [unmark]
      split
      · rfl
      · next hshort => rw [drop_of_length_le (Nat.not_lt.mp hshort)]
    · cases h

theorem map_unmark {lines texts : List Text} (h : lines.mapM removed = some texts) :
    lines.map unmark = texts := by
  induction lines generalizing texts with
  | nil => exact Option.some.inj h
  | cons line lines ih =>
    rw [mapM_cons] at h
    obtain ⟨text, htext, h⟩ := Option.bind_eq_some_iff.mp h
    obtain ⟨rest, hrest, h⟩ := Option.bind_eq_some_iff.mp h
    cases h
    rw [map_cons, unmark_of_removed htext, ih hrest]

/-- A block with a line that does not carry the mark is reported as unusable, and any other one is
returned without the marks. -/
def BlockKept (pos : ℕ) : Prop :=
  match (splitLines (block data pos)).mapM removed with
  | none => findAutosaveData data = (data, [])
  | some texts => (findAutosaveData data).2 = joinLines ([] :: (texts ++ [[]]))

/-- So it is exactly if the lines that do not carry the mark come with a mark in front of the
header, or there are no lines. -/
theorem block_kept_iff {pos : ℕ} (h : index autosaveHeader data = some pos) :
    BlockKept data pos ↔ ((splitLines (block data pos)).mapM removed = none ↔
      (index (newline :: (mark ++ [' '])) (data.take pos)).isSome ∨ block data pos = []) := by
  have hregular : data.take pos ≠ data := by
    intro heq
    have hlen := congrArg length heq
    have hstarts := autosaveHeader_mark.trans (prefix_of_index h)
    rw [length_take] at hlen
    rw [drop_of_length_le (by omega), prefix_nil] at hstarts
    cases hstarts
  unfold BlockKept
  simp only [findAutosaveData_of_index data h]
  rcases hlines : (splitLines (block data pos)).mapM removed with _ | texts
  · simp only [true_iff]
    split
    · next hc => exact iff_of_true rfl hc
    · next hc => exact iff_of_false (fun heq => hregular (Prod.mk.inj heq).1) hc
  · simp only [reduceCtorEq, false_iff]
    split
    · next hc =>
      refine iff_of_false (fun heq => ?_) (not_not.mpr hc)
      rw [joinLines_cons _ (by simp)] at heq
      cases heq
    · next hc => exact iff_of_true (by rw [map_unmark hlines]) hc

/-- The first four characters of a line without the mark are lost. -/
theorem edited_block_altered : findAutosaveData
    (autosaveHeader ++ "#*# [extruder]\n#*# kp = 22.2\nki = 1.08".toList) =
      ([], "\n[extruder]\nkp = 22.2\n 1.08\n".toList) := by
  decide +kernel

theorem block_kept_iff_edited :
    let data := autosaveHeader ++ "#*# [extruder]\n#*# kp = 22.2\nki = 1.08".toList
    ¬ BlockKept data 0 := by
  intro data
  rw [block_kept_iff data (by decide +kernel)]
  decide +kernel

end Config
