/-
The options that are saved, written to the block and read back.

`Write` gives a value with newlines a line for each of its lines, indented, after a line with the
name only.  When the block is loaded these lines go through the parser, which takes some of them
for comments or headers.

* `map_trimRightFunc_writeLines` — the lines that come back from the block;
* `unstripped_loadedLines` — none of them is commented out if the regular part has no such option;
* `Traced.run`, `survives_of_fromLines` — a value with newlines that the parser has put together is
  made of lines that survived.
-/
import KlipperGo.ConfigTrim

namespace Config

open GoRuntime GoStrings Lines List SortedMap Loop

/-! ### Options that can be saved -/

/-- A line of a value: it is not blank, it is trimmed, and it has no comment in it. -/
structure ValueLine (line : Text) : Prop where
  ne_nil : line ≠ []
  trimmed : trimSpace line = line
  chars : ∀ c ∈ line, c ≠ '#' ∧ c ≠ '\r'

/-- An option that can be saved.  The line it is written to is not a bare `include`. -/
structure SavedOption (key value : Text) : Prop where
  name : WellFormedName key
  noInclude : ¬ includeWord <+: key ++ " = ".toList
  lines : ∀ line ∈ splitLines value, ValueLine line

structure Autosave where
  config : SortedMap
  listed : ∀ name ∈ config.core, name ∈ config.sorted
  sections : ∀ e ∈ config.core.entries, WellFormedName e.1
  options : ∀ e ∈ config.core.entries, ∀ o ∈ e.2.entries, SavedOption o.1 o.2

/-! ### The lines that come back -/

/-- The lines of an option as they come back from the block. -/
def loadedOption (key value : Text) : List Text :=
  if newline ∈ value then (key ++ " =".toList) :: (splitLines value).map ("    ".toList ++ ·)
  else [key ++ " = ".toList ++ value]

def loadedSection (name : Text) (options : List (Σ _ : Text, Text)) : List Text :=
  ('[' :: (name ++ [']'])) :: options.flatMap fun o => loadedOption o.1 o.2

def loadedSections (sections : List (Σ _ : Text, Options)) : List Text :=
  sections.flatMap fun e => loadedSection e.1 e.2.entries

variable (config : SortedMap) (lines : List Text)

def loadedLines : List Text := loadedSections config.core.entries

variable {line key value name : Text}

namespace ValueLine

theorem head (h : ValueLine line) : ∃ c ∈ line.head?, isSpace c = false := by
  obtain ⟨c, rest, rfl⟩ := exists_cons_of_ne_nil h.ne_nil
  refine ⟨c, rfl, trimFunc_head (s := c :: rest) c ?_⟩
  rw [← trimSpace, h.trimmed]
  rfl

theorem last (h : ValueLine line) : ∃ c ∈ line.getLast?, isSpace c = false := by
  obtain ⟨c, hc⟩ := Option.isSome_iff_exists.mp (getLast?_isSome.mpr h.ne_nil)
  refine ⟨c, hc, trimFunc_getLast (s := line) c ?_⟩
  rw [← trimSpace, h.trimmed, hc]
  rfl

theorem trim_indented (h : ValueLine line) {pad : Text} (hpad : White pad) :
    trimSpace (pad ++ line) = line := by
  have hsplit : pad ++ line = pad ++ (line ++ []) := by rw [append_nil]
  rw [hsplit, trimSpace, trimFunc_pad hpad (fun _ hc => absurd hc not_mem_nil)]
  exact h.trimmed

end ValueLine

theorem splitLines_of_notMem (h : newline ∉ value) : splitLines value = [value] :=
  splitOnP_eq_singleton (beq_eq_false_of_notMem h)

/-- A value without a newline is a line. -/
theorem SavedOption.single (h : SavedOption key value) (hvalue : newline ∉ value) :
    ValueLine value :=
  h.lines value (by rw [splitLines_of_notMem hvalue]; exact mem_singleton_self value)

theorem trimRight_append (pad : Text) (h : ValueLine line) :
    trimRightFunc isSpace (pad ++ line) = pad ++ line := by
  obtain ⟨c, hc, hspace⟩ := h.last
  obtain ⟨init, rfl⟩ := getLast?_eq_some_iff.mp hc
  rw [← append_assoc, trimRightFunc_concat hspace]

theorem map_trimRightFunc_optionLines (h : SavedOption key value) :
    (optionLines key value).map (trimRightFunc isSpace) = loadedOption key value := by
  unfold optionLines loadedOption
  by_cases hvalue : newline ∈ value
  · rw [if_pos hvalue, if_pos hvalue, map_cons, map_map]
    congr 1
    · have htrim := trimRightFunc_option (key ++ [' ']) [' ']
      rw [append_assoc, append_assoc] at htrim
      exact htrim
    · refine map_congr_left fun l hl => ?_
      exact trimRight_append _ (h.lines l hl)
  · rw [if_neg hvalue, if_neg hvalue, map_singleton, trimRight_append _ (h.single hvalue)]

variable (autosave : Autosave)

theorem map_trimRightFunc_writeLines :
    (writeLines autosave.config).map (trimRightFunc isSpace) = loadedLines autosave.config := by
  unfold writeLines loadedLines loadedSections
  rw [map_flatMap]
  refine flatMap_congr fun e he => ?_
  rw [sectionLines, loadedSection, map_cons, map_flatMap]
  congr 1
  · exact trimRightFunc_concat (by decide) ('[' :: e.1)
  · refine flatMap_congr fun o ho => ?_
    exact map_trimRightFunc_optionLines (autosave.options e he o ho)

/-- The last line does not end with white space. -/
def EndsWell : Prop :=
  ∃ c ∈ lines.getLast?.bind List.getLast?, isSpace c = false

theorem EndsWell.append_left {lines : List Text} (h : EndsWell lines) (before : List Text) :
    EndsWell (before ++ lines) := by
  obtain ⟨c, hc, hspace⟩ := h
  obtain ⟨l, hl, hc⟩ := Option.bind_eq_some_iff.mp hc
  refine ⟨c, ?_, hspace⟩
  rw [getLast?_append, hl]
  exact hc

theorem endsWell_concat (h : ∃ c ∈ line.getLast?, isSpace c = false) :
    EndsWell (lines ++ [line]) := by
  obtain ⟨c, hc, hspace⟩ := h
  refine ⟨c, ?_, hspace⟩
  rw [getLast?_concat]
  exact hc

theorem endsWell_flatMap {α : Type} {l : List α} {f : α → List Text} (hne : l ≠ [])
    (h : ∀ a ∈ l, EndsWell (f a)) : EndsWell (l.flatMap f) := by
  rcases eq_nil_or_concat' l with rfl | ⟨l, a, rfl⟩
  · exact absurd rfl hne
  · rw [flatMap_append, flatMap_singleton]
    exact (h a (by simp)).append_left _

theorem endsWell_optionLines (h : SavedOption key value) : EndsWell (optionLines key value) := by
  have hpad {pad line : Text} (hline : ValueLine line) :
      ∃ c ∈ (pad ++ line).getLast?, isSpace c = false := by
    obtain ⟨c, hc, hspace⟩ := hline.last
    refine ⟨c, ?_, hspace⟩
    rw [getLast?_append, hc]
    rfl
  unfold optionLines
  split
  · rcases eq_nil_or_concat' (splitLines value) with hnil | ⟨lines, l, hlines⟩
    · exact absurd hnil (splitOnP_ne_nil _ _)
    · rw [hlines, map_append, map_singleton, ← cons_append]
      exact endsWell_concat _ (hpad (h.lines l (by rw [hlines]; simp)))
  · next hvalue => exact endsWell_concat [] (hpad (h.single hvalue))

theorem endsWell_writeLines (hne : autosave.config.core.entries ≠ []) :
    EndsWell (writeLines autosave.config) := by
  refine endsWell_flatMap hne fun e he => ?_
  unfold sectionLines
  by_cases hoptions : e.2.entries = []
  · rw [hoptions]
    refine endsWell_concat [] ⟨']', ?_, by decide⟩
    rw [← cons_append, getLast?_concat]
    rfl
  · refine EndsWell.append_left ?_ ['[' :: (e.1 ++ [']'])]
    exact endsWell_flatMap hoptions fun o ho => endsWell_optionLines (autosave.options e he o ho)

theorem writeLines_proper : Proper newline (writeLines autosave.config) := by
  have hname {name : Text} (h : WellFormedName name) : newline ∉ name :=
    fun hmem => (h.chars newline hmem).2.2.2.1 rfl
  intro line hline
  obtain ⟨e, he, hline⟩ := mem_flatMap.mp hline
  rcases mem_cons.mp hline with rfl | hline
  · simp [newline, hname (autosave.sections e he)]
  · obtain ⟨o, ho, hline⟩ := mem_flatMap.mp hline
    have hkey := hname (autosave.options e he o ho).name
    unfold optionLines at hline
    split at hline
    · rcases mem_cons.mp hline with rfl | hline
      · simp [newline, hkey]
      · obtain ⟨l, hl, rfl⟩ := mem_map.mp hline
        simp [newline, notMem_of_mem_splitOn hl]
    · next hvalue =>
      cases mem_singleton.mp hline
      simp [newline, hkey, hvalue]

/-- The lines that come back, after an empty one if there are none. -/
theorem lines_renderConfig : ∃ blank, (∀ l ∈ blank, l = []) ∧
      (splitLines (renderConfig autosave.config)).map (trimRightFunc isSpace) =
        blank ++ loadedLines autosave.config := by
  rcases hentries : autosave.config.core.entries with _ | ⟨e, entries⟩
  · refine ⟨[[]], fun l hl => mem_singleton.mp hl, ?_⟩
    have hwrite : writeLines autosave.config = [] := by
      rw [writeLines, hentries]
      rfl
    rw [renderConfig, hwrite, loadedLines, hentries]
    rfl
  · have hhead : (writeLines autosave.config).head? = some ('[' :: (e.1 ++ [']'])) := by
      rw [writeLines, hentries]
      rfl
    have hne : writeLines autosave.config ≠ [] := by
      intro hnil
      rw [hnil] at hhead
      cases hhead
    refine ⟨[], fun l hl => absurd hl not_mem_nil, ?_⟩
    rw [renderConfig, trimSpace_unlines hne ⟨'[', by rw [hhead]; rfl, by decide⟩
      (endsWell_writeLines autosave (by rw [hentries]; simp)),
      splitLines_joinLines (writeLines_proper autosave) hne, map_trimRightFunc_writeLines,
      nil_append]

/-- A line that comes back. -/
inductive Loaded (autosave : Autosave) : Text → Prop
  | header {name : Text} (h : WellFormedName name) : Loaded autosave ('[' :: (name ++ [']']))
  | option {key value : Text} (h : SavedOption key value) (hvalue : newline ∉ value) :
      Loaded autosave (key ++ " = ".toList ++ value)
  | first {key value : Text} (h : SavedOption key value) : Loaded autosave (key ++ " =".toList)
  | value {name key value line : Text} (hget : autosave.config.get name key = some value)
      (hvalue : newline ∈ value) (hline : line ∈ splitLines value) (h : ValueLine line) :
      Loaded autosave ("    ".toList ++ line)

theorem get_of_mem {config : SortedMap} {e : Σ _ : Text, Options} {o : Σ _ : Text, Text}
    (he : e ∈ config.core.entries) (ho : o ∈ e.2.entries) : config.get e.1 o.1 = some o.2 := by
  have hsection := AList.mem_lookup_iff.mpr he
  rw [SortedMap.get, hsection, Option.bind_some]
  exact AList.mem_lookup_iff.mpr ho

theorem exists_of_get {config : SortedMap} (h : config.get name key = some value) :
    ∃ e ∈ config.core.entries, e.1 = name ∧ ∃ o ∈ e.2.entries, o.1 = key ∧ o.2 = value := by
  obtain ⟨options, hsection, hoption⟩ := Option.bind_eq_some_iff.mp h
  exact ⟨⟨name, options⟩, AList.mem_lookup_iff.mp hsection, rfl, ⟨key, value⟩,
    AList.mem_lookup_iff.mp hoption, rfl, rfl⟩

theorem loaded_of_mem : ∀ line ∈ loadedLines autosave.config, Loaded autosave line := by
  intro line hline
  obtain ⟨e, he, hline⟩ := mem_flatMap.mp hline
  rcases mem_cons.mp hline with rfl | hline
  · exact .header (autosave.sections e he)
  · obtain ⟨o, ho, hline⟩ := mem_flatMap.mp hline
    have hoption := autosave.options e he o ho
    unfold loadedOption at hline
    split at hline
    · next hvalue =>
      rcases mem_cons.mp hline with rfl | hline
      · exact .first hoption
      · obtain ⟨l, hl, rfl⟩ := mem_map.mp hline
        exact .value (get_of_mem he ho) hvalue hl (hoption.lines l hl)
    · next hvalue =>
      cases mem_singleton.mp hline
      exact .option hoption hvalue

theorem Loaded.chars {autosave : Autosave} (h : Loaded autosave line) :
    ∀ c ∈ line, c ≠ '#' ∧ c ≠ '\r' ∧ c ≠ newline := by
  have hname {name : Text} (hname : WellFormedName name) :
      ∀ c ∈ name, c ≠ '#' ∧ c ≠ '\r' ∧ c ≠ newline := by
    intro c hc
    obtain ⟨-, -, hhash, hnewline, hreturn⟩ := hname.chars c hc
    exact ⟨hhash, hreturn, hnewline⟩
  have hvalueLine {l : Text} (hl : ValueLine l) (hnl : newline ∉ l) :
      ∀ c ∈ l, c ≠ '#' ∧ c ≠ '\r' ∧ c ≠ newline := by
    intro c hc
    exact ⟨(hl.chars c hc).1, (hl.chars c hc).2, fun heq => hnl (heq ▸ hc)⟩
  cases h with
  | header h =>
    refine forall_mem_cons.mpr ⟨by decide, forall_mem_append.mpr ⟨hname h, ?_⟩⟩
    exact forall_mem_singleton.mpr (by decide)
  | option h hvalue =>
    refine forall_mem_append.mpr ⟨forall_mem_append.mpr ⟨hname h.name, ?_⟩,
      hvalueLine (h.single hvalue) hvalue⟩
    simp [newline]
  | first h =>
    refine forall_mem_append.mpr ⟨hname h.name, ?_⟩
    simp [newline]
  | value hget hvalue hline h =>
    refine forall_mem_append.mpr ⟨?_, hvalueLine h (notMem_of_mem_splitOn hline)⟩
    simp [newline]

theorem Loaded.noInclude {autosave : Autosave} (h : Loaded autosave line) :
    ¬ includeWord <+: line := by
  intro hstarts
  cases h with
  | header h => exact absurd (cons_prefix_cons.mp hstarts).1 (by decide)
  | @option key value h hvalue =>
    rcases prefix_or_prefix_of_prefix hstarts (prefix_append _ value) with h' | h'
    · exact h.noInclude h'
    · -- the word has no `=` in it
      have hmem : '=' ∈ includeWord := h'.subset (by simp)
      exact absurd hmem (by decide)
  | @first key value h =>
    refine h.noInclude (hstarts.trans ⟨[' '], ?_⟩)
    rw [append_assoc]
    rfl
  | value => exact absurd (cons_prefix_cons.mp hstarts).1 (by decide)

/-! ### Commenting out -/

/-- No line is commented out. -/
def Unstripped (name : Text) (isDupField : Bool) (lines : List Text) : Prop :=
  stripLines config name isDupField lines = .ok lines

section Strip

variable {config : SortedMap} {isDupField isDupField' : Bool} {name' : Text} {rest : List Text}

theorem Unstripped.cons (h : stripLine config name isDupField line = .ok (name', isDupField', line))
    (hrest : Unstripped config name' isDupField' rest) :
    Unstripped config name isDupField (line :: rest) := by
  unfold Unstripped at hrest ⊢
  rw [stripLines, h]
  show (stripLines config name' isDupField' rest >>= fun rest => pure (line :: rest)) = _
  rw [hrest]
  rfl

theorem unstripped_values {lines : List Text} (hrest : Unstripped config name false rest) :
    Unstripped config name false (lines.map ("    ".toList ++ ·) ++ rest) := by
  induction lines with
  | nil => exact hrest
  | cons l lines ih => exact ih.cons rfl

theorem stripComment_loaded {autosave : Autosave} (h : Loaded autosave line) :
    stripComment line = line := stripComment_of_notMem fun hmem => (h.chars '#' hmem).1 rfl

theorem unstripped_option (h : SavedOption key value) (hnew : config.get name key = none)
    (hrest : Unstripped config name false rest) :
    Unstripped config name isDupField (loadedOption key value ++ rest) := by
  have hname : '#' ∉ key := fun hmem => (h.name.chars '#' hmem).2.2.1 rfl
  have hblank : Blanks [' '] := forall_mem_singleton.mpr (.inl rfl)
  have hline {text : Text} (htext : '#' ∉ text) :
      stripLine config name isDupField (key ++ [' '] ++ '=' :: text) =
        .ok (name, false, key ++ [' '] ++ '=' :: text) := by
    rw [stripLine_option h.name hblank (stripComment_of_notMem (by simp [hname, htext])), hnew]
    rfl
  unfold loadedOption
  split
  · have hfirst := hline (not_mem_nil : '#' ∉ ([] : Text))
    rw [append_assoc] at hfirst
    exact Unstripped.cons hfirst (unstripped_values hrest)
  · next hvalue =>
    have hhash : '#' ∉ ' ' :: value := by
      intro hmem
      rcases mem_cons.mp hmem with heq | hmem
      · cases heq
      · exact ((h.single hvalue).chars '#' hmem).1 rfl
    have hsingle := hline hhash
    rw [append_assoc] at hsingle
    refine Unstripped.cons ?_ hrest
    rw [append_assoc]
    exact hsingle

theorem unstripped_options {options : List (Σ _ : Text, Text)}
    (h : ∀ o ∈ options, SavedOption o.1 o.2) (hnew : ∀ o ∈ options, config.get name o.1 = none)
    (hrest : Unstripped config name false rest) :
    Unstripped config name false (options.flatMap (fun o => loadedOption o.1 o.2) ++ rest) := by
  induction options with
  | nil => exact hrest
  | cons o options ih =>
    obtain ⟨ho, h⟩ := forall_mem_cons.mp h
    obtain ⟨hnew_o, hnew⟩ := forall_mem_cons.mp hnew
    rw [flatMap_cons, append_assoc]
    exact unstripped_option ho hnew_o (ih h hnew)

theorem unstripped_sections {sections : List (Σ _ : Text, Options)}
    (hoptions : ∀ e ∈ sections, ∀ o ∈ e.2.entries, SavedOption o.1 o.2)
    (hnew : ∀ e ∈ sections, ∀ o ∈ e.2.entries, config.get e.1 o.1 = none)
    (hrest : ∀ name isDupField, Unstripped config name isDupField rest)
    (hhash : ∀ e ∈ sections, '#' ∉ e.1) (name : Text) (isDupField : Bool) :
    Unstripped config name isDupField (loadedSections sections ++ rest) := by
  induction sections generalizing name isDupField with
  | nil => exact hrest name isDupField
  | cons e sections ih =>
    obtain ⟨ho, hoptions⟩ := forall_mem_cons.mp hoptions
    obtain ⟨hn, hnew⟩ := forall_mem_cons.mp hnew
    obtain ⟨hh, hhash⟩ := forall_mem_cons.mp hhash
    have hheader : stripLine config name isDupField ('[' :: (e.1 ++ [']'])) =
        .ok (e.1, false, '[' :: (e.1 ++ [']'])) :=
      stripLine_header (fun _ hc => absurd hc not_mem_nil)
        (stripComment_of_notMem (by simp [hh]))
    show Unstripped config name isDupField
      ((loadedSection e.1 e.2.entries ++ loadedSections sections) ++ rest)
    rw [append_assoc]
    exact Unstripped.cons hheader (unstripped_options ho hn (ih hoptions hnew hhash _ _))

/-- The lines that come back are not commented out if the configuration has none of the options. -/
theorem unstripped_loadedLines (autosave : Autosave)
    (hnew : ∀ name key value, autosave.config.get name key = some value →
      config.get name key = none) :
    ∀ blank, (∀ l ∈ blank, l = []) →
      Unstripped config [] false (blank ++ (loadedLines autosave.config ++ [[]])) := by
  have hend : ∀ name isDupField, Unstripped config name isDupField [[]] := fun _ _ => rfl
  intro blank hblank
  induction blank with
  | nil =>
    refine unstripped_sections autosave.options ?_ hend ?_ _ _
    · intro e he o ho
      exact hnew e.1 o.1 o.2 (get_of_mem he ho)
    · intro e he hmem
      exact ((autosave.sections e he).chars '#' hmem).2.2.1 rfl
  | cons l blank ih =>
    obtain ⟨hl, hrest⟩ := forall_mem_cons.mp hblank
    subst hl
    exact (ih hrest).cons rfl

end Strip

/-! ### Reading the lines -/

/-- The parser takes the line for a line of a value, all of it. -/
def Survives (line : Text) : Prop :=
  ';' ∉ line ∧ line.head? ≠ some '|' ∧ sectionMatch line = none

instance (line : Text) : Decidable (Survives line) :=
  inferInstanceAs (Decidable (_ ∧ _ ∧ _))

theorem reSpace_indent : ∀ c ∈ "    ".toList, reSpace c = true := by
  have h : "    ".toList.all reSpace = true := rfl
  simpa using h

theorem sectionMatch_indented (line : Text) :
    sectionMatch ("    ".toList ++ line) = sectionMatch line := by
  unfold sectionMatch
  rw [dropWhile_append_of_pos reSpace_indent]

theorem white_indent : White "    ".toList := fun c hc => isSpace_of_reSpace (reSpace_indent c hc)

theorem kind_indented (h : ValueLine line) : kind ("    ".toList ++ line) = .other ↔
      line.head? ≠ some ';' ∧ line.head? ≠ some '|' ∧ sectionMatch line = none := by
  obtain ⟨c, hc, hspace⟩ := h.head
  obtain ⟨rest, rfl⟩ := head?_eq_some_iff.mp hc
  have hre : reSpace c = false := by
    rw [← Bool.not_eq_true]
    intro hre
    rw [isSpace_of_reSpace hre] at hspace
    cases hspace
  have hhash : c ≠ '#' := (h.chars c mem_cons_self).1
  have hcomment : commentMatch ("    ".toList ++ c :: rest) = true ↔ c = '|' ∨ c = ';' := by
    unfold commentMatch
    rw [dropWhile_append_of_pos reSpace_indent, dropWhile_cons, hre, if_neg Bool.false_ne_true]
    simp [hhash]
  have hblank : trimSpace ("    ".toList ++ c :: rest) ≠ [] := by
    rw [h.trim_indented white_indent]
    simp
  have hoption : optionMatch ("    ".toList ++ c :: rest) = none := by
    rw [Option.eq_none_iff_forall_not_mem]
    rintro ⟨key, value⟩ hmatch
    obtain ⟨sep, text, heq, -, -, ⟨d, hd, hstart⟩, -⟩ := optionMatch_eq_some.mp hmatch
    have hhead : (key ++ sep :: text).head? = some ' ' := by
      rw [← heq]
      rfl
    rw [head?_append, hd] at hhead
    cases hhead
    exact absurd hstart (by decide)
  unfold kind
  rw [sectionMatch_indented, hoption]
  by_cases hmark : c = '|' ∨ c = ';'
  · rw [if_pos (.inl (hcomment.mpr hmark))]
    refine iff_of_false (by simp) ?_
    rintro ⟨hsemi, hbar, -⟩
    rcases hmark with rfl | rfl
    · exact hbar rfl
    · exact hsemi rfl
  · obtain ⟨hbar, hsemi⟩ := not_or.mp hmark
    rw [if_neg (not_or.mpr ⟨fun h => hmark (hcomment.mp h), hblank⟩)]
    cases sectionMatch (c :: rest) <;> simp [hbar, hsemi]

theorem cutValue_of_notMem {p : Text} (hsemi : ';' ∉ p) (hhash : '#' ∉ p) : cutValue p = p := by
  rw [cutValue, if_neg hsemi]
  exact stripComment_of_notMem hhash

theorem cutValue_indented (h : ValueLine line) (hsemi : ';' ∉ line) :
    cutValue ("    ".toList ++ line) = "    ".toList ++ line := by
  refine cutValue_of_notMem (by simp [hsemi]) fun hmem => ?_
  rcases mem_append.mp hmem with hmem | hmem
  · exact absurd hmem (by decide)
  · exact (h.chars '#' hmem).1 rfl

variable {s : Loop}

theorem parseLine_value (hs : s.Valid) (hopen : s.lastOption ≠ []) (h : ValueLine line)
    (hsurvives : Survives line) : parseLine s ("    ".toList ++ line) = .ok (s.extend line) := by
  obtain ⟨hsemi, hbar, hsection⟩ := hsurvives
  have hhead : line.head? ≠ some ';' := fun hhead => hsemi (mem_of_head? hhead)
  have hkind := (kind_indented h).mpr ⟨hhead, hbar, hsection⟩
  have htrim : trimSpace (cutValue ("    ".toList ++ line)) = line := by
    rw [cutValue_indented h hsemi, h.trim_indented white_indent]
  have hcont : contText ("    ".toList ++ line) = some line := by
    rw [contText, htrim, if_pos ⟨hkind, h.ne_nil⟩]
  have hskip : ¬ (s.lastOption = [] ∨ contText ("    ".toList ++ line) = none) := by
    rw [hcont]
    simp [hopen]
  rw [parseLine_other hs hkind, if_neg hskip, cutValue_indented h hsemi, if_neg (by simp),
    h.trim_indented white_indent]

theorem joinLines_merge (value line : Text) (lines : List Text) :
    joinLines ((value ++ newline :: line) :: lines) = joinLines (value :: line :: lines) := by
  rw [joinLines_cons value (by simp)]
  rcases lines with _ | ⟨l, lines⟩
  · rw [joinLines_singleton, joinLines_singleton]
  · rw [joinLines_cons _ (by simp), joinLines_cons line (by simp), append_assoc, cons_append]

/-- The loop has gone on in the same section and has the options of the configuration. -/
structure Goes (s : Loop) (config : SortedMap) (s' : Loop) : Prop where
  valid : s'.Valid
  lastSection : s'.lastSection = s.lastSection
  get : ∀ name key, s'.config.get name key = config.get name key

/-- The lines of a value, after the part of it that is there already. -/
theorem parseLines_values {lines : List Text} (hs : s.Valid) (hopen : s.lastOption ≠ [])
    (hget : s.config.get s.lastSection s.lastOption = some value)
    (h : ∀ l ∈ lines, ValueLine l ∧ Survives l) :
    ∃ s', parseLines s (lines.map ("    ".toList ++ ·)) = .ok s' ∧
      Goes s (s.config.set s.lastSection s.lastOption
        (joinLines (if value = [] then lines else value :: lines))) s' := by
  induction lines generalizing s value with
  | nil =>
    refine ⟨s, rfl, hs, rfl, fun name key => ?_⟩
    rw [get_set]
    split
    · next heq =>
      rw [heq.1, heq.2, hget]
      by_cases hvalue : value = []
      · rw [if_pos hvalue, hvalue]
        rfl
      · rw [if_neg hvalue, joinLines_singleton]
    · rfl
  | cons line lines ih =>
    obtain ⟨⟨hline, hsurvives⟩, hlines⟩ := forall_mem_cons.mp h
    have hnext : (s.extend line).config.get s.lastSection s.lastOption =
        some (if value ≠ [] then value ++ newline :: line else line) := by
      show (s.config.set _ _ _).get _ _ = _
      rw [get_set, if_pos ⟨rfl, rfl⟩, hget]
      rfl
    obtain ⟨s', hs', hgoes⟩ := ih (extend_valid hs line) hopen hnext hlines
    refine ⟨s', ?_, hgoes.valid, hgoes.lastSection, fun name key => ?_⟩
    · show (parseLine s ("    ".toList ++ line) >>= fun s₁ => parseLines s₁ _) = _
      rw [parseLine_value hs hopen hline hsurvives]
      exact hs'
    · rw [hgoes.get]
      show ((s.config.set s.lastSection s.lastOption _).set s.lastSection s.lastOption _).get
        name key = _
      rw [get_set, get_set, get_set]
      split
      · by_cases hvalue : value = []
        · simp [hvalue, hline.ne_nil]
        · simp [hvalue, joinLines_merge]
      · rfl

def SurvivesAll (value : Text) : Prop := newline ∈ value → ∀ l ∈ splitLines value, Survives l

theorem kind_spaced (h : SavedOption key value) {text : Text} (htext : '#' ∉ text) :
    kind (key ++ ' ' :: '=' :: text) = .option key (trimSpace text) := by
  have hkind := kind_option h.name (forall_mem_singleton.mpr (.inl rfl) : Blanks [' ']) htext
  rwa [append_assoc] at hkind

theorem kind_single (h : SavedOption key value) (hvalue : newline ∉ value) :
    kind (key ++ " = ".toList ++ value) = .option key value := by
  have hline := h.single hvalue
  have hhash : '#' ∉ ' ' :: value := by
    intro hmem
    rcases mem_cons.mp hmem with heq | hmem
    · cases heq
    · exact (hline.chars '#' hmem).1 rfl
  have htrim : trimSpace (' ' :: value) = value :=
    hline.trim_indented (forall_mem_singleton.mpr isSpace_blank : White [' '])
  have hkind := kind_spaced h hhash
  rw [htrim] at hkind
  rw [append_assoc]
  exact hkind

theorem parseLines_loadedOption (hs : s.Valid) (hsection : s.lastSection ≠ [])
    (h : SavedOption key value) (hsurvives : SurvivesAll value) :
    ∃ s', parseLines s (loadedOption key value) = .ok s' ∧
      Goes s (s.config.set s.lastSection key value) s' := by
  have hdefine (value : Text) :
      (s.define key value).config = s.config.set s.lastSection key value := by
    rw [Loop.define, if_neg hsection]
  unfold loadedOption
  split
  · next hvalue =>
    have hkind : kind (key ++ " =".toList) = .option key [] := kind_spaced h not_mem_nil
    have hlast : (s.define key []).lastOption = key := by
      rw [Loop.define, if_neg hsection]
      rfl
    have hget : (s.define key []).config.get (s.define key []).lastSection
        (s.define key []).lastOption = some [] := by
      rw [hlast, define_lastSection, hdefine, get_set, if_pos ⟨rfl, rfl⟩]
    obtain ⟨s', hs', hgoes⟩ := parseLines_values (define_valid hs key [])
      (by rw [hlast]; exact h.name.ne_nil) hget
      fun l hl => ⟨h.lines l hl, hsurvives hvalue l hl⟩
    refine ⟨s', ?_, hgoes.valid, hgoes.lastSection.trans (define_lastSection s key []), ?_⟩
    · show (parseLine s (key ++ " =".toList) >>= fun s₁ => parseLines s₁ _) = _
      rw [parseLine_option hs hkind]
      exact hs'
    · intro name option
      rw [hgoes.get, hlast, define_lastSection, hdefine, if_pos rfl, joinLines_splitLines,
        get_set, get_set, get_set]
      split <;> rfl
  · next hvalue =>
    refine ⟨s.define key value, ?_, define_valid hs key value,
      define_lastSection s key value, ?_⟩
    · rw [parseLines_singleton, parseLine_option hs (kind_single h hvalue)]
    · intro name option
      rw [hdefine]

theorem parseLines_loadedOptions {options : List (Σ _ : Text, Text)} (hs : s.Valid)
    (hsection : s.lastSection ≠ []) (hkeys : options.NodupKeys)
    (h : ∀ o ∈ options, SavedOption o.1 o.2) (hsurvives : ∀ o ∈ options, SurvivesAll o.2) :
    ∃ s', parseLines s (options.flatMap fun o => loadedOption o.1 o.2) = .ok s' ∧ s'.Valid ∧
      ∀ name key, s'.config.get name key =
        if name = s.lastSection then (options.dlookup key).or (s.config.get name key)
        else s.config.get name key := by
  induction options generalizing s with
  | nil =>
    refine ⟨s, rfl, hs, fun name key => ?_⟩
    rw [dlookup_nil, Option.none_or, ite_self]
  | cons o options ih =>
    obtain ⟨ho, h⟩ := forall_mem_cons.mp h
    obtain ⟨hso, hsurvives⟩ := forall_mem_cons.mp hsurvives
    obtain ⟨hnew, hkeys⟩ := nodupKeys_cons.mp hkeys
    obtain ⟨s₁, hs₁, hgoes⟩ := parseLines_loadedOption hs hsection ho hso
    obtain ⟨s', hs', hvalid, hget⟩ := ih hgoes.valid (by rwa [hgoes.lastSection]) hkeys h hsurvives
    refine ⟨s', ?_, hvalid, fun name key => ?_⟩
    · rw [flatMap_cons, parseLines_append, hs₁]
      exact hs'
    · rw [hget, hgoes.lastSection, hgoes.get, get_set]
      by_cases hname : name = s.lastSection
      · rw [if_pos hname, if_pos hname]
        by_cases hkey : key = o.1
        · subst hkey
          have hlookup := dlookup_cons_eq options o.1 o.2
          rw [dlookup_eq_none.mpr hnew, Option.none_or, if_pos ⟨hname, rfl⟩, hlookup]
          rfl
        · rw [dlookup_cons_ne options o hkey, if_neg fun hand => hkey hand.2]
      · rw [if_neg hname, if_neg hname, if_neg fun hand => hname hand.1]

theorem parseLines_loadedSections {sections : List (Σ _ : Text, Options)} (hs : s.Valid)
    (hkeys : sections.NodupKeys) (hnames : ∀ e ∈ sections, WellFormedName e.1)
    (h : ∀ e ∈ sections, ∀ o ∈ e.2.entries, SavedOption o.1 o.2)
    (hsurvives : ∀ e ∈ sections, ∀ o ∈ e.2.entries, SurvivesAll o.2) :
    ∃ s', parseLines s (loadedSections sections) = .ok s' ∧
      ∀ name key, s'.config.get name key =
        ((sections.dlookup name).bind (·.lookup key)).or (s.config.get name key) := by
  induction sections generalizing s with
  | nil => exact ⟨s, rfl, fun name key => rfl⟩
  | cons e sections ih =>
    obtain ⟨hname_e, hnames⟩ := forall_mem_cons.mp hnames
    obtain ⟨he, h⟩ := forall_mem_cons.mp h
    obtain ⟨hse, hsurvives⟩ := forall_mem_cons.mp hsurvives
    obtain ⟨hnew, hkeys⟩ := nodupKeys_cons.mp hkeys
    have hheader := kind_header hname_e fun _ hc => absurd hc not_mem_nil
    obtain ⟨s₁, hs₁, hvalid, hget₁⟩ := parseLines_loadedOptions (openSection_valid s e.1)
      hname_e.ne_nil e.2.nodupKeys he hse
    obtain ⟨s', hs', hget⟩ := ih hvalid hkeys hnames h hsurvives
    refine ⟨s', ?_, fun name key => ?_⟩
    · show parseLines s (loadedSection e.1 e.2.entries ++ loadedSections sections) = _
      have hsection : parseLines s (loadedSection e.1 e.2.entries) = .ok s₁ := by
        show (parseLine s ('[' :: (e.1 ++ [']'])) >>= fun s₁ => parseLines s₁ _) = _
        rw [parseLine_header hheader]
        exact hs₁
      rw [parseLines_append, hsection]
      exact hs'
    · rw [hget, hget₁]
      show Option.or _ (if name = e.1 then
        Option.or (e.2.lookup key) ((s.config.addSection e.1).get name key)
        else (s.config.addSection e.1).get name key) = _
      rw [get_addSection]
      by_cases hname : name = e.1
      · subst hname
        have hlookup := dlookup_cons_eq sections e.1 e.2
        rw [dlookup_eq_none.mpr hnew, Option.bind_none, Option.none_or, if_pos rfl, hlookup]
        rfl
      · rw [dlookup_cons_ne sections e hname, if_neg hname]

/-- If the lines of the values survive, the parser finds every option with its value. -/
theorem parseLines_loadedLines (autosave : Autosave) (hs : s.Valid)
    (hsurvives : ∀ name key value, autosave.config.get name key = some value → SurvivesAll value) :
    ∃ s', parseLines s (loadedLines autosave.config) = .ok s' ∧
      ∀ name key, s'.config.get name key =
        (autosave.config.get name key).or (s.config.get name key) :=
  parseLines_loadedSections hs autosave.config.core.nodupKeys autosave.sections autosave.options
    fun _ he _ ho => hsurvives _ _ _ (get_of_mem he ho)

/-! ### Values that the parser has put together -/

/-- Each line of the value is what a line of the text adds to one. -/
def FromLines (value : Text) : Prop :=
  ∀ l ∈ splitLines value, ∃ x ∈ lines, contText x = some l

/-- The state after some of the lines: a value with newlines that was not there before is made of
lines, and so is the value of the option that is open. -/
structure Traced (lines : List Text) (base : SortedMap) (s : Loop) : Prop where
  valid : s.Valid
  values : ∀ name key value, base.get name key = none → s.config.get name key = some value →
    newline ∈ value → FromLines lines value
  opened : s.lastOption ≠ [] → base.get s.lastSection s.lastOption = none →
    ∀ value, s.config.get s.lastSection s.lastOption = some value → value ≠ [] →
      FromLines lines value

section Traced

variable {lines : List Text} {base : SortedMap} {s' : Loop}

theorem contText_subset {text : Text} (h : contText line = some text) : ∀ c ∈ text, c ∈ line := by
  unfold contText at h
  split at h
  · cases h
    intro c hc
    have hcut : c ∈ cutValue line := mem_of_mem_trimFunc hc
    unfold cutValue at hcut
    split at hcut <;> exact (List.takeWhile_prefix _).subset hcut
  · cases h

theorem kind_option_subset (h : kind line = .option key value) : ∀ c ∈ value, c ∈ line := by
  obtain ⟨-, -, -, raw, text, hmatch, -, rfl⟩ := kind_eq_option h
  obtain ⟨sep, rest, rfl, -, rfl, -, -⟩ := optionMatch_eq_some.mp hmatch
  intro c hc
  have htext : c ∈ rest := (List.takeWhile_prefix _).subset (mem_of_mem_trimFunc hc)
  exact mem_append_right raw (mem_cons_of_mem sep htext)

variable (h : Traced lines base s)
include h

theorem Traced.extend {text : Text} (hopen : s.lastOption ≠ [])
    (hline : line ∈ lines) (hnl : newline ∉ line) (htext : contText line = some text) :
    Traced lines base (s.extend text) := by
  have hsingle : FromLines lines text := by
    intro l hl
    rw [splitLines_of_notMem fun hmem => hnl (contText_subset htext newline hmem)] at hl
    cases mem_singleton.mp hl
    exact ⟨line, hline, htext⟩
  -- the value of the option that is open, if it is not from before
  have hvalue (hbase : base.get s.lastSection s.lastOption = none) :
      FromLines lines (if (s.config.get s.lastSection s.lastOption).getD [] ≠ [] then
        (s.config.get s.lastSection s.lastOption).getD [] ++ newline :: text else text) := by
    rcases hget : s.config.get s.lastSection s.lastOption with _ | value
    · exact hsingle
    · rw [Option.getD_some]
      by_cases hempty : value = []
      · rw [if_neg (not_not.mpr hempty)]
        exact hsingle
      · rw [if_pos hempty]
        intro l hl
        rw [splitLines, splitOn_append_cons_self] at hl
        rcases mem_append.mp hl with hl | hl
        · exact h.opened hopen hbase value hget hempty l hl
        · exact hsingle l hl
  refine ⟨extend_valid h.valid text, ?_, ?_⟩
  · intro name key value hbase hget hmem
    replace hget : (s.config.set _ _ _).get name key = some value := hget
    rw [get_set] at hget
    split at hget
    · next heq =>
      cases hget
      rw [heq.1, heq.2] at hbase
      exact hvalue hbase
    · exact h.values name key value hbase hget hmem
  · intro _ hbase value hget _
    replace hget : (s.config.set _ _ _).get s.lastSection s.lastOption = some value := hget
    rw [get_set, if_pos ⟨rfl, rfl⟩] at hget
    cases hget
    exact hvalue hbase

theorem Traced.define (key : Text) (hnl : newline ∉ value) :
    Traced lines base (s.define key value) := by
  refine ⟨define_valid h.valid key value, ?_, ?_⟩
  · intro name option text hbase hget hmem
    unfold Loop.define at hget
    split at hget
    · exact h.values name option text hbase hget hmem
    · rw [get_set] at hget
      split at hget
      · cases hget
        exact absurd hmem hnl
      · exact h.values name option text hbase hget hmem
  · intro hopen _ text hget hne
    unfold Loop.define at hopen hget
    split at hopen
    · exact absurd rfl hopen
    · next hsection =>
      rw [if_neg hsection] at hget
      by_cases hvalue : value = []
      · rw [if_pos hvalue, get_set, if_pos ⟨rfl, rfl⟩] at hget
        cases hget
        exact absurd hvalue hne
      · exact absurd (if_neg hvalue) hopen

theorem Traced.openSection (name : Text) : Traced lines base (s.openSection name) where
  valid := openSection_valid s name
  values := by
    intro name' key value hbase hget hmem
    replace hget : (s.config.addSection name).get name' key = some value := hget
    rw [get_addSection] at hget
    exact h.values name' key value hbase hget hmem
  opened := fun hopen => absurd rfl hopen

theorem Traced.step (hline : line ∈ lines) (hnl : newline ∉ line)
    (hstep : Step s line s') : Traced lines base s' := by
  cases hstep with
  | skip => exact h
  | header => exact h.openSection _
  | option hkind => exact h.define _ fun hmem => hnl (kind_option_subset hkind newline hmem)
  | extend _ hopen htext _ => exact h.extend hopen hline hnl htext

theorem Traced.run {rest : List Text} (hrest : ∀ l ∈ rest, l ∈ lines)
    (hnl : ∀ l ∈ lines, newline ∉ l) (hs : parseLines s rest = .ok s') : Traced lines base s' := by
  induction rest generalizing s with
  | nil =>
    cases hs
    exact h
  | cons line rest ih =>
    obtain ⟨hline, hrest⟩ := forall_mem_cons.mp hrest
    obtain ⟨s₁, hs₁, hs⟩ := parseLines_cons hs
    exact ih (h.step hline (hnl line hline) (step_of_ok h.valid hs₁)) hrest hs

end Traced

theorem semi_notMem_contText {text : Text} (h : contText line = some text) : ';' ∉ text := by
  unfold contText at h
  split at h
  · cases h
    intro hmem
    have hcut : ';' ∈ cutValue line := mem_of_mem_trimFunc hmem
    unfold cutValue at hcut
    split at hcut
    · exact absurd (mem_takeWhile_imp hcut) (by simp)
    · next hsemi => exact hsemi ((List.takeWhile_prefix _).subset hcut)
  · cases h

/-- If the values with newlines are made of the lines that come back, these survive. -/
theorem survives_of_fromLines (autosave : Autosave)
    (h : ∀ name key value, autosave.config.get name key = some value → newline ∈ value →
      FromLines (loadedLines autosave.config) value) :
    ∀ name key value, autosave.config.get name key = some value → SurvivesAll value := by
  have hsemi : ∀ name key value, autosave.config.get name key = some value → newline ∈ value →
      ∀ l ∈ splitLines value, ';' ∉ l := by
    intro name key value hget hvalue l hl
    obtain ⟨x, -, hx⟩ := h name key value hget hvalue l hl
    exact semi_notMem_contText hx
  intro name key value hget hvalue l hl
  obtain ⟨x, hmem, hx⟩ := h name key value hget hvalue l hl
  have hother : kind x = .other := by
    unfold contText at hx
    split at hx
    · next hand => exact hand.1
    · cases hx
  cases loaded_of_mem autosave x hmem with
  | header hname =>
    cases (kind_header hname fun _ hc => absurd hc not_mem_nil).symm.trans hother
  | option hoption hsingle => cases (kind_single hoption hsingle).symm.trans hother
  | first hoption =>
    cases (kind_spaced hoption not_mem_nil).symm.trans hother
  | @value name' key' value' line hget' hvalue' hline' hvl =>
    have hl' := hsemi name' key' value' hget' hvalue' line hline'
    have hsame : l = line := by
      unfold contText at hx
      rw [cutValue_indented hvl hl', hvl.trim_indented white_indent] at hx
      split at hx
      · cases hx
        rfl
      · cases hx
    subst hsame
    exact ⟨hl', ((kind_indented hvl).mp hother).2⟩

end Config
