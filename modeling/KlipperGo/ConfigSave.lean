/-
Saving the configuration and loading it again.

`BuildSaveConfigPlan` takes the regular part of the main file, comments out the options that are
saved, checks that the rest does not define them, and writes the block behind it.
`BuildMainConfigBundle` loads such a file.
-/
import KlipperGo.ConfigRender

namespace Config

open GoRuntime GoStrings Lines List Option

/-! ### The code -/

structure SaveConfigPlan where
  data : Text
  backupName : Text
  tempName : Text

inductive PlanError where
  | fault (f : Fault)
  | conflict (message : List String)

/-- The first of the saved options that the configuration has. -/
def firstConflict (config autosave : SortedMap) : Option (Text × Text) :=
  autosave.sorted.findSome? fun name =>
    (autosave.core.lookup name).bind fun options =>
      (options.keys.find? fun option => (config.get name option).isSome).map (name, ·)

variable (fs : FileSystem) (depth : ℕ)

def validateAutosaveConflicts (regularData cfgname : Text) (autosave : SortedMap) :
    Except PlanError Unit := do
  let config ← (parseConfigText fs depth regularData cfgname).mapError .fault
  match firstConflict config autosave with
  | some (name, option) =>
    throw (.conflict ["SAVE_CONFIG section '", String.ofList name, "' option '",
      String.ofList option, "' conflicts with included value"])
  | none => return ()

/-- `BuildSaveConfigPlan`, with the time as it is formatted. -/
def buildSaveConfigPlan (cfgname existingData : Text) (autosave : SortedMap) (datestr : Text) :
    Except PlanError SaveConfigPlan := do
  let regularData := (findAutosaveData existingData).1
  let _ ← (parseConfigText fs depth regularData cfgname).mapError .fault
  let regularData ← (stripDuplicates regularData autosave).mapError (.fault ∘ .panic)
  validateAutosaveConflicts fs depth regularData cfgname autosave
  let autosaveData := formatAutosaveBlock (renderConfig autosave)
  let data := trimSpace regularData ++ [newline] ++ autosaveData ++ [newline]
  if ".cfg".toList <:+ cfgname then
    let stem := cfgname.take (cfgname.length - 4)
    return ⟨data, stem ++ datestr ++ ".cfg".toList, stem ++ "_autosave.cfg".toList⟩
  else return ⟨data, cfgname ++ datestr, cfgname ++ "_autosave".toList⟩

structure MainConfigBundle where
  regular : SortedMap
  autosave : SortedMap
  combined : SortedMap

def buildMainConfigBundle (data filename : Text) : Except Fault MainConfigBundle := do
  let (regularData, autosaveData) := findAutosaveData data
  let regularConfig ← parseConfigText fs depth regularData filename
  let autosaveData ← (stripDuplicates autosaveData regularConfig).mapError .panic
  let autosave ← parseConfigText fs depth autosaveData filename
  let combined ← parseConfigText fs depth (regularData ++ newline :: autosaveData) filename
  return ⟨regularConfig, autosave, combined⟩

/-! ### Main files -/

/-- A well-formed text for the regular part of the main file.  An indented line has an option
before it. -/
structure WellFormedText (data : Text) : Prop where
  noReturn : '\r' ∉ data
  lines : ∀ line ∈ splitLines data, LineForm (stripComment line)
  noInclude : ∀ line ∈ splitLines data, ¬ includeWord <+: stripComment line
  noMark : ∀ line ∈ splitLines data, ¬ mark <+: line
  continues : ∀ before line after, splitLines data = before ++ line :: after →
    (∃ c ∈ line.head?, c = ' ' ∨ c = '\t') → trimSpace (stripComment line) ≠ [] →
      ∃ l ∈ before, ∃ key value, kind (stripComment l) = .option key value

/-- A main file with its regular part, and a block behind it or none. -/
inductive MainFile (regular : Text) : Text → Prop
  | plain : MainFile regular regular
  | block {body : Text} (h : trimSpace body ≠ []) :
      MainFile regular (regular ++ (autosaveHeader ++ body))

/-- Loading the text of the plan gives the saved options their saved values and all others those
of the old regular configuration. -/
def Faithful (filename regular : Text) (autosave : SortedMap) (plan : SaveConfigPlan) : Prop :=
  ∃ old bundle, parseConfigText fs depth regular filename = .ok old ∧
    buildMainConfigBundle fs depth plan.data filename = .ok bundle ∧
    ∀ name key, bundle.combined.get name key = (autosave.get name key).or (old.get name key)

/-! ### The plan -/

variable {fs : FileSystem} {depth : ℕ} {cfgname filename existing regular data datestr : Text}
  {plan : SaveConfigPlan}

theorem findAutosaveData_mainFile (h : WellFormedText regular) (hfile : MainFile regular existing) :
    (findAutosaveData existing).1 = regular := by
  have hunmarked : Unmarked regular := fun line hline => h.noMark line (mem_of_mem_tail hline)
  cases hfile with
  | plain => rw [findAutosaveData_plain hunmarked]
  | block hbody => rw [findAutosaveData_block hunmarked hbody]

theorem get_of_firstConflict (autosave : Autosave) {config : SortedMap}
    (h : firstConflict config autosave.config = none) {name key value : Text}
    (hget : autosave.config.get name key = some value) : config.get name key = none := by
  obtain ⟨options, hsection, hoption⟩ := bind_eq_some_iff.mp hget
  have hmem := AList.lookup_isSome.mp (by rw [hsection]; rfl)
  have hname := findSome?_eq_none_iff.mp h name (autosave.listed name hmem)
  rw [hsection, bind_some, map_eq_none_iff, find?_eq_none] at hname
  have hkey : key ∈ options.keys :=
    AList.mem_keys.mp (AList.lookup_isSome.mp (by rw [hoption]; rfl))
  simpa using hname key hkey

theorem mapError_eq_ok {ε ε' α : Type} {x : Except ε α} {f : ε → ε'} {a : α}
    (h : x.mapError f = .ok a) : x = .ok a := by
  rcases x with e | b
  · cases h
  · cases h
    rfl

/-- What a plan is made of. -/
theorem buildSaveConfigPlan_ok {autosave : SortedMap}
    (h : buildSaveConfigPlan fs depth cfgname existing autosave datestr = .ok plan) :
    ∃ old stripped config,
      parseConfigText fs depth (findAutosaveData existing).1 cfgname = .ok old ∧
      stripDuplicates (findAutosaveData existing).1 autosave = .ok stripped ∧
      parseConfigText fs depth stripped cfgname = .ok config ∧
      firstConflict config autosave = none ∧
      plan.data = trimSpace stripped ++ [newline] ++ formatAutosaveBlock (renderConfig autosave) ++
        [newline] := by
  obtain ⟨old, hold, h⟩ := Outcome.bind_eq_ok h
  obtain ⟨stripped, hstripped, h⟩ := Outcome.bind_eq_ok h
  obtain ⟨_, hvalid, h⟩ := Outcome.bind_eq_ok h
  obtain ⟨config, hconfig, hvalid⟩ := Outcome.bind_eq_ok hvalid
  refine ⟨old, stripped, config, mapError_eq_ok hold, mapError_eq_ok hstripped,
    mapError_eq_ok hconfig, ?_, ?_⟩
  · rcases hconflict : firstConflict config autosave with _ | ⟨name, option⟩
    · rfl
    · rw [hconflict] at hvalid
      cases hvalid
  · split at h
    · cases h
      rfl
    · cases h
      rfl

/-! ### The stripped text -/

variable {R : Text → Text → Prop} {lines lines' : List Text}

theorem exists_of_mem_right (h : Forall₂ R lines lines') :
    ∀ line' ∈ lines', ∃ line ∈ lines, R line line' := by
  induction h with
  | nil => exact fun _ hmem => absurd hmem not_mem_nil
  | @cons line line' _ _ hline _ ih =>
    refine forall_mem_cons.mpr ⟨⟨line, mem_cons_self, hline⟩, fun l hl => ?_⟩
    obtain ⟨source, hsource, hr⟩ := ih l hl
    exact ⟨source, mem_cons_of_mem line hsource, hr⟩

theorem exists_of_mem_left (h : Forall₂ R lines lines') :
    ∀ line ∈ lines, ∃ line' ∈ lines', R line line' :=
  exists_of_mem_right (Forall₂.flip (R := flip R) h)

theorem Commented.mem {line line' : Text} (h : Commented line line') {c : Char} (hc : c ∈ line')
    (hhash : c ≠ '#') : c ∈ line := by
  rcases h with rfl | ⟨rfl, -⟩
  · exact hc
  · exact (mem_cons.mp hc).resolve_left hhash

/-- A predicate of the lines without their comments holds of the stripped lines as well. -/
theorem Commented.bare {P : Text → Prop} (hnil : P []) {line line' : Text}
    (h : Commented line line') (hline : P (stripComment line)) : P (stripComment line') := by
  rcases h with rfl | ⟨rfl, -⟩
  · exact hline
  · exact hnil

/-- A text that is parsed in one piece, line by line. -/
structure PlainText (data : Text) : Prop where
  noReturn : '\r' ∉ data
  noInclude : ∀ line ∈ splitLines data, ¬ includeWord <+: stripComment line

theorem PlainText.nil : PlainText [] where
  noReturn := not_mem_nil
  noInclude := forall_mem_singleton.mpr (by decide)

theorem PlainText.append {data' : Text} (h : PlainText data) (h' : PlainText data') :
    PlainText (data ++ newline :: data') where
  noReturn := by simp [h.noReturn, h'.noReturn, newline]
  noInclude := by
    unfold splitLines
    rw [splitOn_append_cons_self]
    exact forall_mem_append.mpr ⟨h.noInclude, h'.noInclude⟩

structure StrippedText (regular : Text) (saved : SortedMap) (stripped : Text) : Prop where
  lines : stripLines saved [] false (splitLines regular) = .ok (splitLines stripped)
  commented : Forall₂ Commented (splitLines regular) (splitLines stripped)

theorem strippedText_of_ok (h : WellFormedText regular) {saved : SortedMap} {stripped : Text}
    (hs : stripDuplicates regular saved = .ok stripped) : StrippedText regular saved stripped := by
  obtain ⟨lines', hlines, hjoin⟩ : ∃ lines', stripLines saved [] false (splitLines regular) =
      .ok lines' ∧ joinLines lines' = stripped := by
    unfold stripDuplicates at hs
    rcases hlines : stripLines saved [] false (splitLines regular) with e | lines'
    · rw [hlines] at hs
      cases hs
    · rw [hlines] at hs
      cases hs
      exact ⟨lines', rfl, rfl⟩
  have hcommented := stripLines_commented h.lines hlines
  have hproper : Proper newline lines' := by
    intro line' hline' hmem
    obtain ⟨line, hline, hr⟩ := exists_of_mem_right hcommented line' hline'
    exact notMem_of_mem_splitOn hline (hr.mem hmem (by decide))
  have hne : lines' ≠ [] := by
    rintro rfl
    exact splitOnP_ne_nil _ _ (forall₂_nil_right_iff.mp hcommented)
  have hsplit : splitLines stripped = lines' := by
    rw [← hjoin]
    exact splitLines_joinLines hproper hne
  exact ⟨by rw [hsplit, hlines], by rwa [hsplit]⟩

namespace StrippedText

variable {saved : SortedMap} {stripped : Text}

variable (h : StrippedText regular saved stripped)
include h

theorem bare {P : Text → Prop} (hnil : P [])
    (hlines : ∀ line ∈ splitLines regular, P (stripComment line)) :
    ∀ line ∈ splitLines stripped, P (stripComment line) := by
  intro line' hline'
  obtain ⟨line, hline, hr⟩ := exists_of_mem_right h.commented line' hline'
  exact hr.bare hnil (hlines line hline)

variable (hregular : WellFormedText regular)
include hregular

theorem noMark : ∀ line ∈ splitLines stripped, ¬ mark <+: line := by
  intro line' hline' hstarts
  obtain ⟨line, hline, hr⟩ := exists_of_mem_right h.commented line' hline'
  rcases hr with rfl | ⟨rfl, c, hc, hstar⟩
  · exact hregular.noMark line' hline hstarts
  · obtain ⟨rest, rfl⟩ := head?_eq_some_iff.mp hc
    exact hstar (cons_prefix_cons.mp (cons_prefix_cons.mp hstarts).2).1.symm

theorem plain : PlainText stripped := by
  refine ⟨fun hmem => ?_, h.bare (P := fun p => ¬ includeWord <+: p) (by decide) hregular.noInclude⟩
  rw [← joinLines_splitLines stripped] at hmem
  rcases mem_joinLines hmem with heq | ⟨line', hline', hmem⟩
  · cases heq
  · obtain ⟨line, hline, hr⟩ := exists_of_mem_right h.commented line' hline'
    exact hregular.noReturn (mem_of_mem_splitOn hline (hr.mem hmem (by decide)))

theorem firstUnindented : FirstUnindented (splitLines stripped) := by
  rintro before' line' after' heq hwhite ⟨c, hc, hspace⟩
  have hcommented := h.commented
  rw [heq] at hcommented
  obtain ⟨before, line, after, hlines, hbefore, hline⟩ :
      ∃ before line after, splitLines regular = before ++ line :: after ∧
        Forall₂ Commented before before' ∧ Commented line line' := by
    have hdrop := forall₂_drop_append _ _ _ hcommented
    obtain ⟨line, after, hline, -, hcons⟩ := forall₂_cons_right_iff.mp hdrop
    refine ⟨_, line, after, ?_, forall₂_take_append _ _ _ hcommented, hline⟩
    rw [← hcons, take_append_drop]
  rcases hline with rfl | ⟨rfl, -⟩
  · obtain ⟨rest, rfl⟩ := head?_eq_some_iff.mp hc
    have hhash : c ≠ '#' := by
      rintro rfl
      cases hspace
    have hbare : stripComment (c :: rest) = c :: stripComment rest := by
      unfold stripComment
      rw [takeWhile_cons, if_pos (decide_eq_true hhash)]
    cases hregular.lines (c :: rest) (by rw [hlines]; simp) with
    | blank hblank => exact isSpace_of_blanks hblank
    | header hname hws hform =>
      cases (List.cons.inj (hbare.symm.trans hform)).1
      cases hspace
    | option hkey hpad hform =>
      obtain ⟨d, hd, hstart⟩ := hkey.optionStart
      have hhead := congrArg List.head? (hbare.symm.trans hform)
      rw [append_assoc, head?_append, hd] at hhead
      cases hhead
      rw [isSpace_of_optionStart hstart] at hspace
      cases hspace
    | continuation hblank hform hne _ =>
      cases (List.cons.inj (hbare.symm.trans hform)).1
      -- the option before it is not white, also if it is commented out
      obtain ⟨l, hl, key, value, hkind⟩ :=
        hregular.continues before _ after hlines ⟨c, rfl, hblank⟩ hne
      obtain ⟨l', hl', hcommented'⟩ := exists_of_mem_left hbefore l hl
      have hwhite' := hwhite l' hl'
      rcases hcommented' with rfl | ⟨rfl, -⟩
      · rw [kind_blank fun c hc => hwhite' c (stripComment_subset l' c hc)] at hkind
        cases hkind
      · have hspace' := hwhite' '#' mem_cons_self
        exact absurd hspace' (by decide)
  · cases hc
    cases hspace

end StrippedText

/-! ### Loading the plan -/

theorem parseConfigText_plain (hdata : PlainText data) :
    parseConfigText fs (depth + 1) data filename =
      ((·.config) <$> parseLines .start (bareLines data)).mapError .panic := by
  rw [parseConfigText_eq fs depth filename hdata.noInclude, parseLines_textLines hdata.noReturn]

theorem parseLines_of_parseConfigText {config : SortedMap} (hdata : PlainText data)
    (h : parseConfigText fs (depth + 1) data filename = .ok config) :
    ∃ s, parseLines .start (bareLines data) = .ok s ∧ s.config = config := by
  rw [parseConfigText_plain hdata] at h
  exact mapError_config_eq_ok h

/-- The text of the block as it comes back. -/
def blockText (blank : List Text) (autosave : SortedMap) : Text :=
  joinLines ([] :: (blank ++ loadedLines autosave ++ [[]]))

section Block

variable {blank : List Text} {autosave : Autosave}

variable (hblank : ∀ l ∈ blank, l = [])
include hblank

theorem mem_block {line : Text} (h : line ∈ [] :: (blank ++ loadedLines autosave.config ++ [[]])) :
    line = [] ∨ Loaded autosave line := by
  simp only [mem_cons, mem_append, not_mem_nil, or_false] at h
  rcases h with h | (h | h) | h
  · exact .inl h
  · exact .inl (hblank line h)
  · exact .inr (loaded_of_mem autosave line h)
  · exact .inl h

theorem splitLines_blockText : splitLines (blockText blank autosave.config) =
      [] :: (blank ++ loadedLines autosave.config ++ [[]]) := by
  refine splitLines_joinLines (fun line hline hmem => ?_) (by simp)
  rcases mem_block hblank hline with rfl | hloaded
  · cases hmem
  · exact (hloaded.chars newline hmem).2.2 rfl

theorem plain_blockText : PlainText (blockText blank autosave.config) := by
  constructor
  · intro hmem
    rcases mem_joinLines hmem with heq | ⟨line, hline, hmem⟩
    · cases heq
    · rcases mem_block hblank hline with rfl | hloaded
      · cases hmem
      · exact (hloaded.chars '\r' hmem).2.1 rfl
  · rw [splitLines_blockText hblank]
    intro line hline
    rcases mem_block hblank hline with rfl | hloaded
    · decide
    · rw [stripComment_loaded hloaded]
      exact hloaded.noInclude

/-- The parser finds only the lines that come back. -/
theorem parseLines_blockText (s : Loop) :
    parseLines s (bareLines (blockText blank autosave.config)) =
      parseLines s (loadedLines autosave.config) := by
  have hbare : bareLines (blockText blank autosave.config) =
      [] :: (blank ++ loadedLines autosave.config ++ [[]]) := by
    rw [bareLines, splitLines_blockText hblank]
    refine (map_congr_left fun line hline => ?_).trans (map_id _)
    rcases mem_block hblank hline with rfl | hloaded
    · rfl
    · exact stripComment_loaded hloaded
  have hbefore : parseLines s ([] :: blank) = .ok s := by
    refine parseLines_ignored (forall_mem_cons.mpr ⟨kind_nil, fun l hl => ?_⟩)
    rw [hblank l hl]
    exact kind_nil
  rw [hbare, append_assoc, ← cons_append, parseLines_append, hbefore]
  show parseLines s (loadedLines autosave.config ++ [[]]) = _
  rw [parseLines_append]
  exact bind_pure _

end Block

theorem bareLines_append_newline (data data' : Text) :
    bareLines (data ++ newline :: data') = bareLines data ++ bareLines data' := by
  unfold bareLines splitLines
  rw [splitOn_append_cons_self, map_append]

/-- Loading the text of a plan: the lines of the block are parsed on their own, and after the
regular part. -/
theorem buildMainConfigBundle_plan (fs : FileSystem) (depth : ℕ) (filename : Text)
    (autosave : Autosave) {stripped : Text} {saved : SortedMap} {s : Loop}
    (hregular : WellFormedText regular) (hstripped : StrippedText regular saved stripped)
    (hparse : parseLines .start (bareLines stripped) = .ok s)
    (hnew : ∀ name key value, autosave.config.get name key = some value →
      s.config.get name key = none) :
    buildMainConfigBundle fs (depth + 1) (trimSpace stripped ++ [newline] ++
        formatAutosaveBlock (renderConfig autosave.config) ++ [newline]) filename = (do
      let own ← ((·.config) <$> parseLines .start (loadedLines autosave.config)).mapError .panic
      let combined ← ((·.config) <$> parseLines s (loadedLines autosave.config)).mapError .panic
      return ⟨s.config, own, combined⟩) := by
  obtain ⟨blank, hblank, hlines⟩ := lines_renderConfig autosave
  have hfirst := hstripped.firstUnindented hregular
  have hform := hstripped.bare (.blank fun _ hc => absurd hc not_mem_nil) hregular.lines
  -- the regular part
  have htrim : PlainText (trimSpace stripped) := by
    have hplain := hstripped.plain hregular
    exact ⟨fun hmem => hplain.noReturn (mem_of_mem_trimFunc hmem),
      noInclude_trimSpace hfirst hplain.noInclude⟩
  have hplain := htrim.append .nil
  have hbare : parseLines .start (bareLines (trimSpace stripped ++ [newline])) = .ok s := by
    rw [bareLines_append_newline, parseLines_append, parseLines_trimSpace hform hfirst hparse]
    rfl
  have hregularConfig : parseConfigText fs (depth + 1) (trimSpace stripped ++ [newline]) filename =
      .ok s.config := by
    rw [parseConfigText_plain hplain, hbare]
    rfl
  -- the block
  have hfind : findAutosaveData (trimSpace stripped ++ [newline] ++
      formatAutosaveBlock (renderConfig autosave.config) ++ [newline]) =
        (trimSpace stripped ++ [newline], blockText blank autosave.config) := by
    rw [stripped_formatAutosaveBlock (unmarked_trimSpace (hstripped.noMark hregular)), hlines]
    rfl
  have hstrip : stripDuplicates (blockText blank autosave.config) s.config =
      .ok (blockText blank autosave.config) := by
    have hunstripped := unstripped_loadedLines autosave hnew ([] :: blank)
      (forall_mem_cons.mpr ⟨rfl, hblank⟩)
    rw [cons_append, ← append_assoc] at hunstripped
    rw [stripDuplicates, splitLines_blockText hblank, hunstripped]
    rfl
  have hown : parseConfigText fs (depth + 1) (blockText blank autosave.config) filename =
      ((·.config) <$> parseLines .start (loadedLines autosave.config)).mapError .panic := by
    rw [parseConfigText_plain (plain_blockText hblank), parseLines_blockText hblank]
  have hcombined : parseConfigText fs (depth + 1)
      (trimSpace stripped ++ [newline] ++ newline :: blockText blank autosave.config) filename =
        ((·.config) <$> parseLines s (loadedLines autosave.config)).mapError .panic := by
    rw [parseConfigText_plain (hplain.append (plain_blockText hblank)), bareLines_append_newline,
      parseLines_append, hbare]
    show ((·.config) <$> parseLines s (bareLines (blockText blank autosave.config))).mapError _ = _
    rw [parseLines_blockText hblank]
  unfold buildMainConfigBundle
  rw [hfind]
  dsimp only
  rw [hregularConfig]
  show ((stripDuplicates (blockText blank autosave.config) s.config).mapError Fault.panic >>= _) = _
  rw [hstrip]
  show (parseConfigText fs (depth + 1) (blockText blank autosave.config) filename >>= _) = _
  rw [hown, hcombined]

/-! ### The round trip -/

/-- A saved configuration comes back as it was saved exactly if the lines of the values that have
several lines survive the parser. -/
theorem save_faithful_iff (fs : FileSystem) (autosave : Autosave)
    (hregular : WellFormedText regular) (hfile : MainFile regular existing)
    (hplan : buildSaveConfigPlan fs depth cfgname existing autosave.config datestr = .ok plan) :
    Faithful fs depth cfgname regular autosave.config plan ↔
      ∀ name key value, autosave.config.get name key = some value → newline ∈ value →
        ∀ line ∈ splitLines value, Survives line := by
  obtain ⟨old, stripped, config, hold, hstrip, hconfig, hconflict, hdata⟩ :=
    buildSaveConfigPlan_ok hplan
  rw [findAutosaveData_mainFile hregular hfile] at hold hstrip
  obtain ⟨depth, rfl⟩ : ∃ n, depth = n + 1 := by
    rcases depth with _ | depth
    · cases hold
    · exact ⟨depth, rfl⟩
  have hstripped := strippedText_of_ok hregular hstrip
  obtain ⟨s₀, hs₀, rfl⟩ :=
    parseLines_of_parseConfigText ⟨hregular.noReturn, hregular.noInclude⟩ hold
  obtain ⟨s₁, hs₁, rfl⟩ := parseLines_of_parseConfigText (hstripped.plain hregular) hconfig
  have hnew : ∀ name key value, autosave.config.get name key = some value →
      s₁.config.get name key = none := fun _ _ _ hget =>
    get_of_firstConflict autosave hconflict hget
  have hagree := run_sim (Side.start autosave.config) hregular.lines hstripped.lines hs₀ hs₁
  have hvalid : s₁.Valid := (reached_of_ok hs₁).valid
  have hbundle := buildMainConfigBundle_plan fs depth cfgname autosave hregular hstripped hs₁ hnew
  rw [← hdata] at hbundle
  constructor
  · rintro ⟨_, bundle, -, hload, hget⟩
    rw [hbundle] at hload
    obtain ⟨own, -, hload⟩ := Outcome.bind_eq_ok hload
    obtain ⟨combined, hcombined, hload⟩ := Outcome.bind_eq_ok hload
    cases hload
    rcases hs₂ : parseLines s₁ (loadedLines autosave.config) with e | s₂
    · rw [hs₂] at hcombined
      cases hcombined
    · rw [hs₂] at hcombined
      cases hcombined
      -- what the block has added was put together from its lines
      have htraced : Traced (loadedLines autosave.config) s₁.config s₁ := by
        refine ⟨hvalid, fun name key value hbase hsome => ?_, fun _ hbase value hsome => ?_⟩
        · cases hbase.symm.trans hsome
        · cases hbase.symm.trans hsome
      have hlines : ∀ l ∈ loadedLines autosave.config, newline ∉ l := fun l hl hmem =>
        ((loaded_of_mem autosave l hl).chars newline hmem).2.2 rfl
      have hfinal := htraced.run (fun _ hl => hl) hlines hs₂
      refine survives_of_fromLines autosave fun name key value hsaved hvalue => ?_
      refine hfinal.values name key value (hnew name key value hsaved) ?_ hvalue
      rw [hget, hsaved]
      rfl
  · intro hsurvives
    obtain ⟨s₂, hs₂, -⟩ := parseLines_loadedLines autosave Loop.start_valid hsurvives
    obtain ⟨s₃, hs₃, hget⟩ := parseLines_loadedLines autosave hvalid hsurvives
    refine ⟨s₀.config, ⟨s₁.config, s₂.config, s₃.config⟩, hold, ?_, fun name key => ?_⟩
    · rw [hbundle, hs₂, hs₃]
      rfl
    · rw [hget]
      rcases hsaved : autosave.config.get name key with _ | value
      · rw [none_or, none_or, hagree name key hsaved]
      · rfl

theorem ok_of_toOption {ε α : Type} {x : Except ε α} {a : α} (h : x.toOption = some a) :
    x = .ok a := by
  rcases x with e | b
  · cases h
  · cases h
    rfl

theorem wellFormedName_letter {c : Char} (h : 'a' ≤ c ∧ c ≤ 'z') : WellFormedName [c] where
  start := ⟨c, rfl, h⟩
  last := by
    rintro d ⟨⟩
    exact isSpace_of_optionStart (decide_eq_true (.inr (.inr h)))
  chars := by
    refine forall_mem_singleton.mpr ⟨?_, ?_, ?_, ?_, ?_⟩ <;>
      rintro rfl <;> exact absurd h (by decide)

def oneOption (value : Text) (h : ∀ line ∈ splitLines value, ValueLine line) : Autosave where
  config := ⟨["a".toList], AList.singleton "a".toList (AList.singleton "y".toList value)⟩
  listed := by
    intro name hname
    have hkeys : name ∈ ["a".toList] := hname
    exact hkeys
  sections := forall_mem_singleton.mpr (wellFormedName_letter (by decide))
  options := forall_mem_singleton.mpr (forall_mem_singleton.mpr
    ⟨wellFormedName_letter (by decide), show ¬ includeWord <+: "y = ".toList by decide, h⟩)

def smallText : Text := "[a]\nx = 1\ny = 7".toList

theorem smallText_wellFormed : WellFormedText smallText := by
  have hplain : ∀ line ∈ splitLines smallText, ¬ includeWord <+: stripComment line ∧
      ¬ mark <+: line ∧ line.head? ≠ some ' ' ∧ line.head? ≠ some '\t' := by
    decide +kernel
  refine ⟨by decide +kernel, ?_, fun l hl => (hplain l hl).1, fun l hl => (hplain l hl).2.1, ?_⟩
  · refine forall_mem_cons.mpr ⟨?_, forall_mem_cons.mpr ⟨?_, forall_mem_singleton.mpr
      ?_⟩⟩
    · exact .header (wellFormedName_letter (by decide)) (by simp [Blanks])
        (show _ = '[' :: (['a'] ++ ']' :: []) from rfl)
    · exact .option (wellFormedName_letter (by decide)) (by simp [Blanks])
        (show _ = ['x'] ++ [' '] ++ '=' :: " 1".toList from rfl)
    · exact .option (wellFormedName_letter (by decide)) (by simp [Blanks])
        (show _ = ['y'] ++ [' '] ++ '=' :: " 7".toList from rfl)
  · intro before line after heq hindent
    obtain ⟨c, hc, hblank⟩ := hindent
    have hline := hplain line (by rw [heq]; simp)
    rcases hblank with rfl | rfl
    · exact absurd hc hline.2.2.1
    · exact absurd hc hline.2.2.2

theorem valueLine_of {line : Text} (h : line ≠ [] ∧ trimSpace line = line) (hhash : '#' ∉ line)
    (hreturn : '\r' ∉ line) : ValueLine line where
  ne_nil := h.1
  trimmed := h.2
  chars := fun _ hc => ⟨fun heq => hhash (heq ▸ hc), fun heq => hreturn (heq ▸ hc)⟩

def twoLines : Autosave := oneOption "2\n3".toList <| by
  have hlines : splitLines "2\n3".toList = [['2'], ['3']] := rfl
  rw [hlines]
  exact forall_mem_cons.mpr ⟨valueLine_of (by decide) (by decide) (by decide),
    forall_mem_singleton.mpr (valueLine_of (by decide) (by decide) (by decide))⟩

/-- The value takes the place of the one in the text. -/
theorem save_faithful_twoLines :
    ∃ plan, buildSaveConfigPlan oneFile 1 "a.cfg".toList smallText twoLines.config [] = .ok plan ∧
      Faithful oneFile 1 "a.cfg".toList smallText twoLines.config plan := by
  have hok : (buildSaveConfigPlan oneFile 1 "a.cfg".toList smallText twoLines.config
      []).toOption.isSome := by decide +kernel
  rcases hplan : buildSaveConfigPlan oneFile 1 "a.cfg".toList smallText twoLines.config []
    with e | plan
  · rw [hplan] at hok
    cases hok
  · refine ⟨plan, rfl,
      (save_faithful_iff oneFile twoLines smallText_wellFormed .plain hplan).mpr ?_⟩
    intro name key value hget _
    obtain ⟨e, he, -, o, ho, -, rfl⟩ := exists_of_get hget
    cases mem_singleton.mp he
    cases mem_singleton.mp ho
    decide

def semicolonLine : Autosave := oneOption "1\n2;3".toList <| by
  have hlines : splitLines "1\n2;3".toList = [['1'], "2;3".toList] := rfl
  rw [hlines]
  exact forall_mem_cons.mpr ⟨valueLine_of (by decide) (by decide) (by decide),
    forall_mem_singleton.mpr (valueLine_of (by decide) (by decide) (by decide))⟩

/-- What follows the semicolon is gone after a reload. -/
theorem semicolon_not_saved :
    semicolonLine.config.get "a".toList "y".toList = some "1\n2;3".toList ∧
    ∃ plan bundle,
      buildSaveConfigPlan oneFile 1 "a.cfg".toList smallText semicolonLine.config [] = .ok plan ∧
      buildMainConfigBundle oneFile 1 plan.data "a.cfg".toList = .ok bundle ∧
      bundle.combined.get "a".toList "y".toList = some "1\n2".toList := by
  refine ⟨by decide, ?_⟩
  have hload : ((buildSaveConfigPlan oneFile 1 "a.cfg".toList smallText semicolonLine.config
      []).toOption.bind fun plan => (buildMainConfigBundle oneFile 1 plan.data
        "a.cfg".toList).toOption.bind fun bundle => bundle.combined.get "a".toList "y".toList) =
          some "1\n2".toList := by decide +kernel
  obtain ⟨plan, hplan, hload⟩ := bind_eq_some_iff.mp hload
  obtain ⟨bundle, hbundle, hget⟩ := bind_eq_some_iff.mp hload
  exact ⟨plan, bundle, ok_of_toOption hplan, ok_of_toOption hbundle, hget⟩

end Config
