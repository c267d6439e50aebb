/-
Configuration files and the files they include.

`ParseConfig` strips the comments of a text, collects its lines and gives them to the parser.  A
line that begins with the bare word `include` ends a piece: the lines before it are parsed, then
the files it names, and each piece that is parsed replaces what was parsed before.  A section
`[include pattern]` is a line like any other.

`flatten` says what an include section stands for: the lines of the matching files in its place.

* `parseConfigText_eq` — without a bare `include` the text is parsed in one piece;
* `parseConfigLines_bare` — with one, nothing in front of it is kept.
-/
import KlipperGo.ConfigParser
import Mathlib.Data.Char
import Mathlib.Data.List.Lex

namespace Config

open GoRuntime GoStrings List Option

/-! ### Files -/

/-- The paths and files that the parser asks for.  `glob` has no result for a pattern that is
malformed. -/
structure FileSystem where
  abs : Text → Text
  dir : Text → Text
  join : Text → Text → Text
  glob : Text → Option (List Text)
  getBytes : Text → Option Text

/-- `strings.ReplaceAll(data, "\r\n", "\n")`. -/
def normaliseNewlines : Text → Text
  | '\r' :: '\n' :: rest => '\n' :: normaliseNewlines rest
  | c :: rest => c :: normaliseNewlines rest
  | [] => []

variable (fs : FileSystem) (depth : ℕ) (data filename pattern line : Text) (config : SortedMap)
  (resolve : Text → SortedMap → Except Fault SortedMap)

def FileSystem.readConfigFile : Option Text :=
  (fs.getBytes filename).map normaliseNewlines

def hasMagic : Bool := pattern.any fun c => c = '*' ∨ c = '?' ∨ c = '[' ∨ c = ']'

/-! ### The parser of files -/

/-- How the parser of files ends without a result: it panics, or it is still busy with includes
inside of includes when it is given up. -/
inductive Fault where
  | panic (p : Panic)
  | tooDeep

/-- A piece that is parsed replaces the configuration. -/
def parseConfigBuffer (buffer : List Text) (fileconfig : SortedMap) : Except Fault SortedMap :=
  if buffer = [] then .ok fileconfig
  else (parseContent (['\n'].intercalate buffer)).mapError .panic

/-- `ResolveInclude`, with the parser to use for the files.  Its errors are not looked at: the
files after one that cannot be read are left out. -/
def resolveInclude (parse : Text → Text → SortedMap → Except Fault SortedMap)
    (sourceFilename includeSpec : Text) (fileconfig : SortedMap) : Except Fault SortedMap :=
  let includeGlob := fs.join (fs.dir sourceFilename) (trimSpace includeSpec)
  match fs.glob includeGlob with
  | none => .ok fileconfig
  | some found =>
    if found = [] ∧ !hasMagic includeGlob then
      .error (.panic (.value ["include file '", String.ofList includeGlob, "' does not exist"]))
    else includeFiles (found.mergeSort fun a b => a ≤ b) fileconfig
where
  includeFiles : List Text → SortedMap → Except Fault SortedMap
    | [], fileconfig => .ok fileconfig
    | filename :: rest, fileconfig =>
      match fs.readConfigFile filename with
      | none => .ok fileconfig
      | some data => do includeFiles rest (← parse data filename fileconfig)

def stripComment : Text := line.takeWhile (· ≠ '#')

def includeWord : Text := "include ".toList

/-- The loop of `ParseConfig`, with the lines of the piece it is in. -/
def parseConfigLines (resolve : Text → SortedMap → Except Fault SortedMap) :
    List Text → List Text → SortedMap → Except Fault SortedMap
  | [], buffer, fileconfig => parseConfigBuffer buffer fileconfig
  | line :: rest, buffer, fileconfig =>
    let line := stripComment line
    if includeWord <+: line then do
      let fileconfig ← parseConfigBuffer buffer fileconfig
      let fileconfig ← resolve (trimSpace (line.drop 8)) fileconfig
      parseConfigLines resolve rest [] fileconfig
    else parseConfigLines resolve rest (buffer ++ [line]) fileconfig

/-- `ParseConfig`, with at most `depth` files inside of each other. -/
def parseConfig (fs : FileSystem) : ℕ → List Text → Text → Text → SortedMap →
    Except Fault SortedMap
  | 0, _, _, _, _ => .error .tooDeep
  | depth + 1, visited, data, filename, fileconfig =>
    let path := fs.abs filename
    if path ∈ visited then
      .error (.panic (.value ["Recursive include of config file '", String.ofList filename, "'"]))
    else
      parseConfigLines (resolveInclude fs (parseConfig fs depth (path :: visited)) filename)
        (splitOn '\n' data) [] fileconfig

def parseConfigText : Except Fault SortedMap :=
  parseConfig fs depth [] data filename .empty

/-- The file is parsed to the configuration. -/
def ParsesTo : Prop :=
  ∃ depth, parseConfigText fs depth data filename = .ok config

/-! ### What an include stands for -/

/-- The lines of a text without their comments. -/
def textLines : List Text :=
  fieldLines (['\n'].intercalate ((splitOn '\n' data).map stripComment))

def includePattern : Option Text :=
  (headerName line).bind fun name =>
    if includeWord <+: name then some (trimSpace (name.drop 8)) else none

/-- The files that a pattern in a file names, in order. -/
def FileSystem.included : Option (List Text) :=
  let includeGlob := fs.join (fs.dir filename) pattern
  (fs.glob includeGlob).bind fun found =>
    if found = [] ∧ !hasMagic includeGlob then none else some (found.mergeSort fun a b => a ≤ b)

/-- The lists that `f` gives, one after the other. -/
def concatOption {α β : Type*} (f : α → Option (List β)) : List α → Option (List β)
  | [] => some []
  | a :: rest => do return (← f a) ++ (← concatOption f rest)

/-- The lines of a file with the lines of the files it includes in the place of its include
sections; there are none if a file is missing or the includes go deeper than `depth`. -/
def flatten (fs : FileSystem) : ℕ → Text → Text → Option (List Text)
  | 0, _, _ => none
  | depth + 1, data, filename =>
    concatOption (fun line =>
      match includePattern line with
      | none => some [line]
      | some pattern =>
        (fs.included filename pattern).bind <| concatOption fun file =>
          (fs.readConfigFile file).bind fun data => flatten fs depth data file)
      (textLines data)

/-- A main file with the files around it.  No include comes back to the file it is in, so they
come to an end. -/
structure ConfigTree where
  fs : FileSystem
  filename : Text
  data : Text
  lines : List Text
  flattened : ∃ depth, flatten fs depth data filename = some lines

/-- The line begins with the bare word. -/
abbrev BareInclude : Prop := includeWord <+: stripComment line

/-! ### The text as one piece -/

variable {lines : List Text}

theorem parseConfigLines_eq (h : ∀ line ∈ lines, ¬ BareInclude line) (buffer : List Text)
    (fileconfig : SortedMap) :
    parseConfigLines resolve lines buffer fileconfig =
      parseConfigBuffer (buffer ++ lines.map stripComment) fileconfig := by
  induction lines generalizing buffer with
  | nil => rw [parseConfigLines, map_nil, append_nil]
  | cons line rest ih =>
    obtain ⟨hline, hrest⟩ := forall_mem_cons.mp h
    rw [parseConfigLines, if_neg hline, ih hrest, append_assoc]
    rfl

theorem parseConfigText_eq {data : Text} (h : ∀ line ∈ splitOn '\n' data, ¬ BareInclude line) :
    parseConfigText fs (depth + 1) data filename =
      ((·.config) <$> parseLines .start (textLines data)).mapError .panic := by
  have hne : (splitOn '\n' data).map stripComment ≠ [] := by
    rw [ne_eq, map_eq_nil_iff]
    exact splitOnP_ne_nil _ _
  rw [parseConfigText, parseConfig, if_neg not_mem_nil, parseConfigLines_eq _ h,
    nil_append, parseConfigBuffer, if_neg hne]
  rfl

theorem mapError_config_eq_ok {x : Except Panic Loop} {config : SortedMap}
    (h : ((·.config) <$> x).mapError Fault.panic = .ok config) :
    ∃ s, x = .ok s ∧ s.config = config := by
  rcases x with e | s
  · cases h
  · cases h
    exact ⟨s, rfl, rfl⟩

theorem parsesTo_iff {data : Text} (h : ∀ line ∈ splitOn '\n' data, ¬ BareInclude line) :
    ParsesTo fs data filename config ↔
      ∃ s, parseLines .start (textLines data) = .ok s ∧ s.config = config := by
  constructor
  · rintro ⟨_ | depth, hparse⟩
    · cases hparse
    · rw [parseConfigText_eq _ _ _ h] at hparse
      exact mapError_config_eq_ok hparse
  · rintro ⟨s, hs, rfl⟩
    refine ⟨1, ?_⟩
    rw [parseConfigText_eq _ _ _ h, hs]
    rfl

/-- Nothing in front of a bare include is kept if there are lines behind the last one. -/
theorem parseConfigLines_bare
    {line : Text} (front : List Text) {back : List Text} (hline : BareInclude line)
    (hback : ∀ l ∈ back, ¬ BareInclude l) (hne : back ≠ []) {buffer : List Text}
    {fileconfig config : SortedMap}
    (h : parseConfigLines resolve (front ++ line :: back) buffer fileconfig = .ok config) :
    ∃ s, parseLines .start (fieldLines (['\n'].intercalate (back.map stripComment))) = .ok s ∧
      s.config = config := by
  induction front generalizing buffer fileconfig with
  | nil =>
    rw [nil_append, parseConfigLines, if_pos hline] at h
    obtain ⟨fileconfig₁, -, h⟩ := Outcome.bind_eq_ok h
    obtain ⟨fileconfig₂, -, h⟩ := Outcome.bind_eq_ok h
    rw [parseConfigLines_eq resolve hback, nil_append, parseConfigBuffer,
      if_neg (by simpa using hne)] at h
    exact mapError_config_eq_ok h
  | cons l front ih =>
    rw [cons_append, parseConfigLines] at h
    split at h
    · obtain ⟨fileconfig₁, -, h⟩ := Outcome.bind_eq_ok h
      obtain ⟨fileconfig₂, -, h⟩ := Outcome.bind_eq_ok h
      exact ih h
    · exact ih h

/-! ### The flattened text -/

theorem exists_of_mem_concatOption {α β : Type*} {f : α → Option (List β)} {l : List α}
    {r : List β} (h : concatOption f l = some r) {b : β} (hb : b ∈ r) :
    ∃ a ∈ l, ∃ part, f a = some part ∧ b ∈ part := by
  induction l generalizing r with
  | nil =>
    cases h
    cases hb
  | cons a rest ih =>
    obtain ⟨part, hpart, h⟩ := bind_eq_some_iff.mp h
    obtain ⟨r', hr', h⟩ := bind_eq_some_iff.mp h
    cases h
    rcases mem_append.mp hb with hb | hb
    · exact ⟨a, mem_cons_self, part, hpart, hb⟩
    · obtain ⟨a', ha', h⟩ := ih hr' hb
      exact ⟨a', mem_cons_of_mem a ha', h⟩

theorem concatOption_of_forall {α : Type*} {f : α → Option (List α)} {l : List α}
    (h : ∀ a ∈ l, f a = some [a]) : concatOption f l = some l := by
  induction l with
  | nil => rfl
  | cons a rest ih =>
    obtain ⟨ha, hrest⟩ := forall_mem_cons.mp h
    rw [concatOption, ha, ih hrest]
    rfl

/-- Each line of the flattened text is a line of some file that is no include section. -/
theorem includePattern_flatten {fs : FileSystem} {depth : ℕ} {data filename : Text}
    (h : flatten fs depth data filename = some lines) :
    ∀ line ∈ lines, includePattern line = none := by
  induction depth generalizing data filename lines with
  | zero => cases h
  | succ depth ih =>
    intro line hline
    obtain ⟨source, -, part, hpart, hmem⟩ := exists_of_mem_concatOption h hline
    cases hpattern : includePattern source with
    | none =>
      rw [hpattern] at hpart
      cases hpart
      cases mem_singleton.mp hmem
      exact hpattern
    | some pattern =>
      rw [hpattern] at hpart
      obtain ⟨files, -, hfiles⟩ := bind_eq_some_iff.mp hpart
      obtain ⟨file, -, content, hfile, hmem⟩ := exists_of_mem_concatOption hfiles hmem
      obtain ⟨data, -, hflatten⟩ := bind_eq_some_iff.mp hfile
      exact ih hflatten line hmem

theorem flatten_of_no_include {fs : FileSystem} {depth : ℕ} {data filename : Text}
    (h : flatten fs depth data filename = some lines)
    (hnone : ∀ line ∈ textLines data, includePattern line = none) : lines = textLines data := by
  rcases depth with _ | depth
  · cases h
  · rw [flatten, concatOption_of_forall fun line hline => by rw [hnone line hline]] at h
    exact (Option.some.inj h).symm

/-- The parser of files gives the configuration of the flattened text if the main text has neither
an include section nor a line with the bare word.  With an include section alone it does not; and
with a line of the bare word it does so only if the lines behind the last one, by themselves, give
the whole configuration. -/
theorem includes_compose_iff (tree : ConfigTree) {s : Loop}
    (hparse : parseLines .start tree.lines = .ok s) :
    ((∀ line ∈ splitOn '\n' tree.data, ¬ BareInclude line) →
      (ParsesTo tree.fs tree.data tree.filename s.config ↔
        ∀ line ∈ textLines tree.data, includePattern line = none)) ∧
      ∀ front line back, splitOn '\n' tree.data = front ++ line :: back → BareInclude line →
        (∀ l ∈ back, ¬ BareInclude l) → back ≠ [] →
        ParsesTo tree.fs tree.data tree.filename s.config →
          ∃ s', parseLines .start (fieldLines (['\n'].intercalate (back.map stripComment))) =
            .ok s' ∧ s'.config = s.config := by
  obtain ⟨depth, hflat⟩ := tree.flattened
  refine ⟨fun hbare => ?_, fun front line back hlines hline hback hne => ?_⟩
  · rw [parsesTo_iff _ _ _ hbare]
    constructor
    · rintro ⟨s', hs', hconfig⟩ line hline
      rw [eq_none_iff_forall_not_mem]
      intro pattern hpattern
      obtain ⟨name, hname, hpattern⟩ := bind_eq_some_iff.mp hpattern
      -- the section is in the one result and not in the other
      have hmain : name ∈ s'.config.core :=
        ((reached_of_ok hs').sections name).mpr (mem_filterMap.mpr ⟨line, hline, hname⟩)
      rw [hconfig, (reached_of_ok hparse).sections name] at hmain
      obtain ⟨line', hline', hname'⟩ := mem_filterMap.mp hmain
      have hnone := includePattern_flatten hflat line' hline'
      rw [includePattern, hname'] at hnone
      exact some_ne_none _ (hpattern.symm.trans hnone)
    · intro hnone
      rw [flatten_of_no_include hflat hnone] at hparse
      exact ⟨s, hparse, rfl⟩
  · rintro ⟨_ | depth, h⟩
    · cases h
    · rw [parseConfigText, parseConfig, if_neg not_mem_nil, hlines] at h
      exact parseConfigLines_bare _ front hline hback hne h

def oneFile : FileSystem where
  abs := id
  dir := fun _ => []
  join := fun _ pattern => pattern
  glob := fun pattern => some [pattern]
  getBytes := fun filename => if filename = "b.cfg".toList then some "[b]\ny = 2".toList else none

def plainTree : ConfigTree where
  fs := oneFile
  filename := "a.cfg".toList
  data := "[a]\nx = 1".toList
  lines := ["[a]".toList, "x = 1".toList]
  flattened := ⟨1, by decide⟩

theorem includes_compose_plain : ∃ s, parseLines .start plainTree.lines = .ok s ∧
      ParsesTo plainTree.fs plainTree.data plainTree.filename s.config :=
  ⟨_, rfl, ((includes_compose_iff plainTree rfl).1 (by decide)).mpr (by decide)⟩

theorem included_singleton {fs : FileSystem} {filename pattern file : Text}
    (h : fs.glob (fs.join (fs.dir filename) pattern) = some [file]) :
    fs.included filename pattern = some [file] := by
  rw [FileSystem.included, h]
  simp

def includingTree : ConfigTree where
  fs := oneFile
  filename := "a.cfg".toList
  data := "[a]\nx = 1\n[include b.cfg]".toList
  lines := ["[a]".toList, "x = 1".toList, "[b]".toList, "y = 2".toList]
  flattened := by
    have hmain : textLines "[a]\nx = 1\n[include b.cfg]".toList =
        ["[a]".toList, "x = 1".toList, "[include b.cfg]".toList] := by decide +kernel
    have hfile : flatten oneFile 1 "[b]\ny = 2".toList "b.cfg".toList =
        some ["[b]".toList, "y = 2".toList] := by decide +kernel
    have hpattern : includePattern "[include b.cfg]".toList = some "b.cfg".toList := by
      decide +kernel
    have hplain : includePattern "[a]".toList = none ∧ includePattern "x = 1".toList = none := by
      decide +kernel
    have hincluded : oneFile.included "a.cfg".toList "b.cfg".toList = some ["b.cfg".toList] :=
      included_singleton rfl
    have hread : oneFile.readConfigFile "b.cfg".toList = some "[b]\ny = 2".toList := by
      decide +kernel
    refine ⟨2, ?_⟩
    rw [flatten, hmain]
    simp only [concatOption, hplain.1, hplain.2, hpattern, hincluded, bind_some, hread, hfile]
    rfl

/-- The option of the included file is not there. -/
theorem include_not_composed : (∃ s, parseLines .start includingTree.lines = .ok s ∧
      s.config.get "b".toList "y".toList = some "2".toList) ∧
    ∀ config, ParsesTo includingTree.fs includingTree.data includingTree.filename config →
      config.get "b".toList "y".toList = none := by
  constructor
  · exact ⟨_, rfl, by decide +kernel⟩
  · intro config h
    obtain ⟨s, hs, rfl⟩ := (parsesTo_iff _ _ config (by decide +kernel)).mp h
    have hnone : ((parseLines .start (textLines includingTree.data)).toOption.bind fun s =>
        s.config.get "b".toList "y".toList) = none := by decide +kernel
    rw [hs] at hnone
    exact hnone

end Config
