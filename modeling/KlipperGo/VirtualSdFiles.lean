/-
The choice of the file to print (`VirtualSD.LoadFile` of `internal/addon/virtual_sd.go`; `M23`,
`SDCARD_PRINT_FILE` and `Load_file` of `internal/addon/virtual_sd_module.go`).

The name that a command gives is trimmed, its extension is checked, and it is joined to the
directory of the card.  Joining resolves the element `..`, so the name can lead out of the
directory.
-/
import KlipperGo.CallLog
import KlipperGo.GoPath
import KlipperGo.GoRuntime
import KlipperGo.GoStrings

open GoRuntime GoStrings GoPath Outcome CallLog List

namespace Addon

/-- The lower case of the `unicode` package, with its ASCII part. -/
structure LowerCase where
  toLower : Char → Char
  toLower_ascii : ∀ c : Char, c.toNat < 128 → toLower c = c.toLower

/-- The files: their sizes (`os.Stat`), and the errors of opening and closing them. -/
structure Files where
  size : List Char → Option ℕ
  openError : List Char → Option String
  closeError : List Char → Option String

/-- `VirtualSD`, as far as files are chosen, and the files that were opened.  The directory is a
cleaned path and never empty. -/
structure SdFiles where
  sdcardDirname : List Char
  dirname_ne_nil : sdcardDirname ≠ []
  currentFile : Option (List Char)
  fileSize : ℕ
  mustPauseWork : Bool
  cmdFromSD : Bool
  nextFilePosition : ℕ
  filePosition : ℕ
  opened : List (List Char)

def validGCodeExts : List (List Char) := ["g".toList, "gco".toList, "gcode".toList]

def hasValidGCodeExtension (lower : LowerCase) (filename : List Char) : Bool :=
  trimPrefix ['.'] ((ext filename).map lower.toLower) ∈ validGCodeExts

/-- `strings.Trim(filename, "\"")`. -/
def trimQuotes (filename : List Char) : List Char := trimFunc (· = '"') filename

namespace SdFiles

/-- `NewVirtualSD`, as `LoadConfigVirtualSD` calls it: with `util.Normpath` of the configured path,
whose home directory is expanded. -/
def newVirtualSD (path : List Char) : SdFiles where
  sdcardDirname := clean path
  dirname_ne_nil := clean_ne_nil path
  currentFile := none
  fileSize := 0
  mustPauseWork := false
  cmdFromSD := false
  nextFilePosition := 0
  filePosition := 0
  opened := []

variable (files : Files) (self : SdFiles)

def closeCurrentFile : SdFiles × Option String :=
  match self.currentFile with
  | none => (self, none)
  | some file => ({ self with currentFile := none }, files.closeError file)

def reset : SdFiles :=
  { (self.closeCurrentFile files).1 with
    filePosition := 0
    fileSize := 0
    nextFilePosition := 0
    mustPauseWork := false
    cmdFromSD := false }

/-- The path that `LoadFile` makes of a name. -/
def filePath (filename : List Char) : List Char :=
  join [self.sdcardDirname, trimPrefix ['/'] filename]

def loadFile (lower : LowerCase) (files : Files) (self : SdFiles) (filename : List Char) :
    SdFiles × Except String (List Char) :=
  let filename := trimQuotes filename
  if !hasValidGCodeExtension lower filename then (self, .error "Gcode file extension incorrect")
  else
    let file := self.filePath filename
    match files.size file with
    | none => (self, .error ("Unable to open file: " ++ String.ofList file))
    | some size =>
      if size = 0 then (self, .error "Gcode file is empty")
      else
        match files.openError file with
        | some err => (self, .error err)
        | none =>
          let self := { self with opened := self.opened ++ [file] }
          match self.closeCurrentFile files with
          | (self, some err) => (self, .error err)
          | (self, none) =>
            ({ self with
                currentFile := some file
                filePosition := 0
                nextFilePosition := 0
                fileSize := size },
              .ok filename)

end SdFiles

/-! ### The commands -/

/-- The module: the card, whether there is a work timer, and the file of the statistics. -/
structure SdModule where
  core : SdFiles
  workTimer : Bool
  currentFile : List Char

/-- A command; only some have raw parameters. -/
structure SdCommand where
  string : String → List Char → List Char
  rawCommandParameters : Option (List Char)

abbrev SdHandler := SdCommand → EStateM Panic SdModule (Option String)

variable (lower : LowerCase) (files : Files)

/-- `Reset_file`.  The commands call it only when nothing is printed, so there is no pause. -/
def SdModule.resetFile (self : SdModule) : SdModule :=
  { self with
    core := ((self.core.closeCurrentFile files).1).reset files
    currentFile := [] }

def loadFile (lower : LowerCase) (files : Files) (filename : List Char) :
    EStateM Panic SdModule (Option String) := do
  let filename := trimQuotes filename
  let (core, result) := (← get).core.loadFile lower files filename
  modify fun self => { self with core := core }
  match result with
  | .error err => return some err
  | .ok selected =>
    modify fun self => { self with currentFile := selected }
    return none

/-- `Do_resume`: the error, if there is a timer. -/
def SdModule.doResume (self : SdModule) : SdModule :=
  if self.workTimer then self
  else { self with core := { self.core with mustPauseWork := false }, workTimer := true }

/-- `Cmd_SDCARD_PRINT_FILE`; an error of `Do_resume` is logged. -/
def cmdSDCARD_PRINT_FILE : SdHandler := fun gcmd => do
  if (← get).workTimer then throw (.value ["SD busy"])
  modify (SdModule.resetFile files)
  match ← loadFile lower files (gcmd.string "FILENAME" []) with
  | some err => return some err
  | none =>
    modify SdModule.doResume
    return none

def m23Name (gcmd : SdCommand) : List Char :=
  trimPrefix ['/'] (trimSpace (gcmd.rawCommandParameters.getD []))

def cmdM23 : SdHandler := fun gcmd => do
  if (← get).workTimer then return some "SD busy"
  modify (SdModule.resetFile files)
  loadFile lower files (m23Name gcmd)

inductive FileCommand
  | m23
  | sdcardPrintFile
  deriving DecidableEq

def FileCommand.handler : FileCommand → SdHandler
  | .m23 => cmdM23 lower files
  | .sdcardPrintFile => cmdSDCARD_PRINT_FILE lower files

variable (command : FileCommand)

/-- The name that the command gives, without quotes and blanks around it and a slash before it. -/
def FileCommand.filename (gcmd : SdCommand) : List Char :=
  match command with
  | .m23 => trimQuotes (trimQuotes (m23Name gcmd))
  | .sdcardPrintFile => trimQuotes (trimQuotes (gcmd.string "FILENAME" []))

def FileCommand.opens (gcmd : SdCommand) (s : SdModule) : List (List Char) :=
  (stateOf (command.handler lower files gcmd s)).core.opened.drop s.core.opened.length

/-! ### What is opened -/

variable {lower : LowerCase} {files : Files} {gcmd : SdCommand} {s : SdModule}

theorem closeCurrentFile_opened (files : Files) (self : SdFiles) :
    (self.closeCurrentFile files).1.opened = self.opened := by
  rw [SdFiles.closeCurrentFile]
  split <;> rfl

theorem closeCurrentFile_dirname (files : Files) (self : SdFiles) :
    (self.closeCurrentFile files).1.sdcardDirname = self.sdcardDirname := by
  rw [SdFiles.closeCurrentFile]
  split <;> rfl

/-- `LoadFile` opens nothing, or the file of a name with a valid extension. -/
theorem loadFile_opened (lower : LowerCase) (files : Files) (self : SdFiles)
    (filename : List Char) :
    (self.loadFile lower files filename).1.opened = self.opened ∨
      hasValidGCodeExtension lower (trimQuotes filename) = true ∧
        (self.loadFile lower files filename).1.opened =
          self.opened ++ [self.filePath (trimQuotes filename)] := by
  rw [SdFiles.loadFile]
  split
  · exact .inl rfl
  · next hvalid =>
    rw [Bool.not_eq_true', Bool.not_eq_false] at hvalid
    dsimp only
    split
    · exact .inl rfl
    · split
      · exact .inl rfl
      · split
        · exact .inl rfl
        · -- the file is open, whether or not the one before can be closed
          refine .inr ⟨hvalid, ?_⟩
          have hopened := closeCurrentFile_opened files
            { self with opened := self.opened ++ [self.filePath (trimQuotes filename)] }
          split <;> next hclose => rw [hclose] at hopened; exact hopened

theorem resetFile_opened (s : SdModule) : (s.resetFile files).core.opened = s.core.opened := by
  exact (closeCurrentFile_opened _ _).trans (closeCurrentFile_opened _ _)

theorem resetFile_dirname (s : SdModule) :
    (s.resetFile files).core.sdcardDirname = s.core.sdcardDirname := by
  exact (closeCurrentFile_dirname _ _).trans (closeCurrentFile_dirname _ _)

/-- `Load_file` does to the card what `LoadFile` does. -/
theorem loadFile_core (lower : LowerCase) (files : Files) (filename : List Char) (s : SdModule) :
    ∃ r s', loadFile lower files filename s = .ok r s' ∧
      s'.core = (s.core.loadFile lower files (trimQuotes filename)).1 := by
  rw [loadFile, bind_get]
  rcases s.core.loadFile lower files (trimQuotes filename) with ⟨core, err | selected⟩
  · exact ⟨_, _, rfl, rfl⟩
  · exact ⟨_, _, rfl, rfl⟩

/-- Neither does what follows open another file. -/
theorem doResume_opened (s : SdModule) : s.doResume.core.opened = s.core.opened := by
  rw [SdModule.doResume]
  split <;> rfl

theorem cmdSDCARD_PRINT_FILE_of_idle (hidle : ¬ s.workTimer = true) :
    cmdSDCARD_PRINT_FILE lower files gcmd s =
      (do
        match ← loadFile lower files (gcmd.string "FILENAME" []) with
        | some err => return some err
        | none =>
          modify SdModule.doResume
          return none) (s.resetFile files) := by
  rw [cmdSDCARD_PRINT_FILE, bind_get, if_neg hidle]
  exact bind_modify _ _ _

/-- A command that is not refused opens what `LoadFile` opens after the reset. -/
theorem handler_opened (lower : LowerCase) (files : Files) (command : FileCommand)
    (gcmd : SdCommand) (s : SdModule) :
    (stateOf (command.handler lower files gcmd s)).core.opened = s.core.opened ∨
      ∃ name, trimQuotes name = command.filename gcmd ∧
        (stateOf (command.handler lower files gcmd s)).core.opened =
          ((s.resetFile files).core.loadFile lower files name).1.opened := by
  cases command with
  | m23 =>
    rw [FileCommand.handler]
    by_cases hbusy : s.workTimer = true
    · left
      rw [cmdM23, bind_get, if_pos hbusy]
      rfl
    · right
      obtain ⟨r, s', hload, hcore⟩ := loadFile_core lower files (m23Name gcmd) (s.resetFile files)
      rw [cmdM23, bind_get, if_neg hbusy, bind_modify, hload]
      refine ⟨trimQuotes (m23Name gcmd), rfl, ?_⟩
      rw [← hcore]
      rfl
  | sdcardPrintFile =>
    rw [FileCommand.handler]
    by_cases hbusy : s.workTimer = true
    · left
      rw [cmdSDCARD_PRINT_FILE, bind_get, if_pos hbusy]
      rfl
    · right
      obtain ⟨r, s', hload, hcore⟩ :=
        loadFile_core lower files (gcmd.string "FILENAME" []) (s.resetFile files)
      rw [cmdSDCARD_PRINT_FILE_of_idle hbusy, bind_ok hload]
      refine ⟨trimQuotes (gcmd.string "FILENAME" []), rfl, ?_⟩
      rw [← hcore]
      rcases r with _ | err
      · exact doResume_opened s'
      · rfl

/-- A command opens nothing, or the file of its name. -/
theorem run_opened (gcmd : SdCommand) (s : SdModule) :
    command.opens lower files gcmd s = [] ∨
      hasValidGCodeExtension lower (command.filename gcmd) = true ∧
        command.opens lower files gcmd s = [s.core.filePath (command.filename gcmd)] := by
  rw [FileCommand.opens]
  rcases handler_opened lower files command gcmd s with
    hnone | ⟨name, hname, hload⟩
  · exact .inl (by rw [hnone, drop_length])
  · rw [hload, ← hname]
    rcases loadFile_opened lower files (s.resetFile files).core name with hnone | ⟨hvalid, hone⟩
    · exact .inl (by rw [hnone, resetFile_opened, drop_length])
    · refine .inr ⟨hvalid, ?_⟩
      rw [hone, resetFile_opened, SdFiles.filePath, SdFiles.filePath, resetFile_dirname, drop_left]

/-! ### Where the file is -/

/-- Where a name leads, as seen from the directory. -/
def relative (filename : List Char) : Place := (splitOn '/' filename).foldl Place.follow here

/-- A slash before a name is an empty element. -/
theorem foldl_follow_trimPrefix (p : Place) (filename : List Char) :
    (splitOn '/' (trimPrefix ['/'] filename)).foldl Place.follow p =
      (splitOn '/' filename).foldl Place.follow p := by
  rw [trimPrefix]
  split
  · next hslash =>
    obtain ⟨rest, rfl⟩ := hslash
    have hsplit := splitOn_append_cons_self (a := '/') [] rest
    rw [splitOn_nil] at hsplit
    show (splitOn '/' rest).foldl Place.follow p = _
    rw [show ['/'] ++ rest = [] ++ '/' :: rest from rfl, hsplit, foldl_append]
    show _ = (splitOn '/' rest).foldl Place.follow (p.follow [])
    rw [follow_nil]
  · rfl

/-- An element that leads nowhere or up has no valid extension. -/
theorem isName_of_valid {filename base : List Char} {es : List (List Char)}
    (hsplit : splitOn '/' filename = es ++ [base])
    (h : hasValidGCodeExtension lower filename = true) : IsName base := by
  have hlast : (splitOn '/' filename).getLastD [] = base := by simp [hsplit]
  have hdot : lower.toLower '.' = '.' := lower.toLower_ascii '.' (by decide)
  rw [hasValidGCodeExtension, ext, hlast] at h
  refine ⟨?_, ?_, ?_, ?_⟩
  · rintro rfl
    cases h
  · rintro rfl
    simp [trimPrefix, validGCodeExts, hdot] at h
  · rintro rfl
    simp [trimPrefix, validGCodeExts, hdot] at h
  · exact Lines.notMem_of_mem_splitOn (s := filename) (by simp [hsplit])

/-- A name with a valid extension ends with the name of a file. -/
theorem relative_names_ne_nil {filename : List Char}
    (h : hasValidGCodeExtension lower filename = true) : (relative filename).names ≠ [] := by
  obtain hnil | ⟨es, base, hsplit⟩ := eq_nil_or_concat (splitOn '/' filename)
  · exact absurd hnil (splitOn_ne_nil _ _)
  · rw [concat_eq_append] at hsplit
    have hbase : IsName base := isName_of_valid hsplit h
    rw [relative, hsplit, foldl_append]
    simp [Place.follow, hbase.2.2.1, hbase]

/-- The name does not lead out of the directory: it does not climb, or it comes back the way it
has climbed, and goes on. -/
def Stays (dir name : Place) : Prop :=
  name.steps = 0 ∨ (dir.start = .root ∨ name.steps ≤ dir.names.length) ∧
    ∃ rest, rest ≠ [] ∧ name.names = dir.names.drop (dir.names.length - name.steps) ++ rest

/-- For every directory, name, command, state and contents of the file system: a file that is
opened is below the directory of the card if and only if its name does not lead out of it. -/
theorem print_file_inside_iff (lower : LowerCase) (files : Files) (command : FileCommand)
    (gcmd : SdCommand) (s : SdModule) (file : List Char)
    (hfile : file ∈ command.opens lower files gcmd s) :
    (placeOf (clean file)).Below (placeOf (clean s.core.sdcardDirname)) ↔
      Stays (placeOf (clean s.core.sdcardDirname)) (relative (command.filename gcmd)) := by
  rcases run_opened command gcmd s with hnone | ⟨hvalid, hone⟩
  · rw [hnone] at hfile
    cases hfile
  rw [hone, mem_singleton] at hfile
  set dir := placeOf s.core.sdcardDirname with hdir
  set name := relative (command.filename gcmd) with hname
  have hplace : placeOf file = dir.go name := by
    rw [hfile, SdFiles.filePath, placeOf_join s.core.dirname_ne_nil, foldl_follow_trimPrefix]
    exact (foldl_follow_eq _ _).2
  have hstart : name.start ≠ .root := (foldl_follow_eq dir _).1
  rw [placeOf_clean, placeOf_clean, hplace, go_below_iff dir hstart, Stays]
  constructor
  · exact .inr
  · rintro (hsteps | hback)
    · rw [hsteps]
      refine ⟨.inr (Nat.zero_le _), name.names, relative_names_ne_nil hvalid, ?_⟩
      rw [Nat.sub_zero, drop_length, nil_append]
    · exact hback

/-- A card in a directory of the user, and surroundings in which every file can be opened. -/
def homeCard : SdModule := ⟨.newVirtualSD "/home/mks/gcode_files/".toList, false, []⟩

def readableFiles : Files := ⟨fun _ => some 1, fun _ => none, fun _ => none⟩

def asciiLower : LowerCase := ⟨Char.toLower, fun _ _ => rfl⟩

def named (filename : String) : SdCommand := ⟨fun _ _ => filename.toList, some filename.toList⟩

/-- Both commands open a file of the parent directory. -/
theorem parent_file_outside :
    let file := "/home/mks/printer.gcode".toList
    (∀ command : FileCommand,
      command.opens asciiLower readableFiles (named "../printer.gcode") homeCard = [file]) ∧
      ¬ (placeOf (clean file)).Below (placeOf (clean homeCard.core.sdcardDirname)) := by
  refine ⟨fun command => by cases command <;> rfl, ?_⟩
  rintro ⟨-, rest, hrest, hnames⟩
  -- both have three names
  have hlength := congrArg List.length hnames
  rw [length_append] at hlength
  exact hrest (length_eq_zero_iff.mp (Nat.add_eq_left.mp hlength.symm))

theorem print_file_inside_subdirectory :
    (placeOf (clean "/home/mks/gcode_files/parts/cube.gcode".toList)).Below
      (placeOf (clean homeCard.core.sdcardDirname)) :=
  (print_file_inside_iff asciiLower readableFiles .m23 (named "/parts/../parts/cube.gcode ")
    homeCard _ (by decide +kernel)).mpr (.inl (by decide +kernel))

end Addon
