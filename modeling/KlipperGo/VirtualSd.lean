/-
Printing a file (`internal/addon/virtual_sd.go`, `internal/addon/virtual_sd_module.go`,
`internal/pkg/util/util.go`).

The work handler reads the file in chunks, keeps the complete lines in reverse and the rest of the
last one apart, and runs one line a turn.  The position of the file is advanced when a line is
done.  A pause ends the handler; the next one starts to read at the position again.

* `reverse_eq` — the lines of a chunk are reversed;
* `readOf_readLines` — a chunk completes lines and leaves a rest.
-/
import KlipperGo.Lines
import KlipperGo.Runs
import Mathlib.Data.List.DropRight

open Lines Runs List Option

namespace Addon

abbrev Bytes := List UInt8

def newline : UInt8 := 10
def carriageReturn : UInt8 := 13

/-- The body of the loop of `Reverse`. -/
def reverseBody (s newS : List Bytes) (i : ℕ) : List Bytes :=
  let j := s.length - 1 - i
  (newS.set i (s.getD j [])).set j (s.getD i [])

variable (s : List Bytes)

def reverse : List Bytes :=
  -- `i` and `j` run towards each other, as long as `i <= j`
  (range ((s.length + 1) / 2)).foldl (reverseBody s) (replicate s.length [])

/-! ### The card -/

/-- `VirtualSD`: the file with its offset while it is open, and the positions. -/
structure VirtualSD where
  content : Bytes
  currentFile : Option ℕ
  mustPauseWork : Bool
  cmdFromSD : Bool
  nextFilePosition : ℕ
  filePosition : ℕ

namespace VirtualSD

def loadFile (content : Bytes) : VirtualSD :=
  { content
    currentFile := some 0
    mustPauseWork := false
    cmdFromSD := false
    nextFilePosition := 0
    filePosition := 0 }

variable (self : VirtualSD)

def closeCurrentFile : VirtualSD := { self with currentFile := none }

/-- `SeekToFilePosition`, and `SeekToNextPosition`, which does the same. -/
def seekToFilePosition : VirtualSD :=
  { self with currentFile := self.currentFile.map fun _ => self.filePosition }

inductive ReadLines where
  | lines (lines : List Bytes) (partialInput : Bytes)
  | eof (partialInput : Bytes)
  | err

/-- The number of bytes a read gives, if the file has as many. -/
abbrev Chunk := { n : ℕ // 0 < n ∧ n ≤ 8192 }

/-- `ReadLines`, where `read` says how the read of the file goes: an error, or a chunk. -/
def readLines (partialInput : Bytes) (read : Option Chunk) : VirtualSD × ReadLines :=
  match self.currentFile with
  | none => (self, .eof partialInput)
  | some offset =>
    match read with
    | none => (self, .err)
    | some n =>
      let data := (self.content.drop offset).take n.1
      if data.length ≤ 0 then (self.closeCurrentFile, .eof partialInput)
      else
        let lines := (splitOn newline data).modifyHead (partialInput ++ ·)
        ({ self with currentFile := some (offset + data.length) },
          .lines (reverse lines.dropLast) (lines.getLastD []))

/-- `strings.TrimRight(line, "\r")`. -/
def trimRight (line : Bytes) : Bytes := line.rdropWhile (· = carriageReturn)

def advanceLine (line : Bytes) : VirtualSD × Bytes × ℕ :=
  let nextFilePosition := self.filePosition + line.length + 1
  ({ self with nextFilePosition }, trimRight line, nextFilePosition)

def commitFilePosition : VirtualSD :=
  { self with filePosition := self.nextFilePosition }

end VirtualSD

/-! ### The work handler -/

/-- The calls of `print_stats`. -/
inductive Note where
  | start
  | pause
  | complete
  | error (message : String)
  deriving DecidableEq

/-- Where `Work_handler` is: there is no timer, it is about to start, or in its loop. -/
inductive Handler where
  | idle
  | registered
  | running (lines : List Bytes) (partialInput : Bytes)
  deriving DecidableEq

/-- `VirtualSDModule`, with the calls of `print_stats` and the lines given to `RunScript`. -/
structure VirtualSDModule where
  core : VirtualSD
  handler : Handler
  notes : List Note
  dispatched : List Bytes

/-- How a line ends: it is done, it asked for another position, or it panicked. -/
inductive LineResult where
  | done
  | seek (pos : ℕ)
  | fail (errorMessage : String)
  deriving DecidableEq

/-- What a turn of the loop meets: how a read goes, whether the G-code is busy, whether a pause is
asked for while a line runs, and how the line ends. -/
structure Turn where
  read : Option VirtualSD.Chunk
  busy : Bool
  pauses : Bool
  result : LineResult

inductive SdEvent where
  | resume
  | pause
  | turn (t : Turn)

namespace VirtualSDModule

open VirtualSD

/-- A file is selected, and nothing was done yet. -/
def load (content : Bytes) : VirtualSDModule :=
  { core := .loadFile content, handler := .idle, notes := [], dispatched := [] }

variable (self : VirtualSDModule)

/-- `Do_pause`: what it does before it waits. -/
def doPause : VirtualSDModule :=
  match self.handler with
  | .idle => self
  | _ => { self with core := { self.core with mustPauseWork := true } }

def doResume : VirtualSDModule :=
  match self.handler with
  | .idle =>
    { self with
      core := { self.core with mustPauseWork := false }
      handler := .registered }
  | _ => self

/-- The end of `Work_handler`. -/
def exit (errorMessage : String) : VirtualSDModule :=
  { self with
    core := { self.core with cmdFromSD := false }
    handler := .idle
    notes := self.notes ++
      [if errorMessage ≠ "" then .error errorMessage
        else if self.core.currentFile.isSome then .pause else .complete] }

/-- `Work_handler` runs the last of its lines. -/
def runLine (lines : List Bytes) (partialInput : Bytes) (t : Turn) : VirtualSDModule :=
  let rawLine := lines.getLastD []
  let lines := lines.dropLast
  let (core, line, nextFilePosition) := { self.core with cmdFromSD := true }.advanceLine rawLine
  let core := { core with mustPauseWork := core.mustPauseWork || t.pauses }
  let self := { self with dispatched := self.dispatched ++ [line] }
  match t.result with
  | .fail errorMessage => ({ self with core := core.closeCurrentFile }).exit errorMessage
  | .done =>
    { self with
      core := { core with cmdFromSD := false }.commitFilePosition
      handler := .running lines partialInput }
  | .seek pos =>
    let core := { core with cmdFromSD := false, nextFilePosition := pos }.commitFilePosition
    if pos ≠ nextFilePosition then
      { self with core := core.seekToFilePosition, handler := .running [] [] }
    else { self with core, handler := .running lines partialInput }

/-- One turn of `Work_handler`: its beginning, or once through its loop. -/
def workTurn (t : Turn) : VirtualSDModule :=
  match self.handler with
  | .idle => self
  | .registered =>
    { self with
      core := self.core.seekToFilePosition
      handler := .running [] []
      notes := self.notes ++ [.start] }
  | .running lines partialInput =>
    if self.core.mustPauseWork then self.exit ""
    else if lines.length = 0 then
      match self.core.readLines partialInput t.read with
      | (core, .err) => ({ self with core := core.closeCurrentFile }).exit "Printing file error"
      | (core, .eof _) => ({ self with core }).exit ""
      | (core, .lines lines partialInput) =>
        { self with core, handler := .running lines partialInput }
    else if t.busy then self
    else self.runLine lines partialInput t

def step : SdEvent → VirtualSDModule
  | .resume => self.doResume
  | .pause => self.doPause
  | .turn t => self.workTurn t

end VirtualSDModule

/-! ### Lines of a chunk -/

theorem length_reverse_loop (is : List ℕ) (newS : List Bytes) :
    (is.foldl (reverseBody s) newS).length = newS.length := by
  induction is generalizing newS with
  | nil => rfl
  | cons i is ih => rw [foldl_cons, ih, reverseBody, length_set, length_set]

/-- The places that the loop of `Reverse` has filled after `k` turns. -/
theorem getElem?_reverse_loop {k m : ℕ} (hk : 2 * k ≤ s.length + 1)
    (hm : m < s.length) (hfilled : m < k ∨ s.length - 1 - m < k) :
    ((range k).foldl (reverseBody s) (replicate s.length []))[m]? =
      some (s.getD (s.length - 1 - m) []) := by
  induction k with
  | zero => omega
  | succ k ih =>
    have hlen := length_reverse_loop s (range k) (replicate s.length [])
    rw [length_replicate] at hlen
    rw [range_succ, foldl_append, foldl_cons, foldl_nil, reverseBody,
      getElem?_set, getElem?_set, length_set, hlen]
    -- the turn writes the two places `k` and `s.length - 1 - k`, the others were filled before
    by_cases hright : s.length - 1 - k = m
    · rw [if_pos hright, if_pos (by omega), show s.length - 1 - m = k by omega]
    · rw [if_neg hright]
      by_cases hleft : k = m
      · rw [if_pos hleft, if_pos (by omega), hleft]
      · rw [if_neg hleft]
        exact ih (by omega) (by omega)

theorem reverse_eq : reverse s = s.reverse := by
  refine ext_getElem? fun m => ?_
  by_cases hm : m < s.length
  · have hget : s[s.length - 1 - m]? = some (s.getD (s.length - 1 - m) []) := by
      rw [getD_eq_getElem?_getD, getElem?_eq_getElem (by omega), getD_some]
    rw [getElem?_reverse hm, hget]
    exact getElem?_reverse_loop s (by omega) hm (by omega)
  · have hlen : (reverse s).length = s.length :=
      (length_reverse_loop s _ _).trans length_replicate
    rw [getElem?_eq_none (by omega), getElem?_eq_none (by simpa using hm)]

namespace VirtualSD

variable {self : VirtualSD}

/-- What a read can do.  A chunk completes some lines, and leaves a rest: with what was there
before, they are what was there and the bytes of the chunk. -/
inductive ReadOf (self : VirtualSD) (partialInput : Bytes) (read : Option Chunk) :
    VirtualSD → ReadLines → Prop
  | closed (hfile : self.currentFile = none) :
      ReadOf self partialInput read self (.eof partialInput)
  | failed (hread : read = none) : ReadOf self partialInput read self .err
  | ended {offset : ℕ} (hfile : self.currentFile = some offset)
      (hend : self.content.length ≤ offset) :
      ReadOf self partialInput read self.closeCurrentFile (.eof partialInput)
  | lines {offset size : ℕ} {lines : List Bytes} {rest : Bytes}
      (hfile : self.currentFile = some offset) (hpos : 0 < size)
      (hsize : offset + size ≤ self.content.length)
      (hlines : newline ∉ partialInput → ∃ pending, lines = pending.reverse ∧
        Proper newline pending ∧ newline ∉ rest ∧ pending.length ≤ size ∧
        partialInput ++ (self.content.drop offset).take size = unlines newline pending ++ rest) :
      ReadOf self partialInput read { self with currentFile := some (offset + size) }
        (.lines lines rest)

theorem readLines_eof {offset : ℕ} (hfile : self.currentFile = some offset) (partialInput : Bytes)
    (n : Chunk) (hend : self.content.length ≤ offset) :
    self.readLines partialInput (some n) = (self.closeCurrentFile, .eof partialInput) := by
  rw [readLines, hfile]
  dsimp only
  rw [drop_eq_nil_of_le hend, take_nil]
  exact if_pos (Nat.le_refl 0)

variable {read : Option Chunk} {core : VirtualSD}

theorem readOf_readLines {partialInput : Bytes} {r : ReadLines}
    (h : self.readLines partialInput read = (core, r)) : ReadOf self partialInput read core r := by
  rcases hfile : self.currentFile with _ | offset
  · rw [readLines, hfile] at h
    cases h
    exact .closed hfile
  rcases read with _ | n
  · rw [readLines, hfile] at h
    cases h
    exact .failed rfl
  rcases Nat.lt_or_ge offset self.content.length with hmore | hend
  · rw [readLines, hfile] at h
    dsimp only at h
    set data := (self.content.drop offset).take n.1 with hdata
    have hsize : data.length = min n.1 (self.content.length - offset) := by
      rw [hdata, length_take, length_drop]
    rw [if_neg (by omega)] at h
    cases h
    refine .lines hfile (by omega) (by omega) fun hinput => ?_
    obtain ⟨pending, rest, htext, hpending, hrest⟩ := exists_unlines newline (partialInput ++ data)
    rw [splitOn_modifyHead hinput, htext, splitOn_unlines_append hpending hrest,
      dropLast_concat, getLastD_concat, reverse_eq]
    refine ⟨pending, rfl, hpending, hrest, ?_, ?_⟩
    · -- every line has its separator in the chunk
      have hcount := congrArg (List.count newline) htext
      rw [count_append, count_append, count_unlines hpending, count_eq_zero.mpr hrest,
        count_eq_zero.mpr hinput, Nat.zero_add, Nat.add_zero] at hcount
      rw [← hcount]
      exact count_le_length
    · rw [← htext, hdata, length_take, ← take_eq_take_min]
  · rw [readLines_eof hfile _ _ hend] at h
    cases h
    exact .ended hfile hend

theorem readLines_ne_err {partialInput : Bytes} (hread : read.isSome) :
    self.readLines partialInput read ≠ (core, .err) := by
  intro h
  obtain _ | rfl := readOf_readLines h
  cases hread

/-- At the end of a file, it is closed. -/
theorem currentFile_of_eof {partialInput rest : Bytes}
    (h : self.readLines partialInput read = (core, .eof rest)) : core.currentFile = none := by
  cases readOf_readLines h with
  | closed hfile => exact hfile
  | ended => rfl

/-- A read changes the file and nothing else. -/
theorem readLines_core {partialInput : Bytes} {r : ReadLines}
    (h : self.readLines partialInput read = (core, r)) :
    ∃ file, core = { self with currentFile := file } := by
  cases readOf_readLines h with
  | closed | failed | ended | lines => exact ⟨_, rfl⟩

end VirtualSD

/-! ### What a turn can do -/

namespace VirtualSDModule

/-- The turns of the work handler, and what they lead to. -/
inductive TurnOf (s : VirtualSDModule) (t : Turn) : VirtualSDModule → Prop
  | idle (h : s.handler = .idle) : TurnOf s t s
  | start (h : s.handler = .registered) :
      TurnOf s t
        { s with
          core := s.core.seekToFilePosition
          handler := .running [] []
          notes := s.notes ++ [.start] }
  | pause {lines : List Bytes} {partialInput : Bytes} (h : s.handler = .running lines partialInput)
      (hpause : s.core.mustPauseWork = true) : TurnOf s t (s.exit "")
  | readError {partialInput : Bytes} {core : VirtualSD} (h : s.handler = .running [] partialInput)
      (hpause : s.core.mustPauseWork = false)
      (hread : s.core.readLines partialInput t.read = (core, .err)) :
      TurnOf s t (({ s with core := core.closeCurrentFile }).exit "Printing file error")
  | eof {partialInput rest : Bytes} {core : VirtualSD} (h : s.handler = .running [] partialInput)
      (hpause : s.core.mustPauseWork = false)
      (hread : s.core.readLines partialInput t.read = (core, .eof rest)) :
      TurnOf s t (({ s with core }).exit "")
  | chunk {lines : List Bytes} {partialInput rest : Bytes} {core : VirtualSD}
      (h : s.handler = .running [] partialInput) (hpause : s.core.mustPauseWork = false)
      (hread : s.core.readLines partialInput t.read = (core, .lines lines rest)) :
      TurnOf s t { s with core, handler := .running lines rest }
  | busy {lines : List Bytes} {partialInput : Bytes} (h : s.handler = .running lines partialInput)
      (hpause : s.core.mustPauseWork = false) (hbusy : t.busy = true) : TurnOf s t s
  | line {lines : List Bytes} {partialInput : Bytes} (h : s.handler = .running lines partialInput)
      (hpause : s.core.mustPauseWork = false) (hlines : lines ≠ []) (hbusy : t.busy = false) :
      TurnOf s t (s.runLine lines partialInput t)

theorem turnOf_workTurn (s : VirtualSDModule) (t : Turn) : TurnOf s t (s.workTurn t) := by
  rw [workTurn]
  split
  · next h => exact .idle h
  · next h => exact .start h
  · next lines partialInput h =>
    split
    · next hpause => exact .pause h hpause
    next hpause =>
    have hpause := eq_false_of_ne_true hpause
    split
    · next hlines =>
      obtain rfl : lines = [] := eq_nil_of_length_eq_zero hlines
      split
      · next hread => exact .readError h hpause hread
      · next hread => exact .eof h hpause hread
      · next hread => exact .chunk h hpause hread
    · next hlines =>
      split
      · next hbusy => exact .busy h hpause hbusy
      · next hbusy =>
        exact .line h hpause (fun hnil => hlines (by rw [hnil]; rfl))
          (eq_false_of_ne_true hbusy)

/-- A line that was run ends the handler, or leaves it in its loop. -/
theorem runLine_handler (s : VirtualSDModule) (lines : List Bytes) (partialInput : Bytes)
    (t : Turn) :
    ((s.runLine lines partialInput t).handler = .idle ∧
        s.notes <+: (s.runLine lines partialInput t).notes) ∨
      ((∃ lines' partialInput',
          (s.runLine lines partialInput t).handler = .running lines' partialInput') ∧
        (s.runLine lines partialInput t).notes = s.notes) := by
  rw [runLine]
  dsimp only
  split
  · exact .inl ⟨rfl, prefix_append _ _⟩
  · exact .inr ⟨⟨_, _, rfl⟩, rfl⟩
  · split <;> exact .inr ⟨⟨_, _, rfl⟩, rfl⟩

end VirtualSDModule

/-! ### The file, the buffer and the position -/

open VirtualSD

/-- The raw lines `raws` of the file were run: they are its beginning, up to the position.  While
the handler is in its loop, the lines it holds and the rest follow, up to the offset of the file;
the file is closed at its end only. -/
structure Printing (content : Bytes) (raws : List Bytes) (s : VirtualSDModule) : Prop where
  content_eq : s.core.content = content
  proper : Proper newline raws
  dispatched_eq : s.dispatched = raws.map trimRight
  position : s.core.filePosition = (unlines newline raws).length
  begins : unlines newline raws <+: content
  buffered : ∀ lines partialInput offset, s.handler = .running lines partialInput →
    s.core.currentFile = some offset →
    ∃ pending, lines = pending.reverse ∧ Proper newline pending ∧ newline ∉ partialInput ∧
      offset ≤ content.length ∧
      unlines newline (raws ++ pending) ++ partialInput = content.take offset
  unbuffered : ∀ lines partialInput, s.handler = .running lines partialInput →
    s.core.currentFile = none → lines = []
  closed : s.core.currentFile = none →
    ∃ rest, newline ∉ rest ∧ unlines newline raws ++ rest = content
  noted : .complete ∈ s.notes → s.core.currentFile = none

/-- A turn in which no line seeks the file or fails, and no read does. -/
def Turn.Plain (t : Turn) : Prop := t.result = .done ∧ t.read.isSome

def fullRead : Turn := ⟨some ⟨8192, by decide⟩, false, false, .done⟩

/-- A pause or a resume, or such a turn. -/
def SdEvent.Plain : SdEvent → Prop
  | .turn t => t.Plain
  | _ => True

open VirtualSDModule

variable {content : Bytes} {raws : List Bytes} {s : VirtualSDModule}

theorem printing_load (content : Bytes) : Printing content [] (load content) where
  content_eq := rfl
  proper := fun _ h => absurd h not_mem_nil
  dispatched_eq := rfl
  position := rfl
  begins := nil_prefix
  buffered := fun _ _ _ h => nomatch h
  unbuffered := fun _ _ h => nomatch h
  closed := fun h => nomatch h
  noted := fun h => absurd h not_mem_nil

section

variable (h : Printing content raws s)
include h

/-- What holds of the file and the position holds on, if only the handler changes and is not in its
loop then, or not at all. -/
theorem Printing.of_core {s' : VirtualSDModule}
    (hcontent : s'.core.content = s.core.content) (hfile : s'.core.currentFile = s.core.currentFile)
    (hposition : s'.core.filePosition = s.core.filePosition)
    (hdispatched : s'.dispatched = s.dispatched)
    (hhandler : ∀ lines partialInput, s'.handler = .running lines partialInput →
      s.handler = .running lines partialInput)
    (hnotes : .complete ∈ s'.notes → .complete ∈ s.notes ∨ s.core.currentFile = none) :
    Printing content raws s' where
  content_eq := hcontent.trans h.content_eq
  proper := h.proper
  dispatched_eq := hdispatched.trans h.dispatched_eq
  position := hposition.trans h.position
  begins := h.begins
  buffered := fun lines partialInput offset hrun hoffset =>
    h.buffered lines partialInput offset (hhandler _ _ hrun) (hfile ▸ hoffset)
  unbuffered := fun lines partialInput hrun hnone =>
    h.unbuffered lines partialInput (hhandler _ _ hrun) (hfile ▸ hnone)
  closed := fun hnone => h.closed (hfile ▸ hnone)
  noted := fun hnote => hfile.trans ((hnotes hnote).elim h.noted id)

/-- The handler starts to read at the position. -/
theorem Printing.start : Printing content raws
      { s with
        core := s.core.seekToFilePosition
        handler := .running [] []
        notes := s.notes ++ [.start] } where
  __ := h
  buffered := by
    rintro lines partialInput offset hrun hfile
    cases hrun
    obtain ⟨o, -, rfl⟩ := map_eq_some_iff.mp hfile
    refine ⟨[], rfl, fun _ h => absurd h not_mem_nil, not_mem_nil, ?_, ?_⟩
    · rw [h.position]
      exact h.begins.length_le
    · rw [h.position, append_nil, append_nil]
      exact prefix_iff_eq_take.mp h.begins
  unbuffered := by
    rintro lines partialInput hrun -
    cases hrun
    rfl
  closed := fun hnone => h.closed (map_eq_none_iff.mp hnone)
  noted := fun hnote => map_eq_none_iff.mpr (h.noted (by simpa using hnote))

/-- The handler ends without an error: the print is paused, or complete if the file is closed. -/
theorem Printing.exit : Printing content raws (s.exit "") := by
  refine h.of_core rfl rfl rfl rfl (fun _ _ h => nomatch h) fun hnote => ?_
  rcases mem_append.mp hnote with hnote | hnote
  · exact .inl hnote
  · rw [if_neg (by simp)] at hnote
    split at hnote
    · simp at hnote
    · next hfile => exact .inr (not_isSome_iff_eq_none.mp hfile)

/-- The read that finds nothing: the rest of the buffer is the rest of the file. -/
theorem Printing.eof {partialInput rest : Bytes} {core : VirtualSD}
    {read : Option Chunk} (hrun : s.handler = .running [] partialInput)
    (hread : s.core.readLines partialInput read = (core, .eof rest)) :
    Printing content raws (({ s with core }).exit "") := by
  cases readOf_readLines hread with
  | closed => exact h.exit
  | ended hfile hend =>
    obtain ⟨pending, hpending, -, hrest, -, htext⟩ := h.buffered _ _ _ hrun hfile
    obtain rfl : pending = [] := reverse_eq_nil_iff.mp hpending.symm
    rw [append_nil, take_of_length_le (by rwa [← h.content_eq])] at htext
    exact
      { h with
        buffered := fun _ _ _ h => nomatch h
        unbuffered := fun _ _ h => nomatch h
        closed := fun _ => ⟨partialInput, hrest, htext⟩
        noted := fun _ => rfl }

/-- The read of a chunk. -/
theorem Printing.chunk {lines : List Bytes}
    {partialInput rest : Bytes} {core : VirtualSD} {read : Option Chunk}
    (hrun : s.handler = .running [] partialInput)
    (hread : s.core.readLines partialInput read = (core, .lines lines rest)) :
    Printing content raws { s with core, handler := .running lines rest } := by
  obtain _ | _ | _ | ⟨hfile, -, hsize, hlines⟩ := readOf_readLines hread
  obtain ⟨old, hold, -, hinput, -, htake⟩ := h.buffered _ _ _ hrun hfile
  obtain ⟨pending, rfl, hpending, hrest, -, htext⟩ := hlines hinput
  obtain rfl : old = [] := reverse_eq_nil_iff.mp hold.symm
  exact
    { h with
      buffered := by
        rintro lines partialInput' offset' hrun' hfile'
        cases hrun'
        cases hfile'
        rw [h.content_eq] at hsize htext
        refine ⟨pending, rfl, hpending, hrest, hsize, ?_⟩
        rw [append_nil] at htake
        rw [take_add, ← htake, unlines_append, append_assoc, append_assoc, htext]
      unbuffered := fun _ _ _ h => nomatch h
      closed := fun h => nomatch h
      noted := fun hnote => absurd (hfile.symm.trans (h.noted hnote)) (some_ne_none _) }

/-- A line is run, and the position is moved behind it. -/
theorem Printing.runLine {lines : List Bytes} {partialInput : Bytes}
    (hrun : s.handler = .running lines partialInput) (hlines : lines ≠ []) {t : Turn}
    (ht : t.result = .done) :
    Printing content (raws ++ [lines.getLastD []]) (s.runLine lines partialInput t) := by
  obtain ⟨offset, hfile⟩ : ∃ offset, s.core.currentFile = some offset :=
    ne_none_iff_exists'.mp fun hnone => hlines (h.unbuffered _ _ hrun hnone)
  obtain ⟨pending, rfl, hpending, hrest, hoffset, htext⟩ := h.buffered _ _ _ hrun hfile
  obtain ⟨line, pending, rfl⟩ := exists_cons_of_ne_nil
    (fun hnil => hlines (reverse_eq_nil_iff.mpr hnil))
  obtain ⟨hline, hpending⟩ := forall_mem_cons.mp hpending
  rw [reverse_cons, getLastD_concat, VirtualSDModule.runLine, ht, getLastD_concat, dropLast_concat]
  rw [← singleton_append, ← append_assoc] at htext
  exact
    { content_eq := h.content_eq
      proper := h.proper.append (Proper.cons hline fun _ h => absurd h not_mem_nil)
      dispatched_eq := by
        rw [map_append, ← h.dispatched_eq]
        rfl
      position := by
        show s.core.filePosition + line.length + 1 = _
        rw [unlines_append, length_append, unlines_cons, h.position, length_append]
        rfl
      begins := by
        refine List.IsPrefix.trans ⟨unlines newline pending ++ partialInput, ?_⟩
          (List.take_prefix offset content)
        rw [← htext, ← append_assoc, ← unlines_append]
      buffered := by
        rintro lines partialInput' offset' hrun' hfile'
        cases hrun'
        have hsame : offset = offset' := some_inj.mp (hfile.symm.trans hfile')
        subst hsame
        exact ⟨pending, rfl, hpending, hrest, hoffset, htext⟩
      unbuffered := fun _ _ _ hnone => absurd (hfile.symm.trans hnone) (some_ne_none _)
      closed := fun hnone => absurd (hfile.symm.trans hnone) (some_ne_none _)
      noted := fun hnote => h.noted hnote }

/-- Every pause, resume and plain turn keeps the file, the buffer and the position together. -/
theorem step_printing {e : SdEvent} (he : e.Plain) :
    ∃ raws', Printing content raws' (step s e) := by
  cases e with
  | resume =>
    refine ⟨raws, ?_⟩
    rw [step, doResume]
    split
    · exact h.of_core rfl rfl rfl rfl (fun _ _ h => nomatch h) .inl
    · exact h
  | pause =>
    refine ⟨raws, ?_⟩
    rw [step, doPause]
    split
    · exact h
    · exact h.of_core rfl rfl rfl rfl (fun _ _ h => h) .inl
  | turn t =>
    obtain ⟨hdone, hsome⟩ := he
    show ∃ raws', Printing content raws' (s.workTurn t)
    have hturn := turnOf_workTurn s t
    generalize s.workTurn t = s' at hturn ⊢
    cases hturn with
    | idle hidle => exact ⟨raws, h⟩
    | start hreg => exact ⟨raws, h.start⟩
    | pause hrun hpause => exact ⟨raws, h.exit⟩
    | busy hrun hpause hbusy => exact ⟨raws, h⟩
    | line hrun hpause hlines hbusy => exact ⟨_, h.runLine hrun hlines hdone⟩
    | readError hrun hpause hread => exact absurd hread (readLines_ne_err hsome)
    | eof hrun hpause hread => exact ⟨raws, h.eof hrun hread⟩
    | chunk hrun hpause hread => exact ⟨raws, h.chunk hrun hread⟩

end

/-! ### A print that is left alone ends -/

variable {ts : List Turn} (t : Turn) {partialInput : Bytes}

/-- A plain turn that finds the G-code idle and is not paused. -/
def Turn.Smooth : Prop := t.Plain ∧ t.busy = false ∧ t.pauses = false

/-- The turns that the handler needs at most, in its loop. -/
def workLeft (s : VirtualSDModule) (lines : List Bytes) : ℕ :=
  match s.core.currentFile with
  | some offset => 2 * (s.core.content.length - offset) + lines.length + 1
  | none => 1

theorem notes_workTurn (s : VirtualSDModule) (t : Turn) : s.notes <+: (s.workTurn t).notes := by
  have hturn := turnOf_workTurn s t
  generalize s.workTurn t = s' at hturn ⊢
  cases hturn with
  | idle | chunk | busy => exact prefix_rfl
  | start | pause | readError | eof => exact prefix_append _ _
  | line hrun hpause hlines hbusy =>
    rcases runLine_handler s _ _ t with ⟨-, hnotes⟩ | ⟨-, hnotes⟩
    · exact hnotes
    · exact ⟨[], by rw [hnotes, append_nil]⟩

theorem complete_mem_turns (h : .complete ∈ s.notes) :
    .complete ∈ (final step s (ts.map .turn)).notes := by
  induction ts generalizing s with
  | nil => exact h
  | cons t ts ih => exact ih ((notes_workTurn s t).subset h)

theorem mustPauseWork_workTurn (s : VirtualSDModule) {t : Turn} (ht : t.Smooth) :
    (s.workTurn t).core.mustPauseWork = s.core.mustPauseWork := by
  obtain ⟨⟨hdone, -⟩, -, hpauses⟩ := ht
  have hturn := turnOf_workTurn s t
  generalize s.workTurn t = s' at hturn ⊢
  cases hturn with
  | idle | start | pause | busy => rfl
  | readError hrun hpause hread =>
    obtain ⟨file, rfl⟩ := readLines_core hread
    rfl
  | eof hrun hpause hread =>
    obtain ⟨file, rfl⟩ := readLines_core hread
    rfl
  | chunk hrun hpause hread =>
    obtain ⟨file, rfl⟩ := readLines_core hread
    rfl
  | line hrun hpause hlines hbusy =>
    rw [VirtualSDModule.runLine, hdone]
    simp [commitFilePosition, advanceLine, hpauses]

variable {lines : List Bytes}

/-- A smooth turn in the loop completes the print, or leaves less to do. -/
theorem workTurn_progress (h : Printing content raws s)
    (hrun : s.handler = .running lines partialInput) (hpause : s.core.mustPauseWork = false)
    {t : Turn} (ht : t.Smooth) :
    .complete ∈ (s.workTurn t).notes ∨
      ∃ lines' partialInput', (s.workTurn t).handler = .running lines' partialInput' ∧
        workLeft (s.workTurn t) lines' < workLeft s lines := by
  obtain ⟨⟨hdone, hsome⟩, hbusy, -⟩ := ht
  have hturn := turnOf_workTurn s t
  generalize s.workTurn t = s' at hturn ⊢
  cases hturn with
  | idle hidle =>
    rw [hrun] at hidle
    cases hidle
  | start hreg =>
    rw [hrun] at hreg
    cases hreg
  | pause _ hpause' => simp [hpause] at hpause'
  | busy _ _ hbusy' => simp [hbusy] at hbusy'
  | readError _ _ hread => exact absurd hread (readLines_ne_err hsome)
  | eof _ _ hread =>
    refine .inl (mem_append_right _ ?_)
    rw [if_neg (by simp), if_neg (by simp [currentFile_of_eof hread])]
    exact mem_singleton_self _
  | chunk hrun' _ hread =>
    obtain ⟨rfl, rfl⟩ := Handler.running.inj (hrun.symm.trans hrun')
    obtain _ | _ | _ | ⟨hfile, hpos, hsize, hlines⟩ := readOf_readLines hread
    obtain ⟨pending, rfl, -, -, hcount, -⟩ :=
      hlines (h.buffered _ _ _ hrun hfile).choose_spec.2.2.1
    refine .inr ⟨_, _, rfl, ?_⟩
    simp only [workLeft, hfile, length_reverse, length_nil]
    omega
  | line hrun' _ hlines _ =>
    obtain ⟨rfl, rfl⟩ := Handler.running.inj (hrun.symm.trans hrun')
    obtain ⟨offset, hfile⟩ : ∃ offset, s.core.currentFile = some offset :=
      ne_none_iff_exists'.mp fun hnone => hlines (h.unbuffered _ _ hrun hnone)
    have hcount := length_pos_of_ne_nil hlines
    rw [VirtualSDModule.runLine, hdone]
    refine .inr ⟨_, _, rfl, ?_⟩
    simp only [workLeft, commitFilePosition, advanceLine, hfile, length_dropLast]
    omega

theorem complete_of_running (hts : ∀ t ∈ ts, t.Smooth) (h : Printing content raws s)
    (hrun : s.handler = .running lines partialInput)
    (hpause : s.core.mustPauseWork = false) (hleft : workLeft s lines ≤ ts.length) :
    .complete ∈ (final step s (ts.map .turn)).notes := by
  induction ts generalizing s raws lines partialInput with
  | nil =>
    rw [workLeft] at hleft
    split at hleft <;> simp at hleft
  | cons t ts ih =>
    have ht : t.Smooth := hts t mem_cons_self
    show .complete ∈ (final step (s.workTurn t) (ts.map .turn)).notes
    rcases workTurn_progress h hrun hpause ht with hnote | ⟨lines', partialInput', hrun', hlt⟩
    · exact complete_mem_turns hnote
    · obtain ⟨raws', h'⟩ := step_printing (e := .turn t) h ht.1
      exact ih (fun u hu => hts u (mem_cons_of_mem t hu)) h' hrun'
        ((mustPauseWork_workTurn s ht).trans hpause) (Nat.le_of_lt_succ (hlt.trans_le hleft))

/-- A turn leaves the handler in its loop or ends it, and ends it if a pause was asked for. -/
theorem handler_workTurn (s : VirtualSDModule) (t : Turn) :
    (s.workTurn t).handler = .idle ∨ ∃ lines partialInput,
      (s.workTurn t).handler = .running lines partialInput ∧
        (s.handler = .registered ∨ s.core.mustPauseWork = false) := by
  have hturn := turnOf_workTurn s t
  generalize s.workTurn t = s' at hturn ⊢
  cases hturn with
  | idle h => exact .inl h
  | pause | readError | eof => exact .inl rfl
  | start h => exact .inr ⟨_, _, rfl, .inl h⟩
  | chunk h hpause => exact .inr ⟨_, _, rfl, .inr hpause⟩
  | busy h hpause => exact .inr ⟨_, _, h, .inr hpause⟩
  | line h hpause =>
    rcases runLine_handler s _ _ t with ⟨hidle, -⟩ | ⟨⟨lines, partialInput, hrun⟩, -⟩
    · exact .inl hidle
    · exact .inr ⟨lines, partialInput, hrun, .inr hpause⟩

section

variable (h : Printing content raws s)
include h

/-- No more than two turns for each byte of the file are left in the loop. -/
theorem Printing.workLeft_le {lines : List Bytes} (hrun : s.handler = .running lines partialInput) :
    workLeft s lines ≤ 2 * content.length + 1 := by
  rw [workLeft]
  split
  · next offset hfile =>
    obtain ⟨pending, rfl, hpending, -, hoffset, htext⟩ := h.buffered _ _ _ hrun hfile
    have hlen := congrArg length htext
    rw [unlines_append, length_append, length_append, length_take] at hlen
    have hcount : pending.length ≤ (unlines newline pending).length := by
      rw [← count_unlines hpending]
      exact count_le_length
    rw [length_reverse, h.content_eq]
    omega
  · omega

/-- A handler that is about to start, and not paused, completes the print. -/
theorem complete_of_registered (hreg : s.handler = .registered)
    (hpause : s.core.mustPauseWork = false) (hts : ∀ u ∈ ts, u.Smooth)
    (hlong : 2 * content.length + 2 ≤ ts.length) :
    .complete ∈ (final step s (ts.map .turn)).notes := by
  rcases ts with _ | ⟨t, ts⟩
  · simp at hlong
  have ht := hts t mem_cons_self
  have hstart : (s.workTurn t).handler = .running [] [] := by
    rw [workTurn, hreg]
  obtain ⟨raws', h'⟩ := step_printing (e := .turn t) h ht.1
  show .complete ∈ (final step (s.workTurn t) (ts.map .turn)).notes
  refine complete_of_running (fun u hu => hts u (mem_cons_of_mem t hu)) h' hstart
    ((mustPauseWork_workTurn s ht).trans hpause) ((h'.workLeft_le hstart).trans ?_)
  rw [length_cons] at hlong
  omega

/-- Two turns for a pause that was asked for, a resume, and then enough turns: the print is
complete. -/
theorem complete_of_resume {t t' : Turn} (ht : t.Smooth)
    (ht' : t'.Smooth) (hts : ∀ u ∈ ts, u.Smooth) (hlong : 2 * content.length + 2 ≤ ts.length) :
    .complete ∈ (final step s (.turn t :: .turn t' :: .resume :: ts.map .turn)).notes := by
  obtain ⟨raws₁, h₁⟩ := step_printing (e := .turn t) h ht.1
  obtain ⟨raws₂, h₂⟩ := step_printing (e := .turn t') h₁ ht'.1
  obtain ⟨raws₃, h₃⟩ := step_printing (e := .resume) h₂ trivial
  show .complete ∈ (final step ((s.workTurn t).workTurn t').doResume (ts.map .turn)).notes
  rcases handler_workTurn (s.workTurn t) t' with hidle | ⟨lines, partialInput, hrun, hnot⟩
  · -- the handler has ended, and is registered again
    have hresume : ((s.workTurn t).workTurn t').doResume.handler = .registered ∧
        ((s.workTurn t).workTurn t').doResume.core.mustPauseWork = false := by
      rw [doResume, hidle]
      exact ⟨rfl, rfl⟩
    exact complete_of_registered h₃ hresume.1 hresume.2 hts hlong
  · -- it is in its loop, and no pause was asked for
    have hbusy : ((s.workTurn t).workTurn t').doResume = (s.workTurn t).workTurn t' := by
      rw [doResume, hrun]
    have hpause : (s.workTurn t).core.mustPauseWork = false := by
      refine hnot.resolve_left fun hreg => ?_
      rcases handler_workTurn s t with hidle | ⟨_, _, hrun', -⟩
      · rw [hreg] at hidle
        cases hidle
      · rw [hreg] at hrun'
        cases hrun'
    rw [hbusy]
    exact complete_of_running hts h₂ hrun ((mustPauseWork_workTurn _ ht').trans hpause)
      ((h₂.workLeft_le hrun).trans (by omega))

end

/-! ### The whole print -/

/-- A file of lines is printed, with pauses and resumes at any time.  The lines run so far are the
first lines of the file, in order, and the position is the offset of the next one; when the
print is noted as complete, they are all.  And it is, if after all that it is resumed and left
alone for long enough. -/
theorem print_once (lines : List Bytes) (hlines : Proper newline lines) (es : List SdEvent)
    (hes : ∀ e ∈ es, e.Plain) :
    let content := unlines newline lines
    let s := final step (load content) es
    (∃ k ≤ lines.length, s.dispatched = (lines.take k).map trimRight ∧
        s.core.filePosition = (unlines newline (lines.take k)).length ∧
        (.complete ∈ s.notes → k = lines.length)) ∧
      ∀ (t t' : Turn) (ts : List Turn), t.Smooth → t'.Smooth → (∀ u ∈ ts, u.Smooth) →
        2 * content.length + 2 ≤ ts.length →
        .complete ∈ (final step s (.turn t :: .turn t' :: .resume :: ts.map .turn)).notes := by
  intro content s
  obtain ⟨raws, h⟩ : ∃ raws, Printing content raws s :=
    final_of_invariant (I := fun s => ∃ raws, Printing content raws s) (G := fun _ e => e.Plain)
      (fun _ _ ⟨_, h⟩ he => step_printing h he) ⟨[], printing_load content⟩ (along_of_forall hes)
  refine ⟨?_, fun t t' ts ht ht' hts hlong => complete_of_resume h ht ht' hts hlong⟩
  obtain ⟨tail, htail⟩ := h.begins
  obtain ⟨rest, rfl, hrest⟩ := unlines_prefix h.proper hlines htail
  refine ⟨raws.length, by simp, ?_, ?_, ?_⟩
  · rw [take_left]
    exact h.dispatched_eq
  · rw [take_left]
    exact h.position
  · intro hnote
    obtain ⟨last, hlast, htext⟩ := h.closed (h.noted hnote)
    have hall : unlines newline raws ++ last = unlines newline (raws ++ rest) ++ [] := by
      rw [append_nil]
      exact htext
    obtain ⟨hraws, -⟩ := unlines_append_inj h.proper hlast hlines not_mem_nil hall
    rw [← hraws]

/-- Two lines, the second with a carriage return; a pause after the first, and a resume. -/
theorem print_once_paused :
    let lines : List Bytes := [[71, 49], [71, 50, carriageReturn]]
    let turn : SdEvent := .turn fullRead
    let es := [.resume, turn, turn, turn, .pause, turn, .resume, turn, turn, turn, turn]
    ∃ k ≤ lines.length,
      (final step (load (unlines newline lines)) es).dispatched = (lines.take k).map trimRight ∧
        (final step (load (unlines newline lines)) es).core.filePosition =
          (unlines newline (lines.take k)).length ∧
        (.complete ∈ (final step (load (unlines newline lines)) es).notes → k = lines.length) := by
  intro lines turn es
  exact (print_once lines (by decide) es
    (by simp [es, turn, SdEvent.Plain, Turn.Plain, fullRead])).1

/-! ### Prints that are complete -/

/-- The lines of a file: what stands behind the last newline is one too, if there is anything. -/
def fileLines (content : Bytes) : List Bytes :=
  let pieces := splitOn newline content
  if pieces.getLastD [] = [] then pieces.dropLast else pieces

/-- The turn finds the handler in its loop and the open file at its end. -/
def FinishesByEof (s : VirtualSDModule) (t : Turn) : Prop :=
  ∃ partialInput offset, s.handler = .running [] partialInput ∧ s.core.mustPauseWork = false ∧
    s.core.currentFile = some offset ∧ s.core.content.length ≤ offset ∧ t.read.isSome

def SdEvent.NoSeek : SdEvent → Prop
  | .turn t => ∀ pos, t.result ≠ .seek pos
  | _ => True

/-- A file that is not empty ends with a newline just if nothing stands behind its lines. -/
theorem getLast?_unlines {rest : Bytes} (hrest : newline ∉ rest)
    (hne : unlines newline lines ++ rest ≠ []) :
    (unlines newline lines ++ rest).getLast? = some newline ↔ rest = [] := by
  constructor
  · intro hlast
    by_contra hnil
    rw [getLast?_append_of_ne_nil _ hnil] at hlast
    exact hrest (mem_of_getLast? hlast)
  · rintro rfl
    obtain ⟨init, line, rfl⟩ :=
      (eq_nil_or_concat' lines).resolve_left fun h => hne (by rw [h]; rfl)
    rw [unlines_append, unlines_cons]
    simp

/-- A file that is closed stays closed. -/
theorem closed_step (h : s.core.currentFile = none) (e : SdEvent) :
    (step s e).core.currentFile = none := by
  cases e with
  | resume =>
    rw [step, doResume]
    split <;> exact h
  | pause =>
    rw [step, doPause]
    split
    · exact h
    · exact h
  | turn t =>
    show (s.workTurn t).core.currentFile = none
    have hturn := turnOf_workTurn s t
    generalize s.workTurn t = s' at hturn ⊢
    cases hturn with
    | idle | busy | pause => exact h
    | start => exact map_eq_none_iff.mpr h
    | readError => rfl
    | eof _ _ hread =>
      have hclosed := currentFile_of_eof hread
      exact hclosed
    | chunk _ _ hread =>
      obtain _ | _ | _ | ⟨hfile, -⟩ := readOf_readLines hread
      cases hfile.symm.trans h
    | line =>
      rw [VirtualSDModule.runLine]
      dsimp only
      split
      · rfl
      · exact h
      · split
        · exact map_eq_none_iff.mpr h
        · exact h

/-- Without seeks, the print is as it should be as long as the file is open. -/
theorem step_open {e : SdEvent} (he : e.NoSeek)
    (h : s.core.currentFile = none ∨ ∃ raws, Printing content raws s) :
    (step s e).core.currentFile = none ∨ ∃ raws, Printing content raws (step s e) := by
  rcases h with h | ⟨raws, h⟩
  · exact .inl (closed_step h e)
  cases e with
  | resume => exact .inr (step_printing h trivial)
  | pause => exact .inr (step_printing h trivial)
  | turn t =>
    by_cases hplain : t.Plain
    · exact .inr (step_printing h hplain)
    show (s.workTurn t).core.currentFile = none ∨ ∃ raws, Printing content raws (s.workTurn t)
    have hturn := turnOf_workTurn s t
    generalize s.workTurn t = s' at hturn ⊢
    cases hturn with
    | idle | busy => exact .inr ⟨raws, h⟩
    | start => exact .inr ⟨raws, h.start⟩
    | pause => exact .inr ⟨raws, h.exit⟩
    | readError => exact .inl rfl
    | eof _ _ hread =>
      have hclosed := currentFile_of_eof hread
      exact .inl hclosed
    | chunk hrun _ hread => exact .inr ⟨raws, h.chunk hrun hread⟩
    | line hrun _ hlines =>
      rcases hresult : t.result with _ | pos | errorMessage
      · exact .inr ⟨_, h.runLine hrun hlines hresult⟩
      · exact absurd hresult (he pos)
      · rw [VirtualSDModule.runLine, hresult]
        exact .inl rfl

/-- A print that ends at the end of its file is noted as complete.  All lines of the file were run
by then just if the file ends with a newline. -/
theorem complete_iff (content : Bytes) (hne : content ≠ []) (es : List SdEvent)
    (hes : ∀ e ∈ es, e.NoSeek) (t : Turn)
    (heof : FinishesByEof (final step (load content) es) t) :
    let s := final step (load content) (es ++ [.turn t])
    s.notes.getLast? = some .complete ∧
      (s.dispatched = (fileLines content).map trimRight ↔ content.getLast? = some newline) := by
  intro s
  have hs : s = (final step (load content) es).workTurn t := final_append _ _ _
  have hopen := final_of_invariant
    (I := fun s => s.core.currentFile = none ∨ ∃ raws, Printing content raws s)
    (G := fun _ (e : SdEvent) => e.NoSeek) (fun _ _ h he => step_open he h)
    (.inr ⟨[], printing_load content⟩) (along_of_forall hes)
  generalize final step (load content) es = before at hs heof hopen
  obtain ⟨partialInput, offset, hrun, hpause, hfile, hend, hread⟩ := heof
  obtain ⟨n, hn⟩ := isSome_iff_exists.mp hread
  have hturn : before.workTurn t =
      ({ before with core := before.core.closeCurrentFile }).exit "" := by
    rw [workTurn, hrun]
    dsimp only
    rw [if_neg (by simp [hpause]), if_pos length_nil, hn, readLines_eof hfile _ _ hend]
  obtain ⟨raws, h⟩ := hopen.resolve_left (by rw [hfile]; exact some_ne_none _)
  obtain ⟨pending, hpending, -, hrest, -, htext⟩ := h.buffered _ _ _ hrun hfile
  obtain rfl : pending = [] := reverse_eq_nil_iff.mp hpending.symm
  rw [append_nil, take_of_length_le (by rw [← h.content_eq]; exact hend)] at htext
  rw [hs, hturn]
  refine ⟨by simp [exit, closeCurrentFile], ?_⟩
  show before.dispatched = _ ↔ _
  subst htext
  rw [h.dispatched_eq, fileLines, splitOn_unlines_append h.proper hrest, getLastD_concat,
    dropLast_concat, getLast?_unlines hrest hne]
  constructor
  · intro hall
    by_contra hrest
    rw [if_neg hrest] at hall
    simpa using congrArg length hall
  · intro hrest
    rw [if_pos hrest]

/-- A line with its newline, read at once. -/
theorem complete_iff_one :
    let es : List SdEvent := [.resume, .turn fullRead, .turn fullRead, .turn fullRead]
    FinishesByEof (final step (load [71, 49, newline]) es) fullRead ∧
      (final step (load [71, 49, newline]) (es ++ [.turn fullRead])).dispatched =
        (fileLines [71, 49, newline]).map trimRight := by
  have heof : FinishesByEof (final step (load [71, 49, newline])
      [.resume, .turn fullRead, .turn fullRead, .turn fullRead]) fullRead :=
    ⟨[], 3, rfl, rfl, rfl, by decide, rfl⟩
  exact ⟨heof, (complete_iff _ (by decide) _ (by simp [SdEvent.NoSeek, fullRead]) _ heof).2.mpr rfl⟩

/-- A line without a newline is never run, and the print is complete. -/
theorem complete_without_last_line :
    let es : List SdEvent := [.resume, .turn fullRead, .turn fullRead]
    let s := final step (load [71, 49]) (es ++ [.turn fullRead])
    FinishesByEof (final step (load [71, 49]) es) fullRead ∧
      s.notes.getLast? = some .complete ∧ s.dispatched ≠ (fileLines [71, 49]).map trimRight :=
  ⟨⟨[71, 49], 2, rfl, rfl, rfl, by decide, rfl⟩, rfl, by decide⟩

end Addon
