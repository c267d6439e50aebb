/-
The command dispatcher (`internal/pkg/gcode/dispatch_runtime.go`,
`internal/pkg/gcode/gcode_parse_helpers.go`).

A name is registered if it looks like a traditional code or is made of upper
case letters, digits and underscores.  A line is read by another grammar: it is
cut into words, each word into runs of value characters and of other characters,
and the command is made of the first two runs, or of what follows a line number.

* `flatten_parseGcodeTokens` — the tokens are the text without its white space;
* `command_of_callable`, `callable_of_command` — which names the line parser gives back.
-/
import KlipperGo.GoRuntime
import KlipperGo.GoStrings
import KlipperGo.Returns
import KlipperGo.Runs

open GoRuntime GoStrings Outcome Runs List Function Option

namespace Gcode

/-! ### The grammar of names -/

variable (u : UnicodeTables) (part : List Char) {w : List Char} (input cmd : List Char)
  (parts : List (List Char))

def isCommandValid : Bool :=
  if cmd.map u.toUpper ≠ cmd then false
  else if !(cmd.map fun c => if c = '_' then 'A' else c).all
      (fun r => u.isLetter r || u.isDigit r) then false
  else if cmd[0]?.any u.isDigit then false
  else if cmd[1]?.any u.isDigit then false
  else true

def isTraditionalGCode : Bool :=
  let cmd := (cmd.map u.toUpper).takeWhile (· ≠ ' ')
  cmd[0]?.any u.isUpper && cmd[1]?.any u.isDigit

/-! ### The grammar of lines -/

def isValuePart (c : Char) : Bool := c.isDigit || c = '.' || c = '-'

variable (line : List Char)

/-- `GetKey`: the key, and the rest of the line. -/
def getKey : List Char × List Char :=
  (line.takeWhile (fun c => !isValuePart c), line.dropWhile (fun c => !isValuePart c))

/-- `GetVal`: the value, and the rest of the line. -/
def getVal : List Char × List Char :=
  (line.takeWhile isValuePart, line.dropWhile isValuePart)

theorem getKey_append : (getKey line).1 ++ (getKey line).2 = line :=
  takeWhile_append_dropWhile

theorem getVal_append : (getVal line).1 ++ (getVal line).2 = line :=
  takeWhile_append_dropWhile

/-- What is left of a word after its first key and value. -/
def afterPair : List Char := (getVal (getKey part).2).2

theorem pair_append : (getKey part).1 ++ ((getVal (getKey part).2).1 ++ afterPair part) = part := by
  rw [afterPair, getVal_append, getKey_append]

theorem length_afterPair_lt {part : List Char} (h : part ≠ []) :
    (afterPair part).length < part.length := by
  obtain ⟨c, rest, rfl⟩ := exists_cons_of_ne_nil h
  have hval := (dropWhile_sublist (l := (getKey (c :: rest)).2) isValuePart).length_le
  have hkey := (dropWhile_sublist (l := rest) (fun c => !isValuePart c)).length_le
  by_cases hc : isValuePart c
  · -- the key is empty, and the value takes the first character
    have hrest := (dropWhile_sublist (l := rest) isValuePart).length_le
    simp only [afterPair, getVal, getKey, dropWhile_cons, hc, length_cons]
    simp only [Bool.not_true, Bool.false_eq_true, if_false, dropWhile_cons, hc, if_true]
    omega
  · simp only [getKey, dropWhile_cons, hc] at hval
    simp only [afterPair, getVal, getKey, dropWhile_cons, hc, length_cons]
    simp only [Bool.not_false, if_true] at hval ⊢
    omega

def partTokens (part : List Char) : List (List Char) :=
  if part = [] then []
  else (getKey part).1 :: (getVal (getKey part).2).1 :: partTokens (afterPair part)
termination_by part.length
decreasing_by exact length_afterPair_lt ‹_›

theorem partTokens_nil : partTokens [] = [] := by
  rw [partTokens, if_pos rfl]

theorem partTokens_of_ne {part : List Char} (h : part ≠ []) : partTokens part =
      (getKey part).1 :: (getVal (getKey part).2).1 :: partTokens (afterPair part) := by
  rw [partTokens, if_neg h]

theorem flatten_partTokens : (partTokens part).flatten = part := by
  induction part using partTokens.induct with
  | case1 => rw [partTokens_nil, flatten_nil]
  | case2 part h ih =>
    rw [partTokens_of_ne h, flatten_cons, flatten_cons, ih, pair_append]

def parseGcodeTokens : List (List Char) :=
  [] :: (fields input).flatMap partTokens

theorem flatten_flatMap_partTokens (words : List (List Char)) :
    (words.flatMap partTokens).flatten = words.flatten := by
  induction words with
  | nil => rfl
  | cons w l ih =>
    rw [flatMap_cons, flatten_append, flatten_partTokens, ih, flatten_cons]

theorem flatten_parseGcodeTokens : (parseGcodeTokens input).flatten = (fields input).flatten := by
  rw [parseGcodeTokens, flatten_cons, nil_append, flatten_flatMap_partTokens]

/-- The tokens of a line that begins with a word are first those of the word. -/
theorem parseGcodeTokens_append {w r : List Char} (hw : w ≠ [])
    (hs : ∀ c ∈ w, isSpace c = false) (hr : Follows r) :
    ∃ more, parseGcodeTokens (w ++ r) =
      [] :: (getKey w).1 :: (getVal (getKey w).2).1 :: (partTokens (afterPair w) ++ more) := by
  obtain ⟨rest, h⟩ := fields_append hw hs hr
  refine ⟨rest.flatMap partTokens, ?_⟩
  rw [parseGcodeTokens, h, flatMap_cons, partTokens_of_ne hw]
  rfl

/-- The tokens of a single word. -/
theorem parseGcodeTokens_word (hw : w ≠ []) (hs : ∀ c ∈ w, isSpace c = false) : parseGcodeTokens w =
      [] :: (getKey w).1 :: (getVal (getKey w).2).1 :: partTokens (afterPair w) := by
  have hsplit : fields w = [w] := by
    rw [fields, splitOnP_eq_singleton hs]
    simp [hw]
  rw [parseGcodeTokens, hsplit, flatMap_singleton, partTokens_of_ne hw]

/-- The command that the tokens of a line stand for: with a line number, what follows it. -/
def commandOf : List Char :=
  if 3 ≤ parts.length ∧ parts[1]? = some ['N'] then trimSpace (parts.drop 3).flatten
  else if 3 ≤ parts.length then trimSpace (parts.take 3).flatten
  else []

theorem length_commandOf_le : (commandOf parts).length ≤ parts.flatten.length := by
  have hsplit : parts.flatten.length =
      (parts.take 3).flatten.length + (parts.drop 3).flatten.length := by
    rw [← length_append, ← flatten_append, take_append_drop]
  unfold commandOf
  split
  · have h := length_trimFunc_le isSpace (parts.drop 3).flatten
    rw [trimSpace]
    omega
  · split
    · have h := length_trimFunc_le isSpace (parts.take 3).flatten
      rw [trimSpace]
      omega
    · exact Nat.zero_le _

theorem commandOf_pair (key val : List Char) (more : List (List Char)) :
    commandOf ([] :: key :: val :: more) =
      if key = ['N'] then trimSpace more.flatten else trimSpace (key ++ val) := by
  by_cases hkey : key = ['N']
  · rw [commandOf, if_pos (by simpa using hkey), if_pos hkey]
    rfl
  · rw [commandOf, if_neg (by simpa using hkey), if_pos (by simp), if_neg hkey]
    simp

/-- A word of one key and value is the command. -/
theorem commandOf_word (hs : ∀ c ∈ w, isSpace c = false) (hafter : afterPair w = [])
    (hkey : (getKey w).1 ≠ ['N']) (more : List (List Char)) :
    commandOf ([] :: (getKey w).1 :: (getVal (getKey w).2).1 :: more) = w := by
  have hpair := pair_append w
  rw [hafter, append_nil] at hpair
  rw [commandOf_pair, if_neg hkey, hpair]
  exact trimFunc_of_word hs

/-- A word that is as long as its command is one key and value. -/
theorem pair_of_length_command (hw : w ≠ []) (hs : ∀ c ∈ w, isSpace c = false)
    (h : w.length ≤ (commandOf (parseGcodeTokens w)).length) :
    afterPair w = [] ∧ (getKey w).1 ≠ ['N'] := by
  have hafter := length_afterPair_lt hw
  have hpair := congrArg List.length (pair_append w)
  rw [length_append, length_append] at hpair
  rw [parseGcodeTokens_word hw hs, commandOf_pair] at h
  by_cases hkey : (getKey w).1 = ['N']
  · -- what follows a line number is shorter than the word
    have hle := length_trimFunc_le isSpace (afterPair w)
    rw [if_pos hkey, flatten_partTokens, trimSpace] at h
    omega
  · have hle := length_trimFunc_le isSpace ((getKey w).1 ++ (getVal (getKey w).2).1)
    rw [length_append] at hle
    rw [if_neg hkey, trimSpace] at h
    exact ⟨eq_nil_of_length_eq_zero (by omega), hkey⟩

abbrev Params := String → Option String

/-- The parameters of a line: keys and values alternate, and a later value replaces an earlier
one. -/
def setParams (params : Params) : List (List Char) → Params
  | key :: value :: rest =>
    setParams (update params (String.ofList key) (some (String.ofList (trimSpace value))))
      rest
  | _ => params

structure ParsedDispatchCommand where
  originalLine : String
  command : String
  params : Params

/-- The line the tokens are read from: without the blanks around it and without its comment, in
upper case. -/
def commandText : List Char :=
  ((trimFunc (· = ' ') input).takeWhile (· ≠ ';')).map u.toUpper

def parseDispatchCommandLine (input : String) : ParsedDispatchCommand :=
  let parts := parseGcodeTokens (commandText u input.toList)
  { originalLine := String.ofList (trimFunc (· = ' ') input.toList)
    command := String.ofList (commandOf parts)
    params := setParams (fun _ => none) (parts.drop 1) }

/-! ### The table of handlers -/

/-- A handler as it is stored: `wrapExtendedCommand` keeps the name it wraps. -/
inductive Entry (H : Type*) where
  | traditional (handler : H)
  | extended (cmd : String) (handler : H)
  deriving DecidableEq

def Entry.handler {H : Type*} : Entry H → H
  | .traditional handler => handler
  | .extended _ handler => handler

/-- `DispatchRuntime`.  The active handlers are the ready ones once the printer is ready, and the
base ones before. -/
structure DispatchRuntime (H : Type*) where
  baseHandlers : String → Option (Entry H)
  readyHandlers : String → Option (Entry H)
  help : String → Option String
  isPrinterReady : Bool

namespace DispatchRuntime

variable {H : Type*}

def newDispatchRuntime : DispatchRuntime H :=
  { baseHandlers := fun _ => none, readyHandlers := fun _ => none, help := fun _ => none
    isPrinterReady := false }

def activeHandlers (self : DispatchRuntime H) : String → Option (Entry H) :=
  if self.isPrinterReady then self.readyHandlers else self.baseHandlers

def setReady (self : DispatchRuntime H) (ready : Bool) : DispatchRuntime H :=
  { self with isPrinterReady := ready }

variable (u : UnicodeTables)

section

variable (self : DispatchRuntime H)

/-- `RegisterCommand`.  Without a handler it removes the command and returns the old entry. -/
def registerCommand (cmd : String) (handler : Option H) (whenNotReady : Bool) (desc : String) :
    Except Panic (DispatchRuntime H × Option (Entry H)) :=
  match handler with
  | none =>
    .ok ({ self with
      readyHandlers := update self.readyHandlers cmd none
      baseHandlers := update self.baseHandlers cmd none }, self.readyHandlers cmd)
  | some handler =>
    if (self.readyHandlers cmd).isSome then
      .error (.value ["gcode command ", cmd, " already registered"])
    else if !isTraditionalGCode u cmd.toList && !isCommandValid u cmd.toList then
      .error (.value ["Can't register '", cmd, "' as it is an invalid name"])
    else
      let wrapped :=
        if isTraditionalGCode u cmd.toList then .traditional handler else .extended cmd handler
      .ok ({ self with
        readyHandlers := update self.readyHandlers cmd (some wrapped)
        baseHandlers :=
          if whenNotReady then update self.baseHandlers cmd (some wrapped)
          else self.baseHandlers
        help := if desc ≠ "" then update self.help cmd (some desc) else self.help },
        none)

/-- The handler that `ProcessCommands` calls for a line, with the name it is looked up under. -/
def lookup (line : String) : Option (String × Entry H) :=
  let parsed := parseDispatchCommandLine u line
  (self.activeHandlers parsed.command).map fun entry => (parsed.command, entry)

/-- The line is dispatched to the handler that is registered under the name. -/
def DispatchesTo (line cmd : String) (handler : H) : Prop :=
  ∃ entry, self.lookup u line = some (cmd, entry) ∧ entry.handler = handler

end

/-- What happens to the runtime between two lines. -/
inductive Op (H : Type*) where
  | registerCommand (cmd : String) (handler : Option H) (whenNotReady : Bool) (desc : String)
  | setReady (ready : Bool)

/-- One operation; a registration that panics leaves the tables as they are. -/
def step (self : DispatchRuntime H) : Op H → DispatchRuntime H
  | .registerCommand cmd handler whenNotReady desc =>
    match self.registerCommand u cmd handler whenNotReady desc with
    | .ok (self', _) => self'
    | .error _ => self
  | .setReady ready => self.setReady ready

def Op.Removes (cmd : String) : Op H → Prop
  | .registerCommand cmd' none _ _ => cmd' = cmd
  | _ => False

end DispatchRuntime

/-! ### Names that the line parser gives back -/

/-- The name is one word in upper case, nothing follows its first value, and it does not start a
line number. -/
def Callable (u : UnicodeTables) (cmd : List Char) : Prop :=
  cmd ≠ [] ∧ cmd.map u.toUpper = cmd ∧ (∀ c ∈ cmd, isSpace c = false) ∧ ';' ∉ cmd ∧
    afterPair cmd = [] ∧ (getKey cmd).1 ≠ ['N']

instance (u : UnicodeTables) (cmd : List Char) : Decidable (Callable u cmd) := by
  unfold Callable
  haveI : Decidable (∀ c ∈ cmd, isSpace c = false) := List.decidableBAll _ cmd
  infer_instance

section

variable {u : UnicodeTables} {w r : List Char}

theorem toUpper_blank (u : UnicodeTables) : u.toUpper ' ' = ' ' := u.toUpper_ascii ' ' (by decide)

/-- The text of a call keeps the name, and what follows it still begins with a blank. -/
theorem commandText_append (h : Callable u w) (hr : Follows r) :
    ∃ r', Follows r' ∧ commandText u (w ++ r) = w ++ r' := by
  obtain ⟨hw, hup, hs, hc, -, -⟩ := h
  have hblank : ∀ c ∈ w, decide (c = ' ') = false := by
    intro c hcw
    rw [decide_eq_false_iff_not]
    rintro rfl
    exact absurd (hs _ hcw) (by rw [isSpace_blank]; decide)
  obtain ⟨r₁, hr₁, htrim⟩ := trimFunc_append (r := r) hw hblank
  have hcut : (w ++ r₁).takeWhile (· ≠ ';') = w ++ r₁.takeWhile (· ≠ ';') := by
    refine takeWhile_append_of_pos fun c hcw => decide_eq_true fun hcs => ?_
    exact hc (hcs ▸ hcw)
  refine ⟨(r₁.takeWhile (· ≠ ';')).map u.toUpper, ?_, ?_⟩
  · have hf : Follows (r₁.takeWhile (· ≠ ';')) :=
      hr.prefix ((List.takeWhile_prefix _).trans hr₁)
    intro c hcr
    rw [head?_map, mem_def, map_eq_some_iff] at hcr
    obtain ⟨d, hd, rfl⟩ := hcr
    rw [hf d hd, toUpper_blank]
  · rw [commandText, htrim, hcut, map_append, hup]

theorem command_of_callable (h : Callable u w) (hr : Follows r) :
    commandOf (parseGcodeTokens (commandText u (w ++ r))) = w := by
  obtain ⟨r', hr', htext⟩ := commandText_append h hr
  obtain ⟨hw, -, hs, -, hafter, hkey⟩ := h
  obtain ⟨more, htokens⟩ := parseGcodeTokens_append hw hs hr'
  rw [htext, htokens, commandOf_word hs hafter hkey]

/-- The lengths along the parse: nothing is added on the way from the line to its command. -/
theorem length_command_le (u : UnicodeTables) (w : List Char) :
    (commandOf (parseGcodeTokens (commandText u w))).length ≤
        (fields (commandText u w)).flatten.length ∧
      (fields (commandText u w)).flatten.length ≤ (commandText u w).length ∧
      (commandText u w).length ≤ (trimFunc (· = ' ') w).length ∧
      (trimFunc (· = ' ') w).length ≤ w.length := by
  refine ⟨?_, length_flatten_fields_le _, ?_, length_trimFunc_le _ w⟩
  · rw [← flatten_parseGcodeTokens]
    exact length_commandOf_le _
  · rw [commandText, length_map]
    exact (takeWhile_sublist _).length_le

/-- A line that gives back itself as its command has lost nothing on the way, so it was a
callable name. -/
theorem callable_of_command (hw : w ≠ [])
    (h : commandOf (parseGcodeTokens (commandText u w)) = w) : Callable u w := by
  obtain ⟨h₁, h₂, h₃, h₄⟩ := length_command_le u w
  rw [h] at h₁
  -- all the lengths are the same, so no step of the parse drops anything
  have htrim : trimFunc (· = ' ') w = w := trimFunc_of_length (by omega)
  have hcut : w.takeWhile (· ≠ ';') = w := by
    have hlen : (commandText u w).length = (w.takeWhile (· ≠ ';')).length := by
      rw [commandText, htrim, length_map]
    exact (takeWhile_sublist _).eq_of_length (by omega)
  have htext : commandText u w = w.map u.toUpper := by rw [commandText, htrim, hcut]
  rw [htext] at h h₁ h₂
  have hs := isSpace_of_length_flatten_fields (s := w.map u.toUpper) (by
    rw [length_map] at h₂ ⊢
    omega)
  have hne : w.map u.toUpper ≠ [] := by simpa using hw
  obtain ⟨hnil, hkey⟩ := pair_of_length_command hne hs (by rw [h, length_map])
  have hup : w.map u.toUpper = w := by
    rw [parseGcodeTokens_word hne hs, commandOf_word hs hnil hkey] at h
    exact h
  rw [hup] at hs hnil hkey
  refine ⟨hw, hup, hs, ?_, hnil, hkey⟩
  intro hmem
  exact of_decide_eq_true (takeWhile_eq_self_iff.mp hcut _ hmem) rfl

/-- A line that calls the name: the name alone, or the name, a blank and any text. -/
def IsCall (cmd line : String) : Prop := line = cmd ∨ ∃ text, line = cmd ++ " " ++ text

theorem IsCall.follows {cmd line : String} (h : IsCall cmd line) :
    ∃ r, Follows r ∧ line.toList = cmd.toList ++ r := by
  rcases h with rfl | ⟨text, rfl⟩
  · exact ⟨[], by simp [Follows], by simp⟩
  · refine ⟨' ' :: text.toList, ?_, ?_⟩
    · intro c hc
      exact (some_inj.mp hc).symm
    · rw [String.toList_append, String.toList_append, append_assoc]
      rfl

/-- Exactly the callable names are given back by all their calls. -/
theorem parse_call_iff (u : UnicodeTables) (cmd : String) :
    (∀ line, IsCall cmd line → (parseDispatchCommandLine u line).command = cmd) ↔
      Callable u cmd.toList := by
  constructor
  · intro h
    have halone := congrArg String.toList (h cmd (.inl rfl))
    rw [parseDispatchCommandLine, String.toList_ofList] at halone
    refine callable_of_command ?_ halone
    intro hempty
    -- the empty name: a call with the text 1 is the command 1
    have hone : Callable u ['1'] := by
      refine ⟨by decide, ?_, ?_, by decide, by decide, by decide⟩
      · rw [map_singleton, u.toUpper_ascii '1' (by decide)]
        decide
      · intro c hc
        rw [mem_singleton.mp hc]
        decide
    have hcall := congrArg String.toList (h (cmd ++ " " ++ "1") (.inr ⟨"1", rfl⟩))
    rw [parseDispatchCommandLine, String.toList_ofList, String.toList_append,
      String.toList_append, hempty] at hcall
    have htext : commandText u ([] ++ " ".toList ++ "1".toList) = commandText u (['1'] ++ []) := by
      rfl
    rw [htext, command_of_callable hone (by simp [Follows])] at hcall
    exact absurd hcall (by decide)
  · intro h line hline
    obtain ⟨r, hr, hlist⟩ := hline.follows
    rw [parseDispatchCommandLine, hlist, command_of_callable h hr, String.ofList_toList]

end

/-! ### Registered commands -/

namespace DispatchRuntime

variable {H : Type*} {u : UnicodeTables} {self : DispatchRuntime H} {cmd : String} {handler : H}

def Registered (self : DispatchRuntime H) (cmd : String) (handler : H) (whenNotReady : Bool) :
    Prop :=
  ∃ entry : Entry H, entry.handler = handler ∧ self.readyHandlers cmd = some entry ∧
    (whenNotReady = true → self.baseHandlers cmd = some entry)

variable {whenNotReady : Bool} {self' : DispatchRuntime H}

/-- What a registration with a handler does if it does not panic. -/
theorem registerCommand_ok {old : Option (Entry H)} {desc : String}
    (h : self.registerCommand u cmd (some handler) whenNotReady desc = .ok (self', old)) :
    self.readyHandlers cmd = none ∧ ∃ entry : Entry H, entry.handler = handler ∧
      self'.readyHandlers = update self.readyHandlers cmd (some entry) ∧
      self'.baseHandlers =
        if whenNotReady then update self.baseHandlers cmd (some entry)
        else self.baseHandlers := by
  simp only [registerCommand] at h
  split at h
  · cases h
  · next hfree =>
    split at h
    · cases h
    · cases h
      refine ⟨by simpa using hfree, _, ?_, rfl, rfl⟩
      split <;> rfl

theorem registered_of_registerCommand {old : Option (Entry H)} {desc : String}
    (h : self.registerCommand u cmd (some handler) whenNotReady desc = .ok (self', old)) :
    self'.Registered cmd handler whenNotReady := by
  obtain ⟨-, entry, hentry, hready, hbase⟩ := registerCommand_ok h
  refine ⟨entry, hentry, ?_, ?_⟩
  · rw [hready, update_self]
  · intro hnot
    rw [hbase, if_pos hnot, update_self]

/-- A command stays in the tables through every operation that does not remove it. -/
theorem registered_step {op : Op H} (hop : ¬ op.Removes cmd)
    (h : self.Registered cmd handler whenNotReady) :
    (self.step u op).Registered cmd handler whenNotReady := by
  obtain ⟨entry, hentry, hready, hbase⟩ := h
  rcases op with ⟨cmd', handler', whenNotReady', desc⟩ | ready
  · rcases handler' with _ | handler'
    · -- a removal of another command
      have hne : cmd ≠ cmd' := fun heq => hop heq.symm
      refine ⟨entry, hentry, ?_, ?_⟩
      · simpa [step, registerCommand, update_of_ne hne] using hready
      · simpa [step, registerCommand, update_of_ne hne] using hbase
    · rcases hr : self.registerCommand u cmd' (some handler') whenNotReady' desc with
        _ | ⟨self', old⟩
      · rw [step, hr]
        exact ⟨entry, hentry, hready, hbase⟩
      · -- a registration under the same name would have panicked
        obtain ⟨hfree, entry', -, hready', hbase'⟩ := registerCommand_ok hr
        have hne : cmd ≠ cmd' := by
          rintro rfl
          rw [hready] at hfree
          cases hfree
        rw [step, hr]
        refine ⟨entry, hentry, ?_, ?_⟩
        · rw [hready', update_of_ne hne, hready]
        · intro hnot
          rw [hbase']
          split
          · rw [update_of_ne hne, hbase hnot]
          · exact hbase hnot
  · exact ⟨entry, hentry, hready, hbase⟩

theorem Registered.activeHandlers (h : self.Registered cmd handler whenNotReady)
    (hready : self.isPrinterReady = true ∨ whenNotReady = true) :
    ∃ entry : Entry H, entry.handler = handler ∧ self.activeHandlers cmd = some entry := by
  obtain ⟨entry, hentry, hr, hbase⟩ := h
  refine ⟨entry, hentry, ?_⟩
  rw [DispatchRuntime.activeHandlers]
  split
  · exact hr
  · next hnot => exact hbase (hready.resolve_left hnot)

/-- A line is dispatched to an active handler exactly if the parser gives back its name. -/
theorem dispatchesTo_iff {line : String}
    (h : ∃ entry : Entry H, entry.handler = handler ∧ self.activeHandlers cmd = some entry) :
    self.DispatchesTo u line cmd handler ↔ (parseDispatchCommandLine u line).command = cmd := by
  obtain ⟨entry, hentry, hactive⟩ := h
  constructor
  · rintro ⟨entry', hlookup, -⟩
    rw [lookup, map_eq_some_iff] at hlookup
    obtain ⟨_, -, hpair⟩ := hlookup
    exact (Prod.mk.inj hpair).1
  · intro hcmd
    refine ⟨entry, ?_, hentry⟩
    rw [lookup, hcmd, hactive, map_some]

/-- A command that was registered and is still in the active tables is called by its name, alone
or with any text after it, exactly if the line parser gives the name back. -/
theorem registered_called_iff (u : UnicodeTables) (self registered : DispatchRuntime H)
    (cmd : String) (handler : H) (whenNotReady : Bool) (desc : String) (old : Option (Entry H))
    (h : self.registerCommand u cmd (some handler) whenNotReady desc = .ok (registered, old))
    (ops : List (Op H)) (hops : ∀ op ∈ ops, ¬ op.Removes cmd)
    (hready : (final (step u) registered ops).isPrinterReady = true ∨ whenNotReady = true) :
    (∀ line, IsCall cmd line →
        (final (step u) registered ops).DispatchesTo u line cmd handler) ↔
      Callable u cmd.toList := by
  have hkept : (final (step u) registered ops).Registered cmd handler whenNotReady :=
    final_of_invariant (I := fun s : DispatchRuntime H => s.Registered cmd handler whenNotReady)
      (fun s op hs hop => registered_step hop hs) (registered_of_registerCommand h)
      (along_of_forall hops)
  rw [← parse_call_iff u cmd]
  exact forall₂_congr fun line _ => dispatchesTo_iff (hkept.activeHandlers hready)

/-- A runtime with two commands of the bed leveling module, of which one begins with the name of
the other. -/
def leviq3Runtime : DispatchRuntime String :=
  final (step .ascii) newDispatchRuntime
    [.registerCommand "LEVIQ3" (some "CMD_LEVIQ3") false "",
      .registerCommand "LEVIQ3_WIPING" (some "CMD_LEVIQ3_WIPING") false "", .setReady true]

/-- The second command of the module runs the first. -/
theorem leviq3_wiping_not_called : leviq3Runtime.readyHandlers "LEVIQ3_WIPING" =
        some (.extended "LEVIQ3_WIPING" "CMD_LEVIQ3_WIPING") ∧
      leviq3Runtime.lookup .ascii "LEVIQ3_WIPING" =
        some ("LEVIQ3", .extended "LEVIQ3" "CMD_LEVIQ3") := by
  decide +kernel

theorem registered_called_iff_leviq3 : Callable .ascii "LEVIQ3".toList ∧
      ((∀ line, IsCall "LEVIQ3" line → leviq3Runtime.DispatchesTo .ascii line "LEVIQ3"
          "CMD_LEVIQ3") ↔ Callable .ascii "LEVIQ3".toList) :=
  ⟨by decide, registered_called_iff .ascii newDispatchRuntime _ "LEVIQ3" "CMD_LEVIQ3" false ""
    none rfl [.registerCommand "LEVIQ3_WIPING" (some "CMD_LEVIQ3_WIPING") false "",
      .setReady true] (by simp [Op.Removes]) (.inl (by decide))⟩

end DispatchRuntime

/-! ### Running lines -/

/-- `DispatchCommand`.  Scripts are run without acknowledgement, so nothing is sent back. -/
structure DispatchCommand where
  command : String
  commandline : String
  params : Params

/-- A handler acts on the state and returns an error or none; or it panics. -/
abbrev Handler (σ : Type) := DispatchCommand → EStateM Panic σ (Option String)

/-- `Dispatcher`, with what it calls on the way. -/
structure Dispatcher (σ : Type) where
  dispatch : DispatchRuntime (Handler σ)
  extendParams : DispatchCommand → EStateM Panic σ DispatchCommand
  cmdDefault : Handler σ
  invokeShutdown : String → EStateM Panic σ Unit
  respondError : String → EStateM Panic σ Unit

namespace Dispatcher

variable {σ : Type} (self : Dispatcher σ) (parsed : ParsedDispatchCommand)

def newCommand : DispatchCommand :=
  { command := parsed.command, commandline := parsed.originalLine, params := parsed.params }

def handleDispatchError (err : String) : EStateM Panic σ Unit := do
  let msg := "Internal error on command: " ++ parsed.command ++ " \n"
  self.invokeShutdown msg
  self.respondError msg
  throw (.value [err])

/-- `invokeDispatchHandler`.  The wrapper of an extended command reads its parameters first, and
panics if its handler returns an error. -/
def invokeDispatchHandler (entry : Entry (Handler σ)) :
    Handler σ := fun gcmd =>
  match entry with
  | .traditional handler => handler gcmd
  | .extended _ handler => do
    let paras ← self.extendParams gcmd
    match ← handler paras with
    | some err => throw (.value [err])
    | none => return none

/-- One line of `ProcessCommands`. -/
def processCommand (u : UnicodeTables) (self : Dispatcher σ) (line : String) :
    EStateM Panic σ Unit := do
  let parsed := parseDispatchCommandLine u line
  let handler :=
    match self.dispatch.activeHandlers parsed.command with
    | none => self.cmdDefault
    | some entry => self.invokeDispatchHandler entry
  match ← handler (newCommand parsed) with
  | some err => self.handleDispatchError parsed err
  | none => return

end Dispatcher

end Gcode
