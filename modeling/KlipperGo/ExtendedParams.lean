/-
The parameters of extended commands (`internal/pkg/gcode/gcode_parse_helpers.go`,
`internal/pkg/gcode/command_params.go`, `internal/pkg/gcode/dispatcher.go`).

An extended command reads its parameters a second time, from the line as it came:
what follows the name is read as `KEY=value` pairs, and a value may be wrapped in
quotes.  The error of a missing quote is not looked at.

* `readParams_plain`, `readParams_quoted` — reading one pair, with any text behind it.
-/
import KlipperGo.GcodeDispatch

open GoRuntime GoStrings Outcome List

namespace Gcode

/-! ### The parser -/

def isQuote (c : Char) : Bool := c = '"' || c = '\''

/-- `strings.TrimLeft` of blanks and tabs. -/
def trimLeftBlanks (s : List Char) : List Char := s.dropWhile (fun c => c = ' ' || c = '\t')

/-- Stores a value under its key in upper case. -/
def setExtended (u : UnicodeTables) (results : Params) (key value : List Char) : Params :=
  Function.update results (String.ofList ((trimSpace key).map u.toUpper))
    (some (String.ofList value))

theorem length_after_lt {c : Char} {s before after : List Char}
    (h : cut c s = some (before, after)) : (trimLeftBlanks after).length < s.length := by
  have hle := (dropWhile_sublist (l := after) (fun c => c = ' ' || c = '\t')).length_le
  rw [append_of_cut h, length_append, length_cons, trimLeftBlanks]
  omega

/-- The loop of `ParseExtendedParams`, from the state `ReadKey`. -/
def readParams (u : UnicodeTables) (params : List Char) (results : Params) : Except String Params :=
  match _hkey : cut '=' params with
  | none => .ok results
  | some (_, []) => .ok results
  | some (key, firstChar :: rest) =>
    if isQuote firstChar then
      match _hval : cut firstChar rest with
      | none => .error "malformed command: missing closing quote"
      | some (value, more) => readParams u (trimLeftBlanks more) (setExtended u results key value)
    else
      match _hval : cut ' ' (firstChar :: rest) with
      | none => .ok (setExtended u results key (trimSpace (firstChar :: rest)))
      | some (value, more) =>
        readParams u (trimLeftBlanks more) (setExtended u results key (trimSpace value))
termination_by params.length
decreasing_by
  · have hlt := length_after_lt _hval
    rw [append_of_cut _hkey, length_append, length_cons, length_cons]
    omega
  · have hlt := length_after_lt _hval
    rw [append_of_cut _hkey, length_append, length_cons]
    omega

def parseExtendedParams (u : UnicodeTables) (input : List Char) : Except String Params :=
  readParams u (trimSpace input) fun _ => none

section

variable {u : UnicodeTables} {key value rest : List Char} {results : Params}

theorem readParams_end (h : '=' ∉ rest) : readParams u rest results = .ok results := by
  rw [readParams, cut_eq_none h]

theorem readParams_last (hkey : '=' ∉ key) (hvalue : value ≠ [])
    (hquote : ∀ c ∈ value.head?, isQuote c = false) (hblank : ' ' ∉ value) :
    readParams u (key ++ '=' :: value) results =
      .ok (setExtended u results key (trimSpace value)) := by
  obtain ⟨c, value, rfl⟩ := exists_cons_of_ne_nil hvalue
  rw [readParams, cut_append hkey]
  simp only [hquote c rfl, Bool.false_eq_true, if_false]
  rw [cut_eq_none hblank]

/-- A value without quotes ends at the next blank. -/
theorem readParams_plain (hkey : '=' ∉ key) (hquote : ∀ c ∈ value.head?, isQuote c = false)
    (hblank : ' ' ∉ value) :
    readParams u (key ++ '=' :: (value ++ ' ' :: rest)) results =
      readParams u (trimLeftBlanks rest) (setExtended u results key (trimSpace value)) := by
  have hcut := cut_append (r := rest) hblank
  rw [readParams, cut_append hkey]
  rcases value with _ | ⟨c, value⟩
  · have hc : isQuote ' ' = false := by decide
    simp only [nil_append, hc, Bool.false_eq_true, if_false] at hcut ⊢
    rw [hcut]
  · simp only [cons_append, hquote c rfl, Bool.false_eq_true, if_false] at hcut ⊢
    rw [hcut]

/-- A value in quotes ends at the next quote of its kind. -/
theorem readParams_quoted {q : Char} (hkey : '=' ∉ key) (hq : isQuote q = true)
    (hvalue : q ∉ value) :
    readParams u (key ++ '=' :: q :: (value ++ q :: rest)) results =
      readParams u (trimLeftBlanks rest) (setExtended u results key value) := by
  rw [readParams, cut_append hkey]
  simp only [hq, if_true]
  rw [cut_append hvalue]

end

/-! ### Pairs that are written out -/

/-- A pair that can be written out: a key in upper case, and a value that is plain or wrapped in a
quote it does not contain. -/
structure ExtendedPair (u : UnicodeTables) where
  key : List Char
  value : List Char
  quote : Option Char
  key_ne : key ≠ []
  key_upper : key.map u.toUpper = key
  key_free : ∀ c ∈ key, c ≠ '=' ∧ isSpace c = false ∧ isQuote c = false
  plain : quote = none → value ≠ [] ∧ ∀ c ∈ value, isSpace c = false ∧ isQuote c = false
  quoted : ∀ q, quote = some q → isQuote q = true ∧ q ∉ value

namespace ExtendedPair

variable {u : UnicodeTables} (p : ExtendedPair u)

def render : List Char :=
  p.key ++ '=' :: match p.quote with
    | none => p.value
    | some q => q :: (p.value ++ [q])

variable (pairs : List (ExtendedPair u)) (results : Params)

def store : Params :=
  Function.update results (String.ofList p.key) (some (String.ofList p.value))

theorem eq_notMem_key : '=' ∉ p.key := fun h => (p.key_free _ h).1 rfl

theorem setExtended_eq : setExtended u results p.key p.value = p.store results := by
  have htrim : trimSpace p.key = p.key := trimFunc_of_word fun c hc => (p.key_free c hc).2.1
  rw [setExtended, htrim, p.key_upper, store]

/-- A pair is read up to its end, or up to the blank behind it. -/
theorem readParams_render : readParams u p.render results = .ok (p.store results) ∧
      ∀ rest, readParams u (p.render ++ ' ' :: rest) results =
        readParams u (trimLeftBlanks rest) (p.store results) := by
  rcases hquote : p.quote with _ | q
  · obtain ⟨hne, hfree⟩ := p.plain hquote
    have hhead : ∀ c ∈ p.value.head?, isQuote c = false := fun c hc =>
      (hfree c (mem_of_mem_head? hc)).2
    have hblank : ' ' ∉ p.value := fun hmem => absurd (hfree _ hmem).1 (by decide)
    have htrim : trimSpace p.value = p.value := trimFunc_of_word fun c hc => (hfree c hc).1
    refine ⟨?_, fun rest => ?_⟩
    · rw [render, hquote, readParams_last p.eq_notMem_key hne hhead hblank, htrim, setExtended_eq]
    · rw [render, hquote, append_assoc, cons_append,
        readParams_plain p.eq_notMem_key hhead hblank, htrim, setExtended_eq]
  · obtain ⟨hq, hfree⟩ := p.quoted q hquote
    refine ⟨?_, fun rest => ?_⟩
    · rw [render, hquote, readParams_quoted p.eq_notMem_key hq hfree, setExtended_eq]
      exact readParams_end (by decide)
    · rw [render, hquote, append_assoc, cons_append, cons_append, append_assoc,
        singleton_append, readParams_quoted p.eq_notMem_key hq hfree, setExtended_eq]
      rfl

theorem render_concat : ∃ init c, p.render = init ++ [c] ∧ isSpace c = false := by
  rcases hquote : p.quote with _ | q
  · obtain ⟨hne, hfree⟩ := p.plain hquote
    refine ⟨p.key ++ '=' :: p.value.dropLast, p.value.getLast hne, ?_,
      (hfree _ (getLast_mem hne)).1⟩
    rw [render, hquote, append_assoc, cons_append, dropLast_append_getLast]
  · refine ⟨p.key ++ '=' :: q :: p.value, q, ?_, ?_⟩
    · rw [render, hquote, append_assoc]
      rfl
    · have hq := (p.quoted q hquote).1
      rw [isQuote, Bool.or_eq_true, decide_eq_true_eq, decide_eq_true_eq] at hq
      rcases hq with rfl | rfl <;> decide

def renderAll : List Char := [' '].intercalate (pairs.map render)

theorem renderAll_cons (p' : ExtendedPair u) (pairs : List (ExtendedPair u)) :
    renderAll (p :: p' :: pairs) = p.render ++ ' ' :: renderAll (p' :: pairs) := by
  simp [renderAll, intercalate]

theorem renderAll_head : ∀ c ∈ (renderAll (p :: pairs)).head?, isSpace c = false := by
  obtain ⟨d, key, hkey⟩ := exists_cons_of_ne_nil p.key_ne
  intro c hc
  have hd : c = d := by
    rcases pairs with _ | ⟨p', pairs⟩
    · simpa [renderAll, intercalate, render, hkey, eq_comm] using hc
    · simpa [renderAll_cons, render, hkey, eq_comm] using hc
  rw [hd]
  exact (p.key_free d (by rw [hkey]; simp)).2.1

theorem renderAll_concat : ∃ init c, renderAll (p :: pairs) = init ++ [c] ∧ isSpace c = false := by
  induction pairs generalizing p with
  | nil =>
    obtain ⟨init, c, h, hc⟩ := p.render_concat
    exact ⟨init, c, by simpa [renderAll, intercalate] using h, hc⟩
  | cons p' pairs ih =>
    obtain ⟨init, c, h, hc⟩ := ih p'
    refine ⟨p.render ++ ' ' :: init, c, ?_, hc⟩
    rw [renderAll_cons, h, append_assoc, cons_append]

/-- Nothing around the pairs is trimmed. -/
theorem trimSpace_renderAll : trimSpace (renderAll pairs) = renderAll pairs := by
  rcases pairs with _ | ⟨p, pairs⟩
  · rfl
  · obtain ⟨init, c, h, hc⟩ := renderAll_concat p pairs
    refine trimFunc_of_ends (renderAll_head p pairs) ?_
    rw [h, getLast?_concat]
    rintro d ⟨⟩
    exact hc

/-- The loop stores one pair after the other. -/
theorem readParams_renderAll : readParams u (renderAll pairs) results =
      .ok (pairs.foldl (fun results p => p.store results) results) := by
  induction pairs generalizing results with
  | nil => exact readParams_end not_mem_nil
  | cons p pairs ih =>
    rcases pairs with _ | ⟨p', pairs⟩
    · simpa [renderAll, intercalate] using (p.readParams_render results).1
    · have hhead : trimLeftBlanks (renderAll (p' :: pairs)) = renderAll (p' :: pairs) := by
        refine dropWhile_of_head fun c hc => ?_
        have hspace := renderAll_head p' pairs c hc
        by_contra hno
        rw [Bool.not_eq_false, Bool.or_eq_true, decide_eq_true_eq, decide_eq_true_eq] at hno
        rcases hno with rfl | rfl <;> exact absurd hspace (by decide)
      rw [renderAll_cons, (p.readParams_render results).2, hhead, ih]
      rfl

theorem foldl_store_of_ne {pairs : List (ExtendedPair u)} {name : String}
    (h : ∀ p ∈ pairs, String.ofList p.key ≠ name) (results : Params) :
    pairs.foldl (fun results p => p.store results) results name = results name := by
  induction pairs generalizing results with
  | nil => rfl
  | cons p pairs ih =>
    rw [foldl_cons, ih fun p' hp' => h p' (mem_cons_of_mem _ hp'), store,
      Function.update_of_ne (h p mem_cons_self).symm]

theorem foldl_store_of_mem {pairs : List (ExtendedPair u)} (hdistinct : (pairs.map key).Nodup)
    {p : ExtendedPair u} (hp : p ∈ pairs) (results : Params) :
    pairs.foldl (fun results p => p.store results) results (String.ofList p.key) =
      some (String.ofList p.value) := by
  induction pairs generalizing results with
  | nil => cases hp
  | cons p' pairs ih =>
    rw [map_cons, nodup_cons] at hdistinct
    rcases mem_cons.mp hp with rfl | hp
    · -- no later pair has the key
      have hlater : ∀ p' ∈ pairs, String.ofList p'.key ≠ String.ofList p.key := by
        intro p' hp' heq
        exact hdistinct.1 (mem_map.mpr ⟨p', hp', String.ofList_inj.mp heq⟩)
      rw [foldl_cons, foldl_store_of_ne hlater, store, Function.update_self]
    · exact ih hdistinct.2 hp _

end ExtendedPair

variable (u : UnicodeTables)

/-- Pairs with distinct keys that are written out are read back as exactly that map. -/
theorem parseExtendedParams_render (pairs : List (ExtendedPair u))
    (hdistinct : (pairs.map ExtendedPair.key).Nodup) :
    ∃ params, parseExtendedParams u (ExtendedPair.renderAll pairs) = .ok params ∧
      (∀ p ∈ pairs, params (String.ofList p.key) = some (String.ofList p.value)) ∧
      ∀ name, (∀ p ∈ pairs, String.ofList p.key ≠ name) → params name = none := by
  refine ⟨_, ?_, fun p hp => ExtendedPair.foldl_store_of_mem hdistinct hp fun _ => none,
    fun name hname => ExtendedPair.foldl_store_of_ne hname _⟩
  rw [parseExtendedParams, ExtendedPair.trimSpace_renderAll, ExtendedPair.readParams_renderAll]

/-- `NAME='a b' S=1`. -/
theorem parseExtendedParams_render_two :
    ∃ params, parseExtendedParams .ascii "NAME='a b' S=1".toList = .ok params ∧
      (params "NAME" = some "a b" ∧ params "S" = some "1") ∧ params "T" = none := by
  obtain ⟨params, hok, hmem, hno⟩ := parseExtendedParams_render .ascii
    [⟨"NAME".toList, "a b".toList, some '\'', by simp, by decide, by simp [isSpace, isQuote],
        by simp, by simp [isQuote]⟩,
      ⟨"S".toList, "1".toList, none, by simp, by decide, by simp [isSpace, isQuote],
        by simp [isSpace, isQuote], by simp⟩]
    (by simp)
  exact ⟨params, hok, ⟨hmem _ mem_cons_self,
    hmem _ (mem_cons_of_mem _ mem_cons_self)⟩, hno "T" (by simp)⟩

/-! ### The text the parameters are read from -/

/-- The line up to its last `*`, if only digits follow that (`IsDigitString`). -/
def withoutChecksum (line : List Char) : List Char :=
  match line.reverse.dropWhile u.isDigit with
  | '*' :: before => if line.reverse.head?.any u.isDigit then before.reverse else line
  | _ => line

/-- One white space after the name is skipped; it is looked at as a byte, so it is ASCII. -/
def skipSpace (text : List Char) (start : ℕ) : ℕ :=
  if text[start]?.any (fun c => c.toNat < 128 && isSpace c) then start + 1 else start

/-- Where the name ends.  If the line does not begin with it, as after a line number, it is
searched for. -/
def paramStart (command origline : List Char) : ℕ :=
  if (origline.map u.toUpper).take command.length = command then command.length
  else ((index command (origline.map u.toUpper)).getD 0) + command.length

/-- `GetRawCommandParameters`, where the line is not shorter than the name. -/
def getRawCommandParameters (command origline : List Char) : List Char :=
  let line :=
    if (origline.map u.toUpper).take command.length = command then origline
    else withoutChecksum u origline
  line.drop (skipSpace origline (paramStart u command origline))

/-- The parameters in a text; without any if the text is refused. -/
def rawParams (raw : List Char) : Params :=
  match parseExtendedParams u raw with
  | .ok params => params
  | .error _ => fun _ => none

/-- The `ExtendParams` that `NewDispatcher` gives to the runtime: the error of the parser is
dropped, and with it every parameter.  Cutting the name off a line that is shorter panics. -/
def DispatchCommand.extendParams {σ : Type} (u : UnicodeTables) (gcmd : DispatchCommand) :
    EStateM Panic σ DispatchCommand :=
  let command := gcmd.command.toList
  let origline := gcmd.commandline.toList
  if origline.length < command.length then
    throw (.sliceOutOfRange 0 command.length origline.length)
  else return { gcmd with params := rawParams u (getRawCommandParameters u command origline) }

def lineParameters (line : String) : List Char :=
  let parsed := parseDispatchCommandLine u line
  getRawCommandParameters u parsed.command.toList parsed.originalLine.toList

/-! ### Parameters that are refused -/

namespace Dispatcher

variable {σ : Type} {u : UnicodeTables} {self : Dispatcher σ}

/-- The parameter text of the line is refused. -/
def Malformed (u : UnicodeTables) (line : String) : Prop :=
  (parseExtendedParams u (lineParameters u line)).isOk = false

/-- The extended command is not executed: whatever its handler does, an error is raised and the
state is left as it was. -/
def NotExecuted (u : UnicodeTables) (self : Dispatcher σ) (cmd line : String) : Prop :=
  ∀ handler s, ∃ panic, self.invokeDispatchHandler (.extended cmd handler)
    (newCommand (parseDispatchCommandLine u line)) s = .error panic s

/-- The command that the handler of an extended command gets for a line. -/
def extendedCommand (u : UnicodeTables) (line : String) : DispatchCommand :=
  { newCommand (parseDispatchCommandLine u line) with
    params := rawParams u (lineParameters u line) }

theorem Malformed.params {line : String} (h : Malformed u line) :
    (extendedCommand u line).params = fun _ => none := by
  simp only [Malformed] at h
  simp only [extendedCommand, rawParams]
  generalize parseExtendedParams u _ = result at h ⊢
  cases result with
  | ok params => cases h
  | error err => rfl

/-- An extended command of a line that was read gets the parameters of its text: the name is made
of characters of the line, so cutting it off does not panic. -/
theorem invokeDispatchHandler_extended (hself : self.extendParams = DispatchCommand.extendParams u)
    (cmd line : String) (handler : Handler σ) (s : σ) :
    self.invokeDispatchHandler (.extended cmd handler)
        (newCommand (parseDispatchCommandLine u line)) s =
      (do
        match ← handler (extendedCommand u line) with
        | some err => throw (.value [err])
        | none => return none : EStateM Panic σ (Option String)) s := by
  have hlen : ¬ (newCommand (parseDispatchCommandLine u line)).commandline.toList.length <
      (newCommand (parseDispatchCommandLine u line)).command.toList.length := by
    obtain ⟨h₁, h₂, h₃, -⟩ := length_command_le u line.toList
    rw [newCommand, parseDispatchCommandLine, String.toList_ofList, String.toList_ofList]
    omega
  refine bind_ok ?_ _
  rw [hself]
  simp only [DispatchCommand.extendParams, if_neg hlen]
  rfl

theorem processCommand_extended (hself : self.extendParams = DispatchCommand.extendParams u)
    {line cmd : String} {handler : Handler σ}
    (hentry : self.dispatch.activeHandlers (parseDispatchCommandLine u line).command =
      some (.extended cmd handler))
    {s s' : σ} (hrun : handler (extendedCommand u line) s = .ok none s') :
    self.processCommand u line s = .ok () s' := by
  simp only [processCommand, hentry]
  refine bind_ok (?_ : _ = EStateM.Result.ok none s') _
  rw [invokeDispatchHandler_extended hself]
  exact bind_ok hrun _

/-- An extended command whose parameters are refused is executed without them: no error is raised
unless the handler returns or raises one. -/
theorem malformed_executed [Inhabited σ] (u : UnicodeTables) (self : Dispatcher σ)
    (hself : self.extendParams = DispatchCommand.extendParams u) (line cmd : String)
    (hbad : Malformed u line) :
    ¬ NotExecuted u self cmd line ∧
      (extendedCommand u line).params = (fun _ => none) ∧
      ∀ handler : Handler σ,
        self.dispatch.activeHandlers (parseDispatchCommandLine u line).command =
          some (.extended cmd handler) →
        ∀ s s', handler (extendedCommand u line) s = .ok none s' →
          self.processCommand u line s = .ok () s' := by
  refine ⟨fun hno => ?_, hbad.params,
    fun handler hentry s s' => processCommand_extended hself hentry⟩
  obtain ⟨panic, hpanic⟩ := hno (fun _ => pure none) default
  rw [invokeDispatchHandler_extended hself] at hpanic
  cases hpanic

def countWithoutPin : Handler ℕ := fun gcmd => do
  if gcmd.params "PIN" = none then
    modify (· + 1)
  return none

def pinDispatcher : Dispatcher ℕ where
  dispatch :=
    { DispatchRuntime.newDispatchRuntime with
      baseHandlers := Function.update (fun _ => none) "SET_PIN"
        (some (.extended "SET_PIN" countWithoutPin)) }
  extendParams := DispatchCommand.extendParams .ascii
  cmdDefault := fun _ => return none
  invokeShutdown := fun _ => return
  respondError := fun _ => return

theorem malformed_pin : Malformed .ascii "SET_PIN PIN=\"fan" := by
  unfold Malformed
  decide +kernel

/-- `SET_PIN` with a quote that is not closed runs without a pin. -/
theorem open_quote_executed : Malformed .ascii "SET_PIN PIN=\"fan" ∧
      pinDispatcher.processCommand .ascii "SET_PIN PIN=\"fan" 0 = .ok () 1 := by
  have hcommand : (parseDispatchCommandLine .ascii "SET_PIN PIN=\"fan").command = "SET_PIN" := by
    decide +kernel
  have hentry : pinDispatcher.dispatch.activeHandlers
      (parseDispatchCommandLine .ascii "SET_PIN PIN=\"fan").command =
        some (.extended "SET_PIN" countWithoutPin) := by
    rw [hcommand]
    rfl
  have hrun : countWithoutPin (extendedCommand .ascii "SET_PIN PIN=\"fan") 0 = .ok none 1 := by
    rw [countWithoutPin, malformed_pin.params]
    rfl
  exact ⟨malformed_pin, processCommand_extended rfl hentry hrun⟩

theorem malformed_executed_pin : Malformed .ascii "SET_PIN PIN=\"fan" ∧
      ¬ NotExecuted .ascii pinDispatcher "SET_PIN" "SET_PIN PIN=\"fan" :=
  ⟨malformed_pin, (malformed_executed .ascii pinDispatcher rfl _ "SET_PIN" malformed_pin).1⟩

end Dispatcher

end Gcode
