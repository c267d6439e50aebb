/-
Line numbers and comments (`internal/pkg/gcode/dispatch_runtime.go`,
`internal/pkg/gcode/command_params.go`).

Neither a line number nor a comment should matter to the command of a line.  But
behind a line number all the tokens are joined to the command, where without one
the first two are taken; and an extended command reads its parameters from a line
that still has its comment.
-/
import KlipperGo.ExtendedParams

open GoRuntime GoStrings Outcome Runs List Function

namespace Gcode

/-! ### What the handler of a line sees -/

namespace DispatchRuntime

variable {H : Type*} {u : UnicodeTables} {self : DispatchRuntime H}

def IsExtended (self : DispatchRuntime H) (name : String) : Prop :=
  ∃ cmd handler, self.activeHandlers name = some (.extended cmd handler)

/-- The map of parameters in the command that the handler of a line gets. -/
def seenParams (u : UnicodeTables) (self : DispatchRuntime H) (line : String) : Params :=
  match self.activeHandlers (parseDispatchCommandLine u line).command with
  | some (.extended _ _) => rawParams u (lineParameters u line)
  | _ => (parseDispatchCommandLine u line).params

theorem seenParams_extended {line : String}
    (h : self.IsExtended (parseDispatchCommandLine u line).command) :
    self.seenParams u line = rawParams u (lineParameters u line) := by
  obtain ⟨cmd, handler, hentry⟩ := h
  rw [seenParams, hentry]

theorem seenParams_of_not_extended {line : String}
    (h : ¬ self.IsExtended (parseDispatchCommandLine u line).command) :
    self.seenParams u line = (parseDispatchCommandLine u line).params := by
  rw [seenParams]
  split
  · next cmd handler hentry => exact absurd ⟨cmd, handler, hentry⟩ h
  · rfl

/-- A name that the entry can be registered under. -/
def Fits (u : UnicodeTables) (name : String) : Entry H → Prop
  | .traditional _ => isTraditionalGCode u name.toList = true
  | .extended _ _ =>
    isTraditionalGCode u name.toList = false ∧ isCommandValid u name.toList = true

/-- Every entry stands under a name of its kind. -/
def Wrapped (u : UnicodeTables) (handlers : String → Option (Entry H)) : Prop :=
  ∀ name entry, handlers name = some entry → Fits u name entry

variable {name : String}

theorem Wrapped.update {handlers : String → Option (Entry H)} (h : Wrapped u handlers)
    {entry : Option (Entry H)} (hentry : ∀ e, entry = some e → Fits u name e) :
    Wrapped u (Function.update handlers name entry) := by
  intro name' e hname
  by_cases heq : name' = name
  · rw [heq, update_self] at hname
    rw [heq]
    exact hentry e hname
  · rw [update_of_ne heq] at hname
    exact h name' e hname

theorem wrapped_step (op : Op H) (h : Wrapped u self.baseHandlers ∧ Wrapped u self.readyHandlers) :
    Wrapped u (self.step u op).baseHandlers ∧ Wrapped u (self.step u op).readyHandlers := by
  rcases op with ⟨name, _ | handler, whenNotReady, desc⟩ | ready
  · exact ⟨h.1.update (by simp), h.2.update (by simp)⟩
  · simp only [step, registerCommand]
    by_cases htaken : (self.readyHandlers name).isSome = true
    · rwa [if_pos htaken]
    · by_cases hbad : (!isTraditionalGCode u name.toList && !isCommandValid u name.toList) = true
      · rwa [if_neg htaken, if_pos hbad]
      · rw [if_neg htaken, if_neg hbad]
        have hentry : ∀ e,
            some (if isTraditionalGCode u name.toList = true then Entry.traditional handler
              else .extended name handler) = some e → Fits u name e := by
          intro e heq
          cases heq
          cases htrad : isTraditionalGCode u name.toList
          · exact ⟨htrad, by simpa [htrad] using hbad⟩
          · exact htrad
        refine ⟨?_, h.2.update hentry⟩
        cases whenNotReady
        · exact h.1
        · exact h.1.update hentry
  · exact h

/-- After any registrations, an active entry is looked up under a name of its kind. -/
theorem fits_of_activeHandlers (ops : List (Op H)) {entry : Entry H}
    (h : (final (step u) newDispatchRuntime ops).activeHandlers name = some entry) :
    Fits u name entry := by
  have hempty : Wrapped u (newDispatchRuntime : DispatchRuntime H).baseHandlers ∧
      Wrapped u (newDispatchRuntime : DispatchRuntime H).readyHandlers :=
    ⟨fun _ _ hno => (by cases hno), fun _ _ hno => (by cases hno)⟩
  have hrun :=
    final_of_kept
      (I := fun s : DispatchRuntime H => Wrapped u s.baseHandlers ∧ Wrapped u s.readyHandlers)
      (fun s op hs => wrapped_step op hs) hempty ops
  rw [activeHandlers] at h
  split at h
  · exact hrun.2 _ _ h
  · exact hrun.1 _ _ h

/-- An extended entry is looked up under a valid name that is not a traditional code. -/
theorem extended_valid (ops : List (Op H))
    (h : (final (step u) newDispatchRuntime ops).IsExtended name) :
    isTraditionalGCode u name.toList = false ∧ isCommandValid u name.toList = true := by
  obtain ⟨cmd, handler, hentry⟩ := h
  exact fits_of_activeHandlers ops hentry

end DispatchRuntime

/-! ### The words of a line -/

section

variable {u : UnicodeTables}

/-- The words of a line are those of the text in front of its comment. -/
theorem fields_commandText (u : UnicodeTables) (line : List Char) :
    fields (commandText u line) = fields ((line.takeWhile (· ≠ ';')).map u.toUpper) := by
  obtain ⟨a, b, hline, ha, hb⟩ := exists_trimFunc (· = ' ') line
  have hblank : ∀ {l : List Char}, (∀ c ∈ l, decide (c = ' ') = true) →
      (∀ c ∈ l.map u.toUpper, isSpace c = true) ∧ ∀ c ∈ l, decide (c ≠ ';') = true := by
    intro l hl
    have hmem : ∀ c ∈ l, c = ' ' := fun c hc => of_decide_eq_true (hl c hc)
    refine ⟨fun c hc => ?_, fun c hc => by rw [hmem c hc]; decide⟩
    obtain ⟨d, hd, rfl⟩ := mem_map.mp hc
    rw [hmem d hd, toUpper_blank]
    exact isSpace_blank
  conv_rhs => rw [hline]
  rw [takeWhile_append_of_pos (hblank ha).2, map_append, commandText]
  generalize trimFunc (· = ' ') line = t
  by_cases hall : ∀ c ∈ t, decide (c ≠ ';') = true
  · rw [takeWhile_append_of_pos hall, takeWhile_eq_self_iff.mpr (hblank hb).2,
      takeWhile_eq_self_iff.mpr hall, map_append, fields_pad (hblank ha).1 (hblank hb).1]
  · have hlen : (t.takeWhile (· ≠ ';')).length ≠ t.length := fun hlen =>
      hall (takeWhile_eq_self_iff.mp ((takeWhile_sublist _).eq_of_length hlen))
    rw [takeWhile_append, if_neg hlen]
    have hpad := fields_pad (s := (t.takeWhile (· ≠ ';')).map u.toUpper) (b := [])
      (hblank ha).1 (by simp)
    rw [append_nil] at hpad
    rw [hpad]

theorem isSpace_of_mem_fields (s : List Char) : ∀ c ∈ (fields s).flatten, isSpace c = false := by
  intro c hc
  rw [flatten_fields] at hc
  simpa using (mem_filter.mp hc).2

/-- The text in front of the comment is one word of one key and one value, and does not start a
line number. -/
def OnePair (u : UnicodeTables) (line : String) : Prop :=
  ∃ w, fields (commandText u line.toList) = [w] ∧ afterPair w = [] ∧ (getKey w).1 ≠ ['N']

/-- The command is all of the words exactly if there is one word, of one key and one value. -/
theorem commandOf_eq_flatten_iff {line : String}
    (hwords : fields (commandText u line.toList) ≠ []) :
    commandOf (parseGcodeTokens (commandText u line.toList)) =
      (fields (commandText u line.toList)).flatten ↔ OnePair u line := by
  have hspace := isSpace_of_mem_fields (commandText u line.toList)
  have hnonempty : ∀ w ∈ fields (commandText u line.toList), w ≠ [] := by
    intro w hw
    simpa using (mem_filter.mp hw).2
  rw [OnePair, parseGcodeTokens]
  generalize fields (commandText u line.toList) = words at hwords hspace hnonempty ⊢
  obtain ⟨w, rest, rfl⟩ := exists_cons_of_ne_nil hwords
  have hw := hnonempty w mem_cons_self
  have hpair := congrArg length (pair_append w)
  have hlt := length_afterPair_lt hw
  rw [length_append, length_append] at hpair
  rw [flatMap_cons, partTokens_of_ne hw, cons_append, cons_append]
  constructor
  · intro h
    have hlen := congrArg length h
    rw [flatten_cons, length_append, commandOf_pair] at hlen
    by_cases hkey : (getKey w).1 = ['N']
    · -- what follows the line number is shorter than the words
      have hle := length_trimFunc_le isSpace (afterPair w ++ rest.flatten)
      rw [length_append] at hle
      rw [if_pos hkey, flatten_append, flatten_partTokens, flatten_flatMap_partTokens,
        trimSpace] at hlen
      omega
    · have hle := length_trimFunc_le isSpace ((getKey w).1 ++ (getVal (getKey w).2).1)
      rw [length_append] at hle
      rw [if_neg hkey, trimSpace] at hlen
      have hrest : rest.flatten = [] := eq_nil_of_length_eq_zero (by omega)
      refine ⟨w, ?_, eq_nil_of_length_eq_zero (by omega), hkey⟩
      rcases rest with _ | ⟨v, rest⟩
      · rfl
      · exact absurd (append_eq_nil_iff.mp hrest).1 (hnonempty v (by simp))
  · rintro ⟨w', hw', hafter, hkey⟩
    cases hw'
    rw [commandOf_word (fun c hc => hspace c (by simpa using hc)) hafter hkey]
    simp

theorem setParams_congr {p q : Params} (h : ∀ name, name ≠ "N" → p name = q name) {name : String}
    (hname : name ≠ "N") (tokens : List (List Char)) :
    setParams p tokens name = setParams q tokens name := by
  fun_induction setParams p tokens generalizing q with
  | case1 p key value rest ih =>
    refine ih fun name hname => ?_
    by_cases heq : name = String.ofList key
    · rw [heq, update_self, update_self]
    · rw [update_of_ne heq, update_of_ne heq, h name hname]
  | case2 p tokens hno =>
    rw [setParams]
    · exact h name hname
    · exact hno

def numbered (number line : String) : String := "N" ++ number ++ " " ++ line

theorem toList_numbered (number line : String) :
    (numbered number line).toList = 'N' :: number.toList ++ ' ' :: line.toList := by
  simp [numbered]

theorem isValuePart_range {c : Char} (h : isValuePart c = true) : 45 ≤ c.toNat ∧ c.toNat ≤ 57 := by
  rw [isValuePart, Bool.or_eq_true, Bool.or_eq_true, decide_eq_true_eq, decide_eq_true_eq] at h
  rcases h with (h | rfl) | rfl
  · rw [Char.isDigit, Bool.and_eq_true, decide_eq_true_eq, decide_eq_true_eq] at h
    have hlo : 48 ≤ c.toNat := h.1
    have hhi : c.toNat ≤ 57 := h.2
    omega
  · decide
  · decide

/-- Characters of values are not white space, end no command and have no case. -/
theorem isValuePart_facts (u : UnicodeTables) {c : Char} (h : isValuePart c = true) :
    u.toUpper c = c ∧ isSpace c = false ∧ c ≠ ';' := by
  obtain ⟨hlo, hhi⟩ := isValuePart_range h
  have hblank : c ≠ ' ' := by
    rintro rfl
    exact absurd hlo (by decide)
  refine ⟨?_, ?_, ?_⟩
  · rw [u.toUpper_ascii c (by omega)]
    refine dif_neg fun hc => ?_
    have h97 : 97 ≤ c.toNat := hc.1
    omega
  · simp only [isSpace, decide_eq_false_iff_not, hblank, false_or]
    omega
  · rintro rfl
    exact absurd hhi (by decide)

variable {number line : String} (hne : number ≠ "")
  (hvalue : ∀ c ∈ number.toList, isValuePart c = true)

include hvalue

theorem upper_number (u : UnicodeTables) : number.toList.map u.toUpper = number.toList :=
  (map_congr_left fun c hc => (isValuePart_facts u (hvalue c hc)).1).trans (map_id _)

theorem fields_numbered : fields (commandText u (numbered number line).toList) =
    ('N' :: number.toList) :: fields (commandText u line.toList) := by
  have hN : isSpace 'N' = false := by decide
  have hspace : ∀ c ∈ 'N' :: number.toList, isSpace c = false := by
    intro c hc
    rcases mem_cons.mp hc with rfl | hc
    · exact hN
    · exact (isValuePart_facts u (hvalue c hc)).2.1
  have hcomment : ∀ c ∈ 'N' :: number.toList ++ [' '], decide (c ≠ ';') = true := by
    intro c hc
    rcases mem_append.mp hc with hc | hc
    · rcases mem_cons.mp hc with rfl | hc
      · decide
      · exact decide_eq_true (isValuePart_facts u (hvalue c hc)).2.2
    · rw [mem_singleton.mp hc]
      decide
  have hupper : ('N' :: number.toList ++ [' ']).map u.toUpper = 'N' :: number.toList ++ [' '] := by
    rw [map_append, map_cons, upper_number hvalue u, u.toUpper_ascii 'N' (by decide),
      map_singleton, toUpper_blank]
    rfl
  rw [fields_commandText, fields_commandText, toList_numbered, append_cons,
    takeWhile_append_of_pos hcomment, map_append, hupper, ← append_cons,
    fields_append_space isSpace_blank, fields, splitOnP_eq_singleton hspace]
  rfl

include hne

theorem partTokens_number : partTokens ('N' :: number.toList) = [['N'], number.toList] := by
  have hkey : getKey ('N' :: number.toList) = (['N'], number.toList) := by
    obtain ⟨c, rest, hn⟩ := exists_cons_of_ne_nil (l := number.toList) (by simpa using hne)
    have hc := hvalue c (by rw [hn]; simp)
    have hN : isValuePart 'N' = false := by decide
    rw [hn]
    simp [getKey, hc, hN]
  have hval : getVal number.toList = (number.toList, []) := by
    rw [getVal, takeWhile_eq_self_iff.mpr hvalue, dropWhile_eq_nil_iff.mpr hvalue]
  rw [partTokens_of_ne (cons_ne_nil _ _), afterPair, hkey, hval, partTokens_nil]

/-- Behind a line number everything but white space is the command. -/
theorem command_numbered : (parseDispatchCommandLine u (numbered number line)).command =
    String.ofList (fields (commandText u line.toList)).flatten := by
  simp only [parseDispatchCommandLine]
  rw [parseGcodeTokens, fields_numbered hvalue, flatMap_cons, partTokens_number hne hvalue,
    cons_append, cons_append, nil_append, commandOf_pair, if_pos rfl, flatten_flatMap_partTokens]
  exact congrArg String.ofList (trimFunc_of_word (isSpace_of_mem_fields _))

theorem params_numbered {name : String} (hname : name ≠ "N") :
    (parseDispatchCommandLine u (numbered number line)).params name =
      (parseDispatchCommandLine u line).params name := by
  simp only [parseDispatchCommandLine]
  have hN : String.ofList ['N'] = "N" := by decide
  rw [parseGcodeTokens, parseGcodeTokens, fields_numbered hvalue, flatMap_cons,
    partTokens_number hne hvalue, drop_succ_cons, drop_succ_cons, drop_zero,
    drop_zero, cons_append, cons_append, nil_append, setParams, hN]
  exact setParams_congr (fun name hname => update_of_ne hname _ _) hname _

end

/-! ### The parameter text behind a line number -/

section

variable {u : UnicodeTables} {cmd pre o : List Char}

section

variable (h : isCommandValid u cmd = true)
include h

theorem valid_cases : (∀ x ∈ cmd, x = '_' ∨ u.isLetter x = true ∨ u.isDigit x = true) ∧
      cmd[0]?.any u.isDigit = false ∧ cmd[1]?.any u.isDigit = false := by
  unfold isCommandValid at h
  split_ifs at h with h₁ h₂ h₃ h₄
  refine ⟨fun x hx => ?_, by simpa using h₃, by simpa using h₄⟩
  rw [Bool.not_eq_true', Bool.not_eq_false, all_eq_true] at h₂
  by_cases hx' : x = '_'
  · exact .inl hx'
  · have hx'' := h₂ _ (mem_map_of_mem hx)
    rw [if_neg hx', Bool.or_eq_true] at hx''
    exact .inr hx''

theorem valid_notMem {x : Char} (hascii : x.toNat < 128)
    (hx : x ≠ '_' ∧ x.isAlpha = false ∧ x.isDigit = false) : x ∉ cmd := by
  intro hmem
  rcases (valid_cases h).1 x hmem with heq | hletter | hdigit
  · exact hx.1 heq
  · rw [u.isLetter_ascii x hascii, hx.2.1] at hletter
    cases hletter
  · rw [u.isDigit_ascii x hascii, hx.2.2] at hdigit
    cases hdigit

/-- Neither of the first two characters of a name is a character of values. -/
theorem valid_not_value {i : ℕ} (hi : i < 2) {x : Char}
    (hx : cmd[i]? = some x) : isValuePart x = false := by
  by_contra hvalue
  rw [Bool.not_eq_false] at hvalue
  have hascii : x.toNat < 128 := by
    have hrange := isValuePart_range hvalue
    omega
  have hdigit : x.isDigit = false := by
    rw [← u.isDigit_ascii x hascii]
    obtain ⟨-, h₀, h₁⟩ := valid_cases h
    rcases Nat.lt_succ_iff_lt_or_eq.mp hi with hi | rfl
    · rw [Nat.lt_one_iff.mp hi] at hx
      simpa [hx] using h₀
    · simpa [hx] using h₁
  have hmem := mem_of_getElem? hx
  rw [isValuePart, hdigit, Bool.false_or, Bool.or_eq_true, decide_eq_true_eq,
    decide_eq_true_eq] at hvalue
  rcases hvalue with rfl | rfl <;> exact valid_notMem h (by decide) (by decide) hmem

end

theorem withoutChecksum_append (hpre : pre.getLast? = some ' ') :
    withoutChecksum u (pre ++ o) = pre ++ withoutChecksum u o := by
  obtain ⟨pre, rfl⟩ := getLast?_eq_some_iff.mp hpre
  have hdigit : u.isDigit ' ' = false := u.isDigit_ascii ' ' (by decide)
  have hreverse : (pre ++ [' '] ++ o).reverse = o.reverse ++ ' ' :: pre.reverse := by simp
  rw [withoutChecksum, withoutChecksum, hreverse, dropWhile_append]
  rcases hdrop : o.reverse.dropWhile u.isDigit with _ | ⟨x, before⟩
  · -- only digits up to the blank
    simp [hdigit]
  · have hhead : (o.reverse ++ ' ' :: pre.reverse).head? = o.reverse.head? := by
      rcases hrev : o.reverse with _ | ⟨y, l⟩
      · rw [hrev] at hdrop
        cases hdrop
      · rfl
    rw [hhead, if_neg (by simp)]
    by_cases hx : x = '*'
    · subst hx
      simp only [cons_append]
      split
      · simp
      · rfl
    · simp [hx]

/-- The parameters are read from the same place of the line if no occurrence of the name begins in
front of it. -/
theorem getRawCommandParameters_append (hpre : pre.getLast? = some ' ')
    (hbefore : ∀ m < pre.length, ¬ cmd <+: ((pre ++ o).map u.toUpper).drop m)
    (hin : cmd <:+: o.map u.toUpper) :
    getRawCommandParameters u cmd (pre ++ o) =
      (withoutChecksum u o).drop (skipSpace o (paramStart u cmd o)) := by
  have hlen : 0 < pre.length := by
    rcases pre with _ | ⟨x, pre⟩
    · cases hpre
    · exact Nat.succ_pos _
  have hhead : ¬ ((pre ++ o).map u.toUpper).take cmd.length = cmd := fun htake =>
    hbefore 0 hlen (prefix_iff_eq_take.mpr htake.symm)
  have hstart : paramStart u cmd (pre ++ o) = pre.length + paramStart u cmd o := by
    obtain ⟨i, hi⟩ := Option.isSome_iff_exists.mp (index_isSome hin)
    have hshift : index cmd ((pre ++ o).map u.toUpper) = some (i + pre.length) := by
      rw [map_append, index_shift (by simpa using hbefore), hi, length_map]
      rfl
    rw [paramStart, if_neg hhead, hshift, paramStart]
    split
    · next htake =>
      rw [index_eq_zero (prefix_iff_eq_take.mpr htake.symm)] at hi
      cases hi
      simp
    · rw [hi]
      simp only [Option.getD_some]
      omega
  have hskip : skipSpace (pre ++ o) (pre.length + paramStart u cmd o) =
      pre.length + skipSpace o (paramStart u cmd o) := by
    rw [skipSpace, getElem?_append_right (Nat.le_add_right _ _), Nat.add_sub_cancel_left, skipSpace]
    split <;> rfl
  rw [getRawCommandParameters, if_neg hhead, hstart, hskip, withoutChecksum_append hpre,
    drop_length_add_append]

variable {number line : String} (hne : number ≠ "")
  (hvalue : ∀ c ∈ number.toList, isValuePart c = true)

theorem originalLine_numbered (number : String) (hwords : fields (commandText u line.toList) ≠ []) :
    ∃ pad, (∀ x ∈ pad, x = ' ') ∧
      (parseDispatchCommandLine u (numbered number line)).originalLine.toList =
        'N' :: number.toList ++ ' ' :: pad ++
          (parseDispatchCommandLine u line).originalLine.toList := by
  obtain ⟨pad, b, hline, hpad, hb⟩ := exists_trimFunc (· = ' ') line.toList
  refine ⟨pad, fun x hx => of_decide_eq_true (hpad x hx), ?_⟩
  simp only [parseDispatchCommandLine, String.toList_ofList]
  have hsome : trimFunc (· = ' ') line.toList ≠ [] := by
    intro hnil
    rw [commandText, hnil] at hwords
    exact hwords rfl
  have htext : (numbered number line).toList =
      ('N' :: number.toList ++ ' ' :: pad ++ trimFunc (· = ' ') line.toList) ++ b := by
    rw [toList_numbered, hline]
    simp [← hline]
  rw [htext, trimFunc_append_right hb, trimFunc_append_left hsome trimFunc_head trimFunc_getLast,
    cons_append, dropWhile_of_head (by simp)]

include hne hvalue

/-- A name does not begin in a line number or in the blanks behind it. -/
theorem no_occurrence_number (hvalid : isCommandValid u cmd = true) (hc : cmd ≠ [])
    (hkey : (getKey cmd).1 ≠ ['N']) {pad : List Char} (hpad : ∀ x ∈ pad, x = ' ') (m : ℕ)
    (hm : m < ('N' :: number.toList ++ ' ' :: pad).length) :
    ¬ cmd <+: (('N' :: number.toList ++ ' ' :: pad ++ o).map u.toUpper).drop m := by
  have hupper : ('N' :: number.toList ++ ' ' :: pad ++ o).map u.toUpper =
      'N' :: number.toList ++ ' ' :: pad ++ o.map u.toUpper := by
    have hblanks : pad.map u.toUpper = pad :=
      (map_congr_left fun x hx => by rw [hpad x hx, toUpper_blank, id]).trans (map_id _)
    simp [upper_number hvalue u, hblanks, toUpper_blank, u.toUpper_ascii 'N' (by decide)]
  rw [hupper]
  rintro ⟨t, ht⟩
  have hat : ∀ i < cmd.length, cmd[i]? =
      ('N' :: number.toList ++ ' ' :: pad ++ o.map u.toUpper)[m + i]? := by
    intro i hi
    rw [← getElem?_drop, ← ht, getElem?_append_left hi]
  have hlen := length_pos_iff.mpr hc
  have hfirst := hat 0 hlen
  rcases m with _ | m
  · -- the name begins with the N, and then with the number
    obtain ⟨d, digits, hnumber⟩ :=
      exists_cons_of_ne_nil (l := number.toList) (by simpa using hne)
    by_cases hone : cmd.length = 1
    · obtain ⟨x, rfl⟩ := length_eq_one_iff.mp hone
      cases Option.some_inj.mp hfirst
      exact hkey (by decide)
    · have hsecond := hat 1 (by omega)
      rw [hnumber] at hsecond
      have hd := hvalue d (by rw [hnumber]; simp)
      rw [valid_not_value hvalid (by omega) hsecond] at hd
      cases hd
  · have hx : cmd[0]? = (number.toList ++ ' ' :: pad)[m]? := by
      rw [hfirst, getElem?_append_left (by simpa using hm)]
      rfl
    obtain ⟨x, hx'⟩ : ∃ x, (number.toList ++ ' ' :: pad)[m]? = some x :=
      ⟨_, getElem?_eq_getElem (by simpa using hm)⟩
    rw [hx'] at hx
    rcases mem_append.mp (mem_of_getElem? hx') with hmem | hmem
    · exact absurd (hvalue x hmem) (by rw [valid_not_value hvalid (by omega) hx]; decide)
    · have hblank : x = ' ' := (mem_cons.mp hmem).elim id (hpad x)
      exact valid_notMem hvalid (by decide) (by decide) (hblank ▸ mem_of_getElem? hx)

/-- Behind a line number the name is searched for, and found where the line has it. -/
theorem lineParameters_numbered (hpair : OnePair u line)
    (hvalid : isCommandValid u (parseDispatchCommandLine u line).command.toList = true)
    (hsame : (parseDispatchCommandLine u (numbered number line)).command =
      (parseDispatchCommandLine u line).command) :
    lineParameters u (numbered number line) =
      let origline := (parseDispatchCommandLine u line).originalLine.toList
      (withoutChecksum u origline).drop (skipSpace origline
        (paramStart u (parseDispatchCommandLine u line).command.toList origline)) := by
  obtain ⟨w, hwords, -, hkey⟩ := id hpair
  have hsome : fields (commandText u line.toList) ≠ [] := by simp [hwords]
  have hcommand : (parseDispatchCommandLine u line).command.toList = w := by
    simp only [parseDispatchCommandLine, String.toList_ofList]
    rw [(commandOf_eq_flatten_iff hsome).mpr hpair, hwords, flatten_singleton]
  have hw : w ∈ fields (commandText u line.toList) := by simp [hwords]
  have hwne : w ≠ [] := by simpa using (mem_filter.mp hw).2
  obtain ⟨pad, hpad, horig⟩ := originalLine_numbered number hsome
  rw [hcommand] at hvalid
  rw [lineParameters, hsame, hcommand, horig]
  refine getRawCommandParameters_append ?_
    (no_occurrence_number hne hvalue hvalid hwne hkey hpad) ?_
  · rw [getLast?_append_of_ne_nil _ (cons_ne_nil _ _)]
    have hlast := getLast_mem (cons_ne_nil ' ' pad)
    exact congrArg some ((mem_cons.mp hlast).elim id (hpad _))
  · have hprefix := ((List.takeWhile_prefix (l := trimFunc (· = ' ') line.toList)
      (· ≠ ';')).map u.toUpper).isInfix
    simp only [parseDispatchCommandLine, String.toList_ofList]
    exact (infix_of_mem_fields hw).trans hprefix

end

/-! ### Line numbers -/

namespace DispatchRuntime

variable {H : Type*} {u : UnicodeTables}

/-- Two lines run the same command, with the same parameters apart from the line number. -/
def SameCommand (u : UnicodeTables) (self : DispatchRuntime H) (line line' : String) : Prop :=
  (parseDispatchCommandLine u line').command = (parseDispatchCommandLine u line).command ∧
    ∀ name, name ≠ "N" → self.seenParams u line' name = self.seenParams u line name

/-- If the line begins with the name of an extended command, then digits behind a last `*` in it
are no part of a parameter. -/
def ChecksumFree (u : UnicodeTables) (self : DispatchRuntime H) (line : String) : Prop :=
  let command := (parseDispatchCommandLine u line).command
  let origline := (parseDispatchCommandLine u line).originalLine.toList
  let start := skipSpace origline command.toList.length
  self.IsExtended command →
    (origline.map u.toUpper).take command.toList.length = command.toList →
    ∀ name, name ≠ "N" → rawParams u ((withoutChecksum u origline).drop start) name =
      rawParams u (origline.drop start) name

theorem parse_eq_of_fields {line line' : String}
    (h : fields (commandText u line'.toList) = fields (commandText u line.toList)) :
    (parseDispatchCommandLine u line').command = (parseDispatchCommandLine u line).command ∧
      (parseDispatchCommandLine u line').params = (parseDispatchCommandLine u line).params := by
  simp only [parseDispatchCommandLine, parseGcodeTokens, h, and_self]

/-- The parameters of a numbered line, if it has the command of the line. -/
theorem seenParams_numbered_iff {self : DispatchRuntime H} {number line : String}
    (hne : number ≠ "") (hvalue : ∀ c ∈ number.toList, isValuePart c = true)
    (hvalid : self.IsExtended (parseDispatchCommandLine u line).command →
      isCommandValid u (parseDispatchCommandLine u line).command.toList = true)
    (hpair : OnePair u line)
    (hsame : (parseDispatchCommandLine u (numbered number line)).command =
      (parseDispatchCommandLine u line).command) :
    (∀ name, name ≠ "N" →
        self.seenParams u (numbered number line) name = self.seenParams u line name) ↔
      self.ChecksumFree u line := by
  by_cases hext : self.IsExtended (parseDispatchCommandLine u line).command
  · have hext' : self.IsExtended (parseDispatchCommandLine u (numbered number line)).command := by
      rwa [hsame]
    have hnumbered := lineParameters_numbered hne hvalue hpair (hvalid hext) hsame
    rw [seenParams_extended hext, seenParams_extended hext', hnumbered, lineParameters,
      ChecksumFree]
    generalize parseDispatchCommandLine u line = parsed at hext ⊢
    simp only [getRawCommandParameters, paramStart]
    by_cases htake : (parsed.originalLine.toList.map u.toUpper).take parsed.command.toList.length =
        parsed.command.toList
    · simp only [if_pos htake]
      exact ⟨fun h _ _ => h, fun h => h hext htake⟩
    · simp only [if_neg htake]
      exact ⟨fun _ _ hno => absurd hno htake, fun _ _ _ => trivial⟩
  · have hext' : ¬ self.IsExtended
        (parseDispatchCommandLine u (numbered number line)).command := by rwa [hsame]
    rw [seenParams_of_not_extended hext, seenParams_of_not_extended hext']
    exact ⟨fun _ hno => absurd hno hext, fun _ name hname => params_numbered hne hvalue hname⟩

/-- A line number leaves a line its command exactly if the line is one word of one key and one
value; and a checksum behind it, exactly if it stands in a comment. -/
theorem line_number_transparent_iff (u : UnicodeTables) (ops : List (Op H))
    (self : DispatchRuntime H) (hself : self = final (step u) newDispatchRuntime ops)
    (number line : String) (hne : number ≠ "")
    (hvalue : ∀ c ∈ number.toList, isValuePart c = true)
    (hcommand : (parseDispatchCommandLine u line).command ≠ "") :
    (self.SameCommand u line (numbered number line) ↔
        OnePair u line ∧ self.ChecksumFree u line) ∧
      ∀ checksum : String,
        isTraditionalGCode u (parseDispatchCommandLine u line).command.toList = true →
        (self.SameCommand u line (numbered number (line ++ "*" ++ checksum)) ↔
          OnePair u line ∧ ';' ∈ line.toList) := by
  have hentries : ∀ {name}, self.IsExtended name → _ := fun hext =>
    extended_valid ops (hself ▸ hext)
  have hwords : fields (commandText u line.toList) ≠ [] := by
    intro hnil
    simp only [parseDispatchCommandLine, parseGcodeTokens, hnil] at hcommand
    exact hcommand rfl
  have hpair : (parseDispatchCommandLine u (numbered number line)).command =
      (parseDispatchCommandLine u line).command ↔ OnePair u line := by
    rw [command_numbered hne hvalue, ← commandOf_eq_flatten_iff hwords, eq_comm]
    exact String.ofList_inj
  refine ⟨?_, fun checksum htrad => ?_⟩
  · rw [SameCommand, hpair]
    exact and_congr_right fun h =>
      seenParams_numbered_iff hne hvalue (fun hext => (hentries hext).2) h (hpair.mpr h)
  · have hext : ¬ self.IsExtended (parseDispatchCommandLine u line).command := by
      intro hext
      rw [(hentries hext).1] at htrad
      cases htrad
    have htext : (line ++ "*" ++ checksum).toList = line.toList ++ '*' :: checksum.toList := by
      simp
    by_cases hcomment : ';' ∈ line.toList
    · -- the checksum is cut off with the comment
      have hfields : fields (commandText u (line ++ "*" ++ checksum).toList) =
          fields (commandText u line.toList) := by
        have hlen : (line.toList.takeWhile (· ≠ ';')).length ≠ line.toList.length := by
          intro hlen
          have hself := (takeWhile_sublist _).eq_of_length hlen
          exact of_decide_eq_true (takeWhile_eq_self_iff.mp hself _ hcomment) rfl
        rw [fields_commandText, fields_commandText, htext, takeWhile_append, if_neg hlen]
      have hcmd : (parseDispatchCommandLine u
          (numbered number (line ++ "*" ++ checksum))).command =
          (parseDispatchCommandLine u (numbered number line)).command := by
        rw [command_numbered hne hvalue, command_numbered hne hvalue, hfields]
      rw [SameCommand, hcmd, hpair, and_iff_left hcomment]
      refine and_iff_left_of_imp fun h name hname => ?_
      have hext' : ¬ self.IsExtended (parseDispatchCommandLine u
          (numbered number (line ++ "*" ++ checksum))).command := by
        rwa [hcmd, hpair.mpr h]
      rw [seenParams_of_not_extended hext, seenParams_of_not_extended hext',
        params_numbered hne hvalue hname, (parse_eq_of_fields hfields).2]
    · -- the checksum is a part of the command, which is longer than the line's
      refine iff_of_false (fun h => ?_) fun h => hcomment h.2
      have hall := ne_of_notMem hcomment
      have hstar : isSpace (u.toUpper '*') = false := by
        rw [u.toUpper_ascii '*' (by decide)]
        decide
      have hle := (length_command_le u line.toList).1
      rw [fields_commandText, flatten_fields, takeWhile_eq_self_iff.mpr hall] at hle
      have hcmd := h.1
      rw [command_numbered hne hvalue, fields_commandText, flatten_fields, htext,
        takeWhile_append_of_pos hall, takeWhile_cons_of_pos (by decide), map_append,
        map_cons, filter_append, filter_cons_of_pos (by rw [hstar]; rfl)] at hcmd
      have hlen := congrArg length (String.ofList_inj.mp hcmd)
      rw [length_append, length_cons] at hlen
      omega

/-- `G1 X10` moves, and with a line number it is the unknown command `G1X10`. -/
theorem numbered_move_lost : (parseDispatchCommandLine .ascii "G1 X10").command = "G1" ∧
      (parseDispatchCommandLine .ascii (numbered "5" "G1 X10")).command = "G1X10" := by
  decide +kernel

theorem line_number_transparent_iff_home :
    (parseDispatchCommandLine .ascii "G28").command ≠ "" ∧
      ((newDispatchRuntime : DispatchRuntime String).SameCommand .ascii "G28"
          (numbered "5" "G28") ↔
        OnePair .ascii "G28" ∧
          (newDispatchRuntime : DispatchRuntime String).ChecksumFree .ascii "G28") := by
  have hcommand : (parseDispatchCommandLine .ascii "G28").command ≠ "" := by decide +kernel
  exact ⟨hcommand, (line_number_transparent_iff .ascii [] newDispatchRuntime rfl "5" "G28"
    (by decide) (by simp [isValuePart]) hcommand).1⟩

end DispatchRuntime

/-! ### Comments -/

section

variable {u : UnicodeTables} {name value : String}

/-- A comment that gives a parameter the value `;`. -/
def harmful : List Char := [';', ' ', ';', '=', ';']

theorem setExtended_cases {results : Params} {key v : List Char}
    (h : setExtended u results key v name = some value) :
    results name = some value ∨ value.toList = v := by
  rw [setExtended, update_apply] at h
  split at h
  · exact .inr (by rw [← Option.some_inj.mp h, String.toList_ofList])
  · exact .inl h

/-- A value that was there after one pair and the text behind it: it was there before, or it is
made of characters of the text. -/
theorem value_of_pair {results : Params} {text key v more : List Char}
    (h : setExtended u results key v name = some value ∨
      ∀ c ∈ value.toList, c ∈ trimLeftBlanks more)
    (hv : ∀ c ∈ v, c ∈ text) (hmore : ∀ c ∈ more, c ∈ text) :
    results name = some value ∨ ∀ c ∈ value.toList, c ∈ text := by
  rcases h with hset | hmem
  · refine (setExtended_cases hset).imp_right fun heq c hc => hv c ?_
    rwa [heq] at hc
  · exact .inr fun c hc => hmore c ((dropWhile_sublist _).mem (hmem c hc))

/-- The values are made of the characters of the text. -/
theorem value_of_readParams {text : List Char} {results params : Params}
    (h : readParams u text results = .ok params) (hvalue : params name = some value) :
    results name = some value ∨ ∀ c ∈ value.toList, c ∈ text := by
  fun_induction readParams u text results with
  | case1 text results hkey => cases h; exact .inl hvalue
  | case2 text results key hkey => cases h; exact .inl hvalue
  | case3 text results key q rest hkey hq hval => cases h
  | case4 text results key q rest hkey hq v more hval ih =>
    have htext : text = key ++ '=' :: q :: (v ++ q :: more) := by
      rw [append_of_cut hkey, append_of_cut hval]
    exact value_of_pair (ih h) (fun c hc => by simp [htext, hc]) fun c hc => by simp [htext, hc]
  | case5 text results key first rest hkey hq hval =>
    cases h
    refine (setExtended_cases hvalue).imp_right fun hv c hc => ?_
    rw [hv] at hc
    rw [append_of_cut hkey]
    exact mem_append_right _ (mem_cons_of_mem _ (mem_of_mem_trimFunc hc))
  | case6 text results key first rest hkey hq v more hval ih =>
    have htext : text = key ++ '=' :: (v ++ ' ' :: more) := by
      rw [append_of_cut hkey, append_of_cut hval]
    exact value_of_pair (ih h) (fun c hc => by simp [htext, mem_of_mem_trimFunc hc])
      fun c hc => by simp [htext, hc]

/-- Behind any text without quotes the comment is read up to its value. -/
theorem readParams_harmful (text : List Char) (hquote : ∀ c ∈ text, isQuote c = false)
    (results : Params) :
    ∃ params name, readParams u (text ++ harmful) results = .ok params ∧
      params name = some ";" := by
  have hlast : ∀ (key : List Char) (results : Params), '=' ∉ key →
      ∃ params name, readParams u (key ++ '=' :: [';']) results = .ok params ∧
        params name = some ";" := fun key results hkey =>
    ⟨_, _, readParams_last hkey (by simp) (by simp [isQuote]) (by simp),
      update_self _ _ _⟩
  induction hn : text.length using Nat.strong_induction_on generalizing text results with
  | _ n ih =>
  by_cases heq : '=' ∈ text
  · obtain ⟨key, value, rfl, hkey⟩ := eq_append_cons_of_mem heq
    by_cases hblank : ' ' ∈ value
    · -- the next pair begins in the text
      obtain ⟨v, rest, rfl, hv⟩ := eq_append_cons_of_mem hblank
      have htrim : trimLeftBlanks (rest ++ harmful) = trimLeftBlanks rest ++ harmful := by
        rw [trimLeftBlanks, dropWhile_append]
        split
        · next hnil => rw [trimLeftBlanks, List.isEmpty_iff.mp hnil]; rfl
        · rfl
      have hle := (dropWhile_sublist (l := rest) (fun c => c = ' ' || c = '\t')).length_le
      have hshape : key ++ '=' :: (v ++ ' ' :: rest) ++ harmful =
          key ++ '=' :: (v ++ ' ' :: (rest ++ harmful)) := by simp
      rw [hshape, readParams_plain hkey
        (fun c hc => hquote c (by simp [mem_of_mem_head? hc])) hv, htrim]
      refine ih _ ?_ _ (fun c hc => hquote c ?_) _ rfl
      · rw [← hn, trimLeftBlanks]
        simp
        omega
      · simp [(dropWhile_sublist _).mem hc]
    · -- the value goes on to the blank of the comment
      have hshape : key ++ '=' :: value ++ harmful =
          key ++ '=' :: ((value ++ [';']) ++ ' ' :: [';', '=', ';']) := by simp [harmful]
      rw [hshape, readParams_plain hkey ?_ (by simp [hblank])]
      · exact hlast [';'] _ (by simp)
      · intro c hc
        rcases value with _ | ⟨d, value⟩
        · cases hc
          decide
        · cases hc
          exact hquote c (by simp)
  · -- the comment is the key
    simpa [harmful] using hlast (text ++ [';', ' ', ';']) results (by simp [heq])

/-- No character of the comment has a case or can stand in a name. -/
theorem harmful_facts {x : Char} (hx : x ∈ harmful) :
    x.toNat < 128 ∧ x.toUpper = x ∧ x ≠ '_' ∧ x.isAlpha = false ∧ x.isDigit = false := by
  simp only [harmful, mem_cons, not_mem_nil, or_false] at hx
  rcases hx with rfl | rfl | rfl | rfl | rfl
  all_goals decide

/-- A name that does not begin in the comment ends at most its length behind the text. -/
theorem paramStart_le {cmd before comment : List Char}
    (hhead : ∀ c ∈ cmd.head?, c ∉ comment.map u.toUpper) (hlen : cmd.length ≤ before.length) :
    paramStart u cmd (before ++ comment) ≤ before.length + cmd.length := by
  rw [paramStart]
  split
  · exact Nat.le_add_left _ _
  · rcases hindex : index cmd ((before ++ comment).map u.toUpper) with _ | i
    · simp only [Option.getD_none]
      omega
    · rcases cmd with _ | ⟨c, cmd⟩
      · exact absurd rfl ‹_›
      obtain ⟨t, ht⟩ := prefix_of_index hindex
      have hfirst : ((before ++ comment).map u.toUpper)[i]? = some c := by
        have hzero := congrArg (fun l => l[0]?) ht
        simpa [getElem?_drop] using hzero.symm
      have hlt : i < before.length := by
        by_contra hge
        rw [map_append, getElem?_append_right (by rw [length_map]; omega)] at hfirst
        exact hhead c rfl (mem_of_getElem? hfirst)
      simp only [Option.getD_some, length_cons]
      omega

theorem mem_withoutChecksum {line : List Char} {x : Char} (h : x ∈ withoutChecksum u line) :
    x ∈ line := by
  rw [withoutChecksum] at h
  split at h
  · next before hdrop =>
    split at h
    · refine mem_reverse.mp ((dropWhile_sublist u.isDigit).mem ?_)
      rw [hdrop]
      exact mem_cons_of_mem _ (mem_reverse.mp h)
    · exact h
  · exact h

theorem mem_lineParameters {line : String} {x : Char} (h : x ∈ lineParameters u line) :
    x ∈ line.toList := by
  have hdrop := mem_of_mem_drop h
  have horig : x ∈ trimFunc (· = ' ') line.toList := by
    simp only [parseDispatchCommandLine, String.toList_ofList] at hdrop
    split at hdrop
    · exact hdrop
    · exact mem_withoutChecksum hdrop
  exact mem_of_mem_trimFunc horig

/-- A comment of more semicolons than the name has characters is not used up by it, and nothing of
the harmful end is trimmed or cut off as a checksum. -/
theorem lineParameters_comment {text line : String} {cmd : List Char} (hcomment : ';' ∉ text.toList)
    (hcommand : (parseDispatchCommandLine u line).command.toList = cmd)
    (hhead : ∀ c ∈ cmd.head?, c ∉ harmful)
    (hline : line.toList = text.toList ++ (replicate (cmd.length + 1) ';' ++ harmful)) :
    ∃ before, (∀ x ∈ before, x ∈ text.toList ∨ x = ';') ∧
      lineParameters u line = before ++ harmful := by
  have hupper : ∀ x ∈ (replicate (cmd.length + 1) ';' ++ harmful).map u.toUpper, x ∈ harmful := by
    intro x hx
    obtain ⟨y, hy, rfl⟩ := mem_map.mp hx
    have hmem : y ∈ harmful := (mem_append.mp hy).elim
      (fun hsemi => eq_of_mem_replicate hsemi ▸ mem_cons_self) id
    rwa [u.toUpper_ascii y (harmful_facts hmem).1, (harmful_facts hmem).2.1]
  have htrim : trimFunc (· = ' ') line.toList =
      text.toList.dropWhile (· = ' ') ++ (replicate (cmd.length + 1) ';' ++ harmful) := by
    rw [hline, trimFunc_append_left (by simp) (by simp [replicate_succ]) (by simp [harmful])]
  have hsub : ∀ x ∈ text.toList.dropWhile (· = ' '), x ∈ text.toList := fun x hx =>
    (dropWhile_sublist _).mem hx
  have hlen : cmd.length ≤ (text.toList.dropWhile (· = ' ')).length := by
    obtain ⟨h₁, h₂, -, -⟩ := length_command_le u line.toList
    have htext : (commandText u line.toList).length =
        (text.toList.dropWhile (· = ' ')).length := by
      rw [commandText, htrim, length_map,
        takeWhile_append_of_pos (ne_of_notMem fun hmem => hcomment (hsub _ hmem))]
      simp [replicate_succ]
    simp only [parseDispatchCommandLine, String.toList_ofList] at hcommand
    rw [← hcommand]
    omega
  have horig : (parseDispatchCommandLine u line).originalLine.toList =
      trimFunc (· = ' ') line.toList := by
    simp only [parseDispatchCommandLine, String.toList_ofList]
  rw [lineParameters, hcommand, horig, htrim, getRawCommandParameters]
  generalize text.toList.dropWhile (· = ' ') = before at hsub hlen ⊢
  have hkeep : withoutChecksum u (before ++ (replicate (cmd.length + 1) ';' ++ harmful)) =
      before ++ (replicate (cmd.length + 1) ';' ++ harmful) := by
    have hdigit : u.isDigit ';' = false := u.isDigit_ascii ';' (by decide)
    simp [harmful, withoutChecksum, hdigit]
  have hstart := paramStart_le (u := u) (fun c hc hmem => hhead c hc (hupper c hmem)) hlen
  have hskip : ∀ line start, skipSpace line start ≤ start + 1 := by
    intro line start
    rw [skipSpace]
    split
    all_goals omega
  have hend := hskip (before ++ (replicate (cmd.length + 1) ';' ++ harmful)) _ |>.trans
    (Nat.succ_le_succ hstart)
  rw [← append_assoc] at hend
  rw [hkeep, ite_self, ← append_assoc]
  refine ⟨_, fun x hx => ?_, drop_append_of_le_length ?_⟩
  · rcases mem_append.mp (mem_of_mem_drop hx) with hx | hx
    · exact .inl (hsub x hx)
    · exact .inr (eq_of_mem_replicate hx)
  · rw [length_append, length_replicate]
    exact hend

end

namespace DispatchRuntime

variable {H : Type*} {u : UnicodeTables}

/-- What a handler can read of the parameters: the map, and the text that they stand in. -/
structure SeenParameters where
  params : Params
  rawParameters : Option (List Char)

/-- What the handler of a line reads of its parameters.  `readsRaw` tells which handlers call
`RawParameters`, as the one of a macro does. -/
def seen (u : UnicodeTables) (readsRaw : H → Bool) (self : DispatchRuntime H) (line : String) :
    SeenParameters where
  params := self.seenParams u line
  rawParameters :=
    match self.activeHandlers (parseDispatchCommandLine u line).command with
    | some entry => if readsRaw entry.handler then some (lineParameters u line) else none
    | none => none

/-- The command is dispatched to a handler that calls `RawParameters`. -/
def ReadsRaw (readsRaw : H → Bool) (self : DispatchRuntime H) (name : String) : Prop :=
  ∃ entry, self.activeHandlers name = some entry ∧ readsRaw entry.handler = true

variable {self : DispatchRuntime H}

theorem seen_readsRaw {readsRaw : H → Bool} {line : String}
    (h : self.ReadsRaw readsRaw (parseDispatchCommandLine u line).command) :
    (self.seen u readsRaw line).rawParameters = some (lineParameters u line) := by
  obtain ⟨entry, hentry, hreads⟩ := h
  simp only [seen, hentry, hreads, if_true]

theorem seen_of_not_readsRaw {readsRaw : H → Bool} {line : String}
    (h : ¬ self.ReadsRaw readsRaw (parseDispatchCommandLine u line).command) :
    (self.seen u readsRaw line).rawParameters = none := by
  simp only [seen]
  split
  · next entry hentry => exact if_neg fun hreads => h ⟨entry, hentry, hreads⟩
  · rfl

variable {text : String}

theorem fields_comment (hcomment : ';' ∉ text.toList) (comment : String) :
    fields (commandText u (text ++ ";" ++ comment).toList) =
      fields (commandText u text.toList) := by
  have hall := ne_of_notMem hcomment
  rw [fields_commandText, fields_commandText, takeWhile_eq_self_iff.mpr hall,
    String.toList_append, String.toList_append, append_assoc, takeWhile_append_of_pos hall]
  simp

/-- A name that can be registered does not begin as the comment. -/
theorem Fits.notMem_harmful {name : String} {entry : Entry H} (h : Fits u name entry) :
    ∀ c ∈ name.toList.head?, c ∉ harmful := by
  intro c hc hmem
  obtain ⟨hascii, hupper, hno⟩ := harmful_facts hmem
  obtain ⟨cmd, hcmd⟩ := head?_eq_some_iff.mp hc
  rcases entry with handler | ⟨_, handler⟩
  · have hletter : u.isUpper c = false := by
      rw [u.isUpper_ascii c hascii]
      exact (Bool.or_eq_false_iff.mp hno.2.1).1
    have hfits : isTraditionalGCode u name.toList = true := h
    rw [isTraditionalGCode, hcmd, map_cons, u.toUpper_ascii c hascii, hupper, takeWhile_cons]
      at hfits
    split at hfits
    · simp [hletter] at hfits
    · cases hfits
  · exact valid_notMem h.2 hascii hno (hcmd ▸ mem_cons_self)

/-- For every text of a command a comment reaches into the text of the parameters. -/
theorem exists_comment {ops : List (Op H)} (hself : self = final (step u) newDispatchRuntime ops)
    (hcomment : ';' ∉ text.toList) {entry : Entry H}
    (hentry : self.activeHandlers (parseDispatchCommandLine u text).command = some entry) :
    ∃ comment before, (∀ x ∈ before, x ∈ text.toList ∨ x = ';') ∧
      lineParameters u (text ++ ";" ++ comment) = before ++ harmful := by
  have hfits := fits_of_activeHandlers ops (hself ▸ hentry)
  have hsame := fun comment => (parse_eq_of_fields (fields_comment (u := u) hcomment comment)).1
  refine ⟨String.ofList
    (replicate (parseDispatchCommandLine u text).command.toList.length ';' ++ harmful), ?_⟩
  refine lineParameters_comment hcomment (by rw [hsame]) hfits.notMem_harmful ?_
  simp [replicate_succ]

/-- A value that a comment has set is none of the text. -/
theorem rawParams_comment {before : List Char} (hcomment : ';' ∉ text.toList)
    (hquote : ∀ c ∈ before, isQuote c = false) :
    rawParams u (before ++ harmful) ≠ rawParams u (lineParameters u text) := by
  intro hsame
  obtain ⟨params, name, hread, hvalue⟩ := readParams_harmful (u := u) (before.dropWhile isSpace)
    (fun c hc => hquote c ((dropWhile_sublist _).mem hc)) fun _ => none
  have hharmful : rawParams u (before ++ harmful) = params := by
    rw [rawParams, parseExtendedParams, trimSpace,
      trimFunc_append_left (by decide) (by simp [harmful]; decide) (by simp [harmful]; decide),
      hread]
  rw [← hharmful, hsame, rawParams] at hvalue
  rcases hok : parseExtendedParams u (lineParameters u text) with err | params'
  · rw [hok] at hvalue
    cases hvalue
  · rw [hok] at hvalue
    rcases value_of_readParams hok hvalue with hno | hmem
    · cases hno
    · exact hcomment (mem_lineParameters (mem_of_mem_trimFunc (hmem ';' (by simp))))

/-- No comment changes the command of a line or what its handler reads of the parameters exactly if
the command is not an extended one and its handler does not read the raw parameters. -/
theorem comment_transparent_iff (u : UnicodeTables) (readsRaw : H → Bool) (ops : List (Op H))
    (self : DispatchRuntime H) (hself : self = final (step u) newDispatchRuntime ops)
    (text : String) (hcomment : ';' ∉ text.toList) (hquote : ∀ c ∈ text.toList, isQuote c = false) :
    (∀ comment, (parseDispatchCommandLine u (text ++ ";" ++ comment)).command =
          (parseDispatchCommandLine u text).command ∧
        self.seen u readsRaw (text ++ ";" ++ comment) = self.seen u readsRaw text) ↔
      ¬ self.IsExtended (parseDispatchCommandLine u text).command ∧
        ¬ self.ReadsRaw readsRaw (parseDispatchCommandLine u text).command := by
  have hparse := fun comment => parse_eq_of_fields (fields_comment (u := u) hcomment comment)
  constructor
  · intro h
    have hreached : ∀ entry,
        self.activeHandlers (parseDispatchCommandLine u text).command = some entry →
        ∃ line before, (∀ x ∈ before, x ∈ text.toList ∨ x = ';') ∧
          lineParameters u line = before ++ harmful ∧
          (parseDispatchCommandLine u line).command = (parseDispatchCommandLine u text).command ∧
          self.seen u readsRaw line = self.seen u readsRaw text := by
      intro entry hentry
      obtain ⟨comment, before, hbefore, hraw⟩ := exists_comment hself hcomment hentry
      exact ⟨_, before, hbefore, hraw, h comment⟩
    constructor
    · intro hext
      obtain ⟨cmd, handler, hentry⟩ := id hext
      obtain ⟨line, before, hbefore, hraw, hsame, hseen⟩ := hreached _ hentry
      have hparams := congrArg SeenParameters.params hseen
      have hext' : self.IsExtended (parseDispatchCommandLine u line).command := by rwa [hsame]
      change self.seenParams u line = self.seenParams u text at hparams
      rw [seenParams_extended hext, seenParams_extended hext', hraw] at hparams
      refine rawParams_comment hcomment (fun c hc => ?_) hparams
      rcases hbefore c hc with htext | rfl
      · exact hquote c htext
      · decide
    · intro hreads
      obtain ⟨entry, hentry, -⟩ := id hreads
      obtain ⟨line, before, hbefore, hraw, hsame, hseen⟩ := hreached _ hentry
      have hparams := congrArg SeenParameters.rawParameters hseen
      have hreads' : self.ReadsRaw readsRaw (parseDispatchCommandLine u line).command := by
        rwa [hsame]
      rw [seen_readsRaw hreads, seen_readsRaw hreads', hraw] at hparams
      refine hcomment (mem_lineParameters (u := u) ?_)
      rw [← Option.some_inj.mp hparams]
      exact mem_append_right _ mem_cons_self
  · rintro ⟨hext, hreads⟩ comment
    obtain ⟨hsame, hparams⟩ := hparse comment
    rw [← hsame] at hext hreads
    have hmap : self.seenParams u (text ++ ";" ++ comment) = self.seenParams u text := by
      rw [seenParams_of_not_extended hext, seenParams_of_not_extended (hsame ▸ hext), hparams]
    have hraw : (self.seen u readsRaw (text ++ ";" ++ comment)).rawParameters =
        (self.seen u readsRaw text).rawParameters := by
      rw [seen_of_not_readsRaw hreads, seen_of_not_readsRaw (hsame ▸ hreads)]
    refine ⟨hsame, ?_⟩
    rw [seen, seen, SeenParameters.mk.injEq]
    exact ⟨hmap, hraw⟩

end DispatchRuntime

/-- A runtime with an extended command and a macro for a tool change. -/
def pinRuntime : DispatchRuntime String :=
  final (DispatchRuntime.step .ascii) DispatchRuntime.newDispatchRuntime
    [.registerCommand "SET_PIN" (some "cmdSetPin") true "",
      .registerCommand "T0" (some "GCodeMacro.cmd") true "",
      .registerCommand "M110" (some "Cmd_M110") true ""]

def isMacro (handler : String) : Bool := handler = "GCodeMacro.cmd"

/-- `SET_PIN PIN=fan;off` sets the pin `fan;off`, and the macro `T0` gets its comment. -/
theorem comment_read :
    ((pinRuntime.seen .ascii isMacro "SET_PIN PIN=fan;off").params "PIN" = some "fan;off" ∧
        (pinRuntime.seen .ascii isMacro "SET_PIN PIN=fan").params "PIN" = some "fan") ∧
      (pinRuntime.seen .ascii isMacro "T0 ;x").rawParameters = some [';', 'x'] ∧
      (pinRuntime.seen .ascii isMacro "T0 ").rawParameters = some [] := by
  decide +kernel

/-- The handler of `M110` reads no parameters, and no comment matters to it. -/
theorem comment_transparent_iff_numbering :
    pinRuntime.activeHandlers "M110" = some (.traditional "Cmd_M110") ∧
      ∀ comment, (parseDispatchCommandLine .ascii ("M110 N5 " ++ ";" ++ comment)).command =
          (parseDispatchCommandLine .ascii "M110 N5 ").command ∧
        pinRuntime.seen .ascii isMacro ("M110 N5 " ++ ";" ++ comment) =
          pinRuntime.seen .ascii isMacro "M110 N5 " := by
  have hcommand : (parseDispatchCommandLine .ascii "M110 N5 ").command = "M110" := by
    decide +kernel
  have hentry : pinRuntime.activeHandlers "M110" = some (.traditional "Cmd_M110") := by
    decide +kernel
  refine ⟨hentry, (DispatchRuntime.comment_transparent_iff .ascii isMacro _ pinRuntime rfl
    "M110 N5 " (by decide) (by simp [isQuote])).mpr ⟨?_, ?_⟩⟩
  · rintro ⟨cmd, handler, hext⟩
    rw [hcommand, hentry] at hext
    cases hext
  · rintro ⟨entry, hactive, hreads⟩
    rw [hcommand, hentry] at hactive
    cases hactive
    exact absurd hreads (by decide)

end Gcode
