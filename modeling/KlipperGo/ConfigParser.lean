/-
The configuration parser.

`parseContent` goes through the lines of a text with the section and the option it is in.  Three
patterns tell comments, section headers and options apart; a line that none of them matches
continues the value of the last option, if that option had no value on its own line.

* `sectionMatch_eq_some`, `optionMatch_eq_some` — what the patterns match;
* `parseLine_cases` — what a line can do, by its kind;
* `parseLines_ok_iff` — the loop panics exactly on a line that is not indented and would continue
  an option;
* `LastWritten.get` — what is stored of an option that is not written again.
-/
import KlipperGo.GoRuntime
import KlipperGo.GoStrings
import KlipperGo.Returns
import Mathlib.Data.List.AList
import Mathlib.Data.List.Induction

namespace Config

open GoRuntime GoStrings List AList

abbrev Text := List Char

/-! ### Patterns -/

/-- `\s` in a pattern. -/
def reSpace (c : Char) : Bool := c = '\t' ∨ c = '\n' ∨ c = '\x0c' ∨ c = '\r' ∨ c = ' '

/-- The class `[_A_Za-z]` at the beginning of a section name: of the capital letters it has only
`A` and `Z`. -/
def sectionStart (c : Char) : Bool := c = '_' ∨ c = 'A' ∨ c = 'Z' ∨ ('a' ≤ c ∧ c ≤ 'z')

/-- The class `[_A-Za-z]` at the beginning of an option name. -/
def optionStart (c : Char) : Bool := c = '_' ∨ ('A' ≤ c ∧ c ≤ 'Z') ∨ ('a' ≤ c ∧ c ≤ 'z')

/-- `commentRegexp`, the pattern `^\s*[#|;].*$`. -/
def commentMatch (line : Text) : Bool :=
  match line.dropWhile reSpace with
  | c :: _ => c = '#' ∨ c = '|' ∨ c = ';'
  | [] => false

/-- `sectionRegexp`, the pattern `^\s*\[([_A_Za-z].*?)\]\s*$`: its group. -/
def sectionMatch (line : Text) : Option Text :=
  match line.dropWhile reSpace with
  | '[' :: c :: rest =>
    match rest.reverse.dropWhile reSpace with
    | ']' :: name => if sectionStart c then some (c :: name.reverse) else none
    | _ => none
  | _ => none

/-- `optionRegexp`, the pattern `((?U)^([_A-Za-z].*)[=:])([^#]*)`: the groups for the name, which
is the shortest, and the value. -/
def optionMatch (line : Text) : Option (Text × Text) :=
  match line with
  | [] => none
  | c :: rest =>
    match rest.dropWhile fun d => !(d = '=' ∨ d = ':') with
    | _ :: value =>
      if optionStart c then
        some (c :: rest.takeWhile fun d => !(d = '=' ∨ d = ':'), value.takeWhile (· ≠ '#'))
      else none
    | [] => none

/-! ### The loop -/

abbrev Options := AList fun _ : Text => Text

/-- The sections in the order they were first seen in, and their options. -/
structure SortedMap where
  sorted : List Text
  core : AList fun _ : Text => Options

namespace SortedMap

def empty : SortedMap := ⟨[], ∅⟩

variable (config : SortedMap) (name option : Text)

def get : Option Text :=
  (config.core.lookup name).bind (·.lookup option)

/-- `config[name] = make(map[string]string)`, if the section is not there. -/
def addSection : SortedMap :=
  if name ∈ config.core then config else ⟨config.sorted ++ [name], config.core.insert name ∅⟩

/-- `config[name].(map[string]string)[option] = value`, where the section is there. -/
def set (value : Text) : SortedMap :=
  { config with
    core := config.core.insert name (((config.core.lookup name).getD ∅).insert option value) }

end SortedMap

structure Loop where
  config : SortedMap
  lastSection : Text
  lastOption : Text

def Loop.start : Loop := ⟨.empty, [], []⟩

variable (s : Loop) {c : Char}

/-- An assignment to an option of the section the loop is in. -/
def Loop.setOption (option value : Text) : Except Panic Loop :=
  if s.lastSection ∈ s.config.core then
    .ok { s with config := s.config.set s.lastSection option value }
  else .error .typeAssertion

/-- A line of a value up to the comment. -/
def cutValue (line : Text) : Text :=
  if ';' ∈ line then line.takeWhile (· ≠ ';') else line.takeWhile (· ≠ '#')

/-- A line that none of the patterns matches, after an option without a value. -/
def Loop.continueOption (line : Text) : Except Panic Loop :=
  let line := cutValue line
  if trimSpace line = [] then .ok s
  else if line.head? ≠ some ' ' then
    .error (.value ["multi-line option value should has at least two space character: ",
      String.ofList s.lastSection, ", ", String.ofList s.lastOption, ",", String.ofList line])
  else
    let line := trimSpace line
    let value := (s.config.get s.lastSection s.lastOption).getD []
    s.setOption s.lastOption (if value ≠ [] then value ++ '\n' :: line else line)

def parseLine (line : Text) : Except Panic Loop :=
  if commentMatch line then .ok s
  else if trimSpace line = [] then .ok s
  else if s.lastOption ≠ [] ∧ (sectionMatch line).isNone ∧ (optionMatch line).isNone then
    s.continueOption line
  else
    let s := { s with lastOption := [] }
    match sectionMatch line with
    | some name =>
      let name := trimSpace name
      .ok { s with lastSection := name, config := s.config.addSection name }
    | none =>
      match optionMatch line with
      | none => .ok s
      | some (option, value) =>
        if s.lastSection = [] then .ok s
        else do
          let option := trimSpace option
          let value := trimSpace value
          let s ← s.setOption option value
          return { s with lastOption := if value = [] then option else [] }

variable (lines : List Text)

def parseLines : Except Panic Loop := lines.foldlM parseLine s

variable (content : Text) {p : Char → Bool}

/-- The lines of a text, which end at either newline character; there are no empty ones. -/
def fieldLines : List Text := fieldsFunc (fun c => c = '\r' ∨ c = '\n') content

def parseContent : Except Panic SortedMap :=
  (·.config) <$> parseLines .start (fieldLines content)

/-! ### What the patterns match -/

theorem isSpace_of_reSpace (h : reSpace c = true) : isSpace c = true := by
  rcases of_decide_eq_true h with rfl | rfl | rfl | rfl | rfl <;> decide

theorem optionStart_of_sectionStart (h : sectionStart c = true) : optionStart c = true := by
  rcases of_decide_eq_true h with rfl | rfl | rfl | h
  · decide
  · decide
  · decide
  · exact decide_eq_true (.inr (.inr h))

theorem isSpace_of_optionStart (h : optionStart c = true) : isSpace c = false := by
  have hrange : 65 ≤ c.toNat ∧ c.toNat ≤ 122 := by
    rcases of_decide_eq_true h with rfl | ⟨hlo, hhi⟩ | ⟨hlo, hhi⟩
    · decide
    · exact ⟨hlo, le_trans (show c.toNat ≤ 90 from hhi) (by decide)⟩
    · exact ⟨le_trans (by decide) (show 97 ≤ c.toNat from hlo), hhi⟩
  have hblank : c ≠ ' ' := by
    rintro rfl
    exact absurd hrange.1 (by decide)
  unfold isSpace
  simp only [hblank, false_or, decide_eq_false_iff_not]
  omega

theorem sep_of_optionStart (h : optionStart c = true) : c ≠ '=' ∧ c ≠ ':' := by
  constructor
  · rintro rfl
    exact absurd h (by decide)
  · rintro rfl
    exact absurd h (by decide)

theorem exists_of_dropWhile {s r : Text} (h : s.dropWhile p = c :: r) :
    s = s.takeWhile p ++ c :: r ∧ (∀ d ∈ s.takeWhile p, p d = true) ∧ p c = false := by
  refine ⟨?_, fun d hd => mem_takeWhile_imp hd, ?_⟩
  · rw [← h, takeWhile_append_dropWhile]
  · have hnot := head_dropWhile_not p (l := s) (by rw [h]; simp)
    simpa [h] using hnot

theorem sectionMatch_eq_some {line name : Text} : sectionMatch line = some name ↔
      ∃ ws ws', line = ws ++ '[' :: (name ++ ']' :: ws') ∧ (∀ c ∈ ws, reSpace c = true) ∧
        (∀ c ∈ ws', reSpace c = true) ∧ ∃ c ∈ name.head?, sectionStart c = true := by
  constructor
  · intro h
    unfold sectionMatch at h
    split at h
    · next c rest hline =>
      obtain ⟨heq, hws, -⟩ := exists_of_dropWhile hline
      split at h
      · next name' hrest =>
        obtain ⟨heq', hws', -⟩ := exists_of_dropWhile hrest
        split at h
        · next hc =>
          cases h
          refine ⟨_, _, ?_, hws, fun d hd => hws' d (mem_reverse.mp hd), c, rfl, hc⟩
          rw [reverse_eq_iff, reverse_append, reverse_cons, append_assoc, singleton_append] at heq'
          rw [cons_append, ← heq']
          exact heq
        · cases h
      · cases h
    · cases h
  · rintro ⟨ws, ws', rfl, hws, hws', c, hc, hstart⟩
    obtain ⟨name, rfl⟩ := head?_eq_some_iff.mp hc
    have hopen : (ws ++ '[' :: (c :: name ++ ']' :: ws')).dropWhile reSpace =
        '[' :: c :: (name ++ ']' :: ws') := by
      rw [dropWhile_append_of_pos hws]
      rfl
    have hclose : (name ++ ']' :: ws').reverse.dropWhile reSpace = ']' :: name.reverse := by
      rw [reverse_append, reverse_cons, append_assoc,
        dropWhile_append_of_pos fun d hd => hws' d (mem_reverse.mp hd)]
      rfl
    unfold sectionMatch
    rw [hopen]
    simp only [hclose, hstart, if_true, reverse_reverse]

theorem optionMatch_eq_some {line key value : Text} : optionMatch line = some (key, value) ↔
      ∃ sep text, line = key ++ sep :: text ∧ (sep = '=' ∨ sep = ':') ∧
        value = text.takeWhile (· ≠ '#') ∧ (∃ c ∈ key.head?, optionStart c = true) ∧
        ∀ d ∈ key, d ≠ '=' ∧ d ≠ ':' := by
  have hsep {d : Char} : (!decide (d = '=' ∨ d = ':')) = true ↔ d ≠ '=' ∧ d ≠ ':' := by
    rw [Bool.not_eq_true', decide_eq_false_iff_not, not_or]
  constructor
  · intro h
    unfold optionMatch at h
    split at h
    · cases h
    · next c rest =>
      split at h
      · next sep text hrest =>
        obtain ⟨heq, hname, hend⟩ := exists_of_dropWhile hrest
        split at h
        · next hc =>
          cases h
          refine ⟨sep, text, ?_, ?_, rfl, ⟨c, rfl, hc⟩, ?_⟩
          · rw [cons_append, ← heq]
          · rw [Bool.not_eq_false', decide_eq_true_eq] at hend
            exact hend
          · intro d hd
            rcases mem_cons.mp hd with rfl | hd
            · exact sep_of_optionStart hc
            · exact hsep.mp (hname d hd)
        · cases h
      · cases h
  · rintro ⟨sep, text, rfl, hsep', rfl, ⟨c, hc, hstart⟩, hkey⟩
    obtain ⟨key, rfl⟩ := head?_eq_some_iff.mp hc
    have hname : ∀ d ∈ key, (!decide (d = '=' ∨ d = ':')) = true :=
      fun d hd => hsep.mpr (hkey d (mem_cons_of_mem c hd))
    have hend : (!decide (sep = '=' ∨ sep = ':')) = false := by
      rw [decide_eq_true hsep']
      rfl
    have hdrop : (key ++ sep :: text).dropWhile (fun d => !(d = '=' ∨ d = ':')) = sep :: text := by
      rw [dropWhile_append_of_pos hname, dropWhile_cons, hend, if_neg Bool.false_ne_true]
    have htake : (key ++ sep :: text).takeWhile (fun d => !(d = '=' ∨ d = ':')) = key := by
      rw [takeWhile_append_of_pos hname, takeWhile_cons, hend,
        if_neg Bool.false_ne_true, append_nil]
    unfold optionMatch
    simp only [cons_append, hdrop, htake, hstart, if_true]

/-! ### Kinds of lines -/

inductive Kind where
  | ignored
  | header (name : Text)
  | option (key value : Text)
  | other
  deriving DecidableEq

def kind (line : Text) : Kind :=
  if commentMatch line ∨ trimSpace line = [] then .ignored
  else
    match sectionMatch line with
    | some name => .header (trimSpace name)
    | none =>
      match optionMatch line with
      | some (key, value) => .option (trimSpace key) (trimSpace value)
      | none => .other

/-- The text a line adds to the value of an option that is open. -/
def contText (line : Text) : Option Text :=
  if kind line = .other ∧ trimSpace (cutValue line) ≠ [] then some (trimSpace (cutValue line))
  else none

/-- A line that may not follow an option that is open. -/
def Stray (line : Text) : Prop :=
  kind line = .other ∧ trimSpace (cutValue line) ≠ [] ∧ (cutValue line).head? ≠ some ' '

namespace Loop

/-- The section the loop is in is there, and an option is open only in a section. -/
structure Valid (s : Loop) : Prop where
  mem : s.lastSection ≠ [] → s.lastSection ∈ s.config.core
  inside : s.lastOption ≠ [] → s.lastSection ≠ []

def openSection (s : Loop) (name : Text) : Loop where
  config := s.config.addSection name
  lastSection := name
  lastOption := []

def define (s : Loop) (key value : Text) : Loop :=
  if s.lastSection = [] then { s with lastOption := [] }
  else
    { s with
      config := s.config.set s.lastSection key value
      lastOption := if value = [] then key else [] }

def extend (s : Loop) (text : Text) : Loop :=
  let value := (s.config.get s.lastSection s.lastOption).getD []
  { s with
    config := s.config.set s.lastSection s.lastOption
      (if value ≠ [] then value ++ '\n' :: text else text) }

end Loop

variable {s : Loop} {line : Text} {key value : Text}

theorem parseLine_ignored (h : kind line = .ignored) : parseLine s line = .ok s := by
  unfold kind at h
  split at h
  · next hignored =>
    unfold parseLine
    rcases hignored with hcomment | hblank
    · rw [if_pos hcomment]
    · rw [if_pos hblank, ite_self]
  · split at h
    · cases h
    · split at h <;> cases h

theorem kind_eq_header {name : Text} (h : kind line = .header name) :
    ¬ commentMatch line ∧ trimSpace line ≠ [] ∧
      ∃ raw, sectionMatch line = some raw ∧ name = trimSpace raw := by
  unfold kind at h
  split at h
  · cases h
  · next hline =>
    obtain ⟨hcomment, hblank⟩ := not_or.mp hline
    split at h
    · next raw hraw =>
      cases h
      exact ⟨hcomment, hblank, raw, hraw, rfl⟩
    · split at h <;> cases h

theorem kind_eq_option (h : kind line = .option key value) :
    ¬ commentMatch line ∧ trimSpace line ≠ [] ∧ sectionMatch line = none ∧
      ∃ raw text, optionMatch line = some (raw, text) ∧ key = trimSpace raw ∧
        value = trimSpace text := by
  unfold kind at h
  split at h
  · cases h
  · next hline =>
    obtain ⟨hcomment, hblank⟩ := not_or.mp hline
    split at h
    · cases h
    · next hsection =>
      split at h
      · next raw text hraw =>
        cases h
        exact ⟨hcomment, hblank, hsection, raw, text, hraw, rfl, rfl⟩
      · cases h

theorem kind_eq_other (h : kind line = .other) :
    ¬ commentMatch line ∧ trimSpace line ≠ [] ∧ sectionMatch line = none ∧
      optionMatch line = none := by
  unfold kind at h
  split at h
  · cases h
  · next hline =>
    obtain ⟨hcomment, hblank⟩ := not_or.mp hline
    split at h
    · cases h
    · next hsection =>
      split at h
      · cases h
      · next hoption => exact ⟨hcomment, hblank, hsection, hoption⟩

theorem parseLine_header {name : Text} (h : kind line = .header name) :
    parseLine s line = .ok (s.openSection name) := by
  obtain ⟨hcomment, hblank, raw, hraw, rfl⟩ := kind_eq_header h
  unfold parseLine
  rw [if_neg hcomment, if_neg hblank, hraw, if_neg (by simp)]
  rfl

theorem parseLine_option (hs : s.Valid) (h : kind line = .option key value) :
    parseLine s line = .ok (s.define key value) := by
  obtain ⟨hcomment, hblank, hsection, raw, text, hraw, rfl, rfl⟩ := kind_eq_option h
  unfold parseLine Loop.define
  rw [if_neg hcomment, if_neg hblank, hsection, hraw, if_neg (by simp)]
  dsimp only
  by_cases hempty : s.lastSection = []
  · rw [if_pos hempty, if_pos hempty]
  · rw [if_neg hempty, if_neg hempty, Loop.setOption, if_pos (hs.mem hempty)]
    rfl

theorem parseLine_other (hs : s.Valid) (h : kind line = .other) : parseLine s line =
      if s.lastOption = [] ∨ contText line = none then .ok s
      else if (cutValue line).head? ≠ some ' ' then
        .error (.value ["multi-line option value should has at least two space character: ",
          String.ofList s.lastSection, ", ", String.ofList s.lastOption, ",",
          String.ofList (cutValue line)])
      else .ok (s.extend (trimSpace (cutValue line))) := by
  obtain ⟨hcomment, hblank, hsection, hoption⟩ := kind_eq_other h
  have hcont : contText line = none ↔ trimSpace (cutValue line) = [] := by
    unfold contText
    by_cases hempty : trimSpace (cutValue line) = [] <;> simp [h, hempty]
  unfold parseLine
  rw [if_neg hcomment, if_neg hblank, hsection, hoption]
  by_cases hlast : s.lastOption = []
  · cases s
    cases hlast
    rfl
  · rw [if_pos ⟨hlast, rfl, rfl⟩]
    unfold Loop.continueOption
    by_cases hempty : trimSpace (cutValue line) = []
    · rw [if_pos hempty, if_pos (.inr (hcont.mpr hempty))]
    · have hskip : ¬ (s.lastOption = [] ∨ contText line = none) := by simp [hlast, hcont, hempty]
      rw [if_neg hempty, if_neg hskip]
      by_cases hhead : (cutValue line).head? ≠ some ' '
      · rw [if_pos hhead, if_pos hhead]
      · rw [if_neg hhead, if_neg hhead, Loop.setOption, if_pos (hs.mem (hs.inside hlast))]
        rfl

/-! ### The map -/

namespace SortedMap

variable {config : SortedMap} {name name' option option' value : Text}

@[simp] theorem mem_set : name' ∈ (config.set name option value).core ↔
    name' = name ∨ name' ∈ config.core := mem_insert _

theorem mem_set_of_mem (h : name ∈ config.core) :
    name' ∈ (config.set name option value).core ↔ name' ∈ config.core := by
  rw [mem_set]
  refine ⟨?_, .inr⟩
  rintro (rfl | hmem)
  · exact h
  · exact hmem

@[simp] theorem mem_addSection :
    name' ∈ (config.addSection name).core ↔ name' = name ∨ name' ∈ config.core := by
  unfold addSection
  split
  · next hmem =>
    refine ⟨.inr, ?_⟩
    rintro (rfl | h)
    · exact hmem
    · exact h
  · exact mem_insert _

theorem get_set : (config.set name option value).get name' option' =
    if name' = name ∧ option' = option then some value else config.get name' option' := by
  unfold get set
  by_cases hname : name' = name
  · subst hname
    rw [lookup_insert, Option.bind_some]
    by_cases hoption : option' = option
    · subst hoption
      rw [lookup_insert, if_pos ⟨rfl, rfl⟩]
    · rw [lookup_insert_ne hoption, if_neg fun h => hoption h.2]
      cases config.core.lookup name' <;> rfl
  · rw [lookup_insert_ne hname, if_neg fun h => hname h.1]

theorem get_addSection : (config.addSection name).get name' option' = config.get name' option' := by
  unfold get addSection
  split
  · rfl
  · next hmem =>
    by_cases hname : name' = name
    · subst hname
      rw [lookup_insert, lookup_eq_none.mpr hmem]
      rfl
    · rw [lookup_insert_ne hname]

theorem get_of_notMem (h : name ∉ config.core) (option : Text) : config.get name option = none := by
  rw [get, lookup_eq_none.mpr h, Option.bind_none]

end SortedMap

/-! ### Runs of the loop -/

namespace Loop

theorem start_valid : start.Valid where
  mem := fun h => absurd rfl h
  inside := fun h => absurd rfl h

theorem openSection_valid (s : Loop) (name : Text) : (s.openSection name).Valid where
  mem := fun _ => SortedMap.mem_addSection.mpr (.inl rfl)
  inside := fun h => absurd rfl h

theorem define_valid (hs : s.Valid) (key value : Text) : (s.define key value).Valid := by
  unfold define
  split
  · exact ⟨hs.mem, fun h => absurd rfl h⟩
  · next hsection => exact ⟨fun _ => SortedMap.mem_set.mpr (.inl rfl), fun _ => hsection⟩

theorem extend_valid (hs : s.Valid) (text : Text) : (s.extend text).Valid where
  mem := fun _ => SortedMap.mem_set.mpr (.inl rfl)
  inside := hs.inside

end Loop

variable {lines} {s' : Loop}

/-- What a line can do. -/
inductive Step (s : Loop) (line : Text) : Loop → Prop
  | skip (h : kind line = .ignored ∨ kind line = .other ∧ (s.lastOption = [] ∨
      contText line = none)) : Step s line s
  | header {name : Text} (h : kind line = .header name) : Step s line (s.openSection name)
  | option {key value : Text} (h : kind line = .option key value) : Step s line (s.define key value)
  | extend {text : Text} (h : kind line = .other) (hopen : s.lastOption ≠ [])
      (htext : contText line = some text) (hindent : (cutValue line).head? = some ' ') :
      Step s line (s.extend text)

theorem parseLine_cases (hs : s.Valid) (line : Text) :
    (∃ s', parseLine s line = .ok s' ∧ Step s line s') ∨
      (∃ e, parseLine s line = .error e) ∧ s.lastOption ≠ [] ∧ Stray line := by
  cases h : kind line with
  | ignored => exact .inl ⟨s, parseLine_ignored h, .skip (.inl h)⟩
  | header name => exact .inl ⟨_, parseLine_header h, .header h⟩
  | option key value => exact .inl ⟨_, parseLine_option hs h, .option h⟩
  | other =>
    rw [parseLine_other hs h]
    by_cases hskip : s.lastOption = [] ∨ contText line = none
    · rw [if_pos hskip]
      exact .inl ⟨s, rfl, .skip (.inr ⟨h, hskip⟩)⟩
    · obtain ⟨hopen, hcont⟩ := not_or.mp hskip
      rw [if_neg hskip]
      have hempty : trimSpace (cutValue line) ≠ [] := by
        intro hempty
        exact hcont (if_neg fun hother => hother.2 hempty)
      by_cases hhead : (cutValue line).head? ≠ some ' '
      · rw [if_pos hhead]
        exact .inr ⟨⟨_, rfl⟩, hopen, h, hempty, hhead⟩
      · rw [if_neg hhead]
        exact .inl ⟨_, rfl, .extend h hopen (if_pos ⟨h, hempty⟩) (not_not.mp hhead)⟩

theorem step_of_ok (hs : s.Valid) (h : parseLine s line = .ok s') : Step s line s' := by
  rcases parseLine_cases hs line with ⟨s₁, hs₁, hstep⟩ | ⟨⟨e, he⟩, -⟩
  · cases h.symm.trans hs₁
    exact hstep
  · cases h.symm.trans he

theorem parseLines_cons (h : parseLines s (line :: lines) = .ok s') :
    ∃ s₁, parseLine s line = .ok s₁ ∧ parseLines s₁ lines = .ok s' :=
  Outcome.bind_eq_ok h

/-- A stray line does not get through. -/
theorem Step.not_stray (h : Step s line s') (hopen : s.lastOption ≠ []) : ¬ Stray line := by
  rintro ⟨hkind, hempty, hhead⟩
  cases h with
  | skip h =>
    rcases h with h | ⟨-, h | h⟩
    · rw [hkind] at h
      cases h
    · exact hopen h
    · rw [contText, if_pos ⟨hkind, hempty⟩] at h
      cases h
  | header h =>
    rw [hkind] at h
    cases h
  | option h =>
    rw [hkind] at h
    cases h
  | extend _ _ _ hindent => exact hhead hindent

theorem Step.valid (h : Step s line s') (hs : s.Valid) : s'.Valid := by
  cases h with
  | skip => exact hs
  | header => exact Loop.openSection_valid s _
  | option => exact Loop.define_valid hs _ _
  | extend => exact Loop.extend_valid hs _

theorem parseLines_append (s : Loop) (lines lines' : List Text) :
    parseLines s (lines ++ lines') = parseLines s lines >>= fun s' => parseLines s' lines' :=
  foldlM_append

def headerName (line : Text) : Option Text :=
  match kind line with
  | .header name => some name
  | _ => none

def headers (lines : List Text) : List Text := lines.filterMap headerName

/-- A line that ends the value of an option. -/
def Closes (line : Text) : Prop := ¬ (kind line = .ignored ∨ kind line = .other)

/-- After the lines an option is open: it has no value on its line, it is in a section, and no
header and no option follows. -/
def OpenAfter (lines : List Text) : Prop :=
  ∃ before line after, lines = before ++ line :: after ∧ headers before ≠ [] ∧
    (∃ key, kind line = .option key []) ∧ ∀ l ∈ after, ¬ Closes l

/-- The lines have a stray one after an option that is open. -/
def StrayAfter (lines : List Text) : Prop :=
  ∃ before line after, lines = before ++ line :: after ∧ OpenAfter before ∧ Stray line

theorem headers_concat (lines : List Text) (line : Text) :
    headers (lines ++ [line]) = headers lines ++ (headerName line).toList := by
  cases h : headerName line <;> simp [h, headers]

theorem openAfter_concat : OpenAfter (lines ++ [line]) ↔
      (headers lines ≠ [] ∧ ∃ key, kind line = .option key []) ∨
        (OpenAfter lines ∧ ¬ Closes line) := by
  constructor
  · rintro ⟨before, o, after, heq, hheaders, ho, hafter⟩
    rcases eq_nil_or_concat' after with rfl | ⟨after, l, rfl⟩
    · obtain ⟨rfl, hlast⟩ := append_inj' heq rfl
      cases hlast
      exact .inl ⟨hheaders, ho⟩
    · rw [← cons_append, ← append_assoc] at heq
      obtain ⟨rfl, hlast⟩ := append_inj' heq rfl
      cases hlast
      refine .inr ⟨⟨before, o, after, rfl, hheaders, ho, fun l hl => ?_⟩, ?_⟩
      · exact hafter l (mem_append_left _ hl)
      · exact hafter line (mem_append_right _ (mem_singleton_self line))
  · rintro (⟨hheaders, ho⟩ | ⟨⟨before, o, after, rfl, hheaders, ho, hafter⟩, hline⟩)
    · exact ⟨lines, line, [], rfl, hheaders, ho, by simp⟩
    · refine ⟨before, o, after ++ [line], by simp, hheaders, ho, ?_⟩
      exact forall_mem_append.mpr ⟨hafter, forall_mem_singleton.mpr hline⟩

theorem trimSpace_start (hp : ∀ c, p c = true → isSpace c = false) {raw : Text}
    (h : ∃ c ∈ raw.head?, p c = true) : ∃ c ∈ (trimSpace raw).head?, p c = true := by
  obtain ⟨c, hc, hstart⟩ := h
  obtain ⟨rest, rfl⟩ := head?_eq_some_iff.mp hc
  obtain ⟨rest', -, htrim⟩ := trimFunc_append (p := isSpace) (w := [c]) (r := rest) (by simp)
    (by simp [hp c hstart])
  exact ⟨c, by rw [trimSpace, ← singleton_append, htrim]; rfl, hstart⟩

theorem kind_option_start (h : kind line = .option key value) :
    ∃ c ∈ key.head?, optionStart c = true := by
  obtain ⟨-, -, -, raw, text, hraw, rfl, -⟩ := kind_eq_option h
  obtain ⟨-, -, -, -, -, hstart, -⟩ := optionMatch_eq_some.mp hraw
  exact trimSpace_start (fun c hc => isSpace_of_optionStart hc) hstart

theorem ne_nil_of_start {name : Text} (h : ∃ c ∈ name.head?, p c = true) : name ≠ [] := by
  rintro rfl
  obtain ⟨_, hc, -⟩ := h
  cases hc

/-- The state after some lines. -/
structure Reached (lines : List Text) (s : Loop) : Prop where
  valid : s.Valid
  lastSection : s.lastSection = (headers lines).getLastD []
  lastOption : s.lastOption ≠ [] ↔ OpenAfter lines
  sections : ∀ name, name ∈ s.config.core ↔ name ∈ headers lines

theorem headers_start : ∀ name ∈ headers lines, ∃ c ∈ name.head?, sectionStart c = true := by
  intro name hname
  obtain ⟨line, -, hline⟩ := mem_filterMap.mp hname
  unfold headerName at hline
  split at hline
  · next hkind =>
    cases hline
    obtain ⟨-, -, raw, hraw, rfl⟩ := kind_eq_header hkind
    obtain ⟨-, -, -, -, -, hstart⟩ := sectionMatch_eq_some.mp hraw
    exact trimSpace_start (fun c hc => isSpace_of_optionStart (optionStart_of_sectionStart hc))
      hstart
  · cases hline

theorem Reached.lastSection_eq_nil (h : Reached lines s) :
    s.lastSection = [] ↔ headers lines = [] := by
  rw [h.lastSection]
  rcases eq_nil_or_concat' (headers lines) with hnil | ⟨names, name, hconcat⟩
  · simp [hnil]
  · have hname : name ≠ [] := ne_nil_of_start (headers_start name (by rw [hconcat]; simp))
    simp [hconcat, hname]

/-- A line that ends no value leaves the headers and the open option as they are. -/
theorem headers_concat_of_not_closes (h : ¬ Closes line) :
    headers (lines ++ [line]) = headers lines := by
  rw [headers_concat, headerName]
  rcases not_not.mp h with h | h <;> rw [h] <;> exact append_nil _

theorem openAfter_concat_of_not_closes (h : ¬ Closes line) :
    OpenAfter (lines ++ [line]) ↔ OpenAfter lines := by
  rw [openAfter_concat]
  constructor
  · rintro (⟨-, key, hkey⟩ | ⟨hopen, -⟩)
    · exact absurd (by rw [Closes, hkey]; simp) h
    · exact hopen
  · exact fun hopen => .inr ⟨hopen, h⟩

theorem Reached.of_not_closes (h : Reached lines s) (hcloses : ¬ Closes line) (hvalid : s'.Valid)
    (hsection : s'.lastSection = s.lastSection) (hoption : s'.lastOption = s.lastOption)
    (hcore : ∀ name, name ∈ s'.config.core ↔ name ∈ s.config.core) :
    Reached (lines ++ [line]) s' where
  valid := hvalid
  lastSection := by rw [headers_concat_of_not_closes hcloses, hsection, h.lastSection]
  lastOption := by rw [openAfter_concat_of_not_closes hcloses, hoption, h.lastOption]
  sections := fun name => by
    rw [headers_concat_of_not_closes hcloses, hcore, h.sections]

theorem Reached.step (h : Reached lines s) (hs : Step s line s') :
    Reached (lines ++ [line]) s' := by
  have hvalid := hs.valid h.valid
  cases hs with
  | skip hkind =>
    exact h.of_not_closes (not_not.mpr (hkind.imp_right And.left)) hvalid rfl rfl
      fun _ => Iff.rfl
  | header hkind =>
    refine ⟨hvalid, ?_, ?_, ?_⟩
    · rw [headers_concat, headerName, hkind]
      exact (getLastD_concat ..).symm
    · rw [openAfter_concat, Closes, hkind]
      simp [Loop.openSection]
    · intro name'
      rw [headers_concat, headerName, hkind]
      show name' ∈ (s.config.addSection _).core ↔ _
      rw [SortedMap.mem_addSection, h.sections name', mem_append, or_comm]
      exact or_congr_right mem_singleton.symm
  | @option key value hkind =>
    have hheaders : headers (lines ++ [line]) = headers lines := by
      rw [headers_concat, headerName, hkind]
      exact append_nil _
    have hkey := ne_nil_of_start (kind_option_start hkind)
    have hopen : OpenAfter (lines ++ [line]) ↔ headers lines ≠ [] ∧ value = [] := by
      rw [openAfter_concat, Closes, hkind]
      simp
    refine ⟨hvalid, ?_, ?_, ?_⟩
    · rw [hheaders, ← h.lastSection]
      unfold Loop.define
      split <;> rfl
    · rw [hopen, ne_eq (headers lines), ← h.lastSection_eq_nil]
      unfold Loop.define
      by_cases hsection : s.lastSection = []
      · simp [hsection]
      · by_cases hvalue : value = [] <;> simp [hsection, hvalue, hkey]
    · rw [hheaders]
      intro name
      unfold Loop.define
      split
      · exact h.sections name
      · next hsection => rw [SortedMap.mem_set_of_mem (h.valid.mem hsection), h.sections name]
  | extend hkind hopen =>
    exact h.of_not_closes (not_not.mpr (.inr hkind)) hvalid rfl rfl
      fun _ => SortedMap.mem_set_of_mem (h.valid.mem (h.valid.inside hopen))

theorem parseLines_singleton (s : Loop) (line : Text) : parseLines s [line] = parseLine s line := by
  show (parseLine s line >>= fun s' => pure s') = _
  rw [bind_pure]

theorem parseLines_concat (h : parseLines .start lines = .ok s)
    (hline : parseLine s line = .ok s') : parseLines .start (lines ++ [line]) = .ok s' := by
  rw [parseLines_append, h]
  exact (parseLines_singleton s line).trans hline

theorem start_reached : Reached [] .start where
  valid := Loop.start_valid
  lastSection := rfl
  lastOption := by
    refine ⟨fun h => absurd rfl h, ?_⟩
    rintro ⟨before, line, after, heq, -⟩
    cases before <;> cases heq
  sections := fun name => iff_of_false (notMem_empty name) not_mem_nil

theorem parseLines_reached (lines : List Text) :
    (∃ s, parseLines .start lines = .ok s ∧ Reached lines s) ∨
      (∃ e, parseLines .start lines = .error e) ∧ StrayAfter lines := by
  induction lines using List.reverseRecOn with
  | nil => exact .inl ⟨.start, rfl, start_reached⟩
  | append_singleton lines line ih =>
    rw [parseLines_append]
    rcases ih with ⟨s, hs, hreached⟩ | ⟨⟨e, he⟩, before, x, after, rfl, hopen, hx⟩
    · rw [hs]
      show (∃ s', parseLines s [line] = _ ∧ _) ∨ (∃ e, parseLines s [line] = _) ∧ _
      rw [parseLines_singleton]
      rcases parseLine_cases hreached.valid line with ⟨s', hs', hstep⟩ | ⟨herror, hopen, hstray⟩
      · exact .inl ⟨s', hs', hreached.step hstep⟩
      · exact .inr ⟨herror, lines, line, [], rfl, hreached.lastOption.mp hopen, hstray⟩
    · rw [he]
      refine .inr ⟨⟨e, rfl⟩, before, x, after ++ [line], ?_, hopen, hx⟩
      rw [append_assoc, cons_append]

theorem reached_of_ok (h : parseLines .start lines = .ok s) : Reached lines s := by
  rcases parseLines_reached lines with ⟨s', hs', hreached⟩ | ⟨⟨e, he⟩, -⟩
  · cases h.symm.trans hs'
    exact hreached
  · cases h.symm.trans he

theorem parseLines_ok_iff (lines : List Text) :
    (∃ s, parseLines .start lines = .ok s) ↔ ¬ StrayAfter lines := by
  constructor
  · rintro ⟨s, hs⟩ ⟨before, x, after, rfl, hopen, hx⟩
    rw [parseLines_append] at hs
    obtain ⟨s₀, hs₀, hs⟩ := Outcome.bind_eq_ok hs
    obtain ⟨s₁, hs₁, -⟩ := parseLines_cons hs
    have hreached := reached_of_ok hs₀
    exact (step_of_ok hreached.valid hs₁).not_stray (hreached.lastOption.mpr hopen) hx
  · intro hstray
    rcases parseLines_reached lines with ⟨s, hs, -⟩ | ⟨-, h⟩
    · exact ⟨s, hs⟩
    · exact absurd h hstray

/-! ### Options and the sections they are written under -/

section

variable (u : UnicodeTables) (lines : List Text) (name key value : Text) (after conts : List Text)

/-- A header line of the form `[name]`, with white space around it, and a name that begins with a
letter or an underscore. -/
def HeaderLine (line name : Text) : Prop :=
  ∃ ws pad ws', line = ws ++ '[' :: (name ++ pad ++ ']' :: ws') ∧ (∀ c ∈ ws, reSpace c = true) ∧
    (∀ c ∈ pad, isSpace c = true) ∧ (∀ c ∈ ws', reSpace c = true) ∧
    (∃ c ∈ name.head?, c = '_' ∨ u.isLetter c = true) ∧ ∀ c ∈ name.getLast?, isSpace c = false

/-- A line that begins with white space and is no header. -/
def ContinuationLine (line : Text) : Prop :=
  (∃ c ∈ line.head?, reSpace c = true) ∧ ∀ name, ¬ HeaderLine u line name

def wholeValue : Text :=
  intercalate ['\n'] (value :: conts.filterMap contText)

/-- An option line, with its name and the first line of its value. -/
def OptionLine (line key value : Text) : Prop :=
  ∃ raw text, optionMatch line = some (raw, text) ∧ key = trimSpace raw ∧ value = trimSpace text

/-- The last header line of the lines is that of the section. -/
def Under : Prop :=
  ∃ before header mid, lines = before ++ header :: mid ∧ HeaderLine u header name ∧
    ∀ l ∈ mid, ∀ name, ¬ HeaderLine u l name

/-- An option line under the header of a section, with the lines before and after it. -/
def Written (before after : List Text) : Prop :=
  ∃ line, lines = before ++ line :: after ∧ Under u before name ∧ OptionLine line key value

/-- The option is not written under the section again. -/
def LastWritten : Prop :=
  ∃ before, Written u lines name key value before after ∧
    ∀ value' before' after', Written u lines name key value' before' after' →
      before'.length ≤ before.length

/-- The indented lines at the beginning of some lines. -/
def Continued : Prop :=
  ∃ rest, after = conts ++ rest ∧ (∀ l ∈ conts, ContinuationLine u l) ∧
    ∀ l ∈ rest.head?, ¬ ContinuationLine u l

end

/-- The text is parsed to a configuration that has every option in the sections that it is written
under and in no other, a value that begins on the option line with all its lines. -/
def OptionsStored (u : UnicodeTables) (content : Text) : Prop :=
  ∃ config, parseContent content = .ok config ∧
    (∀ name key value after, LastWritten u (fieldLines content) name key value after →
      (config.get name key).isSome ∧
        (value ≠ [] → ∀ conts, Continued u after conts →
          config.get name key = some (wholeValue value conts))) ∧
    ∀ name key, (config.get name key).isSome →
      ∃ value before after, Written u (fieldLines content) name key value before after

variable {u : UnicodeTables} {name : Text}

theorem isLetter_of_sectionStart {c : Char} (h : sectionStart c = true) :
    c = '_' ∨ u.isLetter c = true := by
  rcases of_decide_eq_true h with rfl | rfl | rfl | ⟨hlo, hhi⟩
  · exact .inl rfl
  · exact .inr (u.isLetter_ascii 'A' (by decide))
  · exact .inr (u.isLetter_ascii 'Z' (by decide))
  · have hascii : c.toNat < 128 := lt_of_le_of_lt (show c.toNat ≤ 122 from hhi) (by decide)
    have hlower : c.isLower = true := by
      unfold Char.isLower
      rw [Bool.and_eq_true]
      exact ⟨decide_eq_true hlo, decide_eq_true hhi⟩
    have halpha : c.isAlpha = true := Bool.or_eq_true_iff.mpr (.inr hlower)
    exact .inr ((u.isLetter_ascii c hascii).trans halpha)

theorem headerLine_of_sectionMatch {raw : Text} (h : sectionMatch line = some raw) :
    HeaderLine u line (trimSpace raw) := by
  obtain ⟨ws, ws', rfl, hws, hws', hstart⟩ := sectionMatch_eq_some.mp h
  have hspace {c : Char} (hc : sectionStart c = true) : isSpace c = false :=
    isSpace_of_optionStart (optionStart_of_sectionStart hc)
  have hhead : ∀ c ∈ raw.head?, isSpace c = false := by
    obtain ⟨c, hc, hstart⟩ := hstart
    intro d hd
    cases hc.symm.trans hd
    exact hspace hstart
  obtain ⟨pad, hraw, hpad⟩ := exists_trimFunc_append hhead
  obtain ⟨c, hc, hstart⟩ := trimSpace_start (fun c hc => hspace hc) hstart
  refine ⟨ws, pad, ws', ?_, hws, hpad, hws', ⟨c, hc, isLetter_of_sectionStart hstart⟩,
    trimFunc_getLast⟩
  rw [trimSpace, ← hraw]

theorem headerName_eq_none (h : ∀ name, ¬ HeaderLine u line name) : headerName line = none := by
  unfold headerName
  split
  · next name hkind =>
    obtain ⟨-, -, raw, hraw, -⟩ := kind_eq_header hkind
    exact absurd (headerLine_of_sectionMatch hraw) (h _)
  · rfl

instance decidableStart (name : Text) : Decidable (∃ c ∈ name.head?, sectionStart c = true) :=
  decidable_of_iff (name.head?.any sectionStart = true) (by simp [Option.any_eq_true])

/-- The parser takes a header line for one exactly if its name begins in the class of the
pattern; otherwise no pattern matches it. -/
theorem headerName_headerLine (h : HeaderLine u line name) :
    headerName line = if ∃ c ∈ name.head?, sectionStart c = true then some name else none := by
  obtain ⟨ws, pad, ws', hline, hws, hpad, hws', hletter, hlast⟩ := h
  have hdrop : line.dropWhile reSpace = '[' :: (name ++ pad ++ ']' :: ws') := by
    rw [hline, dropWhile_append_of_pos hws]
    rfl
  have hhead : (name ++ pad).head? = name.head? := by
    obtain ⟨c, hc, -⟩ := hletter
    rw [head?_append, hc]
    rfl
  by_cases hstart : ∃ c ∈ name.head?, sectionStart c = true
  · rw [if_pos hstart]
    have hmatch := sectionMatch_eq_some.mpr ⟨ws, ws', hline, hws, hws', by rwa [hhead]⟩
    have hcomment : commentMatch line = false := by
      rw [commentMatch, hdrop]
      rfl
    have hblank : trimSpace line ≠ [] := by
      intro hblank
      have := trimFunc_eq_nil.mp hblank '[' (by rw [hline]; simp)
      exact absurd this (by decide)
    have hname : trimSpace (name ++ pad) = name := by
      rw [trimSpace, trimFunc_append_right hpad]
      refine trimFunc_of_ends (fun c hc => ?_) hlast
      obtain ⟨d, hd, hstart⟩ := hstart
      cases hc.symm.trans hd
      exact isSpace_of_optionStart (optionStart_of_sectionStart hstart)
    simp [headerName, kind, hcomment, hblank, hmatch, hname]
  · rw [if_neg hstart]
    unfold headerName
    split
    · next name' hkind =>
      -- the pattern would match from the same bracket
      obtain ⟨-, -, raw, hraw, -⟩ := kind_eq_header hkind
      obtain ⟨ws₁, ws₁', hline', hws₁, -, c, hc, hraw⟩ := sectionMatch_eq_some.mp hraw
      have hdrop' : line.dropWhile reSpace = '[' :: (raw ++ ']' :: ws₁') := by
        rw [hline', dropWhile_append_of_pos hws₁]
        rfl
      have hsame : (raw ++ ']' :: ws₁').head? = (name ++ pad ++ ']' :: ws').head? := by
        rw [(List.cons.inj (hdrop'.symm.trans hdrop)).2]
      rw [head?_append, hc, head?_append, hhead] at hsame
      obtain ⟨d, hd, -⟩ := hletter
      rw [hd] at hsame
      cases hsame
      exact absurd ⟨c, hd, hraw⟩ hstart
    · rfl

/-- An indented line that is no header ends no value. -/
theorem not_closes_of_reSpace {c : Char} (hc : line.head? = some c) (hspace : reSpace c = true)
    (hsection : sectionMatch line = none) : ¬ Closes line := by
  unfold Closes
  rw [not_not]
  cases hkind : kind line with
  | ignored => exact .inl rfl
  | other => exact .inr rfl
  | header name =>
    obtain ⟨-, -, raw, hraw, -⟩ := kind_eq_header hkind
    cases hsection.symm.trans hraw
  | option key value =>
    -- an option begins with a letter
    obtain ⟨-, -, -, raw, text, hraw, -, -⟩ := kind_eq_option hkind
    obtain ⟨sep, text, rfl, -, -, ⟨d, hd, hstart⟩, -⟩ := optionMatch_eq_some.mp hraw
    rw [head?_append, hd] at hc
    cases hc
    have hletter := isSpace_of_optionStart hstart
    rw [isSpace_of_reSpace hspace] at hletter
    cases hletter

/-- A line that begins like an option is neither a comment nor blank nor a header. -/
theorem kind_of_optionStart {c : Char} (hhead : line.head? = some c)
    (hstart : optionStart c = true) :
    kind line = match optionMatch line with
      | some (key, value) => .option (trimSpace key) (trimSpace value)
      | none => .other := by
  obtain ⟨rest, rfl⟩ := head?_eq_some_iff.mp hhead
  have hspace := isSpace_of_optionStart hstart
  have hdrop : (c :: rest).dropWhile reSpace = c :: rest := by
    refine dropWhile_of_head fun d hd => ?_
    cases hd
    rw [← Bool.not_eq_true]
    intro hre
    rw [isSpace_of_reSpace hre] at hspace
    cases hspace
  have hcomment : commentMatch (c :: rest) = false := by
    rw [commentMatch, hdrop]
    refine decide_eq_false ?_
    rintro (rfl | rfl | rfl) <;> exact absurd hstart (by decide)
  have hblank : trimSpace (c :: rest) ≠ [] := by
    intro hblank
    rw [trimFunc_eq_nil.mp hblank c mem_cons_self] at hspace
    cases hspace
  have hsection : sectionMatch (c :: rest) = none := by
    unfold sectionMatch
    rw [hdrop]
    split
    · next heq =>
      cases heq
      exact absurd hstart (by decide)
    · rfl
  unfold kind
  rw [hcomment, hsection, if_neg (by simp [hblank])]

theorem kind_optionLine (h : OptionLine line key value) : kind line = .option key value := by
  obtain ⟨raw, text, hmatch, rfl, rfl⟩ := h
  obtain ⟨sep, rest, rfl, -, -, ⟨c, hc, hstart⟩, -⟩ := optionMatch_eq_some.mp hmatch
  have hhead : (raw ++ sep :: rest).head? = some c := by
    rw [head?_append, hc]
    rfl
  rw [kind_of_optionStart hhead hstart, hmatch]

theorem wholeValue_eq {value : Text} {conts : List Text} :
    wholeValue value conts = value ↔ conts.filterMap contText = [] := by
  unfold wholeValue
  rcases conts.filterMap contText with _ | ⟨text, texts⟩
  · simp
  · simp [intercalate]

/-! ### What the loop keeps -/

theorem Step.get_isSome (h : Step s line s')
    (hget : (s.config.get name key).isSome) : (s'.config.get name key).isSome := by
  cases h with
  | skip => exact hget
  | header => rwa [Loop.openSection, SortedMap.get_addSection]
  | option => grind [Loop.define, SortedMap.get_set]
  | extend => grind [Loop.extend, SortedMap.get_set]

/-- A line that does not define the option leaves its value, unless the option is open. -/
theorem Step.get_eq (h : Step s line s') (hkey : key ≠ [])
    (hopen : ¬ (s.lastSection = name ∧ s.lastOption = key))
    (hline : ∀ value, kind line = .option key value → s.lastSection ≠ name) :
    s'.config.get name key = s.config.get name key ∧
      ¬ (s'.lastSection = name ∧ s'.lastOption = key) := by
  cases h with
  | skip => exact ⟨rfl, hopen⟩
  | header => exact ⟨SortedMap.get_addSection, fun h => hkey h.2.symm⟩
  | option => grind [Loop.define, SortedMap.get_set]
  | extend => grind [Loop.extend, SortedMap.get_set]

theorem parseLines_isSome (hs : s.Valid)
    (h : parseLines s lines = .ok s') (hget : (s.config.get name key).isSome) :
    (s'.config.get name key).isSome := by
  induction lines generalizing s with
  | nil =>
    cases h
    exact hget
  | cons line lines ih =>
    obtain ⟨s₁, hs₁, h⟩ := parseLines_cons h
    have hstep := step_of_ok hs hs₁
    exact ih (hstep.valid hs) h (hstep.get_isSome hget)

/-- A value stays to the end if the option is not defined again. -/
theorem parseLines_get {done lines : List Text} (hdone : parseLines .start done = .ok s)
    (h : parseLines s lines = .ok s') (hkey : key ≠ [])
    (hopen : ¬ (s.lastSection = name ∧ s.lastOption = key))
    (hlines : ∀ a l b value, lines = a ++ l :: b → kind l = .option key value →
      (headers (done ++ a)).getLastD [] ≠ name) :
    s'.config.get name key = s.config.get name key := by
  induction lines generalizing s done with
  | nil =>
    cases h
    rfl
  | cons line lines ih =>
    obtain ⟨s₁, hs₁, h⟩ := parseLines_cons h
    have hreached := reached_of_ok hdone
    obtain ⟨hget, hopen⟩ := (step_of_ok hreached.valid hs₁).get_eq hkey hopen fun value hkind => by
      have hne := hlines [] line lines value rfl hkind
      rwa [append_nil, ← hreached.lastSection] at hne
    rw [← hget]
    refine ih (parseLines_concat hdone hs₁) h hopen fun a l b value heq hkind => ?_
    rw [append_assoc]
    exact hlines (line :: a) l b value (congrArg (line :: ·) heq) hkind

/-- The option is there, or it is open. -/
def Loop.Holds (s : Loop) (name key : Text) : Prop :=
  (s.config.get name key).isSome ∨ s.lastSection = name ∧ s.lastOption = key ∧ key ≠ []

theorem Step.holds (h : Step s line s') (hs' : s'.Holds name key) :
    s.Holds name key ∨
      (∃ value, kind line = .option key value) ∧ s.lastSection = name ∧ name ≠ [] := by
  cases h with
  | skip => exact .inl hs'
  | header =>
    simp only [Loop.Holds, Loop.openSection, SortedMap.get_addSection] at hs' ⊢
    grind
  | option => grind [Loop.Holds, Loop.define, SortedMap.get_set]
  | extend => grind [Loop.Holds, Loop.extend, SortedMap.get_set]

/-- An option that is there was defined by a line in its section. -/
theorem exists_of_holds (h : parseLines .start lines = .ok s) (hget : s.Holds name key) :
    ∃ a l b value, lines = a ++ l :: b ∧ kind l = .option key value ∧
      (headers a).getLastD [] = name ∧ name ≠ [] := by
  induction lines using List.reverseRecOn generalizing s with
  | nil =>
    cases h
    rcases hget with hget | ⟨-, rfl, hkey⟩
    · cases hget
    · exact absurd rfl hkey
  | append_singleton lines line ih =>
    rw [parseLines_append] at h
    obtain ⟨s₀, hs₀, h⟩ := Outcome.bind_eq_ok h
    have hreached := reached_of_ok hs₀
    rcases (step_of_ok hreached.valid ((parseLines_singleton s₀ line).symm.trans h)).holds hget
      with hold | ⟨⟨value, hkind⟩, hsection, hname⟩
    · obtain ⟨a, l, b, value, rfl, hrest⟩ := ih hs₀ hold
      exact ⟨a, l, b ++ [line], value, by simp, hrest⟩
    · exact ⟨lines, line, [], value, rfl, hkind, hreached.lastSection ▸ hsection, hname⟩

/-! ### The sections of the parser -/

theorem exists_under (h : ∃ l ∈ lines, ∃ name, HeaderLine u l name) :
    ∃ name, Under u lines name := by
  induction lines using List.reverseRecOn with
  | nil =>
    obtain ⟨_, hl, -⟩ := h
    cases hl
  | append_singleton lines line ih =>
    by_cases hline : ∃ name, HeaderLine u line name
    · obtain ⟨name, hname⟩ := hline
      exact ⟨name, lines, line, [], rfl, hname, by simp⟩
    · obtain ⟨l, hl, hheader⟩ := h
      have hmem : l ∈ lines := by
        rcases mem_append.mp hl with hl | hl
        · exact hl
        · cases mem_singleton.mp hl
          exact absurd hheader hline
      obtain ⟨name, before, header, mid, rfl, hname, hmid⟩ := ih ⟨l, hmem, hheader⟩
      refine ⟨name, before, header, mid ++ [line], by simp, hname, ?_⟩
      exact forall_mem_append.mpr ⟨hmid, forall_mem_singleton.mpr (not_exists.mp hline)⟩

/-- The section that the parser is in, if it takes the header for one. -/
theorem Under.headers_eq (h : Under u lines name)
    (hstart : ∃ c ∈ name.head?, sectionStart c = true) : (headers lines).getLastD [] = name := by
  obtain ⟨before, header, mid, rfl, hheader, hmid⟩ := h
  have hnone : mid.filterMap headerName = [] :=
    filterMap_eq_nil_iff.mpr fun l hl => headerName_eq_none (hmid l hl)
  have hsome := headerName_headerLine hheader
  rw [if_pos hstart] at hsome
  rw [headers, filterMap_append, filterMap_cons_some hsome, hnone]
  exact getLastD_concat ..

theorem headers_eq_iff (hname : name ≠ [])
    (hstart : ∀ name, Under u lines name → ∃ c ∈ name.head?, sectionStart c = true) :
    (headers lines).getLastD [] = name ↔ Under u lines name := by
  refine ⟨fun h => ?_, fun h => h.headers_eq (hstart name h)⟩
  have hheader : ∃ l ∈ lines, ∃ name, HeaderLine u l name := by
    by_contra hnone
    refine hname (h.symm.trans ?_)
    rw [headers, filterMap_eq_nil_iff.mpr fun l hl =>
      headerName_eq_none fun name hn => hnone ⟨l, hl, name, hn⟩]
    rfl
  obtain ⟨name', hname'⟩ := exists_under hheader
  rwa [← h, hname'.headers_eq (hstart name' hname')]

theorem optionLine_of_kind (h : kind line = .option key value) : OptionLine line key value := by
  obtain ⟨-, -, -, raw, text, hmatch, hkey, hvalue⟩ := kind_eq_option h
  exact ⟨raw, text, hmatch, hkey, hvalue⟩

/-- Every section that has an option line under its header is one for the parser. -/
def SectionsSeen (u : UnicodeTables) (lines : List Text) : Prop :=
  ∀ name key value before after, Written u lines name key value before after →
    ∃ c ∈ name.head?, sectionStart c = true

theorem SectionsSeen.headers_eq_iff {before after : List Text}
    (h : SectionsSeen u (before ++ line :: after)) (hline : kind line = .option key value)
    (hname : name ≠ []) : (headers before).getLastD [] = name ↔ Under u before name :=
  Config.headers_eq_iff hname fun name' hname' =>
    h name' key value before after ⟨line, rfl, hname', optionLine_of_kind hline⟩

/-- Of an option that is not written again the parser has the first line of its value. -/
theorem LastWritten.get {lines after : List Text} (h : LastWritten u lines name key value after)
    (hseen : SectionsSeen u lines) (hs : parseLines .start lines = .ok s) :
    (s.config.get name key).isSome ∧ (value ≠ [] → s.config.get name key = some value) := by
  obtain ⟨before, hwritten, hlast⟩ := h
  have hstart := hseen _ _ _ _ _ hwritten
  obtain ⟨line, rfl, hunder, hline⟩ := hwritten
  have hname := ne_nil_of_start hstart
  have hkey := ne_nil_of_start (kind_option_start (kind_optionLine hline))
  rw [parseLines_append] at hs
  obtain ⟨s₀, hs₀, hs⟩ := Outcome.bind_eq_ok hs
  obtain ⟨s₁, hs₁, hs⟩ := parseLines_cons hs
  have hreached := reached_of_ok hs₀
  have hsection : s₀.lastSection = name := hreached.lastSection.trans (hunder.headers_eq hstart)
  have hdefine : s₁ = s₀.define key value :=
    (Except.ok.inj ((parseLine_option hreached.valid (kind_optionLine hline)).symm.trans hs₁)).symm
  have hget : s₁.config.get name key = some value := by
    rw [hdefine, Loop.define, hsection, if_neg hname, SortedMap.get_set, if_pos ⟨rfl, rfl⟩]
  refine ⟨parseLines_isSome (hdefine ▸ Loop.define_valid hreached.valid key value) hs
    (by rw [hget]; rfl), fun hvalue => ?_⟩
  rw [← hget]
  refine parseLines_get (parseLines_concat hs₀ hs₁) hs hkey ?_
    fun a l b value' heq hkind hheaders => ?_
  · rintro ⟨-, hopen⟩
    rw [hdefine, Loop.define, hsection, if_neg hname, if_neg hvalue] at hopen
    exact hkey hopen.symm
  · -- the option would be written again
    have hlines : before ++ line :: after = (before ++ [line] ++ a) ++ l :: b := by
      rw [heq, append_assoc, append_assoc]
      rfl
    rw [hlines] at hseen hlast
    have hunder' := (hseen.headers_eq_iff hkind hname).mp hheaders
    have hle := hlast value' _ b ⟨l, rfl, hunder', optionLine_of_kind hkind⟩
    rw [length_append, length_append, length_singleton] at hle
    omega

theorem Written.length_lt {lines before after : List Text}
    (h : Written u lines name key value before after) : before.length < lines.length := by
  obtain ⟨line, rfl, -⟩ := h
  rw [length_append, length_cons]
  omega

theorem exists_lastWritten {lines before after : List Text}
    (h : Written u lines name key value before after) :
    ∃ value after, LastWritten u lines name key value after := by
  induction hn : lines.length - before.length using Nat.strong_induction_on
    generalizing value before after with
  | _ n ih =>
  by_cases hlater : ∃ value' before' after', Written u lines name key value' before' after' ∧
      before.length < before'.length
  · obtain ⟨value', before', after', h', hlt⟩ := hlater
    refine ih _ ?_ h' rfl
    have := h'.length_lt
    omega
  · exact ⟨value, after, before, h, fun value' before' after' h' =>
      Nat.not_lt.mp fun hlt => hlater ⟨value', before', after', h', hlt⟩⟩

/-- A text is parsed with every option in its section exactly if it has no stray line, the class of
the pattern has the first character of each section's name, and no line continues a value after its
first. -/
theorem options_stored_iff (u : UnicodeTables) (content : Text) : OptionsStored u content ↔
      ¬ StrayAfter (fieldLines content) ∧ SectionsSeen u (fieldLines content) ∧
        ∀ name key value after conts, LastWritten u (fieldLines content) name key value after →
          value ≠ [] → Continued u after conts → conts.filterMap contText = [] := by
  constructor
  · rintro ⟨config, hok, hstored, -⟩
    obtain ⟨s, hs, rfl⟩ : ∃ s, parseLines .start (fieldLines content) = .ok s ∧
        s.config = config := by
      unfold parseContent at hok
      rcases hs : parseLines .start (fieldLines content) with e | s
      · rw [hs] at hok
        cases hok
      · rw [hs] at hok
        exact ⟨s, rfl, Except.ok.inj hok⟩
    have hseen : SectionsSeen u (fieldLines content) := by
      intro name key value before after hwritten
      obtain ⟨value, after, hlast⟩ := exists_lastWritten hwritten
      have hget := (hstored name key value after hlast).1
      by_contra hstart
      -- there is no section of that name
      have hname : name ∉ s.config.core := fun h =>
        hstart (headers_start name (((reached_of_ok hs).sections name).mp h))
      rw [SortedMap.get_of_notMem hname] at hget
      cases hget
    refine ⟨(parseLines_ok_iff _).mp ⟨s, hs⟩, hseen, ?_⟩
    intro name key value after conts hlast hvalue hconts
    have hwhole := (hstored name key value after hlast).2 hvalue conts hconts
    rw [(hlast.get hseen hs).2 hvalue] at hwhole
    exact wholeValue_eq.mp (Option.some.inj hwhole).symm
  · rintro ⟨hstray, hseen, hconts⟩
    obtain ⟨s, hs⟩ := (parseLines_ok_iff _).mpr hstray
    refine ⟨s.config, by rw [parseContent, hs]; rfl, ?_, ?_⟩
    · intro name key value after hlast
      obtain ⟨hsome, hget⟩ := hlast.get hseen hs
      refine ⟨hsome, fun hvalue conts hcont => ?_⟩
      rw [hget hvalue, wholeValue_eq.mpr (hconts name key value after conts hlast hvalue hcont)]
    · intro name key hget
      obtain ⟨a, l, b, value, hlines, hkind, hheaders, hname⟩ := exists_of_holds hs (.inl hget)
      refine ⟨value, a, b, l, hlines, ?_, optionLine_of_kind hkind⟩
      rw [hlines] at hseen
      exact (hseen.headers_eq_iff hkind hname).mp hheaders

/-- The option of a section with a capital letter goes to the section before, and a stray line makes
the parser panic. -/
theorem option_not_stored :
    ¬ OptionsStored .ascii "[a]\n[Board]\nx = 1".toList ∧
      ¬ OptionsStored .ascii "[a]\nx = 1\ny =\nfoo".toList := by
  constructor
  · rintro ⟨config, hok, hstored, -⟩
    have hlines : fieldLines "[a]\n[Board]\nx = 1".toList =
        ["[a]".toList, "[Board]".toList, "x = 1".toList] := by decide
    have hlast : LastWritten .ascii ["[a]".toList, "[Board]".toList, "x = 1".toList]
        "Board".toList "x".toList "1".toList [] := by
      refine ⟨["[a]".toList, "[Board]".toList], ⟨_, rfl, ⟨["[a]".toList], "[Board]".toList, [], rfl,
        ⟨[], [], [], rfl, by simp, by simp, by simp, ⟨'B', rfl, .inr rfl⟩, ?_⟩, by simp⟩,
        "x ".toList, " 1".toList, by decide, by decide, by decide⟩, fun _ _ _ h => ?_⟩
      · rintro d ⟨⟩
        decide
      · exact Nat.lt_succ_iff.mp h.length_lt
    have hget := (hstored _ _ _ _ (hlines ▸ hlast)).1
    have hnone : ((parseContent "[a]\n[Board]\nx = 1".toList).toOption.bind
        (·.get "Board".toList "x".toList)) = none := by decide
    rw [hok] at hnone
    rw [show config.get "Board".toList "x".toList = none from hnone] at hget
    cases hget
  · rintro ⟨config, hok, -⟩
    have hpanic : (parseContent "[a]\nx = 1\ny =\nfoo".toList).isOk = false := by decide
    rw [hok] at hpanic
    cases hpanic

end Config
