/-
Commenting out options that are saved elsewhere.

`StripDuplicates` goes through the lines of a text and comments out the options that another
configuration has, with the lines that continue them.  The rest of the text must not notice.

* `step_sim`, `run_sim` — the parser goes through both texts side by side: the configurations
  agree but for the options that were commented out.
-/
import KlipperGo.ConfigAutosave

namespace Config

open GoRuntime GoStrings Lines List Loop

/-! ### Well-formed lines -/

structure WellFormedName (name : Text) : Prop where
  start : ∃ c ∈ name.head?, 'a' ≤ c ∧ c ≤ 'z'
  last : ∀ c ∈ name.getLast?, isSpace c = false
  chars : ∀ c ∈ name, c ≠ '=' ∧ c ≠ ':' ∧ c ≠ '#' ∧ c ≠ '\n' ∧ c ≠ '\r'

def Blanks (s : Text) : Prop := ∀ c ∈ s, c = ' ' ∨ c = '\t'

/-- A line of a configuration without its comment: a blank one, a header, an option, or an indented
one that is not of the form `[...]`. -/
inductive LineForm (line : Text) : Prop
  | blank (h : Blanks line)
  | header {name ws : Text} (hname : WellFormedName name) (hws : Blanks ws)
      (h : line = '[' :: (name ++ ']' :: ws))
  | option {key pad value : Text} (hkey : WellFormedName key) (hpad : Blanks pad)
      (h : line = key ++ pad ++ '=' :: value)
  | continuation {c : Char} {rest : Text} (hc : c = ' ' ∨ c = '\t') (h : line = c :: rest)
      (hblank : trimSpace line ≠ []) (hform : ∀ text, trimSpace line ≠ '[' :: (text ++ [']']))

variable {line p : Text}

theorem isSpace_of_blanks {s : Text} (h : Blanks s) : ∀ c ∈ s, isSpace c = true := by
  intro c hc
  rcases h c hc with rfl | rfl <;> decide

theorem reSpace_of_blanks {s : Text} (h : Blanks s) : ∀ c ∈ s, reSpace c = true := by
  intro c hc
  rcases h c hc with rfl | rfl <;> decide

namespace WellFormedName

variable {name : Text}

variable (h : WellFormedName name)
include h

theorem sectionStart : ∃ c ∈ name.head?, sectionStart c = true := by
  obtain ⟨c, hc, hrange⟩ := h.start
  exact ⟨c, hc, decide_eq_true (.inr (.inr (.inr hrange)))⟩

theorem optionStart : ∃ c ∈ name.head?, optionStart c = true := by
  obtain ⟨c, hc, hstart⟩ := h.sectionStart
  exact ⟨c, hc, optionStart_of_sectionStart hstart⟩

theorem ne_nil : name ≠ [] := ne_nil_of_start h.sectionStart

theorem trim_append {pad : Text} (hpad : ∀ c ∈ pad, isSpace c = true) :
    trimSpace (name ++ pad) = name := by
  rw [trimSpace, trimFunc_append_right hpad]
  refine trimFunc_of_ends (fun c hc => ?_) h.last
  obtain ⟨d, hd, hstart⟩ := h.optionStart
  cases hc.symm.trans hd
  exact isSpace_of_optionStart hstart

end WellFormedName

theorem kind_blank (h : ∀ c ∈ p, isSpace c = true) : kind p = .ignored :=
  if_pos (.inr (trimFunc_eq_nil.mpr h))

theorem kind_header {name ws : Text} (hname : WellFormedName name) (hws : Blanks ws) :
    kind ('[' :: (name ++ ']' :: ws)) = .header name := by
  have hmatch : sectionMatch ('[' :: (name ++ ']' :: ws)) = some name :=
    sectionMatch_eq_some.mpr ⟨[], ws, rfl, by simp, reSpace_of_blanks hws, hname.sectionStart⟩
  have hcomment : commentMatch ('[' :: (name ++ ']' :: ws)) = false := rfl
  have hblank : trimSpace ('[' :: (name ++ ']' :: ws)) ≠ [] := by
    intro hblank
    exact absurd (trimFunc_eq_nil.mp hblank '[' mem_cons_self) (by decide)
  have htrim : trimSpace (name ++ []) = name := hname.trim_append (by simp)
  rw [append_nil] at htrim
  simp [kind, hcomment, hblank, hmatch, htrim]

theorem kind_option {key pad value : Text} (hkey : WellFormedName key) (hpad : Blanks pad)
    (hvalue : '#' ∉ value) : kind (key ++ pad ++ '=' :: value) = .option key (trimSpace value) := by
  have htake : value.takeWhile (· ≠ '#') = value := by
    rw [takeWhile_eq_self_iff]
    intro c hc
    exact decide_eq_true fun heq => hvalue (heq ▸ hc)
  refine kind_optionLine ⟨key ++ pad, value, ?_, ?_, rfl⟩
  · refine optionMatch_eq_some.mpr ⟨'=', value, rfl, .inl rfl, htake.symm, ?_, ?_⟩
    · obtain ⟨c, hc, hstart⟩ := hkey.optionStart
      exact ⟨c, by rw [head?_append, hc]; rfl, hstart⟩
    · intro d hd
      rcases mem_append.mp hd with hd | hd
      · exact ⟨(hkey.chars d hd).1, (hkey.chars d hd).2.1⟩
      · rcases hpad d hd with rfl | rfl <;> decide
  · exact (hkey.trim_append (isSpace_of_blanks hpad)).symm

theorem trimSpace_brackets (text : Text) :
    trimSpace ('[' :: (text ++ [']'])) = '[' :: (text ++ [']']) := by
  refine trimFunc_of_ends ?_ ?_
  · rintro c ⟨⟩
    decide
  · intro c hc
    rw [← cons_append, getLast?_concat] at hc
    cases hc
    decide

theorem sectionMatch_of_form (hform : ∀ text, trimSpace p ≠ '[' :: (text ++ [']'])) :
    sectionMatch p = none := by
  rw [Option.eq_none_iff_forall_not_mem]
  intro raw hraw
  obtain ⟨ws, ws', rfl, hws, hws', -⟩ := sectionMatch_eq_some.mp hraw
  refine hform raw ?_
  have hsplit : ws ++ '[' :: (raw ++ ']' :: ws') = ws ++ (('[' :: (raw ++ [']'])) ++ ws') := by simp
  rw [hsplit, trimSpace, trimFunc_pad (fun c hc => isSpace_of_reSpace (hws c hc))
    (fun c hc => isSpace_of_reSpace (hws' c hc))]
  exact trimSpace_brackets raw

theorem not_closes_continuation {c : Char} {rest : Text} (hc : c = ' ' ∨ c = '\t')
    (hform : ∀ text, trimSpace (c :: rest) ≠ '[' :: (text ++ [']'])) : ¬ Closes (c :: rest) := by
  refine not_closes_of_reSpace rfl ?_ (sectionMatch_of_form hform)
  rcases hc with rfl | rfl <;> decide

/-! ### One line of `StripDuplicates` -/

theorem hash_notMem_stripComment (line : Text) : '#' ∉ stripComment line := by
  intro hmem
  exact absurd (mem_takeWhile_imp hmem) (by decide)

theorem head?_stripComment {c : Char} {rest : Text} (h : stripComment line = c :: rest) :
    line.head? = some c := by
  obtain ⟨tail, htail⟩ := takeWhile_prefix (fun c => decide (c ≠ '#')) (l := line)
  rw [← htail, show line.takeWhile (fun c => decide (c ≠ '#')) = c :: rest from h]
  rfl

/-- What can become of a well-formed line, with the section and the state after it. -/
inductive Stripped (fileconfig : SortedMap) (name : Text) (isDupField : Bool) (line : Text) :
    Text × Bool × Text → Prop
  | kept (h : ¬ Closes (stripComment line))
      (hdup : isDupField = false ∨ ∀ c ∈ stripComment line, isSpace c = true) :
      Stripped fileconfig name isDupField line (name, isDupField, line)
  | continued (h : ¬ Closes (stripComment line)) (hdup : isDupField = true)
      (hindent : ∃ c ∈ line.head?, c = ' ' ∨ c = '\t') :
      Stripped fileconfig name isDupField line (name, true, '#' :: line)
  | header {name' : Text} (h : kind (stripComment line) = .header name') :
      Stripped fileconfig name isDupField line (name', false, line)
  | duplicate {key value : Text} (h : kind (stripComment line) = .option key value)
      (hdup : (fileconfig.get name key).isSome) (hletter : ∃ c ∈ line.head?, 'a' ≤ c ∧ c ≤ 'z') :
      Stripped fileconfig name isDupField line (name, true, '#' :: line)
  | option {key value : Text} (h : kind (stripComment line) = .option key value)
      (hnew : fileconfig.get name key = none) :
      Stripped fileconfig name isDupField line (name, false, line)

theorem not_closes_blank (h : ∀ c ∈ p, isSpace c = true) : ¬ Closes p :=
  not_not.mpr (.inl (kind_blank h))

section StripLine

variable {fileconfig : SortedMap} {name : Text} {isDupField : Bool}

/-- A line that begins with a blank. -/
theorem stripLine_indented {c : Char} {rest : Text} (hp : stripComment line = c :: rest)
    (hc : c = ' ' ∨ c = '\t') (hcloses : ¬ Closes (stripComment line)) :
    ∃ r, stripLine fileconfig name isDupField line = .ok r ∧
      Stripped fileconfig name isDupField line r := by
  have hstrip : stripLine fileconfig name isDupField line =
      .ok (name, isDupField, if isDupField then '#' :: line else line) := by
    unfold stripLine
    simp only [hp, hc, if_true]
  rw [hstrip]
  cases isDupField with
  | false => exact ⟨_, rfl, .kept hcloses (.inl rfl)⟩
  | true => exact ⟨_, rfl, .continued hcloses rfl ⟨c, head?_stripComment hp, hc⟩⟩

theorem stripLine_header {name' ws : Text} (hws : Blanks ws)
    (hp : stripComment line = '[' :: (name' ++ ']' :: ws)) :
    stripLine fileconfig name isDupField line = .ok (name', false, line) := by
  have htrim : trimSpace ('[' :: (name' ++ ']' :: ws)) = '[' :: (name' ++ [']']) := by
    have hsplit : '[' :: (name' ++ ']' :: ws) = '[' :: (name' ++ [']']) ++ ws := by simp
    rw [hsplit, trimSpace, trimFunc_append_right (isSpace_of_blanks hws)]
    exact trimSpace_brackets name'
  have hslice : slice ('[' :: (name' ++ [']'])) 1 (name' ++ [']']).length = .ok name' := by
    rw [slice_of_le (by simp) (by simp)]
    simp
  unfold stripLine
  simp only [hp, htrim, hslice]
  rfl

theorem trimRightFunc_option (text value : Text) :
    trimRightFunc isSpace (text ++ '=' :: value) = text ++ '=' :: trimRightFunc isSpace value := by
  have hsplit : text ++ '=' :: value = text ++ ['='] ++ value := by simp
  rw [hsplit, trimRightFunc_append, trimRightFunc_concat (by decide)]
  split
  · next hempty => rw [hempty]
  · simp

theorem stripLine_option {key pad value : Text} (hkey : WellFormedName key) (hpad : Blanks pad)
    (hp : stripComment line = key ++ pad ++ '=' :: value) :
    stripLine fileconfig name isDupField line =
      if (fileconfig.get name key).isSome then .ok (name, true, '#' :: line)
      else .ok (name, false, line) := by
  obtain ⟨c, hc, hlo, hhi⟩ := hkey.start
  obtain ⟨key', rfl⟩ := head?_eq_some_iff.mp hc
  have hspace : isSpace c = false := by
    obtain ⟨d, hd, hstart⟩ := hkey.optionStart
    cases hd
    exact isSpace_of_optionStart hstart
  have htrim : trimSpace (c :: (key' ++ pad ++ '=' :: value)) =
      c :: (key' ++ pad ++ '=' :: trimRightFunc isSpace value) := by
    rw [trimSpace, trimFunc_of_head (by rintro d ⟨⟩; exact hspace)]
    exact trimRightFunc_option (c :: key' ++ pad) value
  have hname : ∀ d ∈ c :: key' ++ pad, decide (d ≠ '=') = true := by
    intro d hd
    rcases mem_append.mp hd with hd | hd
    · exact decide_eq_true (hkey.chars d hd).1
    · rcases hpad d hd with rfl | rfl <;> decide
  have htake : (c :: (key' ++ pad ++ '=' :: trimRightFunc isSpace value)).takeWhile (· ≠ '=') =
      c :: key' ++ pad := by
    have hsplit : c :: (key' ++ pad ++ '=' :: trimRightFunc isSpace value) =
        (c :: key' ++ pad) ++ '=' :: trimRightFunc isSpace value := by simp
    rw [hsplit, takeWhile_append_of_pos hname]
    simp
  have hblank : ¬ (c = ' ' ∨ c = '\t') := by
    rintro (rfl | rfl) <;> exact absurd hspace (by decide)
  have hbracket : c ≠ '[' := by
    rintro rfl
    exact absurd hlo (by decide)
  have hfield := hkey.trim_append (isSpace_of_blanks hpad)
  unfold stripLine
  rw [hp, cons_append, cons_append]
  dsimp only
  rw [if_neg hblank]
  split
  · next hempty => cases htrim.symm.trans hempty
  · next heq => exact absurd (List.cons.inj (htrim.symm.trans heq)).1 hbracket
  · rw [htrim, htake, hfield]

theorem stripLine_cases (fileconfig : SortedMap) (name : Text) (isDupField : Bool)
    (h : LineForm (stripComment line)) :
    ∃ r, stripLine fileconfig name isDupField line = .ok r ∧
      Stripped fileconfig name isDupField line r := by
  cases h with
  | blank hblank =>
    cases hp : stripComment line with
    | nil =>
      refine ⟨(name, isDupField, line), ?_, .kept ?_ (.inr ?_)⟩
      · unfold stripLine
        rw [hp]
      · exact not_closes_blank (isSpace_of_blanks hblank)
      · exact isSpace_of_blanks hblank
    | cons c rest =>
      refine stripLine_indented hp (hblank c (by rw [hp]; simp)) ?_
      exact not_closes_blank (isSpace_of_blanks hblank)
  | header hname hws hp =>
    exact ⟨_, stripLine_header hws hp, .header (by rw [hp, kind_header hname hws])⟩
  | @option key pad value hkey hpad hp =>
    have hkind : kind (stripComment line) = .option key (trimSpace value) := by
      rw [hp]
      refine kind_option hkey hpad fun hmem => ?_
      exact hash_notMem_stripComment line (by rw [hp]; simp [hmem])
    rw [stripLine_option hkey hpad hp]
    by_cases hdup : (fileconfig.get name key).isSome
    · rw [if_pos hdup]
      refine ⟨_, rfl, .duplicate hkind hdup ?_⟩
      obtain ⟨c, hc, hrange⟩ := hkey.start
      obtain ⟨key', rfl⟩ := head?_eq_some_iff.mp hc
      exact ⟨c, head?_stripComment hp, hrange⟩
    · rw [if_neg hdup]
      exact ⟨_, rfl, .option hkind (by simpa using hdup)⟩
  | continuation hc hp hblank hform =>
    refine stripLine_indented hp hc ?_
    rw [hp]
    exact not_closes_continuation hc (by rwa [hp] at hform)

end StripLine

variable {fileconfig : SortedMap} {isDupField isDupField' : Bool} {lines lines' : List Text}

theorem stripLines_cons {name name' line' : Text}
    (hline : stripLine fileconfig name isDupField line = .ok (name', isDupField', line'))
    (h : stripLines fileconfig name isDupField (line :: lines) = .ok lines') :
    ∃ rest, stripLines fileconfig name' isDupField' lines = .ok rest ∧ lines' = line' :: rest := by
  rw [stripLines, hline] at h
  obtain ⟨rest, hrest, hcons⟩ := Outcome.bind_eq_ok
    (show (stripLines fileconfig name' isDupField' lines >>= fun rest => pure (line' :: rest)) =
      .ok lines' from h)
  exact ⟨rest, hrest, (Except.ok.inj hcons).symm⟩

/-- A line and what has become of it. -/
def Commented (line line' : Text) : Prop :=
  line' = line ∨ line' = '#' :: line ∧ ∃ c ∈ line.head?, c ≠ '*'

theorem Stripped.commented {name name' line' : Text}
    (h : Stripped fileconfig name isDupField line (name', isDupField', line')) :
    Commented line line' := by
  generalize hr : (name', isDupField', line') = r at h
  cases h with
  | kept | header | option =>
    cases hr
    exact .inl rfl
  | continued _ _ hindent =>
    cases hr
    obtain ⟨c, hc, hblank⟩ := hindent
    refine .inr ⟨rfl, c, hc, ?_⟩
    rcases hblank with rfl | rfl <;> decide
  | duplicate _ _ hletter =>
    cases hr
    obtain ⟨c, hc, hlo, -⟩ := hletter
    refine .inr ⟨rfl, c, hc, ?_⟩
    rintro rfl
    exact absurd hlo (by decide)

theorem stripLines_commented {name : Text} {isDupField : Bool}
    (hform : ∀ line ∈ lines, LineForm (stripComment line))
    (h : stripLines fileconfig name isDupField lines = .ok lines') :
    List.Forall₂ Commented lines lines' := by
  induction lines generalizing name isDupField lines' with
  | nil =>
    cases h
    exact .nil
  | cons line lines ih =>
    obtain ⟨hline, hlines⟩ := forall_mem_cons.mp hform
    obtain ⟨⟨name₁, dup₁, line₁⟩, hr, hstripped⟩ :=
      stripLine_cases fileconfig name isDupField hline
    obtain ⟨rest, hrest, rfl⟩ := stripLines_cons hr h
    exact .cons hstripped.commented (ih hlines hrest)

/-! ### The parser on both texts -/

/-- What a line that ends no value does. -/
def Loop.continued (s : Loop) (line : Text) : Loop :=
  match contText line with
  | some text => if s.lastOption = [] then s else s.extend text
  | none => s

theorem parseLine_continued {s s' : Loop} (hs : s.Valid) (hline : ¬ Closes p)
    (h : parseLine s p = .ok s') : s' = s.continued p := by
  unfold Loop.continued
  rcases not_not.mp hline with hkind | hkind
  · cases (parseLine_ignored hkind).symm.trans h
    rw [contText, if_neg (by simp [hkind])]
  · rw [parseLine_other hs hkind] at h
    cases htext : contText p with
    | none =>
      rw [if_pos (.inr htext)] at h
      exact (Except.ok.inj h).symm
    | some text =>
      have hcut : text = trimSpace (cutValue p) := by
        unfold contText at htext
        split at htext <;> cases htext
        rfl
      by_cases hopen : s.lastOption = []
      · rw [if_pos (.inl hopen)] at h
        exact (Except.ok.inj h).symm.trans (if_pos hopen).symm
      · rw [if_neg (by simp [hopen, htext])] at h
        refine Eq.trans ?_ (if_neg hopen).symm
        rw [hcut]
        split at h
        · cases h
        · exact (Except.ok.inj h).symm

/-- The configurations agree on the options that are not saved. -/
def AgreeOff (saved c c' : SortedMap) : Prop :=
  ∀ name option, saved.get name option = none → c.get name option = c'.get name option

section Sides

variable {saved c c' : SortedMap} {name option value : Text} {isDupField : Bool} {s t s' t' : Loop}

theorem AgreeOff.set (h : AgreeOff saved c c') (name option value : Text) :
    AgreeOff saved (c.set name option value) (c'.set name option value) := by
  intro n o hsaved
  rw [SortedMap.get_set, SortedMap.get_set, h n o hsaved]

theorem AgreeOff.set_saved (h : AgreeOff saved c c') (hsaved : (saved.get name option).isSome)
    (value : Text) : AgreeOff saved (c.set name option value) c' := by
  intro n o hnone
  rw [SortedMap.get_set, if_neg, h n o hnone]
  rintro ⟨rfl, rfl⟩
  rw [hnone] at hsaved
  cases hsaved

theorem AgreeOff.addSection (h : AgreeOff saved c c') (name : Text) :
    AgreeOff saved (c.addSection name) (c'.addSection name) := by
  intro n o hsaved
  rw [SortedMap.get_addSection, SortedMap.get_addSection, h n o hsaved]

/-- The loop on the text and the loop on the stripped text, in the same section.  While the lines
of an option are commented out the one may extend that option, and the other has not seen it. -/
structure Side (saved : SortedMap) (name : Text) (isDupField : Bool) (s t : Loop) : Prop where
  valid : s.Valid
  valid' : t.Valid
  lastSection : s.lastSection = name
  lastSection' : t.lastSection = name
  agree : AgreeOff saved s.config t.config
  same : isDupField = false → t.lastOption = s.lastOption ∧
    (s.lastOption ≠ [] → saved.get name s.lastOption = none)
  dup : isDupField = true → s.lastOption ≠ [] → (saved.get name s.lastOption).isSome

theorem continued_valid (hs : s.Valid) (p : Text) : (s.continued p).Valid := by
  unfold Loop.continued
  split
  · split
    · exact hs
    · exact extend_valid hs _
  · exact hs

theorem continued_lastSection (s : Loop) (p : Text) :
    (s.continued p).lastSection = s.lastSection := by
  unfold Loop.continued
  split
  · split <;> rfl
  · rfl

theorem continued_lastOption (s : Loop) (p : Text) : (s.continued p).lastOption = s.lastOption := by
  unfold Loop.continued
  split
  · split <;> rfl
  · rfl

/-- A line of an option that is kept. -/
theorem Side.continued (h : Side saved name false s t) (p : Text) :
    Side saved name false (s.continued p) (t.continued p) := by
  obtain ⟨hlast, hnone⟩ := h.same rfl
  refine ⟨continued_valid h.valid p, continued_valid h.valid' p, ?_, ?_, ?_, ?_, ?_⟩
  · rw [continued_lastSection, h.lastSection]
  · rw [continued_lastSection, h.lastSection']
  · unfold Loop.continued
    rw [hlast]
    split
    · split
      · exact h.agree
      · next hopen =>
        unfold Loop.extend
        rw [hlast, h.lastSection, h.lastSection', h.agree _ _ (hnone hopen)]
        exact h.agree.set _ _ _
    · exact h.agree
  · intro _
    rw [continued_lastOption, continued_lastOption]
    exact ⟨hlast, hnone⟩
  · intro hdup
    cases hdup

/-- A line of an option that is commented out. -/
theorem Side.continued_dup (h : Side saved name true s t) (p : Text) :
    Side saved name true (s.continued p) t := by
  refine ⟨continued_valid h.valid p, h.valid', ?_, h.lastSection', ?_, ?_, ?_⟩
  · rw [continued_lastSection, h.lastSection]
  · unfold Loop.continued
    split
    · split
      · exact h.agree
      · next hopen =>
        refine h.agree.set_saved ?_ _
        rw [h.lastSection]
        exact h.dup rfl hopen
    · exact h.agree
  · intro hdup
    cases hdup
  · intro _
    rw [continued_lastOption]
    exact h.dup rfl

theorem Side.openSection (h : Side saved name isDupField s t) (name' : Text) :
    Side saved name' false (s.openSection name') (t.openSection name') where
  valid := openSection_valid s name'
  valid' := openSection_valid t name'
  lastSection := rfl
  lastSection' := rfl
  agree := h.agree.addSection name'
  same := fun _ => ⟨rfl, fun hopen => absurd rfl hopen⟩
  dup := fun hdup => by cases hdup

theorem define_lastSection (s : Loop) (key value : Text) :
    (s.define key value).lastSection = s.lastSection := by
  unfold Loop.define
  split <;> rfl

theorem define_lastOption (s : Loop) (key value : Text) :
    (s.define key value).lastOption = [] ∨ (s.define key value).lastOption = key := by
  unfold Loop.define
  split
  · exact .inl rfl
  · by_cases hvalue : value = []
    · exact .inr (if_pos hvalue)
    · exact .inl (if_neg hvalue)

theorem Side.define (h : Side saved name isDupField s t) (hnew : saved.get name option = none)
    (value : Text) : Side saved name false (s.define option value) (t.define option value) := by
  refine ⟨define_valid h.valid _ _, define_valid h.valid' _ _, ?_, ?_, ?_, ?_, ?_⟩
  · rw [define_lastSection, h.lastSection]
  · rw [define_lastSection, h.lastSection']
  · unfold Loop.define
    rw [h.lastSection, h.lastSection']
    split
    · exact h.agree
    · exact h.agree.set _ _ _
  · intro _
    constructor
    · unfold Loop.define
      rw [h.lastSection, h.lastSection']
      split <;> rfl
    · intro hopen
      rcases define_lastOption s option value with hlast | hlast
      · exact absurd hlast hopen
      · rw [hlast]
        exact hnew
  · intro hdup
    cases hdup

theorem Side.define_dup (h : Side saved name isDupField s t)
    (hsaved : (saved.get name option).isSome) (value : Text) :
    Side saved name true (s.define option value) t := by
  refine ⟨define_valid h.valid _ _, h.valid', ?_, h.lastSection', ?_, ?_, ?_⟩
  · rw [define_lastSection, h.lastSection]
  · unfold Loop.define
    split
    · exact h.agree
    · refine h.agree.set_saved ?_ _
      rw [h.lastSection]
      exact hsaved
  · intro hdup
    cases hdup
  · intro _ hopen
    rcases define_lastOption s option value with hlast | hlast
    · exact absurd hlast hopen
    · rw [hlast]
      exact hsaved

theorem kind_nil : kind [] = .ignored := rfl

theorem step_sim {name' line' : Text} {isDupField' : Bool} (h : Side saved name isDupField s t)
    (hline : Stripped saved name isDupField line (name', isDupField', line'))
    (hs : parseLine s (stripComment line) = .ok s')
    (ht : parseLine t (stripComment line') = .ok t') : Side saved name' isDupField' s' t' := by
  generalize hr : (name', isDupField', line') = r at hline
  cases hline with
  | kept hcloses hdup =>
    cases hr
    rcases hdup with rfl | hblank
    · cases parseLine_continued h.valid hcloses hs
      cases parseLine_continued h.valid' hcloses ht
      exact h.continued _
    · cases (parseLine_ignored (kind_blank hblank)).symm.trans hs
      cases (parseLine_ignored (kind_blank hblank)).symm.trans ht
      exact h
  | continued hcloses hdup hindent =>
    cases hr
    cases hdup
    cases parseLine_continued h.valid hcloses hs
    cases (parseLine_ignored kind_nil).symm.trans ht
    exact h.continued_dup _
  | header hkind =>
    cases hr
    cases (parseLine_header hkind).symm.trans hs
    cases (parseLine_header hkind).symm.trans ht
    exact h.openSection _
  | duplicate hkind hsaved hletter =>
    cases hr
    cases (parseLine_option h.valid hkind).symm.trans hs
    cases (parseLine_ignored kind_nil).symm.trans ht
    exact h.define_dup hsaved _
  | option hkind hnew =>
    cases hr
    cases (parseLine_option h.valid hkind).symm.trans hs
    cases (parseLine_option h.valid' hkind).symm.trans ht
    exact h.define hnew _

theorem Side.start (saved : SortedMap) : Side saved [] false .start .start where
  valid := start_valid
  valid' := start_valid
  lastSection := rfl
  lastSection' := rfl
  agree := fun _ _ _ => rfl
  same := fun _ => ⟨rfl, fun hopen => absurd rfl hopen⟩
  dup := fun hdup => by cases hdup

/-- If the parser gets through both texts, the configurations agree but for the saved options. -/
theorem run_sim {lines lines' : List Text} (h : Side saved name isDupField s t)
    (hform : ∀ line ∈ lines, LineForm (stripComment line))
    (hstrip : stripLines saved name isDupField lines = .ok lines')
    (hs : parseLines s (lines.map stripComment) = .ok s')
    (ht : parseLines t (lines'.map stripComment) = .ok t') :
    AgreeOff saved s'.config t'.config := by
  induction lines generalizing name isDupField s t lines' with
  | nil =>
    cases hstrip
    cases hs
    cases ht
    exact h.agree
  | cons line lines ih =>
    obtain ⟨hline, hlines⟩ := forall_mem_cons.mp hform
    obtain ⟨⟨name₁, dup₁, line₁⟩, hr, hstripped⟩ :=
      stripLine_cases saved name isDupField hline
    obtain ⟨rest, hrest, rfl⟩ := stripLines_cons hr hstrip
    obtain ⟨s₁, hs₁, hs⟩ := Outcome.bind_eq_ok hs
    obtain ⟨t₁, ht₁, ht⟩ := Outcome.bind_eq_ok ht
    exact ih (step_sim h hstripped hs₁ ht₁) hlines hrest hs ht

end Sides

end Config
