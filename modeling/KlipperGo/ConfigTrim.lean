/-
White space at the ends of a configuration text.

The regular part is trimmed before the block is written behind it.  The lines in the middle stay as
they are, the first one may lose an indent and the last one what stands behind it.

* `parseLines_textLines` — the parser sees the lines as `strings.Split` gives them;
* `exists_trimLines` — what the lines of the trimmed text are;
* `parseLines_trimSpace` — the parser does not notice white space at the ends of a text whose first
  line is not a continuation line.
-/
import KlipperGo.ConfigStrip

namespace Config

open GoRuntime GoStrings Lines List

variable {data p d line : Text} {s s' : Loop}

/-! ### The lines of a text for the parser -/

/-- The lines of a text without their comments, empty ones with them. -/
def bareLines (data : Text) : List Text := (splitLines data).map stripComment

theorem stripComment_subset (line : Text) : ∀ c ∈ stripComment line, c ∈ line :=
  fun _ hc => (List.takeWhile_prefix _).subset hc

theorem bareLines_proper (data : Text) : Proper newline (bareLines data) := by
  intro line hline hmem
  obtain ⟨source, hsource, rfl⟩ := mem_map.mp hline
  exact notMem_of_mem_splitOn hsource (stripComment_subset source newline hmem)

theorem fieldLines_joinLines {lines : List Text} (h : Proper newline lines) (hne : lines ≠ [])
    (hreturn : ∀ line ∈ lines, '\r' ∉ line) :
    fieldLines (joinLines lines) = lines.filter (fun w => !w.isEmpty) := by
  have hsplit : (joinLines lines).splitOnP (fun c => c = '\r' ∨ c = '\n') =
      splitLines (joinLines lines) := by
    refine splitOnP_congr fun c hc => ?_
    have hne : c ≠ '\r' := by
      rintro rfl
      rcases mem_joinLines hc with heq | ⟨line, hline, hmem⟩
      · cases heq
      · exact hreturn line hline hmem
    simp only [hne, false_or]
    rfl
  rw [fieldLines, fieldsFunc, hsplit, splitLines_joinLines h hne]

theorem parseLines_filter (s : Loop) (lines : List Text) :
    parseLines s (lines.filter (fun w => !w.isEmpty)) = parseLines s lines := by
  induction lines generalizing s with
  | nil => rfl
  | cons line lines ih =>
    rcases line with _ | ⟨c, line⟩
    · exact ih s
    · show (parseLine s (c :: line) >>= fun s' => parseLines s' (lines.filter _)) = _
      simp only [ih]
      rfl

theorem parseLines_textLines (h : '\r' ∉ data) (s : Loop) :
    parseLines s (textLines data) = parseLines s (bareLines data) := by
  have hne : bareLines data ≠ [] := by
    rw [bareLines, ne_eq, map_eq_nil_iff]
    exact splitOnP_ne_nil _ _
  have hreturn : ∀ line ∈ bareLines data, '\r' ∉ line := by
    intro line hline hmem
    obtain ⟨source, hsource, rfl⟩ := mem_map.mp hline
    exact h (mem_of_mem_splitOn hsource (stripComment_subset source _ hmem))
  show parseLines s (fieldLines (joinLines (bareLines data))) = _
  rw [fieldLines_joinLines (bareLines_proper data) hne hreturn, parseLines_filter]

/-! ### White space behind a line -/

def White (s : Text) : Prop := ∀ c ∈ s, isSpace c = true

theorem hash_notMem_white (h : White d) : '#' ∉ d := fun hmem => absurd (h '#' hmem) (by decide)

theorem takeWhile_append_of_mem {c : Char} (h : c ∈ p) (d : Text) :
    (p ++ d).takeWhile (· ≠ c) = p.takeWhile (· ≠ c) := by
  rw [takeWhile_append, if_neg]
  intro hlength
  have hself := (List.takeWhile_prefix fun x => decide (x ≠ c)).eq_of_length hlength
  rw [← hself] at h
  exact absurd (mem_takeWhile_imp h) (by simp)

theorem stripComment_of_notMem (h : '#' ∉ p) : stripComment p = p := by
  rw [stripComment, takeWhile_eq_self_iff]
  intro c hc
  exact decide_eq_true fun heq => h (heq ▸ hc)

theorem kind_eq_ignored : kind p = .ignored ↔ commentMatch p ∨ trimSpace p = [] := by
  unfold kind
  by_cases h : commentMatch p ∨ trimSpace p = []
  · simp [h]
  · rw [if_neg h]
    refine iff_of_false ?_ h
    split
    · simp
    · split <;> simp

theorem commentMatch_append (hp : ∃ x ∈ p, isSpace x = false) (d : Text) :
    commentMatch (p ++ d) = commentMatch p := by
  have hne : p.dropWhile reSpace ≠ [] := by
    intro hnil
    obtain ⟨x, hx, hspace⟩ := hp
    have hre := isSpace_of_reSpace (dropWhile_eq_nil_iff.mp hnil x hx)
    rw [hspace] at hre
    cases hre
  obtain ⟨c, rest, hdrop⟩ := exists_cons_of_ne_nil hne
  unfold commentMatch
  rw [dropWhile_append, hdrop]
  rfl

theorem trimSpace_append_white (hd : White d) : trimSpace (p ++ d) = trimSpace p :=
  trimFunc_append_right hd

/-- White space behind a continuation line. -/
theorem kind_append_space {c : Char} {rest : Text} (hc : c = ' ' ∨ c = '\t') (hp : p = c :: rest)
    (hchar : ∃ x ∈ p, isSpace x = false) (hd : White d)
    (hform : ∀ text, trimSpace p ≠ '[' :: (text ++ [']'])) : kind (p ++ d) = kind p := by
  have hcloses : ¬ Closes p := by
    rw [hp]
    exact not_closes_continuation hc (by rwa [← hp])
  have hcloses' : ¬ Closes (p ++ d) := by
    rw [hp, cons_append]
    refine not_closes_continuation hc ?_
    rw [← cons_append, ← hp, trimSpace_append_white hd]
    exact hform
  have hignored : kind (p ++ d) = .ignored ↔ kind p = .ignored := by
    rw [kind_eq_ignored, kind_eq_ignored, commentMatch_append hchar, trimSpace_append_white hd]
  rcases not_not.mp hcloses with hkind | hkind
  · rw [hkind, hignored.mpr hkind]
  · rcases not_not.mp hcloses' with hkind' | hkind'
    · rw [hignored.mp hkind'] at hkind
      cases hkind
    · rw [hkind, hkind']

theorem cutValue_append_space (hp : '#' ∉ p) (hd : White d) :
    cutValue (p ++ d) = cutValue p ∨ cutValue p = p ∧ cutValue (p ++ d) = p ++ d := by
  have hsemi : ';' ∉ d := fun hmem => absurd (hd ';' hmem) (by decide)
  unfold cutValue
  by_cases hmem : ';' ∈ p
  · rw [if_pos hmem, if_pos (mem_append_left d hmem)]
    exact .inl (takeWhile_append_of_mem hmem d)
  · rw [if_neg hmem, if_neg (by simp [hmem, hsemi])]
    refine .inr ⟨stripComment_of_notMem hp, stripComment_of_notMem ?_⟩
    simp [hp, hash_notMem_white hd]

theorem parseLine_of_alike (hs : s.Valid) (hp : p ≠ [])
    (hkind : kind p = .ignored ∨ kind p = .other)
    (hsame : kind (p ++ d) = kind p) (hhash : '#' ∉ p) (hd : White d)
    (h : parseLine s (p ++ d) = .ok s') : parseLine s p = .ok s' := by
  rcases hkind with hkind | hkind
  · rw [parseLine_ignored (hsame.trans hkind)] at h
    rw [parseLine_ignored hkind, h]
  · have htrim : trimSpace (cutValue (p ++ d)) = trimSpace (cutValue p) := by
      rcases cutValue_append_space hhash hd with hcut | ⟨hcut, hcut'⟩
      · rw [hcut]
      · rw [hcut, hcut', trimSpace_append_white hd]
    have hhead : (cutValue (p ++ d)).head? = (cutValue p).head? := by
      rcases cutValue_append_space hhash hd with hcut | ⟨hcut, hcut'⟩
      · rw [hcut]
      · obtain ⟨c, rest, rfl⟩ := exists_cons_of_ne_nil hp
        rw [hcut, hcut']
        rfl
    have hcont : contText (p ++ d) = contText p := by
      unfold contText
      rw [hsame, htrim]
    rw [parseLine_other hs (hsame.trans hkind), hcont, hhead, htrim] at h
    rw [parseLine_other hs hkind]
    by_cases hskip : s.lastOption = [] ∨ contText p = none
    · rwa [if_pos hskip] at h ⊢
    · rw [if_neg hskip] at h ⊢
      by_cases hindent : (cutValue p).head? ≠ some ' '
      · rw [if_pos hindent] at h
        cases h
      · rwa [if_neg hindent] at h ⊢

/-- White space behind a well-formed line is not noticed. -/
theorem parseLine_append_space (hs : s.Valid) (hform : LineForm (p ++ d)) (hhash : '#' ∉ p)
    (hlast : ∃ x ∈ p.getLast?, isSpace x = false) (hd : White d)
    (h : parseLine s (p ++ d) = .ok s') : parseLine s p = .ok s' := by
  have hend : ∀ x ∈ p.getLast?, isSpace x = false := by
    obtain ⟨x, hx, hspace⟩ := hlast
    intro y hy
    cases hx.symm.trans hy
    exact hspace
  have hchar : ∃ x ∈ p, isSpace x = false := by
    obtain ⟨x, hx, hspace⟩ := hlast
    exact ⟨x, mem_of_getLast? hx, hspace⟩
  have hp := trimRightFunc_append_of_space hd hend
  cases hform with
  | blank hblank =>
    obtain ⟨x, hx, hspace⟩ := hchar
    rw [isSpace_of_blanks hblank x (mem_append_left d hx)] at hspace
    cases hspace
  | @header name ws hname hws heq =>
    have hself : p = '[' :: (name ++ ']' :: []) := by
      have hsplit : '[' :: (name ++ ']' :: ws) = '[' :: name ++ [']'] ++ ws := by simp
      rw [← hp, heq, hsplit, trimRightFunc_append_of_space (isSpace_of_blanks hws)]
      · simp
      · rw [getLast?_concat]
        rintro x ⟨⟩
        decide
    rw [heq, parseLine_header (kind_header hname hws)] at h
    rw [hself, parseLine_header (kind_header hname (fun _ hc => absurd hc not_mem_nil)), h]
  | @option key pad value hkey hpad heq =>
    have hself : p = key ++ pad ++ '=' :: trimRightFunc isSpace value := by
      rw [← hp, heq, trimRightFunc_option]
    have hvalue : '#' ∉ value := by
      intro hmem
      have hline : '#' ∈ p ++ d := by
        rw [heq]
        simp [hmem]
      exact (mem_append.mp hline).elim hhash (hash_notMem_white hd)
    have hvalue' : '#' ∉ trimRightFunc isSpace value := by
      intro hmem
      exact hhash (by rw [hself]; simp [hmem])
    rw [heq, parseLine_option hs (kind_option hkey hpad hvalue)] at h
    rw [hself, parseLine_option hs (kind_option hkey hpad hvalue'), trimSpace,
      trimFunc_trimRightFunc]
    exact h
  | @continuation c rest hc heq hblank hform =>
    rw [trimSpace_append_white hd] at hform
    obtain ⟨rest', hcons⟩ : ∃ rest', p = c :: rest' := by
      rcases p with _ | ⟨c', p⟩
      · obtain ⟨x, hx, -⟩ := hchar
        cases hx
      · exact ⟨p, by rw [(List.cons.inj heq).1]⟩
    have hcloses : ¬ Closes p := by
      rw [hcons]
      exact not_closes_continuation hc (by rwa [← hcons])
    refine parseLine_of_alike hs (by rw [hcons]; simp) (not_not.mp hcloses) ?_ hhash hd h
    exact kind_append_space hc hcons hchar hd hform

/-! ### White space at the ends of a text -/

/-- The first line that is not white is not indented, unless it is a comment. -/
def FirstUnindented (lines : List Text) : Prop :=
  ∀ before line after, lines = before ++ line :: after → (∀ l ∈ before, White l) →
    (∃ c ∈ line.head?, isSpace c = true) → White (stripComment line)

/-- The lines of a text that has something in it and those of the trimmed text: the first of them
loses `a` in front and the last of them `d` behind. -/
structure TrimLines (data : Text) (as : List Text) (a b : Text) (bs cs : List Text) (c d : Text)
    (ds : List Text) : Prop where
  lines : splitLines data = as ++ (a ++ b) :: bs
  trimmed : splitLines (trimSpace data) = cs ++ [c]
  middle : b :: bs = cs ++ (c ++ d) :: ds
  before : ∀ l ∈ as, White l
  indent : White a
  behind : White d
  after : ∀ l ∈ ds, White l
  head : ∃ x ∈ b.head?, isSpace x = false
  last : ∃ x ∈ c.getLast?, isSpace x = false

theorem White.lines {l : Text} (h : White data) (hl : l ∈ splitLines data) : White l :=
  fun c hc => h c (mem_of_mem_splitOn hl hc)

theorem exists_trimLines (h : trimSpace data ≠ []) :
    ∃ as a b bs cs c d ds, TrimLines data as a b bs cs c d ds := by
  obtain ⟨ws, ws', hdata, hws, hws'⟩ := exists_trimFunc isSpace data
  have hhead : ∃ x ∈ (trimSpace data).head?, isSpace x = false := by
    obtain ⟨x, rest, hcons⟩ := exists_cons_of_ne_nil h
    exact ⟨x, by rw [hcons]; rfl, trimFunc_head x (by rw [← trimSpace, hcons]; rfl)⟩
  have hlast : ∃ x ∈ (trimSpace data).getLast?, isSpace x = false := by
    obtain ⟨x, hx⟩ := Option.isSome_iff_exists.mp (getLast?_isSome.mpr h)
    exact ⟨x, hx, trimFunc_getLast x hx⟩
  obtain ⟨as, a, b, bs, -, -, hlead, hfirst, hlines⟩ :=
    exists_splitOn_append newline ws (trimSpace data ++ ws')
  obtain ⟨cs, c, d, ds, htrim, hc, htrimmed, htrail, hmiddle⟩ :=
    exists_splitOn_append newline (trimSpace data) ws'
  refine ⟨as, a, b, bs, cs, c, d, ds, ?_, htrimmed, hfirst.symm.trans hmiddle, ?_, ?_, ?_, ?_, ?_,
    ?_⟩
  · conv_lhs => rw [hdata]
    exact hlines
  · intro l hl
    exact White.lines hws (by rw [splitLines, hlead]; exact mem_append_left _ hl)
  · exact White.lines hws (by rw [splitLines, hlead]; simp)
  · exact White.lines hws' (by rw [splitLines, htrail]; simp)
  · intro l hl
    exact White.lines hws' (by rw [splitLines, htrail]; exact mem_cons_of_mem d hl)
  · -- the first line begins as the text does
    obtain ⟨x, hx, hspace⟩ := hhead
    obtain ⟨l, ls, hsplit, -, hfirst'⟩ := exists_first newline (trimSpace data ++ ws')
    cases hfirst.symm.trans hsplit
    have hstart : (trimSpace data ++ ws').head? = some x := by
      rw [head?_append, hx]
      rfl
    refine ⟨x, ?_, hspace⟩
    rcases hfirst' with heq | ⟨t, heq⟩
    · rwa [heq] at hstart
    · rw [heq] at hstart
      rcases b with _ | ⟨y, b⟩
      · cases hstart
        cases hspace
      · exact hstart
  · -- the last line ends as the text does
    obtain ⟨x, hx, hspace⟩ := hlast
    refine ⟨x, ?_, hspace⟩
    rw [htrim] at hx
    rcases eq_nil_or_concat' c with rfl | ⟨c, y, rfl⟩
    · rcases eq_nil_or_concat' cs with rfl | ⟨cs, l, rfl⟩
      · cases hx
      · rw [unlines_append, append_nil, unlines_cons, unlines_nil, ← append_assoc,
          getLast?_concat] at hx
        cases hx
        cases hspace
    · rw [← append_assoc, getLast?_concat] at hx
      rwa [getLast?_concat]

theorem stripComment_white_append (h : White p) (line : Text) :
    stripComment (p ++ line) = p ++ stripComment line := by
  refine takeWhile_append_of_pos fun c hc => decide_eq_true ?_
  rintro rfl
  exact hash_notMem_white h hc

section TrimLines

variable {as bs cs ds : List Text} {a b c : Text}

/-- The first line has no indent, or it is a comment. -/
theorem TrimLines.unindented (h : TrimLines data as a b bs cs c d ds)
    (hfirst : FirstUnindented (splitLines data)) : a = [] ∨ stripComment b = [] := by
  rcases a with _ | ⟨y, a⟩
  · exact .inl rfl
  · right
    have hindent : isSpace y = true := h.indent y mem_cons_self
    have hwhite := hfirst as _ bs h.lines h.before ⟨y, rfl, hindent⟩
    rw [stripComment_white_append h.indent] at hwhite
    obtain ⟨x, hx, hspace⟩ := h.head
    obtain ⟨rest, rfl⟩ := head?_eq_some_iff.mp hx
    by_cases hhash : x = '#'
    · subst hhash
      rfl
    · have hkeep : stripComment (x :: rest) = x :: stripComment rest := by
        unfold stripComment
        rw [takeWhile_cons, if_pos (decide_eq_true hhash)]
      rw [hwhite x (by rw [hkeep]; simp)] at hspace
      cases hspace

theorem mem_of_mem_middle (h : TrimLines data as a b bs cs c d ds)
    (hfirst : FirstUnindented (splitLines data)) {P : Text → Prop} (hnil : P [])
    (hlines : ∀ l ∈ splitLines data, P (stripComment l)) : ∀ l ∈ b :: bs, P (stripComment l) := by
  have hlines' : ∀ l ∈ (a ++ b) :: bs, P (stripComment l) := by
    intro l hl
    exact hlines l (by rw [h.lines]; exact mem_append_right as hl)
  obtain ⟨hline, hrest⟩ := forall_mem_cons.mp hlines'
  refine forall_mem_cons.mpr ⟨?_, hrest⟩
  rcases h.unindented hfirst with rfl | hcomment
  · exact hline
  · rwa [hcomment]

end TrimLines

theorem parseLines_ignored {lines : List Text} (h : ∀ l ∈ lines, kind l = .ignored) :
    parseLines s lines = .ok s := by
  induction lines with
  | nil => rfl
  | cons line lines ih =>
    obtain ⟨hline, hlines⟩ := forall_mem_cons.mp h
    show (parseLine s line >>= fun s' => parseLines s' lines) = _
    rw [parseLine_ignored hline]
    exact ih hlines

theorem parseLines_white {lines : List Text} (h : ∀ l ∈ lines, White l) :
    parseLines s (lines.map stripComment) = .ok s := by
  refine parseLines_ignored fun p hp => ?_
  obtain ⟨line, hline, rfl⟩ := mem_map.mp hp
  exact kind_blank fun c hc => h line hline c (stripComment_subset line c hc)

/-- The parser gets to the same state on the trimmed text. -/
theorem parseLines_trimSpace (hgood : ∀ l ∈ splitLines data, LineForm (stripComment l))
    (hfirst : FirstUnindented (splitLines data)) (h : parseLines .start (bareLines data) = .ok s) :
    parseLines .start (bareLines (trimSpace data)) = .ok s := by
  by_cases hempty : trimSpace data = []
  · rw [bareLines, parseLines_white fun l hl => White.lines (trimFunc_eq_nil.mp hempty) hl] at h
    rw [hempty]
    exact h
  · obtain ⟨as, a, b, bs, cs, c, d, ds, htrim⟩ := exists_trimLines hempty
    rw [bareLines, htrim.lines, map_append, parseLines_append, parseLines_white htrim.before] at h
    -- without the indent
    have hmiddle : parseLines .start ((b :: bs).map stripComment) = .ok s := by
      rcases htrim.unindented hfirst with rfl | hcomment
      · exact h
      · have hwhite : kind (stripComment (a ++ b)) = .ignored := by
          rw [stripComment_white_append htrim.indent, hcomment, append_nil]
          exact kind_blank htrim.indent
        obtain ⟨s₁, hs₁, hrest⟩ := parseLines_cons h
        cases (parseLine_ignored hwhite).symm.trans hs₁
        show (parseLine .start (stripComment b) >>= fun s₁ =>
          parseLines s₁ (bs.map stripComment)) = _
        rw [hcomment, parseLine_ignored kind_nil]
        exact hrest
    have hform := mem_of_mem_middle htrim hfirst
      (.blank fun _ hc => absurd hc not_mem_nil) hgood
    rw [htrim.middle] at hmiddle hform
    rw [map_append, parseLines_append] at hmiddle
    obtain ⟨s₁, hs₁, hmiddle⟩ := Outcome.bind_eq_ok hmiddle
    obtain ⟨s₂, hs₂, hafter⟩ := parseLines_cons hmiddle
    cases (parseLines_white htrim.after).symm.trans hafter
    -- without what stands behind the last line
    have hlast : parseLine s₁ (stripComment c) = .ok s := by
      by_cases hhash : '#' ∈ c
      · rwa [stripComment, takeWhile_append_of_mem hhash] at hs₂
      · have hhash' : '#' ∉ c ++ d := by simp [hhash, hash_notMem_white htrim.behind]
        have hline := hform (c ++ d) (by simp)
        rw [stripComment_of_notMem hhash'] at hs₂ hline
        rw [stripComment_of_notMem hhash]
        exact parseLine_append_space (reached_of_ok hs₁).valid hline hhash htrim.last
          htrim.behind hs₂
    rw [bareLines, htrim.trimmed, map_append, parseLines_append, hs₁]
    show parseLines s₁ [stripComment c] = _
    rw [parseLines_singleton, hlast]

theorem noInclude_trimSpace (hfirst : FirstUnindented (splitLines data))
    (h : ∀ l ∈ splitLines data, ¬ includeWord <+: stripComment l) :
    ∀ l ∈ splitLines (trimSpace data), ¬ includeWord <+: stripComment l := by
  by_cases hempty : trimSpace data = []
  · rw [hempty]
    intro l hl
    cases mem_singleton.mp (show l ∈ [[]] from hl)
    decide
  · obtain ⟨as, a, b, bs, cs, c, d, ds, htrim⟩ := exists_trimLines hempty
    have hmiddle := mem_of_mem_middle (P := fun p => ¬ includeWord <+: p) htrim hfirst (by decide) h
    rw [htrim.middle] at hmiddle
    rw [htrim.trimmed]
    intro l hl hstarts
    rcases mem_append.mp hl with hl | hl
    · exact hmiddle l (mem_append_left _ hl) hstarts
    · cases mem_singleton.mp hl
      refine hmiddle (c ++ d) (by simp) (hstarts.trans ?_)
      by_cases hhash : '#' ∈ c
      · have hsame : stripComment (c ++ d) = stripComment c := takeWhile_append_of_mem hhash d
        exact ⟨[], by rw [append_nil, hsame]⟩
      · rw [stripComment_of_notMem hhash, stripComment_of_notMem
          (show '#' ∉ c ++ d by simp [hhash, hash_notMem_white htrim.behind])]
        exact prefix_append c d

theorem unmarked_trimSpace (h : ∀ l ∈ splitLines data, ¬ mark <+: l) :
    Unmarked (trimSpace data ++ [newline]) := by
  have hlines : splitLines (trimSpace data ++ [newline]) = splitLines (trimSpace data) ++ [[]] :=
    splitOn_append_cons_self (a := newline) (trimSpace data) []
  have hnil : ¬ mark <+: [] := by decide
  unfold Unmarked
  rw [hlines]
  by_cases hempty : trimSpace data = []
  · rw [hempty]
    intro l hl
    cases mem_singleton.mp (show l ∈ [[]] from hl)
    exact hnil
  · obtain ⟨as, a, b, bs, cs, c, d, ds, htrim⟩ := exists_trimLines hempty
    have hbs : ∀ l ∈ bs, ¬ mark <+: l := by
      intro l hl
      exact h l (by rw [htrim.lines]; exact mem_append_right as (mem_cons_of_mem _ hl))
    rw [htrim.trimmed]
    rcases cs with _ | ⟨b', cs⟩
    · intro l hl
      cases mem_singleton.mp (show l ∈ [[]] from hl)
      exact hnil
    · have hrest : bs = cs ++ (c ++ d) :: ds := (List.cons.inj htrim.middle).2
      intro l hl hstarts
      rcases mem_append.mp (show l ∈ cs ++ [c] ++ [[]] from hl) with hl | hl
      · rcases mem_append.mp hl with hl | hl
        · exact hbs l (by rw [hrest]; exact mem_append_left _ hl) hstarts
        · cases mem_singleton.mp hl
          exact hbs (c ++ d) (by rw [hrest]; simp) (hstarts.trans (prefix_append c d))
      · cases mem_singleton.mp hl
        exact hnil hstarts

end Config
