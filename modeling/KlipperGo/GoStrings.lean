/-
Texts as the `strings` and `unicode` packages take them apart.

A text is the list of its code points.  Which of them are letters, digits or
upper case is a table of the library; only its ASCII part is fixed here.  The
white space is written out, since words are cut at it.

* `fields_append` — a word followed by white space is the first of the fields;
* `length_flatten_fields_le`, `isSpace_of_length_flatten_fields` — cutting a text into words loses
  its white space and nothing else.
-/
import Mathlib.Data.List.Basic
import Mathlib.Data.List.TakeWhile

open List Option

namespace GoStrings

/-- Texts are compared character by character; named, so that every module finds the same one. -/
instance lawfulBEq_text : LawfulBEq (List Char) := inferInstance

/-- The tables of the `unicode` package, with their ASCII part. -/
structure UnicodeTables where
  toUpper : Char → Char
  isUpper : Char → Bool
  isLetter : Char → Bool
  isDigit : Char → Bool
  toUpper_ascii : ∀ c : Char, c.toNat < 128 → toUpper c = c.toUpper
  isUpper_ascii : ∀ c : Char, c.toNat < 128 → isUpper c = c.isUpper
  isLetter_ascii : ∀ c : Char, c.toNat < 128 → isLetter c = c.isAlpha
  isDigit_ascii : ∀ c : Char, c.toNat < 128 → isDigit c = c.isDigit

theorem agrees_self {α : Type} (f : Char → α) : ∀ c : Char, c.toNat < 128 → f c = f c :=
  fun _ _ => rfl

def UnicodeTables.ascii : UnicodeTables where
  toUpper := Char.toUpper
  isUpper := Char.isUpper
  isLetter := Char.isAlpha
  isDigit := Char.isDigit
  toUpper_ascii := agrees_self Char.toUpper
  isUpper_ascii := agrees_self Char.isUpper
  isLetter_ascii := agrees_self Char.isAlpha
  isDigit_ascii := agrees_self Char.isDigit

def isSpace (c : Char) : Bool :=
  (0x9 ≤ c.toNat ∧ c.toNat ≤ 0xd) ∨ c = ' ' ∨ c.toNat = 0x85 ∨ c.toNat = 0xa0 ∨
    c.toNat = 0x1680 ∨ (0x2000 ≤ c.toNat ∧ c.toNat ≤ 0x200a) ∨ c.toNat = 0x2028 ∨
    c.toNat = 0x2029 ∨ c.toNat = 0x202f ∨ c.toNat = 0x205f ∨ c.toNat = 0x3000

theorem isSpace_blank : isSpace ' ' = true := by decide

variable (p : Char → Bool) (s : List Char)

def trimFunc : List Char :=
  ((s.dropWhile p).reverse.dropWhile p).reverse

def trimSpace : List Char := trimFunc isSpace s

def fieldsFunc : List (List Char) :=
  (s.splitOnP p).filter (fun w => !w.isEmpty)

def fields : List (List Char) :=
  (s.splitOnP isSpace).filter (fun w => !w.isEmpty)

def index (pat : List Char) : List Char → Option ℕ
  | [] => if pat <+: [] then some 0 else none
  | c :: s => if pat <+: c :: s then some 0 else (index pat s).map (· + 1)

/-- `strings.Cut` at one character. -/
def cut (c : Char) (s : List Char) : Option (List Char × List Char) :=
  match s.dropWhile (· ≠ c) with
  | [] => none
  | _ :: rest => some (s.takeWhile (· ≠ c), rest)

def trimPrefix (pre s : List Char) : List Char := if pre <+: s then s.drop pre.length else s

def trimRightFunc : List Char :=
  (s.reverse.dropWhile p).reverse

variable {p : Char → Bool} {s w r : List Char}

/-! ### Searching -/

variable {pat : List Char} {c : Char}

/-- Text in which no occurrence begins is skipped. -/
theorem index_shift (hbefore : ∀ m < s.length, ¬ pat <+: (s ++ r).drop m) :
    index pat (s ++ r) = (index pat r).map (· + s.length) := by
  induction s with
  | nil => simp
  | cons c s ih =>
    have hrest : ∀ m < s.length, ¬ pat <+: (s ++ r).drop m := fun m hm =>
      hbefore (m + 1) (Nat.succ_lt_succ hm)
    have hnow : ¬ pat <+: c :: (s ++ r) := hbefore 0 (Nat.succ_pos _)
    rw [cons_append, index, if_neg hnow, ih hrest, Option.map_map]
    rfl

theorem index_eq_zero (h : pat <+: r) : index pat r = some 0 := by
  rcases r with _ | ⟨c, r⟩ <;> exact if_pos h

theorem index_append (h : pat <+: r) (hbefore : ∀ m < s.length, ¬ pat <+: (s ++ r).drop m) :
    index pat (s ++ r) = some s.length := by
  rw [index_shift hbefore, index_eq_zero h, map_some, Nat.zero_add]

theorem index_isSome (h : pat <:+: s) : (index pat s).isSome := by
  induction s with
  | nil => rw [index, if_pos (infix_nil.mp h ▸ prefix_rfl), isSome_some]
  | cons c s ih =>
    by_cases hnow : pat <+: c :: s
    · rw [index_eq_zero hnow, isSome_some]
    · rw [index, if_neg hnow, isSome_map]
      exact ih ((infix_cons_iff.mp h).resolve_left hnow)

theorem prefix_of_index {i : ℕ} (h : index pat s = some i) : pat <+: s.drop i := by
  induction s generalizing i with
  | nil =>
    rw [index] at h
    split at h
    · next hnil => rwa [drop_nil]
    · cases h
  | cons c s ih =>
    rw [index] at h
    split at h
    · next hnow =>
      cases h
      exact hnow
    · obtain ⟨j, hj, rfl⟩ := map_eq_some_iff.mp h
      exact ih hj

theorem index_eq_none (h : ∀ m, ¬ pat <+: s.drop m) : index pat s = none := by
  induction s with
  | nil => exact if_neg (h 0)
  | cons c s ih =>
    have hnow : ¬ pat <+: c :: s := h 0
    rw [index, if_neg hnow, ih fun m => h (m + 1)]
    rfl

theorem ne_of_notMem (h : c ∉ s) : ∀ d ∈ s, decide (d ≠ c) = true :=
  fun _ hd => decide_eq_true fun heq => h (heq ▸ hd)

theorem cut_append (h : c ∉ s) : cut c (s ++ c :: r) = some (s, r) := by
  rw [cut, dropWhile_append_of_pos (ne_of_notMem h), takeWhile_append_of_pos (ne_of_notMem h)]
  simp

theorem cut_eq_none (h : c ∉ s) : cut c s = none := by
  rw [cut, dropWhile_eq_nil_iff.mpr (ne_of_notMem h)]

theorem append_of_cut {before after : List Char} (h : cut c s = some (before, after)) :
    s = before ++ c :: after := by
  rw [cut] at h
  split at h
  · cases h
  · next d rest hdrop =>
    cases h
    have hd := head_dropWhile_not (· ≠ c) (l := s) (by rw [hdrop]; simp)
    simp only [hdrop, head_cons, decide_eq_false_iff_not, not_not] at hd
    conv_lhs => rw [← takeWhile_append_dropWhile (p := (· ≠ c)) (l := s), hdrop, hd]

/-! ### Trimming -/

theorem length_trimFunc_le (p : Char → Bool) (s : List Char) :
    (trimFunc p s).length ≤ s.length := by
  have hleft := (dropWhile_sublist (l := s) p).length_le
  have hright := (dropWhile_sublist (l := (s.dropWhile p).reverse) p).length_le
  rw [length_reverse] at hright
  rw [trimFunc, length_reverse]
  omega

/-- A text that trimming does not shorten is not changed by it. -/
theorem trimFunc_of_length (h : s.length ≤ (trimFunc p s).length) : trimFunc p s = s := by
  have hleft := dropWhile_sublist (l := s) p
  have hright := dropWhile_sublist (l := (s.dropWhile p).reverse) p
  rw [trimFunc, length_reverse] at h
  have hl := hleft.length_le
  have hr := hright.length_le
  rw [length_reverse] at hr
  have h₁ := hleft.eq_of_length (by omega)
  have h₂ := hright.eq_of_length (by rw [length_reverse]; omega)
  rw [trimFunc, h₂, reverse_reverse, h₁]

theorem dropWhile_append_of_word (hw : w ≠ []) (hp : ∀ c ∈ w, p c = false) :
    (w ++ r).dropWhile p = w ++ r := by
  obtain ⟨c, w, rfl⟩ := exists_cons_of_ne_nil hw
  simp [hp c (by simp)]

/-- Trimming a text that begins with a word only takes from what follows the word. -/
theorem trimFunc_append (hw : w ≠ []) (hp : ∀ c ∈ w, p c = false) :
    ∃ r', r' <+: r ∧ trimFunc p (w ++ r) = w ++ r' := by
  refine ⟨(r.reverse.dropWhile p).reverse, ?_, ?_⟩
  · obtain ⟨t, ht⟩ := dropWhile_suffix (l := r.reverse) p
    refine ⟨t.reverse, ?_⟩
    rw [← reverse_append, ht, reverse_reverse]
  · have hw' : w.reverse ≠ [] := by simpa using hw
    have hp' : ∀ c ∈ w.reverse, p c = false := fun c hc => hp c (mem_reverse.mp hc)
    rw [trimFunc, dropWhile_append_of_word hw hp, reverse_append, dropWhile_append]
    split
    · next hr =>
      have hword := dropWhile_append_of_word (r := []) hw' hp'
      rw [append_nil] at hword
      rw [isEmpty_iff.mp hr, hword, reverse_reverse, reverse_nil, append_nil]
    · rw [reverse_append, reverse_reverse]

theorem trimFunc_of_word (hp : ∀ c ∈ w, p c = false) : trimFunc p w = w := by
  by_cases hw : w = []
  · rw [hw]
    rfl
  · obtain ⟨r', hr, h⟩ := trimFunc_append (r := []) hw hp
    rw [append_nil, prefix_nil.mp hr, append_nil] at h
    exact h

theorem trimFunc_append_right {b : List Char} (hb : ∀ c ∈ b, p c = true) :
    trimFunc p (s ++ b) = trimFunc p s := by
  have hb' : ∀ c ∈ b.reverse, p c = true := fun c hc => hb c (mem_reverse.mp hc)
  rw [trimFunc, trimFunc, dropWhile_append]
  by_cases hs : (s.dropWhile p).isEmpty = true
  · rw [if_pos hs, isEmpty_iff.mp hs, dropWhile_eq_nil_iff.mpr hb]
  · rw [if_neg hs, reverse_append, dropWhile_append_of_pos hb']

/-- White space on either side is not seen. -/
theorem trimFunc_pad {a b : List Char} (ha : ∀ c ∈ a, p c = true) (hb : ∀ c ∈ b, p c = true) :
    trimFunc p (a ++ (s ++ b)) = trimFunc p s := by
  rw [← trimFunc_append_right (s := s) hb, trimFunc, dropWhile_append_of_pos ha]
  rfl

theorem dropWhile_of_head (h : ∀ c ∈ s.head?, p c = false) : s.dropWhile p = s := by
  rcases s with _ | ⟨c, s⟩
  · rfl
  · rw [dropWhile_cons, h c rfl, if_neg Bool.false_ne_true]

theorem trimFunc_of_ends (h : ∀ c ∈ s.head?, p c = false) (h' : ∀ c ∈ s.getLast?, p c = false) :
    trimFunc p s = s := by
  have hlast : ∀ c ∈ s.reverse.head?, p c = false := by
    rw [head?_reverse]
    exact h'
  rw [trimFunc, dropWhile_of_head h, dropWhile_of_head hlast, reverse_reverse]

theorem trimFunc_eq_nil : trimFunc p s = [] ↔ ∀ c ∈ s, p c = true := by
  rw [trimFunc, reverse_eq_nil_iff, dropWhile_eq_nil_iff]
  constructor
  · intro h
    rcases hs : s.dropWhile p with _ | ⟨c, r⟩
    · exact dropWhile_eq_nil_iff.mp hs
    · have hc : p c = true := h c (by rw [hs]; simp)
      have hnot := head_dropWhile_not p (l := s) (by rw [hs]; simp)
      simp [hs, hc] at hnot
  · intro h c hc
    rw [dropWhile_eq_nil_iff.mpr h] at hc
    cases hc

theorem trimFunc_of_head (h : ∀ c ∈ s.head?, p c = false) : trimFunc p s = trimRightFunc p s := by
  rw [trimFunc, dropWhile_of_head h, trimRightFunc]

theorem mem_of_mem_trimFunc (h : c ∈ trimFunc p s) : c ∈ s :=
  (dropWhile_sublist p).mem
    (mem_reverse.mp ((dropWhile_sublist p).mem (mem_reverse.mp h)))

/-- Trimming the right end stops in the last part that has a character to stop at. -/
theorem trimRightFunc_append (s r : List Char) : trimRightFunc p (s ++ r) =
    if trimRightFunc p r = [] then trimRightFunc p s else s ++ trimRightFunc p r := by
  unfold trimRightFunc
  rw [reverse_append, dropWhile_append]
  by_cases h : r.reverse.dropWhile p = []
  · rw [h]
    rfl
  · rw [if_neg (by simpa using h), if_neg (by simpa using h), reverse_append, reverse_reverse]

theorem trimRightFunc_concat (h : p c = false) (s : List Char) :
    trimRightFunc p (s ++ [c]) = s ++ [c] := by
  simp [trimRightFunc, h]

/-- In front of a text that begins and ends with other characters only the left end is trimmed. -/
theorem trimFunc_append_left (hr : r ≠ []) (h : ∀ c ∈ r.head?, p c = false)
    (h' : ∀ c ∈ r.getLast?, p c = false) : trimFunc p (s ++ r) = s.dropWhile p ++ r := by
  have hdrop : (s ++ r).dropWhile p = s.dropWhile p ++ r := by
    rw [dropWhile_append]
    split
    · next hnil => rw [isEmpty_iff.mp hnil, dropWhile_of_head h, nil_append]
    · rfl
  have hlast : ∀ c ∈ (s.dropWhile p ++ r).reverse.head?, p c = false := by
    rw [head?_reverse, getLast?_append_of_ne_nil _ hr]
    exact h'
  rw [trimFunc, hdrop, dropWhile_of_head hlast, reverse_reverse]

theorem trimFunc_getLast : ∀ c ∈ (trimFunc p s).getLast?, p c = false := by
  intro c hc
  rw [trimFunc, getLast?_reverse] at hc
  have hne : (s.dropWhile p).reverse.dropWhile p ≠ [] := by
    intro hnil
    rw [hnil] at hc
    cases hc
  have hnot := head_dropWhile_not p hne
  rw [mem_def, head?_eq_some_head hne, Option.some.injEq] at hc
  rw [← hc]
  exact hnot

theorem exists_trimFunc_append (h : ∀ c ∈ s.head?, p c = false) :
    ∃ pad, s = trimFunc p s ++ pad ∧ ∀ c ∈ pad, p c = true := by
  refine ⟨(s.reverse.takeWhile p).reverse, ?_, fun c hc => ?_⟩
  · rw [trimFunc, dropWhile_of_head h, ← reverse_append, takeWhile_append_dropWhile,
      reverse_reverse]
  · exact mem_takeWhile_imp (mem_reverse.mp hc)

theorem exists_trimFunc (p : Char → Bool) (s : List Char) :
    ∃ a b, s = a ++ (trimFunc p s ++ b) ∧ (∀ c ∈ a, p c = true) ∧ ∀ c ∈ b, p c = true := by
  refine ⟨s.takeWhile p, ((s.dropWhile p).reverse.takeWhile p).reverse, ?_,
    fun c hc => mem_takeWhile_imp hc,
    fun c hc => mem_takeWhile_imp (mem_reverse.mp hc)⟩
  rw [trimFunc, ← reverse_append, takeWhile_append_dropWhile, reverse_reverse,
    takeWhile_append_dropWhile]

theorem trimFunc_head : ∀ c ∈ (trimFunc p s).head?, p c = false := by
  intro c hc
  obtain ⟨rest, hrest⟩ := head?_eq_some_iff.mp hc
  obtain ⟨tail, hdrop⟩ : ∃ tail, s.dropWhile p = c :: tail := by
    refine ⟨rest ++ ((s.dropWhile p).reverse.takeWhile p).reverse, ?_⟩
    rw [← cons_append, ← hrest, trimFunc, ← reverse_append,
      takeWhile_append_dropWhile, reverse_reverse]
  have hnot := head_dropWhile_not p (l := s) (by rw [hdrop]; simp)
  simpa [hdrop] using hnot

theorem trimRightFunc_append_of_space {b : List Char} (hb : ∀ c ∈ b, p c = true)
    (hs : ∀ c ∈ s.getLast?, p c = false) : trimRightFunc p (s ++ b) = s := by
  have hlast : ∀ c ∈ s.reverse.head?, p c = false := by
    rw [head?_reverse]
    exact hs
  rw [trimRightFunc, reverse_append, dropWhile_append_of_pos fun c hc => hb c (mem_reverse.mp hc),
    dropWhile_of_head hlast, reverse_reverse]

theorem trimFunc_trimRightFunc (p : Char → Bool) (s : List Char) :
    trimFunc p (trimRightFunc p s) = trimFunc p s := by
  have hsplit : s = trimRightFunc p s ++ (s.reverse.takeWhile p).reverse := by
    rw [trimRightFunc, ← reverse_append, takeWhile_append_dropWhile, reverse_reverse]
  conv_rhs => rw [hsplit]
  exact (trimFunc_append_right fun c hc => mem_takeWhile_imp (mem_reverse.mp hc)).symm

/-! ### Words -/

theorem fields_append_space (hc : isSpace c = true) :
    fields (s ++ c :: r) = fields s ++ fields r := by
  rw [fields, splitOnP_append_cons _ _ hc, filter_append]
  rfl

theorem fields_of_space (h : ∀ c ∈ s, isSpace c = true) : fields s = [] := by
  induction s with
  | nil => rfl
  | cons c s ih =>
    rw [← nil_append (c :: s), fields_append_space (h c mem_cons_self),
      ih fun d hd => h d (mem_cons_of_mem _ hd)]
    rfl

/-- White space on either side adds no word. -/
theorem fields_pad {a b : List Char} (ha : ∀ c ∈ a, isSpace c = true)
    (hb : ∀ c ∈ b, isSpace c = true) : fields (a ++ (s ++ b)) = fields s := by
  have hright : fields (s ++ b) = fields s := by
    rcases b with _ | ⟨c, b⟩
    · rw [append_nil]
    · rw [fields_append_space (hb c mem_cons_self),
        fields_of_space fun d hd => hb d (mem_cons_of_mem _ hd), append_nil]
  rw [← hright]
  induction a with
  | nil => rfl
  | cons c a ih =>
    rw [cons_append, ← nil_append (c :: _), fields_append_space (ha c mem_cons_self),
      ih fun d hd => ha d (mem_cons_of_mem _ hd)]
    rfl

theorem infix_of_mem_fields (h : w ∈ fields s) : w <:+: s := by
  -- the first piece is a beginning of the text, and every other one stands in it
  have hpieces : ∃ v l, s.splitOnP isSpace = v :: l ∧ v <+: s ∧ ∀ w ∈ l, w <:+: s := by
    clear h
    induction s with
    | nil => exact ⟨[], [], rfl, prefix_rfl, by simp⟩
    | cons c s ih =>
      obtain ⟨v, l, hsplit, hv, hl⟩ := ih
      rw [splitOnP_cons_eq_if_modifyHead, hsplit]
      split
      · refine ⟨[], v :: l, rfl, nil_prefix, fun w hw => infix_cons ?_⟩
        rcases mem_cons.mp hw with rfl | hw
        · exact hv.isInfix
        · exact hl w hw
      · exact ⟨c :: v, l, rfl, cons_prefix_cons.mpr ⟨rfl, hv⟩,
          fun w hw => infix_cons (hl w hw)⟩
  obtain ⟨v, l, hsplit, hv, hl⟩ := hpieces
  rw [fields, hsplit] at h
  rcases mem_cons.mp (mem_of_mem_filter h) with rfl | hw
  · exact hv.isInfix
  · exact hl w hw

/-- A text that may follow a word: nothing, or white space first. -/
def Follows (r : List Char) : Prop := ∀ c ∈ r.head?, c = ' '

theorem Follows.prefix {r' : List Char} (h : Follows r) (hr : r' <+: r) : Follows r' := by
  obtain ⟨t, rfl⟩ := hr
  intro c hc
  apply h
  rw [head?_append]
  rw [hc]
  rfl

theorem fields_append (hw : w ≠ []) (hp : ∀ c ∈ w, isSpace c = false) (hr : Follows r) :
    ∃ rest, fields (w ++ r) = w :: rest := by
  rcases r with _ | ⟨c, r⟩
  · rw [append_nil, fields, splitOnP_eq_singleton hp]
    simp [hw]
  · have hc : c = ' ' := hr c rfl
    refine ⟨fields r, ?_⟩
    rw [fields, splitOnP_append_cons_of_forall_mem hp _ (hc ▸ isSpace_blank)]
    simp [hw, fields]

/-- The fields are the text without its white space. -/
theorem flatten_fields (s : List Char) : (fields s).flatten = s.filter (fun c => !isSpace c) := by
  rw [fields, flatten_filter_not_isEmpty]
  induction s with
  | nil => simp
  | cons c s ih =>
    rw [splitOnP_cons_eq_if_modifyHead]
    split
    · next hc => simpa [hc] using ih
    · next hc =>
      obtain ⟨w, l, hl⟩ := exists_cons_of_ne_nil (splitOnP_ne_nil isSpace s)
      rw [hl] at ih ⊢
      simpa [hc] using ih

theorem length_flatten_fields_le (s : List Char) : (fields s).flatten.length ≤ s.length := by
  rw [flatten_fields]
  exact length_filter_le _ s

theorem isSpace_of_length_flatten_fields (h : s.length ≤ (fields s).flatten.length) :
    ∀ c ∈ s, isSpace c = false := by
  rw [flatten_fields] at h
  have hall := length_filter_eq_length_iff.mp
    (Nat.le_antisymm (length_filter_le (fun c => !isSpace c) s) h)
  simpa using hall

end GoStrings
