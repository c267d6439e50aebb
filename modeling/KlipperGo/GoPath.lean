/-
Paths as the `path/filepath` package takes them apart, with `/` as the separator.

`Clean` reads a path element by element.  What it has kept at any time is a place: it is
reached from the root, or from the current directory by some steps up, and then by names on
the way down.

* `placeOf_join` — a path that is joined to a directory goes on from the place of the directory;
* `foldl_follow_eq` — where it leads from there depends on how far it climbs and on the names
  behind that;
* `go_below_iff` — when this is below the directory.
-/
import KlipperGo.Lines
import Mathlib.Data.List.Induction

open List

namespace GoPath

def IsName (element : List Char) : Prop :=
  element ≠ [] ∧ element ≠ ['.'] ∧ element ≠ ['.', '.'] ∧ '/' ∉ element

instance : DecidablePred IsName := fun element =>
  inferInstanceAs (Decidable (element ≠ [] ∧ element ≠ ['.'] ∧ element ≠ ['.', '.'] ∧
    '/' ∉ element))

abbrev Name := { element : List Char // IsName element }

/-- Where a path begins: at the root, or some steps up from the current directory. -/
inductive Start
  | root
  | up (steps : ℕ)
  deriving DecidableEq

structure Place where
  start : Start
  names : List Name
  deriving DecidableEq

def here : Place := ⟨.up 0, []⟩

/-- The element `..`: the last name is left out; there is nothing above the root. -/
def Place.up (p : Place) : Place :=
  if p.names ≠ [] then { p with names := p.names.dropLast }
  else
    match p.start with
    | .root => p
    | .up steps => { p with start := .up (steps + 1) }

variable (p : Place) (path : List Char)

/-- An element of a path; one that is empty or `.` leads nowhere. -/
def Place.follow (element : List Char) : Place :=
  if element = ['.', '.'] then p.up
  else if h : IsName element then { p with names := p.names ++ [⟨element, h⟩] }
  else p

def placeOf : Place :=
  (splitOn '/' path).foldl Place.follow
    (if path.head? = some '/' then ⟨.root, []⟩ else here)

/-- The elements of the shortest path to the place. -/
def Place.elements : List (List Char) :=
  (match p.start with
    | .root => []
    | .up steps => replicate steps ['.', '.']) ++ p.names.map Subtype.val

/-- The shortest path to the place. -/
def Place.render : List Char :=
  if p.start = .root then '/' :: intercalate ['/'] p.elements
  else if p.elements = [] then ['.']
  else intercalate ['/'] p.elements

def clean : List Char := (placeOf path).render

def join (elem : List (List Char)) : List Char :=
  match elem.dropWhile (· = []) with
  | [] => []
  | e :: rest => clean (intercalate ['/'] (e :: rest))

/-- `filepath.Ext`: the last element, from its last dot on. -/
def ext : List Char :=
  let base := (splitOn '/' path).getLastD []
  if '.' ∈ base then '.' :: (base.reverse.takeWhile (· ≠ '.')).reverse else []

/-! ### Cleaned paths -/

variable (q : Place)

theorem foldl_follow_names (names : List Name) :
    (names.map Subtype.val).foldl Place.follow p = { p with names := p.names ++ names } := by
  induction names generalizing p with
  | nil => simp
  | cons name names ih =>
    have hname : p.follow name.1 = { p with names := p.names ++ [name] } := by
      rw [Place.follow, if_neg name.2.2.2.1, dif_pos name.2]
    rw [map_cons, foldl_cons, hname, ih, append_assoc, singleton_append]

theorem foldl_follow_up (n m : ℕ) :
    (replicate m ['.', '.']).foldl Place.follow ⟨.up n, []⟩ = ⟨.up (n + m), []⟩ := by
  induction m generalizing n with
  | zero => rfl
  | succ m ih =>
    show (replicate m ['.', '.']).foldl Place.follow ⟨.up (n + 1), []⟩ = _
    rw [ih, Nat.add_right_comm, Nat.add_assoc]

/-- From where the place starts, its elements lead to it. -/
theorem foldl_follow_elements :
    p.elements.foldl Place.follow (if p.start = .root then ⟨.root, []⟩ else here) = p := by
  obtain ⟨_ | n, names⟩ := p
  · rw [Place.elements, nil_append, foldl_follow_names]
    rfl
  · rw [Place.elements, foldl_append]
    show (names.map Subtype.val).foldl Place.follow
      ((replicate n ['.', '.']).foldl Place.follow ⟨.up 0, []⟩) = _
    rw [foldl_follow_up, foldl_follow_names, Nat.zero_add, nil_append]

theorem follow_nil : p.follow [] = p := by
  simp [Place.follow, IsName]

theorem slash_notMem_elements : ∀ e ∈ p.elements, '/' ∉ e ∧ e ≠ [] := by
  intro e he
  rcases mem_append.mp he with hup | hname
  · have hdots : e = ['.', '.'] := by
      cases hstart : p.start with
      | root => rw [hstart] at hup; cases hup
      | up n => rw [hstart] at hup; exact eq_of_mem_replicate hup
    rw [hdots]
    decide
  · obtain ⟨name, -, rfl⟩ := mem_map.mp hname
    exact ⟨name.2.2.2.2, name.2.1⟩

theorem head?_intercalate {e : List Char} (he : e ≠ []) (es : List (List Char)) :
    (intercalate ['/'] (e :: es)).head? = e.head? := by
  obtain ⟨c, e, rfl⟩ := exists_cons_of_ne_nil he
  cases es with
  | nil => rw [intercalate_singleton]
  | cons e' es =>
    rfl

/-- Behind a separator, or as a whole, the elements are read again. -/
theorem foldl_follow_intercalate {es : List (List Char)} (h : ∀ e ∈ es, '/' ∉ e) (p : Place) :
    (splitOn '/' (intercalate ['/'] es)).foldl Place.follow p =
      es.foldl Place.follow p := by
  by_cases hes : es = []
  · rw [hes]
    exact follow_nil p
  · rw [splitOn_intercalate '/' h hes]

/-- The shortest path to a place leads there. -/
theorem placeOf_render : placeOf p.render = p := by
  have hslash : ∀ e ∈ p.elements, '/' ∉ e := fun e he => (slash_notMem_elements p e he).1
  have hall := foldl_follow_elements p
  rw [Place.render]
  split
  · next hroot =>
    rw [if_pos hroot] at hall
    have hsplit := splitOn_append_cons_self (a := '/') [] (intercalate ['/'] p.elements)
    rw [nil_append, splitOn_nil] at hsplit
    rw [placeOf, hsplit, foldl_append, foldl_follow_intercalate hslash]
    show p.elements.foldl Place.follow (Place.follow ⟨.root, []⟩ []) = p
    rw [follow_nil, hall]
  · next hroot =>
    rw [if_neg hroot] at hall
    split
    · next hnone =>
      rw [hnone] at hall
      exact hall
    · next hsome =>
      obtain ⟨e, es, helements⟩ := exists_cons_of_ne_nil hsome
      obtain ⟨he, hne⟩ := slash_notMem_elements p e (by rw [helements]; exact mem_cons_self)
      have hhead : (intercalate ['/'] p.elements).head? ≠ some '/' := by
        rw [helements, head?_intercalate hne]
        exact fun h => he (mem_of_head? h)
      rw [placeOf, if_neg hhead, foldl_follow_intercalate hslash, hall]

/-- A cleaned path leads to the same place. -/
theorem placeOf_clean : placeOf (clean path) = placeOf path :=
  placeOf_render _

theorem clean_ne_nil : clean path ≠ [] := by
  intro hnil
  -- the empty path leads to the current directory, and that is rendered as a dot
  have hplace : here = placeOf path := by rw [← placeOf_clean, hnil]; rfl
  rw [clean, ← hplace] at hnil
  cases hnil

/-! ### Joined paths -/

theorem placeOf_join {dir : List Char} (h : dir ≠ []) (name : List Char) :
    placeOf (join [dir, name]) = (splitOn '/' name).foldl Place.follow (placeOf dir) := by
  have hjoin : join [dir, name] = clean (dir ++ '/' :: name) := by
    simp [join, h, intercalate]
  obtain ⟨c, dir, rfl⟩ := exists_cons_of_ne_nil h
  rw [hjoin, placeOf_clean, placeOf, splitOn_append_cons_self, foldl_append]
  rfl

def Place.climb (steps : ℕ) : Place :=
  { start :=
      match p.start with
      | .root => .root
      | .up n => .up (n + (steps - p.names.length))
    names := p.names.take (p.names.length - steps) }

/-- The place that a path from the current directory leads to, when it is followed from another
one. -/
def Place.go : Place :=
  match q.start with
  | .root => q
  | .up steps => { p.climb steps with names := (p.climb steps).names ++ q.names }

theorem climb_up (steps : ℕ) : (p.climb steps).up = p.climb (steps + 1) := by
  obtain ⟨start, names⟩ := p
  rcases Nat.lt_or_ge steps names.length with hlt | hge
  · have hne : names.take (names.length - steps) ≠ [] := by
      rw [← length_pos_iff, length_take]
      omega
    have hlast : (names.take (names.length - steps)).dropLast =
        names.take (names.length - (steps + 1)) := by
      rw [dropLast_eq_take, take_take, length_take]
      congr 1
      omega
    cases start <;> simp [Place.up, Place.climb, hne, hlast]
    omega
  · have hnil : names.take (names.length - steps) = [] := by
      rw [Nat.sub_eq_zero_of_le hge, take_zero]
    have hnil' : names.take (names.length - (steps + 1)) = [] := by
      rw [Nat.sub_eq_zero_of_le (by omega), take_zero]
    cases start <;> simp [Place.up, Place.climb, hnil, hnil']
    omega

theorem go_here : p.go here = p := by
  obtain ⟨_ | n, names⟩ := p <;> simp [Place.go, Place.climb, here]

/-- Following an element after the whole path, or as its last element. -/
theorem go_follow {q : Place} (hq : q.start ≠ .root) (element : List Char) :
    (p.go q).follow element = p.go (q.follow element) := by
  obtain ⟨_ | steps, names⟩ := q
  · exact absurd rfl hq
  rw [Place.follow, Place.follow]
  split
  · by_cases hnames : names = []
    · subst hnames
      have hclimb : p.go ⟨.up steps, []⟩ = p.climb steps := by
        simp [Place.go]
      rw [hclimb, climb_up]
      simp [Place.go, Place.up]
    · simp [Place.go, Place.up, hnames, dropLast_append_of_ne_nil hnames]
  · split
    · simp [Place.go]
    · rfl

theorem follow_start {q : Place} (hq : q.start ≠ .root) (element : List Char) :
    (q.follow element).start ≠ .root := by
  obtain ⟨_ | steps, names⟩ := q
  · exact absurd rfl hq
  · rw [Place.follow, Place.up]
    split_ifs <;> simp

/-- Where the elements of a path lead from any place. -/
theorem foldl_follow_eq (es : List (List Char)) :
    (es.foldl Place.follow here).start ≠ .root ∧
      es.foldl Place.follow p = p.go (es.foldl Place.follow here) := by
  induction es using List.reverseRecOn with
  | nil => exact ⟨by simp [here], (go_here p).symm⟩
  | append_singleton es e ih =>
    obtain ⟨hstart, hgo⟩ := ih
    simp only [foldl_append, foldl_cons, foldl_nil]
    exact ⟨follow_start hstart e, by rw [hgo, go_follow p hstart]⟩

/-- The place is below another one: it starts there, and goes on. -/
def Place.Below (p : Place) : Prop :=
  q.start = p.start ∧ ∃ rest, rest ≠ [] ∧ q.names = p.names ++ rest

/-- How many steps up a path from the current directory begins with. -/
def Place.steps : ℕ :=
  match q.start with
  | .root => 0
  | .up n => n

/-- A path that climbs leads below its start only if it comes back the same way. -/
theorem go_below_iff {q : Place} (hq : q.start ≠ .root) :
    (p.go q).Below p ↔ (p.start = .root ∨ q.steps ≤ p.names.length) ∧
      ∃ rest, rest ≠ [] ∧ q.names = p.names.drop (p.names.length - q.steps) ++ rest := by
  obtain ⟨_ | steps, names⟩ := q
  · exact absurd rfl hq
  have hnames : ∀ rest, p.names.take (p.names.length - steps) ++ names = p.names ++ rest ↔
      names = p.names.drop (p.names.length - steps) ++ rest := by
    intro rest
    conv_lhs => rhs; rw [← take_append_drop (p.names.length - steps) p.names]
    rw [append_assoc, append_cancel_left_eq]
  have hstart : (p.climb steps).start = p.start ↔ p.start = .root ∨ steps ≤ p.names.length := by
    obtain ⟨_ | n, pnames⟩ := p
    · simp [Place.climb]
    · simp [Place.climb, Nat.sub_eq_zero_iff_le]
  exact and_congr hstart (exists_congr fun rest => and_congr_right fun _ => hnames rest)

end GoPath
