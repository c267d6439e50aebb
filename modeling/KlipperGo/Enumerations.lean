/-
Enumerations of the firmware dictionary (`MessageParser.Fill_enumerations` and `Enumeration`
of `internal/pkg/msgproto/msgproto.go`).

An entry of an enumeration is a number, or a range: a first number and a count, which stand
for consecutively numbered names.  The number of an entry is stored as the JSON decoder gives
it, a `float64`, and those of a range as `int`.  The tables for parsing take both, but the
encoder of the parameter's type takes integers only.
-/
import KlipperGo.Dictionary

open GoRuntime Outcome List

namespace Msgproto

open MessageParser Enumeration

/-- The name can be encoded, and parsing the encoding gives it back, wherever it stands. -/
def Enumeration.Usable (e : Enumeration) (name : String) : Prop :=
  ∃ bytes, e.encode (.string name) = .ok bytes ∧
    ∀ pre rest, e.parse (pre ++ (bytes ++ rest)) pre.length =
      .ok (.string name, pre.length + bytes.length)

/-- The code can be sent in a parameter of the type: it is an integer of 32 bits, and not
negative if the type has no sign. -/
def BaseType.Carries (t : BaseType) (n : ℤ) : Prop :=
  t.isString = false ∧ -2 ^ 31 ≤ n ∧ n < 2 ^ 32 ∧ (t.signed = false → 0 ≤ n)

/-! ### Entries -/

/-- A range, as decoded: `[start, count]`. -/
def Json.IsRange : Json → Prop
  | .array (.number _ :: .number _ :: _) => True
  | _ => False

def Json.IsEnumEntry : Json → Prop
  | .number _ => True
  | val => val.IsRange

/-- The names an entry stands for, with their values. -/
def entryNames (entry : String × Json) : List (String × Value) :=
  match entry.2 with
  | .number v => [(entry.1, .float64 v)]
  | .array (.number startValue :: .number count :: _) =>
    enumRange entry.1 (truncate startValue) (truncate count).toNat
  | _ => []

def lastEntry (entries : List (String × Json)) (name : String) : Option (String × Json) :=
  entries.reverse.find? fun entry => (entryNames entry).any fun e => e.1 = name

def DistinctCodes (entries : List (String × Json)) : Prop :=
  ((entries.flatMap entryNames).map fun e => reverseKey e.2).Nodup

instance (entries : List (String × Json)) : Decidable (DistinctCodes entries) :=
  inferInstanceAs (Decidable (List.Nodup _))

/-! ### Tables -/

section

variable {α : Type*} {m : List (String × α)} {key name : String} {value : α}

theorem mem_of_mem_assign {e : String × α} (h : e ∈ assign m key value) :
    e ∈ m ∨ e = (key, value) := by
  rw [assign] at h
  split at h
  · obtain ⟨e', he', rfl⟩ := mem_map.mp h
    split
    · exact .inr rfl
    · exact .inl he'
  · simpa using h

def get (m : List (String × α)) (name : String) : Option α :=
  (m.find? fun e => e.1 = name).map Prod.snd

theorem get_assign (m : List (String × α)) (key name : String) (value : α) :
    get (assign m key value) name = if name = key then some value else get m name := by
  rw [get, assign]
  split
  · next hany =>
    -- an entry keeps its key
    have hkey : ∀ e : String × α, (if e.1 = key then (key, value) else e).1 = e.1 := by
      intro e
      split
      · next heq => exact heq.symm
      · rfl
    rw [find?_map]
    simp only [Function.comp_def, hkey, Option.map_map]
    split
    · next heq =>
      obtain ⟨e, he, hekey⟩ := any_eq_true.mp hany
      have hfound : (m.find? fun e => decide (e.1 = name)).isSome :=
        find?_isSome.mpr ⟨e, he, by simpa [heq] using hekey⟩
      obtain ⟨e', he'⟩ := Option.isSome_iff_exists.mp hfound
      have hname : e'.1 = name := by simpa using find?_some he'
      rw [he']
      simp [hname.trans heq]
    · next hne =>
      rw [get]
      cases hfind : m.find? fun e => decide (e.1 = name) with
      | none => rfl
      | some e' =>
        have hname : e'.1 = name := by simpa using find?_some hfind
        simp [hname, hne]
  · next hany =>
    have hnone : name = key → (m.find? fun e => decide (e.1 = name)) = none := by
      rintro rfl
      refine find?_eq_none.mpr fun e he hname => hany ?_
      exact any_eq_true.mpr ⟨e, he, hname⟩
    rw [find?_append]
    split
    · next heq =>
      rw [hnone heq]
      simp [heq]
    · next hne => simp [get, Ne.symm hne]

/-- Assignments in a row: the last one to a name counts. -/
theorem get_foldl_assign (ps : List (String × α)) (m : List (String × α)) (name : String) :
    (¬ (ps.any fun e => e.1 = name) ∧
      get (ps.foldl (fun m e => assign m e.1 e.2) m) name = get m name) ∨
    ((ps.any fun e => e.1 = name) ∧ ∃ value, (name, value) ∈ ps ∧
      get (ps.foldl (fun m e => assign m e.1 e.2) m) name = some value) := by
  induction ps generalizing m with
  | nil => exact .inl ⟨by simp, rfl⟩
  | cons p ps ih =>
    rcases ih (assign m p.1 p.2) with ⟨hnot, hget⟩ | ⟨hany, value, hmem, hget⟩
    · rw [foldl_cons, hget, get_assign]
      by_cases hp : name = p.1
      · refine .inr ⟨by simp [hp], p.2, by simp [hp], if_pos hp⟩
      · exact .inl ⟨by simpa [Ne.symm hp] using hnot, if_neg hp⟩
    · exact .inr ⟨by simp only [any_cons, hany, Bool.or_true], value,
        mem_cons_of_mem _ hmem, hget⟩

theorem mem_of_mem_foldl_assign {ps : List (String × α)} {e : String × α}
    (h : e ∈ ps.foldl (fun m e => assign m e.1 e.2) m) : e ∈ m ∨ e ∈ ps := by
  induction ps generalizing m with
  | nil => exact .inl h
  | cons p ps ih =>
    rcases ih h with hassign | hps
    · rcases mem_of_mem_assign hassign with hm | rfl
      · exact .inl hm
      · exact .inr mem_cons_self
    · exact .inr (mem_cons_of_mem _ hps)

end

/-! ### The filled table -/

/-- An entry of the right shape assigns its names. -/
theorem fillEntry_eq {enum : String} {val : Json} (h : val.IsEnumEntry)
    (enums : List (String × Value)) :
    fillEntry enums enum val =
      .ok ((entryNames (enum, val)).foldl (fun m e => assign m e.1 e.2) enums) := by
  match val with
  | .number v => rfl
  | .array (.number startValue :: .number count :: more) => rfl

/-- The table of an enumeration. -/
def filled (entries : List (String × Json)) : List (String × Value) :=
  (entries.flatMap entryNames).foldl (fun m e => assign m e.1 e.2) []

theorem foldlM_fillEntry {entries : List (String × Json)} (h : ∀ e ∈ entries, e.2.IsEnumEntry)
    (enums : List (String × Value)) :
    entries.foldlM (fun enums (e : String × Json) => fillEntry enums e.1 e.2) enums =
      .ok ((entries.flatMap entryNames).foldl (fun m e => assign m e.1 e.2) enums) := by
  induction entries generalizing enums with
  | nil => rfl
  | cons e entries ih =>
    obtain ⟨he, hall⟩ := forall_mem_cons.mp h
    rw [foldlM_cons, fillEntry_eq he, flatMap_cons, foldl_append]
    exact ih hall _

/-- A name has the value that the last entry that stands for it gives it. -/
theorem lookup_filled (entries : List (String × Json)) (name : String) :
    match lastEntry entries name with
    | none => get (filled entries) name = none
    | some entry => entry ∈ entries ∧ ∃ value, (name, value) ∈ entryNames entry ∧
        get (filled entries) name = some value := by
  induction entries using List.reverseRecOn with
  | nil => rfl
  | append_singleton entries entry ih =>
    have hfilled : filled (entries ++ [entry]) =
        (entryNames entry).foldl (fun m e => assign m e.1 e.2) (filled entries) := by
      simp [filled, flatMap_append, foldl_append]
    rw [lastEntry, reverse_append, reverse_singleton, singleton_append, find?_cons, hfilled]
    rcases get_foldl_assign (entryNames entry) (filled entries) name with
      ⟨hnot, hget⟩ | ⟨hany, value, hmem, hget⟩
    · rw [Bool.eq_false_of_not_eq_true hnot]
      rw [hget]
      cases hlast : lastEntry entries name with
      | none =>
        rw [hlast] at ih
        rw [show entries.reverse.find? _ = none from hlast]
        exact ih
      | some e =>
        rw [hlast] at ih
        rw [show entries.reverse.find? _ = some e from hlast]
        exact ⟨mem_append_left _ ih.1, ih.2⟩
    · rw [hany]
      exact ⟨by simp, value, hmem, hget⟩

/-! ### Usable names -/

/-- With distinct codes, a name of a code that the parameter carries is usable just if its value
is an `int`. -/
theorem usable_of_lookup_iff {e : Enumeration} {name : String} {tv : Value} {n : ℤ}
    (hlookup : get e.enums name = some tv) (hcode : reverseKey tv = some n)
    (hcarries : e.pt.Carries n) (hdistinct : ∀ x ∈ e.enums, ∀ y ∈ e.enums,
      reverseKey x.2 = reverseKey y.2 → x = y) :
    e.Usable name ↔ ∃ v, tv = .int v := by
  obtain ⟨hint, hlow, hhigh, hunsigned⟩ := hcarries
  have hencode : e.encode (.string name) = BaseType.encodeInt tv := by
    have hfound : e.lookup name = some tv := hlookup
    simp only [encode, hfound]
    simp [BaseType.encode, hint]
  constructor
  · rintro ⟨bytes, hok, -⟩
    rw [hencode] at hok
    cases tv with
    | int v => exact ⟨v, rfl⟩
    | float64 v => cases hok
    | _ => cases hcode
  · rintro ⟨v, rfl⟩
    obtain rfl : v = n := Option.some.inj hcode
    -- the reverse table has this name and no other
    have hmem : (name, Value.int v) ∈ e.enums := by
      obtain ⟨x, hx, hvalue⟩ := Option.map_eq_some_iff.mp hlookup
      have hname : x.1 = name := by simpa using find?_some hx
      have hpair : x = (name, Value.int v) := Prod.ext hname hvalue
      exact hpair ▸ mem_of_find?_eq_some hx
    have hreverse : e.reverse v = some name := by
      have hsome : (e.enums.reverse.find? fun x =>
          decide (reverseKey x.2 = some v)).isSome :=
        find?_isSome.mpr ⟨_, mem_reverse.mpr hmem, decide_eq_true rfl⟩
      obtain ⟨x, hx⟩ := Option.isSome_iff_exists.mp hsome
      have hkey : reverseKey x.2 = some v := by simpa using find?_some hx
      have hxmem := mem_reverse.mp (mem_of_find?_eq_some hx)
      rw [Enumeration.reverse, hx, hdistinct x hxmem _ hmem hkey]
      rfl
    refine ⟨Vlq.encode v, hencode, fun pre rest => ?_⟩
    have hparse : e.pt.parse (pre ++ (Vlq.encode v ++ rest)) pre.length =
        .ok (.int64 v, pre.length + (Vlq.encode v).length) := by
      rw [BaseType.parse, if_neg (by simp [hint])]
      exact parseInt_encode hlow hhigh hunsigned pre rest
    rw [Enumeration.parse, hparse]
    show Except.ok (Value.string ((e.reverse v).getD _), _) = _
    rw [hreverse]
    rfl

/-- The values of an entry have codes, and are of type `int` just if it is a range. -/
theorem entryNames_value {entry : String × Json} {e : String × Value} (h : e ∈ entryNames entry) :
    (∃ n, reverseKey e.2 = some n) ∧ ((∃ v, e.2 = .int v) ↔ entry.2.IsRange) := by
  rw [entryNames] at h
  split at h
  · next v hval =>
    rw [mem_singleton.mp h, hval]
    exact ⟨⟨_, rfl⟩, iff_of_false nofun id⟩
  · next startValue count more hval =>
    obtain ⟨i, -, rfl⟩ := mem_map.mp h
    rw [hval]
    exact ⟨⟨_, rfl⟩, iff_of_true ⟨_, rfl⟩ trivial⟩
  · cases h

/-! ### Dictionaries -/

/-- The enumerations section: objects of numbers and ranges with distinct codes. -/
def EnumSection (enumerations : List (String × Json)) : Prop :=
  (enumerations.map Prod.fst).Nodup ∧
    ∀ e ∈ enumerations, ∃ entries, e.2 = .object entries ∧ (∀ x ∈ entries, x.2.IsEnumEntry) ∧
      DistinctCodes entries

def Json.entries : Json → List (String × Json)
  | .object entries => entries
  | _ => []

variable {enumerations : List (String × Json)}

theorem fillEnumerations_eq (self : MessageParser)
    (h : ∀ e ∈ enumerations, ∃ entries, e.2 = .object entries ∧
      (∀ x ∈ entries, x.2.IsEnumEntry) ∧ DistinctCodes entries) :
    self.fillEnumerations enumerations = .ok { self with
      enumerations := (enumerations.map fun e => (e.1, filled e.2.entries)).foldl
        (fun m e => assign m e.1 e.2) self.enumerations } := by
  induction enumerations generalizing self with
  | nil => rfl
  | cons e enumerations ih =>
    obtain ⟨⟨entries, hobject, hentries, -⟩, hall⟩ := forall_mem_cons.mp h
    obtain ⟨addName, addEnums⟩ := e
    obtain rfl : addEnums = .object entries := hobject
    have hfill := foldlM_fillEntry hentries []
    show ((entries.foldlM _ []) >>= _) >>= _ = _
    rw [hfill]
    exact ih { self with enumerations := assign self.enumerations addName (filled entries) } hall

/-- For every dictionary whose enumerations are numbers and ranges with distinct codes, every
name has a code, and in a parameter that carries the code it is usable if and only if the last
entry that stands for the name is a range. -/
theorem enumeration_usable_iff (self : MessageParser) (h : EnumSection enumerations) :
    ∃ parser, self.fillEnumerations enumerations = .ok parser ∧
      ∀ addName entries, (addName, Json.object entries) ∈ enumerations →
        ∃ enums, get parser.enumerations addName = some enums ∧
          ∀ name, name ∈ (entries.flatMap entryNames).map Prod.fst →
            ∃ tv n, get enums name = some tv ∧ reverseKey tv = some n ∧
              ∀ t : BaseType, t.Carries n →
                ((⟨t, addName, enums⟩ : Enumeration).Usable name ↔
                  ∃ entry ∈ lastEntry entries name, entry.2.IsRange) := by
  obtain ⟨hkeys, hall⟩ := h
  refine ⟨_, fillEnumerations_eq self hall, fun addName entries hmem => ⟨filled entries, ?_, ?_⟩⟩
  · -- the last enumeration of the name is the only one
    set tables := enumerations.map fun e => (e.1, filled e.2.entries) with htables
    have hmem' : (addName, filled entries) ∈ tables := mem_map.mpr ⟨_, hmem, rfl⟩
    have hkeys' : (tables.map Prod.fst).Nodup := by
      rw [htables, map_map]
      exact hkeys
    rcases get_foldl_assign tables self.enumerations addName with
      ⟨hnot, -⟩ | ⟨-, value, hvalue, hget⟩
    · exact absurd (any_eq_true.mpr ⟨_, hmem', decide_eq_true rfl⟩) hnot
    · have hsame := inj_on_of_nodup_map hkeys' hvalue hmem' rfl
      rw [hget, (Prod.mk.inj hsame).2]
  · intro name hname
    obtain ⟨entries', hobject, -, hdistinct⟩ := hall _ hmem
    obtain rfl : entries = entries' := Json.object.inj hobject
    have hlast := lookup_filled entries name
    cases hentry : lastEntry entries name with
    | none =>
      -- some entry stands for the name
      obtain ⟨e, he, rfl⟩ := mem_map.mp hname
      obtain ⟨entry, hentry', he'⟩ := mem_flatMap.mp he
      have hno := find?_eq_none.mp hentry entry (mem_reverse.mpr hentry')
      exact absurd (any_eq_true.mpr ⟨e, he', decide_eq_true rfl⟩) hno
    | some entry =>
      rw [hentry] at hlast
      obtain ⟨hentries, tv, hvalue, hget⟩ := hlast
      obtain ⟨⟨n, hcode⟩, hrange⟩ := entryNames_value hvalue
      refine ⟨tv, n, hget, hcode, fun t ht => ?_⟩
      have hsub : ∀ e ∈ filled entries, e ∈ entries.flatMap entryNames := fun e he =>
        (mem_of_mem_foldl_assign he).resolve_left (by simp)
      have husable : (⟨t, addName, filled entries⟩ : Enumeration).Usable name ↔ _ :=
        usable_of_lookup_iff hget hcode ht fun x hx y hy hxy =>
          inj_on_of_nodup_map hdistinct (hsub x hx) (hsub y hy) hxy
      rw [husable, hrange]
      simp

def pinSection : List (String × Json) :=
  [("pin", .object [("PA0", .array [.number 0, .number 2])])]

theorem enumeration_usable_pins :
    EnumSection pinSection ∧ ∃ parser enums, emptyParser.fillEnumerations pinSection = .ok parser ∧
      get parser.enumerations "pin" = some enums ∧
      (⟨.byte, "pin", enums⟩ : Enumeration).Usable "PA1" := by
  have hsection : EnumSection pinSection := by
    refine ⟨by decide, fun e he => ?_⟩
    obtain rfl := mem_singleton.mp he
    exact ⟨_, rfl, by simp [Json.IsEnumEntry, Json.IsRange], by decide +kernel⟩
  obtain ⟨parser, hfill, hall⟩ := enumeration_usable_iff emptyParser hsection
  obtain ⟨enums, hget, hnames⟩ := hall "pin" _ mem_cons_self
  obtain ⟨tv, n, hvalue, hcode, husable⟩ := hnames "PA1" (by decide +kernel)
  refine ⟨hsection, parser, enums, hfill, hget, ?_⟩
  -- the code of the name, computed
  cases hfill
  cases hget
  obtain rfl : tv = .int 1 := (Option.some.inj hvalue).symm
  obtain rfl : n = 1 := (Option.some.inj hcode).symm
  refine (husable .byte ⟨rfl, by norm_num, by norm_num, fun _ => by norm_num⟩).mpr ?_
  exact ⟨_, rfl, trivial⟩

def busSection : List (String × Json) := [("spi_bus", .object [("spi0", .number 0)])]

theorem number_entry_not_usable :
    EnumSection busSection ∧ ∃ parser enums, emptyParser.fillEnumerations busSection = .ok parser ∧
      get parser.enumerations "spi_bus" = some enums ∧
      (⟨.byte, "spi_bus", enums⟩ : Enumeration).encode (.string "spi0") =
        .error .typeAssertion ∧
      ¬ (⟨.byte, "spi_bus", enums⟩ : Enumeration).Usable "spi0" := by
  refine ⟨⟨by decide, fun e he => ?_⟩, _, _, rfl, rfl, rfl, ?_⟩
  · obtain rfl := mem_singleton.mp he
    exact ⟨_, rfl, by simp [Json.IsEnumEntry], by decide +kernel⟩
  · rintro ⟨bytes, hencode, -⟩
    cases hencode

end Msgproto
