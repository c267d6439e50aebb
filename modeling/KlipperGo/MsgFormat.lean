/-
The message formats of the micro-controller protocol
(`internal/pkg/msgproto/msgproto.go`).

A format is a message id and a list of named, typed parameters.  Values are
given either by position or by name and are of dynamic types, so both encoders
look at the type of each value; the decoder looks at the parameter types only.
Bytes are natural numbers.

* `encode_base`, `parseInt_append`, `parseString_append` — the codec of one parameter;
* `parse_encode` — the decoder inverts the encoders over a list of parameters;
* `roundTrips_iff` — for which formats and values both encoders agree and the
  values come back.
-/
import KlipperGo.Returns
import KlipperGo.Vlq

open GoRuntime Outcome List

namespace Msgproto

/-- A value of dynamic type. -/
inductive Value where
  | int (v : ℤ)
  | int64 (v : ℤ)
  | ints (v : List ℕ)
  | int64s (v : List ℕ)
  | string (v : String)
  | float64 (v : ℚ)
  deriving DecidableEq

/-- The entries of `MessageTypes`. -/
inductive BaseType where
  | uint32
  | int32
  | uint16
  | int16
  | byte
  | string
  | progmemBuffer
  | buffer
  deriving DecidableEq

namespace BaseType

/-- The `Signed` field of the integer types. -/
def signed : BaseType → Bool
  | int32 | int16 => true
  | _ => false

def isString : BaseType → Bool
  | string | progmemBuffer | buffer => true
  | _ => false

/-- The `Max_length` field. -/
def maxLength : BaseType → ℕ
  | uint32 | int32 => 5
  | uint16 | int16 => 3
  | byte => 2
  | string | progmemBuffer | buffer => 64

/-- `PT_uint32.Encode`: the bytes it appends. -/
def encodeInt : Value → Except Panic (List ℕ)
  | .int v | .int64 v => .ok (Vlq.encode v)
  | _ => .error .typeAssertion

/-- `PT_string.Encode`: the bytes it appends. -/
def encodeString : Value → Except Panic (List ℕ)
  | .int64s v | .ints v => .ok (v.length :: v)
  | _ => .error .typeAssertion

/-- The `Encode` of an entry of `MessageTypes`. -/
def encode (t : BaseType) (value : Value) : Except Panic (List ℕ) :=
  if t.isString then encodeString value else encodeInt value

/-- `PT_uint32.Parse`. -/
def parseInt (signed : Bool) (s : List ℕ) (pos : ℕ) : Except Panic (Value × ℕ) := do
  let (v, pos) ← Vlq.decode s pos
  if signed then return (.int64 v, pos) else return (.int64 (v % 2 ^ 32), pos)

/-- `PT_string.Parse`: a length past the end of the input gives no bytes and the position zero. -/
def parseString (s : List ℕ) (pos : ℕ) : Except Panic (Value × ℕ) := do
  let l ← index s pos
  if s.length < pos + l + 1 then return (.ints [], 0)
  let v ← slice s (pos + 1) (pos + l + 1)
  return (.ints v, pos + l + 1)

/-- The `Parse` of an entry of `MessageTypes`. -/
def parse (t : BaseType) (s : List ℕ) (pos : ℕ) : Except Panic (Value × ℕ) :=
  if t.isString then parseString s pos else parseInt t.signed s pos

end BaseType

/-- `Enumeration`, with the entries in the order in which the run-time visits them. -/
structure Enumeration where
  pt : BaseType
  enumName : String
  enums : List (String × Value)

namespace Enumeration

variable (self : Enumeration)

/-- `Enums[name]`. -/
def lookup (name : String) : Option Value :=
  (self.enums.find? fun e => e.1 = name).map Prod.snd

/-- The key an entry has in the reverse table. -/
def reverseKey : Value → Option ℤ
  | .int v => some v
  | .float64 v => some (v.num.tdiv v.den)
  | _ => none

/-- `Reverse_enums[v]`: the last entry with the key stays. -/
def reverse (v : ℤ) : Option String :=
  (self.enums.reverse.find? fun e => reverseKey e.2 = some v).map Prod.fst

/-- `Enumeration.Encode`; an unknown name is an `Enumeration_error` with both names. -/
def encode : Value → Except Panic (List ℕ)
  | .string name =>
    match self.lookup name with
    | none => .error (.value [self.enumName, name])
    | some tv => self.pt.encode tv
  | _ => .error .typeAssertion

def parse (s : List ℕ) (pos : ℕ) : Except Panic (Value × ℕ) := do
  match ← self.pt.parse s pos with
  | (.int64 v, pos) => return (.string ((self.reverse v).getD ("?" ++ toString v)), pos)
  | _ => throw .typeAssertion

end Enumeration

inductive PT where
  | base (t : BaseType)
  | enumeration (e : Enumeration)

namespace PT

def encode : PT → Value → Except Panic (List ℕ)
  | base t => t.encode
  | enumeration e => e.encode

def parse : PT → List ℕ → ℕ → Except Panic (Value × ℕ)
  | base t => t.parse
  | enumeration e => e.parse

end PT

/-- `MessageFormat`; the type of a parameter whose specifier is unknown is nil. -/
structure MessageFormat where
  name : String
  msgformat : String
  msgidBytes : List ℕ
  paramNames : List (String × Option PT)

/-- The argument of the positional encoder. -/
inductive Positional where
  | values (v : List Value)
  | int64s (v : List ℤ)
  | other

namespace MessageFormat

/-- What the positional encoder appends for a value of a list: it passes on integers and lists of
integers, and skips the rest. -/
def encodeListed (t : PT) : Value → Except Panic (List ℕ)
  | .ints v => t.encode (.ints v)
  | .int v => t.encode (.int v)
  | .int64s v => t.encode (.int64s v)
  | .int64 v => t.encode (.int64 v)
  | _ => return []

/-- What the positional encoder appends for the `i`-th parameter. -/
def encodeAt (t : PT) (params : Positional) (i : ℕ) : Except Panic (List ℕ) :=
  match params with
  | .values vs => do
    let v ← index vs i
    encodeListed t v
  | .int64s vs => do
    let v ← index vs i
    t.encode (.int64 v)
  | .other => throw (.value ["error "])

def encodeFrom (params : Positional) : ℕ → List (Option PT) → Except Panic (List ℕ)
  | _, [] => return []
  | i, none :: ts => encodeFrom params (i + 1) ts
  | i, some t :: ts => do
    let bytes ← encodeAt t params i
    return bytes ++ (← encodeFrom params (i + 1) ts)

variable (self : MessageFormat)

def encode (params : Positional) : Except Panic (List ℕ) := do
  return self.msgidBytes ++ (← encodeFrom params 0 (self.paramNames.map Prod.snd))

/-- `encode_by_name`: the bytes it appends.  A missing value is nil, which no type assertion
accepts; a buffer has to be a list of plain integers here. -/
def encodeOneByName (t : Option PT) (value : Option Value) : Except Panic (List ℕ) :=
  match t with
  | none => return []
  | some (.base t) =>
    match value with
    | none => throw .typeAssertion
    | some value =>
      if t.isString then
        match value with
        | .ints v => BaseType.encodeString (.ints v)
        | _ => throw .typeAssertion
      else BaseType.encodeInt value
  | some (.enumeration e) =>
    match value with
    | none => throw .typeAssertion
    | some value => e.encode value

def encodeAllByName (params : String → Option Value) :
    List (String × Option PT) → Except Panic (List ℕ)
  | [] => return []
  | (name, t) :: ts => do
    let bytes ← encodeOneByName t (params name)
    return bytes ++ (← encodeAllByName params ts)

def encodeByName (params : String → Option Value) : Except Panic (List ℕ) := do
  return self.msgidBytes ++ (← encodeAllByName params self.paramNames)

/-- The loop of `MessageFormat.Parse`, with the map built so far. -/
def parseFrom (s : List ℕ) : List (String × Option PT) → ℕ → (String → Option Value) →
    Except Panic ((String → Option Value) × ℕ)
  | [], pos, out => return (out, pos)
  | (name, t) :: ts, pos, out =>
    match t with
    | none => throw .typeAssertion
    | some t => do
      let (v, pos) ← t.parse s pos
      parseFrom s ts pos (Function.update out name (some v))

def parse (s : List ℕ) (pos : ℕ) : Except Panic ((String → Option Value) × ℕ) :=
  parseFrom s self.paramNames (pos + self.msgidBytes.length) fun _ => none

end MessageFormat

/-! ### Values in range -/

/-- The integers a type holds, from the first bound up to and without the second. -/
def BaseType.bounds : BaseType → ℤ × ℤ
  | uint32 => (0, 2 ^ 32)
  | int32 => (-2 ^ 31, 2 ^ 31)
  | uint16 => (0, 2 ^ 16)
  | int16 => (-2 ^ 15, 2 ^ 15)
  | byte => (0, 2 ^ 8)
  | _ => (0, 0)

def BaseType.Holds (t : BaseType) (n : ℤ) : Prop := t.bounds.1 ≤ n ∧ n < t.bounds.2

instance (t : BaseType) (n : ℤ) : Decidable (t.Holds n) := inferInstanceAs (Decidable (_ ∧ _))

/-- The values of a parameter: integers in the range of its type, and buffers of up to 64 bytes. -/
def BaseType.Admits (t : BaseType) (value : Value) : Prop :=
  if t.isString then ∃ b, (value = .ints b ∨ value = .int64s b) ∧ b.length ≤ 64 ∧ ∀ x ∈ b, x < 256
  else ∃ n, (value = .int n ∨ value = .int64 n) ∧ t.Holds n

/-- The values of an enumerated parameter: names of numbers in range. -/
def Enumeration.Admits (e : Enumeration) (value : Value) : Prop :=
  ∃ name tv n, value = .string name ∧ e.lookup name = some tv ∧
    Enumeration.reverseKey tv = some n ∧ e.pt.Holds n

def PT.Admits : PT → Value → Prop
  | base t => t.Admits
  | enumeration e => e.Admits

def Value.parsed : Value → Value
  | .int v | .int64 v => .int64 v
  | .ints v | .int64s v => .ints v
  | v => v

/-! ### One parameter -/

/-- `bytes` is decoded to `v`, wherever it stands. -/
def PT.Decodes (t : PT) (bytes : List ℕ) (v : Value) : Prop :=
  ∀ pre rest, t.parse (pre ++ (bytes ++ rest)) pre.length = .ok (v, pre.length + bytes.length)

theorem parseString_append (pre b rest : List ℕ) :
    BaseType.parseString (pre ++ (b.length :: b ++ rest)) pre.length =
      .ok (.ints b, pre.length + (b.length + 1)) := by
  have hlen : (pre ++ (b.length :: b ++ rest)).length =
      pre.length + (b.length + 1) + rest.length := by
    simp
    omega
  have hindex : index (pre ++ (b.length :: b ++ rest)) pre.length = .ok b.length :=
    index_of_getElem? (by simp)
  have hslice : slice (pre ++ (b.length :: b ++ rest)) (pre.length + 1)
      (pre.length + b.length + 1) = .ok b := by
    rw [slice_of_le (by omega) (by omega)]
    rw [show pre ++ (b.length :: b ++ rest) = (pre ++ [b.length]) ++ b ++ rest by simp,
      show pre.length + b.length + 1 = ((pre ++ [b.length]) ++ b).length by simp; omega,
      take_left, show pre.length + 1 = (pre ++ [b.length]).length by simp, drop_left]
  unfold BaseType.parseString
  rw [hindex]
  show (if _ < _ then _ else _) = _
  rw [if_neg (by omega), hslice]
  rfl

theorem BaseType.Holds.bounds {t : BaseType} {n : ℤ} (h : t.Holds n) :
    -2 ^ 31 ≤ n ∧ n < 2 ^ 32 ∧ (t.signed = false → 0 ≤ n) := by
  obtain ⟨hlow, hhigh⟩ := h
  cases t <;> simp only [BaseType.bounds] at hlow hhigh <;>
    refine ⟨by omega, by omega, fun hs => ?_⟩ <;> first | omega | cases hs

variable {t : BaseType} {n : ℤ}

/-- An integer of 32 bits that is read with its sign, or has none, comes back. -/
theorem parseInt_encode {signed : Bool} (hlow : -2 ^ 31 ≤ n) (hhigh : n < 2 ^ 32)
    (hunsigned : signed = false → 0 ≤ n) (pre rest : List ℕ) :
    BaseType.parseInt signed (pre ++ (Vlq.encode n ++ rest)) pre.length =
      .ok (.int64 n, pre.length + (Vlq.encode n).length) := by
  unfold BaseType.parseInt
  rw [Vlq.decode_encode hlow hhigh]
  cases signed with
  | true => rfl
  | false =>
    have hmod : n % 2 ^ 32 = n := Int.emod_eq_of_lt (hunsigned rfl) hhigh
    show Except.ok (Value.int64 (n % 2 ^ 32), _) = _
    rw [hmod]

theorem parseInt_append (h : t.Holds n) (pre rest : List ℕ) :
    BaseType.parseInt t.signed (pre ++ (Vlq.encode n ++ rest)) pre.length =
      .ok (.int64 n, pre.length + (Vlq.encode n).length) := by
  obtain ⟨hlow, hhigh, hunsigned⟩ := h.bounds
  exact parseInt_encode hlow hhigh hunsigned pre rest

theorem BaseType.Holds.not_isString (h : t.Holds n) : ¬ t.isString = true := by
  intro hstring
  obtain ⟨hlow, hhigh⟩ := h
  cases t <;> simp only [BaseType.bounds] at hlow hhigh <;> first | omega | cases hstring

theorem length_encode_le_maxLength (h : t.Holds n) : (Vlq.encode n).length ≤ t.maxLength := by
  obtain ⟨hfive, hthree, htwo⟩ := Vlq.length_encode_le n
  obtain ⟨hlow, hhigh⟩ := h
  cases t <;> simp only [BaseType.bounds] at hlow hhigh <;> simp only [BaseType.maxLength]
  case uint32 | int32 => exact hfive
  case uint16 | int16 => exact hthree (by omega) (by omega)
  case byte => exact htwo (by omega) (by omega)
  all_goals omega

/-- An integer in the range of its type takes between one byte and the declared maximum, with
the continuation bit set in all of them but the last, and is parsed back, wherever it stands,
with the position behind it. -/
theorem intType_roundTrips (h : t.Holds n) {value : Value}
    (hvalue : value = .int n ∨ value = .int64 n) :
    ∃ bytes, t.encode value = .ok bytes ∧ 1 ≤ bytes.length ∧ bytes.length ≤ t.maxLength ∧
      (∃ more last, bytes = more ++ [last] ∧ (∀ b ∈ more, b &&& 0x80 = 0x80) ∧
        last &&& 0x80 ≠ 0x80) ∧
      ∀ pre rest, t.parse (pre ++ (bytes ++ rest)) pre.length =
        .ok (.int64 n, pre.length + bytes.length) := by
  refine ⟨Vlq.encode n, ?_, ?_, length_encode_le_maxLength h, Vlq.encode_marks n, ?_⟩
  · rw [BaseType.encode, if_neg h.not_isString]
    rcases hvalue with rfl | rfl <;> rfl
  · obtain ⟨more, last, hmarks, -⟩ := Vlq.encode_marks n
    simp [hmarks]
  · intro pre rest
    rw [BaseType.parse, if_neg h.not_isString]
    exact parseInt_append h pre rest

/-- The smallest integer of 16 bits. -/
theorem intType_roundTrips_int16 :
    BaseType.int16.Holds (-32768) ∧ ∃ bytes, BaseType.int16.encode (.int (-32768)) = .ok bytes ∧
      bytes.length ≤ 3 ∧ ∀ pre rest, BaseType.int16.parse (pre ++ (bytes ++ rest)) pre.length =
        .ok (.int64 (-32768), pre.length + bytes.length) := by
  have hholds : BaseType.int16.Holds (-32768) := by decide
  obtain ⟨bytes, hencode, -, hlength, -, hparse⟩ := intType_roundTrips hholds (.inl rfl)
  exact ⟨hholds, bytes, hencode, hlength, hparse⟩

/-- The codec of one parameter that is no enumeration. -/
theorem encode_base {value : Value} (h : t.Admits value) :
    ∃ bytes, t.encode value = .ok bytes ∧ (PT.base t).Decodes bytes value.parsed := by
  unfold BaseType.Admits at h
  unfold BaseType.encode PT.Decodes PT.parse BaseType.parse
  split at h
  · next hstring =>
    obtain ⟨b, hvalue, -, -⟩ := h
    simp only [if_pos hstring]
    refine ⟨b.length :: b, ?_, fun pre rest => ?_⟩
    · rcases hvalue with rfl | rfl <;> rfl
    · have hparsed : value.parsed = .ints b := by
        rcases hvalue with rfl | rfl <;> rfl
      rw [hparsed]
      exact parseString_append pre b rest
  · next hint =>
    obtain ⟨n, hvalue, hn⟩ := h
    simp only [if_neg hint]
    refine ⟨Vlq.encode n, ?_, fun pre rest => ?_⟩
    · rcases hvalue with rfl | rfl <;> rfl
    · have hparsed : value.parsed = .int64 n := by
        rcases hvalue with rfl | rfl <;> rfl
      rw [hparsed]
      exact parseInt_append hn pre rest

theorem encode_ne_nil (t : BaseType) (value : Value) : t.encode value ≠ .ok [] := by
  unfold BaseType.encode
  split
  · cases value <;> simp [BaseType.encodeString]
  · cases value <;> simp [BaseType.encodeInt, Vlq.encode]

namespace MessageFormat

variable {value : Value} {vs : List Value} {i : ℕ} {assign : String → Value}

theorem encodeAt_values (t : PT) (hindex : index vs i = .ok value) :
    encodeAt t (.values vs) i = encodeListed t value := by
  rw [encodeAt, hindex]
  rfl

/-- Both encoders treat an integer alike, and a buffer that is a list of plain integers. -/
theorem encode_one {t : BaseType} (h : t.Admits value) (hplain : ∀ b, value ≠ .int64s b)
    (hindex : index vs i = .ok value) :
    encodeAt (.base t) (.values vs) i = t.encode value ∧
      encodeOneByName (some (.base t)) (some value) = t.encode value := by
  rw [encodeAt_values _ hindex]
  unfold BaseType.Admits at h
  split at h
  · next hstring =>
    obtain ⟨b, rfl | rfl, -, -⟩ := h
    · exact ⟨rfl, by simp [encodeOneByName, BaseType.encode, hstring]⟩
    · exact absurd rfl (hplain b)
  · next hint =>
    obtain ⟨n, rfl | rfl, -⟩ := h <;>
      exact ⟨rfl, by simp [encodeOneByName, BaseType.encode, hint]⟩

/-- By name, a buffer may not be a list of 64-bit integers. -/
theorem encodeOneByName_int64s (t : BaseType) (b : List ℕ) :
    encodeOneByName (some (.base t)) (some (.int64s b)) = .error .typeAssertion := by
  cases t <;> rfl

/-- A name of an enumeration is skipped by the positional encoder, and never by the other. -/
theorem encode_enumeration {e : Enumeration} (h : e.Admits value) (hindex : index vs i = .ok value)
    :
    encodeAt (.enumeration e) (.values vs) i = .ok [] ∧
      encodeOneByName (some (.enumeration e)) (some value) ≠ .ok [] := by
  obtain ⟨name, tv, n, rfl, hlookup, -, -⟩ := h
  rw [encodeAt_values _ hindex]
  refine ⟨rfl, ?_⟩
  show (match e.lookup name with | none => _ | some tv => e.pt.encode tv) ≠ _
  rw [hlookup]
  exact encode_ne_nil e.pt tv

/-! ### All parameters -/

/-- A parameter that both encoders treat alike: it is no enumeration, and its value no list of
64-bit integers. -/
def Plain (assign : String → Value) (p : String × Option PT) : Prop :=
  (∀ e, p.2 ≠ some (.enumeration e)) ∧ ∀ b, assign p.1 ≠ .int64s b

/-- The parameter has a known type, which admits its value. -/
def Admitted (assign : String → Value) (p : String × Option PT) : Prop :=
  ∃ t, p.2 = some t ∧ t.Admits (assign p.1)

theorem index_append_cons {α : Type*} (xs : List α) (y : α) (ys : List α) :
    index (xs ++ y :: ys) xs.length = .ok y := index_of_getElem? (by simp)

variable {ps : List (String × Option PT)}

theorem parse_encode (hadmitted : ∀ p ∈ ps, Admitted assign p) (hplain : ∀ p ∈ ps, Plain assign p)
    (done : List Value) :
    ∃ bytes,
      encodeFrom (.values (done ++ ps.map fun p => assign p.1)) done.length (ps.map Prod.snd) =
        .ok bytes ∧
      encodeAllByName (fun name => some (assign name)) ps = .ok bytes ∧
      ∀ pre rest out, parseFrom (pre ++ (bytes ++ rest)) ps pre.length out =
        .ok (fun name => if name ∈ ps.map Prod.fst then some (assign name).parsed else out name,
          pre.length + bytes.length) := by
  induction ps generalizing done with
  | nil => exact ⟨[], rfl, rfl, fun pre rest out => rfl⟩
  | cons p ps ih =>
    obtain ⟨name, t⟩ := p
    obtain ⟨t, rfl, hadmits⟩ := hadmitted _ mem_cons_self
    obtain ⟨hnoenum, hnolong⟩ := hplain _ mem_cons_self
    cases t with
    | enumeration e => exact absurd rfl (hnoenum e)
    | base t =>
      obtain ⟨b, hb, hdecodes⟩ := encode_base hadmits
      obtain ⟨bs, hpos, hname, hparse⟩ := ih (fun q hq => hadmitted q (mem_cons_of_mem _ hq))
        (fun q hq => hplain q (mem_cons_of_mem _ hq)) (done ++ [assign name])
      obtain ⟨hone, hbyname⟩ := encode_one hadmits hnolong
        (index_append_cons done (assign name) (ps.map fun p => assign p.1))
      refine ⟨b ++ bs, ?_, ?_, fun pre rest out => ?_⟩
      · rw [append_assoc, length_append, length_singleton] at hpos
        simp only [map_cons, encodeFrom]
        rw [hone, hb]
        rw [show done ++ assign name :: (ps.map fun p => assign p.1) =
          done ++ ([assign name] ++ ps.map fun p => assign p.1) from rfl, hpos]
        rfl
      · simp only [encodeAllByName]
        rw [hbyname, hb, hname]
        rfl
      · have htail := hparse (pre ++ b) rest (Function.update out name (some (assign name).parsed))
        rw [append_assoc, length_append] at htail
        rw [append_assoc b, parseFrom, hdecodes pre (bs ++ rest)]
        show parseFrom _ ps (pre.length + b.length) _ = _
        rw [htail, length_append, Nat.add_assoc]
        congr 2
        funext other
        by_cases hother : other = name <;> by_cases hmem : other ∈ ps.map Prod.fst <;>
          simp [hother, hmem, Function.update]

/-- Where the two encoders append equally many bytes, they treat the parameter alike. -/
theorem plain_of_length_eq {name : String} {t : PT}
    (hadmits : t.Admits (assign name)) (hindex : index vs i = .ok (assign name))
    {listed named : List ℕ} (hlisted : encodeAt t (.values vs) i = .ok listed)
    (hnamed : encodeOneByName (some t) (some (assign name)) = .ok named) :
    listed.length ≤ named.length ∧
      (listed.length = named.length → Plain assign (name, some t)) := by
  cases t with
  | enumeration e =>
    obtain ⟨hskip, hne⟩ := encode_enumeration hadmits hindex
    rw [hskip] at hlisted
    rw [hnamed] at hne
    cases hlisted
    refine ⟨Nat.zero_le _, fun hlen => absurd ?_ hne⟩
    rw [eq_nil_of_length_eq_zero hlen.symm]
  | base t =>
    have hplain : ∀ b, assign name ≠ .int64s b := by
      intro b hb
      rw [hb, encodeOneByName_int64s] at hnamed
      cases hnamed
    obtain ⟨hone, hbyname⟩ := encode_one hadmits hplain hindex
    rw [hone] at hlisted
    rw [hbyname, hlisted] at hnamed
    cases hnamed
    exact ⟨le_rfl, fun _ => ⟨nofun, hplain⟩⟩

theorem plain_of_encode_eq (hadmitted : ∀ p ∈ ps, Admitted assign p) (done : List Value)
    {listed named : List ℕ}
    (hlisted : encodeFrom (.values (done ++ ps.map fun p => assign p.1)) done.length
      (ps.map Prod.snd) = .ok listed)
    (hnamed : encodeAllByName (fun name => some (assign name)) ps = .ok named) :
    listed.length ≤ named.length ∧
      (listed.length = named.length → ∀ p ∈ ps, Plain assign p) := by
  induction ps generalizing done listed named with
  | nil =>
    cases hlisted
    cases hnamed
    exact ⟨le_rfl, nofun⟩
  | cons p ps ih =>
    obtain ⟨name, t⟩ := p
    obtain ⟨t, rfl, hadmits⟩ := hadmitted _ mem_cons_self
    obtain ⟨b₁, hb₁, hlisted⟩ := bind_eq_ok hlisted
    obtain ⟨bs₁, hbs₁, hlisted⟩ := bind_eq_ok hlisted
    obtain ⟨b₂, hb₂, hnamed⟩ := bind_eq_ok hnamed
    obtain ⟨bs₂, hbs₂, hnamed⟩ := bind_eq_ok hnamed
    cases hlisted
    cases hnamed
    obtain ⟨hle, heq⟩ := plain_of_length_eq hadmits (index_append_cons done _ _) hb₁ hb₂
    have hrest : done ++ ((name, some t) :: ps).map (fun p => assign p.1) =
        (done ++ [assign name]) ++ ps.map fun p => assign p.1 := by simp
    rw [hrest, ← length_singleton (a := assign name), ← length_append] at hbs₁
    obtain ⟨hles, heqs⟩ := ih (fun q hq => hadmitted q (mem_cons_of_mem _ hq)) _ hbs₁ hbs₂
    rw [length_append, length_append]
    refine ⟨Nat.add_le_add hle hles, fun hlen q hq => ?_⟩
    rcases mem_cons.mp hq with rfl | hq
    · exact heq (by omega)
    · exact heqs (by omega) q hq

/-! ### Round trips -/

variable (self : MessageFormat) (assign : String → Value)

/-- The parameters as the decoder returns them. -/
def assigned : String → Option Value :=
  fun name => if name ∈ self.paramNames.map Prod.fst then some (assign name).parsed else none

/-- The encoders agree on the assignment, and the decoder returns it from behind a two-byte header
and stops at the end of the encoding. -/
def RoundTrips : Prop :=
  ∃ bytes, self.encode (.values (self.paramNames.map fun p => assign p.1)) = .ok bytes ∧
    self.encodeByName (fun name => some (assign name)) = .ok bytes ∧
    ∀ h₀ h₁ rest, self.parse (h₀ :: h₁ :: bytes ++ rest) 2 =
      .ok (self.assigned assign, 2 + bytes.length)

/-- For values in range, the codec works exactly for formats without enumerations and for buffers
that are lists of plain integers. -/
theorem roundTrips_iff (hrange : ∀ p ∈ self.paramNames, Admitted assign p) :
    self.RoundTrips assign ↔ ∀ p ∈ self.paramNames, Plain assign p := by
  constructor
  · rintro ⟨bytes, hlisted, hnamed, -⟩
    obtain ⟨listed, hl, hlisted⟩ := bind_eq_ok hlisted
    obtain ⟨named, hn, hnamed⟩ := bind_eq_ok hnamed
    have heq : self.msgidBytes ++ listed = self.msgidBytes ++ named := by
      rw [Except.ok.inj hlisted, Except.ok.inj hnamed]
    obtain rfl := append_cancel_left heq
    exact (plain_of_encode_eq hrange [] hl hn).2 rfl
  · intro hplain
    obtain ⟨bytes, hl, hn, hparse⟩ := parse_encode hrange hplain []
    refine ⟨self.msgidBytes ++ bytes, ?_, ?_, fun h₀ h₁ rest => ?_⟩
    · change encodeFrom (.values (self.paramNames.map fun p => assign p.1)) 0 _ = _ at hl
      rw [encode, hl]
      rfl
    · rw [encodeByName, hn]
      rfl
    · have h := hparse (h₀ :: h₁ :: self.msgidBytes) rest fun _ => none
      have hlen : (h₀ :: h₁ :: self.msgidBytes).length = 2 + self.msgidBytes.length := by
        rw [length_cons, length_cons]
        omega
      rw [hlen] at h
      rw [length_append, ← Nat.add_assoc, ← cons_append, ← cons_append, append_assoc]
      exact h

/-- The command that asks for the dictionary. -/
def identify : MessageFormat where
  name := "identify"
  msgformat := "identify offset=%u count=%c"
  msgidBytes := [1]
  paramNames := [("offset", some (.base .uint32)), ("count", some (.base .byte))]

theorem roundTrips_identify : identify.RoundTrips fun _ => .int 40 := by
  refine (roundTrips_iff _ _ ?_).mpr ?_
  · intro p hp
    obtain rfl | rfl := mem_pair.mp hp <;> exact ⟨_, rfl, 40, .inl rfl, by decide, by decide⟩
  · intro p hp
    obtain rfl | rfl := mem_pair.mp hp <;> exact ⟨nofun, nofun⟩

def setPin : MessageFormat where
  name := "set_pin"
  msgformat := "set_pin pin=%u"
  msgidBytes := [7]
  paramNames := [("pin", some (.enumeration ⟨.uint32, "pin", [("PA1", .int 1)]⟩))]

/-- The positional encoder leaves the enumerated parameter out. -/
theorem roundTrips_set_pin : (∀ p ∈ setPin.paramNames, Admitted (fun _ => .string "PA1") p) ∧
      setPin.encode (.values [.string "PA1"]) = .ok [7] ∧
      setPin.encodeByName (fun _ => some (.string "PA1")) = .ok [7, 1] ∧
      ¬ setPin.RoundTrips fun _ => .string "PA1" := by
  have hlisted : setPin.encode (.values [.string "PA1"]) = .ok [7] := by decide
  have hnamed : setPin.encodeByName (fun _ => some (.string "PA1")) = .ok [7, 1] := by decide
  refine ⟨?_, hlisted, hnamed, ?_⟩
  · intro p hp
    rw [mem_singleton.mp hp]
    exact ⟨_, rfl, "PA1", .int 1, 1, rfl, by decide, rfl, by decide, by decide⟩
  · rintro ⟨bytes, hl, hn, -⟩
    have heq := (hlisted.symm.trans hl).trans (hn.symm.trans hnamed)
    cases heq

end MessageFormat

end Msgproto
