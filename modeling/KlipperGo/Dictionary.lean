/-
The firmware dictionary
(`internal/pkg/msgproto/msgproto.go`).

A micro-controller describes its messages in a JSON dictionary: enumerations,
commands, responses and formats for debugging output.  The decoded dictionary is
a list of entries in the order in which the run-time visits them; texts are
lists of characters where the code looks into them.
-/
import KlipperGo.MsgParser

open GoRuntime Outcome List

namespace Msgproto

inductive Json where
  | null
  | bool (b : Bool)
  | number (v : ℚ)
  | string (s : String)
  | array (elems : List Json)
  | object (entries : List (String × Json))

namespace Json

def asObject : Option Json → Except Panic (List (String × Json))
  | some (.object entries) => .ok entries
  | _ => .error .typeAssertion

def asNumber : Json → Except Panic ℚ
  | .number v => .ok v
  | _ => .error .typeAssertion

def asString : Option Json → Except Panic String
  | some (.string s) => .ok s
  | _ => .error .typeAssertion

def asArray : Json → Except Panic (List Json)
  | .array elems => .ok elems
  | _ => .error .typeAssertion

end Json

/-- The integer part, `int(v)`. -/
def truncate (v : ℚ) : ℤ := v.num.tdiv v.den

/-- `m[key] = value` on a map listed in the order of its first assignments. -/
def assign {α : Type*} (m : List (String × α)) (key : String) (value : α) : List (String × α) :=
  if m.any (fun e => e.1 = key) then m.map fun e => if e.1 = key then (key, value) else e
  else m ++ [(key, value)]

/-! ### Formats -/

def messageTypes : String → Option BaseType
  | "%u" => some .uint32
  | "%i" => some .int32
  | "%hu" => some .uint16
  | "%hi" => some .int16
  | "%c" => some .byte
  | "%s" => some .string
  | "%.*s" => some .progmemBuffer
  | "%*s" => some .buffer
  | _ => none

def newEnumeration (pt : Option BaseType) (enumName : String) (enums : List (String × Value)) :
    Except Panic PT :=
  match pt with
  | some pt => .ok (.enumeration ⟨pt, enumName, enums⟩)
  | none => .error .typeAssertion

/-- The type of a parameter in `Lookup_params`: an enumeration whose name the parameter has, or
whose name it ends in, takes the place of the specifier's type. -/
def paramType (name : String) (pt : Option BaseType)
    (enumerations : List (String × List (String × Value))) : Except Panic (Option PT) :=
  match enumerations.find? fun e =>
    e.1 = name || ("_" ++ e.1).toList.isSuffixOf name.toList with
  | some (enumName, enums) => some <$> newEnumeration pt enumName enums
  | none => .ok (pt.map .base)

/-- `Lookup_params` over the arguments of a format. -/
def lookupParams (enumerations : List (String × List (String × Value))) :
    List (List Char) → Except Panic (List (String × Option PT))
  | [] => return []
  | arg :: args => do
    let parts := arg.splitOn '='
    let name ← index parts 0
    let specifier ← index parts 1
    let t ← paramType (String.ofList name) (messageTypes (String.ofList specifier)) enumerations
    return (String.ofList name, t) :: (← lookupParams enumerations args)

variable (logger : Bool) (msgidBytes : List ℕ) (msgformat : String)

def newMessageFormat
    (enumerations : List (String × List (String × Value))) : Except Panic MessageFormat := do
  let words := msgformat.toList.splitOn ' '
  let params ← lookupParams enumerations ((words.drop 1).filter (· ≠ []))
  return { name := String.ofList (words.headD []), msgformat, msgidBytes, paramNames := params }

/-- The inner loop of `Lookup_output_params`: a specifier among the texts of one to four
characters from a percent sign on. -/
def findSpecifier (args : List Char) : List ℕ → Except Panic (Option BaseType)
  | [] => return none
  | i :: is => do
    let text ← slice args 0 (1 + i)
    match messageTypes (String.ofList text) with
    | some t => return some t
    | none => findSpecifier args is

/-- The loop of `Lookup_output_params` from a place in the format on.  Once a specifier was found
the flag stays, and the call that refuses the format is made at every percent sign. -/
def scanOutput (logger : Bool) (msgformat : String) :
    List Char → Bool → List BaseType → Except Panic (List BaseType)
  | [], _, types => return types
  | c :: rest, found, types =>
    if c ≠ '%' then scanOutput logger msgformat rest found types
    else if rest.head? = some '%' then scanOutput logger msgformat rest found types
    else do
      let t ← findSpecifier (c :: rest) [0, 1, 2, 3]
      let found := found || t.isSome
      if found then panicf logger ("Invalid output format for '" ++ msgformat ++ "'")
      scanOutput logger msgformat rest found (types ++ t.toList)

def lookupOutputParams : Except Panic (List BaseType) :=
  scanOutput logger msgformat msgformat.toList false []

def newOutputFormat : Except Panic OutputFormat := do
  return { msgidBytes, msgformat, paramTypes := ← lookupOutputParams logger msgformat }

/-! ### The dictionary -/

namespace MessageParser

/-- The number that `strconv.Atoi` reads from digits: with too many of them, the largest one. -/
def atoi (digits : List Char) : ℕ :=
  min (digits.foldl (fun n c => 10 * n + (c.toNat - '0'.toNat)) 0) (2 ^ 63 - 1)

/-- The entries of an enumeration range: the name without its trailing digits, followed by
consecutive numbers from these digits on. -/
def enumRange (enum : String) (startValue : ℤ) (count : ℕ) : List (String × Value) :=
  let digits := (enum.toList.reverse.takeWhile Char.isDigit).reverse
  let root := enum.toList.take (enum.length - digits.length)
  (List.range count).map fun i =>
    (String.ofList root ++ toString (Int.bmod (atoi digits + i) (2 ^ 64)), .int (startValue + i))

/-- One entry of an enumeration in `Fill_enumerations`. -/
def fillEntry (enums : List (String × Value)) (enum : String) :
    Json → Except Panic (List (String × Value))
  | .number v => .ok (assign enums enum (.float64 v))
  | val => do
    let range ← val.asArray
    let startValue ← (← index range 0).asNumber
    let count ← (← index range 1).asNumber
    return (enumRange enum (truncate startValue) (truncate count).toNat).foldl
      (fun enums e => assign enums e.1 e.2) enums

variable {msgformat : String} (self : MessageParser) {t : BaseType} (logger : Bool)

def fillEnumerations (enumerations : List (String × Json)) : Except Panic MessageParser :=
  enumerations.foldlM (fun self (addName, addEnums) => do
    let entries ← Json.asObject (some addEnums)
    let enums ← entries.foldlM (fun enums (enum, val) => fillEntry enums enum val) []
    return { self with enumerations := assign self.enumerations addName enums }) self

/-- One message of `MessageParser.Init_messages`. -/
def initMessage (outputTags : List ℤ) (self : MessageParser) (msgformat : String) (msgid : ℤ) :
    Except Panic MessageParser :=
  let msgidBytes := Vlq.encode msgid
  if msgid ∈ outputTags then do
    let f ← newOutputFormat logger msgidBytes msgformat
    return { self with messagesById := Function.update self.messagesById msgid (some (.output f)) }
  else do
    let f ← newMessageFormat msgidBytes msgformat self.enumerations
    return { self with
      messagesById := Function.update self.messagesById msgid (some (.message f))
      messagesByName := Function.update self.messagesByName f.name (some f) }

def initMessages (messages : List (String × ℤ)) (outputTags : List ℤ) :
    Except Panic MessageParser :=
  messages.foldlM (fun self (msgformat, msgid) =>
    initMessage logger outputTags self msgformat msgid) self

def messageIds (entries : List (String × Json)) : Except Panic (List (String × ℤ)) :=
  entries.mapM fun (msgformat, id) => do return (msgformat, truncate (← id.asNumber))

/-- The output section of `Process_identify`.  A section that is there was decoded to values of any
type, and is not the map from texts to integers it is asserted to be. -/
def outputSection : Option Json → Except Panic (List (String × ℤ))
  | none => .ok []
  | some _ => .error .typeAssertion

variable (data : List (String × Json))

/-- `MessageParser.Process_identify` from the decoded dictionary on. -/
def processIdentify : Except Panic MessageParser := do
  let enumerations ← Json.asObject (some ((data.lookup "enumerations").getD (.object [])))
  let self ← self.fillEnumerations enumerations
  let commands ← Json.asObject (data.lookup "commands")
  let responses ← Json.asObject (data.lookup "responses")
  let output ← outputSection (data.lookup "output")
  let commands ← messageIds commands
  let responses ← messageIds responses
  let allMessages := (commands ++ responses ++ output).foldl (fun m e => assign m e.1 e.2) []
  let self ← self.initMessages logger allMessages (output.map Prod.snd)
  let _ ← Json.asObject (some ((data.lookup "config").getD (.object [])))
  let version ← Json.asString (data.lookup "version")
  let buildVersions ← Json.asString (data.lookup "build_versions")
  return { self with version, buildVersions }

/-! ### What debugging output is for -/

def specifiers : List String := ["%u", "%i", "%hu", "%hi", "%c", "%s", "%.*s", "%*s"]

/-- The type of the specifier a text begins with. -/
def specifierAt (text : List Char) : Option BaseType :=
  (specifiers.find? fun s => s.toList.isPrefixOf text).bind messageTypes

/-- The arguments of an output format, in which a doubled percent sign stands for itself; there are
none when a specifier is unknown. -/
def outputArgs : List Char → Option (List BaseType)
  | [] => some []
  | '%' :: '%' :: rest => outputArgs rest
  | c :: rest =>
    if c ≠ '%' then outputArgs rest
    else (specifierAt (c :: rest)).bind fun t => (outputArgs rest).map (t :: ·)

def outputs : List (String × ℤ) :=
  match data.lookup "output" with
  | some (.object entries) => entries.filterMap fun e =>
    match e.2 with
    | .number v => some (e.1, truncate v)
    | _ => none
  | _ => []

/-- `bytes` are encodings of arguments of the given types, which decode to `args`. -/
def ArgsEncoded : List BaseType → List ℕ → List Value → Prop
  | [], bytes, args => bytes = [] ∧ args = []
  | t :: ts, bytes, args => ∃ used rest v vs, bytes = used ++ rest ∧ args = v :: vs ∧
      (PT.base t).Decodes used v ∧ ArgsEncoded ts rest vs

/-- Debugging output works with a dictionary: it is accepted if its output formats have known
specifiers only and refused if one has not, and when it is accepted a message with the id of an
output format is parsed to the list of its arguments. -/
structure OutputWorks (start : MessageParser) (logger : Bool) (data : List (String × Json)) :
    Prop where
  accepted : (∀ f ∈ outputs data, outputArgs f.1.toList ≠ none) →
    ∃ parser, start.processIdentify logger data = .ok parser
  refused : (∃ f ∈ outputs data, outputArgs f.1.toList = none) →
    ∃ panic, start.processIdentify logger data = .error panic
  parsed : ∀ parser, start.processIdentify logger data = .ok parser →
    ∀ f ∈ outputs data, ∀ types bytes args, outputArgs f.1.toList = some types →
      ArgsEncoded types bytes args → ∀ h₀ h₁ t₀ t₁ t₂,
        parser.parse logger ([h₀, h₁] ++ Vlq.encode f.2 ++ bytes ++ [t₀, t₁, t₂]) =
          .ok ⟨"#output", .output args⟩

/-! ### What it does -/

/-- No dictionary with an output section is accepted. -/
theorem processIdentify_output {self : MessageParser} {logger : Bool}
    {data : List (String × Json)} {section' : Json} (h : data.lookup "output" = some section') :
    ∃ panic, self.processIdentify logger data = .error panic := by
  cases hresult : self.processIdentify logger data with
  | error panic => exact ⟨panic, rfl⟩
  | ok parser =>
    obtain ⟨_, _, hresult⟩ := bind_eq_ok hresult
    obtain ⟨_, _, hresult⟩ := bind_eq_ok hresult
    obtain ⟨_, _, hresult⟩ := bind_eq_ok hresult
    obtain ⟨_, _, hresult⟩ := bind_eq_ok hresult
    obtain ⟨_, houtput, _⟩ := bind_eq_ok hresult
    rw [h] at houtput
    cases houtput

/-- For which dictionaries debugging output works, when their other sections are in order: those
without an output section, and those that are to be refused. -/
theorem output_works_iff
    (hrest : ∃ parser,
      self.processIdentify logger (data.filter fun e => e.1 ≠ "output") = .ok parser) :
    OutputWorks self logger data ↔
      data.lookup "output" = none ∨ ∃ f ∈ outputs data, outputArgs f.1.toList = none := by
  cases hsection : data.lookup "output" with
  | none =>
    have hdata : data.filter (fun e => e.1 ≠ "output") = data := by
      refine filter_eq_self.mpr fun e he => ?_
      have hne := lookup_eq_none_iff.mp hsection e he
      exact decide_eq_true fun heq => by simp [heq] at hne
    have hnone : outputs data = [] := by rw [outputs, hsection]
    rw [hdata] at hrest
    refine iff_of_true ⟨fun _ => hrest, ?_, ?_⟩ (.inl rfl)
    · rw [hnone]
      rintro ⟨f, hf, -⟩
      cases hf
    · rw [hnone]
      intro parser _ f hf
      cases hf
  | some section' =>
    obtain ⟨panic, hpanic⟩ := processIdentify_output hsection
    constructor
    · intro hworks
      by_contra hno
      push Not at hno
      obtain ⟨parser, hparser⟩ := hworks.accepted hno.2
      rw [hpanic] at hparser
      cases hparser
    · rintro (hnone | hbad)
      · cases hnone
      · obtain ⟨f, hf, hargs⟩ := hbad
        refine ⟨fun hall => absurd hargs (hall f hf), fun _ => ⟨panic, hpanic⟩, ?_⟩
        intro parser hparser
        rw [hpanic] at hparser
        cases hparser

def emptyParser : MessageParser where
  enumerations := []
  messagesById := fun _ => none
  messagesByName := fun _ => none
  version := ""
  buildVersions := ""

def smallDictionary : List (String × Json) :=
  [("commands", .object []), ("responses", .object []), ("version", .string "v1"),
    ("build_versions", .string "gcc")]

theorem output_works_without : OutputWorks emptyParser true smallDictionary :=
  (output_works_iff emptyParser true smallDictionary ⟨_, rfl⟩).mpr (.inl rfl)

/-- A dictionary with one good output format is refused. -/
theorem output_section_refused :
    outputs (("output", .object [("adc %u", .number 30)]) :: smallDictionary) =
        [("adc %u", 30)] ∧
      outputArgs "adc %u".toList = some [.uint32] ∧
      emptyParser.processIdentify true
        (("output", .object [("adc %u", .number 30)]) :: smallDictionary) =
          .error .typeAssertion :=
  ⟨by decide +kernel, by decide +kernel, rfl⟩

end MessageParser

end Msgproto
