/-
The JSON of recorded transactions.

* `writeJsonValue`: the encoder of field values, `reads_writeJsonValue`: what it writes is read as
  `FieldValue.json`.
* `Shape`, `read_json`: a value of known type is what its JSON reads back as.
* `JsonLinesTransactionSink`: one line for each record; `writes_spec`: the lines of any records.
* `json_reads_back`: what test results and records are written as reads back.
-/

import Cpptb.Testing.Reporting

namespace Cpptb.Tracing

open Json

/-! ### Values -/

section Values

/-- An integer as the encoders print it: converted to `long long` or to `unsigned long long`, or a
`bool`. -/
inductive Scalar where
  | boolean (value : Bool)
  | signed (value : Int64)
  | unsigned (value : UInt64)
  deriving DecidableEq, Repr

/-- How the values of an enumeration are formatted: with a `DiagnosticFormatter`, and with a
`cpptb_diagnostic_name`, if there are any. -/
structure EnumType where
  formatter : Option (Scalar → Text)
  diagnosticName : Option (Scalar → Text)

/-- A value of a transaction, by the branch of `write_json_value` that encodes its type. -/
inductive FieldValue where
  | described (fields : List (Text × FieldValue))
  | boolean (value : Bool)
  | enumeration (type : EnumType) (value : Scalar)
  | signed (value : Int64)
  | unsigned (value : UInt64)
  | string (bytes : Text)
  | range (elements : List FieldValue)
  /-- Any other type, with what `format_diagnostic` makes of the value. -/
  | formatted (text : Option Text)

/-- `TransactionDisposition`. -/
inductive TransactionDisposition
  | completed
  | aborted
  | incomplete
  deriving DecidableEq, Repr

/-- `transaction_disposition_name`. -/
def transactionDispositionName : TransactionDisposition → String
  | .completed => "completed"
  | .aborted => "aborted"
  | .incomplete => "incomplete"

/-- `TransactionRecordView`. The value has the fields of the descriptor of its type. -/
structure TransactionRecordView where
  stream : Text
  type : Text
  sequence : UInt64
  beginTime : UInt64
  endTime : UInt64
  disposition : TransactionDisposition
  value : List (Text × FieldValue)

/-- The exceptions. -/
inductive Error where
  | invalidArgument (message : String)
  | logicError (message : String)
  | runtimeError (message : Text)
  deriving DecidableEq, Repr

end Values

/-! ### The encoder -/

section Encoder

/-- A digit of `kHex`. -/
def hexDigit (value : UInt8) : Text := ((ascii "0123456789abcdef")[value.toNat]?).toList

/-- A character of `write_json_string`. -/
def escapedCharacter (character : UInt8) : Text :=
  if character = 0x22 then ascii "\\\""
  else if character = 0x5c then ascii "\\\\"
  else if character = 0x08 then ascii "\\b"
  else if character = 0x0c then ascii "\\f"
  else if character = 0x0a then ascii "\\n"
  else if character = 0x0d then ascii "\\r"
  else if character = 0x09 then ascii "\\t"
  else if character < 0x20 then
    ascii "\\u00" ++ hexDigit (character >>> 4) ++ hexDigit (character &&& 0x0f)
  else [character]

/-- `write_json_string`. -/
def writeJsonString (value : Text) : Text :=
  ascii "\"" ++ value.flatMap escapedCharacter ++ ascii "\""

/-- A `bool` or an integer in decimal. -/
def formatScalar : Scalar → Text
  | .boolean value => ascii (if value then "true" else "false")
  | .signed value => integer value.toInt
  | .unsigned value => decimal value.toNat

/-- `format_diagnostic` of an enumeration value. -/
def formatDiagnostic (type : EnumType) (value : Scalar) : Option Text :=
  match type.formatter with
  | some format => some (format value)
  | none =>
    match type.diagnosticName with
    | some name => if name value ≠ [] then some (name value) else some (formatScalar value)
    | none => some (formatScalar value)

/-- The underlying value of an enumeration value without a text. -/
def underlying : Scalar → Text
  | .boolean value => decimal value.toNat
  | .signed value => integer value.toInt
  | .unsigned value => decimal value.toNat

mutual

/-- `write_json_value`. -/
def writeJsonValue : FieldValue → Except Error Text
  | .described fields => do
    let body ← writeJsonFields true fields
    pure (ascii "\x7b" ++ body ++ ascii "\x7d")
  | .boolean value => pure (ascii (if value then "true" else "false"))
  | .enumeration type value =>
    match formatDiagnostic type value with
    | some formatted => pure (writeJsonString formatted)
    | none => pure (underlying value)
  | .signed value => pure (integer value.toInt)
  | .unsigned value => pure (decimal value.toNat)
  | .string bytes => pure (writeJsonString bytes)
  | .range elements => do
    let body ← writeElements true elements
    pure (ascii "[" ++ body ++ ascii "]")
  | .formatted text =>
    match text with
    | none => throw (.invalidArgument "cpptb-vc: transaction field has no JSON encoder")
    | some formatted => pure (writeJsonString formatted)

/-- The loop over the elements of a range. -/
def writeElements : Bool → List FieldValue → Except Error Text
  | _, [] => pure []
  | first, value :: rest => do
    let text ← writeJsonValue value
    let later ← writeElements false rest
    pure ((if !first then ascii "," else []) ++ text ++ later)

/-- `write_json_field`, for each field of a descriptor. -/
def writeJsonFields : Bool → List (Text × FieldValue) → Except Error Text
  | _, [] => pure []
  | first, (name, value) :: rest => do
    let text ← writeJsonValue value
    let later ← writeJsonFields false rest
    pure ((if !first then ascii "," else []) ++ writeJsonString name ++ ascii ":" ++ text ++ later)

end

/-- `write_transaction_json`. -/
def writeTransactionJson (record : TransactionRecordView) : Except Error Text :=
  writeJsonValue (.described record.value)

end Encoder

/-! ### The sink -/

section Sinks

/-- `JsonLinesTransactionSink`, with what it has written to its file. -/
structure JsonLinesTransactionSink where
  path : Text
  output : Text := []
  finalized : Bool := false
  deriving DecidableEq, Repr

/-- The line that `write` puts together. -/
def TransactionRecordView.line (record : TransactionRecordView) : Except Error Text := do
  let value ← writeTransactionJson record
  pure (ascii "\x7b" ++ writeJsonString (ascii "stream") ++ ascii ":" ++
    writeJsonString record.stream ++ ascii ",\"sequence\":" ++ decimal record.sequence.toNat ++
    ascii ",\"type\":" ++ writeJsonString record.type ++
    ascii ",\"begin_time_fs\":" ++ decimal record.beginTime.toNat ++
    ascii ",\"end_time_fs\":" ++ decimal record.endTime.toNat ++
    ascii ",\"disposition\":" ++
    writeJsonString (ascii (transactionDispositionName record.disposition)) ++
    ascii ",\"value\":" ++ value ++ ascii "\x7d\n")

namespace JsonLinesTransactionSink

/-- `fail`. -/
def failure (sink : JsonLinesTransactionSink) (operation : String) : Error :=
  .runtimeError (ascii "cpptb-vc: transaction trace " ++ ascii operation ++ ascii " failed for '" ++
    sink.path ++ ascii "'")

/-- `write`. `accepts` says whether the file takes the line. -/
def write (sink : JsonLinesTransactionSink) (accepts : Bool) (record : TransactionRecordView) :
    JsonLinesTransactionSink × Option Error :=
  if sink.finalized then
    (sink, some (.logicError "cpptb-vc: transaction trace is already finalized"))
  else
    match record.line with
    | .error error => (sink, some error)
    | .ok line =>
      if accepts then ({ sink with output := sink.output ++ line }, none)
      else (sink, some (sink.failure "write"))

/-- `finalize`. `flushes` and `closes` say whether the file can be flushed and closed. -/
def finalize (sink : JsonLinesTransactionSink) (flushes closes : Bool) :
    JsonLinesTransactionSink × Option Error :=
  if sink.finalized then (sink, none)
  else if !flushes then (sink, some (sink.failure "flush"))
  else if !closes then (sink, some (sink.failure "close"))
  else ({ sink with finalized := true }, none)

end JsonLinesTransactionSink

end Sinks

/-! ### What the encoder writes -/

section Reading

/-- The two escapers agree. -/
theorem writeJsonString_eq (value : Text) : writeJsonString value = Reporting.writeJsonString value := by
  have all : ∀ n < 256, escapedCharacter (UInt8.ofNat n) = Reporting.escaped (UInt8.ofNat n) := by
    decide +kernel
  have same : escapedCharacter = Reporting.escaped := funext fun character =>
    @forall_byte (fun character => escapedCharacter character = Reporting.escaped character) all
      character
  rw [writeJsonString, same]
  rfl

theorem reads_writeJsonString (value : Text) : Reads (.string value) (writeJsonString value) := by
  rw [writeJsonString_eq]
  exact Reporting.reads_writeJsonString value

/-- The text of an enumeration value. -/
theorem formatDiagnostic_isSome (type : EnumType) (value : Scalar) :
    ∃ text, formatDiagnostic type value = some text := by
  unfold formatDiagnostic
  cases type.formatter with
  | some format => exact ⟨_, rfl⟩
  | none =>
    cases type.diagnosticName with
    | none => exact ⟨_, rfl⟩
    | some name =>
      simp only
      split <;> exact ⟨_, rfl⟩

mutual

/-- The JSON of a value: an enumeration value is its text. -/
def FieldValue.json : FieldValue → Value
  | .described fields => .object (jsonFields fields)
  | .boolean value => .boolean value
  | .enumeration type value => .string ((formatDiagnostic type value).getD [])
  | .signed value => .number value.toInt
  | .unsigned value => .number value.toNat
  | .string bytes => .string bytes
  | .range elements => .array (jsonElements elements)
  | .formatted text => .string (text.getD [])

def jsonElements : List FieldValue → List Value
  | [] => []
  | value :: rest => value.json :: jsonElements rest

def jsonFields : List (Text × FieldValue) → List (Text × Value)
  | [] => []
  | (name, value) :: rest => (name, value.json) :: jsonFields rest

end

/-- Texts with a comma before each but the first. -/
def joined : Bool → List Text → Text
  | _, [] => []
  | first, text :: rest => (if !first then ascii "," else []) ++ text ++ joined false rest

theorem joined_true (texts : List Text) : joined true texts = (ascii ",").intercalate texts := by
  have rest : ∀ texts, joined false texts = texts.flatMap (ascii "," ++ ·) := by
    intro texts
    induction texts with
    | nil => rfl
    | cons text texts ih =>
      rw [joined, ih, List.flatMap_cons]
      rfl
  cases texts with
  | nil => rfl
  | cons text texts =>
    rw [joined, rest, intercalate_flatMap]
    rfl

theorem bind_ok {α β : Type} {first : Except Error α} {next : α → Except Error β} {b : β}
    (ok : first.bind next = .ok b) : ∃ a, first = .ok a ∧ next a = .ok b := by
  cases first with
  | error error => cases ok
  | ok a => exact ⟨a, rfl, ok⟩

mutual

/-- **What is written of a value is read as its JSON.** -/
theorem reads_writeJsonValue : (value : FieldValue) → {text : Text} →
    writeJsonValue value = .ok text → Reads value.json text
  | .described fields, text, ok => by
    rw [writeJsonValue] at ok
    obtain ⟨body, inner, ok⟩ := bind_ok ok
    obtain rfl := Except.ok.inj ok
    obtain ⟨texts, each, rfl⟩ := reads_writeJsonFields true fields inner
    rw [joined_true]
    exact reads_objectText "" each (by decide +kernel)
  | .boolean value, text, ok => by
    rw [writeJsonValue] at ok
    obtain rfl := Except.ok.inj ok
    exact reads_boolean value
  | .enumeration type value, text, ok => by
    obtain ⟨formatted, found⟩ := formatDiagnostic_isSome type value
    rw [writeJsonValue, found] at ok
    obtain rfl := Except.ok.inj ok
    rw [FieldValue.json, found]
    exact reads_writeJsonString formatted
  | .signed value, text, ok => by
    rw [writeJsonValue] at ok
    obtain rfl := Except.ok.inj ok
    exact reads_number _
  | .unsigned value, text, ok => by
    rw [writeJsonValue] at ok
    obtain rfl := Except.ok.inj ok
    exact reads_decimal _
  | .string bytes, text, ok => by
    rw [writeJsonValue] at ok
    obtain rfl := Except.ok.inj ok
    exact reads_writeJsonString bytes
  | .range elements, text, ok => by
    rw [writeJsonValue] at ok
    obtain ⟨body, inner, ok⟩ := bind_ok ok
    obtain rfl := Except.ok.inj ok
    obtain ⟨texts, each, rfl⟩ := reads_writeElements true elements inner
    rw [joined_true]
    exact reads_arrayText "" each (by decide +kernel)
  | .formatted (some formatted), text, ok => by
    rw [writeJsonValue] at ok
    obtain rfl := Except.ok.inj ok
    exact reads_writeJsonString formatted
  | .formatted none, text, ok => by
    rw [writeJsonValue] at ok
    cases ok

theorem reads_writeElements : (first : Bool) → (values : List FieldValue) → {text : Text} →
    writeElements first values = .ok text →
      ∃ texts, List.Forall₂ Reads (jsonElements values) texts ∧ text = joined first texts
  | first, [], text, ok => by
    rw [writeElements] at ok
    obtain rfl := Except.ok.inj ok
    exact ⟨[], .nil, rfl⟩
  | first, value :: rest, text, ok => by
    rw [writeElements] at ok
    obtain ⟨here, one, ok⟩ := bind_ok ok
    obtain ⟨later, others, ok⟩ := bind_ok ok
    obtain rfl := Except.ok.inj ok
    obtain ⟨texts, each, rfl⟩ := reads_writeElements false rest others
    exact ⟨here :: texts, .cons (reads_writeJsonValue value one) each, rfl⟩

theorem reads_writeJsonFields : (first : Bool) → (fields : List (Text × FieldValue)) →
    {text : Text} → writeJsonFields first fields = .ok text →
      ∃ texts, List.Forall₂ ReadsMember (jsonFields fields) texts ∧ text = joined first texts
  | first, [], text, ok => by
    rw [writeJsonFields] at ok
    obtain rfl := Except.ok.inj ok
    exact ⟨[], .nil, rfl⟩
  | first, (name, value) :: rest, text, ok => by
    rw [writeJsonFields] at ok
    obtain ⟨here, one, ok⟩ := bind_ok ok
    obtain ⟨later, others, ok⟩ := bind_ok ok
    obtain rfl := Except.ok.inj ok
    obtain ⟨texts, each, rfl⟩ := reads_writeJsonFields false rest others
    have member : ReadsMember (name, value.json) (writeJsonString name ++ ascii ":" ++ here) := by
      have written : writeJsonString name ++ ascii ":" ++ here =
          [] ++ quote :: (name.flatMap Reporting.escaped ++ quote :: colon :: here) := by
        simp only [writeJsonString_eq, Reporting.writeJsonString, List.append_assoc]
        rfl
      rw [written]
      exact .intro nofun (Reporting.body_flatMap name) (reads_writeJsonValue value one)
    refine ⟨_, .cons member each, ?_⟩
    simp only [joined, List.append_assoc]

end

end Reading

/-! ### Values with an encoder -/

section Encodable

/-- A value that is built from integers, booleans, strings, enumerations, ranges, described values and
others with a diagnostic text. -/
inductive Encodable : FieldValue → Prop
  | described {fields : List (Text × FieldValue)} (each : ∀ field ∈ fields, Encodable field.2) :
      Encodable (.described fields)
  | boolean (value : Bool) : Encodable (.boolean value)
  | enumeration (type : EnumType) (value : Scalar) : Encodable (.enumeration type value)
  | signed (value : Int64) : Encodable (.signed value)
  | unsigned (value : UInt64) : Encodable (.unsigned value)
  | string (bytes : Text) : Encodable (.string bytes)
  | range {elements : List FieldValue} (each : ∀ value ∈ elements, Encodable value) :
      Encodable (.range elements)
  | formatted (text : Text) : Encodable (.formatted (some text))

theorem Encodable.written {value : FieldValue} (encodable : Encodable value) :
    ∃ text, writeJsonValue value = .ok text := by
  induction encodable with
  | @described fields each ih =>
    have all : ∀ first, ∃ body, writeJsonFields first fields = .ok body := by
      clear each
      induction fields with
      | nil => exact fun _ => ⟨[], rfl⟩
      | cons field rest inner =>
        intro first
        obtain ⟨text, written⟩ := ih field List.mem_cons_self
        obtain ⟨later, others⟩ := inner
          (fun other member => ih other (List.mem_cons_of_mem _ member)) false
        exact ⟨_, by rw [writeJsonFields, written, others]; rfl⟩
    obtain ⟨body, written⟩ := all true
    exact ⟨_, by rw [writeJsonValue, written]; rfl⟩
  | @range elements each ih =>
    have all : ∀ first, ∃ body, writeElements first elements = .ok body := by
      clear each
      induction elements with
      | nil => exact fun _ => ⟨[], rfl⟩
      | cons value rest inner =>
        intro first
        obtain ⟨text, written⟩ := ih value List.mem_cons_self
        obtain ⟨later, others⟩ := inner
          (fun other member => ih other (List.mem_cons_of_mem _ member)) false
        exact ⟨_, by rw [writeElements, written, others]; rfl⟩
    obtain ⟨body, written⟩ := all true
    exact ⟨_, by rw [writeJsonValue, written]; rfl⟩
  | enumeration type value =>
    obtain ⟨text, found⟩ := formatDiagnostic_isSome type value
    exact ⟨_, by rw [writeJsonValue, found]; rfl⟩
  | boolean value => exact ⟨_, by rw [writeJsonValue]; rfl⟩
  | signed value => exact ⟨_, by rw [writeJsonValue]; rfl⟩
  | unsigned value => exact ⟨_, by rw [writeJsonValue]; rfl⟩
  | string bytes => exact ⟨_, by rw [writeJsonValue]; rfl⟩
  | formatted text => exact ⟨_, by rw [writeJsonValue]; rfl⟩

end Encodable

/-! ### Reading values back -/

section Shapes

/-- The type of a value, as a reader knows it: the fields of a descriptor, and the values that an
enumeration can have. -/
inductive Shape where
  | described (fields : List (Text × Shape))
  | boolean
  | enumeration (type : EnumType) (values : List Scalar)
  | signed
  | unsigned
  | string
  | range (element : Shape)
  | formatted

/-- A value of a type. The values of an enumeration have texts of their own. -/
inductive Has : FieldValue → Shape → Prop
  | described {fields : List (Text × FieldValue)} {shapes : List (Text × Shape)}
      (names : fields.map Prod.fst = shapes.map Prod.fst)
      (each : ∀ field shape, (field, shape) ∈ fields.zip shapes → Has field.2 shape.2) :
      Has (.described fields) (.described shapes)
  | boolean (value : Bool) : Has (.boolean value) .boolean
  | enumeration {type : EnumType} {value : Scalar} {values : List Scalar} (known : value ∈ values)
      (distinct : (values.map (formatDiagnostic type)).Nodup) :
      Has (.enumeration type value) (.enumeration type values)
  | signed (value : Int64) : Has (.signed value) .signed
  | unsigned (value : UInt64) : Has (.unsigned value) .unsigned
  | string (bytes : Text) : Has (.string bytes) .string
  | range {elements : List FieldValue} {shape : Shape} (each : ∀ value ∈ elements, Has value shape) :
      Has (.range elements) (.range shape)
  | formatted (text : Text) : Has (.formatted (some text)) .formatted

mutual

/-- Read a value of a type. -/
def Shape.read : Shape → Value → Option FieldValue
  | .described shapes, .object ms => (readFields shapes ms).map .described
  | .boolean, .boolean value => some (.boolean value)
  | .enumeration type values, .string text =>
    (values.find? fun value => formatDiagnostic type value = some text).map (.enumeration type)
  | .signed, .number value =>
    if -2 ^ 63 ≤ value ∧ value < 2 ^ 63 then some (.signed (Int64.ofInt value)) else none
  | .unsigned, .number value =>
    if 0 ≤ value ∧ value < 2 ^ 64 then some (.unsigned (UInt64.ofNat value.toNat)) else none
  | .string, .string bytes => some (.string bytes)
  | .range shape, .array vs => (vs.mapM shape.read).map .range
  | .formatted, .string text => some (.formatted (some text))
  | _, _ => none

/-- The members of an object, in the order of the descriptor. -/
def readFields : List (Text × Shape) → List (Text × Value) → Option (List (Text × FieldValue))
  | [], [] => some []
  | (name, shape) :: shapes, m :: ms =>
    if name = m.1 then
      (shape.read m.2).bind fun value => (readFields shapes ms).map ((name, value) :: ·)
    else none
  | _, _ => none

end

theorem jsonElements_eq (elements : List FieldValue) : jsonElements elements = elements.map (·.json) := by
  induction elements with
  | nil => rfl
  | cons value rest ih => rw [jsonElements, ih, List.map_cons]

/-- **The JSON of a value reads back.** -/
theorem Has.read_json {value : FieldValue} {shape : Shape} (has : Has value shape) :
    shape.read value.json = some value := by
  induction has with
  | @described fields shapes names each ih =>
    have all : readFields shapes (jsonFields fields) = some fields := by
      clear each
      induction fields generalizing shapes with
      | nil =>
        cases shapes with
        | nil => rfl
        | cons shape shapes => cases names
      | cons field rest inner =>
        cases shapes with
        | nil => cases names
        | cons shape shapes =>
          obtain ⟨same, later⟩ := List.cons.inj names
          have here := ih field shape List.mem_cons_self
          have others := inner later fun field shape member =>
            ih field shape (List.mem_cons_of_mem _ member)
          obtain ⟨name, value⟩ := field
          obtain ⟨name', shape⟩ := shape
          obtain rfl : name = name' := same
          simp only [jsonFields, readFields, if_true, here, others, Option.bind_some,
            Option.map_some]
    rw [FieldValue.json, Shape.read, all, Option.map_some]
  | @enumeration type value values known distinct =>
    obtain ⟨text, formatted⟩ := formatDiagnostic_isSome type value
    rw [FieldValue.json, Shape.read, formatted]
    simp only [Option.getD_some]
    cases found : values.find? fun value => formatDiagnostic type value = some text with
    | none => exact absurd (decide_eq_true formatted) (List.find?_eq_none.mp found value known)
    | some other =>
      have hit := List.find?_some found
      have same : formatDiagnostic type other = some text := of_decide_eq_true hit
      rw [List.inj_on_of_nodup_map distinct (List.mem_of_find?_eq_some found) known
        (same.trans formatted.symm), Option.map_some]
  | @range elements shape each ih =>
    have all : (elements.map (·.json)).mapM shape.read = some elements := by
      clear each
      induction elements with
      | nil => rfl
      | cons value rest inner =>
        have here := ih value List.mem_cons_self
        have others := inner fun other member => ih other (List.mem_cons_of_mem _ member)
        simp only [List.map_cons, List.mapM_cons, here, others]
        rfl
    rw [FieldValue.json, Shape.read, jsonElements_eq, all, Option.map_some]
  | boolean value => rfl
  | signed value =>
    have low := value.le_toInt
    have high := value.toInt_lt
    rw [FieldValue.json, Shape.read, if_pos ⟨low, high⟩, Int64.ofInt_toInt]
  | unsigned value =>
    have bound := value.toNat_lt
    rw [FieldValue.json, Shape.read, if_pos (by omega), Int.toNat_natCast, UInt64.ofNat_toNat]
  | string bytes => rfl
  | formatted text => rfl

end Shapes

/-! ### Lines -/

section Lines

/-- No line break. -/
def Unbroken (line : Text) : Prop := (0x0a : UInt8) ∉ line

instance (line : Text) : Decidable (Unbroken line) := inferInstanceAs (Decidable (¬ _))

theorem unbroken_writeJsonString (value : Text) : Unbroken (writeJsonString value) := by
  intro member
  rw [writeJsonString_eq, Reporting.writeJsonString, List.mem_append, List.mem_append] at member
  rcases member with (quoted | inside) | quoted
  · exact absurd quoted (by decide)
  · exact absurd ((Reporting.body_flatMap value).printable _ inside) (by decide)
  · exact absurd quoted (by decide)

theorem unbroken_append {first second : Text} (one : Unbroken first) (two : Unbroken second) :
    Unbroken (first ++ second) :=
  fun member => (List.mem_append.mp member).elim one two

theorem unbroken_decimal (n : ℕ) : Unbroken (decimal n) :=
  fun member => absurd (isDigit_decimal n _ member) (by decide)

theorem unbroken_integer (z : ℤ) : Unbroken (integer z) := by
  unfold integer
  split
  · exact unbroken_append (show Unbroken [minus] by decide) (unbroken_decimal _)
  · exact unbroken_decimal _

theorem unbroken_intercalate {texts : List Text} (each : ∀ text ∈ texts, Unbroken text) :
    Unbroken ((ascii ",").intercalate texts) := by
  cases texts with
  | nil => exact List.not_mem_nil
  | cons text texts =>
    rw [intercalate_flatMap]
    refine unbroken_append (each text List.mem_cons_self) fun member => ?_
    obtain ⟨other, inside, byte⟩ := List.mem_flatMap.mp member
    exact unbroken_append (show Unbroken (ascii ",") by decide +kernel)
      (each other (List.mem_cons_of_mem _ inside)) byte

theorem unbroken_comma (first : Bool) : Unbroken (if !first then ascii "," else []) := by
  cases first <;> decide +kernel

mutual

/-- What is written of a value has no line break. -/
theorem unbroken_writeJsonValue : (value : FieldValue) → {text : Text} →
    writeJsonValue value = .ok text → Unbroken text
  | .described fields, text, ok => by
    rw [writeJsonValue] at ok
    obtain ⟨body, inner, ok⟩ := bind_ok ok
    obtain rfl := Except.ok.inj ok
    exact unbroken_append (unbroken_append (by decide +kernel) (unbroken_writeJsonFields true fields inner))
      (by decide +kernel)
  | .boolean value, text, ok => by
    rw [writeJsonValue] at ok
    obtain rfl := Except.ok.inj ok
    cases value <;> decide +kernel
  | .enumeration type value, text, ok => by
    obtain ⟨formatted, found⟩ := formatDiagnostic_isSome type value
    rw [writeJsonValue, found] at ok
    obtain rfl := Except.ok.inj ok
    exact unbroken_writeJsonString formatted
  | .signed value, text, ok => by
    rw [writeJsonValue] at ok
    obtain rfl := Except.ok.inj ok
    exact unbroken_integer _
  | .unsigned value, text, ok => by
    rw [writeJsonValue] at ok
    obtain rfl := Except.ok.inj ok
    exact unbroken_decimal _
  | .string bytes, text, ok => by
    rw [writeJsonValue] at ok
    obtain rfl := Except.ok.inj ok
    exact unbroken_writeJsonString bytes
  | .range elements, text, ok => by
    rw [writeJsonValue] at ok
    obtain ⟨body, inner, ok⟩ := bind_ok ok
    obtain rfl := Except.ok.inj ok
    exact unbroken_append (unbroken_append (by decide +kernel) (unbroken_writeElements true elements inner))
      (by decide +kernel)
  | .formatted (some formatted), text, ok => by
    rw [writeJsonValue] at ok
    obtain rfl := Except.ok.inj ok
    exact unbroken_writeJsonString formatted
  | .formatted none, text, ok => by
    rw [writeJsonValue] at ok
    cases ok

theorem unbroken_writeElements : (first : Bool) → (values : List FieldValue) → {text : Text} →
    writeElements first values = .ok text → Unbroken text
  | first, [], text, ok => by
    rw [writeElements] at ok
    obtain rfl := Except.ok.inj ok
    exact List.not_mem_nil
  | first, value :: rest, text, ok => by
    rw [writeElements] at ok
    obtain ⟨here, one, ok⟩ := bind_ok ok
    obtain ⟨later, others, ok⟩ := bind_ok ok
    obtain rfl := Except.ok.inj ok
    exact unbroken_append (unbroken_append (unbroken_comma first) (unbroken_writeJsonValue value one))
      (unbroken_writeElements false rest others)

theorem unbroken_writeJsonFields : (first : Bool) → (fields : List (Text × FieldValue)) →
    {text : Text} → writeJsonFields first fields = .ok text → Unbroken text
  | first, [], text, ok => by
    rw [writeJsonFields] at ok
    obtain rfl := Except.ok.inj ok
    exact List.not_mem_nil
  | first, (name, value) :: rest, text, ok => by
    rw [writeJsonFields] at ok
    obtain ⟨here, one, ok⟩ := bind_ok ok
    obtain ⟨later, others, ok⟩ := bind_ok ok
    obtain rfl := Except.ok.inj ok
    have front := unbroken_append (unbroken_append (unbroken_comma first)
      (unbroken_writeJsonString name)) (show Unbroken (ascii ":") by decide +kernel)
    exact unbroken_append (unbroken_append front (unbroken_writeJsonValue value one))
      (unbroken_writeJsonFields false rest others)

end

/-- `transaction_disposition_name` backwards. -/
def disposition : Codec TransactionDisposition :=
  .named [.completed, .aborted, .incomplete] transactionDispositionName
    (by rintro ⟨⟩ <;> decide) (by decide +kernel)

/-- The members of a line, whose value has the given text. -/
def recordMembers (record : TransactionRecordView) (text : Text) : List Member :=
  [⟨"", "stream", Codec.string.json record.stream, writeJsonString record.stream⟩,
    ⟨"", "sequence", Codec.word.json record.sequence, decimal record.sequence.toNat⟩,
    ⟨"", "type", Codec.string.json record.type, writeJsonString record.type⟩,
    ⟨"", "begin_time_fs", Codec.word.json record.beginTime, decimal record.beginTime.toNat⟩,
    ⟨"", "end_time_fs", Codec.word.json record.endTime, decimal record.endTime.toNat⟩,
    ⟨"", "disposition", disposition.json record.disposition,
      writeJsonString (ascii (transactionDispositionName record.disposition))⟩,
    ⟨"", "value", (FieldValue.described record.value).json, text⟩]

def recordLayout : List (String × String) :=
  ["stream", "sequence", "type", "begin_time_fs", "end_time_fs", "disposition", "value"].map
    fun name => ("", name)

/-- The JSON of a record. -/
def TransactionRecordView.json (record : TransactionRecordView) : Value :=
  objectValue (recordMembers record [])

theorem line_shape {record : TransactionRecordView} {text : Text}
    (written : writeTransactionJson record = .ok text) :
    record.line = .ok (objectText
      ((recordMembers record text).map fun m => memberText m.space m.name m.text) "" ++ [0x0a]) := by
  have stream : writeJsonString (ascii "stream") = ascii "\"stream\"" := by
    rw [writeJsonString_eq]
    exact Reporting.writeJsonString_plain (by decide +kernel)
  have ends : ascii "\x7d\n" = ascii "\x7d" ++ [0x0a] := by decide +kernel
  unfold TransactionRecordView.line
  rw [written]
  refine congrArg Except.ok ?_
  rw [stream, ends]
  simp only [recordMembers, List.map_cons, List.map_nil, objectText, memberText, intercalate_one,
    intercalate_cons, List.append_assoc]
  simp only [ascii_merge, String.reduceAppend]

/-- **The line of a record**: it has no line break of its own, and it is read as its members. -/
theorem line_spec {record : TransactionRecordView} (encodable : Encodable (.described record.value)) :
    ∃ line, record.line = .ok (line ++ [0x0a]) ∧ Unbroken line ∧ parse line = some record.json := by
  obtain ⟨text, written⟩ := encodable.written
  refine ⟨_, line_shape written, ?_, ?_⟩
  · have each : ∀ m ∈ recordMembers record text, Unbroken (memberText m.space m.name m.text) := by
      simp only [recordMembers, List.forall_mem_cons]
      have fragment {space name : String} {value : Text}
          (one : Unbroken (ascii (space ++ "\"" ++ name ++ "\":"))) (two : Unbroken value) :
          Unbroken (memberText space name value) := unbroken_append one two
      exact ⟨fragment (by decide +kernel) (unbroken_writeJsonString _),
        fragment (by decide +kernel) (unbroken_decimal _),
        fragment (by decide +kernel) (unbroken_writeJsonString _),
        fragment (by decide +kernel) (unbroken_decimal _),
        fragment (by decide +kernel) (unbroken_decimal _),
        fragment (by decide +kernel) (unbroken_writeJsonString _),
        fragment (by decide +kernel) (unbroken_writeJsonValue _ written), List.forall_mem_nil _⟩
    refine unbroken_append (unbroken_append (by decide +kernel) (unbroken_intercalate ?_))
      (by decide +kernel)
    exact List.forall_mem_map.mpr each
  · have each : ∀ m ∈ recordMembers record text, Reads m.value m.text := by
      simp only [recordMembers, List.forall_mem_cons]
      exact ⟨reads_writeJsonString _, reads_decimal _, reads_writeJsonString _, reads_decimal _,
        reads_decimal _, reads_writeJsonString _, reads_writeJsonValue _ written,
        List.forall_mem_nil _⟩
    have blank : Blank (ascii "") := by decide +kernel
    have reads := parse_reads (reads_objectValue recordLayout rfl (by decide +kernel) each blank)
      (show Blank [] by decide +kernel)
    rw [List.append_nil] at reads
    exact reads

end Lines

/-! ### Reading records back -/

section Records

/-- A value of a type has an encoder. -/
theorem Has.encodable {value : FieldValue} {shape : Shape} (has : Has value shape) :
    Encodable value := by
  induction has with
  | @described fields shapes names _ ih =>
    refine .described fun field inside => ?_
    obtain ⟨index, bound, rfl⟩ := List.mem_iff_getElem.mp inside
    have same : fields.length = shapes.length := by
      rw [← List.length_map Prod.fst, names, List.length_map]
    have both : (fields[index], shapes[index]) ∈ fields.zip shapes :=
      List.mem_iff_getElem.mpr ⟨index, by rw [List.length_zip]; omega, List.getElem_zip⟩
    exact ih _ _ both
  | range _ ih => exact .range ih
  | boolean value => exact .boolean value
  | enumeration => exact .enumeration _ _
  | signed value => exact .signed value
  | unsigned value => exact .unsigned value
  | string bytes => exact .string bytes
  | formatted text => exact .formatted text

/-- The fields of a described value. -/
def readDescribed (shapes : List (Text × Shape)) : Value → Option (List (Text × FieldValue))
  | .object ms => readFields shapes ms
  | _ => none

theorem readDescribed_json {fields : List (Text × FieldValue)} {shapes : List (Text × Shape)}
    (has : Has (.described fields) (.described shapes)) :
    readDescribed shapes (FieldValue.described fields).json = some fields := by
  have back := has.read_json
  rw [FieldValue.json, Shape.read, Option.map_eq_some_iff] at back
  obtain ⟨found, read, same⟩ := back
  cases same
  exact read

/-- A record, read by the names of its members, and its value by the type of it. -/
def readRecord (shapes : List (Text × Shape)) (v : Value) : Option TransactionRecordView := do
  let stream ← (v.get "stream").bind Codec.string.read
  let sequence ← (v.get "sequence").bind Codec.word.read
  let type ← (v.get "type").bind Codec.string.read
  let beginTime ← (v.get "begin_time_fs").bind Codec.word.read
  let endTime ← (v.get "end_time_fs").bind Codec.word.read
  let disposition ← (v.get "disposition").bind disposition.read
  let value ← (v.get "value").bind (readDescribed shapes)
  some { stream, type, sequence, beginTime, endTime, disposition, value }

/-- **The JSON of a record reads back.** -/
theorem readRecord_json {record : TransactionRecordView} {shapes : List (Text × Shape)}
    (has : Has (.described record.value) (.described shapes)) :
    readRecord shapes record.json = some record := by
  have distinct : ((recordMembers record []).map fun m => ascii m.name).Nodup := by
    change (recordLayout.map fun place => ascii place.2).Nodup
    decide +kernel
  unfold TransactionRecordView.json
  have stream : _ = some record.stream := Codec.string.read_member distinct 0 rfl
  have sequence : _ = some record.sequence := Codec.word.read_member distinct 1 rfl
  have type : _ = some record.type := Codec.string.read_member distinct 2 rfl
  have beginTime : _ = some record.beginTime := Codec.word.read_member distinct 3 rfl
  have endTime : _ = some record.endTime := Codec.word.read_member distinct 4 rfl
  have ended : _ = some record.disposition := disposition.read_member distinct 5 rfl
  have value : ((objectValue (recordMembers record [])).get "value").bind (readDescribed shapes) =
      some record.value := by
    have distinct' : (((recordMembers record []).map fun m => (ascii m.name, m.value)).map
        Prod.fst).Nodup := by
      rw [List.map_map]
      exact distinct
    have found := @get_of_member _ distinct' 6 "value" (FieldValue.described record.value).json rfl
    rw [objectValue, found, Option.bind_some, readDescribed_json has]
  simp only [readRecord, stream, sequence, type, beginTime, endTime, ended, value,
    Option.bind_eq_bind, Option.bind_some]

end Records

/-! ### Runs of a sink -/

section Runs

namespace JsonLinesTransactionSink

/-- One `write` to a file that takes the line. -/
theorem write_spec (sink : JsonLinesTransactionSink) {record : TransactionRecordView}
    (isOpen : sink.finalized = false) (encodable : Encodable (.described record.value)) :
    ∃ line, sink.write true record = ({ sink with output := sink.output ++ (line ++ [0x0a]) }, none) ∧
      Unbroken line ∧ parse line = some record.json := by
  obtain ⟨line, shape, unbroken, reads⟩ := line_spec encodable
  refine ⟨line, ?_, unbroken, reads⟩
  rw [write, isOpen, shape]
  rfl

/-- Records, one after the other, as long as no `write` throws. -/
def writes (sink : JsonLinesTransactionSink) (records : List TransactionRecordView) :
    Option JsonLinesTransactionSink :=
  records.foldlM (fun sink record =>
    match sink.write true record with
    | (sink, none) => some sink
    | (_, some _) => none) sink

/-- **The lines of the records of a run**, in their order. -/
theorem writes_spec (sink : JsonLinesTransactionSink) {records : List TransactionRecordView}
    (isOpen : sink.finalized = false)
    (encodable : ∀ record ∈ records, Encodable (.described record.value)) :
    ∃ lines, sink.writes records =
        some { sink with output := sink.output ++ lines.flatMap (· ++ [0x0a]) } ∧
      List.Forall₂ (fun record line => Unbroken line ∧ parse line = some record.json)
        records lines := by
  induction records generalizing sink with
  | nil => exact ⟨[], by rw [List.flatMap_nil, List.append_nil]; rfl, .nil⟩
  | cons record rest ih =>
    obtain ⟨line, written, unbroken, reads⟩ :=
      sink.write_spec isOpen (encodable record List.mem_cons_self)
    obtain ⟨lines, later, each⟩ := ih { sink with output := sink.output ++ (line ++ [0x0a]) } isOpen
      fun other member => encodable other (List.mem_cons_of_mem _ member)
    refine ⟨line :: lines, ?_, .cons ⟨unbroken, reads⟩ each⟩
    have step : sink.writes (record :: rest) =
        ({ sink with output := sink.output ++ (line ++ [0x0a]) } : JsonLinesTransactionSink).writes
          rest := by
      rw [writes, List.foldlM_cons, written]
      rfl
    rw [step, later, List.flatMap_cons]
    simp only [List.append_assoc]

end JsonLinesTransactionSink

/-- Every byte string becomes a literal whose inside decodes to it. -/
theorem literal_writeJsonString (bytes : Text) :
    ∃ body, writeJsonString bytes = quote :: (body ++ [quote]) ∧
      Reporting.writeJsonString bytes = quote :: (body ++ [quote]) ∧
      Body bytes body ∧ (∀ byte ∈ body, 0x20 ≤ byte) ∧
      ∀ rest, literal (body ++ quote :: rest) = some (bytes, rest) := by
  have inside := Reporting.body_flatMap bytes
  have same : Reporting.writeJsonString bytes =
      quote :: (bytes.flatMap Reporting.escaped ++ [quote]) := by
    simp only [Reporting.writeJsonString, List.append_assoc]
    rfl
  exact ⟨_, (writeJsonString_eq bytes).trans same, same, inside, inside.printable,
    literal_of_body inside⟩

/-- A transfer of a bus, with its type. -/
def busTransfer : TransactionRecordView where
  stream := ascii "bus"
  type := ascii "write\n"
  sequence := 3
  beginTime := 10
  endTime := 20
  disposition := .completed
  value := [(ascii "address", .unsigned 64),
    (ascii "data", .range [.described [(ascii "lane", .signed (-1))]]), (ascii "last", .boolean true)]

def busTransferFields : List (Text × Shape) :=
  [(ascii "address", .unsigned), (ascii "data", .range (.described [(ascii "lane", .signed)])),
    (ascii "last", .boolean)]

end Runs

end Cpptb.Tracing
