import MessageBridge.Document.Relaxed

/-!
# Reading documents

Typed values from documents. A record is read member by member in the order of the document: a
name that is not a field, or that comes a second time, is an error at once, and so is a value that
does not fit its field. Fields that are missing are found last, in the order of their declaration.
A record may also be written as the list of its values in that order.
-/

namespace MessageBridge

namespace Document

/-! ## Single values -/

/-- The error for a document of the wrong kind. -/
def mismatch (dialect : Dialect) (expected : String) (d : Document) : ReadError :=
  let wrong (found : Found) : ReadError := .invalidType found expected
  match d with
  | .null => wrong (.null dialect)
  | .bool b => wrong (.bool b)
  | .number n =>
    match n.found with
    | .ok found => wrong found
    | .error e => e
  | .text (.ok s) => wrong (.text s)
  | .text (.error fault) => .badText fault
  | .list _ => wrong .sequence
  | .record _ => wrong .map

/-- A text. -/
def text? (dialect : Dialect) : Document → Except ReadError String
  | .text (.ok s) => .ok s
  | d => .error (mismatch dialect "a string" d)

/-- A list whose items are read one after the other. -/
def list? {α : Type} (dialect : Dialect) (item : Document → Except ReadError α) :
    Document → Except ReadError (List α)
  | .list items => items.mapM item
  | d => .error (mismatch dialect "a sequence" d)

/-- A value, or null for none. -/
def optional? {α : Type} (value : Document → Except ReadError α) :
    Document → Except ReadError (Option α)
  | .null => .ok none
  | d => (value d).map some

/-- A natural number of the width that `kind` names, at most `limit`. -/
def natural? (dialect : Dialect) (kind : String) (limit : Nat) (d : Document) :
    Except ReadError Nat :=
  match dialect, d with
  | .json, .number (.exact (.int n)) =>
    if 0 ≤ n ∧ n ≤ limit then .ok n.toNat else .error (.invalidValue (.integer n) kind)
  | .relaxed, .number (.written s) =>
    match Numeral.wide s with
    | .ok w => .ok (w.toNatUpTo limit)
    | .error fault => .error (.badNumber fault)
  | .relaxed, _ => .error (.badNumber .notANumber)
  | .json, d => .error (mismatch .json kind d)

/-- Nothing. -/
def unit? (dialect : Dialect) : Document → Except ReadError Unit
  | .null => .ok ()
  | d => .error (mismatch dialect "unit" d)

/-! ## Variants -/

/-- The variant of a name. -/
def variant? {α : Type} (variants : List (String × α)) (name : String) : Except ReadError α :=
  match Named.get? name variants with
  | some v => .ok v
  | none => .error (.unknownVariant name (Named.names variants))

/-- One of some named variants: written as its name, or as a record with the name as its only member
and null as the value. The relaxed notation ignores the value, and members after the first. -/
def choice? {α : Type} (dialect : Dialect) (variants : List (String × α)) (d : Document) :
    Except ReadError α :=
  match dialect, d with
  | _, .text (.ok name) => variant? variants name
  | _, .text (.error fault) => .error (.badText fault)
  | .json, .record [(.ok name, v)] =>
    (variant? variants name).bind fun a ↦ (unit? .json v).map fun _ ↦ a
  | .json, .record _ => .error (.invalidValue .map "map with a single key")
  | .json, d => .error (mismatch .json "string or map" d)
  | .relaxed, .record ((.ok name, _) :: _) => variant? variants name
  | .relaxed, .record ((.error fault, _) :: _) => .error (.badText fault)
  | .relaxed, .record [] => .error .emptyVariant
  | .relaxed, _ => .error .notAVariant

/-! ## Records -/

/-- A field of a record: how its document changes the value that is being built. -/
structure Field (σ : Type) where
  /-- The name of the field. -/
  name : String
  /-- Whether the field may be missing. -/
  optional : Bool
  /-- How the document of the field changes the value that is being built. -/
  read : Document → Except ReadError (σ → σ)

namespace Field

variable {σ α : Type}

/-- A field that must be present. -/
def required (name : String) (value : Document → Except ReadError α) (set : α → σ → σ) :
    Field σ :=
  ⟨name, false, fun d ↦ (value d).map set⟩

/-- A field that may be missing. -/
def defaulted (name : String) (value : Document → Except ReadError α) (set : α → σ → σ) :
    Field σ :=
  ⟨name, true, fun d ↦ (value d).map set⟩

end Field

variable {σ : Type}

/-- Reads members in order. `seen` holds the names read so far. -/
def members? (fields : List (Field σ)) (seen : List String) (value : σ) :
    List (Except TextFault String × Document) → Except ReadError (σ × List String)
  | [] => .ok (value, seen)
  | (.error fault, _) :: _ => .error (.badText fault)
  | (.ok key, d) :: rest =>
    match fields.find? fun f ↦ f.name == key with
    | none => .error (.unknownField key (fields.map Field.name))
    | some field =>
      if seen.contains key then .error (.duplicateField key)
      else
        match field.read d with
        | .error e => .error e
        | .ok set => members? fields (key :: seen) (set value) rest

/-- The first field in declaration order that must be present and is not. -/
def firstMissing? (fields : List (Field σ)) (seen : List String) : Option String :=
  (fields.find? fun f ↦ !f.optional && !seen.contains f.name).map Field.name

/-- Reads the items of a list as the fields in declaration order. `index` counts the fields read so
far, and the rest of the list is given back. -/
def items? (expected : String) (index : Nat) (value : σ) :
    List (Field σ) → List Document → Except ReadError (σ × List Document)
  | [], items => .ok (value, items)
  | field :: fields, [] =>
    if field.optional then items? expected (index + 1) value fields []
    else .error (.invalidLength index expected)
  | field :: fields, d :: items =>
    match field.read d with
    | .error e => .error e
    | .ok set => items? expected (index + 1) (set value) fields items

/-- A record with the given fields. `initial` holds the values of the fields that may be missing. -/
def record? (dialect : Dialect) (title : String) (fields : List (Field σ)) (initial : σ)
    (d : Document) : Except ReadError σ :=
  match d with
  | .record members =>
    match members? fields [] initial members with
    | .error e => .error e
    | .ok (value, seen) =>
      match firstMissing? fields seen with
      | some name => .error (.missingField name)
      | none => .ok value
  | .list items =>
    let expected := "struct " ++ title ++ " with " ++ toString fields.length ++ " elements"
    match items? expected 0 initial fields items with
    | .error e => .error e
    | .ok (value, rest) =>
      if dialect = .json ∧ rest ≠ [] then
        .error (.invalidLength items.length "fewer elements in array")
      else .ok value
  | d => .error (mismatch dialect ("struct " ++ title) d)

end Document

end MessageBridge
