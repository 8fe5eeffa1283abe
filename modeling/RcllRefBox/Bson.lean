import Mathlib.Data.List.Basic

/-! # BSON documents from CLIPS

The rules handle BSON documents through `void *` handles of three kinds, and each function
`static_cast`s the handle it is given to its own kind:

* a value handle, a `bsoncxx::document::value`, which `mongodb-cursor-next` returns and
  `bson-get` returns for an embedded document; `bson-get`, `bson-get-array`,
  `bson-get-time` and `bson-field-names` read it;
* a builder handle, a `bsoncxx::builder::basic::document` (`document` in the source), which
  `bson-create` and `bson-parse` return; `bson-append`, `bson-append-array`,
  `bson-array-finish`, `bson-append-time` and the MongoDB functions write it or send its view;
* an array builder, a `bsoncxx::builder::basic::array`, which `bson-array-start` returns.

No function turns a builder into a value handle, and a handle of one kind cast to another is
undefined. The model keeps the three apart as types: a value handle is its document, a
`BsonDocument`; a builder is a `BsonBuilder`; an array builder a `BsonArrayBuilder`.

`clips_bson_get` and `clips_bson_get_array` switch on the type of an element: a double, a
UTF-8 string, a bool, a 32- or 64-bit integer, or an embedded document. The array function
runs its switch once per element and returns `(FALSE)` as soon as an element has another
type. In its `k_bool` case it builds the `CLIPS::Value` for `TRUE` or `FALSE` and never
pushes it, where every other case calls `rv.push_back`: the bools of an array are dropped
(`clipsBsonGetArray_of_array`, `bool_array_element_dropped`).

The three appending functions run one switch on the `CLIPS::Type` of a value (`bsonElement`),
and building an array element by element gives the field `bson-append-array` gives
(`arrayBuilder_eq_appendArray`).
-/

namespace RcllRefBox

/-- A BSON element, by its `bsoncxx::type`. Doubles are kept as their IEEE 754 bits, a
date as its `int64` milliseconds since the epoch, a timestamp as its two `uint32` fields;
`other` stands for the remaining types (`k_null`, `k_oid`, ...) by type code. -/
inductive BsonValue
  | double (bits : BitVec 64)
  | utf8 (value : String)
  | bool (value : Bool)
  | int32 (value : BitVec 32)
  | int64 (value : BitVec 64)
  | document (fields : List (String × BsonValue))
  | array (elements : List BsonValue)
  | date (millis : BitVec 64)
  | timestamp (seconds increment : BitVec 32)
  | other (type : Nat)
  deriving Repr

/-- The document of a value handle: its fields in order. -/
abbrev BsonDocument := List (String × BsonValue)

inductive ClipsValue
  | float (bits : BitVec 64)
  | integer (value : Int)
  | string (value : String)
  | symbol (name : String)
  | address (document : BsonDocument)
  deriving Repr

/-- `doc->view().find(field_name)`: the first element with that key. -/
def bsonFind (doc : BsonDocument) (fieldName : String) : Option BsonValue :=
  (doc.find? (·.1 == fieldName)).map (·.2)

def clipsBsonValue : BsonValue → ClipsValue
  | .double bits => .float bits
  | .utf8 value => .string value
  | .bool value => .symbol (if value then "TRUE" else "FALSE")
  | .int32 value => .integer value.toInt
  | .int64 value => .integer value.toInt
  | .document fields => .address fields
  | _ => .symbol "INVALID_VALUE_TYPE"

/-- `LLSFRefBox::clips_bson_get`; `none` is a null document pointer. -/
def clipsBsonGet (bson : Option BsonDocument) (fieldName : String) : ClipsValue :=
  match bson with
  | none => .symbol "FALSE"
  | some doc =>
    match bsonFind doc fieldName with
    | none => .symbol "FALSE"
    | some element => clipsBsonValue element

/-- The loop of `clips_bson_get_array` over the array's elements, with `rv` as built so far.
The `k_bool` case builds its value and drops it; another type clears `rv` to `(FALSE)`. -/
def arrayValues : List BsonValue → List ClipsValue → List ClipsValue
  | [], rv => rv
  | .double bits :: rest, rv => arrayValues rest (rv ++ [.float bits])
  | .utf8 value :: rest, rv => arrayValues rest (rv ++ [.string value])
  | .bool _ :: rest, rv => arrayValues rest rv
  | .int32 value :: rest, rv => arrayValues rest (rv ++ [.integer value.toInt])
  | .int64 value :: rest, rv => arrayValues rest (rv ++ [.integer value.toInt])
  | .document fields :: rest, rv => arrayValues rest (rv ++ [.address fields])
  | _ :: _, _ => [.symbol "FALSE"]

def clipsBsonGetArray (bson : Option BsonDocument) (fieldName : String) : List ClipsValue :=
  match bson with
  | none => [.symbol "FALSE"]
  | some doc =>
    match bsonFind doc fieldName with
    | some (.array elements) => arrayValues elements []
    | _ => [.symbol "FALSE"]

def clipsBsonFieldNames (bson : Option BsonDocument) : List ClipsValue :=
  match bson with
  | none => [.symbol "FALSE"]
  | some doc => doc.map fun field => .string field.1

/-! ## The array loop -/

def BsonValue.supported : BsonValue → Bool
  | .array _ | .date _ | .timestamp _ _ | .other _ => false
  | _ => true

def BsonValue.isBool : BsonValue → Bool
  | .bool _ => true
  | _ => false

theorem clipsBsonGet_singleton (fieldName : String) (element : BsonValue) :
    clipsBsonGet (some [(fieldName, element)]) fieldName = clipsBsonValue element := by
  simp [clipsBsonGet, bsonFind]

theorem arrayValues_of_supported :
    ∀ (elements : List BsonValue) (rv : List ClipsValue), (∀ e ∈ elements, e.supported = true) →
      arrayValues elements rv = rv ++ (elements.filter (!·.isBool)).map clipsBsonValue
  | [], rv, _ => by simp [arrayValues]
  | element :: rest, rv, supported => by
    have inductionHypothesis := fun rv =>
      arrayValues_of_supported rest rv fun e mem => supported e (.tail _ mem)
    have head := supported element (.head _)
    cases element <;> simp [arrayValues, inductionHypothesis, BsonValue.isBool, clipsBsonValue,
      BsonValue.supported] at head ⊢

theorem arrayValues_of_unsupported :
    ∀ (elements : List BsonValue) (rv : List ClipsValue), (∃ e ∈ elements, e.supported = false) →
      arrayValues elements rv = [.symbol "FALSE"]
  | [], _, unsupported => by simp at unsupported
  | element :: rest, rv, unsupported => by
    by_cases here : element.supported = false
    · cases element <;> first | rfl | simp [BsonValue.supported] at here
    · have later : ∃ e ∈ rest, e.supported = false := by
        obtain ⟨e, mem, bad⟩ := unsupported
        rcases List.mem_cons.1 mem with rfl | mem
        · exact absurd bad here
        · exact ⟨e, mem, bad⟩
      have inductionHypothesis := fun rv => arrayValues_of_unsupported rest rv later
      cases element <;> simp only [arrayValues, inductionHypothesis, BsonValue.supported] at here ⊢

/-- `clips_bson_get_array` on a field holding an array: `(FALSE)` if an element has another
type, and otherwise the `clips_bson_get` values of the elements that are not bools. -/
theorem clipsBsonGetArray_of_array {doc : BsonDocument} {fieldName : String}
    {elements : List BsonValue} (found : bsonFind doc fieldName = some (.array elements)) :
    clipsBsonGetArray (some doc) fieldName =
      if elements.all BsonValue.supported then
        (elements.filter (!·.isBool)).map clipsBsonValue
      else [.symbol "FALSE"] := by
  simp only [clipsBsonGetArray, found]
  split_ifs with supported
  · rw [arrayValues_of_supported elements [] (List.all_eq_true.1 supported), List.nil_append]
  · exact arrayValues_of_unsupported elements [] (by simpa using supported)

theorem mixed_array_drops_bool :
    let elements : List BsonValue := [.utf8 "a", .bool false, .int32 7]
    bsonFind [("f", .array elements)] "f" = some (.array elements) ∧
      clipsBsonGetArray (some [("f", .array elements)]) "f" =
        if elements.all BsonValue.supported then (elements.filter (!·.isBool)).map clipsBsonValue
        else [.symbol "FALSE"] := by
  intro elements
  exact ⟨rfl, clipsBsonGetArray_of_array rfl⟩

/-- The array `[true]`: `clips_bson_get_array` returns the empty list, where
`clips_bson_get` on a field holding `true` returns `TRUE`. -/
theorem bool_array_element_dropped :
    clipsBsonGetArray (some [("f", .array [.bool true])]) "f" = [] ∧
      clipsBsonGet (some [("f", .bool true)]) "f" = .symbol "TRUE" :=
  ⟨rfl, rfl⟩

/-! ## Builders -/

/-- A `bsoncxx::builder::basic::document`: the fields appended so far, as `view()` gives
them. -/
structure BsonBuilder where
  view : BsonDocument

/-- A `bsoncxx::builder::basic::array`: the elements appended so far. -/
structure BsonArrayBuilder where
  elements : List BsonValue

def BsonBuilder.append (b : BsonBuilder) (fieldName : String) (element : BsonValue) : BsonBuilder :=
  ⟨b.view ++ [(fieldName, element)]⟩

/-- A `CLIPS::Value` passed to a builder function, by its `CLIPS::Type`. A CLIPS integer is a
`long long`; an external address is cast to a builder. `other` stands for the types no
`switch` handles (`TYPE_VOID`, multifields, fact and instance addresses). -/
inductive ClipsArg
  | float (bits : BitVec 64)
  | integer (value : BitVec 64)
  | symbol (name : String)
  | string (value : String)
  | instanceName (name : String)
  | externalAddress (builder : BsonBuilder)
  | other (type : Nat)

/-- The `switch (value.type())` of `clips_bson_append`, of the loop of
`clips_bson_append_array` and of `clips_bson_array_append`: the element a value is stored
as, or `none` for a type that is skipped ("Tried to add unknown type ..."). -/
def bsonElement : ClipsArg → Option BsonValue
  | .float bits => some (.double bits)
  | .integer value => some (.int64 value)
  | .symbol name | .string name | .instanceName name => some (.utf8 name)
  | .externalAddress builder => some (.document builder.view)
  | .other _ => none

def clipsBsonCreate : BsonBuilder := ⟨[]⟩

/-- `LLSFRefBox::clips_bson_parse`: a builder holding the fields of the parsed JSON text, or
an empty one when `bsoncxx::from_json` throws. The parser is the driver's and is not in
`src/`: it is the parameter `parse`. -/
def clipsBsonParse (parse : String → Option BsonDocument) (document : String) : BsonBuilder :=
  ⟨(parse document).getD []⟩

def clipsBsonAppend (b : BsonBuilder) (fieldName : String) (value : ClipsArg) : BsonBuilder :=
  match bsonElement value with
  | some element => b.append fieldName element
  | none => b

/-- `LLSFRefBox::clips_bson_append_array`: the array field is appended with the values that
are stored, even when there are none. -/
def clipsBsonAppendArray (b : BsonBuilder) (fieldName : String) (values : List ClipsArg) :
    BsonBuilder :=
  b.append fieldName (.array (values.filterMap bsonElement))

def clipsBsonArrayStart : BsonArrayBuilder := ⟨[]⟩

def clipsBsonArrayAppend (array : BsonArrayBuilder) (value : ClipsArg) : BsonArrayBuilder :=
  match bsonElement value with
  | some element => ⟨array.elements ++ [element]⟩
  | none => array

/-- `LLSFRefBox::clips_bson_array_finish`: the array appended under the field name; the
array builder is then deleted. -/
def clipsBsonArrayFinish (b : BsonBuilder) (fieldName : String) (array : BsonArrayBuilder) :
    BsonBuilder :=
  b.append fieldName (.array array.elements)

theorem foldl_clipsBsonArrayAppend (values : List ClipsArg) :
    ∀ array : BsonArrayBuilder,
      values.foldl clipsBsonArrayAppend array = ⟨array.elements ++ values.filterMap bsonElement⟩ := by
  induction values with
  | nil => simp
  | cons value rest inductionHypothesis =>
    intro array
    simp only [List.foldl_cons, inductionHypothesis, List.filterMap_cons, clipsBsonArrayAppend]
    cases bsonElement value <;> simp

/-- `bson-array-start`, one `bson-array-append` per value and `bson-array-finish` build the
document `bson-append-array` builds, for every builder, field and list of values. -/
theorem arrayBuilder_eq_appendArray (b : BsonBuilder) (fieldName : String) (values : List ClipsArg) :
    clipsBsonArrayFinish b fieldName (values.foldl clipsBsonArrayAppend clipsBsonArrayStart) =
      clipsBsonAppendArray b fieldName values := by
  rw [foldl_clipsBsonArrayAppend, clipsBsonArrayStart, List.nil_append, clipsBsonArrayFinish,
    clipsBsonAppendArray]

end RcllRefBox
