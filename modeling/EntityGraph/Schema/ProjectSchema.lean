import EntityGraph.Schema.Validation

/-!
# The schema of project documents

The schema that every project document is checked against, as a document. It demands what the
loaders demand, and besides that the kinds of everything the loaders take as it is.
-/

namespace EntityGraph.Schema

/-- A mapping with texts as keys. -/
def mapping (entries : List (String × Value)) : Value :=
  .map (entries.map fun e ↦ (.str e.1, e.2))

/-- A sequence of texts. -/
def textList (ss : List String) : Value := .seq (ss.map fun (s : String) ↦ .str s)

/-- The schema of values of one kind. -/
def ofType (name : String) : Value := mapping [("type", .str name)]

/-- The schema of values of several kinds. -/
def ofTypes (names : List String) : Value := mapping [("type", textList names)]

/-- The schema of a definition. -/
def definition (name : String) : Value := mapping [("$ref", .str ("#/definitions/" ++ name))]

/-- The schema of tables whose entries meet a definition. -/
def tableOf (name : String) : Value :=
  mapping [("type", .str "object"), ("additionalProperties", definition name)]

/-- The schema of mappings with required keys. -/
def node (required : List String) (properties : List (String × Value)) : Value :=
  mapping [("type", .str "object"), ("required", textList required),
    ("properties", mapping properties)]

/-- The schema of an element path that may be null. -/
def optionalPath : Value :=
  mapping [("oneOf", .seq [ofType "null", definition "elementPath"])]

/-- If the tag of a type is this one, its payload is there and meets a schema. -/
def payload (tag key : String) (schema : Value) : Value :=
  mapping
    [("if", mapping
        [("required", textList ["type"]),
          ("properties", mapping [("type", mapping [("const", .str tag)])])]),
      ("then", mapping
        [("required", textList [key]), ("properties", mapping [(key, schema)])])]

/-- The first of some whole numbers. -/
def wholeNumbers (count : Nat) : List Value := (List.range count).map fun (n : Nat) ↦ .int n

/-- The comment and the settings that many nodes carry. -/
def remarkProperties : List (String × Value) :=
  [("comment", definition "comment"), ("config", definition "config")]

def fieldTypeSchema : Value :=
  mapping
    [("type", .str "object"), ("required", textList ["type"]),
      ("properties", mapping
        [("type", mapping
          [("enum", textList
            ["TInteger", "TLong", "TDouble", "TID", "TURL", "TDateTime", "TBoolean", "TString",
              "TSSMap", "TObject", "TEnum", "TList", "TUnknown"])])]),
      ("allOf", .seq
        [payload "TObject" "entity" (definition "elementPath"),
          payload "TEnum" "enu" (definition "elementPath"),
          payload "TList" "member" (definition "fieldType"),
          payload "TUnknown" "unknown" (ofType "string")])]

def fieldSchema : Value :=
  node ["type", "isOptional", "isPathParameter"]
    ([("type", definition "fieldType"), ("isOptional", ofType "boolean"),
      ("isPathParameter", ofType "boolean"), ("realname", ofTypes ["string", "null"]),
      ("fixedValue", mapping [])] ++ remarkProperties)

def entitySchema : Value :=
  node ["type", "isAbstract", "fieldsLocal", "genericMap"]
    ([("type", mapping [("enum", .seq (wholeNumbers 3))]), ("isAbstract", ofType "boolean"),
      ("parent", optionalPath), ("response", optionalPath),
      ("path", ofTypes ["string", "null"]),
      ("method", mapping [("enum", .seq (wholeNumbers 11 ++ [.null]))]),
      ("fieldsLocal", tableOf "field"), ("genericMap", tableOf "field")] ++ remarkProperties)

/-- The schemas that others refer to. -/
def projectDefinitions : List (String × Value) :=
  [("comment", ofTypes ["string", "null"]),
    ("config", mapping
      [("type", textList ["object", "null"]), ("additionalProperties", ofType "string")]),
    ("elementPath", mapping
      [("type", .str "object"),
        ("properties", mapping
          [("module", ofTypes ["string", "null"]), ("name", ofTypes ["string", "null"])])]),
    ("fieldType", fieldTypeSchema),
    ("field", fieldSchema),
    ("entity", entitySchema),
    ("enumItem", node ["value"]
      ([("value", ofType "number"), ("realname", ofTypes ["string", "null"])] ++
        remarkProperties)),
    ("enum", node ["enumMap"] (("enumMap", tableOf "enumItem") :: remarkProperties)),
    ("module", node ["entities"] [("entities", tableOf "entity"), ("enums", tableOf "enum")])]

/-- The schema of project documents. -/
def projectSchema : Value :=
  mapping
    [("$schema", .str "http://json-schema.org/draft-07/schema#"),
      ("title", .str "Entity schema project"),
      ("type", .str "object"),
      ("required", textList ["modules"]),
      ("properties", mapping
        [("name", ofType "string"), ("version", ofType "string"),
          ("targetPackage", ofType "string"), ("modules", tableOf "module")]),
      ("definitions", mapping projectDefinitions)]

end EntityGraph.Schema
