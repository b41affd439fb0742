import PackageGraph.Go.Grammar.Goal

/-!
# Types

The rules for types: names, pointers, arrays, maps, channels, functions, structures and interfaces,
and the parameters and results of functions.
-/

namespace PackageGraph.Go.Grammar

open PackageGraph.Parser Parse

/-- One or more types with bars between them. -/
def unionType (recur : Recur) (context : Context) : Parse Tree := do
  let first ← recur.type context
  let rest ← many do
    stays context
    mark "|"
    recur.type context
  return if rest.isEmpty then first else .ofForm .unionType (first :: rest)

/-- The arguments of a generic type. -/
def typeArguments (recur : Recur) : Parse (List Tree) := do
  let arguments ← enclosedList "[" (unionType recur .enclosed) "]"
  if arguments.isEmpty then failure
  return arguments

/-- The name of a type, perhaps with a qualifier. -/
def typeName (context : Context) : Parse Tree := do
  let name ← identifier
  let field ← optional do
    stays context
    mark "."
    identifier
  return match field with
    | some field => .leaf (.qualifiedType name field)
    | none => .leaf (.typeName name)

/-- The name of a type, perhaps with arguments. -/
def namedType (recur : Recur) (context : Context) : Parse Tree := do
  let name ← typeName context
  let arguments ← optional do
    stays context
    typeArguments recur
  return match arguments with
    | some arguments => .ofForm .genericType (name :: arguments)
    | none => name

/-- A slice, or an array with its length. -/
def arrayType (recur : Recur) (context : Context) : Parse Tree := do
  mark "["
  if ← seesMark "]" then
    mark "]"
    return .ofForm .sliceType [← recur.type context]
  let length ← recur.value .enclosed
  mark "]"
  return .ofForm .arrayType [length, ← recur.type context]

def mapType (recur : Recur) (context : Context) : Parse Tree := do
  keyword "map"
  mark "["
  let key ← recur.type .enclosed
  mark "]"
  return .ofForm .mapType [key, ← recur.type context]

/-- A channel, whose arrow may stand before or after its keyword. -/
def channelType (recur : Recur) (context : Context) : Parse Tree := do
  if ← seesMark "<-" then
    mark "<-"
    keyword "chan"
  else
    keyword "chan"
    discard (optional (mark "<-"))
  return .ofForm .channelType [← recur.type context]

/-! ### Functions -/

/-- A parameter: a type, with a name before it or not. -/
def parameter (recur : Recur) : Parse Tree :=
  (do
    let name ← identifier
    discard (optional (mark "..."))
    return .ofForm .parameter [.leaf (.token name), ← recur.type .enclosed]) <|>
  (do
    discard (optional (mark "..."))
    return .ofForm .parameter [← recur.type .enclosed])

def parameters (recur : Recur) : Parse Tree :=
  return .ofForm .parameters (← enclosedList "(" (parameter recur) ")")

/-- The parameters and the results of a function. -/
def signature (recur : Recur) (context : Context) : Parse Tree := do
  let inputs ← parameters recur
  let results ← optional do
    stays context
    if ← seesMark "(" then parameters recur else recur.type context
  return .ofForm .signature (inputs :: results.toList)

def functionType (recur : Recur) (context : Context) : Parse Tree := do
  keyword "func"
  return .ofForm .functionType [← signature recur context]

/-- A name among type parameters, with its constraint if that follows. -/
def typeParameter (recur : Recur) : Parse (String × Option Tree) := do
  return (← identifier, ← optional (unionType recur .enclosed))

/-- The type parameters of a declaration. A constraint holds for all names before it, so the last
name has one. -/
def typeParameters (recur : Recur) : Parse Tree := do
  let entries ← enclosedList "[" (typeParameter recur) "]"
  match entries.getLast? with
  | some (_, some _) => return .ofForm .typeParameters (entries.filterMap (·.2))
  | _ => failure

/-! ### Structures and interfaces -/

/-- A tag behind a field. -/
def tag : Parse Unit := do
  stays .line
  discard text

/-- Succeed where the line of a field ends. -/
def fieldEnd : Parse Unit := do
  if !(← sees fun t => t.afterBreak || isMark ";" t || isMark "\x7d" t) then failure

/-- A type that is embedded in a structure. -/
def embeddedField (recur : Recur) : Parse Tree := do
  discard (optional (mark "*"))
  let type ← namedType recur .line
  discard (optional tag)
  fieldEnd
  return .ofForm .field [type]

/-- Fields of a structure, with their common type. -/
def namedFields (recur : Recur) : Parse Tree := do
  discard (commaList identifier)
  let type ← recur.type .line
  discard (optional tag)
  return .ofForm .field [type]

def structType (recur : Recur) : Parse Tree := do
  keyword "struct"
  mark "\x7b"
  -- An array after a name looks like type arguments until its element type follows.
  let fields ← lines "\x7d" (embeddedField recur <|> namedFields recur)
  mark "\x7d"
  return .ofForm .structType fields

/-- A method of an interface. -/
def method (recur : Recur) : Parse Tree := do
  discard identifier
  return .ofForm .method [← signature recur .line]

def interfaceType (recur : Recur) : Parse Tree := do
  keyword "interface"
  mark "\x7b"
  let elements ← lines "\x7d" (method recur <|> unionType recur .line)
  mark "\x7d"
  return .ofForm .interfaceType elements

/-! ### All types -/

/-- A type that begins with a mark. -/
def markedType (recur : Recur) (context : Context) (text : String) : Parse Tree :=
  match text with
  | "(" => do
    mark "("
    let inner ← recur.type .enclosed
    mark ")"
    return .ofForm .parentheses [inner]
  | "*" => do
    mark "*"
    return .ofForm .pointerType [← recur.type context]
  | "~" => do
    mark "~"
    recur.type context
  | "[" => arrayType recur context
  | "<-" => channelType recur context
  | _ => failure

/-- A type that begins with a keyword. -/
def keywordType (recur : Recur) (context : Context) (text : String) : Parse Tree :=
  match text with
  | "map" => mapType recur context
  | "chan" => channelType recur context
  | "func" => functionType recur context
  | "struct" => structType recur
  | "interface" => interfaceType recur
  | _ => failure

/-- A type. -/
def type (recur : Recur) (context : Context) : Parse Tree := do
  let first ← peek
  match first.kind with
  | .identifier => namedType recur context
  | .mark => markedType recur context first.text
  | .keyword => keywordType recur context first.text
  | _ => failure

end PackageGraph.Go.Grammar
