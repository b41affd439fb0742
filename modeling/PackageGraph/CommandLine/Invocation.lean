import PackageGraph.Text.Basic

/-!
# Invocations

The arguments of the program. An action says what to do with a project; options stand before it or
behind it, some of them in one of these places alone. An option has a long name behind two hyphens,
and may have a letter behind one hyphen; letters can be put together. A value follows its option as
the next argument, or is attached to it.

## Main definitions

* `Parameter.table`: the options by name and letter.
* `Invocation.ofArguments`: an action with the values of its options, or why there is none.
-/

namespace PackageGraph

/-- What the program is asked to do. -/
inductive Action where
  /-- Write the graph. -/
  | render
  /-- List the forbidden relations. -/
  | check
  /-- Print counts. -/
  | info
deriving DecidableEq, Inhabited

/-- The action of a name. -/
def Action.ofName? : String → Option Action
  | "render" => some .render
  | "check" => some .check
  | "info" => some .info
  | _ => none

/-- An option that takes a value. -/
inductive Setting where
  | project
  | config
  | output
  | format
  | layout
  | title
  | include
  | exclude
deriving DecidableEq, Inhabited

namespace Setting

/-- Is the value a path? Paths are not empty. -/
def isPath : Setting → Bool
  | .project | .config | .output => true
  | _ => false

/-- May the option be given several times? -/
def isRepeatable : Setting → Bool
  | .include | .exclude => true
  | _ => false

end Setting

/-- An option without a value. -/
inductive Switch where
  | verbose
  | help
  | version
deriving DecidableEq, Inhabited

/-- An option. -/
inductive Parameter where
  | setting (setting : Setting)
  | switch (switch : Switch)
deriving DecidableEq, Inhabited

namespace Parameter

/-- All options with their names and letters. -/
def table : List (Parameter × String × Option Char) :=
  [(.setting .project, "project", some 'p'),
    (.setting .config, "config", none),
    (.setting .output, "output", some 'o'),
    (.setting .format, "format", some 'f'),
    (.setting .layout, "layout", some 'l'),
    (.setting .title, "title", none),
    (.setting .include, "include", none),
    (.setting .exclude, "exclude", none),
    (.switch .verbose, "verbose", some 'v'),
    (.switch .help, "help", some 'h'),
    (.switch .version, "version", some 'V')]

/-- May an option stand behind this action, or before all actions? -/
def isAllowed (place : Option Action) : Parameter → Bool
  | .setting .project | .setting .config | .switch .verbose | .switch .help => true
  | .setting .output | .setting .format | .setting .layout | .setting .title => place = some .render
  | .setting .include | .setting .exclude => place.isSome
  | .switch .version => place.isNone

/-- The option with this name. -/
def ofName? (place : Option Action) (name : String) : Option Parameter :=
  (table.find? fun (parameter, name', _) => name' = name && parameter.isAllowed place).map (·.1)

/-- The option with this letter. -/
def ofLetter? (place : Option Action) (letter : Char) : Option Parameter :=
  (table.find? fun (parameter, _, letter') =>
    letter' = some letter && parameter.isAllowed place).map (·.1)

end Parameter

/-- What ends the reading of arguments early. -/
inductive Interruption where
  /-- The arguments are not understood. -/
  | misuse
  /-- The user asks for help. -/
  | help
  /-- The user asks for the version. -/
  | version
deriving DecidableEq, Inhabited

/-- An action with the values of its options in the order in which they were given. -/
structure Invocation where
  action : Action
  values : List (Setting × String)
deriving DecidableEq, Inhabited

namespace Invocation

/-- All values of an option. -/
def all (invocation : Invocation) (setting : Setting) : List String :=
  (invocation.values.filter (·.1 = setting)).map (·.2)

/-- The value of an option; one given behind the action counts more than one given before it. -/
def value? (invocation : Invocation) (setting : Setting) : Option String :=
  (invocation.all setting).getLast?

/-! ### Reading -/

/-- What was read of the arguments in one place. -/
structure Reading where
  values : List (Setting × String)
  /-- The option whose value is the next argument. -/
  pending : Option Setting
deriving DecidableEq, Inhabited

/-- Nothing read. -/
def Reading.start : Reading := ⟨[], none⟩

/-- Note the value of an option. -/
def Reading.add (reading : Reading) (setting : Setting) (value : String) :
    Except Interruption Reading :=
  if setting.isPath && value.isEmpty then .error .misuse
  else if !setting.isRepeatable && reading.values.any (·.1 = setting) then .error .misuse
  else .ok ⟨reading.values ++ [(setting, value)], none⟩

/-- Note an option with the value that is attached to it, if there is one. -/
def Reading.note (reading : Reading) : Parameter → Option String → Except Interruption Reading
  | .setting setting, some value => reading.add setting value
  | .setting setting, none => .ok { reading with pending := some setting }
  | .switch _, some _ => .error .misuse
  | .switch .verbose, none => .ok reading
  | .switch .help, none => .error .help
  | .switch .version, none => .error .version

/-- Read the name of an option and the value that may be attached to it by an equals sign. -/
def readName (place : Option Action) (reading : Reading) (text : List Char) :
    Except Interruption Reading :=
  let attached := match text.dropWhile (· ≠ '=') with
    | [] => none
    | _ :: value => some (String.ofList value)
  match Parameter.ofName? place (.ofList (text.takeWhile (· ≠ '='))) with
  | none => .error .misuse
  | some parameter => reading.note parameter attached

/-- Read letters. What stands behind the letter of an option that takes a value is the value, with
or without an equals sign. -/
def readLetters (place : Option Action) (reading : Reading) :
    List Char → Except Interruption Reading
  | [] => .ok reading
  | letter :: rest =>
    match Parameter.ofLetter? place letter with
    | none => .error .misuse
    | some (.setting setting) =>
      let attached := match rest with
        | [] => none
        | '=' :: value => some (String.ofList value)
        | value => some (String.ofList value)
      reading.note (.setting setting) attached
    | some (.switch switch) =>
      match reading.note (.switch switch) none with
      | .error interruption => .error interruption
      | .ok reading => readLetters place reading rest

/-- Read options up to the first argument that is none, and return it with the arguments behind it.
An option whose value is still to come takes the next argument, which must not look like an option
itself. Nothing may follow two hyphens alone. -/
def readOptions (place : Option Action) (reading : Reading) :
    List String → Except Interruption (Reading × Option (String × List String))
  | [] => if reading.pending.isSome then .error .misuse else .ok (reading, none)
  | argument :: rest =>
    match reading.pending, argument.toList with
    | some _, '-' :: _ :: _ => .error .misuse
    | some setting, _ =>
      match reading.add setting argument with
      | .error interruption => .error interruption
      | .ok reading => readOptions place reading rest
    | none, ['-', '-'] => if rest.isEmpty then .ok (reading, none) else .error .misuse
    | none, '-' :: '-' :: name =>
      match readName place reading name with
      | .error interruption => .error interruption
      | .ok reading => readOptions place reading rest
    | none, '-' :: letter :: letters =>
      match readLetters place reading (letter :: letters) with
      | .error interruption => .error interruption
      | .ok reading => readOptions place reading rest
    | none, _ => .ok (reading, some (argument, rest))

/-- The name that asks for help in the place of an action. -/
def helpName : String := "help"

/-- Are these names that help can be asked for? -/
def isHelpTopic : List String → Bool
  | [] => true
  | [name] => name = helpName || (Action.ofName? name).isSome
  | _ => false

/-- The invocation that some arguments spell. -/
def ofArguments (arguments : List String) : Except Interruption Invocation := do
  let (outer, next) ← readOptions none .start arguments
  match next with
  | none => throw .misuse
  | some (name, rest) =>
    if name = helpName then throw (if isHelpTopic rest then .help else .misuse)
    match Action.ofName? name with
    | none => throw .misuse
    | some action =>
      match ← readOptions (some action) .start rest with
      | (inner, none) => return ⟨action, outer.values ++ inner.values⟩
      | (_, some _) => throw .misuse

@[simp] theorem ofArguments_nil : ofArguments [] = .error .misuse := rfl

end Invocation

end PackageGraph
