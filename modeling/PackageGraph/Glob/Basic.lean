import PackageGraph.Text.Basic

/-!
# Globs

Patterns for paths. A star stands for any text and a question mark for any byte; a double star that
fills a component of a path stands for any number of components; brackets stand for one of some
bytes and braces for one of some patterns; a backslash takes the next character literally.

## Main definitions

* `Glob.Token` and `Glob`: a pattern as a list of tokens.
* `Glob.ofText?`: reads a pattern, and says why it cannot if it is none.
-/

namespace PackageGraph

namespace Glob

/-- A part of a pattern. -/
inductive Token where
  | literal (c : Char)
  /-- Any one byte. -/
  | anyByte
  /-- Any text. -/
  | anyText
  /-- A double star at the beginning, with the slash behind it: any directories or none. -/
  | leadingDirectories
  /-- A double star at the end, with the slash before it: anything below. -/
  | everythingBelow
  /-- A double star with the slashes around it: a slash, or any directories between two. -/
  | innerDirectories
  /-- A byte inside these ranges, or outside them. -/
  | byteIn (negated : Bool) (ranges : List (Char × Char))
  /-- One of some patterns. -/
  | oneOf (branches : List (List Token))
deriving Inhabited

/-- Why a text is no pattern. -/
inductive Error where
  | unclosedClass
  | invalidRange (low high : Char)
  | unopenedGroup
  | unclosedGroup
  | danglingEscape
deriving DecidableEq, Inhabited

/-- The wording of an error. -/
def Error.message : Error → String
  | .unclosedClass => "unclosed character class; missing ']'"
  | .invalidRange low high =>
    "invalid range; '" ++ low.toString ++ "' > '" ++ high.toString ++ "'"
  | .unopenedGroup =>
    "unopened alternate group; missing '\x7b' (maybe escape '\x7d' with '[\x7d]'?)"
  | .unclosedGroup =>
    "unclosed alternate group; missing '\x7d' (maybe escape '\x7b' with '[\x7b]'?)"
  | .danglingEscape => "dangling '\\'"

/-- How patterns are read and matched. -/
structure Options where
  /-- Do single stars, question marks and brackets stop at a slash? -/
  stopsAtSlash : Bool
  /-- Is a bracket that is never closed taken literally? -/
  allowsUnclosedClass : Bool
deriving DecidableEq, Inhabited

/-- Wildcards match slashes, and every bracket has to be closed. -/
def Options.plain : Options := ⟨false, false⟩

end Glob

/-- A pattern for paths. -/
structure Glob where
  tokens : List Glob.Token
deriving Inhabited

namespace Glob

/-! ### Brackets -/

/-- The inside of a bracket that is being read. -/
structure ClassState where
  /-- The ranges so far, last one first. -/
  ranges : List (Char × Char)
  /-- Is nothing read yet? -/
  isFirst : Bool
  /-- Was a hyphen read that makes a range of the last character and the next one? -/
  inRange : Bool

/-- Add a character, which may end a range. -/
def ClassState.add (state : ClassState) (c : Char) : Except Error ClassState :=
  match state.inRange, state.ranges with
  | true, (low, _) :: rest =>
    if c < low then .error (.invalidRange low c) else .ok ⟨(low, c) :: rest, false, false⟩
  | _, ranges => .ok ⟨(c, c) :: ranges, false, false⟩

/-- The ranges of a bracket that ends here. A hyphen before its end is literal. -/
def ClassState.finish (state : ClassState) : List (Char × Char) :=
  (if state.inRange then ('-', '-') :: state.ranges else state.ranges).reverse

/-- Read up to the end of a bracket. The first character is literal, whatever it is. -/
def readRanges (state : ClassState) : List Char → Except Error (List (Char × Char) × List Char)
  | [] => .error .unclosedClass
  | c :: rest =>
    if c = ']' ∧ !state.isFirst then .ok (state.finish, rest)
    else if c = '-' ∧ !state.isFirst ∧ !state.inRange then
      readRanges { state with inRange := true } rest
    else
      match state.add c with
      | .error e => .error e
      | .ok state => readRanges state rest

/-- Read the inside of a bracket, which may begin with a mark that negates it. -/
def readClass (cs : List Char) : Except Error (Token × List Char) :=
  let (negated, inside) := match cs with
    | c :: rest => if c = '!' ∨ c = '^' then (true, rest) else (false, cs)
    | [] => (false, cs)
  (readRanges ⟨[], true, false⟩ inside).map fun (ranges, rest) => (.byteIn negated ranges, rest)

/-! ### Patterns -/

/-- A group of braces that is not closed yet. -/
structure OpenGroup where
  /-- The tokens before the group, last one first. -/
  before : List Token
  /-- The branches that were finished, last one first. -/
  branches : List (List Token)

/-- What was read of a pattern. -/
structure State where
  /-- The tokens of the branch that is being read, last one first. -/
  current : List Token
  /-- The groups around that branch, innermost first. -/
  groups : List OpenGroup
  /-- The last character that was read. -/
  last : Option Char
  /-- Are brackets taken literally, since one was not closed? -/
  literalBrackets : Bool

/-- Nothing read. -/
def State.start : State := ⟨[], [], none, false⟩

/-- Add a token that ends with a character. -/
def State.push (state : State) (token : Token) (last : Char) : State :=
  { state with current := token :: state.current, last := some last }

/-- Add two stars that are not special. -/
def State.pushStars (state : State) : State := (state.push .anyText '*').push .anyText '*'

/-- Put a double star that fills a component in the place of the slash before it. Next to another
one it adds nothing. -/
def State.pushDirectories (state : State) (atEnd : Bool) (last : Char) : State :=
  let token := if atEnd then Token.everythingBelow else .innerDirectories
  let current := match state.current with
    | .leadingDirectories :: rest => .leadingDirectories :: rest
    | .everythingBelow :: rest => .everythingBelow :: rest
    | _ :: rest => token :: rest
    | [] => [token]
  { state with current, last := some last }

/-- Read a double star behind its two stars. It is special at the beginning of a branch and behind
a slash, if a slash or the end of the branch follows. -/
def readDoubleStar (state : State) (rest : List Char) : State × List Char :=
  if state.current.isEmpty then
    match rest with
    | [] => (state.push .leadingDirectories '*', [])
    | c :: after =>
      if c = '/' then (state.push .leadingDirectories '/', after) else (state.pushStars, rest)
  else if state.last ≠ some '/' ∧
      (state.groups.isEmpty ∨ (state.last ≠ some ',' ∧ state.last ≠ some '\x7b')) then
    (state.pushStars, rest)
  else
    match rest with
    | [] => (state.pushDirectories true '*', [])
    | c :: after =>
      if (c = ',' ∨ c = '\x7d') ∧ !state.groups.isEmpty then (state.pushDirectories true '*', rest)
      else if c = '/' then (state.pushDirectories false '/', after)
      else (state.pushStars, rest)

/-- Begin a group. -/
def State.openGroup (state : State) : State :=
  { state with current := [], groups := ⟨state.current, []⟩ :: state.groups, last := some '\x7b' }

/-- Begin the next branch of a group. Outside groups a comma is literal. -/
def State.nextBranch (state : State) : State :=
  match state.groups with
  | [] => state.push (.literal ',') ','
  | ⟨before, branches⟩ :: outer =>
    { state with
      current := []
      groups := ⟨before, state.current.reverse :: branches⟩ :: outer
      last := some ',' }

/-- End a group. -/
def State.closeGroup (state : State) : Except Error State :=
  match state.groups with
  | [] => .error .unopenedGroup
  | ⟨before, branches⟩ :: outer =>
    .ok { state with
      current := .oneOf (state.current.reverse :: branches).reverse :: before
      groups := outer
      last := some '\x7d' }

/-- Read one character of a pattern, and what belongs to it. -/
def readOne (options : Options) (state : State) (c : Char) (rest : List Char) :
    Except Error (State × List Char) :=
  match c with
  | '?' => .ok (state.push .anyByte c, rest)
  | '*' =>
    match rest with
    | '*' :: after => .ok (readDoubleStar state after)
    | _ => .ok (state.push .anyText c, rest)
  | '[' =>
    if state.literalBrackets then .ok (state.push (.literal c) c, rest)
    else
      match readClass rest with
      | .ok (token, after) => .ok (state.push token ']', after)
      | .error .unclosedClass =>
        if options.allowsUnclosedClass then
          .ok ({ state.push (.literal c) c with literalBrackets := true }, rest)
        else .error .unclosedClass
      | .error e => .error e
  | '\x7b' => .ok (state.openGroup, rest)
  | '\x7d' => state.closeGroup.map (·, rest)
  | ',' => .ok (state.nextBranch, rest)
  | '\\' =>
    match rest with
    | [] => .error .danglingEscape
    | escaped :: after => .ok (state.push (.literal escaped) escaped, after)
  | c => .ok (state.push (.literal c) c, rest)

/-- Read a pattern. Each step reads a character at least, which bounds the number of steps. -/
def readFrom (options : Options) : Nat → State → List Char → Except Error State
  | _, state, [] => .ok state
  | 0, state, _ :: _ => .ok state
  | fuel + 1, state, c :: rest =>
    match readOne options state c rest with
    | .error e => .error e
    | .ok (state, rest) => readFrom options fuel state rest

/-- The pattern of a text. -/
def ofText (options : Options) (text : String) : Except Error Glob :=
  match readFrom options text.toList.length .start text.toList with
  | .error e => .error e
  | .ok state => if state.groups.isEmpty then .ok ⟨state.current.reverse⟩ else .error .unclosedGroup

@[simp] theorem start_groups : State.start.groups = [] := rfl

end Glob

end PackageGraph
