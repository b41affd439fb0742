import PackageGraph.Disk.Entry
import PackageGraph.Glob.Match

/-!
# Ignore files

The lines of an ignore file are rules: a pattern for paths below the file's directory, and whether
a path that matches is ignored or, behind an exclamation mark, admitted again. The last rule that
applies to a path decides.

## Main definitions

* `Rule.ofLine`: the rule of a line.
* `RuleList.ofContent`: the rules of a file, together with the faults that were found in it.
* `RuleList.verdict?`: what the rules say about a path.
-/

namespace PackageGraph.Ignore

open Text

/-- What a rule says about the paths it applies to. -/
inductive Verdict where
  | ignored
  | admitted
deriving DecidableEq, Inhabited

/-- A rule of an ignore file. -/
structure Rule where
  /-- The pattern, for paths relative to the file's directory. -/
  glob : Glob
  verdict : Verdict
  /-- Does the rule apply to directories alone? -/
  directoriesOnly : Bool
deriving Inhabited

/-! ### Lines -/

/-- Wildcards stop at slashes, and a bracket that is never closed is literal. -/
def globOptions : Glob.Options := ⟨true, true⟩

/-- A line without the blanks at its end. They stay if the last one is a space behind a
backslash. -/
def dropEndBlanks (line : List Char) : List Char :=
  if hasSuffix ['\\', ' '] line then line else (line.reverse.dropWhile isBlank).reverse

/-- The marks at the beginning of a line, and what follows them: an exclamation mark admits, and a
slash ties the pattern to the file's directory. A backslash takes either first character of a line
that would be special there literally. -/
def readMarks : List Char → Verdict × Bool × List Char
  | '\\' :: '!' :: rest => (.ignored, false, '!' :: rest)
  | '\\' :: '#' :: rest => (.ignored, false, '#' :: rest)
  | '!' :: '/' :: rest => (.admitted, true, rest)
  | '!' :: rest => (.admitted, false, rest)
  | '/' :: rest => (.ignored, true, rest)
  | rest => (.ignored, false, rest)

/-- A slash at the end stands for directories only and is no part of the pattern, nor is a
backslash before it. -/
def readEnd (pattern : List Char) : Bool × List Char :=
  match pattern.reverse with
  | '/' :: '\\' :: rest => (true, rest.reverse)
  | '/' :: rest => (true, rest.reverse)
  | _ => (false, pattern)

/-- The pattern for whole paths. Without a slash it applies in every directory below, and what ends
in a double star applies to what is inside a directory but not to the directory. -/
def wholePattern (anchored : Bool) (pattern : List Char) : List Char :=
  let whole :=
    if anchored || pattern.contains '/' || pattern = ['*', '*'] then pattern
    else '*' :: '*' :: '/' :: pattern
  if hasSuffix ['/', '*', '*'] whole then whole ++ ['/', '*'] else whole

/-- The rule of a line, if it has one: comments and blank lines have none. -/
def Rule.ofLine (line : List Char) : Except Glob.Error (Option Rule) :=
  let text := dropEndBlanks line
  if text.isEmpty || text.head? = some '#' then .ok none
  else
    let (verdict, anchored, pattern) := readMarks text
    let (directoriesOnly, pattern) := readEnd pattern
    (Glob.ofText globOptions (.ofList (wholePattern anchored pattern))).map fun glob =>
      some ⟨glob, verdict, directoriesOnly⟩

/-- Does the rule apply to a path? -/
def Rule.applies (rule : Rule) (path : String) (isDirectory : Bool) : Bool :=
  (!rule.directoriesOnly || isDirectory) && rule.glob.isMatch globOptions path

/-! ### Files -/

/-- What is wrong with a line. -/
inductive Flaw where
  /-- Its text is no pattern. -/
  | noPattern (text : String) (reason : Glob.Error)
  /-- Its bytes are no text. -/
  | notText
deriving DecidableEq, Inhabited

/-- The wording of a flaw. -/
def Flaw.message : Flaw → String
  | .noPattern text reason => "error parsing glob '" ++ text ++ "': " ++ reason.message
  | .notText => "stream did not contain valid UTF-8"

/-- A faulty line of a file, by its number. -/
structure Fault where
  line : Nat
  flaw : Flaw
deriving DecidableEq, Inhabited

/-- The wording of a fault in the file with this path. -/
def Fault.message (fault : Fault) (path : String) : String :=
  path ++ ": line " ++ toString fault.line ++ ": " ++ fault.flaw.message

/-- The rules of a file in its order, and its faults. -/
structure RuleList where
  rules : List Rule
  faults : List Fault
deriving Inhabited

namespace RuleList

/-- The rules of a file that is not there. -/
def none : RuleList := ⟨[], []⟩

/-- The lines of some bytes, each as text if it is text. -/
def linesOfBytes (bytes : List UInt8) : List (Option (List Char)) :=
  let decode (line : List UInt8) := (String.fromUTF8? ⟨line.toArray⟩).map (·.toList)
  let parts := bytes.splitOn 0x0A
  parts.dropLast.map (fun line => (decode line).map dropReturn) ++
    (parts.getLast?.toList.filter (!·.isEmpty)).map decode

/-- Read lines, the first of which has this number. Reading ends at a line that is no text; a line
that is no rule is passed over. -/
def ofLines (number : Nat) : List (Option (List Char)) → RuleList
  | [] => none
  | .none :: _ => ⟨[], [⟨number, .notText⟩]⟩
  | some line :: rest =>
    let others := ofLines (number + 1) rest
    match Rule.ofLine line with
    | .ok (some rule) => { others with rules := rule :: others.rules }
    | .ok .none => others
    | .error reason =>
      let text := String.ofList (dropEndBlanks line)
      { others with faults := ⟨number, .noPattern text reason⟩ :: others.faults }

/-- The mark that may stand at the beginning of a file. -/
def byteOrderMark : Char := '\uFEFF'

/-- The rules of a file's content. Byte order marks at its beginning are dropped. -/
def ofContent (content : Content) : RuleList :=
  match linesOfBytes content.bytes with
  | some line :: rest => ofLines 1 (some (line.dropWhile (· = byteOrderMark)) :: rest)
  | lines => ofLines 1 lines

/-- The rules of a file that may not be there. A directory has none. -/
def ofEntry : Option Entry → RuleList
  | some (.file content) => ofContent content
  | _ => none

/-- What the rules say about a path: the last one that applies decides. -/
def verdict? (list : RuleList) (path : String) (isDirectory : Bool) : Option Verdict :=
  (list.rules.reverse.find? (·.applies path isDirectory)).map (·.verdict)

/-- The faults that count. A file in which one line is no text and nothing else is wrong passes. -/
def reported (list : RuleList) : List Fault :=
  match list.faults with
  | [⟨_, .notText⟩] => []
  | faults => faults

@[simp] theorem verdict?_none (path : String) (isDirectory : Bool) :
    none.verdict? path isDirectory = .none := rfl

@[simp] theorem ofEntry_none : ofEntry .none = none := rfl

end RuleList

end PackageGraph.Ignore
