/-!
# Words of a command line

A word that starts with two hyphens names an option or a switch in full, and a word that
starts with one hyphen names them by letters, several of which may stand together.  The value
of an option may be attached to it, behind an equals sign or, after a letter, directly;
otherwise it is the next plain word.  The word of two hyphens ends all naming: no word behind
it is expected.  A single hyphen is a plain word.

`Piece.ofWords` says what the words stand for, one after the other and without regard to each
other.  Whether they make sense together is another matter.
-/

set_option autoImplicit false

namespace LogSplit

/-- An option that takes a value. -/
inductive ValueOption where
  /-- The log that is read. -/
  | input
  /-- The predicate. -/
  | predicate
  /-- The stem of the segment files. -/
  | stem
  /-- The directory that receives them. -/
  | outputDir
  /-- The configuration file. -/
  | config
  deriving DecidableEq, Repr

/-- An option without a value. -/
inductive Switch where
  /-- A predicate without conditions is an error. -/
  | strict
  /-- Files of earlier runs stay. -/
  | noClean
  /-- The report is shown as JSON. -/
  | json
  /-- Nothing is shown. -/
  | quiet
  /-- The help text is wanted. -/
  | help
  /-- The version is wanted. -/
  | version
  deriving DecidableEq, Repr

/-- The full name of an option. -/
def ValueOption.name : ValueOption → String
  | input => "input"
  | predicate => "predicate"
  | stem => "output"
  | outputDir => "output-dir"
  | config => "config"

/-- What stands for the value of an option in explanations. -/
def ValueOption.placeholder : ValueOption → String
  | input => "<FILE>"
  | predicate => "<PREDICATE>"
  | stem => "<PREFIX>"
  | outputDir => "<DIR>"
  | config => "<FILE>"

/-- An option as messages show it. -/
def ValueOption.label (o : ValueOption) : String := "--" ++ o.name ++ " " ++ o.placeholder

/-- The full name of a switch. -/
def Switch.name : Switch → String
  | strict => "strict"
  | noClean => "no-clean"
  | json => "json"
  | quiet => "quiet"
  | help => "help"
  | version => "version"

/-- A switch as messages show it. -/
def Switch.label (s : Switch) : String := "--" ++ s.name

/-- What a name stands for. -/
inductive Named where
  /-- An option. -/
  | option (o : ValueOption)
  /-- A switch. -/
  | switch (s : Switch)
  deriving DecidableEq, Repr

namespace Named

/-- What a full name stands for. -/
def ofName? (name : String) : Option Named :=
  match name with
  | "input" => some (option .input)
  | "predicate" => some (option .predicate)
  | "output" => some (option .stem)
  | "output-dir" => some (option .outputDir)
  | "config" => some (option .config)
  | "strict" => some (switch .strict)
  | "no-clean" => some (switch .noClean)
  | "json" => some (switch .json)
  | "quiet" => some (switch .quiet)
  | "help" => some (switch .help)
  | "version" => some (switch .version)
  | _ => none

/-- What a letter stands for. -/
def ofLetter? (letter : Char) : Option Named :=
  match letter with
  | 'i' => some (option .input)
  | 'p' => some (option .predicate)
  | 'o' => some (option .stem)
  | 'd' => some (option .outputDir)
  | 'q' => some (switch .quiet)
  | 'h' => some (switch .help)
  | 'V' => some (switch .version)
  | _ => none

end Named

/-- What a word, or a part of one, stands for. -/
inductive Piece where
  /-- An option, with its value if that is attached. -/
  | option (o : ValueOption) (attached : Option String)
  /-- A switch. -/
  | switch (s : Switch)
  /-- A switch with a value attached to it. -/
  | overloaded (s : Switch) (attached : String)
  /-- A word that can be the value of the option before it. -/
  | plain (word : String)
  /-- A word that nothing can be made of. -/
  | unexpected (word : String)
  deriving DecidableEq, Repr

namespace Piece

/-- The value behind a letter, where one equals sign in front does not count. -/
def attachedValue? : List Char → Option String
  | [] => none
  | '=' :: cs => some (String.ofList cs)
  | cs => some (String.ofList cs)

/-- What a row of letters stands for, up to an option that takes the rest as its value, or to
a letter that is no name. -/
def ofLetters : List Char → List Piece
  | [] => []
  | c :: cs =>
    match Named.ofLetter? c with
    | some (.switch s) => switch s :: ofLetters cs
    | some (.option o) => [option o (attachedValue? cs)]
    | none => [unexpected (String.ofList ['-', c])]

/-- What a full name stands for, with whatever follows an equals sign attached to it. -/
def ofLongWord (cs : List Char) : Piece :=
  let name := String.ofList (cs.takeWhile (· ≠ '='))
  let attached := match cs.dropWhile (· ≠ '=') with
    | [] => none
    | _ :: value => some (String.ofList value)
  match Named.ofName? name, attached with
  | some (.option o), attached => option o attached
  | some (.switch s), none => switch s
  | some (.switch s), some value => overloaded s value
  | none, _ => unexpected ("--" ++ name)

/-- What a word stands for. -/
def ofWord (word : String) : List Piece :=
  match word.toList with
  | '-' :: '-' :: cs => [ofLongWord cs]
  | '-' :: c :: cs => ofLetters (c :: cs)
  | _ => [plain word]

/-- What words stand for. -/
def ofWords : List String → List Piece
  | [] => []
  | word :: rest =>
    if word = "--" then rest.map unexpected else ofWord word ++ ofWords rest

end Piece

end LogSplit
