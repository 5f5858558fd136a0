import LogSplit.Yaml.Token

/-!
# Documents that are one mapping of scalars

A configuration is a single document whose root is a mapping, written in lines or between braces,
from scalars to scalars.  Anything else inside the mapping is malformed for this purpose, and so
is a second document.  A key or a value that is left out is an empty plain scalar, and a document
without a root counts as an empty mapping.

A node may have an anchor, under which it can be written again as an alias.
-/

set_option autoImplicit false

namespace LogSplit.Yaml

/-- The keys and values of a mapping, in order. -/
abbrev Mapping := List (Scalar × Scalar)

/-- What a key or a value is written as. -/
inductive Node where
  /-- A scalar, with an anchor or without. -/
  | scalar (anchor : Option String) (s : Scalar)
  /-- The node with an anchor. -/
  | alias (name : String)
  deriving DecidableEq, Repr

/-- The node that is left out. -/
def Node.absent : Node := .scalar none .absent

/-! ## Nodes and entries -/

/-- What is said about a node in front of it. -/
structure Properties where
  /-- Its anchor. -/
  anchor : Option String
  /-- Its tag. -/
  tag : Option String
  deriving DecidableEq, Repr

/-- Whether nothing is said. -/
def Properties.isEmpty (p : Properties) : Bool := p.anchor.isNone && p.tag.isNone

/-- Reads an anchor, if there is one. -/
def takeAnchor : List Token → Option String × List Token
  | .anchor name :: rest => (some name, rest)
  | tokens => (none, tokens)

/-- Reads a tag, if there is one.  Its handle has to be known. -/
def takeTag? (preamble : Preamble) : List Token → Option (Option String × List Token)
  | .tag written :: rest => (preamble.tag? written).map fun tag => (some tag, rest)
  | tokens => some (none, tokens)

/-- Reads an anchor and a tag, in either order. -/
def takeProperties? (preamble : Preamble) (tokens : List Token) :
    Option (Properties × List Token) := do
  let (before, tokens) := takeAnchor tokens
  let (tag, tokens) ← takeTag? preamble tokens
  let (behind, tokens) := if before.isSome then (none, tokens) else takeAnchor tokens
  some (⟨before <|> behind, tag⟩, tokens)

/-- Reads a node.  On a scalar that is there, a lone exclamation mark counts as no tag. -/
def node? (preamble : Preamble) (tokens : List Token) : Option (Node × List Token) :=
  match tokens with
  | .alias name :: rest => some (.alias name, rest)
  | _ => do
    let (properties, rest) ← takeProperties? preamble tokens
    match rest with
    | .scalar s :: rest =>
      some (.scalar properties.anchor { s with tag := properties.tag.filter (· ≠ "!") }, rest)
    | _ =>
      if properties.isEmpty then none
      else some (.scalar properties.anchor { Scalar.absent with tag := properties.tag }, rest)

/-- Reads a node that is left out where a token comes that is no part of one. -/
def nodeUnless? (preamble : Preamble) (isEnd : Token → Bool) (tokens : List Token) :
    Option (Node × List Token) :=
  if tokens.head?.any isEnd then some (.absent, tokens) else node? preamble tokens

/-- A token in front of which a node is left out in lines. -/
def endsInLines : Token → Bool
  | .key | .value | .linesEnd => true
  | _ => false

/-- A token in front of which a node is left out between braces. -/
def endsInBraces : Token → Bool
  | .comma | .braceClose => true
  | _ => false

/-- Reads a value with its sign, or leaves it out. -/
def valueUnless? (preamble : Preamble) (isEnd : Token → Bool) :
    List Token → Option (Node × List Token)
  | .value :: rest => nodeUnless? preamble isEnd rest
  | tokens => some (.absent, tokens)

/-- Reads the entries of a mapping in lines up to its end, of which there are fewer than
`fuel`. -/
def lineEntries? (preamble : Preamble) (fuel : Nat) (tokens : List Token) :
    Option (List (Node × Node) × List Token) :=
  match fuel, tokens with
  | _, .linesEnd :: rest => some ([], rest)
  | fuel + 1, .key :: rest => do
    let (key, rest) ← nodeUnless? preamble endsInLines rest
    let (value, rest) ← valueUnless? preamble endsInLines rest
    let (entries, rest) ← lineEntries? preamble fuel rest
    some ((key, value) :: entries, rest)
  | _, _ => none

/-- Reads an entry between braces.  Without the token of a key it has no value. -/
def braceEntry? (preamble : Preamble) : List Token → Option ((Node × Node) × List Token)
  | .key :: rest => do
    let (key, rest) ←
      nodeUnless? preamble (fun token => endsInBraces token || token == .value) rest
    let (value, rest) ← valueUnless? preamble endsInBraces rest
    some ((key, value), rest)
  | tokens => (node? preamble tokens).map fun (key, rest) => ((key, .absent), rest)

/-- Reads the entries of a mapping between braces up to its end, of which there are fewer than
`fuel`.  A comma may stand behind the last one too. -/
def braceEntries? (preamble : Preamble) (fuel : Nat) (tokens : List Token) :
    Option (List (Node × Node) × List Token) :=
  match fuel, tokens with
  | _, .braceClose :: rest => some ([], rest)
  | 0, _ => none
  | fuel + 1, tokens => do
    let (entry, rest) ← braceEntry? preamble tokens
    match rest with
    | .comma :: rest =>
      let (entries, rest) ← braceEntries? preamble fuel rest
      some (entry :: entries, rest)
    | .braceClose :: rest => some ([entry], rest)
    | _ => none

/-! ## Documents -/

/-- A document as it is written: the anchor of its root and the entries. -/
structure Document where
  /-- The anchor of the root. -/
  anchor : Option String
  /-- The keys and values. -/
  entries : List (Node × Node)
  deriving DecidableEq, Repr

namespace Document

/-- A document without a root. -/
def empty : Document := ⟨none, []⟩

/-- Reads a root, which may be left out behind its properties. -/
def root? (preamble : Preamble) (tokens : List Token) : Option (Document × List Token) := do
  let (properties, rest) ← takeProperties? preamble tokens
  let fuel := rest.length + 1
  match rest with
  | .linesStart :: rest =>
    let (entries, rest) ← lineEntries? preamble fuel rest
    some (⟨properties.anchor, entries⟩, rest)
  | .braceOpen :: rest =>
    let (entries, rest) ← braceEntries? preamble fuel rest
    some (⟨properties.anchor, entries⟩, rest)
  | .scalar _ :: _ => none
  | _ => if properties.isEmpty then none else some (empty, rest)

/-- Reads the directives in front of a document. -/
def takeDirectives? (preamble : Preamble) : List Token → Option (Preamble × List Token)
  | .directive d :: rest => do takeDirectives? (← preamble.add? d) rest
  | tokens => some (preamble, tokens)

/-- Whether a document has no root if the token comes behind its start. -/
def isOutside : Token → Bool
  | .directive _ | .documentStart | .documentEnd => true
  | _ => false

/-- Reads a document.  Its start has to be marked if directives stand in front of it or if it has
no root. -/
def first? (tokens : List Token) : Option (Document × List Token) := do
  let (preamble, rest) ← takeDirectives? .empty tokens
  match rest with
  | .documentStart :: rest =>
    if rest.head?.all isOutside then some (empty, rest) else root? preamble rest
  | _ => if rest.length = tokens.length then root? preamble rest else none

/-- Reads a text of one document at most, behind which nothing but marks of its end may come. -/
def ofText? (text : String) : Option Document := do
  match ← Token.ofText? text with
  | [] => some empty
  | tokens =>
    let (document, rest) ← first? tokens
    if (rest.dropWhile (· == .documentEnd)).isEmpty then some document else none

end Document

/-! ## Anchors -/

/-- What anchors stand for.  An anchor gets the number of names that are known when it is given,
its own included if it was given before, and of several nodes with one number the last counts. -/
structure Anchors where
  /-- The numbers of names. -/
  numbers : List (String × Nat)
  /-- The nodes with a number, newest first; the root is no scalar. -/
  nodes : List (Nat × Option Scalar)
  deriving DecidableEq, Repr

namespace Anchors

/-- There are no anchors. -/
def empty : Anchors := ⟨[], []⟩

/-- The anchors with one more. -/
def add (a : Anchors) (name : String) (node : Option Scalar) : Anchors :=
  let number := a.numbers.length
  ⟨(name, number) :: a.numbers.filter (·.1 ≠ name), (number, node) :: a.nodes⟩

/-- The scalar with a number. -/
def scalar? (a : Anchors) (number : Nat) : Option Scalar := (a.nodes.lookup number).join

end Anchors

/-- A scalar, or the number of the node that it is the same as. -/
abbrev Numbered := Scalar ⊕ Nat

/-- Numbers the aliases among some nodes.  An alias follows the anchor that it names. -/
def numberAliases? (a : Anchors) : List Node → Option (List Numbered × Anchors)
  | [] => some ([], a)
  | .scalar anchor s :: rest => do
    let a := match anchor with
      | some name => a.add name (some s)
      | none => a
    let (numbered, a) ← numberAliases? a rest
    some (.inl s :: numbered, a)
  | .alias name :: rest => do
    let number ← a.numbers.lookup name
    let (numbered, a) ← numberAliases? a rest
    some (.inr number :: numbered, a)

/-- The scalar that is meant. -/
def Anchors.meant? (a : Anchors) : Numbered → Option Scalar
  | .inl s => some s
  | .inr number => a.scalar? number

/-- Every second scalar with the one behind it. -/
def inPairs : List Scalar → Mapping
  | key :: value :: rest => (key, value) :: inPairs rest
  | _ => []

/-- The mapping that a document is. -/
def Document.mapping? (d : Document) : Option Mapping := do
  let anchors := match d.anchor with
    | some name => Anchors.empty.add name none
    | none => .empty
  let (numbered, anchors) ← numberAliases? anchors (d.entries.flatMap fun e => [e.1, e.2])
  (numbered.mapM anchors.meant?).map inPairs

/-- Reads a text as one document that is a mapping of scalars. -/
def mapping? (text : String) : Option Mapping := do (← Document.ofText? text).mapping?

end LogSplit.Yaml
