import RecordCondition.Annotation.Token

/-!
# Annotations

An annotation `condition(…)` says how a declared field is exposed to conditions.
It holds items separated by commas:

* `rename = "…"` exposes the field under another name,
* `op(…)` names the comparators that it permits besides equality,
* `exclude` leaves it out,
* `ignore` exposes it without checking the values and comparators used on it.

Annotations of any other name are passed over.
-/

namespace RecordCondition

namespace Annotation

inductive Item
  | rename (name : String)
  | operators (names : List String)
  | exclude
  | ignore
  deriving DecidableEq, Repr

/-- Why the items of an annotation cannot be read. -/
inductive Fault
  | noArguments
  | assigned
  | strayArguments
  | unsupported
  | expectedName
  | expectedOperator
  | expectedComma
  | expectedEquals
  | expectedString (atEnd : Bool)
  | expectedParentheses (atEnd : Bool)
  deriving DecidableEq, Repr

/-- An expectation, with a remark where nothing follows. -/
def expectation (atEnd : Bool) (expected : String) : String :=
  if atEnd then s!"unexpected end of input, {expected}" else expected

def Fault.message : Fault → String
  | .noArguments => "expected attribute arguments in parentheses: #[condition(...)]"
  | .assigned => "expected parentheses: #[condition(...)]"
  | .strayArguments => "unexpected token in attribute arguments"
  | .unsupported => "unsupported condition attribute"
  | .expectedName => "expected identifier"
  | .expectedOperator => "expected ident"
  | .expectedComma => "expected `,`"
  | .expectedEquals => "expected `=`"
  | .expectedString atEnd => expectation atEnd "expected string literal"
  | .expectedParentheses atEnd => expectation atEnd "expected parentheses"

/-- A reader of something from the front of a sequence of tokens. -/
abbrev Reader (α : Type) : Type :=
  List Token → Except Fault (α × List Token)

/-- Things separated by commas, after the last of which another may stand. -/
def readSeparated (thing : Reader α) (tokens : List Token) : Except Fault (List α) :=
  if tokens.isEmpty then
    .ok []
  else
    match thing tokens with
    | .error e => .error e
    | .ok (first, []) => .ok [first]
    | .ok (first, .mark ',' :: rest) =>
        if rest.length < tokens.length then
          (readSeparated thing rest).map (first :: ·)
        else
          .error .expectedComma
    | .ok (_, _ :: _) => .error .expectedComma
  termination_by tokens.length

/-- Words that are no name of an item. -/
def reservedWords : List String :=
  ["_", "abstract", "as", "become", "box", "break", "const", "continue", "crate", "do",
    "else", "enum", "extern", "false", "final", "fn", "for", "if", "impl", "in", "let",
    "loop", "macro", "match", "mod", "move", "mut", "override", "priv", "pub", "ref",
    "return", "Self", "self", "static", "struct", "super", "trait", "true", "type", "typeof",
    "unsafe", "unsized", "use", "virtual", "where", "while", "yield"]

def readRename : Reader Item
  | .mark '=' :: .string name :: rest => .ok (.rename name, rest)
  | .mark '=' :: rest => .error (.expectedString rest.isEmpty)
  | _ => .error .expectedEquals

/-- The name of a comparator may be any word, a reserved one included. -/
def readOperator : Reader String
  | .word name :: rest => .ok (name, rest)
  | _ => .error .expectedOperator

def readOperators : Reader Item
  | .group .round contents :: rest => do
      let names ← readSeparated readOperator contents
      .ok (.operators names, rest)
  | rest => .error (.expectedParentheses rest.isEmpty)

def readItem : Reader Item
  | .word word :: rest =>
      if word = "rename" then readRename rest
      else if word = "exclude" then .ok (.exclude, rest)
      else if word = "ignore" then .ok (.ignore, rest)
      else if word = "op" then readOperators rest
      else if reservedWords.contains word then .error .expectedName
      else .error .unsupported
  | _ => .error .expectedName

/-- The items of an annotation, of which there are none under another name or a
path.  Its arguments may stand in brackets of any kind. -/
def items (text : String) : Except Fault (List Item) :=
  match readTokens text with
  | .word "condition" :: .path :: _ => .ok []
  | .word "condition" :: arguments =>
      match arguments with
      | [] => .error .noArguments
      | .mark '=' :: _ => .error .assigned
      | [.group _ contents] => readSeparated readItem contents
      | _ => .error .strayArguments
  | _ => .ok []

/-! ## Settings -/

/-- What the annotations of a field say together. -/
structure Settings where
  name : Option String := none
  operators : List String := []
  excluded : Bool := false
  ignored : Bool := false
  deriving DecidableEq, Repr

/-- A later name replaces an earlier one; everything else adds up. -/
def Settings.add (settings : Settings) : Item → Settings
  | .rename name => { settings with name := some name }
  | .operators names => { settings with operators := settings.operators ++ names }
  | .exclude => { settings with excluded := true }
  | .ignore => { settings with ignored := true }

def Settings.ofItems (items : List Item) : Settings :=
  items.foldl Settings.add {}

/-- Settings with those of another annotation folded in. -/
def Settings.merge (settings other : Settings) : Settings where
  name := other.name.or settings.name
  operators := settings.operators ++ other.operators
  excluded := settings.excluded || other.excluded
  ignored := settings.ignored || other.ignored

/-- The settings of a field, with the annotations folded in one after the other. -/
def Settings.readAfter : Settings → List String → Except Fault Settings
  | settings, [] => .ok settings
  | settings, annotation :: annotations =>
      match items annotation with
      | .error e => .error e
      | .ok items => readAfter (settings.merge (.ofItems items)) annotations

def Settings.read (annotations : List String) : Except Fault Settings :=
  readAfter {} annotations

end Annotation

end RecordCondition
