import Stencil.Command.Run

/-!
# The command line

The first word is the command. The words after it are its options, in any order, and its one
operand, the name of a template; `list` has no operand. An option with a value takes it from the
same word or from the next one, which must not look like an option; no option may be given twice.
After `--` every word is an operand.
-/

namespace Stencil.CommandLine

/-- Why words do not make up a command. -/
inductive Stop where
  /-- The words are no command line of the program. -/
  | misuse
  | version
  | help
  deriving Repr, DecidableEq

/-! ## Options -/

/-- An option that takes a value. -/
inductive Setting where
  | data
  | templates
  | config
  | defaultValue
  | maxDepth
  deriving Repr, DecidableEq

inductive Switch where
  | strict
  | reportDegradations
  deriving Repr, DecidableEq

/-- The options of a command. -/
structure Form where
  settings : List Setting
  switches : List Switch
  hasOperand : Bool
  deriving Repr, DecidableEq

def Form.render : Form :=
  ⟨[.data, .templates, .config, .defaultValue, .maxDepth], [.strict, .reportDegradations], true⟩

def Form.list : Form := ⟨[.templates], [], false⟩

/-- The form of `validate` and `stats`. -/
def Form.inspect : Form := ⟨[.templates], [], true⟩

namespace Setting

def longName : Setting → String
  | data => "data"
  | templates => "templates"
  | config => "config"
  | defaultValue => "default-value"
  | maxDepth => "max-depth"

def shortName? : Setting → Option Char
  | data => some 'd'
  | templates => some 't'
  | config => some 'c'
  | _ => none

/-- A whole number of 64 bits, perhaps with a plus sign. -/
def depth? (value : String) : Option Nat :=
  let digits :=
    match value.toList with
    | '+' :: cs => cs
    | cs => cs
  if !digits.isEmpty && digits.all Char.isDigit then
    some (Json.Numeral.ofDigits digits) |>.filter (· < Options.depthLimit)
  else none

/-- Paths are not empty. -/
def accepts (value : String) : Setting → Bool
  | defaultValue => true
  | maxDepth => (depth? value).isSome
  | _ => !value.isEmpty

end Setting

def Switch.longName : Switch → String
  | .strict => "strict"
  | .reportDegradations => "report-degradations"

/-! ## Reading words -/

/-- What the words of a command say. -/
structure Words where
  values : List (Setting × String) := []
  switches : List Switch := []
  operands : List String := []
  /-- The option whose value is the next word. -/
  pending : Option Setting := none
  onlyOperands : Bool := false

namespace Words

def value? (w : Words) (setting : Setting) : Option String := w.values.lookup setting

def setValue (w : Words) (setting : Setting) (value : String) : Except Stop Words :=
  if (w.value? setting).isSome || !setting.accepts value then .error .misuse
  else .ok { w with values := (setting, value) :: w.values, pending := none }

def setSwitch (w : Words) (switch : Switch) : Except Stop Words :=
  if w.switches.contains switch then .error .misuse
  else .ok { w with switches := switch :: w.switches }

/-- Reads an option with its value, if it is in the same word. -/
def readSetting (w : Words) (setting : Setting) : Option String → Except Stop Words
  | some value => w.setValue setting value
  | none => .ok { w with pending := some setting }

/-- The part of a long option before the first equals sign, and the part after it. -/
def splitLong (cs : List Char) : String × Option String :=
  (String.ofList (cs.takeWhile (· ≠ '=')),
    match cs.dropWhile (· ≠ '=') with
    | _ :: value => some (String.ofList value)
    | [] => none)

def readLong (form : Form) (w : Words) (cs : List Char) : Except Stop Words :=
  let (name, value) := splitLong cs
  match form.settings.find? (·.longName = name), form.switches.find? (·.longName = name), value with
  | some setting, _, value => w.readSetting setting value
  | none, some switch, none => w.setSwitch switch
  | none, none, none => if name = "help" then .error .help else .error .misuse
  | none, _, some _ => .error .misuse

/-- A value in the same word may have an equals sign before it. -/
def shortValue : List Char → Option String
  | [] => none
  | '=' :: cs => some (String.ofList cs)
  | cs => some (String.ofList cs)

def readShort (form : Form) (w : Words) (c : Char) (cs : List Char) : Except Stop Words :=
  match form.settings.find? (·.shortName? = some c) with
  | some setting => w.readSetting setting (shortValue cs)
  | none => if c = 'h' then .error .help else .error .misuse

def readOption (form : Form) (w : Words) : List Char → Except Stop Words
  | ['-', '-'] => .ok { w with onlyOperands := true }
  | '-' :: '-' :: cs => readLong form w cs
  | '-' :: c :: cs => readShort form w c cs
  | _ => .error .misuse

/-- A lone dash is no option. -/
def looksLikeOption (word : String) : Bool :=
  word.toList.head? = some '-' && word ≠ "-"

def read (form : Form) (w : Words) (word : String) : Except Stop Words :=
  if !w.onlyOperands && looksLikeOption word then
    if w.pending.isSome then .error .misuse else readOption form w word.toList
  else
    match w.pending with
    | some setting => w.setValue setting word
    | none => .ok { w with operands := w.operands ++ [word] }

/-- The words of a command that has the given form. -/
def ofList (form : Form) (words : List String) : Except Stop Words := do
  let w ← words.foldlM (read form) {}
  if w.pending.isSome || w.operands.length ≠ (if form.hasOperand then 1 else 0) then
    throw .misuse
  return w

def operand (w : Words) : String := w.operands.headD ""

def renderCommand (w : Words) : RenderCommand where
  name := w.operand
  data := w.value? .data
  templates := w.value? .templates
  config := w.value? .config
  overrides :=
    { strict := w.switches.contains .strict
      defaultValue := w.value? .defaultValue
      maxDepth := (w.value? .maxDepth).bind Setting.depth?
      reportDegradations := w.switches.contains .reportDegradations }

end Words

/-- The command that a command line asks for. -/
def parse : List String → Except Stop Command
  | [] => .error .misuse
  | "render" :: words => do return .render (← Words.ofList .render words).renderCommand
  | "list" :: words => do return .list ((← Words.ofList .list words).value? .templates)
  | "validate" :: words => do
    let w ← Words.ofList .inspect words
    return .validate w.operand (w.value? .templates)
  | "stats" :: words => do
    let w ← Words.ofList .inspect words
    return .stats w.operand (w.value? .templates)
  | "help" :: _ => .error .help
  | "--version" :: _ => .error .version
  | "--help" :: _ => .error .help
  | word :: _ =>
    match word.toList with
    | '-' :: 'V' :: _ => .error .version
    | '-' :: 'h' :: _ => .error .help
    | _ => .error .misuse

/-! ## Running -/

def versionText : String := "reporttemplate 0.1.0\n"

def helpText : String :=
  "Render reports and manifests from directive templates\n\n" ++
  "Usage: reporttemplate <COMMAND>\n\n" ++
  "Commands:\n" ++
  "  render NAME      print a template with data filled in\n" ++
  "  list             print the names of the templates\n" ++
  "  validate TARGET  check a template or a template file\n" ++
  "  stats NAME       print what a template asks for\n"

/-- How the program ends. -/
inductive Exit where
  | success (output : String)
  | failure (error : CommandError)
  | misuse
  deriving Repr, DecidableEq

namespace Exit

def code : Exit → Nat
  | success _ => 0
  | failure _ => 1
  | misuse => 2

/-- What is printed; nothing unless the program succeeds. -/
def output : Exit → String
  | success output => output
  | _ => ""

end Exit

/-- Runs the command that the words ask for. -/
def run (files : Files) (words : List String) : Exit :=
  match parse words with
  | .error .misuse => .misuse
  | .error .version => .success versionText
  | .error .help => .success helpText
  | .ok command =>
    match (command.run files).result with
    | .ok output => .success output
    | .error e => .failure e

end Stencil.CommandLine
