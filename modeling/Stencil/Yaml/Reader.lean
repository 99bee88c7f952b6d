import Stencil.Bindings
import Stencil.Yaml.Lexer
import Stencil.Yaml.Scalar

/-!
# Reading YAML

`Yaml.read?` accepts texts of at most one document, made up of block and flow collections and of
plain and quoted scalars. It knows no directives, tags, anchors and aliases, and no scalars that
keep their line breaks.

The tokens of a text are read in order. A collection that is open is a `Frame`, which knows what it
holds so far and what it waits for. Sequences come in three styles: a block sequence, a compact one,
which is not indented further than the key it belongs to and ends where no dash follows, and a flow
sequence. Mappings are block mappings, flow mappings, and pairs, the entries `key: value` of a flow
sequence.
-/

namespace Stencil.Yaml

inductive Node where
  | plain (text : String)
  | quoted (text : String)
  | collection (data : Json)
  deriving Repr

namespace Node

/-- What stands for a node that is left out. -/
def empty : Node := plain ""

def value? : Node → Option Json
  | plain text => Scalar.resolve? text
  | quoted text => some (.string text)
  | collection data => some data

/-- The name that a node is as a key. Plain scalars are names as they are written. -/
def name? : Node → Option String
  | plain text => some text
  | quoted text => some text
  | collection _ => none

end Node

inductive SequenceStyle where
  | block
  | compact
  | flow
  deriving Repr, DecidableEq

inductive MappingStyle where
  | block
  | flow
  | pair
  deriving Repr, DecidableEq

/-- What a mapping waits for. -/
inductive Stage where
  /-- The mark of the next key, or a comma. -/
  | between
  /-- In a flow mapping, an entry or the end. -/
  | entry
  | key
  /-- A colon after the key. -/
  | named (name : String)
  | value (name : String)
  deriving Repr, DecidableEq

inductive Frame where
  /-- The items are kept last first. -/
  | sequence (style : SequenceStyle) (items : List Json) (awaitsItem : Bool)
  | mapping (style : MappingStyle) (fields : Bindings Json) (stage : Stage)
  deriving Repr

namespace Frame

/-- Whether a token shows that the node that a frame waits for is left out. -/
def isLeftOut (token : Token) : Frame → Bool
  | sequence .block _ true => token = .dash || token = .closeBlock
  | sequence .compact _ true =>
    token = .dash || token = .key || token = .colon || token = .closeBlock
  | mapping .block _ .key => token = .key || token = .colon || token = .closeBlock
  | mapping .block _ (.value _) => token = .key || token = .colon || token = .closeBlock
  | mapping .flow _ .key => token = .colon || token = .comma || token = .closeFlow .mapping
  | mapping .flow _ (.value _) => token = .comma || token = .closeFlow .mapping
  | mapping .pair _ (.value _) => token = .comma || token = .closeFlow .sequence
  | _ => false

end Frame

/-- What is known of the one node of a document. -/
inductive Root where
  | unstarted
  /-- The document has been started by a mark. -/
  | awaited
  | finished (data : Json)
  deriving Repr

/-- A document in the making, with the open collections from the innermost outward. -/
structure Document where
  root : Root
  frames : List Frame
  deriving Repr

namespace Document

def start : Document := ⟨.unstarted, []⟩

/-! ## Nodes -/

/-- Puts a finished node where it belongs. A pair is finished with its value. -/
def deliver (root : Root) (node : Node) : List Frame → Option Document
  | [] =>
    match root with
    | .finished _ => none
    | _ => node.value?.map fun data => ⟨.finished data, []⟩
  | .sequence style items true :: outer =>
    node.value?.map fun item => ⟨root, .sequence style (item :: items) false :: outer⟩
  | .mapping .pair _ (.value name) :: outer =>
    node.value?.bind fun data => deliver root (.collection (.object [(name, data)])) outer
  | .mapping style fields (.value name) :: outer =>
    node.value?.map fun data => ⟨root, .mapping style (fields.insert name data) .between :: outer⟩
  | .mapping style fields .key :: outer =>
    node.name?.map fun name => ⟨root, .mapping style fields (.named name) :: outer⟩
  | .mapping .flow fields .entry :: outer =>
    node.name?.map fun name => ⟨root, .mapping .flow (fields.insert name .null) .between :: outer⟩
  | _ => none

/-- Collections may enclose each other this many levels deep. -/
def maxDepth : Nat := 128

def enter (d : Document) (frame : Frame) : Option Document :=
  if d.frames.length < maxDepth then some { d with frames := frame :: d.frames } else none

/-! ## What a token implies

A token can show that a node, or a colon with a value, is left out before it, and that a compact
sequence is over. -/

def fillNode (token : Token) (d : Document) : Option Document :=
  match d.frames with
  | frame :: _ => if frame.isLeftOut token then deliver d.root .empty d.frames else some d
  | [] => some d

def endCompact (token : Token) (d : Document) : Option Document :=
  match d.frames with
  | .sequence .compact items false :: outer =>
    if token = .dash then some d else deliver d.root (.collection (.array items.reverse)) outer
  | _ => some d

def fillValue (token : Token) (d : Document) : Option Document :=
  match d.frames with
  | .mapping style fields (.named name) :: outer =>
    if token = .colon then some d
    else deliver d.root .empty (.mapping style fields (.value name) :: outer)
  | _ => some d

/-! ## Tokens -/

/-- A dash where no block sequence is open starts a compact one. -/
def dash (d : Document) : Option Document :=
  match d.frames with
  | .sequence .block items false :: outer =>
    some { d with frames := .sequence .block items true :: outer }
  | .sequence .compact items false :: outer =>
    some { d with frames := .sequence .compact items true :: outer }
  | .mapping .block _ (.value _) :: _ => d.enter (.sequence .compact [] true)
  | _ => none

def key (d : Document) : Option Document :=
  match d.frames with
  | .mapping .block fields .between :: outer =>
    some { d with frames := .mapping .block fields .key :: outer }
  | .mapping .flow fields .entry :: outer =>
    some { d with frames := .mapping .flow fields .key :: outer }
  | .sequence .flow _ true :: _ => d.enter (.mapping .pair [] .key)
  | _ => none

def colon (d : Document) : Option Document :=
  match d.frames with
  | .mapping style fields (.named name) :: outer =>
    some { d with frames := .mapping style fields (.value name) :: outer }
  | _ => none

def comma (d : Document) : Option Document :=
  match d.frames with
  | .sequence .flow items false :: outer =>
    some { d with frames := .sequence .flow items true :: outer }
  | .mapping .flow fields .between :: outer =>
    some { d with frames := .mapping .flow fields .entry :: outer }
  | _ => none

/-- A comma may stand before the end of a flow collection. -/
def closeFlow (d : Document) (shape : Shape) : Option Document :=
  match shape, d.frames with
  | .sequence, .sequence .flow items _ :: outer =>
    deliver d.root (.collection (.array items.reverse)) outer
  | .mapping, .mapping .flow fields .between :: outer =>
    deliver d.root (.collection (.object fields)) outer
  | .mapping, .mapping .flow fields .entry :: outer =>
    deliver d.root (.collection (.object fields)) outer
  | _, _ => none

def closeBlock (d : Document) : Option Document :=
  match d.frames with
  | .sequence .block items false :: outer =>
    deliver d.root (.collection (.array items.reverse)) outer
  | .mapping .block fields .between :: outer =>
    deliver d.root (.collection (.object fields)) outer
  | _ => none

def documentStart (d : Document) : Option Document :=
  match d with
  | ⟨.unstarted, []⟩ => some ⟨.awaited, []⟩
  | _ => none

def documentEnd (d : Document) : Option Document :=
  match d with
  | ⟨.awaited, []⟩ => some ⟨.finished .null, []⟩
  | ⟨.finished data, []⟩ => some ⟨.finished data, []⟩
  | _ => none

/-- Reads a token that implies nothing further. -/
def accept (d : Document) : Token → Option Document
  | .plain text => deliver d.root (.plain text) d.frames
  | .quoted text => deliver d.root (.quoted text) d.frames
  | .openBlock .sequence => d.enter (.sequence .block [] false)
  | .openBlock .mapping => d.enter (.mapping .block [] .between)
  | .openFlow .sequence => d.enter (.sequence .flow [] true)
  | .openFlow .mapping => d.enter (.mapping .flow [] .entry)
  | .closeBlock => d.closeBlock
  | .closeFlow shape => d.closeFlow shape
  | .dash => d.dash
  | .key => d.key
  | .colon => d.colon
  | .comma => d.comma
  | .documentStart => d.documentStart
  | .documentEnd => d.documentEnd

def step (d : Document) (token : Token) : Option Document :=
  fillNode token d >>= endCompact token >>= fillValue token >>= (accept · token)

/-- The data of a document that is over; an empty one is null. -/
def finish : Document → Option Json
  | ⟨.finished data, []⟩ => some data
  | ⟨_, []⟩ => some .null
  | _ => none

end Document

/-- The data in a text. -/
def read? (text : String) : Option Json := do
  let tokens ← Token.ofText? text
  (← tokens.foldlM Document.step Document.start).finish

end Stencil.Yaml
