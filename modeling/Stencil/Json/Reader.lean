import Stencil.Bindings
import Stencil.Json.Token

/-!
# Reading JSON text

`Json.read?` accepts the texts of the JSON grammar, and of these only those whose arrays and
objects are nested at most `limit` deep. The tokens are read one by one while the containers
still open are kept on a stack. A name that an object has twice keeps its last value.
-/

namespace Stencil.Json

/-- A container that is not closed yet, with what it holds so far; items are last first. -/
inductive OpenContainer where
  | array (items : List Json)
  | object (fields : Bindings Json)
  /-- An object that waits for the value of a field. -/
  | field (fields : Bindings Json) (name : String)

inductive Expectation where
  | value
  /-- After an opening bracket. -/
  | itemOrEnd
  /-- After an opening brace. -/
  | nameOrEnd
  | name
  | colon (name : String)
  /-- After a value inside a container. -/
  | commaOrEnd
  /-- The whole text has been read. -/
  | nothing (data : Json)

structure Reader where
  expected : Expectation
  /-- The open containers, innermost first. -/
  containers : List OpenContainer

namespace Reader

def start : Reader := ⟨.value, []⟩

/-- Puts a finished value where it belongs. -/
def deliver (data : Json) : List OpenContainer → Option Reader
  | [] => some ⟨.nothing data, []⟩
  | .array items :: outer => some ⟨.commaOrEnd, .array (data :: items) :: outer⟩
  | .field fields name :: outer =>
    some ⟨.commaOrEnd, .object (Bindings.insert name data fields) :: outer⟩
  | .object _ :: _ => none

/-- Reads a token where a value may start. -/
def stepValue (limit : Nat) (containers : List OpenContainer) : Token → Option Reader
  | .scalar data => deliver data containers
  | .openArray =>
    if containers.length < limit then some ⟨.itemOrEnd, .array [] :: containers⟩ else none
  | .openObject =>
    if containers.length < limit then some ⟨.nameOrEnd, .object [] :: containers⟩ else none
  | _ => none

/-- Closes the innermost container. -/
def stepEnd : List OpenContainer → Token → Option Reader
  | .array items :: outer, .closeArray => deliver (.array items.reverse) outer
  | .object fields :: outer, .closeObject => deliver (.object fields) outer
  | _, _ => none

def stepName (containers : List OpenContainer) : Token → Option Reader
  | .scalar (.string name) => some ⟨.colon name, containers⟩
  | _ => none

def stepComma : List OpenContainer → Option Reader
  | .array items :: outer => some ⟨.value, .array items :: outer⟩
  | .object fields :: outer => some ⟨.name, .object fields :: outer⟩
  | _ => none

def step (limit : Nat) (r : Reader) (token : Token) : Option Reader :=
  match r.expected, token, r.containers with
  | .value, token, containers => stepValue limit containers token
  | .itemOrEnd, .closeArray, containers => stepEnd containers .closeArray
  | .itemOrEnd, token, containers => stepValue limit containers token
  | .nameOrEnd, .closeObject, containers => stepEnd containers .closeObject
  | .nameOrEnd, token, containers => stepName containers token
  | .name, token, containers => stepName containers token
  | .colon name, .colon, .object fields :: outer => some ⟨.value, .field fields name :: outer⟩
  | .commaOrEnd, .comma, containers => stepComma containers
  | .commaOrEnd, token, containers => stepEnd containers token
  | _, _, _ => none

def finish (r : Reader) : Option Json :=
  match r.expected with
  | .nothing data => some data
  | _ => none

end Reader

/-- The data that a text stands for. -/
def read? (limit : Nat) (text : String) : Option Json := do
  let tokens ← Token.ofText? text
  (← tokens.foldlM (Reader.step limit) Reader.start).finish

end Stencil.Json
