import ShiftMesh.Json.Token

/-!
# ShiftMesh.Json.Reader — the value of a JSON text

A text is read in two steps: its tokens, and then an automaton over the tokens whose stack holds the
arrays and objects that are still open.

* `Frame`: an open array or object, with what it holds so far.
* `State`: what the automaton waits for; `State.next` is one step.
* `parse`: the value of a text.  At most 127 arrays and objects may be nested, the last of two
  fields with one key wins, and nothing but white space may follow the value.
-/

namespace ShiftMesh.Json

/-- The greatest number of nested arrays and objects. -/
def maxDepth : Nat := 127

/-- An array or object that is still open. -/
inductive Frame where
  /-- The items so far, the last one first. -/
  | array (items : List Value)
  /-- The fields so far, and the key whose value comes next. -/
  | object (fields : Fields) (key : String)
  deriving Inhabited

/-- What the automaton waits for. -/
inductive State where
  /-- A value. -/
  | value (stack : List Frame)
  /-- A first item, or the end of an array that was just opened. -/
  | firstItem (stack : List Frame)
  /-- A first key, or the end of an object that was just opened. -/
  | firstKey (stack : List Frame)
  /-- A key of an object with these fields. -/
  | nextKey (fields : Fields) (stack : List Frame)
  /-- The colon after a key. -/
  | colon (fields : Fields) (key : String) (stack : List Frame)
  /-- A comma or the end of the innermost open array or object. -/
  | separator (top : Frame) (stack : List Frame)
  /-- The end of the text. -/
  | finished (v : Value)

namespace State

/-- Hands a finished value to the innermost open array or object. -/
def deliver (v : Value) : List Frame → State
  | [] => .finished v
  | .array items :: stack => .separator (.array (v :: items)) stack
  | .object fields key :: stack => .separator (.object (fields.set key v) key) stack

/-- Opens an array or an object, if the limit of nesting allows it. -/
def enter (stack : List Frame) (next : State) : Except Fault State :=
  if stack.length < maxDepth then .ok next else .error .tooDeep

/-- Reads the first token of a value. -/
def beginValue (stack : List Frame) : Token → Except Fault State
  | .null => .ok (deliver .null stack)
  | .bool b => .ok (deliver (.bool b) stack)
  | .number n => .ok (deliver (.number n) stack)
  | .string s => .ok (deliver (.string s) stack)
  | .openArray => enter stack (.firstItem stack)
  | .openObject => enter stack (.firstKey stack)
  | _ => .error .unexpectedToken

/-- One step of the automaton. -/
def next : State → Token → Except Fault State
  | .value stack, t => beginValue stack t
  | .firstItem stack, .closeArray => .ok (deliver (.array []) stack)
  | .firstItem stack, t => beginValue (.array [] :: stack) t
  | .firstKey stack, .closeObject => .ok (deliver (.object []) stack)
  | .firstKey stack, .string s => .ok (.colon [] s stack)
  | .nextKey fields stack, .string s => .ok (.colon fields s stack)
  | .colon fields key stack, .colon => .ok (.value (.object fields key :: stack))
  | .separator (.array items) stack, .comma => .ok (.value (.array items :: stack))
  | .separator (.array items) stack, .closeArray => .ok (deliver (.array items.reverse) stack)
  | .separator (.object fields _) stack, .comma => .ok (.nextKey fields stack)
  | .separator (.object fields _) stack, .closeObject => .ok (deliver (.object fields) stack)
  | _, _ => .error .unexpectedToken

/-- Runs the automaton over tokens. -/
def run : State → List Token → Except Fault State
  | s, [] => .ok s
  | s, t :: rest =>
    match s.next t with
    | .error e => .error e
    | .ok s' => run s' rest

/-- The value of a finished run. -/
def result : State → Except Fault Value
  | .finished v => .ok v
  | _ => .error .endOfText

end State

/-- The value of a JSON text. -/
def parse (text : String) : Except Fault Value :=
  match tokens text.toList with
  | .error e => .error e
  | .ok ts =>
    match (State.value []).run ts with
    | .error e => .error e
    | .ok s => s.result

end ShiftMesh.Json
