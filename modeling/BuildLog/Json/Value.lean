import BuildLog.Json.Token

/-!
# JSON values

The value that a sequence of tokens writes. Tokens are read with a stack of the arrays and objects
that are open; the members of an object are kept in order, and a key may appear more than once.
-/

namespace BuildLog.Json

/-- A JSON value. Strings and keys are present with their texts, as far as they have one. -/
inductive Value where
  | null
  | bool (value : Bool)
  | number (value : Numeral)
  | string (value : Option Text)
  | array (items : List Value)
  | object (members : List (Option Text × Value))

/-- An array or object that is open, with what it holds so far in reverse. -/
inductive Opened where
  | array (items : List Value)
  | object (members : List (Option Text × Value)) (key : Option Text)

/-- What may come next. -/
inductive Reader where
  /-- A value. -/
  | value (stack : List Opened)
  /-- The first item of an array, or its end. -/
  | firstItem (stack : List Opened)
  /-- The first key of an object, or its end. -/
  | firstKey (stack : List Opened)
  /-- A key of an object. -/
  | key (members : List (Option Text × Value)) (stack : List Opened)
  /-- The colon behind a key. -/
  | colon (members : List (Option Text × Value)) (key : Option Text) (stack : List Opened)
  /-- A comma, or the end of an array. -/
  | afterItem (items : List Value) (stack : List Opened)
  /-- A comma, or the end of an object. -/
  | afterMember (members : List (Option Text × Value)) (stack : List Opened)
  /-- Nothing: the value is complete. -/
  | done (result : Value)

namespace Reader

/-- Go on behind a complete value. -/
def deliver (v : Value) : List Opened → Reader
  | [] => done v
  | .array items :: stack => afterItem (v :: items) stack
  | .object members k :: stack => afterMember ((k, v) :: members) stack

def start? (stack : List Opened) : Token → Option Reader
  | .null => some (deliver .null stack)
  | .bool b => some (deliver (.bool b) stack)
  | .number n => some (deliver (.number n) stack)
  | .string s => some (deliver (.string s) stack)
  | .openArray => some (firstItem stack)
  | .openObject => some (firstKey stack)
  | _ => none

def step (r : Reader) (t : Token) : Option Reader :=
  match r, t with
  | value stack, t => start? stack t
  | firstItem stack, .closeArray => some (deliver (.array []) stack)
  | firstItem stack, t => start? (.array [] :: stack) t
  | firstKey stack, .closeObject => some (deliver (.object []) stack)
  | firstKey stack, .string k => some (colon [] k stack)
  | key members stack, .string k => some (colon members k stack)
  | colon members k stack, .colon => some (value (.object members k :: stack))
  | afterItem items stack, .comma => some (value (.array items :: stack))
  | afterItem items stack, .closeArray => some (deliver (.array items.reverse) stack)
  | afterMember members stack, .comma => some (key members stack)
  | afterMember members stack, .closeObject => some (deliver (.object members.reverse) stack)
  | _, _ => none

def run : Reader → List Token → Option Reader
  | r, [] => some r
  | r, t :: ts =>
    match r.step t with
    | none => none
    | some r => r.run ts

/-- The value that has been read, if it is complete. -/
def result? : Reader → Option Value
  | done v => some v
  | _ => none

end Reader

def Value.ofTokens? (ts : List Token) : Option Value :=
  ((Reader.value []).run ts).bind Reader.result?

def Value.ofText? (s : Text) : Option Value := (tokens s).bind Value.ofTokens?

/-- The value of a member, if there is exactly one of its name; no value if there is none. More
than one is refused. -/
def member? (name : String) (members : List (Option Text × Value)) : Option (Option Value) :=
  match members.filter fun (key, _) => key = some name.toList with
  | [] => some none
  | [(_, v)] => some (some v)
  | _ => none

end BuildLog.Json
