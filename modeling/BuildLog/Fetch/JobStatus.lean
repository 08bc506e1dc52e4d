import BuildLog.Json.Value
import BuildLog.Text.Flag

/-!
# The job's status

The server tells the job's status as a JSON array of entries, of which the first one counts. An
entry is an object, or an array with its fields in order. A field may appear once; fields of other
names are passed over. Whether the job is complete is told as a boolean or as a word.

* `entries_of_malformed`: one malformed entry makes the whole payload malformed.
-/

namespace BuildLog

/-- What is told of a build. -/
structure Building where
  isCompleted : Bool := false
  result : Option Text := none
  currentStatus : Option Text := none
  deriving DecidableEq, Repr

namespace Building

open Json (Value)

/-- The flag that a value tells; a word that is no flag means no. -/
def flag? : Value → Option Bool
  | .bool b => some b
  | .string (some s) => some ((Text.Flag.read? s).getD false)
  | _ => none

/-- The text that a value tells, if any. -/
def text? : Value → Option (Option Text)
  | .null => some none
  | .string (some s) => some (some s)
  | _ => none

/-- Read a field that may be absent. -/
def optional {α : Type} (read : Value → Option α) (absent : α) : Option Value → Option α
  | none => some absent
  | some v => read v

/-- Read the three fields, each of which may be absent. -/
def ofFields? (isCompleted result currentStatus : Option Value) : Option Building :=
  match optional flag? false isCompleted, optional text? none result,
      optional text? none currentStatus with
  | some isCompleted, some result, some currentStatus => some ⟨isCompleted, result, currentStatus⟩
  | _, _, _ => none

/-- Whether all keys of an object have a text. -/
def hasTexts (members : List (Option Text × Value)) : Bool := members.all fun (key, _) => key.isSome

def ofValue? : Value → Option Building
  | .object members =>
    if hasTexts members then
      match Json.member? "is_completed" members, Json.member? "result" members,
          Json.member? "current_status" members with
      | some isCompleted, some result, some currentStatus =>
        ofFields? isCompleted result currentStatus
      | _, _, _ => none
    else none
  | .array items =>
    if items.length ≤ 3 then ofFields? items[0]? items[1]? items[2]? else none
  | _ => none

end Building

namespace JobStatus

open Json (Value)

/-- Why a payload tells no status. -/
inductive Fault where
  | malformed
  | empty
  deriving DecidableEq, Repr

def Fault.message : Fault → String
  | .malformed => "malformed job status payload"
  | .empty => "job status payload is empty"

def entry? : Value → Option Building
  | .object members =>
    if Building.hasTexts members then
      match Json.member? "building_info" members with
      | some (some v) => Building.ofValue? v
      | _ => none
    else none
  | .array [v] => Building.ofValue? v
  | _ => none

/-- Read all entries, if none of them is malformed. -/
def entries? : List Value → Option (List Building)
  | [] => some []
  | v :: rest =>
    match entry? v, entries? rest with
    | some b, some bs => some (b :: bs)
    | _, _ => none

def ofText? (body : Text) : Option (List Building) :=
  match Json.Value.ofText? body with
  | some (.array items) => entries? items
  | _ => none

/-- Whether a payload tells that the job is complete. -/
def isCompleted (body : Text) : Except Fault Bool :=
  match ofText? body with
  | none => .error .malformed
  | some [] => .error .empty
  | some (first :: _) => .ok first.isCompleted

theorem entries_of_malformed {items : List Value} {v : Value} (hv : v ∈ items)
    (h : entry? v = none) : entries? items = none := by
  induction items with
  | nil => simp at hv
  | cons a items ih =>
    rcases List.mem_cons.1 hv with rfl | hv
    · simp [entries?, h]
    · simp [entries?, ih hv]

end JobStatus

end BuildLog
