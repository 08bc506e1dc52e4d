import BuildLog.Fetch.JobStatus
import BuildLog.Proofs.Json.Reading

/-!
# Payloads that tell the job's status

What a payload tells is said of the JSON value that it writes, by what its objects give under each
name: `Tells` describes the entries that the server sends, `Spoiled` those that make a payload
malformed. Not all entries are one or the other: fields in order, without their names, may tell as
much as an object.

* `Tells.entry?`, `Spoiled.entry?`: how single entries are read.
* `isCompleted_of_document`: how every text of an array of entries is read.
-/

namespace BuildLog

open Json (Value)

namespace Json

/-- The values that an object gives under a name, in order. -/
def given (name : String) (members : List (Option Text × Value)) : List Value :=
  (members.filter fun (key, _) => key = some name.toList).map Prod.snd

variable {name : String} {members : List (Option Text × Value)}

theorem member?_of_given_nil (h : given name members = []) : member? name members = some none := by
  rw [given, List.map_eq_nil_iff] at h
  rw [member?, h]

theorem member?_of_given_singleton {v : Value} (h : given name members = [v]) :
    member? name members = some (some v) := by
  rw [given, List.map_eq_singleton_iff] at h
  obtain ⟨⟨key, w⟩, hFilter, rfl⟩ := h
  rw [member?, hFilter]

/-- A name that is given twice is not read at all. -/
theorem member?_of_repeated (h : 2 ≤ (given name members).length) :
    member? name members = none := by
  rw [given, List.length_map] at h
  rw [member?]
  split
  · next hFilter => simp [hFilter] at h
  · next hFilter => simp [hFilter] at h
  · rfl

/-- A value that is given under a name is the one that is read, unless there are more of them. -/
theorem member?_of_mem {v : Value} (h : v ∈ given name members) :
    member? name members = some (some v) ∨ member? name members = none := by
  match hGiven : given name members with
  | [] => simp [hGiven] at h
  | [w] =>
    obtain rfl : v = w := by simpa [hGiven] using h
    exact .inl (member?_of_given_singleton hGiven)
  | _ :: _ :: _ => exact .inr (member?_of_repeated (by simp [hGiven]))

end Json

open Json (given)

namespace Building

/-- What the values under `is_completed` tell. -/
inductive TellsFlag : List Value → Bool → Prop
  | absent : TellsFlag [] false
  | bool (b : Bool) : TellsFlag [.bool b] b
  | word (s : Text) : TellsFlag [.string (some s)] ((Text.trim s).map Char.toLower ∈
      ["true".toList, "1".toList, "yes".toList, "on".toList])

/-- What the values under a name for a text tell. -/
inductive TellsText : List Value → Option Text → Prop
  | absent : TellsText [] none
  | null : TellsText [.null] none
  | text (s : Text) : TellsText [.string (some s)] (some s)

/-- An object that tells of a build. Its keys are texts; those of other names do not count. -/
inductive Tells : Value → Building → Prop
  | intro {fields : List (Option Text × Value)} {b : Building}
      (hKeys : ∀ field ∈ fields, field.1.isSome)
      (hFlag : TellsFlag (given "is_completed" fields) b.isCompleted)
      (hResult : TellsText (given "result" fields) b.result)
      (hStatus : TellsText (given "current_status" fields) b.currentStatus) :
      Tells (.object fields) b

/-- A value that is no flag, whatever it holds. -/
inductive NoFlag : Value → Prop
  | null : NoFlag .null
  /-- A string with half of a pair in it. -/
  | textless : NoFlag (.string none)
  | number (n : Json.Numeral) : NoFlag (.number n)
  | array (items : List Value) : NoFlag (.array items)
  | object (members : List (Option Text × Value)) : NoFlag (.object members)

/-- The values that are given for `is_completed`, by name or by position. -/
def flags : Value → List Value
  | .object fields => given "is_completed" fields
  | .array items => items.take 1
  | _ => []

inductive Spoiled : Value → Prop
  | textless {v : Value} {fields : List (Option Text × Value)} (h : (none, v) ∈ fields) :
      Spoiled (.object fields)
  | repeated {name : String} {fields : List (Option Text × Value)}
      (hName : name ∈ ["is_completed", "result", "current_status"])
      (h : 2 ≤ (given name fields).length) : Spoiled (.object fields)
  | flag {v flag : Value} (hFlag : flag ∈ flags v) (h : NoFlag flag) : Spoiled v

/-- Every text is a flag: true if it is one of the words for it, and false if not. -/
theorem flag?_string (s : Text) : flag? (.string (some s)) = some (decide
    ((Text.trim s).map Char.toLower ∈
      ["true".toList, "1".toList, "yes".toList, "on".toList])) := by
  have hFlag : (Text.Flag.read? s).getD false =
      decide ((Text.trim s).map Char.toLower ∈ Text.Flag.on) := by
    simp only [Text.Flag.read?]
    by_cases hOn : (Text.trim s).map Char.toLower ∈ Text.Flag.on
    · simp [hOn]
    · by_cases hOff : (Text.trim s).map Char.toLower ∈ Text.Flag.off <;> simp [hOn, hOff]
  exact congrArg some hFlag

theorem TellsFlag.read {fields : List (Option Text × Value)} {b : Bool}
    (h : TellsFlag (given "is_completed" fields) b) :
    ∃ v, Json.member? "is_completed" fields = some v ∧ optional flag? false v = some b := by
  generalize hGiven : given "is_completed" fields = vs at h
  cases h with
  | absent => exact ⟨none, Json.member?_of_given_nil hGiven, rfl⟩
  | bool b => exact ⟨some (.bool b), Json.member?_of_given_singleton hGiven, rfl⟩
  | word s =>
    exact ⟨some (.string (some s)), Json.member?_of_given_singleton hGiven, flag?_string s⟩

theorem TellsText.read {name : String} {fields : List (Option Text × Value)} {s : Option Text}
    (h : TellsText (given name fields) s) :
    ∃ v, Json.member? name fields = some v ∧ optional text? none v = some s := by
  generalize hGiven : given name fields = vs at h
  cases h with
  | absent => exact ⟨none, Json.member?_of_given_nil hGiven, rfl⟩
  | null => exact ⟨some .null, Json.member?_of_given_singleton hGiven, rfl⟩
  | text s => exact ⟨some (.string (some s)), Json.member?_of_given_singleton hGiven, rfl⟩

theorem hasTexts_of_forall {members : List (Option Text × Value)}
    (h : ∀ m ∈ members, m.1.isSome) : hasTexts members := by
  simpa [hasTexts] using h

theorem hasTexts_eq_false {v : Value} {members : List (Option Text × Value)}
    (h : (none, v) ∈ members) : hasTexts members = false := by
  rw [hasTexts, List.all_eq_false]
  exact ⟨_, h, by simp⟩

theorem Tells.ofValue? {v : Value} {b : Building} (h : Tells v b) : ofValue? v = some b := by
  cases h with
  | intro hKeys hFlag hResult hStatus =>
    obtain ⟨flag, hFlag, hReadFlag⟩ := hFlag.read
    obtain ⟨result, hResult, hReadResult⟩ := hResult.read
    obtain ⟨status, hStatus, hReadStatus⟩ := hStatus.read
    simp [Building.ofValue?, hasTexts_of_forall hKeys, hFlag, hResult, hStatus, ofFields?,
      hReadFlag, hReadResult, hReadStatus]

theorem NoFlag.flag? {v : Value} (h : NoFlag v) : flag? v = none := by
  cases h <;> rfl

theorem ofFields?_of_noFlag {flag : Value} (h : NoFlag flag) (result status : Option Value) :
    ofFields? (some flag) result status = none := by
  simp [ofFields?, optional, h.flag?]

theorem Spoiled.ofValue? {v : Value} (h : Spoiled v) : ofValue? v = none := by
  cases h with
  | textless h => simp [Building.ofValue?, hasTexts_eq_false h]
  | @repeated name fields hName h =>
    have hMember := Json.member?_of_repeated h
    simp only [List.mem_cons, List.not_mem_nil, or_false] at hName
    rw [Building.ofValue?]
    rcases hName with rfl | rfl | rfl <;> simp [hMember]
  | @flag v flag hFlag h =>
    cases v with
    | object fields =>
      rw [Building.ofValue?]
      rcases Json.member?_of_mem hFlag with hMember | hMember
      · cases Json.member? "result" fields <;> cases Json.member? "current_status" fields <;>
          simp [hMember, ofFields?_of_noFlag h]
      · simp [hMember]
    | array items =>
      have hFirst : items[0]? = some flag := by
        cases items with
        | nil => simp [flags] at hFlag
        | cons v items => simpa [flags, eq_comm] using hFlag
      simp [Building.ofValue?, hFirst, ofFields?_of_noFlag h]
    | _ => simp [flags] at hFlag

end Building

namespace JobStatus

/-- An entry that tells of a build. Its keys are texts; those of other names do not count. -/
inductive Tells : Value → Building → Prop
  | intro {members : List (Option Text × Value)} {info : Value} {b : Building}
      (hKeys : ∀ member ∈ members, member.1.isSome) (hInfo : given "building_info" members = [info])
      (h : Building.Tells info b) : Tells (.object members) b

/-- The values that are given for `building_info`, by name or by position. -/
def infos : Value → List Value
  | .object members => given "building_info" members
  | .array items => items.take 1
  | _ => []

inductive Spoiled : Value → Prop
  | textless {v : Value} {members : List (Option Text × Value)} (h : (none, v) ∈ members) :
      Spoiled (.object members)
  | missing {v : Value} (h : infos v = []) : Spoiled v
  | repeated {members : List (Option Text × Value)}
      (h : 2 ≤ (given "building_info" members).length) : Spoiled (.object members)
  | info {v info : Value} (hInfo : info ∈ infos v) (h : Building.Spoiled info) : Spoiled v

theorem Tells.entry? {v : Value} {b : Building} (h : Tells v b) : entry? v = some b := by
  cases h with
  | intro hKeys hInfo h =>
    simp [JobStatus.entry?, Building.hasTexts_of_forall hKeys,
      Json.member?_of_given_singleton hInfo, h.ofValue?]

theorem Spoiled.entry? {v : Value} (h : Spoiled v) : entry? v = none := by
  cases h with
  | textless h => simp [JobStatus.entry?, Building.hasTexts_eq_false h]
  | missing h =>
    cases v with
    | object members => simp [JobStatus.entry?, Json.member?_of_given_nil h]
    | array items =>
      obtain rfl : items = [] := by simpa [infos] using h
      rfl
    | _ => rfl
  | repeated h => simp [JobStatus.entry?, Json.member?_of_repeated h]
  | @info v info hInfo h =>
    cases v with
    | object members =>
      rcases Json.member?_of_mem hInfo with hMember | hMember
      · simp [JobStatus.entry?, hMember, h.ofValue?]
      · simp [JobStatus.entry?, hMember]
    | array items =>
      match items with
      | [] => simp [infos] at hInfo
      | [w] =>
        obtain rfl : info = w := by simpa [infos] using hInfo
        exact h.ofValue?
      | _ :: _ :: _ => rfl
    | _ => simp [infos] at hInfo

/-- Entries are read if each of them tells of a build. -/
theorem entries?_of_tells {items : List Value} (h : ∀ v ∈ items, ∃ b, Tells v b) :
    ∃ bs, entries? items = some bs := by
  induction items with
  | nil => exact ⟨[], rfl⟩
  | cons v items ih =>
    obtain ⟨b, hb⟩ := h v (by simp)
    obtain ⟨bs, hbs⟩ := ih fun w hw => h w (by simp [hw])
    exact ⟨b :: bs, by simp [entries?, hb.entry?, hbs]⟩

theorem ofText?_of_document {entries : List Value} {body : Text}
    (h : Json.Document (.array entries) body) : ofText? body = entries? entries := by
  rw [ofText?, h.ofText?]

/-- Of every text of an array of entries, the first entry tells whether the job is complete, as long
as all of them tell of a build. One spoiled entry, in whatever place, makes it malformed. -/
theorem isCompleted_of_document {entries : List Value} {body : Text}
    (h : Json.Document (.array entries) body) :
    (entries = [] →
      (isCompleted body).mapError Fault.message = .error "job status payload is empty") ∧
    (∀ first rest b, entries = first :: rest → Tells first b → (∀ v ∈ rest, ∃ c, Tells v c) →
      isCompleted body = .ok b.isCompleted) ∧
    ((∃ v ∈ entries, Spoiled v) →
      (isCompleted body).mapError Fault.message = .error "malformed job status payload") := by
  have hBody := ofText?_of_document h
  refine ⟨?empty, ?ordinary, ?spoiled⟩
  case empty =>
    rintro rfl
    rw [isCompleted, hBody]
    rfl
  case ordinary =>
    rintro first rest b rfl hFirst hRest
    obtain ⟨bs, hbs⟩ := entries?_of_tells hRest
    have hEntries : entries? (first :: rest) = some (b :: bs) := by
      simp [entries?, hFirst.entry?, hbs]
    rw [isCompleted, hBody, hEntries]
  case spoiled =>
    rintro ⟨v, hv, hSpoiled⟩
    rw [isCompleted, hBody, entries_of_malformed hv hSpoiled.entry?]
    rfl

/-- A word tells that the job is complete; an entry behind it that tells nothing spoils that. -/
theorem isCompleted_of_document_word :
    isCompleted ("[\x7b\"building_info\":\x7b\"is_completed\":\"On\"\x7d\x7d," ++
      "\x7b\"building_info\":\x7b\x7d\x7d]").toList = .ok true ∧
    (isCompleted ("[\x7b\"building_info\":\x7b\"is_completed\":\"On\"\x7d\x7d," ++
      "\x7b\x7d]").toList).mapError Fault.message = .error "malformed job status payload" := by
  let info (v : Value) : Value := .object [(some "building_info".toList, v)]
  let flag : Value := .object [(some "is_completed".toList, .string (some "On".toList))]
  have hInfo : Json.Piece.isPlain "building_info".toList := by decide
  have hCompleted : Json.Piece.isPlain "is_completed".toList := by decide
  have hOn : Json.Piece.isPlain "On".toList := by decide
  have hFlag := Json.Writes.object (.member_plain hCompleted (.string (.of_plain hOn))) .noMember
  have hFirst := Json.Writes.object (.member_plain hInfo hFlag) .noMember
  have hNothing := Json.Writes.emptyObject .nil
  have hLater := Json.Writes.object (.member_plain hInfo hNothing) .noMember
  have hTells : Tells (info flag) ⟨true, none, none⟩ :=
    .intro (by decide) rfl (.intro (by decide) (.word "On".toList) .absent .absent)
  have hTellsLater : Tells (info (.object [])) ⟨false, none, none⟩ :=
    .intro (by decide) rfl (.intro (by decide) .absent .absent .absent)
  have hGood := Json.Writes.array hFirst.padded_of_value (.item hLater.padded_of_value .noItem)
  have hBad := Json.Writes.array hFirst.padded_of_value (.item hNothing.padded_of_value .noItem)
  constructor
  · refine (isCompleted_of_document hGood.padded_of_value).2.1 (info flag) _ _ rfl hTells ?_
    simpa using ⟨_, hTellsLater⟩
  · exact (isCompleted_of_document hBad.padded_of_value).2.2 ⟨.object [], by simp, .missing rfl⟩

end JobStatus

end BuildLog
