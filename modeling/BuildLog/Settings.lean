import BuildLog.Text.Flag
import BuildLog.Text.Number
import BuildLog.Url

/-!
# Settings

What the viewer is told from outside, as the values of variables. Blanks around a value do not
count, and a value of blanks alone counts as unset. The address of the log has to be set; the other
settings have defaults. Of several faults, that of the first variable in the order of
`Variable` is told.

Reading settings does not look at the addresses themselves; `fault?` does.

* `value?_ne_nil`: a variable that is set has a value with more than blanks in it.
* `read_congr`: nothing but the named variables has an influence.
-/

namespace BuildLog

/-- What the viewer is told from outside. Times are in milliseconds. -/
structure Settings where
  consoleUrl : Text
  jobStatusUrl : Option Text := none
  /-- The time between two polls. -/
  pollInterval : Nat := 5000
  /-- The most lines handed on at once. -/
  chunkSize : Nat := 1000
  requestTimeout : Nat := 30000
  showTimestamps : Bool := false
  deriving DecidableEq, Repr

namespace Settings

/-- The variables that settings are read from, in the order in which they are read. -/
inductive Variable where
  | consoleUrl
  | jobStatusUrl
  | pollInterval
  | chunkSize
  | requestTimeout
  | showTimestamps
  deriving DecidableEq, Repr

def Variable.name : Variable → String
  | .consoleUrl => "CONSOLEFOLD_CONSOLE_URL"
  | .jobStatusUrl => "CONSOLEFOLD_JOB_STATUS_URL"
  | .pollInterval => "CONSOLEFOLD_POLL_INTERVAL_MS"
  | .chunkSize => "CONSOLEFOLD_CHUNK_SIZE"
  | .requestTimeout => "CONSOLEFOLD_REQUEST_TIMEOUT_MS"
  | .showTimestamps => "CONSOLEFOLD_SHOW_TIMESTAMPS"

def Variable.all : List Variable :=
  [.consoleUrl, .jobStatusUrl, .pollInterval, .chunkSize, .requestTimeout, .showTimestamps]

/-- Variables by name, with their values as far as they have one. -/
abbrev Environment := String → Option Text

/-- The value of a variable, if it is set. -/
def value? (env : Environment) (v : Variable) : Option Text :=
  ((env v.name).map Text.trim).filter (!·.isEmpty)

/-- Why no settings can be read. -/
inductive ReadFault where
  /-- The address of the log is not set. -/
  | unset
  | noNumber (setting : Variable) (raw : Text) (cause : Text.Number.Fault)
  /-- The value of `showTimestamps` is no flag. -/
  | noFlag (raw : Text)
  deriving DecidableEq, Repr

/-- What is wrong with a value. -/
def invalid (v : Variable) (raw : Text) : String :=
  "Invalid " ++ v.name ++ " '" ++ String.ofList raw ++ "'"

namespace ReadFault

def message : ReadFault → String
  | unset => Variable.consoleUrl.name ++ " must be set to the console log URL"
  | noNumber v raw _ => invalid v raw
  | noFlag raw => invalid .showTimestamps raw ++ ": expected true or false"

/-- The wording of a fault, followed by that of its cause, if it has one. -/
def messages (fault : ReadFault) : List String :=
  match fault with
  | noNumber _ _ cause => [fault.message, cause.message]
  | _ => [fault.message]

end ReadFault

/-- A number held between two limits. -/
def clamp (least most n : Nat) : Nat := max least (min n most)

/-- The number that a variable tells, if it is set. -/
def number? (env : Environment) (v : Variable) : Except ReadFault (Option Nat) :=
  match value? env v with
  | none => .ok none
  | some raw =>
    match Text.Number.read Text.Number.largest64 raw with
    | .ok n => .ok (some n)
    | .error cause => .error (.noNumber v raw cause)

/-- The flag that `showTimestamps` tells, if it is set. -/
def timestamps? (env : Environment) : Except ReadFault (Option Bool) :=
  match value? env .showTimestamps with
  | none => .ok none
  | some raw =>
    match Text.Flag.read? raw with
    | some flag => .ok (some flag)
    | none => .error (.noFlag raw)

/-- The settings that variables tell. -/
def read (env : Environment) : Except ReadFault Settings :=
  match value? env .consoleUrl with
  | none => .error .unset
  | some consoleUrl => do
    let interval ← number? env .pollInterval
    let size ← number? env .chunkSize
    let timeout ← number? env .requestTimeout
    let timestamps ← timestamps? env
    return {
      consoleUrl := consoleUrl
      jobStatusUrl := value? env .jobStatusUrl
      pollInterval := (interval.map (clamp 250 60000)).getD 5000
      chunkSize := (size.map (clamp 1 100000)).getD 1000
      requestTimeout := timeout.getD 30000
      showTimestamps := timestamps.getD false }

/-- Why settings cannot be used. -/
inductive UseFault where
  /-- An address is no web address. -/
  | noWebAddress (setting : Variable) (url : Text)
  /-- No request could be answered in time. -/
  | noTime
  deriving DecidableEq, Repr

def UseFault.message : UseFault → String
  | noWebAddress v url => invalid v url ++ ": expected http:// or https:// URL"
  | noTime => Variable.requestTimeout.name ++ " must be greater than zero"

/-- Why settings cannot be used, if they cannot. -/
def fault? (s : Settings) : Option UseFault :=
  if !Url.isWeb s.consoleUrl then some (.noWebAddress .consoleUrl s.consoleUrl)
  else
    match s.jobStatusUrl.filter (!Url.isWeb ·) with
    | some url => some (.noWebAddress .jobStatusUrl url)
    | none => if s.requestTimeout = 0 then some .noTime else none

theorem value?_ne_nil {env : Environment} {v : Variable} {raw : Text}
    (h : value? env v = some raw) : raw ≠ [] := by
  rintro rfl
  simp [value?] at h

theorem read_congr {env env' : Environment} (h : ∀ v : Variable, env v.name = env' v.name) :
    read env = read env' := by
  simp only [read, number?, timestamps?, value?, h]

end Settings

end BuildLog
