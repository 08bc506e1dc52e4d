import BuildLog.Text

/-!
# Line codes

The build agent writes a two-character token in front of a console line that says what the line
is: `!!|12:00:01.000 [go] Task: make`. Fourteen tokens have a meaning; every other one is kept as it
stands, so that it can still be shown.

* `ofToken?_token`: a code is found again under its token.
* `Tag.token_ofToken`: a tag keeps the token it was made from.
-/

namespace BuildLog

/-- The meaning of a known token. -/
inductive Code where
  | info
  | alert
  | prep
  | prepErr
  | taskStart
  | out
  | err
  | pass
  | fail
  | cancelTaskStart
  | cancelTaskPass
  | cancelTaskFail
  | jobPass
  | jobFail
  deriving DecidableEq, Repr

namespace Code

/-- The codes in the order of their table. -/
def all : List Code :=
  [.info, .alert, .prep, .prepErr, .taskStart, .out, .err, .pass, .fail, .cancelTaskStart,
    .cancelTaskPass, .cancelTaskFail, .jobPass, .jobFail]

def token : Code → Text
  | .info => ['#', '#']
  | .alert => ['@', '@']
  | .prep => ['p', 'r']
  | .prepErr => ['p', 'e']
  | .taskStart => ['!', '!']
  | .out => ['&', '1']
  | .err => ['&', '2']
  | .pass => ['?', '0']
  | .fail => ['?', '1']
  | .cancelTaskStart => ['!', 'x']
  | .cancelTaskPass => ['x', '0']
  | .cancelTaskFail => ['x', '1']
  | .jobPass => ['j', '0']
  | .jobFail => ['j', '1']

def name : Code → String
  | .info => "INFO"
  | .alert => "ALERT"
  | .prep => "PREP"
  | .prepErr => "PREP_ERR"
  | .taskStart => "TASK_START"
  | .out => "OUT"
  | .err => "ERR"
  | .pass => "PASS"
  | .fail => "FAIL"
  | .cancelTaskStart => "CANCEL_TASK_START"
  | .cancelTaskPass => "CANCEL_TASK_PASS"
  | .cancelTaskFail => "CANCEL_TASK_FAIL"
  | .jobPass => "JOB_PASS"
  | .jobFail => "JOB_FAIL"

/-- The code of a token, if it is a known one. -/
def ofToken? (token : Text) : Option Code := all.find? fun code => code.token = token

theorem mem_all (code : Code) : code ∈ all := by cases code <;> decide

theorem ofToken?_token (code : Code) : ofToken? code.token = some code := by
  cases code <;> decide

theorem token_of_ofToken? {token : Text} {code : Code} (h : ofToken? token = some code) :
    code.token = token := by
  simpa using List.find?_some h

end Code

/-- The token in front of a line: a known code, or any other token as it stands. -/
inductive Tag where
  | known (code : Code)
  | unknown (token : Text)
  deriving DecidableEq, Repr

namespace Tag

def ofToken (token : Text) : Tag :=
  match Code.ofToken? token with
  | some code => .known code
  | none => .unknown token

def token : Tag → Text
  | .known code => code.token
  | .unknown token => token

/-- The code of a tag; an unknown token has none. -/
def code? : Tag → Option Code
  | .known code => some code
  | .unknown _ => none

theorem token_ofToken (token : Text) : (ofToken token).token = token := by
  unfold ofToken
  split
  · next h => exact Code.token_of_ofToken? h
  · rfl

end Tag

end BuildLog
