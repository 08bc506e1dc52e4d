import BuildLog.Line.Code

/-!
# Kinds of sections

The code of a section's first tagged line gives the section its kind. The kind in turn says which
codes continue the section; every other tagged line starts a new one.

* `admits_none`: a line without a code continues no section.
* `signalsError_endsSection`: a code that signals an error also ends its section.
-/

namespace BuildLog

namespace Section

/-- What a section of the log holds. -/
inductive Kind where
  | info
  | prep
  | task
  | cancel
  | result
  deriving DecidableEq, Repr

namespace Kind

/-- The kinds in the order of their table. -/
def all : List Kind := [.info, .prep, .task, .cancel, .result]

def name : Kind → String
  | .info => "info"
  | .prep => "prep"
  | .task => "task"
  | .cancel => "cancel"
  | .result => "result"

/-- The kind of a section that starts with a code. -/
def ofCode : Code → Kind
  | .info | .alert => .info
  | .prep | .prepErr => .prep
  | .taskStart | .out | .err | .pass | .fail => .task
  | .cancelTaskStart | .cancelTaskPass | .cancelTaskFail => .cancel
  | .jobPass | .jobFail => .result

/-- The kind of a section that starts with a tag; an unknown tag counts as information. -/
def ofCode? : Option Code → Kind
  | some code => ofCode code
  | none => .info

/-- The codes that continue a section of a kind. A result is always a section of its own. -/
def members : Kind → List Code
  | .info => [.info]
  | .prep => [.prep, .prepErr]
  | .task => [.out, .err, .pass, .fail]
  | .cancel => [.out, .err, .cancelTaskPass, .cancelTaskFail]
  | .result => []

/-- Whether a tag continues a section of a kind. -/
def admits (kind : Kind) : Option Code → Bool
  | some code => code ∈ kind.members
  | none => false

@[simp] theorem admits_none (kind : Kind) : kind.admits none = false := rfl

end Kind

/-- The codes behind which a section is closed. -/
def endCodes : List Code := [.pass, .fail, .jobPass, .jobFail, .cancelTaskPass, .cancelTaskFail]

/-- The codes that mark a section as failed. -/
def errorCodes : List Code := [.fail, .jobFail, .cancelTaskFail]

/-- Whether a tag closes the section it stands in. -/
def endsSection : Option Code → Bool
  | some code => code ∈ endCodes
  | none => false

/-- Whether a tag marks the section it stands in as failed. -/
def signalsError : Option Code → Bool
  | some code => code ∈ errorCodes
  | none => false

theorem signalsError_endsSection {code : Option Code} (h : signalsError code = true) :
    endsSection code = true := by
  cases code with
  | none => simp [signalsError] at h
  | some code => cases code <;> revert h <;> decide

end Section

end BuildLog
