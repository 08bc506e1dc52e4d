import BuildLog.Line.Code

/-!
# Status of a section

How a task or the whole job stands, and the verdict that the line at its end gives.

* `ofCode?_ne_running`: no line says that something is running.
-/

namespace BuildLog

namespace Section

/-- How a task or job stands. -/
inductive Status where
  | running
  | passed
  | failed
  | cancelled
  deriving DecidableEq, Repr

def Status.name : Status → String
  | .running => "running"
  | .passed => "passed"
  | .failed => "failed"
  | .cancelled => "cancelled"

/-- What a verdict is about. -/
inductive Scope where
  | task
  | job
  deriving DecidableEq, Repr

def Scope.name : Scope → String
  | .task => "task"
  | .job => "job"

/-- A status of the task or of the whole job. -/
structure Verdict where
  scope : Scope
  status : Status
  deriving DecidableEq, Repr

namespace Verdict

/-- The verdict that a code gives, if it gives one. -/
def ofCode? : Option Code → Option Verdict
  | some .pass | some .cancelTaskPass => some ⟨.task, .passed⟩
  | some .fail | some .cancelTaskFail => some ⟨.task, .failed⟩
  | some .jobPass => some ⟨.job, .passed⟩
  | some .jobFail => some ⟨.job, .failed⟩
  | _ => none

theorem ofCode?_ne_running {code : Option Code} {verdict : Verdict}
    (h : ofCode? code = some verdict) : verdict.status ≠ .running := by
  cases code with
  | none => simp [ofCode?] at h
  | some code => cases code <;> simp [ofCode?] at h <;> subst h <;> decide

end Verdict

end Section

end BuildLog
