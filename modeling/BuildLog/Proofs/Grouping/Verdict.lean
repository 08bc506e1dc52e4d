import BuildLog.Proofs.Grouping.Reading
import BuildLog.Proofs.Grouping.Shape

/-!
# Verdicts on sections

A section has no verdict as long as it receives lines. The line that closes it settles it: the code
of that line and the section's kind give the verdict, a failed or cancelled section is marked as
errored, and a section stays unfolded exactly when it is errored.

* `Section.Verdict.atClose`: the verdict that a closing line gives.
* `Section.Running`, `Section.Settled`: a section that receives lines, and one that is closed.
* `Section.Advance.running`, `Section.Advance.settled`: what each way to read a line makes of a
  running section.
* `Grouping.sections_settled`: all sections but the last are settled by the lines that closed them.
-/

namespace BuildLog

namespace Section

/-- The verdict on a section of a kind when a line with a code closes it. The start of an on-cancel
task tells of a task that was killed. -/
def Verdict.atClose (kind : Option Kind) : Option Code → Option Verdict
  | some .pass | some .cancelTaskPass => some ⟨.task, .passed⟩
  | some .fail | some .cancelTaskFail => some ⟨.task, .failed⟩
  | some .jobPass => some ⟨.job, .passed⟩
  | some .jobFail => some ⟨.job, .failed⟩
  | some .cancelTaskStart => if kind = some .task then some ⟨.task, .cancelled⟩ else none
  | _ => none

/-- Whether a verdict marks its section as errored. -/
def Verdict.IsBad (v : Verdict) : Prop := v.status = .failed ∨ v.status = .cancelled

/-- A section that receives lines. -/
structure Running (s : Section) : Prop where
  verdict : s.attributes.verdict = none
  errored : s.attributes.errored = false
  isOpen : s.isOpen = true

/-- A section that is closed. -/
structure Settled (s : Section) : Prop where
  typed : s.attributes.kind.isSome
  open_eq : s.isOpen = s.attributes.errored
  errored_iff : s.attributes.errored = true ↔ ∃ v, s.attributes.verdict = some v ∧ v.IsBad
  not_running : ∀ v, s.attributes.verdict = some v → v.status ≠ .running
  cancelled : ∀ v, s.attributes.verdict = some v → v.status = .cancelled →
    v.scope = .task ∧ s.attributes.kind = some .task

/-! ## Verdicts at the close -/

/-- Detection gives the verdict of the code to a section that has none. -/
theorem verdict_detect {a : Attributes} (h : a.verdict = none) (code : Option Code) :
    (Edit.detect code a).verdict = Verdict.atClose a.kind code := by
  cases code with
  | none => simp [Edit.detect, Verdict.ofCode?, Verdict.atClose, h]
  | some code => cases code <;> simp [Edit.detect, Verdict.ofCode?, Verdict.atClose, h]

/-- A section is marked as errored exactly when its verdict is failure or cancellation. -/
theorem errored_detect {a : Attributes} (h : a.errored = false) (code : Option Code) :
    (Edit.detect code a).errored = true ↔
      ∃ v, Verdict.atClose a.kind code = some v ∧ v.IsBad := by
  cases code with
  | none => simp [Edit.detect, signalsError, Verdict.atClose, h]
  | some code =>
    cases code <;>
      simp [Edit.detect, signalsError, errorCodes, Verdict.atClose, Verdict.IsBad, h]

namespace Verdict

theorem status_atClose_ne_running {kind : Option Kind} {code : Option Code} {v : Verdict}
    (h : atClose kind code = some v) : v.status ≠ .running := by
  unfold atClose at h
  split at h <;> grind

/-- Only a task can be cancelled. -/
theorem eq_of_atClose_cancelled {kind : Option Kind} {code : Option Code} {v : Verdict}
    (h : atClose kind code = some v) (hStatus : v.status = .cancelled) :
    v.scope = .task ∧ kind = some .task := by
  unfold atClose at h
  split at h <;> grind

/-- A header that closes its own section gives the verdict it would give without the kind. -/
theorem atClose_ofCode? (code : Option Code) :
    atClose (some (Kind.ofCode? code)) code = atClose none code := by
  cases code with
  | none => rfl
  | some code => cases code <;> rfl

theorem atClose_none {code : Option Code} (hEnd : endsSection code = false) :
    atClose none code = none := by
  cases code with
  | none => rfl
  | some code => cases code <;> simp_all [atClose, endsSection, endCodes]

theorem atClose_of_admits {kind : Kind} {code : Option Code} (hAdmits : kind.admits code = true)
    (hEnd : endsSection code = false) : atClose (some kind) code = none := by
  cases code with
  | none => rfl
  | some code =>
    cases code <;> cases kind <;>
      simp_all [atClose, endsSection, endCodes, Kind.admits, Kind.members]

end Verdict

/-! ## Every way to read a line -/

/-- A section that is still open when a verdict, or none, has been given on it. -/
structure Judged (verdict : Option Verdict) (s : Section) : Prop where
  verdict_eq : s.attributes.verdict = verdict
  errored_iff : s.attributes.errored = true ↔ ∃ v, verdict = some v ∧ v.IsBad
  isOpen : s.isOpen = true

theorem judged_none_iff {s : Section} : s.Judged none ↔ s.Running := by
  constructor
  · intro h
    exact ⟨h.verdict_eq, by simpa using h.errored_iff, h.isOpen⟩
  · intro h
    exact ⟨h.verdict, by simp [h.errored], h.isOpen⟩

theorem running_new (id : Nat) : Running { id := id } := ⟨rfl, rfl, rfl⟩

theorem Running.detectStatus {s : Section} (h : s.Running) (code : Option Code) :
    ((Edit.detectStatus code).apply s).Judged (Verdict.atClose s.attributes.kind code) where
  verdict_eq := verdict_detect h.verdict code
  errored_iff := errored_detect h.errored code
  isOpen := h.isOpen

theorem Running.headed {s : Section} (h : s.Running) (hKind : s.attributes.kind = none)
    (ordinal : Nat) (code : Option Code) (framed : Framed) :
    (s.headed ordinal code framed).Judged (Verdict.atClose (some (Kind.ofCode? code)) code) := by
  have hDetect := h.detectStatus code
  have hNone : ((Edit.detectStatus code).apply s).attributes.kind = none := hKind
  rw [hKind, ← Verdict.atClose_ofCode?] at hDetect
  unfold Section.headed Edit.assignKind
  simp only [hNone]
  exact ⟨hDetect.verdict_eq, hDetect.errored_iff, hDetect.isOpen⟩

theorem Running.continued {s : Section} (h : s.Running) (ordinal : Nat) (code : Option Code)
    (framed : Framed) :
    (s.continued ordinal code framed).Judged (Verdict.atClose s.attributes.kind code) :=
  have hDetect := h.detectStatus code
  ⟨hDetect.verdict_eq, hDetect.errored_iff, hDetect.isOpen⟩

/-- Closing settles a section that has been judged by the line that closes it. -/
theorem Judged.close {s : Section} {kind : Kind} {code : Option Code}
    (h : s.Judged (Verdict.atClose (some kind) code)) (hKind : s.attributes.kind = some kind) :
    (Edit.close.apply s).Settled where
  typed := Option.isSome_of_eq_some hKind
  open_eq := by simp [Edit.close, h.isOpen]
  errored_iff := by
    simp only [Edit.close, h.verdict_eq]
    exact h.errored_iff
  not_running v hv := Verdict.status_atClose_ne_running (h.verdict_eq.symm.trans hv)
  cancelled v hv hStatus := by
    obtain ⟨hScope, hTask⟩ := Verdict.eq_of_atClose_cancelled (h.verdict_eq.symm.trans hv) hStatus
    exact ⟨hScope, hKind.trans hTask⟩

/-- A line closed a section: it is the last one of the section or begins the one behind it, and it
gives the verdict. -/
structure ClosedBy (s next : Section) (l : Line) : Prop where
  place : s.lines.back? = some l ∨ (next.lines[0]? = some l ∧ l.role = .header)
  verdict : s.attributes.verdict = Verdict.atClose s.attributes.kind l.code?

theorem ClosedBy.grow {s next next' : Section} {l : Line} (h : s.ClosedBy next l)
    (hFirst : ∀ l, next.lines[0]? = some l → next'.lines[0]? = some l) : s.ClosedBy next' l where
  place := h.place.imp_right fun ⟨hl, hHeader⟩ => ⟨hFirst l hl, hHeader⟩
  verdict := h.verdict

section Advance

variable {place ordinal : Nat} {framed : Framed} {s s' next : Section}

theorem Advance.running (h : s.Advance place ordinal framed s' none) (hs : s.Running) :
    s'.Running := by
  cases h with
  | basic => exact ⟨hs.verdict, hs.errored, hs.isOpen⟩
  | @header tag hTag hKind hEnd =>
    have hJudged := hs.headed hKind ordinal tag.code? framed
    rw [Verdict.atClose_ofCode?, Verdict.atClose_none hEnd] at hJudged
    exact judged_none_iff.mp hJudged
  | @continuation tag kind hTag hKind hAdmits hEnd =>
    have hJudged := hs.continued ordinal tag.code? framed
    rw [hKind, Verdict.atClose_of_admits hAdmits hEnd] at hJudged
    exact judged_none_iff.mp hJudged

/-- A line that begins a further section settles the one it found open. -/
theorem Advance.settled (h : s.Advance place ordinal framed s' (some next)) (hs : s.Running) :
    s'.Settled := by
  cases h with
  | loneHeader hTag hKind =>
    exact (hs.headed hKind ordinal _ framed).close (kind_headed hKind ordinal _ framed)
  | lastContinuation hTag hKind =>
    exact (hKind ▸ hs.continued ordinal _ framed).close hKind
  | leaving hTag hKind => exact (hKind ▸ hs.detectStatus _).close hKind

theorem Advance.next_running (h : s.Advance place ordinal framed s' (some next)) :
    next.Running := by
  cases h with
  | loneHeader => exact running_new _
  | lastContinuation => exact running_new _
  | leaving => exact ⟨rfl, rfl, rfl⟩

/-- The line read is the one that closed the section it found open. -/
theorem Advance.closedBy (h : s.Advance place ordinal framed s' (some next)) (hs : s.Running) :
    ∃ role, s'.ClosedBy next (.ofFramed ordinal role framed) := by
  cases h with
  | @loneHeader tag hTag hKind =>
    refine ⟨.header, .inl (by simp [Edit.close, lines_headed]), ?_⟩
    have hVerdict := (hs.headed hKind ordinal tag.code? framed).verdict_eq
    rw [← kind_headed hKind ordinal tag.code? framed] at hVerdict
    rw [code?_ofFramed hTag]
    exact hVerdict
  | lastContinuation hTag =>
    refine ⟨.continuation, .inl (by simp [Edit.close, lines_continued]), ?_⟩
    rw [code?_ofFramed hTag]
    exact (hs.continued ordinal _ framed).verdict_eq
  | leaving hTag =>
    refine ⟨.header, .inr ⟨rfl, rfl⟩, ?_⟩
    rw [code?_ofFramed hTag]
    exact (hs.detectStatus _).verdict_eq

end Advance

/-! ## The displayed status -/

/-- A section that receives lines shows as running if it is a task or an on-cancel task. -/
theorem Running.displayStatus_eq_running_iff {s : Section} (h : s.Running) :
    s.displayStatus = some .running ↔
      s.attributes.kind = some .task ∨ s.attributes.kind = some .cancel := by
  unfold displayStatus
  rw [h.verdict, h.isOpen]
  cases s.attributes.kind with
  | none => simp
  | some kind => cases kind <;> simp

/-- A closed section never shows as running. -/
theorem Settled.displayStatus_ne_running {s : Section} (h : s.Settled) :
    s.displayStatus ≠ some .running := by
  cases hVerdict : s.attributes.verdict with
  | some verdict =>
    rw [displayStatus_of_verdict hVerdict]
    exact fun hRunning => h.not_running verdict hVerdict (Option.some.inj hRunning)
  | none =>
    -- A closed section without a verdict is not errored, hence folded.
    have hFolded : s.isOpen = false := by
      rw [h.open_eq, Bool.eq_false_iff, ne_eq, h.errored_iff]
      simp [hVerdict]
    unfold displayStatus
    rw [hVerdict, hFolded]
    split <;> simp_all

end Section

namespace Grouping

open Section

/-- A line of a log closed the section at a place. -/
def ClosedAt (raws : List Text) (i : Nat) (s next : Section) : Prop :=
  ∃ k raw role, raws[k]? = some raw ∧ Closes raws k i ∧
    s.ClosedBy next (.ofFramed (k + 1) role (.ofRaw raw))

theorem ClosedAt.concat {raws : List Text} {i : Nat} {s next : Section}
    (h : ClosedAt raws i s next) (raw : Text) : ClosedAt (raws ++ [raw]) i s next := by
  obtain ⟨k, earlier, role, hEarlier, hCloses, hLine⟩ := h
  have hk : k < raws.length := (List.getElem?_eq_some_iff.mp hEarlier).1
  exact ⟨k, earlier, role, by rwa [List.getElem?_append_left hk], hCloses.concat hk raw, hLine⟩

theorem ClosedAt.grow {raws : List Text} {i : Nat} {s next next' : Section}
    (h : ClosedAt raws i s next)
    (hFirst : ∀ l, next.lines[0]? = some l → next'.lines[0]? = some l) :
    ClosedAt raws i s next' := by
  obtain ⟨k, raw, role, hRaw, hCloses, hLine⟩ := h
  exact ⟨k, raw, role, hRaw, hCloses, hLine.grow hFirst⟩

/-- All sections but the last are settled by the lines that closed them. -/
structure Judging (closed : List Section) (s : Section) (raws : List Text) : Prop where
  readAs : ReadAs closed s raws
  running : s.Running
  settled : ∀ c ∈ closed, c.Settled
  closedAt : ∀ i c next, (closed ++ [s])[i]? = some c → (closed ++ [s])[i + 1]? = some next →
    ClosedAt raws i c next

theorem Judging.closedAt_advance {closed : List Section} {s s' : Section} {raws : List Text}
    {raw : Text} {place ordinal : Nat} {framed : Framed} {begun : Option Section}
    (h : Judging closed s raws) (hAdvance : s.Advance place ordinal framed s' begun) :
    ∀ i c next, (closed ++ [s'])[i]? = some c → (closed ++ [s'])[i + 1]? = some next →
      ClosedAt (raws ++ [raw]) i c next := by
  intro i c next hc hNext
  -- Only the second section of a pair can be the one that receives lines.
  obtain ⟨hLt, hNext⟩ | ⟨hLast, rfl⟩ := getElem?_concat_cases hNext
  · rw [List.getElem?_append_left (by omega)] at hc
    refine (h.closedAt i c next ?_ ?_).concat raw
    · rwa [List.getElem?_append_left (by omega)]
    · rwa [List.getElem?_append_left hLt]
  · rw [List.getElem?_append_left (by omega)] at hc
    have hs : (closed ++ [s])[i + 1]? = some s := by simp [hLast]
    refine ((h.closedAt i c s ?_ hs).concat raw).grow fun _ => hAdvance.first_line
    rwa [List.getElem?_append_left (by omega)]

theorem invariant_judging : Invariant Judging where
  start := ⟨invariant_read.start, running_new 0, by simp, by simp⟩
  stay h hAdvance :=
    ⟨invariant_read.stay h.readAs hAdvance, hAdvance.running h.running, h.settled,
      h.closedAt_advance hAdvance⟩
  leave {closed s s' next raws raw} h hAdvance := by
    refine ⟨invariant_read.leave h.readAs hAdvance, hAdvance.next_running, ?_, ?_⟩
    · have hSettled := hAdvance.settled h.running
      exact List.forall_mem_append.mpr ⟨h.settled, by simpa using hSettled⟩
    · intro i c d hc hd
      obtain ⟨hLt, hd⟩ | ⟨hLast, rfl⟩ := getElem?_concat_cases hd
      · rw [List.getElem?_append_left (by omega)] at hc
        exact h.closedAt_advance hAdvance i c d hc hd
      · obtain rfl : i = closed.length := by simpa using hLast
        obtain rfl : s' = c := by simpa using hc
        obtain ⟨role, hClosedBy⟩ := hAdvance.closedBy h.running
        exact ⟨raws.length, raw, role, by simp, h.readAs.closes_concat hAdvance, hClosedBy⟩

/-- **Verdicts go with closure**, in every state that is reached: the last section has none and is
open, and every section in front of it was settled by the line that closed it. So what is displayed
as running is the last section, if it is a task or an on-cancel task. -/
theorem sections_settled (deferred : Bool) (inputs : List Input) :
    let g := run { deferred := deferred } inputs
    let raws := (inputs.flatMap Input.given).take g.lineCount
    (∀ s, g.tree.last? = some s → s.Running ∧ (s.displayStatus = some .running ↔
      s.attributes.kind = some .task ∨ s.attributes.kind = some .cancel)) ∧
      ∀ i s next, g.tree.sections[i]? = some s → g.tree.sections[i + 1]? = some next →
        s.Settled ∧ s.displayStatus ≠ some .running ∧ ClosedAt raws i s next ∧
          ∀ j k, Closes raws j i → Closes raws k i → j = k := by
  intro g raws
  obtain ⟨raws', hReached⟩ := run_has invariant_judging deferred inputs
  obtain rfl : raws' = raws := hReached.take_lineCount.symm
  obtain ⟨-, hEmpty, -, -⟩ | ⟨closed, s, hEnds, -, -, h⟩ := hReached.has.sections
  · simp [g, Tree.last?, hEmpty]
  refine ⟨?_, ?_⟩
  · intro last hLast
    obtain rfl : s = last := Option.some.inj (hEnds.back?.symm.trans hLast)
    exact ⟨h.running, h.running.displayStatus_eq_running_iff⟩
  · intro i c next hc hNext
    rw [hEnds.getElem?] at hc hNext
    have hClosed : c ∈ closed := by
      obtain ⟨-, hc⟩ | ⟨rfl, -⟩ := getElem?_concat_cases hc
      · exact List.mem_of_getElem? hc
      · simp at hNext
    have hSettled := h.settled c hClosed
    exact ⟨hSettled, hSettled.displayStatus_ne_running, h.closedAt i c next hc hNext,
      fun _ _ => Closes.unique⟩

end Grouping

end BuildLog
