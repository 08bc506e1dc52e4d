import BuildLog.Proofs.Poller.Answers

/-!
# The call that holds the poller

A call that holds the poller is the only one to change it, so what all calls share is known at each
of its phases from the state in which the call took hold, and from the answer that it has heard, if
any. When it lets go, it has made of the answer what a call does that is the only one.

* `Progress`: what the calls share at each phase of the call that holds the poller.
* `Progress.step`: the call goes on to the next phase, or leaves the poller with its answer served.
-/

namespace BuildLog.Poller

namespace Phase

/-- Whether a call waits for an answer. -/
def awaits : Phase → Bool
  | awaiting _ => true
  | _ => false

/-- Whether a call has heard an answer and holds the poller still. -/
def takesIn : Phase → Bool
  | feeding .. | storing .. | finishing _ | reporting .. | announcing _ => true
  | releasing outcome => outcome != .skipped
  | _ => false

/-- Whether a call has heard a successful answer. -/
def succeeds : Phase → Bool
  | feeding .. | storing .. | finishing _ | reporting .. | announcing _ => true
  | releasing (.updated ..) | ended (.updated ..) => true
  | _ => false

theorem holds_of_awaits {phase : Phase} (h : phase.awaits = true) : phase.holds = true := by
  cases phase <;> first | rfl | cases h

theorem awaits_of_not_holds {phase : Phase} (h : phase.holds = false) : phase.awaits = false := by
  by_contra hAwaits
  simp [holds_of_awaits (by simpa using hAwaits)] at h

end Phase

/-- Two states with the same log read, reported in the same way. -/
structure Shared.SameLog (s t : Shared) : Prop where
  nextOffset : s.poller.nextOffset = t.poller.nextOffset
  finished : s.poller.finished = t.poller.finished
  grouping : s.poller.grouping = t.poller.grouping
  effects : s.effects = t.effects

namespace Call

/-- The answers that a call hears in its next step. -/
def hears (c : Call) (reply : Reply) : List Answer :=
  if c.phase.awaits then [⟨c.completed, reply⟩] else []

theorem completed_step (c : Call) (reply : Reply) (s : Shared) :
    (c.step reply s).2.completed = c.completed := by
  unfold step
  split <;> try rfl
  · split <;> rfl
  · split <;> rfl

theorem hears_of_not_holds {c : Call} (h : c.phase.holds = false) (reply : Reply) :
    c.hears reply = [] := by
  simp [hears, Phase.awaits_of_not_holds h]

/-- A call that does not hold the poller changes nothing, unless it takes hold. -/
theorem step_of_not_holds {c : Call} {s : Shared} (h : c.phase.holds = false)
    (hFlight : c.phase = .locking → s.poller.inFlight = true) (reply : Reply) :
    (c.step reply s).1 = s ∧ (c.step reply s).2.phase.holds = false := by
  obtain ⟨completed, phase⟩ := c
  cases phase with
  | entering =>
    refine ⟨rfl, ?_⟩
    cases hFinished : s.poller.finished <;> simp [step, hFinished, Phase.holds]
  | locking => simp [step, hFlight rfl, Phase.holds]
  | ended outcome => exact ⟨rfl, rfl⟩
  | _ => cases h

/-- A request is made in one phase only, for the offset read before. -/
theorem requested_step (c : Call) (reply : Reply) (s : Shared) :
    (c.step reply s).1.requested = s.requested ∨
      ∃ offset, c.phase = .requesting offset ∧
        (c.step reply s).1.requested = s.requested ++ [offset] := by
  obtain ⟨completed, phase⟩ := c
  cases phase with
  | requesting offset => exact .inr ⟨offset, rfl, rfl⟩
  | locking =>
    simp only [step]
    split <;> exact .inl rfl
  | awaiting offset => cases reply <;> exact .inl rfl
  | _ => exact .inl rfl

/-- The offset is moved on in one phase only. -/
theorem nextOffset_step (c : Call) (reply : Reply) (s : Shared) :
    (c.step reply s).1.poller.nextOffset = s.poller.nextOffset ∨
      ∃ offset lines, c.phase = .storing offset lines ∧
        (c.step reply s).1.poller.nextOffset = offset ∧
        (c.step reply s).2.phase = .finishing lines := by
  obtain ⟨completed, phase⟩ := c
  cases phase with
  | storing offset lines => exact .inr ⟨offset, lines, rfl, rfl, rfl⟩
  | locking =>
    simp only [step]
    split <;> exact .inl rfl
  | awaiting offset => cases reply <;> exact .inl rfl
  | _ => exact .inl rfl

/-- Only a call that has heard a successful answer touches the log. -/
theorem sameLog_step {c : Call} (h : c.phase.succeeds = false) (reply : Reply) (s : Shared) :
    (c.step reply s).1.SameLog s := by
  obtain ⟨completed, phase⟩ := c
  cases phase with
  | locking =>
    simp only [step]
    split <;> exact ⟨rfl, rfl, rfl, rfl⟩
  | awaiting offset => cases reply <;> exact ⟨rfl, rfl, rfl, rfl⟩
  | entering | rechecking | locating | requesting | releasing | ended => exact ⟨rfl, rfl, rfl, rfl⟩
  | _ => cases h

/-- A call that has heard a successful answer ends with it. -/
theorem succeeds_step {c : Call} (h : c.phase.succeeds = true) (reply : Reply) (s : Shared) :
    (c.step reply s).2.phase.succeeds = true := by
  obtain ⟨completed, phase⟩ := c
  cases phase with
  | feeding offset chunk =>
    simp only [step]
    split <;> rfl
  | reporting lines isFirst => cases isFirst <;> rfl
  | releasing outcome | ended outcome => cases outcome <;> first | rfl | cases h
  | storing | finishing | announcing => rfl
  | _ => cases h

end Call

/-!
## Stages of a request

What the calls share while one of them holds the poller: a request is marked as under way, the log
is asked for, the new lines of the answer are handed on, the offset is moved on, the end of polling
is noted, the fetch is reported, and at last the mark is taken away.
-/

namespace Shared

def held (s : Shared) : Shared := { s with poller := { s.poller with inFlight := true } }

def asked (s : Shared) : Shared := s.held.request s.poller.nextOffset

def fedWith (s : Shared) (c : Chunk) : Shared := s.asked.feed (newLines s.poller.nextOffset c)

def movedTo (s : Shared) (c : Chunk) : Shared :=
  let nextOffset :=
    if s.poller.nextOffset < c.nextOffset then c.nextOffset else s.poller.nextOffset
  { s.fedWith c with poller := { (s.fedWith c).poller with nextOffset := nextOffset } }

theorem movedTo_of_lt {s : Shared} {c : Chunk} (h : s.poller.nextOffset < c.nextOffset) :
    s.movedTo c =
      { s.fedWith c with poller := { (s.fedWith c).poller with nextOffset := c.nextOffset } } := by
  rw [movedTo, if_pos h]

theorem movedTo_of_not_lt {s : Shared} {c : Chunk} (h : ¬ s.poller.nextOffset < c.nextOffset) :
    s.movedTo c = s.fedWith c := by
  rw [movedTo, if_neg h]
  rfl

def noted (s : Shared) (completed : Bool) (c : Chunk) : Shared :=
  let finished := s.poller.finished || completed
  { s.movedTo c with poller := { (s.movedTo c).poller with finished := finished } }

def reported (s : Shared) (completed : Bool) (c : Chunk) : Shared :=
  let told := (s.noted completed c).report .updated
  if completed && !s.poller.finished then told.report .completed else told

def released (s : Shared) : Shared := { s with poller := { s.poller with inFlight := false } }

theorem released_held {s : Shared} (h : s.poller.inFlight = false) : s.held.released = s := by
  obtain ⟨⟨grouping, chunkSize, nextOffset, inFlight, finished⟩, requested, effects⟩ := s
  cases h
  rfl

theorem released_asked (s : Shared) (completed : Bool) (cause : Failure) :
    s.asked.released = s.serve ⟨completed, .error cause⟩ := by
  rw [serve_of_error rfl]
  rfl

theorem released_reported (s : Shared) (completed : Bool) (c : Chunk) :
    (s.reported completed c).released = s.serve ⟨completed, .ok c⟩ := by
  have hNoted : (s.noted completed c).effects =
      s.effects ++ (feedAll s.poller.grouping (s.newBatches c)).2 := rfl
  rw [serve_of_ok rfl, reported]
  split
  · simp only [released, report, hNoted, List.append_assoc]
    rfl
  · simp only [released, report, hNoted, List.append_assoc]
    rfl

end Shared

/-! ## Phases of the call -/

/-- What the calls share when one of them holds the poller, by its phase and by what it has heard;
`base` is the state in which it took hold. -/
inductive Progress (base : Shared) (completed : Bool) : Phase → Shared → List Answer → Prop
  | rechecking : Progress base completed .rechecking base.held []
  | skipping : Progress base completed (.releasing .skipped) base.held []
  | locating (hFinished : base.poller.finished = false) :
    Progress base completed .locating base.held []
  | requesting (hFinished : base.poller.finished = false) :
    Progress base completed (.requesting base.poller.nextOffset) base.held []
  | awaiting : Progress base completed (.awaiting base.poller.nextOffset) base.asked []
  | failing (cause : Failure) :
    Progress base completed (.releasing (.failed cause)) base.asked [⟨completed, .error cause⟩]
  | feeding (c : Chunk) :
    Progress base completed (.feeding base.poller.nextOffset c) base.asked [⟨completed, .ok c⟩]
  | storing (c : Chunk) (lines : Nat) (hBeyond : base.poller.nextOffset < c.nextOffset) :
    Progress base completed (.storing c.nextOffset lines) (base.fedWith c) [⟨completed, .ok c⟩]
  | finishing (c : Chunk) (lines : Nat) :
    Progress base completed (.finishing lines) (base.movedTo c) [⟨completed, .ok c⟩]
  | reporting (c : Chunk) (lines : Nat) :
    Progress base completed (.reporting lines (completed && !base.poller.finished))
      (base.noted completed c) [⟨completed, .ok c⟩]
  | announcing (c : Chunk) (lines : Nat) (hFirst : (completed && !base.poller.finished) = true) :
    Progress base completed (.announcing lines) ((base.noted completed c).report .updated)
      [⟨completed, .ok c⟩]
  | updating (c : Chunk) (lines : Nat) :
    Progress base completed (.releasing (.updated lines completed)) (base.reported completed c)
      [⟨completed, .ok c⟩]

namespace Progress

variable {base s : Shared} {completed : Bool} {phase : Phase} {own : List Answer}

theorem holds (h : Progress base completed phase s own) : phase.holds = true := by
  cases h <;> rfl

theorem inFlight (h : Progress base completed phase s own) : s.poller.inFlight = true := by
  cases h with
  | updating c lines =>
    unfold Shared.reported
    split <;> rfl
  | _ => rfl

/-- A call only asks while polling is not over, and for the offset that all calls share. -/
theorem of_requesting {offset : Nat} (h : Progress base completed (.requesting offset) s own) :
    offset = s.poller.nextOffset ∧ s.poller.finished = false := by
  cases h with
  | requesting hFinished => exact ⟨rfl, hFinished⟩

/-- An offset is only moved on. -/
theorem of_storing {offset lines : Nat} (h : Progress base completed (.storing offset lines) s own) :
    s.poller.nextOffset < offset := by
  cases h with
  | storing c lines hBeyond => exact hBeyond

/-- A call that takes nothing in has left the poller as it found it, but for the mark of a
request. -/
theorem of_not_takesIn (h : Progress base completed phase s own) (hPhase : phase.takesIn = false) :
    own = [] ∧ s.poller = base.held.poller ∧ s.effects = base.effects := by
  cases h with
  | rechecking | skipping | locating | requesting | awaiting => exact ⟨rfl, rfl, rfl⟩
  | _ => cases hPhase

/-- A request is made for every answer, and one more while the call waits. -/
theorem length_requested (h : Progress base completed phase s own) :
    s.requested.length =
      base.requested.length + own.length + if phase.awaits = true then 1 else 0 := by
  cases h with
  | rechecking | skipping | locating | requesting => rfl
  | updating c lines =>
    unfold Shared.reported
    split <;> simp [Shared.report, Shared.noted, Shared.movedTo, Shared.fedWith, Shared.asked,
      Shared.held, Shared.request, Shared.feed, Phase.awaits]
  | _ => simp [Shared.report, Shared.noted, Shared.movedTo, Shared.fedWith, Shared.asked,
      Shared.held, Shared.request, Shared.feed, Phase.awaits]

/-- What others have seen so far is the beginning of what they will have seen in the end. -/
theorem effects_prefix (h : Progress base completed phase s own) :
    s.effects <+: (base.serveAll own).effects := by
  have hServed (c : Chunk) : (base.reported completed c).effects =
      (base.serveAll [⟨completed, .ok c⟩]).effects := by
    rw [Shared.serveAll, List.foldl_cons, List.foldl_nil, ← Shared.released_reported]
    rfl
  have hTold (c : Chunk) : ((base.noted completed c).report .updated).effects <+:
      (base.serveAll [⟨completed, .ok c⟩]).effects := by
    rw [← hServed, Shared.reported]
    split
    · exact List.prefix_append _ _
    · exact List.prefix_rfl
  have hNoted (c : Chunk) : (base.noted completed c).effects <+:
      (base.serveAll [⟨completed, .ok c⟩]).effects :=
    (List.prefix_append _ _).trans (hTold c)
  cases h with
  | rechecking | skipping | locating | requesting | awaiting => exact List.prefix_rfl
  | failing cause => exact List.prefix_append _ _
  | feeding c => exact (List.prefix_append base.effects _).trans (hNoted c)
  | storing c | finishing c | reporting c => exact hNoted c
  | announcing c => exact hTold c
  | updating c lines => exact hServed c ▸ List.prefix_rfl

/-- The call goes on to its next phase, or it leaves the poller with its answer served. -/
theorem step {c : Call} (hIdle : base.poller.inFlight = false)
    (h : Progress base c.completed c.phase s own) (reply : Reply) :
    Progress base c.completed (c.step reply s).2.phase (c.step reply s).1 (own ++ c.hears reply) ∨
      (c.step reply s).2.phase.holds = false ∧
        (c.step reply s).1 = base.serveAll (own ++ c.hears reply) := by
  obtain ⟨completed, phase⟩ := c
  dsimp only at h
  cases h with
  | rechecking =>
    left
    have hStep : Call.step reply base.held ⟨completed, .rechecking⟩ =
        (base.held, ⟨completed, if base.poller.finished then .releasing .skipped else .locating⟩) :=
      rfl
    rw [hStep]
    cases hFinished : base.poller.finished with
    | true => exact skipping
    | false => exact locating hFinished
  | skipping =>
    right
    exact ⟨rfl, Shared.released_held hIdle⟩
  | locating hFinished => exact .inl (requesting hFinished)
  | requesting hFinished => exact .inl awaiting
  | awaiting =>
    cases reply with
    | error cause => exact .inl (failing cause)
    | ok c => exact .inl (feeding c)
  | failing cause => exact .inr ⟨rfl, Shared.released_asked base completed cause⟩
  | feeding c =>
    left
    by_cases hBeyond : base.poller.nextOffset < c.nextOffset
    · simp only [Call.step, if_pos hBeyond]
      exact storing c _ hBeyond
    · simp only [Call.step, if_neg hBeyond]
      show Progress base completed (.finishing _) (base.fedWith c) [⟨completed, .ok c⟩]
      rw [← Shared.movedTo_of_not_lt hBeyond]
      exact finishing c _
  | storing c lines hBeyond =>
    left
    have hMoved : Progress base completed (.finishing lines) (base.movedTo c)
        [⟨completed, .ok c⟩] := finishing c lines
    rw [Shared.movedTo_of_lt hBeyond] at hMoved
    exact hMoved
  | finishing c lines => exact .inl (reporting c lines)
  | reporting c lines =>
    left
    cases hFirst : completed && !base.poller.finished with
    | true => exact announcing c lines hFirst
    | false =>
      have hReported : Progress base completed (.releasing (.updated lines completed))
          (base.reported completed c) [⟨completed, .ok c⟩] := updating c lines
      rw [Shared.reported, hFirst] at hReported
      exact hReported
  | announcing c lines hFirst =>
    left
    have hReported : Progress base completed (.releasing (.updated lines completed))
        (base.reported completed c) [⟨completed, .ok c⟩] := updating c lines
    rw [Shared.reported, hFirst] at hReported
    exact hReported
  | updating c lines => exact .inr ⟨rfl, Shared.released_reported base completed c⟩

end Progress

end BuildLog.Poller
