import BuildLog.Poller.Overlap
import BuildLog.Proofs.Poller.Progress

/-!
# One request at a time

Any number of calls of a poller take their steps in any order. At every moment at most one of them
holds the poller, and the others leave it alone, so the calls make of the answers they hear what
calls that follow each other would have made of them.

* `received`: the answers that calls hear, in the order in which they hear them.
* `Tracks`, `run_tracks`: what the calls share, from the answers and from the call that holds the
  poller.
* `run_alone`: a call that the others leave alone is a call of `Poller.notify`.
* `run_singleFlight`: what holds in every state that overlapping calls can reach.
-/

namespace BuildLog.Poller.Overlap

/-- The answers heard in a step. -/
def hears (o : Overlap) (choice : Choice) : List Answer :=
  match o.calls[choice.place]? with
  | none => []
  | some c => c.hears choice.reply

/-- The answers heard while steps are taken in an order. -/
def received (o : Overlap) : List Choice → List Answer
  | [] => []
  | choice :: order => o.hears choice ++ (o.step choice).received order

/-- The number of requests that have no answer yet. -/
def outstanding (o : Overlap) : Nat := o.calls.countP (·.phase.awaits)

theorem received_concat (o : Overlap) (order : List Choice) (choice : Choice) :
    o.received (order ++ [choice]) = o.received order ++ (o.run order).hears choice := by
  induction order generalizing o with
  | nil => simp [received, run]
  | cons first order ih => simp [received, run, ih (o.step first)]

/-! ## One step -/

theorem step_of_none {o : Overlap} {choice : Choice} (h : o.calls[choice.place]? = none) :
    o.step choice = o ∧ o.hears choice = [] := by
  simp [step, hears, h]

theorem step_of_some {o : Overlap} {choice : Choice} {c : Call}
    (h : o.calls[choice.place]? = some c) :
    (o.step choice).shared = (c.step choice.reply o.shared).1 ∧
      o.hears choice = c.hears choice.reply := by
  simp [step, hears, h]

theorem calls_step_self {o : Overlap} {choice : Choice} {c : Call}
    (h : o.calls[choice.place]? = some c) :
    (o.step choice).calls[choice.place]? = some (c.step choice.reply o.shared).2 := by
  have hPlace := (List.getElem?_eq_some_iff.mp h).1
  simp only [step, h, List.getElem?_set_self hPlace]

theorem calls_step_of_ne (o : Overlap) {choice : Choice} {i : Nat} (hi : i ≠ choice.place) :
    (o.step choice).calls[i]? = o.calls[i]? := by
  unfold step
  split
  · rfl
  · exact List.getElem?_set_ne hi.symm

/-- A call that holds the poller behind a step has taken that step, or held it before. -/
theorem holds_step {o : Overlap} {choice : Choice} {c d : Call} {i : Nat}
    (h : o.calls[choice.place]? = some c) (hd : (o.step choice).calls[i]? = some d)
    (hHolds : d.phase.holds = true) :
    i = choice.place ∧ (c.step choice.reply o.shared).2.phase.holds = true ∨
      i ≠ choice.place ∧ o.calls[i]? = some d := by
  by_cases hi : i = choice.place
  · subst hi
    obtain rfl := Option.some.inj ((calls_step_self h).symm.trans hd)
    exact .inl ⟨rfl, hHolds⟩
  · exact .inr ⟨hi, (calls_step_of_ne o hi).symm.trans hd⟩

/-- If no other call holds the poller before a step, none does behind it. -/
theorem only_holds_step {o : Overlap} {choice : Choice} {c : Call}
    (h : o.calls[choice.place]? = some c)
    (hOnly : ∀ (i : Nat) (d : Call), o.calls[i]? = some d → d.phase.holds = true →
      i = choice.place) :
    ∀ (i : Nat) (d : Call), (o.step choice).calls[i]? = some d → d.phase.holds = true →
      i = choice.place := by
  intro i d hd hHolds
  obtain ⟨hi, -⟩ | ⟨-, hOld⟩ := holds_step h hd hHolds
  · exact hi
  · exact hOnly i d hOld hHolds

theorem none_holds_step {o : Overlap} {choice : Choice} {c : Call}
    (h : o.calls[choice.place]? = some c)
    (hOnly : ∀ (i : Nat) (d : Call), o.calls[i]? = some d → d.phase.holds = true →
      i = choice.place)
    (hAfter : (c.step choice.reply o.shared).2.phase.holds = false) :
    ∀ (i : Nat) (d : Call), (o.step choice).calls[i]? = some d → d.phase.holds = false := by
  intro i d hd
  by_contra hHolds
  rw [Bool.not_eq_false] at hHolds
  obtain rfl := only_holds_step h hOnly i d hd hHolds
  obtain rfl := Option.some.inj ((calls_step_self h).symm.trans hd)
  simp [hAfter] at hHolds

/-! ## The call that holds the poller -/

/-- What the calls share once some answers have been heard: when no call holds the poller, it has
served them all, and when one does, all but the one that this call has heard. -/
inductive Tracks (p : Poller) (o : Overlap) : List Answer → Prop
  | free {answers : List Answer}
    (hNone : ∀ (i : Nat) (c : Call), o.calls[i]? = some c → c.phase.holds = false)
    (hShared : o.shared = Shared.serveAll ⟨p, [], []⟩ answers) : Tracks p o answers
  | held {i : Nat} {c : Call} {earlier own : List Answer} (hCall : o.calls[i]? = some c)
    (hOnly : ∀ (j : Nat) (d : Call), o.calls[j]? = some d → d.phase.holds = true → j = i)
    (hProgress : Progress (Shared.serveAll ⟨p, [], []⟩ earlier) c.completed c.phase o.shared own) :
    Tracks p o (earlier ++ own)

theorem start_tracks (p : Poller) (completed : List Bool) : Tracks p (start p completed) [] := by
  refine .free ?_ rfl
  intro i c hc
  simp only [start, List.getElem?_map, Option.map_eq_some_iff] at hc
  obtain ⟨flag, -, rfl⟩ := hc
  rfl

variable {p : Poller} {o : Overlap} {answers : List Answer}

/-- A step while no call holds the poller: it has no effect, or the call takes hold. -/
theorem Tracks.step_free (hp : p.inFlight = false)
    (hNone : ∀ (i : Nat) (c : Call), o.calls[i]? = some c → c.phase.holds = false)
    (hShared : o.shared = Shared.serveAll ⟨p, [], []⟩ answers) {choice : Choice} {c : Call}
    (hc : o.calls[choice.place]? = some c) :
    Tracks p (o.step choice) (answers ++ o.hears choice) := by
  have hHolds := hNone _ c hc
  have hOnly : ∀ (i : Nat) (d : Call), o.calls[i]? = some d → d.phase.holds = true →
      i = choice.place := by
    intro i d hd hd'
    simp [hNone i d hd] at hd'
  obtain ⟨hNext, hHears⟩ := step_of_some hc
  rw [hHears, Call.hears_of_not_holds hHolds]
  by_cases hLocking : c.phase = .locking
  · -- No request is under way, so the call takes hold.
    obtain ⟨completed, phase⟩ := c
    obtain rfl : phase = .locking := hLocking
    have hFlight : o.shared.poller.inFlight = false := by
      rw [hShared]
      exact Shared.inFlight_serveAll hp answers
    have hStep : Call.step choice.reply o.shared ⟨completed, .locking⟩ =
        (o.shared.held, ⟨completed, .rechecking⟩) := by
      simp [Call.step, hFlight, Shared.held]
    have hCall := calls_step_self hc
    rw [hStep] at hCall hNext
    refine .held hCall (only_holds_step hc hOnly) ?_
    rw [hNext, hShared]
    exact .rechecking
  · obtain ⟨hSame, hAfter⟩ :=
      Call.step_of_not_holds (s := o.shared) hHolds (absurd · hLocking) choice.reply
    rw [List.append_nil]
    exact .free (none_holds_step hc hOnly hAfter) (hNext.trans (hSame.trans hShared))

section Held

variable {i : Nat} {c : Call} {earlier own : List Answer} (hCall : o.calls[i]? = some c)
  (hOnly : ∀ (j : Nat) (d : Call), o.calls[j]? = some d → d.phase.holds = true → j = i)
  (hProgress : Progress (Shared.serveAll ⟨p, [], []⟩ earlier) c.completed c.phase o.shared own)

include hCall hOnly hProgress

/-- A step of the call that holds the poller: it goes on, or lets go with its answer served. -/
theorem Tracks.step_holder (hp : p.inFlight = false) {choice : Choice} (hPlace : choice.place = i) :
    Tracks p (o.step choice) (earlier ++ own ++ o.hears choice) := by
  subst hPlace
  obtain ⟨hNext, hHears⟩ := step_of_some hCall
  have hIdle := Shared.inFlight_serveAll (s := ⟨p, [], []⟩) hp earlier
  rw [hHears, List.append_assoc]
  obtain hGoesOn | ⟨hAfter, hServed⟩ := hProgress.step hIdle choice.reply
  · refine .held (calls_step_self hCall) (only_holds_step hCall hOnly) ?_
    rw [Call.completed_step, hNext]
    exact hGoesOn
  · refine .free (none_holds_step hCall hOnly hAfter) ?_
    rw [hNext, hServed, ← Shared.serveAll_append]

/-- A step of another call has no effect. -/
theorem Tracks.step_other {choice : Choice} {d : Call} (hd : o.calls[choice.place]? = some d)
    (hPlace : choice.place ≠ i) : Tracks p (o.step choice) (earlier ++ own ++ o.hears choice) := by
  obtain ⟨hNext, hHears⟩ := step_of_some hd
  have hHolds : d.phase.holds = false := by
    by_contra hHolds
    exact hPlace (hOnly _ d hd (by simpa using hHolds))
  obtain ⟨hSame, hAfter⟩ :=
    Call.step_of_not_holds hHolds (fun _ => hProgress.inFlight) choice.reply
  rw [hHears, Call.hears_of_not_holds hHolds, List.append_nil]
  refine .held ((calls_step_of_ne o hPlace.symm).trans hCall) ?_ ?_
  · intro j e he he'
    obtain ⟨-, hBad⟩ | ⟨-, hOld⟩ := holds_step hd he he'
    · simp [hAfter] at hBad
    · exact hOnly j e hOld he'
  · rw [hNext, hSame]
    exact hProgress

end Held

/-- Whatever call goes on, the answers heard are the ones served. -/
theorem Tracks.step (hp : p.inFlight = false) (h : Tracks p o answers) (choice : Choice) :
    Tracks p (o.step choice) (answers ++ o.hears choice) := by
  cases hc : o.calls[choice.place]? with
  | none =>
    obtain ⟨hStep, hHears⟩ := step_of_none hc
    rw [hStep, hHears, List.append_nil]
    exact h
  | some d =>
    cases h with
    | free hNone hShared => exact step_free hp hNone hShared hc
    | @held i _ _ _ hCall hOnly hProgress =>
      by_cases hPlace : choice.place = i
      · exact step_holder hCall hOnly hProgress hp hPlace
      · exact step_other hCall hOnly hProgress hc hPlace

theorem run_tracks (hp : p.inFlight = false) (completed : List Bool) (order : List Choice) :
    Tracks p ((start p completed).run order) ((start p completed).received order) := by
  induction order using List.reverseRecOn with
  | nil => exact start_tracks p completed
  | append_singleton order choice ih =>
    rw [run_append, received_concat]
    exact ih.step hp choice

/-! ## What the state of the poller says -/

theorem countP_of_none {q : Call → Bool} {calls : List Call}
    (h : ∀ (i : Nat) (c : Call), calls[i]? = some c → q c = false) : calls.countP q = 0 := by
  rw [List.countP_eq_zero]
  intro c hc
  obtain ⟨i, hi⟩ := List.mem_iff_getElem?.mp hc
  simp [h i c hi]

theorem countP_of_only {q : Call → Bool} {calls : List Call} {i : Nat} {c : Call}
    (hCall : calls[i]? = some c)
    (hOnly : ∀ (j : Nat) (d : Call), calls[j]? = some d → q d = true → j = i) :
    calls.countP q = if q c = true then 1 else 0 := by
  induction calls generalizing i with
  | nil => cases hCall
  | cons first calls ih =>
    rw [List.countP_cons]
    cases i with
    | zero =>
      obtain rfl := Option.some.inj hCall
      have hRest : calls.countP q = 0 := by
        apply countP_of_none
        intro j d hd
        by_contra hq
        cases hOnly (j + 1) d hd (by simpa using hq)
      rw [hRest, Nat.zero_add]
    | succ i =>
      have hFirst : q first = false := by
        by_contra hq
        cases hOnly 0 first rfl (by simpa using hq)
      rw [hFirst]
      refine ih hCall fun j d hd hq => ?_
      exact Nat.succ.inj (hOnly (j + 1) d hd hq)

/-- The mark of a request is set exactly while one call holds the poller. -/
theorem Tracks.holders_eq (hp : p.inFlight = false) (h : Tracks p o answers) :
    o.holders = if o.shared.poller.inFlight = true then 1 else 0 := by
  cases h with
  | free hNone hShared =>
    have hIdle : o.shared.poller.inFlight = false := by
      rw [hShared]
      exact Shared.inFlight_serveAll hp answers
    rw [holders, countP_of_none hNone, hIdle]
    rfl
  | held hCall hOnly hProgress =>
    rw [holders, countP_of_only hCall hOnly, hProgress.holds, hProgress.inFlight]

/-- Only the call that holds the poller can wait for an answer. -/
theorem Tracks.requests (h : Tracks p o answers) :
    o.outstanding ≤ 1 ∧ o.shared.requested.length = answers.length + o.outstanding := by
  cases h with
  | free hNone hShared =>
    have hNoneAwaits : o.outstanding = 0 := by
      apply countP_of_none
      intro i c hc
      exact Phase.awaits_of_not_holds (hNone i c hc)
    rw [hNoneAwaits, hShared, Shared.length_requested_serveAll]
    simp
  | @held i c earlier own hCall hOnly hProgress =>
    have hOne : o.outstanding = if c.phase.awaits = true then 1 else 0 :=
      countP_of_only hCall fun j d hd hAwaits => hOnly j d hd (Phase.holds_of_awaits hAwaits)
    have hLength := hProgress.length_requested
    rw [Shared.length_requested_serveAll, ← hOne] at hLength
    refine ⟨?_, by simpa using hLength⟩
    rw [hOne]
    split <;> omega

/-- A request asks for the offset that all calls share, and is not made once polling is over. -/
theorem Tracks.requested_step (h : Tracks p o answers) (choice : Choice) :
    (o.step choice).shared.requested = o.shared.requested ∨
      o.shared.poller.finished = false ∧
        (o.step choice).shared.requested = o.shared.requested ++ [o.shared.poller.nextOffset] := by
  cases hc : o.calls[choice.place]? with
  | none => exact .inl (by rw [(step_of_none hc).1])
  | some c =>
    rw [(step_of_some hc).1]
    obtain hSame | ⟨offset, hPhase, hAsked⟩ := c.requested_step choice.reply o.shared
    · exact .inl hSame
    · right
      cases h with
      | free hNone _ => simpa [hPhase, Phase.holds] using hNone _ c hc
      | held hCall hOnly hProgress =>
        obtain rfl := hOnly _ c hc (by rw [hPhase]; rfl)
        obtain rfl := Option.some.inj (hc.symm.trans hCall)
        rw [hPhase] at hProgress
        obtain ⟨rfl, hFinished⟩ := hProgress.of_requesting
        exact ⟨hFinished, hAsked⟩

/-- The offset that all calls share never goes back. -/
theorem Tracks.nextOffset_le_step (h : Tracks p o answers) (choice : Choice) :
    o.shared.poller.nextOffset ≤ (o.step choice).shared.poller.nextOffset := by
  cases hc : o.calls[choice.place]? with
  | none => exact Nat.le_of_eq (by rw [(step_of_none hc).1])
  | some c =>
    rw [(step_of_some hc).1]
    obtain hSame | ⟨offset, lines, hPhase, hStored, -⟩ := c.nextOffset_step choice.reply o.shared
    · exact Nat.le_of_eq hSame.symm
    · rw [hStored]
      cases h with
      | free hNone _ => simpa [hPhase, Phase.holds] using hNone _ c hc
      | held hCall hOnly hProgress =>
        obtain rfl := hOnly _ c hc (by rw [hPhase]; rfl)
        obtain rfl := Option.some.inj (hc.symm.trans hCall)
        rw [hPhase] at hProgress
        exact Nat.le_of_lt hProgress.of_storing

/-- Calls that do not hold the poller say nothing about what is shared. -/
theorem Tracks.congr {o' : Overlap} (h : Tracks p o answers) (hShared : o'.shared = o.shared)
    (hCalls : ∀ (i : Nat) (c : Call), c.phase.holds = true →
      (o'.calls[i]? = some c ↔ o.calls[i]? = some c)) : Tracks p o' answers := by
  cases h with
  | free hNone hServed =>
    refine .free (fun i c hc => ?_) (hShared.trans hServed)
    by_contra hHolds
    rw [Bool.not_eq_false] at hHolds
    simp [hNone i c ((hCalls i c hHolds).mp hc)] at hHolds
  | held hCall hOnly hProgress =>
    refine .held ((hCalls _ _ hProgress.holds).mpr hCall) (fun j d hd hHolds => ?_) ?_
    · exact hOnly j d ((hCalls j d hHolds).mp hd) hHolds
    · rw [hShared]
      exact hProgress

theorem Tracks.completions (hp : p.IsNew) (h : Tracks p o answers) :
    o.shared.effects.count .completed ≤ 1 := by
  have hServed := (serveAll_served hp answers).completions
  have hAll : o.shared.effects <+: (Shared.serveAll ⟨p, [], []⟩ answers).effects := by
    cases h with
    | free _ hShared => exact hShared ▸ List.prefix_rfl
    | held _ _ hProgress =>
      rw [Shared.serveAll_append]
      exact hProgress.effects_prefix
  have hCount := hAll.sublist.count_le .completed
  rw [hServed] at hCount
  split at hCount <;> omega

/-- While no call takes an answer in, the poller has served all answers that were heard. -/
theorem Tracks.served (hp : p.IsNew) (h : Tracks p o answers)
    (hQuiet : ∀ c ∈ o.calls, c.phase.takesIn = false) : Served p answers o.shared := by
  cases h with
  | free _ hShared =>
    rw [hShared]
    exact serveAll_served hp answers
  | held hCall _ hProgress =>
    obtain ⟨rfl, hPoller, hEffects⟩ :=
      hProgress.of_not_takesIn (hQuiet _ (List.mem_of_getElem? hCall))
    rw [List.append_nil]
    have hBase := serveAll_served hp ‹_›
    constructor
    · rw [hPoller]
      exact hBase.chunkSize
    · rw [hPoller]
      exact hBase.nextOffset
    · rw [hPoller]
      exact hBase.finished
    · rw [hPoller]
      exact hBase.grouping
    · rw [hEffects]
      exact hBase.fed
    · rw [hEffects]
      exact hBase.updates
    · rw [hEffects]
      exact hBase.completions

/-! ## Calls that come to nothing -/

theorem succeeds_step {c : Call} {i : Nat} (h : o.calls[i]? = some c)
    (hSucceeds : c.phase.succeeds = true) (choice : Choice) :
    ∃ d, (o.step choice).calls[i]? = some d ∧ d.phase.succeeds = true := by
  by_cases hi : i = choice.place
  · subst hi
    exact ⟨_, calls_step_self h, Call.succeeds_step hSucceeds choice.reply o.shared⟩
  · exact ⟨c, (calls_step_of_ne o hi).trans h, hSucceeds⟩

/-- A call that has heard a successful answer will not have come to nothing. -/
theorem succeeds_run {c : Call} {i : Nat} (h : o.calls[i]? = some c)
    (hSucceeds : c.phase.succeeds = true) (order : List Choice) :
    ∃ d, (o.run order).calls[i]? = some d ∧ d.phase.succeeds = true := by
  induction order generalizing o c with
  | nil => exact ⟨c, h, hSucceeds⟩
  | cons choice order ih =>
    obtain ⟨d, hd, hNext⟩ := succeeds_step h hSucceeds choice
    exact ih hd hNext

/-- No step of a call touches the log if the call is not found to succeed later on. -/
theorem sameLog_step {d : Call} {choice : Choice} (later : List Choice)
    (hd : ((o.step choice).run later).calls[choice.place]? = some d)
    (hFails : d.phase.succeeds = false) : (o.step choice).shared.SameLog o.shared := by
  cases hc : o.calls[choice.place]? with
  | none =>
    rw [(step_of_none hc).1]
    exact ⟨rfl, rfl, rfl, rfl⟩
  | some c =>
    rw [(step_of_some hc).1]
    apply Call.sameLog_step
    by_contra hSucceeds
    obtain ⟨e, he, hNext⟩ := succeeds_step hc (by simpa using hSucceeds) choice
    obtain ⟨d', hd', hLater⟩ := succeeds_run he hNext later
    obtain rfl := Option.some.inj (hd.symm.trans hd')
    simp [hLater] at hFails

/-! ## A call that is left alone -/

theorem step_of_call {o : Overlap} {i : Nat} {c : Call} (h : o.calls[i]? = some c) (reply : Reply) :
    o.step ⟨i, reply⟩ =
      ⟨(c.step reply o.shared).1, o.calls.set i (c.step reply o.shared).2⟩ := by
  simp only [step, h]

/-- Steps of one call only are those that the call takes by itself. -/
theorem run_replicate {o : Overlap} {i : Nat} {c : Call} (h : o.calls[i]? = some c)
    (reply : Reply) (count : Nat) :
    o.run (List.replicate count ⟨i, reply⟩) =
      ⟨(Call.iterate reply count (o.shared, c)).1,
        o.calls.set i (Call.iterate reply count (o.shared, c)).2⟩ := by
  induction count generalizing o c with
  | zero =>
    obtain ⟨hPlace, rfl⟩ := List.getElem?_eq_some_iff.mp h
    simp [run, Call.iterate]
  | succ count ih =>
    have hNext : (o.step ⟨i, reply⟩).calls[i]? = some (c.step reply o.shared).2 :=
      calls_step_self h
    rw [List.replicate_succ, run, List.foldl_cons, ← run, ih hNext, step_of_call h]
    simp [Call.iterate]

/-- A call whose steps are taken one after the other does what `Poller.notify` does at once, in
whatever state the other calls are. -/
theorem run_alone {o : Overlap} {i : Nat} {completed : Bool}
    (h : o.calls[i]? = some ⟨completed, .entering⟩) (source : Script) :
    let reply := (source.fetch o.shared.poller.nextOffset).1
    let alone := o.run (List.replicate Call.mostSteps ⟨i, reply⟩)
    let notified := o.shared.poller.notify source completed
    alone.shared.poller = notified.1.1 ∧
      alone.shared.effects = o.shared.effects ++ notified.2.2 ∧
      ∃ c, alone.calls[i]? = some c ∧ c.phase = .ended notified.2.1 := by
  intro reply alone notified
  have hPlace := (List.getElem?_eq_some_iff.mp h).1
  obtain ⟨hPoller, hPhase, hEffects⟩ := Call.iterate_step o.shared source completed
  have hAlone : alone = _ := run_replicate h reply Call.mostSteps
  rw [hAlone]
  exact ⟨hPoller, hEffects, _, List.getElem?_set_self hPlace, hPhase⟩

/-! ## Overlapping calls of a new poller -/

/-- What holds between two steps of overlapping calls that have heard some answers. -/
structure SingleFlight (p : Poller) (o : Overlap) (answers : List Answer) : Prop where
  /-- A request is marked as under way exactly while one call holds the poller. -/
  holders : o.holders = if o.shared.poller.inFlight = true then 1 else 0
  outstanding : o.outstanding ≤ 1
  requests : o.shared.requested.length = answers.length + o.outstanding
  /-- Whichever call makes the next request asks for the offset of that moment, and there is no
  next request once polling is over. -/
  asks : ∀ choice, (o.step choice).shared.requested = o.shared.requested ∨
    o.shared.poller.finished = false ∧
      (o.step choice).shared.requested = o.shared.requested ++ [o.shared.poller.nextOffset]
  completions : o.shared.effects.count .completed ≤ 1
  /-- The mark of a request is never that of a call that has ended. -/
  released : ∀ (i : Nat) (c : Call) (outcome : Outcome), o.calls[i]? = some c →
    c.phase = .ended outcome → o.shared.poller.inFlight = true →
      ∃ j d, j ≠ i ∧ o.calls[j]? = some d ∧ d.phase.holds = true
  /-- While no call takes an answer in, the poller has gone through all answers that were heard. -/
  served : (∀ c ∈ o.calls, c.phase.takesIn = false) → Served p answers o.shared ∧
    o.shared.poller.nextOffset = reach (answers.filterMap Answer.chunk?)

theorem Tracks.released (hp : p.inFlight = false) (h : Tracks p o answers) {i : Nat} {c : Call}
    {outcome : Outcome} (hc : o.calls[i]? = some c) (hEnded : c.phase = .ended outcome)
    (hFlight : o.shared.poller.inFlight = true) :
    ∃ j d, j ≠ i ∧ o.calls[j]? = some d ∧ d.phase.holds = true := by
  cases h with
  | free _ hShared =>
    rw [hShared, Shared.inFlight_serveAll hp] at hFlight
    cases hFlight
  | @held j d _ _ hCall _ hProgress =>
    refine ⟨j, d, ?_, hCall, hProgress.holds⟩
    rintro rfl
    obtain rfl := Option.some.inj (hc.symm.trans hCall)
    simpa [hEnded, Phase.holds] using hProgress.holds

theorem Tracks.singleFlight (hp : p.IsNew) (h : Tracks p o answers) : SingleFlight p o answers where
  holders := h.holders_eq hp.inFlight
  outstanding := h.requests.1
  requests := h.requests.2
  asks := h.requested_step
  completions := h.completions hp
  released _ _ _ hc hEnded hFlight := h.released hp.inFlight hc hEnded hFlight
  served hQuiet := by
    have hServed := h.served hp hQuiet
    exact ⟨hServed, hServed.nextOffset.trans (reach_accepted answers)⟩

/-- **One request at a time**, for any number of calls of a new poller and any order of their steps,
whatever they are answered. Moreover no step of a call that is skipped or fails touches the log, and
a call that goes through all its steps at once, in whatever state the others are, is a call of
`Poller.notify`. -/
theorem run_singleFlight (g : Grouping) (size : Nat) (completed : List Bool)
    (order : List Choice) :
    let p : Poller := { grouping := g, chunkSize := size }
    let first := start p completed
    SingleFlight p (first.run order) (first.received order) ∧
      (∀ before choice later c, order = before ++ choice :: later →
        (first.run order).calls[choice.place]? = some c →
        (c.phase = .ended .skipped ∨ ∃ cause, c.phase = .ended (.failed cause)) →
        (first.run (before ++ [choice])).shared.SameLog (first.run before).shared) ∧
      ∀ i flag source, (first.run order).calls[i]? = some ⟨flag, .entering⟩ →
        let reached := (first.run order).shared
        let reply := (source.fetch reached.poller.nextOffset).1
        let alone := (first.run order).run (List.replicate Call.mostSteps ⟨i, reply⟩)
        let notified := reached.poller.notify source flag
        alone.shared.poller = notified.1.1 ∧
          alone.shared.effects = reached.effects ++ notified.2.2 ∧
          ∃ c, alone.calls[i]? = some c ∧ c.phase = .ended notified.2.1 := by
  intro p first
  refine ⟨(run_tracks rfl completed order).singleFlight ⟨rfl, rfl, rfl⟩, ?_,
    fun i flag source h => run_alone h source⟩
  rintro before choice later c rfl hc hEnded
  have hFails : c.phase.succeeds = false := by
    obtain hPhase | ⟨cause, hPhase⟩ := hEnded <;> rw [hPhase] <;> rfl
  rw [run_append] at hc ⊢
  exact sameLog_step later hc hFails

/-- The first of three calls has served an answer with two lines, the second one waits for the
answer to its request for what follows, and the third one has been skipped. -/
theorem run_singleFlight_of_answered_call :
    let answer : Reply := .ok ⟨"a\nb".toList, 2⟩
    let first := start { chunkSize := 1 } [false, true, false]
    let order : List Choice := List.replicate Call.mostSteps ⟨0, answer⟩ ++
      List.replicate 5 ⟨1, answer⟩ ++ List.replicate 2 ⟨2, answer⟩
    let o := first.run order
    SingleFlight { chunkSize := 1 } o (first.received order) ∧
      (first.received order).map (·.reply) = [answer] ∧ o.outstanding = 1 ∧
      o.shared.requested = [0, 2] ∧ o.shared.poller.nextOffset = 2 ∧
      o.calls.map (·.phase) = [.ended (.updated 2 false), .awaiting 2, .ended .skipped] := by
  intro answer first order o
  obtain ⟨hFlight, -⟩ := run_singleFlight {} 1 [false, true, false] order
  exact ⟨hFlight, by decide +kernel, by decide +kernel, by decide +kernel, by decide +kernel,
    by decide +kernel⟩

end BuildLog.Poller.Overlap
