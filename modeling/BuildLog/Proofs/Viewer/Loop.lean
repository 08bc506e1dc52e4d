import BuildLog.Proofs.Viewer.Scrolling
import BuildLog.Viewer.Loop

/-!
# Runs of the loop

The loop only knows that its screen is out of date by a flag, which messages and input set in
different places and drawing clears. Whatever it drives, no turn waits for input in front of a stale
screen, nor does it draw for nothing; and messages and events are taken in as they came, each once.

* `Loop.turn_spec`: what a turn makes of the state and the flag.
* `Loop.run_reads`: a run goes through turns until the first one that it is to stop behind.
* `Loop.Fresh`: what was drawn last is the state, unless the flag says otherwise.
* `Loop.run_prompt`: what is seen of every run.
-/

namespace BuildLog.Viewer

variable {V : Type}

/-- What a turn has taken in, in order: the messages, and then the event. -/
def Visit.steps (visit : Visit V) : List Step :=
  visit.taken.map .update ++ visit.event.toList.map .event

variable [Driven V]

/-- Take in a message or an event. -/
def Driven.step (v : V) : Step → V
  | .update u => Driven.receive v u
  | .event e => Driven.handle v e

namespace Loop

/-- The state behind some turns, if none of them ends the loop. -/
def after (l : Loop V) (turns : List Turn) : Loop V := turns.foldl (fun l t => (l.turn t).2) l

/-- What is seen of these turns. -/
def visits (l : Loop V) : List Turn → List (Visit V)
  | [] => []
  | t :: turns => (l.turn t).1 :: (l.turn t).2.visits turns

theorem after_cons (l : Loop V) (t : Turn) (turns : List Turn) :
    l.after (t :: turns) = (l.turn t).2.after turns := rfl

theorem after_take_succ (l : Loop V) {turns : List Turn} {k : Nat} {t : Turn}
    (ht : turns[k]? = some t) :
    l.after (turns.take (k + 1)) = ((l.after (turns.take k)).turn t).2 := by
  simp [after, List.take_add_one, ht]

theorem visits_take (l : Loop V) (turns : List Turn) (k : Nat) :
    l.visits (turns.take k) = (l.visits turns).take k := by
  induction turns generalizing l k with
  | nil => simp [visits]
  | cons t turns ih =>
    cases k with
    | zero => rfl
    | succ k => simp [visits, ih]

theorem getElem?_visits (l : Loop V) (turns : List Turn) (k : Nat) :
    (l.visits turns)[k]? = turns[k]?.map fun t => ((l.after (turns.take k)).turn t).1 := by
  induction turns generalizing l k with
  | nil => rfl
  | cons t turns ih =>
    cases k with
    | zero => rfl
    | succ k => simpa [visits, after_cons] using ih (l.turn t).2 k

/-! ## Single turns -/

/-- A turn takes in all that waited and the event, and leaves what arrived meanwhile. -/
theorem turn_spec (l : Loop V) (t : Turn) :
    (l.turn t).2.viewer = (l.turn t).1.steps.foldl Driven.step l.viewer ∧
      (l.turn t).2.queue = t.arriving ∧ (l.turn t).2.dirty = t.event.isSome := by
  have hTaken : ∀ v : V, (l.queue.map Step.update).foldl Driven.step v =
      l.queue.foldl Driven.receive v := fun v => List.foldl_map
  cases hEvent : t.event with
  | none => simp [turn, input, hEvent, Visit.steps, hTaken, drain]
  | some e => simp [turn, input, hEvent, Visit.steps, hTaken, drain, Driven.step]

/-- A frame is drawn if messages were taken in, or if the screen was out of date. -/
theorem frame_turn (l : Loop V) (t : Turn) :
    (l.turn t).1.frame =
      if l.dirty = true ∨ (l.turn t).1.taken ≠ [] then some (l.turn t).1.waiting else none := by
  simp [turn, drain]

/-- What was drawn last is the state of the viewer, unless the screen is marked as out of date. -/
def Fresh (shown : Option V) (l : Loop V) : Prop := l.dirty = false → shown = some l.viewer

/-- A turn waits for input with its state on the screen, and marks the screen where input changes
the state. -/
theorem Fresh.turn {shown : Option V} {l : Loop V} (h : l.Fresh shown) (t : Turn) :
    (l.turn t).1.frame.or shown = some (l.turn t).1.waiting ∧
      (l.turn t).2.Fresh (some (l.turn t).1.waiting) := by
  have hFrame := l.frame_turn t
  constructor
  · rw [hFrame]
    split
    · rfl
    · next hClean =>
      obtain ⟨hFlag, hNone⟩ := not_or.mp hClean
      have hQueue : l.queue = [] := Classical.not_not.mp hNone
      have hWaiting : (l.turn t).1.waiting = l.viewer := by
        simp [Loop.turn, drain, hQueue]
      rw [hWaiting]
      exact h (by simpa using hFlag)
  · intro hFlag
    have hNone : t.event = none := by
      simpa [(l.turn_spec t).2.2] using hFlag
    simp [Loop.turn, input, hNone]

/-! ## Some turns -/

theorem viewer_after (l : Loop V) (turns : List Turn) :
    (l.after turns).viewer = ((l.visits turns).flatMap Visit.steps).foldl Driven.step l.viewer := by
  induction turns generalizing l with
  | nil => rfl
  | cons t turns ih =>
    rw [after_cons, ih, visits, List.flatMap_cons, List.foldl_append, (l.turn_spec t).1]

/-- Messages are taken in at the first turn behind the one that they arrived in. -/
theorem taken_visits (l : Loop V) (turns : List Turn) :
    (l.visits turns).map (·.taken) ++ [(l.after turns).queue] =
      l.queue :: turns.map (·.arriving) := by
  induction turns generalizing l with
  | nil => rfl
  | cons t turns ih =>
    have hRest := ih (l.turn t).2
    rw [(l.turn_spec t).2.1] at hRest
    rw [visits, after_cons, List.map_cons, List.cons_append, hRest]
    rfl

theorem event_visits (l : Loop V) (turns : List Turn) :
    (l.visits turns).map (·.event) = turns.map (·.event) := by
  induction turns generalizing l with
  | nil => rfl
  | cons t turns ih =>
    rw [visits, List.map_cons, List.map_cons, ih]
    rfl

theorem getLast?_filterMap_cons {α β : Type} (f : α → Option β) (a : α) (as : List α) :
    ((a :: as).filterMap f).getLast? = ((as.filterMap f).getLast?).or (f a) := by
  cases h : f a with
  | none => simp [h]
  | some b =>
    rw [List.filterMap_cons_some h, List.getLast?_cons]
    cases (as.filterMap f).getLast? <;> rfl

/-- The state that waits for input in a turn is the one drawn last. -/
theorem Fresh.visits {shown : Option V} {l : Loop V} (h : l.Fresh shown) {turns : List Turn}
    {k : Nat} {visit : Visit V} (hVisit : (l.visits turns)[k]? = some visit) :
    (((l.visits turns).take (k + 1)).filterMap (·.frame)).getLast?.or shown =
      some visit.waiting := by
  induction turns generalizing l k shown with
  | nil => simp [Loop.visits] at hVisit
  | cons t turns ih =>
    obtain ⟨hDrawn, hNext⟩ := h.turn t
    rw [Loop.visits, List.take_succ_cons, getLast?_filterMap_cons, Option.or_assoc, hDrawn]
    cases k with
    | zero =>
      obtain rfl : (l.turn t).1 = visit := by simpa [Loop.visits] using hVisit
      rfl
    | succ k => exact ih hNext (by simpa [Loop.visits] using hVisit)

/-- A turn takes in its messages before it waits for input. -/
theorem waiting_visits (l : Loop V) {turns : List Turn} {k : Nat} {visit : Visit V}
    (hVisit : (l.visits turns)[k]? = some visit) :
    visit.waiting = visit.taken.foldl Driven.receive
      ((((l.visits turns).take k).flatMap Visit.steps).foldl Driven.step l.viewer) := by
  rw [getElem?_visits] at hVisit
  obtain ⟨t, -, rfl⟩ := Option.map_eq_some_iff.mp hVisit
  rw [← visits_take, ← viewer_after]
  rfl

/-- Of the turns behind the first one, those draw that take in messages or follow an event. -/
theorem isSome_frame_visits (l : Loop V) {turns : List Turn} {k : Nat} {visit : Visit V}
    (hVisit : (l.visits turns)[k]? = some visit) :
    visit.frame.isSome ↔ (k = 0 ∧ l.dirty = true) ∨ visit.taken ≠ [] ∨
      ∃ j before, k = j + 1 ∧ (l.visits turns)[j]? = some before ∧ before.event.isSome := by
  rw [getElem?_visits] at hVisit
  obtain ⟨t, ht, rfl⟩ := Option.map_eq_some_iff.mp hVisit
  have hFrame : (((l.after (turns.take k)).turn t).1.frame.isSome ↔
      (l.after (turns.take k)).dirty = true ∨ ((l.after (turns.take k)).turn t).1.taken ≠ []) := by
    rw [frame_turn]
    split <;> simp [*]
  rw [hFrame]
  cases k with
  | zero => simp [after]
  | succ j =>
    obtain ⟨last, hLast⟩ : ∃ last, turns[j]? = some last := by
      have hLt := (List.getElem?_eq_some_iff.mp ht).1
      exact ⟨_, List.getElem?_eq_getElem (Nat.lt_of_succ_lt hLt)⟩
    have hDirty : (l.after (turns.take (j + 1))).dirty = last.event.isSome := by
      rw [after_take_succ l hLast, (turn_spec _ last).2.2]
    rw [hDirty]
    simp [getElem?_visits, hLast, turn, or_comm]

/-! ## Runs -/

/-- A run goes through some of its turns, one after the other. It ends behind the first one behind
which the loop is to stop, and only there. -/
theorem run_reads (l : Loop V) (turns : List Turn) :
    ∃ read, turns = read ++ (l.run turns).unread ∧ (l.run turns).visits = l.visits read ∧
      (l.run turns).final = l.after read ∧
      (∀ k t, read[k]? = some t → (l.after (read.take (k + 1))).stops t = true →
        k + 1 = read.length) ∧
      ((l.run turns).unread ≠ [] →
        ∃ t, read.getLast? = some t ∧ (l.after read).stops t = true) := by
  induction turns generalizing l with
  | nil => exact ⟨[], by simp [run, after, visits]⟩
  | cons t turns ih =>
    cases hStops : (l.turn t).2.stops t with
    | true =>
      have hRun : l.run (t :: turns) =
          { visits := [(l.turn t).1], final := (l.turn t).2, unread := turns } := by
        simp [run, hStops]
      rw [hRun]
      refine ⟨[t], rfl, rfl, rfl, ?_, fun _ => ⟨t, rfl, hStops⟩⟩
      intro k t' ht' _
      have hLt := (List.getElem?_eq_some_iff.mp ht').1
      simpa using hLt
    | false =>
      obtain ⟨read, hTurns, hVisits, hFinal, hFirst, hLast⟩ := ih (l.turn t).2
      have hRun : l.run (t :: turns) = { (l.turn t).2.run turns with
          visits := (l.turn t).1 :: ((l.turn t).2.run turns).visits } := by
        simp [run, hStops]
      rw [hRun]
      refine ⟨t :: read, by simp [← hTurns], by rw [hVisits]; rfl, hFinal, ?_, ?_⟩
      · intro k t' ht' hStop
        cases k with
        | zero =>
          obtain rfl : t = t' := by simpa using ht'
          simp [after, hStops] at hStop
        | succ k =>
          have hLength := hFirst k t' (by simpa using ht') (by simpa [after_cons] using hStop)
          simp [hLength]
      · intro hUnread
        obtain ⟨t', ht', hStop⟩ := hLast hUnread
        refine ⟨t', ?_, hStop⟩
        rw [List.getLast?_cons, ht']
        rfl

/-- **The loop never shows a stale frame and never drops or reorders input**, whatever it drives. A
run reads some turns. Each takes in the messages that arrived since the one before, and then its
event; the state is what these make of the first one. A turn waits for input in the state drawn last,
and draws only if it is the first one, has taken in messages or follows an event. The run ends behind
the first turn behind which the terminal or the state wants to stop, and only there. -/
theorem run_prompt (v : V) (queue : List Update) (turns : List Turn) :
    let trace := run { viewer := v, queue := queue } turns
    let behind (k : Nat) : V := ((trace.visits.take k).flatMap Visit.steps).foldl Driven.step v
    ∃ read, turns = read ++ trace.unread ∧
      trace.visits.map (·.event) = read.map (·.event) ∧
      trace.visits.map (·.taken) ++ [trace.final.queue] = queue :: read.map (·.arriving) ∧
      trace.final.viewer = behind read.length ∧
      (∀ k visit, trace.visits[k]? = some visit →
        visit.waiting = visit.taken.foldl Driven.receive (behind k) ∧
        ((trace.visits.take (k + 1)).filterMap (·.frame)).getLast? = some visit.waiting ∧
        (visit.frame.isSome ↔ k = 0 ∨ visit.taken ≠ [] ∨
          ∃ j before, k = j + 1 ∧ trace.visits[j]? = some before ∧ before.event.isSome)) ∧
      (∀ k t, read[k]? = some t → (t.stop || Driven.quitRequested (behind (k + 1))) = true →
        k + 1 = read.length) ∧
      (trace.unread ≠ [] → ∃ t, read.getLast? = some t ∧
        (t.stop || Driven.quitRequested trace.final.viewer) = true) := by
  intro trace behind
  obtain ⟨read, hTurns, hVisits, hFinal, hFirst, hLast⟩ :=
    run_reads { viewer := v, queue := queue } turns
  have hBehind : ∀ k, behind k = (after { viewer := v, queue := queue } (read.take k)).viewer := by
    intro k
    rw [viewer_after, visits_take, ← hVisits]
  refine ⟨read, hTurns, ?events, ?taken, ?final, ?visits, ?first, ?last⟩
  case events => rw [hVisits, event_visits]
  case taken => rw [hVisits, hFinal, taken_visits]
  case final => rw [hBehind, List.take_length, hFinal]
  case visits =>
    intro k visit hVisit
    have hFresh : Fresh none { viewer := v, queue := queue } := fun hFlag => by cases hFlag
    rw [hVisits] at hVisit
    have hShown := hFresh.visits hVisit
    have hDrawn := isSome_frame_visits _ hVisit
    have hWaiting := waiting_visits _ hVisit
    rw [← hVisits] at hShown hDrawn hWaiting
    exact ⟨hWaiting, by simpa using hShown, by simpa using hDrawn⟩
  case first =>
    intro k t ht hStop
    rw [hBehind] at hStop
    exact hFirst k t ht hStop
  case last =>
    rw [hFinal]
    exact hLast

end Loop

end BuildLog.Viewer
