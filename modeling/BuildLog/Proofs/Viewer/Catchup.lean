import BuildLog.Proofs.Grouping.Shape
import BuildLog.Proofs.Viewer.Delivery

/-!
# A viewer that lags behind

A viewer that batches are sent to shows, at any moment, what a console has shown that stands next to
the grouping: the one that has been given only part of the inputs, and whose reader has folded the
same sections. What the messages on their way bring is what these inputs still lack.

* `Link.Behind`: a link whose viewer shows a console, with some inputs to come.
* `Link.exists_behind`: every link that is reached is of this kind.
* `Link.lines_of_hasToggle`: so a section that can be folded has a line on display.
-/

namespace BuildLog

namespace Grouping

/-- A batch that is handed over comes from one of the inputs, and those before it do nothing. -/
theorem exists_input_of_handedOver {g : Grouping} {inputs : List Input} {b : Batch}
    {batches : List Batch} (h : g.handedOver inputs = b :: batches) :
    ∃ idle i later, inputs = idle ++ i :: later ∧ g.handedOver idle = [] ∧
      ((g.run idle).act i).2 = some b ∧ ((g.run idle).act i).1.handedOver later = batches := by
  induction inputs generalizing g with
  | nil => cases h
  | cons i inputs ih =>
    rw [handedOver] at h
    cases hBatch : (g.act i).2 with
    | some first =>
      rw [hBatch] at h
      obtain ⟨rfl, hRest⟩ := List.cons.inj h
      exact ⟨[], i, inputs, rfl, rfl, hBatch, hRest⟩
    | none =>
      rw [hBatch] at h
      obtain ⟨idle, next, later, rfl, hIdle, hNext, hRest⟩ := ih h
      refine ⟨i :: idle, next, later, rfl, ?_, hNext, hRest⟩
      rw [handedOver, hBatch, hIdle]
      rfl

end Grouping

namespace Console

theorem run_append (c : Console) (first later : List Action) :
    c.run (first ++ later) = (c.run first).run later := List.foldl_append

/-- Inputs that hand nothing over leave the view alone. -/
theorem run_idle {c : Console} {inputs : List Grouping.Input}
    (h : c.grouping.handedOver inputs = []) :
    c.run (inputs.map .input) = ⟨c.grouping.run inputs, c.view⟩ := by
  induction inputs generalizing c with
  | nil => rfl
  | cons i inputs ih =>
    rw [Grouping.handedOver, List.append_eq_nil_iff, Option.toList_eq_nil_iff] at h
    obtain ⟨hNone, hRest⟩ := h
    have hFirst : c.act (.input i) = ⟨(c.grouping.act i).1, c.view⟩ := by
      rw [act, hNone]
      rfl
    rw [List.map_cons, run, List.foldl_cons, ← run, hFirst]
    exact ih hRest

theorem run_has {P : List Section → Section → List Text → Prop} (hP : Grouping.Invariant P)
    {c : Console} {raws : List Text} (h : c.grouping.Has P raws) (actions : List Action) :
    ∃ raws, (c.run actions).grouping.Has P raws := by
  induction actions generalizing c raws with
  | nil => exact ⟨raws, h⟩
  | cons a actions ih =>
    cases a with
    | input i => exact ih (Grouping.act_has hP h i)
    | toggle id => exact ih h
    | toggleAll => exact ih h

end Console

namespace Viewer

/-- All that an event does to the view is what a reader does to the view of a console. -/
theorem exists_folds (v : Viewer) (e : Event) :
    ∃ folds : List Console.Action, ∀ c : Console, c.view = v.view →
      c.run folds = ⟨c.grouping, (v.handle e).view⟩ := by
  have hView : (v.handle e).view = (v.effect e).view := (v.rescrolled_handle e).view_eq
  cases e with
  | quit | toggleTimestamps | selectNext | selectPrevious | scroll | viewport =>
    refine ⟨[], fun c hc => ?_⟩
    have hSame : (v.handle _).view = v.view := hView
    rw [hSame, ← hc]
    rfl
  | toggleAll =>
    refine ⟨[.toggleAll], fun c hc => ?_⟩
    rw [hView, effect, ← hc]
    rfl
  | toggleSelected =>
    cases hSelected : v.selected with
    | none =>
      refine ⟨[], fun c hc => ?_⟩
      rw [hView, effect, hSelected, ← hc]
      rfl
    | some id =>
      refine ⟨[.toggle id], fun c hc => ?_⟩
      simp only [hView, effect, hSelected]
      rw [← hc]
      rfl

end Viewer

namespace Link

/-- The viewer of a link shows what a console shows, and the messages on their way are what the
console's grouping hands over for some inputs to come. -/
structure Behind (l : Link) (c : Console) (inputs : List Grouping.Input) : Prop where
  listening : l.channel.hungUp = false
  view : l.viewer.view = c.view
  grouping : l.grouping = c.grouping.run inputs
  batches : l.channel.queue.filterMap Update.batch? = c.grouping.handedOver inputs

namespace Behind

variable {l : Link} {c : Console} {inputs : List Grouping.Input}

theorem input (h : l.Behind c inputs) (i : Grouping.Input) :
    (l.act (.input i)).Behind c (inputs ++ [i]) := by
  have hGrouping : (l.grouping.act i).1 = c.grouping.run (inputs ++ [i]) := by
    rw [h.grouping, Grouping.run_concat]
  have hBatches : c.grouping.handedOver (inputs ++ [i]) =
      l.channel.queue.filterMap Update.batch? ++ (l.grouping.act i).2.toList := by
    rw [Grouping.handedOver_concat, ← h.batches, h.grouping]
  cases hBatch : (l.grouping.act i).2 with
  | none =>
    rw [hBatch] at hBatches
    simp only [Link.act, hBatch]
    exact ⟨h.listening, h.view, hGrouping, by simpa using hBatches.symm⟩
  | some b =>
    have hSend := Channel.send_of_listening h.listening (.flush b)
    rw [hBatch] at hBatches
    simp only [Link.act, hBatch, Channel.sendBatch, hSend]
    exact ⟨h.listening, h.view, hGrouping, by simpa [Update.batch?] using hBatches.symm⟩

theorem report (h : l.Behind c inputs) {u : Update} (hu : u.batch? = none) :
    (l.act (.report u hu)).Behind c inputs := by
  have hSend := Channel.send_of_listening h.listening u
  simp only [Link.act, hSend]
  exact ⟨h.listening, h.view, h.grouping, by simpa [hu] using h.batches⟩

/-- With a message taken in, the console catches up to the input that it comes from. -/
theorem receive (h : l.Behind c inputs) :
    ∃ actions later, (l.act .receive).Behind (c.run actions) later := by
  cases hQueue : l.channel.queue with
  | nil =>
    have hSame : l.act .receive = l := by simp only [Link.act, hQueue]
    exact ⟨[], inputs, hSame.symm ▸ h⟩
  | cons u rest =>
    have hBatches := h.batches
    rw [hQueue, List.filterMap_cons] at hBatches
    simp only [Link.act, hQueue]
    cases hBatch : u.batch? with
    | none =>
      rw [hBatch] at hBatches
      refine ⟨[], inputs, h.listening, ?_, h.grouping, hBatches⟩
      rw [Viewer.view_receive, hBatch]
      exact h.view
    | some b =>
      -- The console catches up to the input that the batch comes from.
      rw [hBatch] at hBatches
      obtain ⟨idle, i, later, rfl, hIdle, hNext, hLater⟩ :=
        Grouping.exists_input_of_handedOver hBatches.symm
      have hRun : c.run (idle.map .input ++ [.input i]) =
          ⟨((c.grouping.run idle).act i).1, c.view.commit b⟩ := by
        rw [Console.run_append, Console.run_idle hIdle]
        simp only [Console.run, List.foldl_cons, List.foldl_nil, Console.act, hNext]
        rfl
      refine ⟨idle.map .input ++ [.input i], later, h.listening, ?_, ?_, ?_⟩ <;> rw [hRun]
      · rw [Viewer.view_receive, hBatch, h.view]
        rfl
      · rw [h.grouping]
        simp [Grouping.run]
      · exact hLater.symm

/-- What a reader folds in the viewer is folded in the console as well. -/
theorem event (h : l.Behind c inputs) (e : Event) :
    ∃ folds, (l.act (.event e)).Behind (c.run folds) inputs := by
  obtain ⟨folds, hFolds⟩ := l.viewer.exists_folds e
  have hRun := hFolds c h.view.symm
  refine ⟨folds, h.listening, ?_, ?_, ?_⟩ <;> rw [hRun]
  · rfl
  · exact h.grouping
  · exact h.batches

theorem act (h : l.Behind c inputs) (a : Action) :
    ∃ actions later, (l.act a).Behind (c.run actions) later := by
  cases a with
  | input i => exact ⟨[], _, h.input i⟩
  | report u hu => exact ⟨[], _, h.report hu⟩
  | receive => exact h.receive
  | event e =>
    obtain ⟨folds, hFolds⟩ := h.event e
    exact ⟨folds, inputs, hFolds⟩

theorem run (h : l.Behind c inputs) (actions : List Action) :
    ∃ shown later, (l.run actions).Behind (c.run shown) later := by
  induction actions generalizing l c inputs with
  | nil => exact ⟨[], inputs, h⟩
  | cons a actions ih =>
    obtain ⟨first, between, hFirst⟩ := h.act a
    obtain ⟨shown, later, hRest⟩ := ih hFirst
    exact ⟨first ++ shown, later, by rwa [Console.run_append]⟩

end Behind

/-- A link shows what a console shows that is some inputs behind. -/
theorem exists_behind (deferred : Bool) (label : String) (showTimestamps : Bool)
    (actions : List Action) :
    ∃ shown later, ((start deferred label showTimestamps).run actions).Behind
      (Console.run { grouping := { deferred := deferred } } shown) later := by
  have hStart : (start deferred label showTimestamps).Behind
      { grouping := { deferred := deferred } } [] := ⟨rfl, rfl, rfl, rfl⟩
  exact hStart.run actions

/-- A section that can be folded has a line on display, whatever is still on its way. -/
theorem lines_of_hasToggle (deferred : Bool) (label : String) (showTimestamps : Bool)
    (actions : List Action) :
    ∀ e ∈ ((start deferred label showTimestamps).run actions).viewer.view.entries,
      e.hasToggle = true → e.lines ≠ #[] := by
  intro e he hToggle
  obtain ⟨shown, later, hBehind⟩ := exists_behind deferred label showTimestamps actions
  have hSynced := (Console.synced_new False deferred).run shown fun _ _ _ h => h
  have hStart : Grouping.Has (fun closed s _ => Section.Grouped closed s)
      { deferred := deferred } [] := ⟨rfl, .inl ⟨rfl, rfl, rfl, rfl⟩⟩
  obtain ⟨raws, hHas⟩ := Console.run_has Grouping.invariant_grouped
    (c := { grouping := { deferred := deferred } }) hStart shown
  rw [hBehind.view] at he
  obtain ⟨i, hi⟩ := Array.getElem?_of_mem he
  obtain ⟨s, hs, hShows⟩ := hSynced.mirrors.exists_section hi
  have hShaped := hHas.shaped s (Array.mem_of_getElem? hs)
  rw [hShows.hasToggle, hShaped.multiline] at hToggle
  obtain ⟨l, hl, -⟩ := hToggle
  rw [hShows.lines]
  rintro hEmpty
  simp [hEmpty] at hl

end Link

end BuildLog
