import BuildLog.Proofs.View.Growth
import BuildLog.Proofs.Viewer.Scrolling

/-!
# Batches on their way to a viewer

A grouping need not stand next to the view that displays it: its batches may be sent over a channel
to a viewer, which takes them in later and whose reader folds sections meanwhile. The messages on
their way are then what the view lacks, and taking them in moves nothing that has been read.

* `Brings.keeps`: taking in messages keeps what a view has settled.
* `Linked.act`: the messages on their way bring the view up to date with the tree.
* `Link.closed_stay`: what has been closed stays as it is, whether or not batches are sent.
-/

namespace BuildLog

/-- The batch in a message. -/
def Update.batch? : Update → Option Batch
  | .flush batch => some batch
  | .polled _ _ | .fetchFailed _ | .completed => none

theorem Channel.send_of_listening {c : Channel} (h : c.hungUp = false) (u : Update) :
    c.send u = { c with queue := c.queue ++ [u] } := by
  simp [send, h]

namespace Viewer

variable {untouched : Prop}

theorem view_receive (v : Viewer) (u : Update) :
    (v.receive u).view = Console.commit? v.view u.batch? := by
  cases u <;> rfl

/-- All that a reader does to the view is to fold sections. -/
theorem view_handle_mirrors {v : Viewer} {sections : Array Section}
    (h : v.view.Mirrors False sections) (e : Event) :
    (v.handle e).view.Mirrors False sections := by
  rw [(v.rescrolled_handle e).view_eq]
  cases e with
  | quit | toggleTimestamps | selectNext | selectPrevious | scroll | viewport => exact h
  | toggleAll => exact h.toggleAll not_false
  | toggleSelected =>
    rw [effect]
    split
    · exact h
    · exact h.toggle not_false _

end Viewer

/-! ## Messages that bring a view up to date -/

/-- A batch, if there is one, tells what has become of some sections, whatever a reader has folded,
and keeps what a view has settled. -/
structure Tells (b : Option Batch) (before after : Array Section) : Prop where
  mirrors : ∀ v : View, v.Mirrors False before → (Console.commit? v b).Mirrors False after
  keeps : ∀ v : View, v.Mirrors False before → v.Keeps (Console.commit? v b)

theorem tells_none (sections : Array Section) : Tells none sections sections :=
  ⟨fun _ h => h, fun v _ => .refl v⟩

/-- A batch, or its absence, tells what became of the sections. -/
theorem Grouping.process_tells {P : List Section → Section → List Text → Prop} {g : Grouping}
    {raws : List Text} (h : g.Has P raws) (lines : List Text) :
    Tells (g.process lines).2 g.tree.sections (g.process lines).1.tree.sections where
  mirrors _ hv := Console.process_mirrors h hv lines
  keeps _ hv := View.keeps_process h hv lines

/-- Messages that tell, one after the other, what has become of some sections. -/
inductive Brings : Array Section → List Update → Array Section → Prop
  | nil (sections : Array Section) : Brings sections [] sections
  | cons {before between after : Array Section} {u : Update} {updates : List Update} :
    Tells u.batch? before between → Brings between updates after →
      Brings before (u :: updates) after

namespace Brings

variable {before between after : Array Section} {updates : List Update}

theorem concat {u : Update} (h : Brings before updates between)
    (hTells : Tells u.batch? between after) : Brings before (updates ++ [u]) after := by
  induction h with
  | nil sections => exact .cons hTells (.nil after)
  | cons hFirst _ ih => exact .cons hFirst (ih hTells)

/-- A view that mirrors the sections before the messages mirrors those behind them. -/
theorem mirrors (h : Brings before updates after) {v : Viewer}
    (hv : v.view.Mirrors False before) : (v.receiveAll updates).view.Mirrors False after := by
  induction h generalizing v with
  | nil sections => exact hv
  | @cons _ _ _ u _ hTells _ ih =>
    have hNext := hTells.mirrors v.view hv
    rw [← Viewer.view_receive] at hNext
    exact ih hNext

/-- Taking in the first messages of some, as many as one likes, keeps what a view has settled. -/
theorem keeps (h : Brings before updates after) {v : Viewer} (hv : v.view.Mirrors False before)
    (count : Nat) : v.view.Keeps (v.receiveAll (updates.take count)).view := by
  induction h generalizing v count with
  | nil sections =>
    rw [List.take_nil]
    exact .refl v.view
  | @cons _ _ _ u _ hTells _ ih =>
    cases count with
    | zero => exact .refl v.view
    | succ count =>
      have hNext := hTells.mirrors v.view hv
      have hKeeps := hTells.keeps v.view hv
      rw [← Viewer.view_receive] at hNext hKeeps
      exact hKeeps.trans (ih hNext count)

end Brings

/-! ## A grouping and a distant viewer -/

/-- A grouping whose batches are sent to a viewer. -/
structure Link where
  grouping : Grouping := {}
  channel : Channel := {}
  viewer : Viewer

namespace Link

inductive Action where
  /-- The grouping does what it is told, and sends its batch. -/
  | input (i : Grouping.Input)
  /-- A message without a batch is sent. -/
  | report (u : Update) (other : u.batch? = none)
  /-- The viewer takes in the oldest message on its way. -/
  | receive
  | event (e : Event)

def act (l : Link) : Action → Link
  | .input i =>
    { l with
      grouping := (l.grouping.act i).1
      channel := match (l.grouping.act i).2 with
        | some batch => l.channel.sendBatch batch
        | none => l.channel }
  | .report u _ => { l with channel := l.channel.send u }
  | .receive =>
    match l.channel.queue with
    | [] => l
    | u :: later =>
      { l with channel := { l.channel with queue := later }, viewer := l.viewer.receive u }
  | .event e => { l with viewer := l.viewer.handle e }

def run (l : Link) (actions : List Action) : Link := actions.foldl act l

end Link

/-- A link between two actions: the messages on their way bring the view up to date with the
tree. -/
structure Linked (l : Link) : Prop where
  has : ∃ raws, l.grouping.Has (fun _ _ _ => True) raws
  listening : l.channel.hungUp = false
  brings : ∃ sections, l.viewer.view.Mirrors False sections ∧
    Brings sections l.channel.queue l.grouping.tree.sections

namespace Linked

theorem input {l : Link} (h : Linked l) (i : Grouping.Input) : Linked (l.act (.input i)) := by
  obtain ⟨raws, hHas⟩ := h.has
  obtain ⟨sections, hMirrors, hBrings⟩ := h.brings
  have hAfter := Grouping.act_has Grouping.invariant_true hHas i
  have hTells := Grouping.process_tells (hHas.prepare i) (l.grouping.due i)
  rw [← Grouping.act_eq_process, Grouping.tree_prepare] at hTells
  cases hBatch : (l.grouping.act i).2 with
  | none =>
    -- Nothing has been read, so the tree is what the messages on their way already bring.
    have hSame : (l.grouping.act i).1.tree = l.grouping.tree := by
      rw [Grouping.act_eq_process] at hBatch ⊢
      rw [Grouping.process_of_none hBatch, Grouping.tree_prepare]
    simp only [Link.act, hBatch]
    exact ⟨⟨_, hAfter⟩, h.listening, sections, hMirrors, by rwa [hSame]⟩
  | some b =>
    rw [hBatch] at hTells
    have hSend := Channel.send_of_listening h.listening (.flush b)
    simp only [Link.act, hBatch, Channel.sendBatch, hSend]
    exact ⟨⟨_, hAfter⟩, h.listening, sections, hMirrors, hBrings.concat hTells⟩

theorem report {l : Link} (h : Linked l) {u : Update} (hu : u.batch? = none) :
    Linked (l.act (.report u hu)) := by
  obtain ⟨sections, hMirrors, hBrings⟩ := h.brings
  have hSend := Channel.send_of_listening h.listening u
  have hTells : Tells u.batch? l.grouping.tree.sections l.grouping.tree.sections := by
    rw [hu]
    exact tells_none _
  simp only [Link.act, hSend]
  exact ⟨h.has, h.listening, sections, hMirrors, hBrings.concat hTells⟩

theorem receive {l : Link} (h : Linked l) : Linked (l.act .receive) := by
  obtain ⟨sections, hMirrors, hBrings⟩ := h.brings
  cases hQueue : l.channel.queue with
  | nil => simpa only [Link.act, hQueue] using h
  | cons u later =>
    -- The message comes off the head of what the view lacks.
    rw [hQueue] at hBrings
    obtain _ | ⟨hTells, hLater⟩ := hBrings
    simp only [Link.act, hQueue]
    refine ⟨h.has, h.listening, _, ?_, hLater⟩
    rw [Viewer.view_receive]
    exact hTells.mirrors _ hMirrors

theorem act {l : Link} (h : Linked l) (a : Link.Action) : Linked (l.act a) := by
  cases a with
  | input i => exact h.input i
  | report u hu => exact h.report hu
  | receive => exact h.receive
  | event e =>
    obtain ⟨sections, hMirrors, hBrings⟩ := h.brings
    exact ⟨h.has, h.listening, sections, Viewer.view_handle_mirrors hMirrors e, hBrings⟩

theorem run {l : Link} (h : Linked l) (actions : List Link.Action) : Linked (l.run actions) := by
  induction actions generalizing l with
  | nil => exact h
  | cons a actions ih => exact ih (h.act a)

end Linked

namespace Link

/-- A grouping that has read nothing, and a viewer that has been told nothing. -/
def start (deferred : Bool) (label : String) (showTimestamps : Bool) : Link where
  grouping := { deferred := deferred }
  viewer := { label := label, showTimestamps := showTimestamps }

theorem start_linked (deferred : Bool) (label : String) (showTimestamps : Bool) :
    Linked (start deferred label showTimestamps) where
  has := ⟨[], rfl, .inl ⟨rfl, rfl, rfl, rfl⟩⟩
  listening := rfl
  brings := ⟨#[], View.mirrors_empty, .nil #[]⟩

/-- **What has been closed never changes again**, whatever has been read before and whatever the
reader folds. Another input leaves all sections but the last one as they are, to the fold that a
reader has chosen, and of the last one it keeps the lines and the kind; and the rows down to the
first line of the last section stay on display. A viewer that batches are sent to keeps all this
however many messages it takes in, and having taken in all of them it shows the tree. -/
theorem closed_stay (deferred : Bool) :
    (∀ (actions : List Console.Action) (i : Grouping.Input),
      let c := Console.run { grouping := { deferred := deferred } } actions
      let next := c.act (.input i)
      c.view.Mirrors False c.grouping.tree.sections ∧
        OnlyLast Section.Grows c.grouping.tree.sections next.grouping.tree.sections ∧
        c.view.Keeps next.view) ∧
    ∀ (label : String) (showTimestamps : Bool) (actions : List Action),
      let l := (start deferred label showTimestamps).run actions
      (∀ i, OnlyLast Section.Grows l.grouping.tree.sections
        (l.act (.input i)).grouping.tree.sections) ∧
      (∀ count, l.viewer.view.Keeps (l.viewer.receiveAll (l.channel.queue.take count)).view) ∧
      (l.viewer.receiveAll l.channel.queue).view.Mirrors False l.grouping.tree.sections := by
  refine ⟨?_, ?_⟩
  · intro actions i c next
    have hSynced : c.Synced False := (Console.synced_new False deferred).run actions fun _ _ _ h => h
    obtain ⟨given, raws, hReached⟩ := hSynced.reached
    have hKeeps := View.keeps_process (hReached.has.prepare i)
      (by simpa using hSynced.mirrors) (c.grouping.due i)
    rw [← Grouping.act_eq_process] at hKeeps
    exact ⟨hSynced.mirrors, Grouping.act_onlyLast hReached.has i, hKeeps⟩
  · intro label showTimestamps actions l
    have hLinked := (start_linked deferred label showTimestamps).run actions
    obtain ⟨raws, hHas⟩ := hLinked.has
    obtain ⟨sections, hMirrors, hBrings⟩ := hLinked.brings
    exact ⟨Grouping.act_onlyLast hHas, hBrings.keeps hMirrors, hBrings.mirrors hMirrors⟩

end Link

end BuildLog
