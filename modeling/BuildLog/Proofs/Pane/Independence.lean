import BuildLog.Pane
import BuildLog.Proofs.Grouping.Batches
import BuildLog.Proofs.Grouping.Handover
import Mathlib.Data.List.Forall2

/-!
# Panes side by side

Several panes are given the same lines, and each is released by its own name or with all others.
A pane becomes what its grouping becomes alone, given the lines and the releases that it answers to.
So a pane that has not been released holds all lines back, and the others have read the same log.

* `Pane.Order.input?`: what an order tells a pane.
* `Pane.play_eq_map`: an order is carried out pane by pane.
* `Pane.panes_independent`: no pane shows anything of the others, nor of how lines came or waited.
-/

namespace BuildLog.Pane

/-- What all panes are told to do together. -/
inductive Order where
  /-- Take in a batch of lines. -/
  | lines (batch : List Text)
  /-- Release the panes of a name, or all panes. -/
  | release (name : Option String)
  deriving DecidableEq, Repr

namespace Order

/-- The lines that an order brings. -/
def given : Order → List Text
  | .lines batch => batch
  | .release _ => []

/-- What an order tells a pane; a release by another name tells it nothing. -/
def input? (p : Pane) : Order → Option Grouping.Input
  | .lines batch => some (.lines batch)
  | .release name => if p.answersTo name then some .release else none

end Order

/-- A pane and the batches that it has handed over. -/
structure Record where
  pane : Pane
  batches : List Batch := []
  deriving DecidableEq, Repr

/-- Carry out an order for all panes. -/
def obey (panes : List Pane) : Order → List (Pane × Option Batch)
  | .lines batch => feed panes batch
  | .release name => release panes name

/-- Carry out an order, and keep the batches that it makes the panes hand over. -/
def play (records : List Record) (order : Order) : List Record :=
  (obey (records.map (·.pane)) order).zipWith
    (fun (pane, batch) r => ⟨pane, r.batches ++ batch.toList⟩) records

/-- Carry out some orders, one after the other. -/
def run (panes : List Pane) (orders : List Order) : List Record :=
  orders.foldl play (panes.map fun p => { pane := p })

/-- What becomes of a pane on its own, with the orders that it answers to. -/
def alone (p : Pane) (orders : List Order) : Record where
  pane := { p with grouping := p.grouping.run (orders.filterMap (Order.input? p)) }
  batches := p.grouping.handedOver (orders.filterMap (Order.input? p))

/-! ## One pane among others -/

/-- What an order makes of one pane. -/
def obeyed (p : Pane) (order : Order) : Pane × Option Batch :=
  match order.input? p with
  | some i => p.act (·.act i)
  | none => (p, none)

/-- Each pane does its own part of an order. -/
theorem obey_eq_map (panes : List Pane) (order : Order) :
    obey panes order = panes.map (·.obeyed order) := by
  cases order with
  | lines batch => rfl
  | release name =>
    refine List.map_congr_left fun p _ => ?_
    cases hName : p.answersTo name <;> simp [obeyed, Order.input?, hName, Grouping.act]

/-- An order is carried out pane by pane. -/
theorem play_eq_map (records : List Record) (order : Order) :
    play records order = records.map fun r =>
      ⟨(r.pane.obeyed order).1, r.batches ++ (r.pane.obeyed order).2.toList⟩ := by
  rw [play, obey_eq_map, List.map_map, List.zipWith_map_left, List.zipWith_self]
  rfl

/-- An order for all panes is one more input for a pane on its own, if it answers to it. -/
theorem alone_concat (p : Pane) (orders : List Order) (order : Order) :
    p.alone (orders ++ [order]) =
      ⟨((p.alone orders).pane.obeyed order).1,
        (p.alone orders).batches ++ ((p.alone orders).pane.obeyed order).2.toList⟩ := by
  -- A pane keeps its name, so it answers to the same orders all the time.
  have hSame : order.input? (p.alone orders).pane = order.input? p := rfl
  rw [obeyed, hSame]
  cases hInput : order.input? p with
  | none => simp [alone, List.filterMap_append, hInput]
  | some i =>
    simp [alone, List.filterMap_append, hInput, Grouping.run_concat, Grouping.handedOver_concat,
      act]

theorem run_eq_map (panes : List Pane) (orders : List Order) :
    run panes orders = panes.map (·.alone orders) := by
  induction orders using List.reverseRecOn with
  | nil => rfl
  | append_singleton orders order ih =>
    rw [run, List.foldl_append, ← run, ih, List.foldl_cons, List.foldl_nil, play_eq_map,
      List.map_map]
    exact List.map_congr_left fun p _ => (alone_concat p orders order).symm

/-- Every pane is given the lines of all orders, whichever of them it answers to. -/
theorem flatMap_given_filterMap (p : Pane) (orders : List Order) :
    (orders.filterMap (Order.input? p)).flatMap Grouping.Input.given =
      orders.flatMap Order.given := by
  induction orders with
  | nil => rfl
  | cons order orders ih =>
    cases order with
    | lines batch => simp [Order.input?, Grouping.Input.given, Order.given, ih]
    | release name =>
      cases hName : p.answersTo name <;>
        simp [Order.input?, hName, Grouping.Input.given, Order.given, ih]

/-! ## What panes show -/

/-- What becomes of a new pane that has been given some orders. -/
structure Record.Independent (r : Record) (name : String) (deferred : Bool)
    (orders : List Order) : Prop where
  /-- The pane is what it would be alone. -/
  alone : r = (new name deferred).alone orders
  /-- It holds lines back until a release that it answers to. -/
  held : r.pane.grouping.deferred = true ↔
    deferred = true ∧ ∀ order ∈ orders, order.input? (new name deferred) ≠ some .release
  /-- Until then it has shown nothing. -/
  nothing : r.pane.grouping.deferred = true →
    r.pane.grouping.tree = {} ∧ r.pane.grouping.lineCount = 0 ∧ r.batches = []
  /-- Since then it shows what it would show of all lines given at once. -/
  everything : r.pane.grouping.deferred = false →
    let once := (({} : Grouping).feed (orders.flatMap Order.given)).1
    r.pane.grouping.tree = once.tree ∧ r.pane.grouping.lineCount = once.lineCount

theorem alone_independent (name : String) (deferred : Bool) (orders : List Order) :
    ((new name deferred).alone orders).Independent name deferred orders := by
  set p := new name deferred
  set inputs := orders.filterMap (Order.input? p) with hInputs
  have hHeld : (p.alone orders).pane.grouping.deferred =
      (deferred && inputs.all (· != .release)) := Grouping.deferred_run p.grouping inputs
  have hRun : (p.alone orders).pane.grouping = _ := Grouping.run_eq deferred inputs
  refine ⟨rfl, ?_, ?_, ?_⟩
  · simp only [hHeld, Bool.and_eq_true, List.all_eq_true, bne_iff_ne, hInputs, List.mem_filterMap]
    refine and_congr_right fun _ => ⟨?_, ?_⟩
    · intro h order hOrder hRelease
      exact h _ ⟨order, hOrder, hRelease⟩ rfl
    · rintro h i ⟨order, hOrder, hInput⟩ rfl
      exact h order hOrder hInput
  · intro hDeferred
    have hNone : (p.alone orders).batches = [] := Grouping.handedOver_of_deferred hDeferred
    rw [hHeld] at hDeferred
    rw [hRun, if_pos hDeferred]
    exact ⟨rfl, rfl, hNone⟩
  · intro hReleased
    rw [hHeld] at hReleased
    rw [hRun, hReleased, hInputs, flatMap_given_filterMap]
    exact ⟨rfl, rfl⟩

/-- **Panes are independent**, whatever their names and whatever they are told: each becomes what it
would be alone; one that still holds lines back shows nothing, and all others show the same log,
however its lines came and for how long they were held back. -/
theorem panes_independent (specs : List (String × Bool)) (orders : List Order) :
    let records := run (specs.map fun (name, deferred) => new name deferred) orders
    List.Forall₂ (fun (name, deferred) r => r.Independent name deferred orders) specs records ∧
      ∀ r ∈ records, ∀ q ∈ records,
        r.pane.grouping.deferred = false → q.pane.grouping.deferred = false →
          r.pane.grouping.tree = q.pane.grouping.tree ∧
            r.pane.grouping.lineCount = q.pane.grouping.lineCount := by
  intro records
  have hRecords : records = specs.map fun (name, deferred) => (new name deferred).alone orders := by
    simp only [records, run_eq_map, List.map_map]
    rfl
  have hEach : ∀ r ∈ records, ∃ name deferred, r.Independent name deferred orders := by
    intro r hr
    rw [hRecords] at hr
    obtain ⟨⟨name, deferred⟩, -, rfl⟩ := List.mem_map.mp hr
    exact ⟨name, deferred, alone_independent name deferred orders⟩
  refine ⟨?_, ?_⟩
  · rw [hRecords, List.forall₂_map_right_iff, List.forall₂_same]
    exact fun (name, deferred) _ => alone_independent name deferred orders
  · intro r hr q hq hReleased hReleased'
    obtain ⟨_, _, h⟩ := hEach r hr
    obtain ⟨_, _, h'⟩ := hEach q hq
    obtain ⟨hTree, hCount⟩ := h.everything hReleased
    obtain ⟨hTree', hCount'⟩ := h'.everything hReleased'
    exact ⟨hTree.trans hTree'.symm, hCount.trans hCount'.symm⟩

end BuildLog.Pane
