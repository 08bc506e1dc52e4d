import BuildLog.Console
import BuildLog.Proofs.Grouping.Run

/-!
# The borders of batches

How a log is cut into batches has no influence on its sections: reading it batch by batch leaves
the same grouping as reading it at once, even if its lines are held back for some time.

* `Grouping.process_process`: a border between two batches can be taken away.
* `Grouping.foldl_feed`: so can all borders.
* `Grouping.run_eq`: whatever a grouping is told, it holds all its lines back or has read them all.
-/

namespace BuildLog

namespace Grouping

/-- Two readings that differ at most in the changes they have recorded. -/
structure Reading.Same (r q : Reading) : Prop where
  sections : r.tree.sections = q.tree.sections
  cursor : r.cursor = q.cursor
  lineCount : r.lineCount = q.lineCount

/-- Two readings that differ in their changes only still do so behind a line. -/
theorem Reading.Same.next {r q : Reading} (h : r.Same q) (raw : Text) :
    (r.next raw).Same (q.next raw) := by
  obtain ⟨hSections, hCursor⟩ := consume_congr h.sections q.cursor (q.lineCount + 1) (.ofRaw raw)
  unfold Reading.next
  rw [h.cursor, h.lineCount]
  exact ⟨hSections, hCursor, rfl⟩

theorem Reading.Same.foldl_next {r q : Reading} (h : r.Same q) (lines : List Text) :
    (lines.foldl Reading.next r).Same (lines.foldl Reading.next q) := by
  induction lines generalizing r q with
  | nil => exact h
  | cons raw lines ih => exact ih (h.next raw)

/-- The grouping behind a batch that is not empty. -/
def Reading.handOver (r : Reading) (g : Grouping) : Grouping :=
  { g with
    tree := { sections := r.tree.sections }
    cursor := some r.cursor
    lineCount := r.lineCount }

theorem process_eq_handOver (g : Grouping) {lines : List Text} (h : lines ≠ []) :
    (g.process lines).1 = (lines.foldl Reading.next g.start).handOver g := by
  cases lines with
  | nil => exact absurd rfl h
  | cons raw lines => rfl

theorem Reading.Same.handOver_eq {r q : Reading} (h : r.Same q) (g : Grouping) :
    r.handOver g = q.handOver g := by
  unfold handOver
  rw [h.sections, h.cursor, h.lineCount]

/-- The border between two batches makes no difference to what is left behind. -/
theorem process_process (g : Grouping) (first second : List Text) :
    ((g.process first).1.process second).1 = (g.process (first ++ second)).1 := by
  by_cases hFirst : first = []
  · subst hFirst
    rfl
  by_cases hSecond : second = []
  · subst hSecond
    simp
  have hBoth : first ++ second ≠ [] := by simp [hFirst]
  rw [process_eq_handOver _ hSecond, process_eq_handOver g hFirst, process_eq_handOver g hBoth,
    List.foldl_append]
  have hSame : ((first.foldl Reading.next g.start).handOver g).start.Same
      (first.foldl Reading.next g.start) := ⟨rfl, rfl, rfl⟩
  exact (hSame.foldl_next second).handOver_eq g

theorem feed_feed (g : Grouping) (first second : List Text) :
    ((g.feed first).1.feed second).1 = (g.feed (first ++ second)).1 := by
  cases hDeferred : g.deferred with
  | true => simp [feed, hDeferred]
  | false =>
    have hSame : (g.process first).1.deferred = false := by simp [hDeferred]
    rw [feed_of_not_deferred hDeferred, feed_of_not_deferred hSame, feed_of_not_deferred hDeferred,
      process_process]

theorem feed_nil (g : Grouping) : (g.feed []).1 = g := by
  cases hDeferred : g.deferred <;> simp [feed, hDeferred]
  rw [← hDeferred]

/-- A log may be given in any batches. -/
theorem foldl_feed (g : Grouping) (batches : List (List Text)) :
    batches.foldl (fun g lines => (g.feed lines).1) g = (g.feed batches.flatten).1 := by
  induction batches generalizing g with
  | nil => exact (feed_nil g).symm
  | cons lines batches ih => rw [List.foldl_cons, ih, feed_feed, List.flatten_cons]

theorem release_of_not_deferred {g : Grouping} (h : g.deferred = false) (hQueue : g.queue = []) :
    g.release = (g, none) := by
  simp only [release, hQueue, process_nil]
  rw [← h, ← hQueue]

/-- A grouping that has not been released holds all lines back, and one that holds none back has
read them as if they had come at once. -/
theorem run_eq (deferred : Bool) (inputs : List Input) :
    run { deferred := deferred } inputs =
      if deferred && inputs.all (· != .release) then
        { deferred := true, queue := inputs.flatMap Input.given }
      else (({} : Grouping).feed (inputs.flatMap Input.given)).1 := by
  induction inputs using List.reverseRecOn with
  | nil => cases deferred <;> rfl
  | append_singleton inputs i ih =>
    rw [run_concat, ih, List.flatMap_append, List.flatMap_singleton]
    cases hHeld : deferred && inputs.all (· != .release) with
    | true =>
      cases i with
      | lines batch => simp_all [act, feed, Input.given]
      | release => simp_all [act, release, feed, Input.given]
    | false =>
      have hRead : (({} : Grouping).feed (inputs.flatMap Input.given)).1.deferred = false ∧
          (({} : Grouping).feed (inputs.flatMap Input.given)).1.queue = [] := by
        simp [feed_of_not_deferred]
      have hAll : (deferred && (inputs ++ [i]).all (· != .release)) = false := by
        rw [List.all_append, ← Bool.and_assoc, hHeld, Bool.false_and]
      simp only [hAll, Bool.false_eq_true, if_false]
      cases i with
      | lines batch => exact feed_feed {} _ batch
      | release =>
        rw [act, release_of_not_deferred hRead.1 hRead.2, Input.given, List.append_nil]

end Grouping

/-- A console that logs batches groups their lines as one feed of them all does. -/
theorem Console.grouping_foldl_log (c : Console) (batches : List (List Text)) :
    (batches.foldl log c).grouping = (c.grouping.feed batches.flatten).1 := by
  rw [← Grouping.foldl_feed]
  induction batches generalizing c with
  | nil => rfl
  | cons lines batches ih => exact ih (c.log lines)

end BuildLog
