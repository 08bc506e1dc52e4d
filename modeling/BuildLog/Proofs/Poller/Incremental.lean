import BuildLog.Proofs.Console.Mirror
import BuildLog.Proofs.Grouping.Batches
import BuildLog.Proofs.Poller.Answers
import BuildLog.Proofs.Text.Lines

/-!
# Polling piece by piece

A poller that is called again and again hands the log to a console in batches: as many as its chunk
size asks for, cut wherever an answer ended, with failures and stale answers in between. None of
this shows in the console. If every accepted text but the last ends with a line feed, it is the
console that is given the whole text at once.

* `heard`: the answers that are asked for before polling is over.
* `run_start`: the calls of a poller make of its answers what `Shared.serveAll` does, and ask for no
  others.
* `console_run`: the console is given the batches of the accepted chunks, and nothing else.
* `polled_eq_once`: the console does not depend on how the log came in.
-/

namespace BuildLog.Poller

/-- The answers that are asked for: none behind the first with which polling is over. -/
def heard : List Answer → List Answer
  | [] => []
  | a :: later => a :: if a.isLast then [] else heard later

/-- What a display of the grouping becomes when others see an effect. -/
def Effect.commit (v : View) : Effect → View
  | .fed _ batch => Console.commit? v batch
  | .updated | .completed => v

/-- A poller with its source, and a display of the grouping that it feeds. -/
structure Watch where
  poller : Poller
  source : Script
  view : View := {}

namespace Watch

/-- A new poller whose source gives some answers. -/
def start (size : Nat) (answers : List Answer) : Watch where
  poller := { chunkSize := size }
  source := { replies := answers.map (·.reply) }

/-- Call the poller. -/
def notify (w : Watch) (completed : Bool) : Watch :=
  let ((poller, source), _, effects) := w.poller.notify w.source completed
  ⟨poller, source, effects.foldl Effect.commit w.view⟩

/-- Call the poller again and again; each call is told whether the job is known to be finished. -/
def run (w : Watch) (completed : List Bool) : Watch := completed.foldl notify w

/-- The grouping and its display. -/
def console (w : Watch) : Console := ⟨w.poller.grouping, w.view⟩

end Watch

/-! ## The calls of a poller -/

/-- What a source and a display have become when some answers are left. -/
def Shared.watch (s : Shared) (left : List Answer) : Watch where
  poller := s.poller
  source := ⟨left.map (·.reply), s.requested⟩
  view := s.effects.foldl Effect.commit {}

namespace Watch

theorem notify_of_finished {w : Watch} (h : w.poller.finished = true) (completed : Bool) :
    w.notify completed = w := by
  simp [notify, Poller.notify_of_finished h]

theorem run_of_finished {w : Watch} (h : w.poller.finished = true) (completed : List Bool) :
    w.run completed = w := by
  induction completed with
  | nil => rfl
  | cons flag completed ih =>
    rw [run, List.foldl_cons, notify_of_finished h]
    exact ih

theorem notify_watch {s : Shared} (hFlight : s.poller.inFlight = false)
    (hFinished : s.poller.finished = false) (a : Answer) (left : List Answer) :
    (s.watch (a :: left)).notify a.completed = (s.serve a).watch left := by
  have hBegin : s.poller.begin =
      some (s.poller.nextOffset, { s.poller with inFlight := true }) := by
    simp [begin, hFlight, hFinished]
  simp only [notify, Shared.watch, Poller.notify, hBegin, Script.fetch, List.map_cons]
  cases ha : a.reply with
  | error cause => simp [Shared.serve, settle, ha]
  | ok c => simp [Shared.serve, settle, accept, ha]

/-- Calls take in answers up to the last one, and leave the others. -/
theorem run_watch {s : Shared} (hFlight : s.poller.inFlight = false)
    (hFinished : s.poller.finished = false) (answers : List Answer) :
    (s.watch answers).run (answers.map (·.completed)) =
      (s.serveAll (heard answers)).watch (answers.drop (heard answers).length) := by
  induction answers generalizing s with
  | nil => rfl
  | cons a later ih =>
    have hAfter := s.finished_serve a
    rw [hFinished, Bool.false_or] at hAfter
    rw [run, List.map_cons, List.foldl_cons, notify_watch hFlight hFinished]
    cases hLast : a.isLast with
    | true =>
      -- The calls that are left find polling to be over.
      have hOver : ((s.serve a).watch later).poller.finished = true := hAfter.trans hLast
      rw [← run, run_of_finished hOver]
      simp [heard, hLast, Shared.serveAll]
    | false =>
      rw [← run, ih (s.inFlight_serve a) (hAfter.trans hLast)]
      simp [heard, hLast, Shared.serveAll]

/-- The calls of a new poller take the answers in that are asked for. -/
theorem run_start (size : Nat) (answers : List Answer) :
    (start size answers).run (answers.map (·.completed)) =
      (Shared.serveAll ⟨{ chunkSize := size }, [], []⟩ (heard answers)).watch
        (answers.drop (heard answers).length) :=
  run_watch (s := ⟨{ chunkSize := size }, [], []⟩) rfl rfl answers

end Watch

/-! ## What the console is given -/

/-- Only lines that are handed on change a display. -/
theorem foldl_commit_filter (effects : List Effect) (v : View) :
    effects.foldl Effect.commit v = (effects.filter Effect.isFed).foldl Effect.commit v := by
  induction effects generalizing v with
  | nil => rfl
  | cons e effects ih =>
    cases e with
    | fed lines batch => exact ih _
    | updated => exact ih v
    | completed => exact ih v

/-- A console whose grouping is handed batches, and whose view sees the effects, reads them. -/
theorem foldl_log_eq_feedAll (g : Grouping) (v : View) (batches : List (List Text)) :
    batches.foldl Console.log ⟨g, v⟩ =
      ⟨(feedAll g batches).1, (feedAll g batches).2.foldl Effect.commit v⟩ := by
  induction batches generalizing g v with
  | nil => rfl
  | cons lines batches ih => exact ih _ _

namespace Watch

theorem console_run (size : Nat) (answers : List Answer) :
    ((start size answers).run (answers.map (·.completed))).console =
      (batches size (accepted (heard answers))).foldl Console.log {} := by
  have h := serveAll_served (p := { chunkSize := size }) ⟨rfl, rfl, rfl⟩ (heard answers)
  rw [run_start, console, Shared.watch, h.grouping, foldl_commit_filter, h.fed,
    foldl_log_eq_feedAll]

theorem flatten_batches (size : Nat) (accepted : List Chunk) :
    (batches size accepted).flatten = (accepted.map fun c => Text.lines c.text).flatten := by
  induction accepted with
  | nil => rfl
  | cons c accepted ih =>
    rw [batches, List.flatMap_cons, List.flatten_append, flatten_chunks, ← batches, ih]
    rfl

/-- Chunks that end with their lines have the lines of the whole text. -/
theorem flatten_batches_of_ends {size : Nat} {accepted : List Chunk}
    (h : ∀ c ∈ accepted.dropLast, c.text = [] ∨ c.text.getLast? = some '\n') :
    (batches size accepted).flatten = Text.lines (accepted.flatMap (·.text)) := by
  have hParts : ∀ part ∈ (accepted.map (·.text)).dropLast,
      part = [] ∨ part.getLast? = some '\n' := by
    rw [← List.map_dropLast]
    intro part hPart
    obtain ⟨c, hc, rfl⟩ := List.mem_map.mp hPart
    exact h c hc
  rw [flatten_batches, List.flatMap_def, Text.lines_flatten hParts, List.map_map]
  rfl

theorem synced_foldl_log (batches : List (List Text)) :
    (batches.foldl Console.log {}).Synced True :=
  (Console.synced_new True false).foldl_log batches

/-- **A log that is polled piece by piece** is displayed as if it had been read at once, whatever
the chunk size, the borders of the answers, and the failed or stale answers in between. -/
theorem polled_eq_once (size : Nat) (answers : List Answer)
    (h : ∀ c ∈ (accepted (heard answers)).dropLast, c.text = [] ∨ c.text.getLast? = some '\n') :
    let polled := ((start size answers).run (answers.map (·.completed))).console
    let once := Console.log {} (Text.lines ((accepted (heard answers)).flatMap (·.text)))
    polled.grouping = once.grouping ∧ polled.view.entries = once.view.entries ∧
      polled.view.lineCount = once.view.lineCount := by
  intro polled once
  have hPolled : polled = (batches size (accepted (heard answers))).foldl Console.log {} :=
    console_run size answers
  have hGrouping : polled.grouping = once.grouping := by
    rw [hPolled, Console.grouping_foldl_log, flatten_batches_of_ends h]
    rfl
  -- Nobody folds sections here, so a view is determined by the sections that it mirrors.
  have hPolledSynced : polled.Synced True := by
    rw [hPolled]
    exact synced_foldl_log _
  have hOnceSynced : once.Synced True := (Console.synced_new True false).input (.lines _)
  have hEntries : polled.view.entries = once.view.entries := by
    have hMirrors := hPolledSynced.mirrors
    rw [hGrouping] at hMirrors
    exact hMirrors.entries_eq hOnceSynced.mirrors
  refine ⟨hGrouping, hEntries, ?_⟩
  rw [View.lineCount, hEntries, View.lineCount]

/-- A line, a failure, an answer that goes back, and the rest of the log: the poller hears four of
five answers and accepts two. -/
theorem polled_eq_once_of_two_lines :
    let answers : List Answer :=
      [⟨false, .ok ⟨['a', '\n'], 1⟩⟩, ⟨false, .error Script.exhausted⟩,
        ⟨false, .ok ⟨['b'], 0⟩⟩, ⟨true, .ok ⟨['c', 'd'], 3⟩⟩, ⟨false, .ok ⟨['e'], 4⟩⟩]
    let polled := ((start 0 answers).run (answers.map (·.completed))).console
    let once := Console.log {} (Text.lines ['a', '\n', 'c', 'd'])
    (∀ c ∈ (accepted (heard answers)).dropLast, c.text = [] ∨ c.text.getLast? = some '\n') ∧
      polled.grouping = once.grouping ∧ polled.view.entries = once.view.entries ∧
      polled.view.lineCount = once.view.lineCount := by
  intro answers polled once
  have hAccepted : accepted (heard answers) = [⟨['a', '\n'], 1⟩, ⟨['c', 'd'], 3⟩] := by decide
  have hEnds : ∀ c ∈ (accepted (heard answers)).dropLast,
      c.text = [] ∨ c.text.getLast? = some '\n' := by
    rw [hAccepted]
    decide
  refine ⟨hEnds, ?_⟩
  have h := polled_eq_once 0 answers hEnds
  rw [hAccepted] at h
  exact h

end Watch

end BuildLog.Poller
