import BuildLog.Poll.Session
import BuildLog.Proofs.Grouping.Handover

/-!
# The messages of a poll

A poll that comes when no request is under way does one of three things: it finds polling to be
over, it reports a failure, or it takes an answer in and reports the batches of its lines, the end
of the job, and itself, in this order.

* `Grouping.length_flushed`: every batch of lines is handed over in a batch of changes.
* `Session.poll_polls`: all that a poll can do.
* `Session.poll_sends`: what a poll sends.
-/

namespace BuildLog

/-- A piece of a list has some elements, and no more than asked for. -/
theorem length_of_mem_chunks {α : Type} {size : Nat} {xs piece : List α}
    (h : piece ∈ chunks size xs) : piece ≠ [] ∧ piece.length ≤ max size 1 := by
  fun_induction chunks size xs with
  | case1 => simp at h
  | case2 x xs ih =>
    rcases List.mem_cons.mp h with rfl | hLater
    · refine ⟨List.cons_ne_nil _ _, ?_⟩
      simp only [List.length_cons, List.length_take]
      omega
    · exact ih hLater

/-! ## Batches of lines -/

namespace Grouping

theorem lineCount_foldl_next (r : Reading) (lines : List Text) :
    (lines.foldl Reading.next r).lineCount = r.lineCount + lines.length := by
  induction lines generalizing r with
  | nil => rfl
  | cons raw lines ih =>
    have hNext : (r.next raw).lineCount = r.lineCount + 1 := rfl
    rw [List.foldl_cons, ih, hNext, List.length_cons]
    omega

theorem lineCount_process (g : Grouping) (lines : List Text) :
    (g.process lines).1.lineCount = g.lineCount + lines.length := by
  cases lines with
  | nil => rfl
  | cons raw lines =>
    have hStart : g.start.lineCount = g.lineCount := by
      unfold start
      split <;> rfl
    have hRead := lineCount_foldl_next g.start (raw :: lines)
    rw [hStart] at hRead
    exact hRead

/-- Give a grouping some batches of lines. -/
def give (g : Grouping) (batches : List (List Text)) : Grouping := g.run (batches.map .lines)

/-- What a grouping hands over when it is given some batches of lines. -/
def flushed (g : Grouping) (batches : List (List Text)) : List Batch :=
  g.handedOver (batches.map .lines)

theorem deferred_give {g : Grouping} (h : g.deferred = false) (batches : List (List Text)) :
    (g.give batches).deferred = false := by
  simp [give, deferred_run, h]

theorem lineCount_give {g : Grouping} (h : g.deferred = false) (batches : List (List Text)) :
    (g.give batches).lineCount = g.lineCount + batches.flatten.length := by
  induction batches generalizing g with
  | nil => rfl
  | cons lines batches ih =>
    have hFirst : (g.act (.lines lines)).1 = (g.process lines).1 :=
      congrArg Prod.fst (feed_of_not_deferred h lines)
    have hGive : g.give (lines :: batches) = (g.process lines).1.give batches := by
      rw [← hFirst]
      rfl
    rw [hGive, ih (by simp [h]), lineCount_process, List.flatten_cons, List.length_append,
      Nat.add_assoc]

/-- Every batch of lines is handed over in a batch of changes of its own. -/
theorem length_flushed {g : Grouping} (h : g.deferred = false) {batches : List (List Text)}
    (hSome : ∀ lines ∈ batches, lines ≠ []) : (g.flushed batches).length = batches.length := by
  induction batches generalizing g with
  | nil => rfl
  | cons lines batches ih =>
    have hBatch : (g.act (.lines lines)).2.isSome :=
      (isSome_act g (.lines lines)).mpr ⟨h, hSome lines List.mem_cons_self⟩
    obtain ⟨b, hb⟩ := Option.isSome_iff_exists.mp hBatch
    have hNext : (g.act (.lines lines)).1.deferred = false := by simp [deferred_act, h]
    have hLater := ih hNext fun later hLater => hSome later (List.mem_cons_of_mem lines hLater)
    simp only [flushed, List.map_cons, handedOver, hb, Option.toList_some, List.singleton_append,
      List.length_cons] at hLater ⊢
    rw [hLater]

end Grouping

namespace Poller

theorem feedAll_fst (g : Grouping) (batches : List (List Text)) :
    (feedAll g batches).1 = g.give batches := by
  induction batches generalizing g with
  | nil => rfl
  | cons lines batches ih => exact ih (g.feed lines).1

/-- Every batch that is handed over is a message of its own. -/
theorem updates_feedAll (g : Grouping) (batches : List (List Text)) :
    (feedAll g batches).2.flatMap Session.effectUpdates = (g.flushed batches).map .flush := by
  induction batches generalizing g with
  | nil => rfl
  | cons lines batches ih =>
    have hFirst : g.act (.lines lines) = g.feed lines := rfl
    have hLater := ih (g.feed lines).1
    simp only [Grouping.flushed] at hLater
    simp only [feedAll, Grouping.flushed, List.map_cons, Grouping.handedOver, hFirst,
      List.flatMap_cons, hLater, List.map_append]
    cases (g.feed lines).2 <;> rfl

/-- A call that is the only one asks for the log from the offset on, and takes the answer in. -/
theorem notify_eq_settle {p : Poller} (hIdle : p.inFlight = false) (hOver : p.finished = false)
    (source : Script) (completed : Bool) :
    p.notify source completed =
      ((((p.settle completed p.nextOffset (source.fetch p.nextOffset).1).1),
          (source.fetch p.nextOffset).2),
        (p.settle completed p.nextOffset (source.fetch p.nextOffset).1).2) := by
  have hBegin : p.begin = some (p.nextOffset, { p with inFlight := true }) := by
    simp [begin, hOver, hIdle]
  simp only [notify, hBegin]
  cases (source.fetch p.nextOffset).1 <;> rfl

theorem settle_error {p : Poller} (hIdle : p.inFlight = false) (completed : Bool) (offset : Nat)
    (cause : Failure) : p.settle completed offset (.error cause) = (p, .failed cause, []) := by
  simp only [settle, ← hIdle]

/-- A successful answer gives the new lines to the grouping, and moves the offset on if it goes
further. -/
theorem settle_ok {p : Poller} (hOver : p.finished = false) (completed : Bool) (chunk : Chunk) :
    let lines := newLines p.nextOffset chunk
    let batches := chunks p.chunkSize lines
    p.settle completed p.nextOffset (.ok chunk) =
      ({ grouping := p.grouping.give batches
         chunkSize := p.chunkSize
         nextOffset := max p.nextOffset chunk.nextOffset
         finished := completed },
        .updated lines.length completed,
        (feedAll p.grouping batches).2 ++ .updated :: if completed then [.completed] else []) := by
  intro lines batches
  have hMax : (if p.nextOffset < chunk.nextOffset then chunk.nextOffset else p.nextOffset) =
      max p.nextOffset chunk.nextOffset := by
    split <;> omega
  simp [settle, accept, hOver, hMax, ← feedAll_fst, lines, batches]

end Poller

/-! ## One poll -/

namespace Session

/-- What a poll takes the job to be: without an answer it counts as running. -/
def probed (s : Session) : Bool :=
  match s.jobFinished with
  | .ok completed => completed
  | .error _ => false

/-- The answer to a request from the poller's offset on, and the source behind it. -/
def fetch (s : Session) : Reply × Script := s.source.fetch s.poller.nextOffset

/-- The batches of lines that a poll hands to the grouping. -/
def handed (s : Session) : List (List Text) :=
  if s.poller.finished then []
  else match s.fetch.1 with
    | .ok chunk => chunks s.poller.chunkSize (Poller.newLines s.poller.nextOffset chunk)
    | .error _ => []

theorem handed_of_finished {s : Session} (hOver : s.poller.finished = true) : s.handed = [] := by
  simp [handed, hOver]

theorem handed_of_error {s : Session} {cause : Failure} (hReply : s.fetch.1 = .error cause) :
    s.handed = [] := by
  simp [handed, hReply]

theorem handed_of_ok {s : Session} {chunk : Chunk} (hOver : s.poller.finished = false)
    (hReply : s.fetch.1 = .ok chunk) :
    s.handed = chunks s.poller.chunkSize (Poller.newLines s.poller.nextOffset chunk) := by
  simp [handed, hOver, hReply]

/-- The poller behind a successful answer. -/
def advanced (s : Session) (chunk : Chunk) : Poller where
  grouping := s.poller.grouping.give s.handed
  chunkSize := s.poller.chunkSize
  nextOffset := max s.poller.nextOffset chunk.nextOffset
  finished := s.probed

/-- All that a poll can do, when no request is under way. -/
inductive Polls (s : Session) : Session × Poller.Outcome × List Update → Prop
  | ended : s.poller.finished = true → Polls s (s, .skipped, [])
  | failed {cause : Failure} : s.poller.finished = false → s.fetch.1 = .error cause →
    Polls s ({ s with source := s.fetch.2 }, .failed cause, [.fetchFailed cause.message])
  | updated {chunk : Chunk} : s.poller.finished = false → s.fetch.1 = .ok chunk →
    Polls s ({ s with poller := s.advanced chunk, source := s.fetch.2 },
      .updated s.handed.flatten.length s.probed,
      (s.poller.grouping.flushed s.handed).map .flush ++
        (if s.probed then [.completed] else []) ++
        [.polled s.handed.flatten.length (s.advanced chunk).nextOffset])

theorem poll_of_running {s : Session} (hOver : s.poller.finished = false) :
    let notified := s.poller.notify s.source s.probed
    s.poll = ({ s with poller := notified.1.1, source := notified.1.2 }, notified.2.1,
      notified.2.2.flatMap effectUpdates ++
        outcomeUpdates notified.1.1.nextOffset notified.2.1) := by
  unfold poll
  rw [hOver]
  rfl

/-- A poll has no other ends than these three. -/
theorem poll_polls (s : Session) (hIdle : s.poller.inFlight = false) : s.Polls s.poll := by
  cases hOver : s.poller.finished with
  | true =>
    rw [poll_of_finished hOver]
    exact .ended hOver
  | false =>
    have hNotify := Poller.notify_eq_settle hIdle hOver s.source s.probed
    cases hReply : s.fetch.1 with
    | error cause =>
      rw [fetch] at hReply
      rw [hReply, Poller.settle_error hIdle] at hNotify
      have hPoll : s.poll =
          ({ s with source := s.fetch.2 }, .failed cause, [.fetchFailed cause.message]) := by
        rw [poll_of_running hOver, hNotify]
        rfl
      rw [hPoll]
      exact .failed hOver hReply
    | ok chunk =>
      have hHanded : chunks s.poller.chunkSize (Poller.newLines s.poller.nextOffset chunk) =
          s.handed := (handed_of_ok hOver hReply).symm
      have hLines : Poller.newLines s.poller.nextOffset chunk = s.handed.flatten := by
        rw [← hHanded, flatten_chunks]
      rw [fetch] at hReply
      rw [hReply, Poller.settle_ok hOver, hHanded, hLines] at hNotify
      have hPoll : s.poll = ({ s with poller := s.advanced chunk, source := s.fetch.2 },
          .updated s.handed.flatten.length s.probed,
          (s.poller.grouping.flushed s.handed).map .flush ++
            (if s.probed then [.completed] else []) ++
            [.polled s.handed.flatten.length (s.advanced chunk).nextOffset]) := by
        rw [poll_of_running hOver, hNotify]
        have hLast : (Poller.Effect.updated :: if s.probed then [.completed] else []).flatMap
            effectUpdates = if s.probed then [.completed] else [] := by
          cases s.probed <;> rfl
        simp only [List.flatMap_append, Poller.updates_feedAll, hLast]
        rfl
      rw [hPoll]
      exact .updated hOver hReply

/-- What a poll sends, by its outcome: a message for every batch of new lines, then whether polling
is over from now on, and then the poll itself; or the failure; or nothing, if polling was over. -/
inductive Sends (s next : Session) : Poller.Outcome → List Update → Prop
  | skipped : s.poller.finished = true → Sends s next .skipped []
  | failed {cause : Failure} : s.poller.finished = false → s.fetch.1 = .error cause →
    Sends s next (.failed cause) [.fetchFailed cause.message]
  | updated {chunk : Chunk} : s.poller.finished = false → s.fetch.1 = .ok chunk →
    s.handed.flatten = Poller.newLines s.poller.nextOffset chunk →
    (∀ batch ∈ s.handed, batch ≠ [] ∧ batch.length ≤ max s.poller.chunkSize 1) →
    (s.poller.grouping.flushed s.handed).length = s.handed.length →
    Sends s next (.updated s.handed.flatten.length s.probed)
      ((s.poller.grouping.flushed s.handed).map .flush ++
        (if !s.poller.finished && next.poller.finished then [.completed] else []) ++
        [.polled s.handed.flatten.length next.poller.nextOffset])

theorem length_of_mem_handed {s : Session} {batch : List Text} (h : batch ∈ s.handed) :
    batch ≠ [] ∧ batch.length ≤ max s.poller.chunkSize 1 := by
  unfold handed at h
  split at h
  · simp at h
  · split at h
    · exact length_of_mem_chunks h
    · simp at h

theorem poll_sends {s : Session} (hIdle : s.poller.inFlight = false)
    (hNow : s.poller.grouping.deferred = false) : s.Sends s.poll.1 s.poll.2.1 s.poll.2.2 := by
  have hPolls := s.poll_polls hIdle
  generalize s.poll = result at hPolls
  cases hPolls with
  | ended hOver => exact .skipped hOver
  | failed hOver hReply => exact .failed hOver hReply
  | @updated chunk hOver hReply =>
    have hLines : s.handed.flatten = Poller.newLines s.poller.nextOffset chunk := by
      rw [handed_of_ok hOver hReply, flatten_chunks]
    have hSome : ∀ batch ∈ s.handed, batch ≠ [] := fun batch h => (length_of_mem_handed h).1
    have hFlushed := Grouping.length_flushed hNow hSome
    have hOnce : (if s.probed then [Update.completed] else []) =
        if !s.poller.finished && (s.advanced chunk).finished then [.completed] else [] := by
      simp [hOver, advanced]
    rw [hOnce]
    exact .updated hOver hReply hLines (fun batch => length_of_mem_handed) hFlushed

end Session

end BuildLog
