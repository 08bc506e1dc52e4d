import BuildLog.Proofs.Console.Mirror
import BuildLog.Proofs.Poll.Messages
import BuildLog.Viewer

/-!
# The viewer agrees with the poller

What polling has found out is kept twice: by the poller and its grouping, and by a viewer that is
only told in messages. If the viewer takes in all messages behind each poll, the two agree behind
every one, whatever answers come and whatever is said about the job.

* `Viewer.receiveAll_flushes`: batches are committed one after the other.
* `Relay.Agrees`: what the viewer has in common with the poller.
* `Relay.Steady.poll`: a poll keeps the two in agreement.
* `Relay.polls_agree`: they agree behind every poll.
-/

namespace BuildLog

/-! ## Taking in batches -/

namespace Channel

theorem drain_sendAll (updates : List Update) :
    (updates.foldl send {}).drain = (updates, {}) := by
  have hQueue : ∀ queue, updates.foldl send { queue := queue } = { queue := queue ++ updates } := by
    induction updates with
    | nil => simp
    | cons u updates ih => simp [send, ih]
  rw [hQueue]
  rfl

end Channel

namespace View

theorem collapsed_foldl_commit (batches : List Batch) (v : View) :
    (batches.foldl commit v).collapsed = v.collapsed := by
  induction batches generalizing v with
  | nil => rfl
  | cons b batches ih => rw [List.foldl_cons, ih, collapsed_commit]

end View

namespace Viewer

variable {v : Viewer}

/-- A viewer that follows the log's end only has its view changed by batches. -/
theorem receiveAll_flushes (h : v.scroll.following = true) (batches : List Batch) :
    v.receiveAll (batches.map .flush) = { v with view := batches.foldl View.commit v.view } := by
  induction batches generalizing v with
  | nil => rfl
  | cons b batches ih =>
    have hFirst : v.receive (.flush b) = { v with view := v.view.commit b } := by
      simp [receive, h]
    rw [List.map_cons, receiveAll, List.foldl_cons, ← receiveAll, hFirst]
    exact ih h

/-- The messages of a successful poll bring view, status and offset up to date. -/
theorem receiveAll_updated (h : v.scroll.following = true) (batches : List Batch)
    (completed : Bool) (lines nextOffset : Nat) :
    v.receiveAll (batches.map .flush ++ (if completed then [.completed] else []) ++
        [.polled lines nextOffset]) =
      { v with
        view := batches.foldl View.commit v.view
        finished := v.finished || completed
        nextOffset := nextOffset
        lastError := none } := by
  have hFlushes := receiveAll_flushes h batches
  rw [receiveAll] at hFlushes ⊢
  rw [List.foldl_append, List.foldl_append, hFlushes]
  cases completed <;> simp [receive]

end Viewer

theorem Console.foldl_log_eq (c : Console) (batches : List (List Text)) :
    batches.foldl log c =
      ⟨c.grouping.give batches, (c.grouping.flushed batches).foldl View.commit c.view⟩ := by
  induction batches generalizing c with
  | nil => rfl
  | cons lines batches ih =>
    have hFirst : c.grouping.act (.lines lines) = c.grouping.feed lines := rfl
    rw [List.foldl_cons, ih]
    simp only [log, Grouping.give, Grouping.flushed, Grouping.run, List.map_cons, List.foldl_cons,
      Grouping.handedOver, hFirst, List.foldl_append]
    cases (c.grouping.feed lines).2 <;> rfl

/-! ## Outcomes -/

namespace Poller

/-- The number of new lines. -/
def Outcome.lineCount : Outcome → Nat
  | .updated lines _ => lines
  | .skipped | .failed _ => 0

def Outcome.message? : Outcome → Option String
  | .failed cause => some cause.message
  | .skipped | .updated _ _ => none

/-- What the last outcome that was not to skip says, if it was a failure. -/
def lastFailure (outcomes : List Outcome) : Option String :=
  (outcomes.filter (· ≠ .skipped)).getLast?.bind Outcome.message?

/-- A poll that is skipped leaves the last failure as it was. -/
theorem lastFailure_concat (outcomes : List Outcome) (o : Outcome) :
    lastFailure (outcomes ++ [o]) =
      if o = .skipped then lastFailure outcomes else o.message? := by
  unfold lastFailure
  rw [List.filter_append]
  by_cases hSkipped : o = .skipped <;> simp [hSkipped]

theorem sum_lineCount_concat (outcomes : List Outcome) (o : Outcome) :
    ((outcomes ++ [o]).map Outcome.lineCount).sum =
      (outcomes.map Outcome.lineCount).sum + o.lineCount := by
  simp

end Poller

/-! ## A session and its viewer -/

/-- A session, a viewer that takes in its messages behind each poll, and a console that reads what
the session's grouping reads. -/
structure Relay where
  session : Session
  viewer : Viewer
  channel : Channel := {}
  console : Console := {}
  outcomes : List Poller.Outcome := []
  /-- All messages sent so far. -/
  messages : List Update := []

namespace Relay

def start (size : Nat) (source : Script) (label : String) (showTimestamps : Bool) : Relay where
  session := { poller := { chunkSize := size }, source := source }
  viewer := { label := label, showTimestamps := showTimestamps }

/-- Note what the source says about the job from now on. -/
def hear (r : Relay) (jobFinished : Except Failure Bool) : Relay :=
  { r with session := { r.session with jobFinished := jobFinished } }

/-- Let the viewer take in all messages of a poll, and the console what the poll hands on. -/
def take (r : Relay) (polled : Session × Poller.Outcome × List Update) : Relay :=
  let (arrived, channel) := (polled.2.2.foldl Channel.send r.channel).drain
  { session := polled.1
    viewer := r.viewer.receiveAll arrived
    channel := channel
    console := r.session.handed.foldl Console.log r.console
    outcomes := r.outcomes ++ [polled.2.1]
    messages := r.messages ++ polled.2.2 }

/-- Poll once. -/
def poll (r : Relay) (jobFinished : Except Failure Bool) : Relay :=
  (r.hear jobFinished).take (r.hear jobFinished).session.poll

def run (r : Relay) (jobFinished : List (Except Failure Bool)) : Relay := jobFinished.foldl poll r

/-- What a viewer that nobody has touched has in common with a poller. -/
structure Agrees (r : Relay) : Prop where
  grouping : r.session.poller.grouping = r.console.grouping
  view : r.viewer.view = r.console.view
  lineCount : r.viewer.view.lineCount = r.session.poller.grouping.lineCount
  lines : r.viewer.view.lineCount = (r.outcomes.map Poller.Outcome.lineCount).sum
  finished : r.viewer.finished = r.session.poller.finished
  nextOffset : r.viewer.nextOffset = r.session.poller.nextOffset
  lastError : r.viewer.lastError = Poller.lastFailure r.outcomes
  statusLine : r.viewer.statusLine =
    r.viewer.label ++ "  " ++ (if r.session.poller.finished then "finished" else "running") ++
      "  lines:" ++ decimal r.session.poller.grouping.lineCount ++
      " offset:" ++ decimal r.session.poller.nextOffset ++
      ((Poller.lastFailure r.outcomes).map ("  [error] " ++ ·)).getD ""

/-- A relay between two polls. -/
structure Steady (r : Relay) : Prop where
  idle : r.session.poller.inFlight = false
  now : r.session.poller.grouping.deferred = false
  channel : r.channel = {}
  following : r.viewer.scroll.following = true
  unfolded : r.viewer.view.collapsed = false
  grouping : r.session.poller.grouping = r.console.grouping
  view : r.viewer.view = r.console.view
  synced : r.console.Synced True
  lines : r.session.poller.grouping.lineCount = (r.outcomes.map Poller.Outcome.lineCount).sum
  finished : r.viewer.finished = r.session.poller.finished
  nextOffset : r.viewer.nextOffset = r.session.poller.nextOffset
  lastError : r.viewer.lastError = Poller.lastFailure r.outcomes
  completed : .completed ∈ r.messages ↔ r.session.poller.finished = true

theorem start_steady (size : Nat) (source : Script) (label : String) (showTimestamps : Bool) :
    (start size source label showTimestamps).Steady where
  idle := rfl
  now := rfl
  channel := rfl
  following := rfl
  unfolded := rfl
  grouping := rfl
  view := rfl
  synced := Console.synced_new True false
  lines := rfl
  finished := rfl
  nextOffset := rfl
  lastError := rfl
  completed := by simp [start]

namespace Steady

variable {r : Relay}

theorem agrees (h : r.Steady) : r.Agrees := by
  have hCount : r.viewer.view.lineCount = r.session.poller.grouping.lineCount := by
    rw [h.view, h.grouping]
    exact h.synced.lineCount_eq
  refine ⟨h.grouping, h.view, hCount, hCount.trans h.lines, h.finished, h.nextOffset, h.lastError,
    ?_⟩
  simp only [Viewer.statusLine, hCount, h.finished, h.nextOffset, h.lastError, h.unfolded,
    h.following, Bool.false_eq_true, if_false, if_true, String.append_empty]
  cases Poller.lastFailure r.outcomes <;> rfl

theorem take_eq (h : r.Steady) (polled : Session × Poller.Outcome × List Update) :
    r.take polled =
      { session := polled.1
        viewer := r.viewer.receiveAll polled.2.2
        console := r.session.handed.foldl Console.log r.console
        outcomes := r.outcomes ++ [polled.2.1]
        messages := r.messages ++ polled.2.2 } := by
  simp only [take, h.channel, Channel.drain_sendAll]

theorem hear (h : r.Steady) (jobFinished : Except Failure Bool) : (r.hear jobFinished).Steady :=
  { h with }

/-- Whatever a poll does, taking in its messages keeps the viewer in step. -/
theorem take {polled : Session × Poller.Outcome × List Update} (h : r.Steady)
    (hPolls : r.session.Polls polled) : (r.take polled).Steady := by
  rw [h.take_eq]
  cases hPolls with
  | ended hOver =>
    rw [Session.handed_of_finished hOver]
    exact { h with
      channel := rfl
      lines := (Poller.sum_lineCount_concat _ _).symm ▸ h.lines
      lastError := (Poller.lastFailure_concat _ _).symm ▸ h.lastError
      completed := (List.append_nil r.messages).symm ▸ h.completed }
  | @failed cause hOver hReply =>
    rw [Session.handed_of_error hReply]
    exact { h with
      channel := rfl
      lines := (Poller.sum_lineCount_concat _ _).symm ▸ h.lines
      lastError := (Poller.lastFailure_concat _ (.failed cause)).symm
      completed := by simpa using h.completed }
  | @updated chunk hOver hReply =>
    -- Polling was not over, so if it is now, this is the poll that has told so.
    have hRunning : r.viewer.finished = false := h.finished.trans hOver
    have hNotYet : .completed ∉ r.messages := by
      intro hMem
      simp [h.completed.mp hMem] at hOver
    have hConsole := r.console.foldl_log_eq r.session.handed
    rw [← h.grouping, ← h.view] at hConsole
    simp only [Viewer.receiveAll_updated h.following, hRunning, Bool.false_or]
    exact {
      idle := rfl
      now := Grouping.deferred_give h.now _
      channel := rfl
      following := h.following
      unfolded := (View.collapsed_foldl_commit _ _).trans h.unfolded
      grouping := by rw [hConsole]; rfl
      view := by rw [hConsole]
      synced := h.synced.foldl_log _
      lines := by
        rw [Poller.sum_lineCount_concat, ← h.lines]
        exact Grouping.lineCount_give h.now _
      finished := rfl
      nextOffset := rfl
      lastError := (Poller.lastFailure_concat _ (.updated _ _)).symm
      completed := by
        have hFinished : (r.session.advanced chunk).finished = r.session.probed := rfl
        cases hProbed : r.session.probed <;> simp [hNotYet, hFinished, hProbed] }

theorem poll (h : r.Steady) (jobFinished : Except Failure Bool) : (r.poll jobFinished).Steady :=
  (h.hear jobFinished).take ((r.hear jobFinished).session.poll_polls h.idle)

theorem run (h : r.Steady) (jobFinished : List (Except Failure Bool)) :
    (r.run jobFinished).Steady := by
  induction jobFinished generalizing r with
  | nil => exact h
  | cons flag jobFinished ih => exact ih (h.poll flag)

theorem poll_of_finished (h : r.Steady) (hOver : r.session.poller.finished = true)
    (jobFinished : Except Failure Bool) :
    (r.poll jobFinished).messages = r.messages ∧
      (r.poll jobFinished).session = (r.hear jobFinished).session := by
  have hPoll : (r.hear jobFinished).session.poll = ((r.hear jobFinished).session, .skipped, []) :=
    Session.poll_of_finished hOver
  rw [Relay.poll, (h.hear jobFinished).take_eq, hPoll]
  exact ⟨List.append_nil _, rfl⟩

/-- Once polling is over, nothing is sent and nothing is fetched. -/
theorem run_of_finished (h : r.Steady) (hOver : r.session.poller.finished = true)
    (jobFinished : List (Except Failure Bool)) :
    (r.run jobFinished).messages = r.messages ∧
      (r.run jobFinished).session.source = r.session.source := by
  induction jobFinished generalizing r with
  | nil => exact ⟨rfl, rfl⟩
  | cons flag jobFinished ih =>
    obtain ⟨hMessages, hSession⟩ := h.poll_of_finished hOver flag
    obtain ⟨hLater, hSource⟩ := ih (h.poll flag) (by rw [hSession]; exact hOver)
    exact ⟨hLater.trans hMessages, hSource.trans (by rw [hSession]; rfl)⟩

end Steady

/-- **The viewer agrees with the poller behind every poll**, whatever the source answers and says
about the job: it shows what a console shows that reads the same lines, and its status line tells
the poller's lines, offset and end, and the last failure until a fetch succeeds. A poll sends a
message for every batch of its lines, then that polling is over if it is from now on, then its
lines and offset; or its failure; or nothing. Behind the message that polling is over, nothing is
sent or fetched any more. -/
theorem polls_agree (size : Nat) (source : Script) (label : String) (showTimestamps : Bool)
    (jobFinished : List (Except Failure Bool)) :
    let r := (start size source label showTimestamps).run jobFinished
    r.Agrees ∧
      (∀ said, let s := (r.hear said).session
        s.Sends s.poll.1 s.poll.2.1 s.poll.2.2) ∧
      (.completed ∈ r.messages → ∀ later, (r.run later).messages = r.messages ∧
        (r.run later).session.source = r.session.source) := by
  intro r
  have h : r.Steady := (start_steady size source label showTimestamps).run jobFinished
  refine ⟨h.agrees, ?_, ?_⟩
  · intro said s
    exact Session.poll_sends (h.hear said).idle (h.hear said).now
  · intro hCompleted later
    exact h.run_of_finished (h.completed.mp hCompleted) later

/-- A failure, and an answer with two lines that ends polling; two more answers are not asked for. -/
theorem polls_agree_of_two_lines :
    let source : Script := ⟨[.error (.timedOut "log"), .ok ⟨['a', '\n', 'b'], 3⟩,
      .ok ⟨['c'], 4⟩, .ok ⟨['d'], 5⟩], []⟩
    let r := (start 1 source "log" false).run [.ok false, .ok true]
    let later := r.run [.ok true, .ok false]
    .completed ∈ r.messages ∧ later.messages = r.messages ∧
      later.session.source = r.session.source := by
  intro source r later
  have hCompleted : .completed ∈ r.messages := by
    decide +kernel
  exact ⟨hCompleted, (polls_agree 1 source "log" false [.ok false, .ok true]).2.2 hCompleted _⟩

end Relay

end BuildLog
