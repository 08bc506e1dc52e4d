import BuildLog.Poller.Call
import Mathlib.Data.List.Induction

/-!
# Answers taken in one after the other

What a poller makes of a sequence of answers, when each call ends before the next one begins. An
answer is accepted when it goes beyond zero and beyond all answers accepted before; every other one
leaves the log and the offset as they are.

* `accepted`: the chunks that are accepted, by their offsets alone.
* `Shared.serve`: what a single call makes of an answer.
* `serveAll_served`: the poller, and what others have seen of it, after any answers.
-/

namespace BuildLog.Poller

/-- An answer to a request, and whether the job was known to be finished when it was asked for. -/
structure Answer where
  completed : Bool
  reply : Reply

/-- The chunk of a successful answer. -/
def Answer.chunk? (a : Answer) : Option Chunk := a.reply.toOption

/-- Whether polling is over with an answer. -/
def Answer.isLast (a : Answer) : Bool := a.completed && a.chunk?.isSome

/-- Whether a chunk goes beyond zero and beyond all chunks accepted before. -/
def goesBeyond (earlier : List Chunk) (c : Chunk) : Prop :=
  0 < c.nextOffset ∧ ∀ e ∈ earlier, e.nextOffset < c.nextOffset

instance (earlier : List Chunk) (c : Chunk) : Decidable (goesBeyond earlier c) :=
  inferInstanceAs (Decidable (_ ∧ _))

/-- The chunks accepted with one more answer. -/
def acceptNext (earlier : List Chunk) (a : Answer) : List Chunk :=
  match a.chunk? with
  | some c => if goesBeyond earlier c then earlier ++ [c] else earlier
  | none => earlier

/-- The chunks that are accepted of some answers. -/
def accepted (answers : List Answer) : List Chunk := answers.foldl acceptNext []

/-- The largest offset that some chunks go up to, or zero. -/
def reach (chunks : List Chunk) : Nat := (chunks.map (·.nextOffset)).foldl max 0

/-- The batches in which the lines of some chunks are handed on. -/
def batches (size : Nat) (accepted : List Chunk) : List (List Text) :=
  accepted.flatMap fun c => chunks size (Text.lines c.text)

/-- Whether lines were handed on. -/
def Effect.isFed : Effect → Bool
  | .fed _ _ => true
  | _ => false

namespace Shared

/-- What a call that is the only one makes of an answer: it asks for the log from the offset on, and
takes the answer in. -/
def serve (s : Shared) (a : Answer) : Shared :=
  let (poller, _, effects) := s.poller.settle a.completed s.poller.nextOffset a.reply
  ⟨poller, s.requested ++ [s.poller.nextOffset], s.effects ++ effects⟩

/-- What calls that follow each other make of their answers. -/
def serveAll (s : Shared) (answers : List Answer) : Shared := answers.foldl serve s

theorem serveAll_append (s : Shared) (first second : List Answer) :
    s.serveAll (first ++ second) = (s.serveAll first).serveAll second := by
  simp [serveAll]

end Shared

/-! ## Offsets -/

theorem accepted_concat (answers : List Answer) (a : Answer) :
    accepted (answers ++ [a]) = acceptNext (accepted answers) a := by
  simp [accepted]

theorem reach_concat (chunks : List Chunk) (c : Chunk) :
    reach (chunks ++ [c]) = max (reach chunks) c.nextOffset := by
  simp [reach]

theorem reach_lt_iff {chunks : List Chunk} {n : Nat} :
    reach chunks < n ↔ 0 < n ∧ ∀ c ∈ chunks, c.nextOffset < n := by
  induction chunks using List.reverseRecOn with
  | nil => simp [reach]
  | append_singleton chunks c ih =>
    rw [reach_concat, Nat.max_lt, ih]
    simp only [List.mem_append, List.mem_singleton]
    constructor
    · rintro ⟨⟨hPos, hAll⟩, hLast⟩
      exact ⟨hPos, fun d hd => hd.elim (hAll d) fun h => h ▸ hLast⟩
    · rintro ⟨hPos, hAll⟩
      exact ⟨⟨hPos, fun d hd => hAll d (.inl hd)⟩, hAll c (.inr rfl)⟩

theorem goesBeyond_iff {earlier : List Chunk} {c : Chunk} :
    goesBeyond earlier c ↔ reach earlier < c.nextOffset :=
  reach_lt_iff.symm

/-- The chunks that are not accepted do not go further than those that are. -/
theorem reach_accepted (answers : List Answer) :
    reach (accepted answers) = reach (answers.filterMap Answer.chunk?) := by
  induction answers using List.reverseRecOn with
  | nil => rfl
  | append_singleton answers a ih =>
    rw [accepted_concat, acceptNext, List.filterMap_append]
    cases hChunk : a.chunk? with
    | none => simp [hChunk, ih]
    | some c =>
      have hOne : [a].filterMap Answer.chunk? = [c] := by simp [hChunk]
      rw [hOne, reach_concat, ← ih]
      dsimp only
      split
      · exact reach_concat _ c
      · next hBehind =>
        rw [goesBeyond_iff] at hBehind
        omega

/-! ## Lines handed on -/

theorem feedAll_append (g : Grouping) (first second : List (List Text)) :
    feedAll g (first ++ second) =
      ((feedAll (feedAll g first).1 second).1,
        (feedAll g first).2 ++ (feedAll (feedAll g first).1 second).2) := by
  induction first generalizing g with
  | nil => rfl
  | cons lines first ih => simp [feedAll, ih]

theorem isFed_of_mem_feedAll {g : Grouping} {batches : List (List Text)} {e : Effect}
    (h : e ∈ (feedAll g batches).2) : e.isFed = true := by
  induction batches generalizing g with
  | nil => simp [feedAll] at h
  | cons lines batches ih =>
    obtain rfl | h := List.mem_cons.mp h
    · rfl
    · exact ih h

theorem count_feedAll {e : Effect} (he : e.isFed = false) (g : Grouping)
    (batches : List (List Text)) : (feedAll g batches).2.count e = 0 := by
  rw [List.count_eq_zero]
  intro h
  simp [isFed_of_mem_feedAll h] at he

/-- Feeding batches has no other effect than to hand them on. -/
theorem filter_isFed_feedAll (g : Grouping) (batches : List (List Text)) :
    (feedAll g batches).2.filter Effect.isFed = (feedAll g batches).2 :=
  List.filter_eq_self.mpr fun _ => isFed_of_mem_feedAll

/-! ## One answer more -/

namespace Shared

theorem serve_of_error {s : Shared} {a : Answer} {cause : Failure}
    (h : a.reply = .error cause) :
    s.serve a = ⟨{ s.poller with inFlight := false }, s.requested ++ [s.poller.nextOffset],
      s.effects⟩ := by
  simp [serve, h, settle]

/-- The batches in which a call hands on the new lines of a chunk. -/
def newBatches (s : Shared) (c : Chunk) : List (List Text) :=
  chunks s.poller.chunkSize (newLines s.poller.nextOffset c)

/-- A chunk adds a request, the batches that are new, and the offset if it goes further. -/
theorem serve_of_ok {s : Shared} {a : Answer} {c : Chunk} (h : a.reply = .ok c) :
    s.serve a =
      ⟨{ s.poller with
          grouping := (feedAll s.poller.grouping (s.newBatches c)).1
          nextOffset :=
            if s.poller.nextOffset < c.nextOffset then c.nextOffset else s.poller.nextOffset
          finished := s.poller.finished || a.completed
          inFlight := false },
        s.requested ++ [s.poller.nextOffset],
        s.effects ++ ((feedAll s.poller.grouping (s.newBatches c)).2 ++
          .updated :: if a.completed && !s.poller.finished then [.completed] else [])⟩ := by
  simp only [serve, h, settle, accept, newBatches]

theorem inFlight_serve (s : Shared) (a : Answer) : (s.serve a).poller.inFlight = false := by
  cases ha : a.reply with
  | error cause => rw [serve_of_error ha]
  | ok c => rw [serve_of_ok ha]

theorem finished_serve (s : Shared) (a : Answer) :
    (s.serve a).poller.finished = (s.poller.finished || a.isLast) := by
  cases ha : a.reply with
  | error cause => simp [serve_of_error ha, Answer.isLast, Answer.chunk?, ha, Except.toOption]
  | ok c => simp [serve_of_ok ha, Answer.isLast, Answer.chunk?, ha, Except.toOption]

theorem inFlight_serveAll {s : Shared} (h : s.poller.inFlight = false) (answers : List Answer) :
    (s.serveAll answers).poller.inFlight = false := by
  induction answers generalizing s with
  | nil => exact h
  | cons a answers ih => exact ih (s.inFlight_serve a)

theorem length_requested_serveAll (s : Shared) (answers : List Answer) :
    (s.serveAll answers).requested.length = s.requested.length + answers.length := by
  induction answers generalizing s with
  | nil => rfl
  | cons a answers ih =>
    have hOne : (s.serve a).requested.length = s.requested.length + 1 := by simp [serve]
    rw [serveAll, List.foldl_cons, ← serveAll, ih, hOne, List.length_cons]
    omega

end Shared

/-! ## What a poller has become -/

/-- A poller that has taken in some answers, and what others have seen of it. -/
structure Served (p : Poller) (answers : List Answer) (s : Shared) : Prop where
  chunkSize : s.poller.chunkSize = p.chunkSize
  nextOffset : s.poller.nextOffset = reach (accepted answers)
  finished : s.poller.finished = answers.any Answer.isLast
  grouping : s.poller.grouping =
    (feedAll p.grouping (batches p.chunkSize (accepted answers))).1
  fed : s.effects.filter Effect.isFed =
    (feedAll p.grouping (batches p.chunkSize (accepted answers))).2
  updates : s.effects.count .updated = (answers.filterMap Answer.chunk?).length
  completions : s.effects.count .completed = if answers.any Answer.isLast then 1 else 0

/-- A poller that has not been called yet. -/
structure IsNew (p : Poller) : Prop where
  nextOffset : p.nextOffset = 0
  inFlight : p.inFlight = false
  finished : p.finished = false

theorem served_nil {p : Poller} (h : p.IsNew) : Served p [] ⟨p, [], []⟩ where
  chunkSize := rfl
  nextOffset := h.nextOffset
  finished := h.finished
  grouping := rfl
  fed := rfl
  updates := rfl
  completions := rfl

theorem Served.concat_error {p : Poller} {answers : List Answer} {s : Shared}
    (h : Served p answers s) {a : Answer} {cause : Failure} (ha : a.reply = .error cause) :
    Served p (answers ++ [a]) (s.serve a) := by
  have hChunk : a.chunk? = none := by simp [Answer.chunk?, ha, Except.toOption]
  have hLast : a.isLast = false := by simp [Answer.isLast, hChunk]
  have hAccepted : accepted (answers ++ [a]) = accepted answers := by
    rw [accepted_concat, acceptNext, hChunk]
  rw [Shared.serve_of_error ha]
  constructor
  · exact h.chunkSize
  · rw [hAccepted]
    exact h.nextOffset
  · simpa [hLast] using h.finished
  · rw [hAccepted]
    exact h.grouping
  · rw [hAccepted]
    exact h.fed
  · simpa [hChunk] using h.updates
  · simpa [hLast] using h.completions

theorem Served.accepted_concat_chunk {p : Poller} {answers : List Answer} {s : Shared}
    (h : Served p answers s) {a : Answer} {c : Chunk} (ha : a.chunk? = some c) :
    accepted (answers ++ [a]) =
      if s.poller.nextOffset < c.nextOffset then accepted answers ++ [c] else accepted answers := by
  rw [accepted_concat, acceptNext, ha, h.nextOffset]
  simp only [goesBeyond_iff]

theorem Served.batches_concat_chunk {p : Poller} {answers : List Answer} {s : Shared}
    (h : Served p answers s) {a : Answer} {c : Chunk} (ha : a.chunk? = some c) :
    batches p.chunkSize (accepted (answers ++ [a])) =
      batches p.chunkSize (accepted answers) ++ s.newBatches c := by
  rw [h.accepted_concat_chunk ha, Shared.newBatches, newLines, h.chunkSize]
  split
  · simp [batches]
  · simp [chunks]

theorem Served.concat_chunk {p : Poller} {answers : List Answer} {s : Shared}
    (h : Served p answers s) {a : Answer} {c : Chunk} (ha : a.reply = .ok c) :
    Served p (answers ++ [a]) (s.serve a) := by
  have hChunk : a.chunk? = some c := by simp [Answer.chunk?, ha, Except.toOption]
  have hLast : a.isLast = a.completed := by simp [Answer.isLast, hChunk]
  have hBatches := h.batches_concat_chunk hChunk
  have hFed := feedAll_append p.grouping (batches p.chunkSize (accepted answers)) (s.newBatches c)
  rw [← h.grouping] at hFed
  rw [Shared.serve_of_ok ha]
  constructor
  · exact h.chunkSize
  · rw [h.accepted_concat_chunk hChunk]
    split
    · next hBeyond =>
      rw [reach_concat, ← h.nextOffset]
      exact (Nat.max_eq_right (Nat.le_of_lt hBeyond)).symm
    · exact h.nextOffset
  · simp [h.finished, hLast]
  · rw [hBatches, hFed]
  · have hRest : (Effect.updated :: if a.completed && !s.poller.finished then [Effect.completed]
        else []).filter Effect.isFed = [] := by
      split <;> rfl
    rw [hBatches, hFed, List.filter_append, List.filter_append, hRest, h.fed, filter_isFed_feedAll,
      List.append_nil]
  · have hNone := count_feedAll (e := .updated) rfl s.poller.grouping (s.newBatches c)
    have hOne : (Effect.updated :: if a.completed && !s.poller.finished then [Effect.completed]
        else []).count .updated = 1 := by
      split <;> rfl
    simp only [List.count_append, List.filterMap_append, List.length_append, h.updates, hNone, hOne]
    simp [hChunk]
  · have hNone := count_feedAll (e := .completed) rfl s.poller.grouping (s.newBatches c)
    simp only [List.count_append, h.completions, hNone, List.any_append, List.any_cons,
      List.any_nil, hLast, h.finished, Bool.or_false]
    cases answers.any Answer.isLast <;> cases a.completed <;> rfl

theorem Served.concat {p : Poller} {answers : List Answer} {s : Shared} (h : Served p answers s)
    (a : Answer) : Served p (answers ++ [a]) (s.serve a) := by
  cases ha : a.reply with
  | error cause => exact h.concat_error ha
  | ok c => exact h.concat_chunk ha

/-- A new poller becomes what the answers make of it. -/
theorem serveAll_served {p : Poller} (h : p.IsNew) (answers : List Answer) :
    Served p answers (Shared.serveAll ⟨p, [], []⟩ answers) := by
  induction answers using List.reverseRecOn with
  | nil => exact served_nil h
  | append_singleton answers a ih =>
    rw [Shared.serveAll_append]
    exact ih.concat a

end BuildLog.Poller
