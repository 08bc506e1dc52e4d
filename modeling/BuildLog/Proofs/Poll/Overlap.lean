import BuildLog.Poll.Overlap
import BuildLog.Proofs.Poller.SingleFlight
import BuildLog.Viewer

/-!
# The offsets that overlapping polls tell

A poll reads the poller's offset and tells it in a message once its call has let go of the poller,
so a later poll may read and tell a greater offset in between. Then the offset told last is not the
greatest one, and the viewer goes back to it (`told_out_of_order`). What does hold in any order is
that the poller's offset is told by some poll, and that no offset beyond it is told. Offsets arrive
in order if a poll only reads while no other one has yet to tell what it has read.

* `Phase.Turn`: all that a step does to the poller's offset and to the offsets that are told.
* `Overlap.Telling`: what is told and yet to be told, between two steps.
* `Overlap.Ordered`: the same if polls read and tell in turn.
* `Overlap.run_told`: what overlapping polls tell, and what a viewer shows of it.
-/

namespace BuildLog

/-! ## The offset that a viewer shows -/

/-- The offset told in a message. -/
def Update.offset? : Update → Option Nat
  | .polled _ nextOffset => some nextOffset
  | _ => none

theorem Viewer.nextOffset_receive (v : Viewer) (u : Update) :
    (v.receive u).nextOffset = u.offset?.getD v.nextOffset := by
  cases u <;> rfl

/-- A viewer shows the offset that it was told last. -/
theorem Viewer.nextOffset_receiveAll (v : Viewer) (updates : List Update) :
    (v.receiveAll updates).nextOffset =
      (updates.filterMap Update.offset?).getLast?.getD v.nextOffset := by
  induction updates using List.reverseRecOn with
  | nil => rfl
  | append_singleton updates u ih =>
    have hLast : v.receiveAll (updates ++ [u]) = (v.receiveAll updates).receive u := by
      simp [receiveAll]
    rw [hLast, nextOffset_receive, ih, List.filterMap_append]
    cases hu : u.offset? <;> simp [hu]

theorem Session.offsets_effectUpdates (effects : List Poller.Effect) :
    (effects.flatMap effectUpdates).filterMap Update.offset? = [] := by
  rw [List.filterMap_eq_nil_iff]
  intro u hu
  obtain ⟨e, -, he⟩ := List.mem_flatMap.mp hu
  cases e with
  | updated => cases he
  | fed lines batch =>
    cases batch with
    | none => cases he
    | some batch =>
      obtain rfl := List.mem_singleton.mp he
      rfl
  | completed =>
    obtain rfl := List.mem_singleton.mp he
    rfl

/-- Whether a call that has heard a successful answer has moved the offset on, if at all. -/
def Poller.Phase.isBehindStoring : Poller.Phase → Bool
  | finishing _ | reporting .. | announcing _ | releasing (.updated ..) => true
  | _ => false

namespace Poll

theorem Shared.offsets_send (s : Shared) (message : Update) :
    (s.send [message]).messages.filterMap Update.offset? =
      s.messages.filterMap Update.offset? ++ message.offset?.toList := by
  cases hOffset : message.offset? <;> simp [send, hOffset]

theorem Shared.offsets_follow (s : Shared) (next : Poller.Shared) :
    (s.follow next).messages.filterMap Update.offset? =
      s.messages.filterMap Update.offset? := by
  simp [follow, send, Session.offsets_effectUpdates]

/-! ## The calls of polls -/

namespace Phase

/-- The call of a poll; before and behind it, a call that has not begun. -/
def call : Phase → Poller.Call
  | calling call => call
  | _ => ⟨false, .entering⟩

/-- The offset that a poll has read and has yet to tell. -/
def tells? : Phase → Option Nat
  | sending message => message.offset?
  | _ => none

/-- Whether a poll will read the offset, but not move it on any more. -/
def owes : Phase → Bool
  | calling call => call.phase.isBehindStoring
  | reading _ => true
  | _ => false

/-- Whether a poll is about to read the offset. -/
def reads : Phase → Bool
  | reading _ => true
  | _ => false

theorem tells?_of_owes {phase : Phase} (h : phase.owes = true) : phase.tells? = none := by
  cases phase with
  | sending => cases h
  | _ => rfl

theorem tells?_of_reads {phase : Phase} (h : phase.reads = true) : phase.tells? = none := by
  cases phase with
  | sending => cases h
  | _ => rfl

/-- A poll behind a step of its call. -/
def behindStep (call : Poller.Call) : Phase :=
  match call.phase.outcome? with
  | some outcome => behindCall outcome
  | none => calling call

theorem step_calling (f : Findings) (s : Shared) (call : Poller.Call) :
    (calling call).step f s =
      (s.follow (call.step f.reply s.poller).1, behindStep (call.step f.reply s.poller).2) := rfl

theorem tells?_behindStep (call : Poller.Call) : (behindStep call).tells? = none := by
  unfold behindStep
  split
  · next outcome _ => cases outcome <;> rfl
  · rfl

/-- A poll whose call has ended does not hold the poller, and neither did the call. -/
theorem call_behindStep (call : Poller.Call) :
    (behindStep call).call = call ∨
      (behindStep call).call.phase.holds = false ∧ call.phase.holds = false := by
  obtain ⟨completed, phase⟩ := call
  cases phase with
  | ended outcome => cases outcome <;> exact .inr ⟨rfl, rfl⟩
  | _ => exact .inl rfl

/-- A poll outside its call leaves the poller alone. -/
theorem step_outside (f : Findings) (s : Shared) (phase : Phase) :
    (∃ call, phase = calling call) ∨
      (phase.step f s).1.poller = s.poller ∧ (phase.step f s).2.call.phase.holds = false ∧
        phase.call.phase.holds = false := by
  cases phase with
  | calling call => exact .inl ⟨call, rfl⟩
  | entering =>
    refine .inr ⟨rfl, ?_, rfl⟩
    simp only [step]
    split <;> rfl
  | _ => exact .inr ⟨rfl, rfl, rfl⟩

theorem owes_step {call : Poller.Call} (h : (calling call).owes = true) (reply : Reply)
    (s : Poller.Shared) : (behindStep (call.step reply s).2).owes = true := by
  obtain ⟨completed, phase⟩ := call
  cases phase with
  | finishing lines | announcing lines => rfl
  | reporting lines isFirst => cases isFirst <;> rfl
  | releasing outcome => cases outcome <;> first | rfl | cases h
  | _ => cases h

end Phase

namespace Overlap

/-- The calls that polls have made, and what those share. -/
def calls (o : Overlap) : Poller.Overlap := ⟨o.shared.poller, o.polls.map Phase.call⟩

def nextOffset (o : Overlap) : Nat := o.shared.poller.poller.nextOffset

theorem step_of_none {o : Overlap} {choice : Choice} (h : o.polls[choice.place]? = none) :
    o.step choice = o := by
  simp [step, h]

theorem step_of_some {o : Overlap} {choice : Choice} {phase : Phase}
    (h : o.polls[choice.place]? = some phase) :
    o.step choice = ⟨(phase.step choice.findings o.shared).1,
      o.polls.set choice.place (phase.step choice.findings o.shared).2⟩ := by
  simp [step, h]

theorem toldOffsets_eq (o : Overlap) :
    o.toldOffsets = o.shared.messages.filterMap Update.offset? := rfl

/-! ## One step -/

variable {p : Poller} {o : Overlap} {choice : Choice} {answers : List Poller.Answer}

/-- Two calls at a place, neither of which holds the poller, are the same to the poller. -/
theorem getElem?_set_of_not_holds {calls : List Poller.Call} {a b : Poller.Call} (place : Nat)
    (h : a = b ∨ a.phase.holds = false ∧ b.phase.holds = false) (i : Nat) {c : Poller.Call}
    (hHolds : c.phase.holds = true) :
    (calls.set place a)[i]? = some c ↔ (calls.set place b)[i]? = some c := by
  obtain rfl | ⟨ha, hb⟩ := h
  · rfl
  · have hNot : a ≠ c ∧ b ≠ c := by
      constructor <;> rintro rfl <;> simp_all
    simp only [List.getElem?_set]
    split
    · split <;> simp [hNot]
    · rfl

/-- Behind a step of polls, their calls are as behind some steps of calls. -/
theorem tracks_step (hp : p.inFlight = false) (h : o.calls.Tracks p answers) (choice : Choice) :
    ∃ later, (o.step choice).calls.Tracks p later := by
  cases hPhase : o.polls[choice.place]? with
  | none => exact ⟨answers, by rwa [step_of_none hPhase]⟩
  | some phase =>
    have hPlace : o.calls.calls[choice.place]? = some phase.call := by simp [calls, hPhase]
    rw [step_of_some hPhase]
    obtain ⟨call, rfl⟩ | ⟨hPoller, hAfter, hBefore⟩ := phase.step_outside choice.findings o.shared
    · refine ⟨_, (h.step hp ⟨choice.place, choice.findings.reply⟩).congr ?_ ?_⟩
      · rw [(Poller.Overlap.step_of_some hPlace).1]
        rfl
      · intro i c hHolds
        simp only [calls, List.map_set, Phase.step_calling, Poller.Overlap.step, List.getElem?_map,
          hPhase, Option.map_some]
        exact getElem?_set_of_not_holds _ (Phase.call_behindStep _) i hHolds
    · refine ⟨answers, h.congr hPoller fun i c hHolds => ?_⟩
      obtain ⟨hLt, hSelf⟩ := List.getElem?_eq_some_iff.mp hPlace
      have hSame : o.calls.calls.set choice.place phase.call = o.calls.calls := by
        rw [← hSelf, List.set_getElem_self]
      rw [← hSame]
      simp only [calls, List.map_set]
      exact getElem?_set_of_not_holds _ (.inr ⟨hAfter, hBefore⟩) i hHolds

/-- What a step does to the poller's offset, to the offsets that are told, and to the poll that
takes it. -/
inductive Turn (next : Nat) (told : List Nat) (phase : Phase) : Nat → List Nat → Phase → Prop
  | goesOn {phase' : Phase} (hBefore : phase.tells? = none) (hAfter : phase'.tells? = none)
    (hOwes : phase.owes = true → phase'.owes = true) : Turn next told phase next told phase'
  | stores {next' : Nat} {phase' : Phase} (hLe : next ≤ next') (hBefore : phase.tells? = none)
    (hAfter : phase'.tells? = none) (hOwes : phase'.owes = true) :
    Turn next told phase next' told phase'
  | reads {phase' : Phase} (hReads : phase.reads = true) (hAfter : phase'.tells? = some next) :
    Turn next told phase next told phase'
  | tells {offset : Nat} (hBefore : phase.tells? = some offset) :
    Turn next told phase next (told ++ [offset]) .ended

theorem Turn.idle {next : Nat} {told : List Nat} {phase phase' : Phase}
    (hBefore : phase.tells? = none) (hAfter : phase'.tells? = none) (hOwes : phase.owes = false) :
    Turn next told phase next told phase' :=
  .goesOn hBefore hAfter fun h => by simp [hOwes] at h

theorem nextOffset_le_step (h : o.calls.Tracks p answers) {call : Poller.Call}
    (hPhase : o.polls[choice.place]? = some (.calling call)) :
    o.nextOffset ≤ (call.step choice.findings.reply o.shared.poller).1.poller.nextOffset := by
  have hPlace : o.calls.calls[choice.place]? = some call := by simp [calls, hPhase, Phase.call]
  have hLe := h.nextOffset_le_step ⟨choice.place, choice.findings.reply⟩
  rwa [(Poller.Overlap.step_of_some hPlace).1] at hLe

theorem step_turn (h : o.calls.Tracks p answers) {phase : Phase}
    (hPhase : o.polls[choice.place]? = some phase) :
    Turn o.nextOffset (p.nextOffset :: o.toldOffsets) phase (o.step choice).nextOffset
      (p.nextOffset :: (o.step choice).toldOffsets) (phase.step choice.findings o.shared).2 := by
  simp only [toldOffsets_eq, nextOffset]
  rw [step_of_some hPhase]
  cases phase with
  | entering =>
    refine .idle rfl ?_ rfl
    simp only [Phase.step]
    split <;> rfl
  | probing => exact .idle rfl rfl rfl
  | calling call =>
    have hLe := nextOffset_le_step h hPhase
    rw [Phase.step_calling, Shared.offsets_follow]
    obtain hSame | ⟨offset, lines, -, -, hAfter⟩ :=
      call.nextOffset_step choice.findings.reply o.shared.poller
    · show Turn _ _ _ (call.step choice.findings.reply o.shared.poller).1.poller.nextOffset _ _
      rw [hSame]
      exact .goesOn rfl (Phase.tells?_behindStep _) fun hOwes => Phase.owes_step hOwes _ _
    · refine .stores hLe rfl (Phase.tells?_behindStep _) ?_
      simp [Phase.behindStep, hAfter, Poller.Phase.outcome?, Phase.owes,
        Poller.Phase.isBehindStoring]
  | reading lines => exact .reads rfl rfl
  | sending message =>
    show Turn _ _ _ _ (_ :: (o.shared.send [message]).messages.filterMap Update.offset?) _
    rw [Shared.offsets_send]
    cases hOffset : message.offset? with
    | none =>
      rw [Option.toList_none, List.append_nil]
      exact .idle hOffset rfl rfl
    | some offset => exact .tells hOffset
  | ended => exact .idle rfl rfl rfl

/-! ## What is told and yet to be told -/

/-- The offsets that are told and yet to be told, between two steps. -/
structure Telling (next : Nat) (told : List Nat) (polls : List Phase) : Prop where
  told_le : ∀ n ∈ told, n ≤ next
  pending_le : ∀ (i : Nat) (phase : Phase) (n : Nat), polls[i]? = some phase →
    phase.tells? = some n → n ≤ next
  /-- The poller's offset has been told, or some poll will tell it. -/
  covered : next ∈ told ∨ ∃ (i : Nat) (phase : Phase), polls[i]? = some phase ∧
    (phase.owes = true ∨ phase.tells? = some next)

/-- The same if polls read and tell in turn. -/
structure Ordered (told : List Nat) (polls : List Phase) : Prop where
  sorted : told.Pairwise (· ≤ ·)
  pending_ge : ∀ (i : Nat) (phase : Phase) (n : Nat), polls[i]? = some phase →
    phase.tells? = some n → ∀ m ∈ told, m ≤ n
  alone : ∀ (i j : Nat) (a b : Phase) (m n : Nat), polls[i]? = some a → polls[j]? = some b →
    a.tells? = some m → b.tells? = some n → i = j

section Turn

variable {next next' : Nat} {told told' : List Nat} {phase phase' : Phase} {polls : List Phase}
  {place : Nat}

/-- The polls behind a turn: the one that took it, and the others as they were. -/
theorem polls_set_cases {i : Nat} {later : Phase}
    (h : (polls.set place phase')[i]? = some later) :
    i = place ∧ later = phase' ∨ i ≠ place ∧ polls[i]? = some later := by
  rw [List.getElem?_set] at h
  split at h
  · next hi =>
    split at h
    · exact .inl ⟨hi.symm, (Option.some.inj h).symm⟩
    · cases h
  · next hi => exact .inr ⟨Ne.symm hi, h⟩

/-- A poll that tells an offset behind a turn has just read it, or was to tell it before. -/
theorem Turn.tells_cases (h : Turn next told phase next' told' phase') {i n : Nat} {later : Phase}
    (hLater : (polls.set place phase')[i]? = some later) (hTells : later.tells? = some n) :
    i = place ∧ phase.reads = true ∧ n = next ∨ i ≠ place ∧ polls[i]? = some later := by
  obtain ⟨hi, rfl⟩ | hOther := polls_set_cases hLater
  · left
    cases h with
    | reads hReads hAfter =>
      rw [hAfter] at hTells
      exact ⟨hi, hReads, (Option.some.inj hTells).symm⟩
    | goesOn _ hAfter _ | stores _ _ hAfter _ =>
      rw [hAfter] at hTells
      cases hTells
    | tells => cases hTells
  · exact .inr hOther

theorem Turn.le (h : Turn next told phase next' told' phase') : next ≤ next' := by
  cases h with
  | stores hLe _ _ _ => exact hLe
  | _ => exact Nat.le_refl _

/-- A turn tells the poller's offset, or leaves it to a poll that will tell it. -/
theorem Telling.covered_turn (h : Telling next told polls) (hPhase : polls[place]? = some phase)
    (hTurn : Turn next told phase next' told' phase') :
    next' ∈ told' ∨ ∃ (i : Nat) (later : Phase), (polls.set place phase')[i]? = some later ∧
      (later.owes = true ∨ later.tells? = some next') := by
  have hSelf : (polls.set place phase')[place]? = some phase' :=
    List.getElem?_set_self (List.getElem?_eq_some_iff.mp hPhase).1
  have hOther {i : Nat} {later : Phase} (hi : i ≠ place) (hLater : polls[i]? = some later) :
      (polls.set place phase')[i]? = some later :=
    (List.getElem?_set_ne (Ne.symm hi)).trans hLater
  cases hTurn with
  | stores hLe hBefore hAfter hOwes => exact .inr ⟨place, phase', hSelf, .inl hOwes⟩
  | reads hReads hAfter => exact .inr ⟨place, phase', hSelf, .inr hAfter⟩
  | goesOn hBefore hAfter hOwes =>
    obtain hTold | ⟨i, later, hLater, hWill⟩ := h.covered
    · exact .inl hTold
    · right
      by_cases hi : i = place
      · subst hi
        obtain rfl := Option.some.inj (hPhase.symm.trans hLater)
        refine ⟨i, phase', hSelf, .inl (hOwes ?_)⟩
        simpa [hBefore] using hWill
      · exact ⟨i, later, hOther hi hLater, hWill⟩
  | @tells offset hBefore =>
    obtain hTold | ⟨i, later, hLater, hWill⟩ := h.covered
    · exact .inl (List.mem_append_left _ hTold)
    · by_cases hi : i = place
      · subst hi
        obtain rfl := Option.some.inj (hPhase.symm.trans hLater)
        left
        obtain hOwes | hTells := hWill
        · simp [Phase.tells?_of_owes hOwes] at hBefore
        · obtain rfl := Option.some.inj (hBefore.symm.trans hTells)
          exact List.mem_append_right _ List.mem_cons_self
      · exact .inr ⟨i, later, hOther hi hLater, hWill⟩

/-- A turn tells no offset beyond the one that the poller has reached. -/
theorem Telling.turn (h : Telling next told polls) (hPhase : polls[place]? = some phase)
    (hTurn : Turn next told phase next' told' phase') :
    Telling next' told' (polls.set place phase') := by
  refine ⟨?_, ?_, h.covered_turn hPhase hTurn⟩
  · intro n hn
    have hOld (hOld : n ∈ told) : n ≤ next' := Nat.le_trans (h.told_le n hOld) hTurn.le
    cases hTurn with
    | tells hBefore =>
      obtain hn | hn := List.mem_append.mp hn
      · exact hOld hn
      · obtain rfl := List.mem_singleton.mp hn
        exact h.pending_le place phase n hPhase hBefore
    | _ => exact hOld hn
  · intro i later n hLater hTells
    refine Nat.le_trans ?_ hTurn.le
    obtain ⟨-, -, rfl⟩ | ⟨-, hOld⟩ := hTurn.tells_cases hLater hTells
    · exact Nat.le_refl _
    · exact h.pending_le i later n hOld hTells

/-- Offsets are told in order as long as polls that read are alone. -/
theorem Ordered.turn (h : Ordered told polls) (hTelling : Telling next told polls)
    (hPhase : polls[place]? = some phase) (hTurn : Turn next told phase next' told' phase')
    (hAlone : phase.reads = true → ∀ other ∈ polls, other.tells? = none) :
    Ordered told' (polls.set place phase') := by
  -- While a poll reads, or tells, no other one has an offset to tell.
  have hOthers (hAny : phase.reads = true ∨ ∃ n, phase.tells? = some n) {i n : Nat} {other : Phase}
      (hi : i ≠ place) (hOther : polls[i]? = some other) : other.tells? ≠ some n := by
    intro hTells
    obtain hReads | ⟨m, hm⟩ := hAny
    · simp [hAlone hReads other (List.mem_of_getElem? hOther)] at hTells
    · exact hi (h.alone i place other phase n m hOther hPhase hTells hm)
  constructor
  · cases hTurn with
    | tells hBefore =>
      rw [List.pairwise_append]
      refine ⟨h.sorted, List.pairwise_singleton _ _, ?_⟩
      intro m hm n hn
      obtain rfl := List.mem_singleton.mp hn
      exact h.pending_ge place phase n hPhase hBefore m hm
    | _ => exact h.sorted
  · intro i later n hLater hTells m hm
    obtain ⟨-, hReads, rfl⟩ | ⟨hi, hOld⟩ := hTurn.tells_cases hLater hTells
    · cases hTurn with
      | tells hBefore => simp [Phase.tells?_of_reads hReads] at hBefore
      | _ => exact hTelling.told_le m hm
    · cases hTurn with
      | tells hBefore => exact absurd hTells (hOthers (.inr ⟨_, hBefore⟩) hi hOld)
      | _ => exact h.pending_ge i later n hOld hTells m hm
  · intro i j a b m n ha hb hTellsA hTellsB
    obtain ⟨rfl, hReads, -⟩ | ⟨hi, hOldA⟩ := hTurn.tells_cases ha hTellsA
    · obtain ⟨rfl, -, -⟩ | ⟨hj, hOldB⟩ := hTurn.tells_cases hb hTellsB
      · rfl
      · exact absurd hTellsB (hOthers (.inl hReads) hj hOldB)
    · obtain ⟨rfl, hReads, -⟩ | ⟨hj, hOldB⟩ := hTurn.tells_cases hb hTellsB
      · exact absurd hTellsA (hOthers (.inl hReads) hi hOldA)
      · exact h.alone i j a b m n hOldA hOldB hTellsA hTellsB

end Turn

/-! ## Runs -/

/-- Whether no poll reads the offset in a step while another one has yet to tell it. -/
def readsAlone (o : Overlap) (choice : Choice) : Bool :=
  match o.polls[choice.place]? with
  | some (.reading _) => o.polls.all (·.tells?.isNone)
  | _ => true

/-- Whether polls read and tell in turn while steps are taken in an order. -/
def inTurn (o : Overlap) : List Choice → Bool
  | [] => true
  | choice :: order => o.readsAlone choice && (o.step choice).inTurn order

/-- What holds between two steps of overlapping polls. -/
structure Told (p : Poller) (o : Overlap) : Prop where
  tracked : ∃ answers, o.calls.Tracks p answers
  telling : Telling o.nextOffset (p.nextOffset :: o.toldOffsets) o.polls

theorem start_told (p : Poller) (count : Nat) : Told p (start p count) where
  tracked := by
    refine ⟨[], ?_⟩
    have hCalls : (start p count).calls = Poller.Overlap.start p (List.replicate count false) := by
      simp [start, calls, Poller.Overlap.start, Phase.call]
    rw [hCalls]
    exact Poller.Overlap.start_tracks p _
  telling := by
    refine ⟨?_, ?_, .inl List.mem_cons_self⟩
    · intro n hn
      obtain rfl := List.mem_singleton.mp hn
      exact Nat.le_refl _
    · intro i phase n hPhase hTells
      obtain rfl := List.eq_of_mem_replicate (List.mem_of_getElem? hPhase)
      cases hTells

theorem start_ordered (p : Poller) (count : Nat) :
    Ordered (p.nextOffset :: (start p count).toldOffsets) (start p count).polls := by
  refine ⟨List.pairwise_singleton _ _, ?_, ?_⟩
  · intro i phase n hPhase hTells
    obtain rfl := List.eq_of_mem_replicate (List.mem_of_getElem? hPhase)
    cases hTells
  · intro i j a b m n ha _ hTells _
    obtain rfl := List.eq_of_mem_replicate (List.mem_of_getElem? ha)
    cases hTells

/-- Whatever poll goes on, the offset reached is told or will be. -/
theorem Told.step (hp : p.inFlight = false) (h : Told p o) (choice : Choice) :
    Told p (o.step choice) := by
  obtain ⟨answers, hTracks⟩ := h.tracked
  refine ⟨tracks_step hp hTracks choice, ?_⟩
  cases hPhase : o.polls[choice.place]? with
  | none =>
    rw [step_of_none hPhase]
    exact h.telling
  | some phase =>
    have hPolls := congrArg Overlap.polls (step_of_some hPhase)
    rw [hPolls]
    exact h.telling.turn hPhase (step_turn hTracks hPhase)

theorem Told.run (hp : p.inFlight = false) (h : Told p o) (order : List Choice) :
    Told p (o.run order) := by
  induction order generalizing o with
  | nil => exact h
  | cons choice order ih => exact ih (h.step hp choice)

theorem Told.ordered_step (h : Told p o)
    (hOrdered : Ordered (p.nextOffset :: o.toldOffsets) o.polls) (hAlone : o.readsAlone choice = true) :
    Ordered (p.nextOffset :: (o.step choice).toldOffsets) (o.step choice).polls := by
  obtain ⟨answers, hTracks⟩ := h.tracked
  cases hPhase : o.polls[choice.place]? with
  | none =>
    rw [step_of_none hPhase]
    exact hOrdered
  | some phase =>
    have hPolls := congrArg Overlap.polls (step_of_some hPhase)
    rw [hPolls]
    refine hOrdered.turn h.telling hPhase (step_turn hTracks hPhase) ?_
    intro hReads other hOther
    cases phase with
    | reading lines =>
      simp only [readsAlone, hPhase, List.all_eq_true] at hAlone
      exact Option.isNone_iff_eq_none.mp (hAlone other hOther)
    | _ => cases hReads

/-- Polls that read and tell in turn tell offsets in order. -/
theorem Told.ordered_run (hp : p.inFlight = false) (h : Told p o)
    (hOrdered : Ordered (p.nextOffset :: o.toldOffsets) o.polls) {order : List Choice}
    (hInTurn : o.inTurn order = true) :
    Ordered (p.nextOffset :: (o.run order).toldOffsets) (o.run order).polls := by
  induction order generalizing o with
  | nil => exact hOrdered
  | cons choice order ih =>
    simp only [inTurn, Bool.and_eq_true] at hInTurn
    exact ih (h.step hp choice) (h.ordered_step hOrdered hInTurn.1) hInTurn.2

/-- Once all polls have ended, one of them has told the poller's offset, unless none has moved it
on. -/
theorem Told.mem_of_hasEnded (h : Told p o) (hEnded : o.hasEnded = true) :
    o.nextOffset ∈ p.nextOffset :: o.toldOffsets := by
  obtain hTold | ⟨i, phase, hPhase, hWill⟩ := h.telling.covered
  · exact hTold
  · have hPhaseEnded : phase = .ended := by
      simpa using List.all_eq_true.mp hEnded phase (List.mem_of_getElem? hPhase)
    subst hPhaseEnded
    obtain hOwes | hTells := hWill
    · cases hOwes
    · cases hTells

/-- A viewer shows the last one of the offsets that it has been told. -/
theorem getLast?_told {v : Viewer} (hShown : v.nextOffset = p.nextOffset) (o : Overlap) :
    (p.nextOffset :: o.toldOffsets).getLast? =
      some (v.receiveAll o.shared.messages).nextOffset := by
  rw [Viewer.nextOffset_receiveAll, hShown, List.getLast?_cons]
  rfl

/-- **Overlapping polls tell no offset that the poller has not reached, and tell the one that it
has reached**, in any order of their steps and whatever they find; once they have ended, it is the
greatest one that is told. If no poll reads the offset while another one has yet to tell what it has
read, then the offsets arrive in order, and a viewer that has taken in all messages shows the
poller's. -/
theorem run_told (p : Poller) (v : Viewer) (count : Nat) (order : List Choice)
    (hIdle : p.inFlight = false) (hShown : v.nextOffset = p.nextOffset) :
    let o := (start p count).run order
    let told := p.nextOffset :: o.toldOffsets
    let shown := (v.receiveAll o.shared.messages).nextOffset
    (∀ n ∈ told, n ≤ o.nextOffset) ∧ shown ≤ o.nextOffset ∧
      (o.hasEnded = true → told.max? = some o.nextOffset) ∧
      ((start p count).inTurn order = true →
        told.Pairwise (· ≤ ·) ∧ (o.hasEnded = true → shown = o.nextOffset)) := by
  intro o told shown
  have hTold : Told p o := (start_told p count).run hIdle order
  have hLe : ∀ n ∈ told, n ≤ o.nextOffset := hTold.telling.told_le
  have hLast : told.getLast? = some shown := getLast?_told hShown o
  have hShownLe : shown ≤ o.nextOffset := hLe shown (List.mem_of_getLast? hLast)
  refine ⟨hLe, hShownLe, ?_, ?_⟩
  · intro hEnded
    exact List.max?_eq_some_iff.mpr ⟨hTold.mem_of_hasEnded hEnded, hLe⟩
  · intro hInTurn
    have hSorted := ((start_told p count).ordered_run hIdle (start_ordered p count) hInTurn).sorted
    refine ⟨hSorted, fun hEnded => Nat.le_antisymm hShownLe ?_⟩
    obtain ⟨front, hFront⟩ := List.getLast?_eq_some_iff.mp hLast
    have hMem : o.nextOffset ∈ told := hTold.mem_of_hasEnded hEnded
    rw [show told = front ++ [shown] from hFront] at hMem
    have hSorted : (front ++ [shown]).Pairwise (· ≤ ·) := hFront ▸ hSorted
    obtain hEarlier | hHere := List.mem_append.mp hMem
    · exact (List.pairwise_append.mp hSorted).2.2 _ hEarlier shown (List.mem_singleton_self shown)
    · exact Nat.le_of_eq (List.mem_singleton.mp hHere)

/-- Two polls that both bring a line, the second of which begins while the first one is at its
call. -/
theorem run_told_of_two_polls :
    let p : Poller := {}
    let v : Viewer := ⟨"log", false, {}, {}, 0, false, none, none, false⟩
    let first : Findings := ⟨.ok ⟨['a', '\n'], 1⟩, .ok false⟩
    let second : Findings := ⟨.ok ⟨['b', '\n'], 2⟩, .ok false⟩
    let order := List.replicate 8 ⟨0, first⟩ ++ List.replicate 2 ⟨1, second⟩ ++
      List.replicate 7 ⟨0, first⟩ ++ List.replicate 13 ⟨1, second⟩
    let o := (start p 2).run order
    p.inFlight = false ∧ v.nextOffset = p.nextOffset ∧ (start p 2).inTurn order = true ∧
      o.hasEnded = true ∧ o.toldOffsets = [1, 2] ∧
      (v.receiveAll o.shared.messages).nextOffset = o.nextOffset := by
  intro p v first second order
  have hInTurn : (start p 2).inTurn order = true := by decide +kernel
  have hEnded : ((start p 2).run order).hasEnded = true := by decide +kernel
  have hTold : ((start p 2).run order).toldOffsets = [1, 2] := by decide +kernel
  obtain ⟨-, -, -, hOrdered⟩ := run_told p v 2 order rfl rfl
  generalize (start p 2).run order = o at hEnded hTold hOrdered
  exact ⟨rfl, rfl, hInTurn, hEnded, hTold, (hOrdered hInTurn).2 hEnded⟩

/-- The first poll reads the offset, the second one moves it on, reads it and tells it, and then the
first one tells what it has read. -/
theorem told_out_of_order :
    let p : Poller := {}
    let v : Viewer := ⟨"log", false, {}, {}, 0, false, none, none, false⟩
    let first : Findings := ⟨.ok ⟨['a', '\n'], 1⟩, .ok false⟩
    let second : Findings := ⟨.ok ⟨['b', '\n'], 2⟩, .ok false⟩
    let o := (start p 2).run
      (List.replicate 14 ⟨0, first⟩ ++ List.replicate 15 ⟨1, second⟩ ++ [⟨0, first⟩])
    o.hasEnded = true ∧ ¬ o.toldOffsets.Pairwise (· ≤ ·) ∧
      (v.receiveAll o.shared.messages).nextOffset ≠ o.nextOffset := by
  intro p v first second o
  have hTold : o.toldOffsets = [2, 1] := by decide +kernel
  have hNext : o.nextOffset = 2 := by decide +kernel
  refine ⟨by decide +kernel, by simp [hTold], ?_⟩
  rw [Viewer.nextOffset_receiveAll, ← toldOffsets_eq, hTold, hNext]
  decide

end Overlap

end Poll

end BuildLog
