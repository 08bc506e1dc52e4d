import BuildLog.Line.Framing
import BuildLog.Proofs.Text.Splitting
import Mathlib.Data.List.TakeWhile

/-!
# Frames are read back as they were written

A line without its end is framed in at most one way: `Frames` relates it to what its frame says, and
no text is related to two frames. What is read from a raw line is related to the line's body, so
reading loses nothing, and it gives back whatever was written into a frame.

* `body_spec`: the body of a raw line is what stands before its last run of line ends.
* `frames_ofRaw`, `Frames.ofRaw_eq`: a raw line is read as its body is framed, and in no other way.
* `framing_exact`: nothing is lost, and every frame is read as it was written.
-/

namespace BuildLog.Framed

/-- Two characters, neither of which is the bar behind them or a line feed. -/
def IsToken (s : Text) : Prop :=
  ∃ a b, s = [a, b] ∧ ∀ c ∈ [a, b], c ≠ '|' ∧ c ≠ '\n'

/-- A timestamp `dd:dd:dd.ddd`, each `d` being a decimal digit of any script. -/
def IsStamp (s : Text) : Prop :=
  ∃ a b c d e f g h i, s = [a, b, ':', c, d, ':', e, f, '.', g, h, i] ∧
    ∀ x ∈ [a, b, c, d, e, f, g, h, i], Text.isDecimalDigit x = true

def tagged (token stamp content : Text) : Text := token ++ '|' :: stamp ++ ' ' :: content

def stamped (stamp content : Text) : Text := stamp ++ ' ' :: content

/-- A text has neither kind of frame. -/
def Unframed (s : Text) : Prop :=
  ∀ stamp content, IsStamp stamp →
    s ≠ stamped stamp content ∧ ∀ token, IsToken token → s ≠ tagged token stamp content

/-- What the frame of a text without a line feed says. -/
inductive Frames (s : Text) : Framed → Prop
  | tagged {token stamp content : Text} (hToken : IsToken token) (hStamp : IsStamp stamp)
      (hs : s = tagged token stamp content) : Frames s ⟨some (Tag.ofToken token), stamp, content⟩
  | stamped {stamp content : Text} (hStamp : IsStamp stamp) (hs : s = stamped stamp content) :
      Frames s ⟨none, stamp, content⟩
  | unframed (hs : Unframed s) : Frames s ⟨none, [], s⟩

/-- A frame as it is written around its content. -/
def written (f : Framed) : Text :=
  match f.tag with
  | some tag => tagged tag.token f.timestamp f.content
  | none => if f.timestamp = [] then f.content else stamped f.timestamp f.content

/-! ## Timestamps -/

theorem hasShape_nil_iff {s : Text} : hasShape [] s = true ↔ s = [] := by
  cases s <;> simp [hasShape]

theorem hasShape_cons_iff {test : Char → Bool} {tests : List (Char → Bool)} {s : Text} :
    hasShape (test :: tests) s = true ↔
      ∃ c later, s = c :: later ∧ test c = true ∧ hasShape tests later = true := by
  cases s <;> simp [hasShape]

/-- A stamp is recognised by its shape, character by character. -/
theorem isTimestamp_iff {s : Text} : isTimestamp s = true ↔ IsStamp s := by
  constructor
  · intro hs
    simp only [isTimestamp, clock, hasShape_cons_iff, hasShape_nil_iff, beq_iff_eq] at hs
    obtain ⟨a, _, rfl, ha, b, _, rfl, hb, _, _, rfl, rfl, c, _, rfl, hc, d, _, rfl, hd, _, _, rfl,
      rfl, e, _, rfl, he, f, _, rfl, hf, _, _, rfl, rfl, g, _, rfl, hg, h, _, rfl, hh, i, _, rfl,
      hi, rfl⟩ := hs
    exact ⟨a, b, c, d, e, f, g, h, i, rfl, by simp [ha, hb, hc, hd, he, hf, hg, hh, hi]⟩
  · rintro ⟨a, b, c, d, e, f, g, h, i, rfl, hDigits⟩
    simp only [List.mem_cons, List.not_mem_nil, or_false, forall_eq_or_imp, forall_eq] at hDigits
    simp [isTimestamp, clock, hasShape, hDigits]

theorem IsStamp.length_eq {s : Text} (h : IsStamp s) : s.length = 12 := by
  obtain ⟨a, b, c, d, e, f, g, h, i, rfl, -⟩ := h
  rfl

theorem IsStamp.notMem {s : Text} (h : IsStamp s) : '\n' ∉ s := by
  obtain ⟨a, b, c, d, e, f, g, h, i, rfl, hDigits⟩ := h
  have hFeed : Text.isDecimalDigit '\n' = false := by decide
  intro hMem
  have hNine : '\n' ∈ [a, b, c, d, e, f, g, h, i] := by
    simpa using hMem
  simp [hDigits _ hNine] at hFeed

theorem timestamp?_stamped {stamp : Text} (h : IsStamp stamp) (content : Text) :
    timestamp? (stamped stamp content) = some (stamp, content) := by
  have hLength := h.length_eq
  have hTake : (stamp ++ ' ' :: content).take 12 = stamp := List.take_left' hLength
  have hDrop : (stamp ++ ' ' :: content).drop 12 = ' ' :: content := List.drop_left' hLength
  simp [timestamp?, stamped, hTake, hDrop, isTimestamp_iff.mpr h]

theorem IsToken.notMem {s : Text} (h : IsToken s) : '\n' ∉ s := by
  obtain ⟨a, b, rfl, hBars⟩ := h
  exact fun hMem => (hBars _ hMem).2 rfl

/-! ## Reading a body -/

theorem firstLine_of_notMem {s : Text} (h : '\n' ∉ s) : Text.firstLine s = s := by
  refine List.takeWhile_eq_self_iff.mpr fun c hc => ?_
  rw [bne_iff_ne]
  rintro rfl
  exact h hc

theorem ofTagged?_tagged {token stamp : Text} (hToken : IsToken token) (hStamp : IsStamp stamp)
    {content : Text} (hContent : '\n' ∉ content) :
    ofTagged? (tagged token stamp content) = some ⟨some (Tag.ofToken token), stamp, content⟩ := by
  obtain ⟨a, b, rfl, hBars⟩ := hToken
  have ha : a ≠ '|' := (hBars a (by simp)).1
  have hb : b ≠ '|' := (hBars b (by simp)).1
  have hRead := timestamp?_stamped hStamp content
  simp only [tagged, List.cons_append, List.nil_append, ofTagged?, ha, hb, or_self, if_false]
  rw [← stamped, hRead]
  simp [firstLine_of_notMem hContent]

theorem Frames.of_ofTagged? {s : Text} (hs : '\n' ∉ s) {f : Framed} (h : ofTagged? s = some f) :
    Frames s f := by
  unfold ofTagged? at h
  split at h
  · next a b rest =>
    split at h
    · simp at h
    · next hBars =>
      obtain ⟨ha, hb⟩ := not_or.mp hBars
      obtain ⟨⟨stamp, content⟩, hRead, rfl⟩ := Option.map_eq_some_iff.mp h
      obtain ⟨rfl, hStamp⟩ := timestamp?_eq_some hRead
      have hContent : '\n' ∉ content := fun hMem => hs (by simp [hMem])
      have hToken : IsToken [a, b] := by
        refine ⟨a, b, rfl, fun c hc => ⟨?_, ?_⟩⟩
        · rcases List.mem_pair.mp hc with rfl | rfl
          · exact ha
          · exact hb
        · rintro rfl
          exact hs (List.mem_append_left _ hc)
      dsimp only
      rw [firstLine_of_notMem hContent]
      exact .tagged hToken (isTimestamp_iff.mp hStamp) rfl
  · simp at h

/-- The third character of a text tells the two kinds of frame apart. -/
theorem ofTagged?_stamped {stamp : Text} (h : IsStamp stamp) (content : Text) :
    ofTagged? (stamped stamp content) = none := by
  obtain ⟨a, b, c, d, e, f, g, h, i, rfl, -⟩ := h
  rfl

theorem unframed_of_none {s : Text} (hs : '\n' ∉ s) (hTagged : ofTagged? s = none)
    (hStamped : timestamp? s = none) : Unframed s := by
  refine fun stamp content hStamp => ⟨?_, ?_⟩
  · rintro rfl
    simp [timestamp?_stamped hStamp] at hStamped
  · rintro token hToken rfl
    have hContent : '\n' ∉ content := fun hMem => hs (by simp [tagged, hMem])
    simp [ofTagged?_tagged hToken hStamp hContent] at hTagged

theorem ofRaw_of_ofTagged?_eq_none {raw : Text} (h : ofTagged? (body raw) = none) :
    ofRaw raw = ofUntagged (body raw) := by
  simp [ofRaw, h]

/-- Whatever a raw line is read as, its body is framed in that way. -/
theorem frames_ofRaw {raw : Text} (hRaw : '\n' ∉ body raw) : Frames (body raw) (ofRaw raw) := by
  cases hTagged : ofTagged? (body raw) with
  | some f =>
    have hRead : ofRaw raw = f := by simp [ofRaw, hTagged]
    rw [hRead]
    exact .of_ofTagged? hRaw hTagged
  | none =>
    rw [ofRaw_of_ofTagged?_eq_none hTagged]
    cases hStamped : timestamp? (body raw) with
    | some pair =>
      obtain ⟨stamp, content⟩ := pair
      obtain ⟨hs, hStamp⟩ := timestamp?_eq_some hStamped
      have hContent : '\n' ∉ content := fun hMem => hRaw (by simp [hs, hMem])
      have hRead : ofUntagged (body raw) = ⟨none, stamp, content⟩ := by
        simp [ofUntagged, hStamped, firstLine_of_notMem hContent]
      rw [hRead]
      exact .stamped (isTimestamp_iff.mp hStamp) hs
    | none =>
      have hRead : ofUntagged (body raw) = ⟨none, [], body raw⟩ := by
        simp [ofUntagged, hStamped, firstLine_of_notMem hRaw]
      rw [hRead]
      exact .unframed (unframed_of_none hRaw hTagged hStamped)

/-- A text is framed in at most one way. -/
theorem Frames.ofRaw_eq {raw : Text} (hRaw : '\n' ∉ body raw) {f : Framed}
    (h : Frames (body raw) f) : ofRaw raw = f := by
  cases h with
  | @tagged token stamp content hToken hStamp hs =>
    have hContent : '\n' ∉ content := fun hMem => hRaw (by simp [hs, Framed.tagged, hMem])
    simp [ofRaw, hs, ofTagged?_tagged hToken hStamp hContent]
  | @stamped stamp content hStamp hs =>
    have hContent : '\n' ∉ content := fun hMem => hRaw (by simp [hs, Framed.stamped, hMem])
    have hNone : ofTagged? (body raw) = none := by rw [hs, ofTagged?_stamped hStamp]
    rw [ofRaw_of_ofTagged?_eq_none hNone]
    simp [ofUntagged, hs, timestamp?_stamped hStamp, firstLine_of_notMem hContent]
  | unframed hs =>
    -- Whatever is read from the text cannot come from a frame, as there is none.
    have hRead := frames_ofRaw hRaw
    generalize ofRaw raw = f at hRead
    cases hRead with
    | tagged hToken hStamp hTagged => exact absurd hTagged ((hs _ _ hStamp).2 _ hToken)
    | stamped hStamp hStamped => exact absurd hStamped (hs _ _ hStamp).1
    | unframed _ => rfl

/-- A frame holds all of the line that it was read from. -/
theorem Frames.written_eq {s : Text} {f : Framed} (h : Frames s f) : f.written = s := by
  cases h with
  | tagged _ _ hs => simp only [written, Tag.token_ofToken, hs]
  | @stamped stamp content hStamp hs =>
    have hNe : stamp ≠ [] := by
      rintro rfl
      exact absurd hStamp.length_eq (by simp)
    rw [written, if_neg hNe, hs]
  | unframed _ => rfl

/-! ## The end of a raw line -/

theorem isTerminator_iff {c : Char} : isTerminator c = true ↔ c = '\n' ∨ c = '\r' := by
  simp [isTerminator]

/-- The body of a raw line is what is in front of all line ends behind it. -/
theorem body_spec (raw : Text) :
    (∃ ending, raw = body raw ++ ending ∧ ∀ c ∈ ending, c = '\n' ∨ c = '\r') ∧
      ∀ c ∈ (body raw).getLast?, c ≠ '\n' ∧ c ≠ '\r' := by
  refine ⟨⟨(raw.reverse.takeWhile isTerminator).reverse, ?_, ?_⟩, ?_⟩
  · rw [body, Text.dropTrailing, ← List.reverse_append, List.takeWhile_append_dropWhile,
      List.reverse_reverse]
  · intro c hc
    exact isTerminator_iff.mp (List.mem_takeWhile_imp (List.mem_reverse.mp hc))
  · intro c hc
    rw [body, Text.dropTrailing, List.getLast?_reverse] at hc
    have hNot := List.head?_dropWhile_not isTerminator raw.reverse
    rw [hc] at hNot
    simpa [isTerminator] using hNot

theorem body_append {s ending : Text} (hs : '\n' ∉ s) (hLast : s.getLast? ≠ some '\r')
    (hEnding : ∀ c ∈ ending, c = '\n' ∨ c = '\r') : body (s ++ ending) = s := by
  have hRun : ∀ c ∈ ending.reverse, isTerminator c = true := by
    intro c hc
    exact isTerminator_iff.mpr (hEnding c (List.mem_reverse.mp hc))
  rw [body, Text.dropTrailing, List.reverse_append, List.dropWhile_append_of_pos hRun]
  cases hRev : s.reverse with
  | nil => simpa using hRev.symm
  | cons c later =>
    have hs' : s = later.reverse ++ [c] := by simpa using congrArg List.reverse hRev
    have hFeed : c ≠ '\n' := by
      rintro rfl
      exact hs (by simp [hs'])
    have hReturn : c ≠ '\r' := by
      rintro rfl
      exact hLast (by simp [hs'])
    simp [isTerminator, hFeed, hReturn, hs']

theorem getLast?_append_blank {content : Text} (h : content.getLast? ≠ some '\r') (front : Text) :
    (front ++ ' ' :: content).getLast? ≠ some '\r' := by
  rw [List.getLast?_append_cons, List.getLast?_cons]
  cases hLast : content.getLast? with
  | none => simp
  | some c => simpa [hLast] using h

theorem Frames.ofRaw_append {s ending : Text} {f : Framed} (h : Frames s f) (hs : '\n' ∉ s)
    (hLast : s.getLast? ≠ some '\r') (hEnding : ∀ c ∈ ending, c = '\n' ∨ c = '\r') :
    ofRaw (s ++ ending) = f := by
  have hBody := body_append hs hLast hEnding
  refine Frames.ofRaw_eq ?_ ?_
  · rwa [hBody]
  · rwa [hBody]

/-- A line of a text has no line feed in its body. -/
theorem notMem_body_of_mem_lines {s raw : Text} (h : raw ∈ Text.lines s) : '\n' ∉ body raw := by
  obtain ⟨s', e, he, rfl, hBare⟩ := (Text.splits_lines s).bare raw h
  have hFeed : '\n' ∉ s' := fun hMem => (hBare _ hMem).2 rfl
  have hReturn : s'.getLast? ≠ some '\r' := fun hLast =>
    (hBare _ (List.mem_of_getLast? hLast)).1 rfl
  have hRun : ∀ c ∈ e, c = '\n' ∨ c = '\r' := by
    simp only [Text.terminators, List.mem_cons, List.not_mem_nil, or_false] at he
    rcases he with rfl | rfl | rfl | rfl <;> simp
  rwa [body_append hFeed hReturn hRun]

/-- **Frames are read exactly.** A raw line whose body has no line feed, such as a line of a text,
loses nothing but its end; a frame that was written is read as it was written, whatever run of line
ends stands behind it; and a body of neither kind of frame is content alone. -/
theorem framing_exact :
    (∀ raw, (∃ ending, raw = body raw ++ ending ∧ ∀ c ∈ ending, c = '\n' ∨ c = '\r') ∧
        ∀ c ∈ (body raw).getLast?, c ≠ '\n' ∧ c ≠ '\r') ∧
      (∀ s, ∀ raw ∈ Text.lines s, '\n' ∉ body raw) ∧
      (∀ raw, '\n' ∉ body raw → (ofRaw raw).written = body raw ∧
        (Unframed (body raw) → ofRaw raw = ⟨none, [], body raw⟩)) ∧
      ∀ stamp content ending, IsStamp stamp → '\n' ∉ content → content.getLast? ≠ some '\r' →
        (∀ c ∈ ending, c = '\n' ∨ c = '\r') →
        ofRaw (stamped stamp content ++ ending) = ⟨none, stamp, content⟩ ∧
          ∀ token, IsToken token →
            ofRaw (tagged token stamp content ++ ending) =
              ⟨some (Tag.ofToken token), stamp, content⟩ := by
  refine ⟨body_spec, fun s raw => notMem_body_of_mem_lines, ?_, ?_⟩
  · intro raw hRaw
    exact ⟨(frames_ofRaw hRaw).written_eq, fun h => (Frames.unframed h).ofRaw_eq hRaw⟩
  · intro stamp content ending hStamp hContent hLast hEnding
    have hStamped : '\n' ∉ stamped stamp content := by
      simp [stamped, hStamp.notMem, hContent]
    refine ⟨?_, ?_⟩
    · exact (Frames.stamped hStamp rfl).ofRaw_append hStamped (getLast?_append_blank hLast _) hEnding
    · intro token hToken
      have hTagged : '\n' ∉ tagged token stamp content := by
        simp [tagged, hToken.notMem, hStamp.notMem, hContent]
      exact (Frames.tagged hToken hStamp rfl).ofRaw_append hTagged (getLast?_append_blank hLast _)
        hEnding

/-- A timestamp with digits of two scripts, a content with a carriage return inside, and three ends
of a line behind it; and a token whose timestamp breaks off. -/
theorem framing_exact_of_two_scripts :
    let stamp : Text := ['1', '2', ':', '0', '0', ':', '0', '1', '.', '0', '0', '٣']
    let content : Text := ['a', '\r', 'b']
    let ending : Text := ['\r', '\n', '\r']
    let raw : Text := ['!', '!', '|', '1', '2', ' ', 'a', '\n']
    (IsStamp stamp ∧ IsToken ['!', '!'] ∧ '\n' ∉ content ∧ content.getLast? ≠ some '\r' ∧
        ∀ c ∈ ending, c = '\n' ∨ c = '\r') ∧
      (raw ∈ Text.lines raw ∧ '\n' ∉ body raw ∧ Unframed (body raw)) ∧
      ofRaw (stamped stamp content ++ ending) = ⟨none, stamp, content⟩ ∧
      ofRaw (tagged ['!', '!'] stamp content ++ ending) =
        ⟨some (Tag.ofToken ['!', '!']), stamp, content⟩ ∧
      (ofRaw raw).written = body raw ∧ ofRaw raw = ⟨none, [], body raw⟩ := by
  intro stamp content ending raw
  have hStamp : IsStamp stamp := isTimestamp_iff.mp (by decide)
  have hToken : IsToken ['!', '!'] := ⟨'!', '!', rfl, by simp⟩
  have hContent : '\n' ∉ content := by decide
  have hLast : content.getLast? ≠ some '\r' := by decide
  have hEnding : ∀ c ∈ ending, c = '\n' ∨ c = '\r' := by simp [ending]
  have hLine : raw ∈ Text.lines raw := by decide
  obtain ⟨-, hLines, hBodies, hFrames⟩ := framing_exact
  have hBody : '\n' ∉ body raw := hLines raw raw hLine
  have hUnframed : Unframed (body raw) := unframed_of_none hBody (by decide) (by decide)
  obtain ⟨hWritten, hBare⟩ := hBodies raw hBody
  obtain ⟨hStamped, hTagged⟩ := hFrames stamp content ending hStamp hContent hLast hEnding
  exact ⟨⟨hStamp, hToken, hContent, hLast, hEnding⟩, ⟨hLine, hBody, hUnframed⟩, hStamped,
    hTagged _ hToken, hWritten, hBare hUnframed⟩

end BuildLog.Framed
