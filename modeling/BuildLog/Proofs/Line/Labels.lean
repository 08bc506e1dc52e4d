import BuildLog.Line
import BuildLog.Proofs.Line.Framing

/-!
# Labels are recognised exactly

The lines that announce a task, and those that say how a task or a job went, begin with a label: any
blanks, and one of two wordings for either kind of line. `Cut` says where such a label ends. There is
at most one such place, rendering finds it whenever there is one, and every other text is rendered
as if it had no tag.

* `Words.eq_of_isPrefix`: no wording of a label begins another one.
* `Cut.unique`: a text is cut behind a label in at most one way.
* `labelled?_eq_some_iff`: the cut that is found is the one there is.
* `labels_recognised`: what is rendered of any text, for every code.
-/

namespace BuildLog.Content

/-- The codes of the lines that announce a task. -/
def announcing : List Code := [.taskStart, .cancelTaskStart]

/-- The codes of the lines that say how a task or a job went. -/
def concluding : List Code :=
  [.pass, .fail, .cancelTaskPass, .cancelTaskFail, .jobPass, .jobFail]

/-- The wordings of the labels of a line with a code. -/
inductive Words (code : Code) : Text → Prop
  | task (h : code ∈ announcing) : Words code "[go] Task: ".toList
  | onCancel (h : code ∈ announcing) : Words code "[go] On Cancel Task: ".toList
  | taskStatus (h : code ∈ concluding) : Words code "[go] Task status: ".toList
  | jobStatus (h : code ∈ concluding) : Words code "[go] Current job status: ".toList

/-- A text is cut behind the label of a line with a code. -/
structure Cut (code : Code) (s label value : Text) : Prop where
  whole : s = label ++ value
  worded : ∃ blanks words, label = blanks ++ words ∧ (∀ c ∈ blanks, Text.isBlank c = true) ∧
    Words code words

/-! ## Wordings -/

/-- The labels looked for behind a code are its wordings. -/
theorem mem_labels_iff {code : Code} {words : Text} : words ∈ labels code ↔ Words code words := by
  constructor
  · intro h
    cases code with
    | taskStart | cancelTaskStart =>
      simp only [labels, taskLabels, List.mem_cons, List.not_mem_nil, or_false] at h
      rcases h with rfl | rfl
      · exact .task (by decide)
      · exact .onCancel (by decide)
    | pass | fail | cancelTaskPass | cancelTaskFail | jobPass | jobFail =>
      simp only [labels, statusLabels, List.mem_cons, List.not_mem_nil, or_false] at h
      rcases h with rfl | rfl
      · exact .taskStatus (by decide)
      · exact .jobStatus (by decide)
    | info | alert | prep | prepErr | out | err => simp [labels] at h
  · have hAnnouncing (h : code ∈ announcing) : labels code = taskLabels := by
      simp only [announcing, List.mem_cons, List.not_mem_nil, or_false] at h
      rcases h with rfl | rfl <;> rfl
    have hConcluding (h : code ∈ concluding) : labels code = statusLabels := by
      simp only [concluding, List.mem_cons, List.not_mem_nil, or_false] at h
      rcases h with rfl | rfl | rfl | rfl | rfl | rfl <;> rfl
    intro h
    cases h with
    | task h | onCancel h =>
      rw [hAnnouncing h]
      decide
    | taskStatus h | jobStatus h =>
      rw [hConcluding h]
      decide

theorem Words.not_isBlank_head {code : Code} {words : Text} (h : Words code words) :
    ∃ c later, words = c :: later ∧ Text.isBlank c = false := by
  cases h with
  | task | onCancel | taskStatus | jobStatus => exact ⟨_, _, rfl, by decide⟩

/-- No wording begins another one, of whatever code. -/
theorem Words.eq_of_isPrefix {code code' : Code} {words words' : Text} (h : Words code words)
    (h' : Words code' words') (hPrefix : words <+: words') : words = words' := by
  cases h with
  | task | onCancel | taskStatus | jobStatus =>
    cases h' with
    | task | onCancel | taskStatus | jobStatus =>
      revert hPrefix
      decide

/-! ## Cuts -/

namespace Cut

variable {code code' : Code} {s label label' value value' : Text}

/-- The blanks of a label are all that its text begins with. -/
theorem exists_words (h : Cut code s label value) :
    ∃ words, Words code words ∧ label = s.takeWhile Text.isBlank ++ words ∧
      s.dropWhile Text.isBlank = words ++ value := by
  obtain ⟨rfl, blanks, words, rfl, hBlanks, hWords⟩ := h
  obtain ⟨c, later, rfl, hHead⟩ := hWords.not_isBlank_head
  refine ⟨_, hWords, ?_, ?_⟩
  · rw [List.append_assoc, List.takeWhile_append_of_pos hBlanks]
    simp [hHead]
  · rw [List.append_assoc, List.dropWhile_append_of_pos hBlanks]
    simp [hHead]

/-- A text is cut behind a label in at most one way, even by different codes. -/
theorem unique (h : Cut code s label value) (h' : Cut code' s label' value') :
    label = label' ∧ value = value' := by
  obtain ⟨words, hWords, rfl, hRest⟩ := h.exists_words
  obtain ⟨words', hWords', rfl, hRest'⟩ := h'.exists_words
  have hSame : words ++ value = words' ++ value' := hRest.symm.trans hRest'
  have hEq : words = words' := by
    obtain hPrefix | hPrefix := List.prefix_or_prefix_of_prefix (List.prefix_append words value)
      (hSame ▸ List.prefix_append words' value')
    · exact hWords.eq_of_isPrefix hWords' hPrefix
    · exact (hWords'.eq_of_isPrefix hWords hPrefix).symm
  subst hEq
  exact ⟨rfl, List.append_cancel_left hSame⟩

theorem of_labelled? (hs : '\n' ∉ s) (h : labelled? (labels code) s = some (label, value)) :
    Cut code s label value := by
  obtain ⟨words, hWords, hFound⟩ := List.exists_of_findSome?_eq_some h
  obtain ⟨rest, hRest, hPair⟩ := Option.map_eq_some_iff.mp hFound
  rw [Text.after?_eq_some_iff] at hRest
  obtain ⟨rfl, rfl⟩ := Prod.mk.inj hPair
  have hWhole : s = s.takeWhile Text.isBlank ++ words ++ rest := by
    rw [List.append_assoc, ← hRest, List.takeWhile_append_dropWhile]
  have hFeed : '\n' ∉ rest := fun hMem => hs (hWhole ▸ List.mem_append_right _ hMem)
  rw [Framed.firstLine_of_notMem hFeed]
  exact ⟨hWhole, _, words, rfl, fun c hc => List.mem_takeWhile_imp hc, mem_labels_iff.mp hWords⟩

theorem labelled?_isSome (h : Cut code s label value) :
    (labelled? (labels code) s).isSome = true := by
  obtain ⟨words, hWords, -, hRest⟩ := h.exists_words
  rw [labelled?, List.isSome_findSome?, List.any_eq_true]
  refine ⟨words, mem_labels_iff.mpr hWords, ?_⟩
  rw [Text.after?_eq_some_iff.mpr hRest]
  rfl

end Cut

theorem labelled?_eq_some_iff {code : Code} {s label value : Text} (hs : '\n' ∉ s) :
    labelled? (labels code) s = some (label, value) ↔ Cut code s label value := by
  refine ⟨Cut.of_labelled? hs, fun h => ?_⟩
  obtain ⟨⟨label', value'⟩, hFound⟩ := Option.isSome_iff_exists.mp h.labelled?_isSome
  obtain ⟨rfl, rfl⟩ := h.unique (Cut.of_labelled? hs hFound)
  exact hFound

theorem labelled?_eq_none_iff {code : Code} {s : Text} (hs : '\n' ∉ s) :
    labelled? (labels code) s = none ↔ ∀ label value, ¬ Cut code s label value := by
  rw [Option.eq_none_iff_forall_ne_some, Prod.forall]
  simp only [ne_eq, labelled?_eq_some_iff hs]

/-! ## What is rendered -/

/-- A text that is cut shows its label and its value. -/
theorem render_of_cut {code : Code} {s label value : Text} (hs : '\n' ∉ s)
    (h : Cut code s label value) :
    render (some code) s = ⟨[.text ⟨label, {}⟩, .value value]⟩ := by
  simp [render, (labelled?_eq_some_iff hs).mpr h]

theorem plain_render_of_cut {code : Code} {s label value : Text} (hs : '\n' ∉ s)
    (h : Cut code s label value) : (render (some code) s).plain = s := by
  rw [render_of_cut hs h, h.whole]
  simp [plain, Segment.plain]

/-- A text that is not cut is shown as styled text. -/
theorem render_of_not_cut {code : Option Code} {s : Text} (hs : '\n' ∉ s)
    (h : ∀ c ∈ code, ∀ label value, ¬ Cut c s label value) : render code s = ofText s := by
  cases code with
  | none => rfl
  | some c => exact render_of_labelled?_eq_none ((labelled?_eq_none_iff hs).mpr (h c rfl))

theorem ofText_of_allBlank {s : Text} (h : ∀ c ∈ s, Text.isBlank c = true) : ofText s = empty :=
  if_pos (List.all_eq_true.mpr h)

theorem ofText_of_not_allBlank {s : Text} (h : ∃ c ∈ s, Text.isBlank c = false) :
    ofText s = ⟨(Escape.decode s).map .text⟩ := by
  refine if_neg fun hAll => ?_
  obtain ⟨c, hc, hVisible⟩ := h
  rw [List.all_eq_true.mp hAll c hc] at hVisible
  exact Bool.noConfusion hVisible

theorem ofText_eq_empty_iff {s : Text} : ofText s = empty ↔ ∀ c ∈ s, Text.isBlank c = true := by
  refine ⟨fun h => ?_, ofText_of_allBlank⟩
  by_contra hSome
  have hVisible : ∃ c ∈ s, Text.isBlank c = false := by simpa using hSome
  rw [ofText_of_not_allBlank hVisible, empty, mk.injEq] at h
  cases hRuns : Escape.decode s with
  | nil => simp [hRuns] at h
  | cons => simp [hRuns] at h

theorem content_ofFramed (ordinal : Nat) (role : Role) (framed : Framed) :
    (Line.ofFramed ordinal role framed).content =
      render (framed.tag.bind Tag.code?) framed.content := by
  unfold Line.ofFramed
  cases framed.tag <;> rfl

/-- **Labels are recognised exactly.** A text without a line feed that is cut behind a label of its
code is rendered as the unstyled label and the value behind it, and the text is cut in no other way.
A text that is not, or whose tag is absent or has no code, is rendered as if it had no tag: as the
mark of an empty line if it is all blank, and otherwise as styled text alone. It makes no difference
which part a line plays in its section. -/
theorem labels_recognised (s : Text) (hs : '\n' ∉ s) :
    (∀ ordinal role timestamp tag,
      (Line.ofFramed ordinal role ⟨tag, timestamp, s⟩).content = render (tag.bind Tag.code?) s) ∧
    (∀ code label value, Cut code s label value →
      render (some code) s = ⟨[.text ⟨label, {}⟩, .value value]⟩ ∧
      (render (some code) s).value? = some value ∧ (render (some code) s).plain = s ∧
      ∀ label' value', Cut code s label' value' → label' = label ∧ value' = value) ∧
    (∀ code : Option Code, (∀ c ∈ code, ∀ label value, ¬ Cut c s label value) →
      render code s = ofText s) ∧
    (ofText s = ⟨[.lineBreak]⟩ ↔ ∀ c ∈ s, Text.isBlank c = true) ∧
    ((∃ c ∈ s, Text.isBlank c = false) →
      ∀ segment ∈ (ofText s).segments, ∃ run, segment = .text run) := by
  refine ⟨fun ordinal role timestamp tag => content_ofFramed ordinal role ⟨tag, timestamp, s⟩, ?_,
    fun code => render_of_not_cut hs, ofText_eq_empty_iff, ?_⟩
  · intro code label value hCut
    have hRender := render_of_cut hs hCut
    refine ⟨hRender, ?_, plain_render_of_cut hs hCut, fun label' value' hCut' => hCut'.unique hCut⟩
    rw [hRender]
    rfl
  · intro hVisible segment hMem
    rw [ofText_of_not_allBlank hVisible] at hMem
    obtain ⟨run, -, rfl⟩ := List.mem_map.mp hMem
    exact ⟨run, rfl⟩

/-- A label behind a tab, an em space and nothing else, with a second label in its value; the same
text under a code of the other kind of line; and a text of blanks. -/
theorem labels_recognised_of_three_texts :
    let blanks : Text := "\t\u2003".toList
    let label : Text := blanks ++ "[go] On Cancel Task: ".toList
    let value : Text := "[go] Task: make".toList
    let s : Text := label ++ value
    ('\n' ∉ s ∧ Cut .cancelTaskStart s label value ∧ ∃ c ∈ s, Text.isBlank c = false) ∧
      ('\n' ∉ blanks ∧ ∀ c ∈ blanks, Text.isBlank c = true) ∧
      (∀ label value, ¬ Cut .pass s label value) ∧
      (render (some .cancelTaskStart) s).value? = some value ∧
      render (some .pass) s = ofText s ∧
      (∀ segment ∈ (ofText s).segments, ∃ run, segment = .text run) ∧
      ofText blanks = ⟨[.lineBreak]⟩ := by
  intro blanks label value s
  have hs : '\n' ∉ s := by decide
  have hBlanks : '\n' ∉ blanks := by decide
  have hAll : ∀ c ∈ blanks, Text.isBlank c = true := List.all_eq_true.mp (by decide)
  have hCut : Cut .cancelTaskStart s label value :=
    ⟨rfl, blanks, _, rfl, hAll, .onCancel (by decide)⟩
  have hNone : ∀ label value, ¬ Cut .pass s label value :=
    (labelled?_eq_none_iff hs).mp (by decide)
  have hVisible : ∃ c ∈ s, Text.isBlank c = false := ⟨'[', by decide, by decide⟩
  obtain ⟨-, hLabelled, hOther, -, hStyled⟩ := labels_recognised s hs
  obtain ⟨-, -, -, hEmpty, -⟩ := labels_recognised blanks hBlanks
  have hValue := (hLabelled _ _ _ hCut).2.1
  have hPlain := hOther (some .pass) fun c hc => Option.some.inj hc ▸ hNone
  have hRuns := hStyled hVisible
  have hMark := hEmpty.mpr hAll
  exact ⟨⟨hs, hCut, hVisible⟩, ⟨hBlanks, hAll⟩, hNone, hValue, hPlain, hRuns, hMark⟩

end BuildLog.Content
