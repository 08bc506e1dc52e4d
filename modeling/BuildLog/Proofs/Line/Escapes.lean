import BuildLog.Proofs.Line.Labels
import BuildLog.Proofs.Style.Canonical

/-!
# Escape sequences in rendered lines

A text that is rendered as styled text has lost its escape sequences: its segments read as the
visible characters of the text. A value behind a label is not decoded, so the sequences in it are
still there when the line is displayed.

* `clean_iff`: a content is free of escape characters if the text it reads as is.
* `plain_ofText`: styled text reads as the visible characters.
* `leak_iff`: escape sequences are displayed if they stand behind a label, and only then.
* `escape_in_value`: the value of a task line that is displayed with its escape sequences.
-/

namespace BuildLog

namespace Escape

theorem plain_eq_self_iff {s : Text} : plain s = s ↔ esc ∉ s :=
  ⟨fun h => h ▸ notMem_plain s, plain_of_notMem⟩

end Escape

namespace Content

/-- No segment holds an escape character. -/
def Clean (content : Content) : Prop :=
  ∀ segment ∈ content.segments, Escape.esc ∉ segment.plain

/-- A text is cut behind a label, and there are escape characters in the value. -/
def Leaks (code : Option Code) (s : Text) : Prop :=
  ∃ c ∈ code, ∃ label value, Cut c s label value ∧ Escape.esc ∈ value

theorem clean_iff {content : Content} : Clean content ↔ Escape.esc ∉ content.plain := by
  simp [Clean, plain]

/-! ## Styled text -/

theorem plain_ofText {s : Text} (h : ∃ c ∈ s, Text.isBlank c = false) :
    (ofText s).plain = Escape.plain s := by
  rw [ofText_of_not_allBlank h, plain, Escape.plain, List.flatMap_map]
  rfl

theorem clean_ofText {s : Text} (h : ∃ c ∈ s, Text.isBlank c = false) : Clean (ofText s) := by
  rw [clean_iff, plain_ofText h]
  exact Escape.notMem_plain s

/-! ## Labelled values -/

theorem Words.esc_notMem {code : Code} {words : Text} (h : Words code words) :
    Escape.esc ∉ words := by
  cases h <;> decide

/-- Escape characters are never part of a label. -/
theorem Cut.esc_mem_iff {code : Code} {s label value : Text} (h : Cut code s label value) :
    Escape.esc ∈ s ↔ Escape.esc ∈ value := by
  obtain ⟨rfl, blanks, words, rfl, hBlanks, hWords⟩ := h
  have hNotBlank : Text.isBlank Escape.esc = false := by decide
  have hBare : Escape.esc ∉ blanks := by
    intro hMem
    rw [hBlanks _ hMem] at hNotBlank
    exact Bool.noConfusion hNotBlank
  simp [hBare, hWords.esc_notMem]

/-- A text that is cut shows all escape characters there are in it. -/
theorem Cut.leaks_iff {code : Code} {s label value : Text} (h : Cut code s label value) :
    Leaks (some code) s ↔ Escape.esc ∈ s := by
  constructor
  · rintro ⟨c, -, label', value', hCut, hEsc⟩
    exact hCut.esc_mem_iff.mpr hEsc
  · intro hEsc
    exact ⟨code, rfl, label, value, h, h.esc_mem_iff.mp hEsc⟩

/-- What a text with a code reads as: the text as it stands if it is cut behind a label, and
otherwise its visible characters. -/
theorem plain_render_cases {s : Text} (hs : '\n' ∉ s) (hVisible : ∃ c ∈ s, Text.isBlank c = false)
    (code : Option Code) :
    ((render code s).plain = s ∧ (Leaks code s ↔ Escape.esc ∈ s)) ∨
      ((render code s).plain = Escape.plain s ∧ ¬ Leaks code s) := by
  by_cases hCut : ∃ c ∈ code, ∃ label value, Cut c s label value
  · obtain ⟨c, hc, label, value, hCut⟩ := hCut
    obtain rfl := Option.mem_def.mp hc
    exact .inl ⟨plain_render_of_cut hs hCut, hCut.leaks_iff⟩
  · refine .inr ⟨?_, ?_⟩
    · rw [render_of_not_cut hs fun c hc label value h => hCut ⟨c, hc, label, value, h⟩]
      exact plain_ofText hVisible
    · rintro ⟨c, hc, label, value, h, -⟩
      exact hCut ⟨c, hc, label, value, h⟩

/-- **Escape sequences are displayed exactly if they stand behind a label.** Rendered without its
tag, a text with visible characters shows no escape character and reads as its visible characters.
With a tag, whichever part its line plays in its section, the same holds if the text is not cut
behind a label of its code, or has no escape character in the value; otherwise the value is shown
with its escape sequences. -/
theorem leak_iff (s : Text) (hs : '\n' ∉ s) (hVisible : ∃ c ∈ s, Text.isBlank c = false) :
    (Clean (ofText s) ∧ (ofText s).plain = Escape.plain s) ∧
    (∀ code : Option Code, (Clean (render code s) ↔ ¬ Leaks code s) ∧
      ((render code s).plain = Escape.plain s ↔ ¬ Leaks code s) ∧
      (Leaks code s → (render code s).plain = s)) ∧
    ∀ ordinal role timestamp tag,
      (Line.ofFramed ordinal role ⟨tag, timestamp, s⟩).content =
        render (tag.bind Tag.code?) s := by
  refine ⟨⟨clean_ofText hVisible, plain_ofText hVisible⟩, fun code => ?_,
    fun ordinal role timestamp tag => content_ofFramed ordinal role ⟨tag, timestamp, s⟩⟩
  rw [clean_iff]
  obtain ⟨hPlain, hLeaks⟩ | ⟨hPlain, hNot⟩ := plain_render_cases hs hVisible code
  · rw [hPlain, hLeaks, eq_comm, Escape.plain_eq_self_iff]
    exact ⟨Iff.rfl, Iff.rfl, fun _ => rfl⟩
  · rw [hPlain]
    exact ⟨iff_of_true (Escape.notMem_plain s) hNot, iff_of_true rfl hNot, fun h => absurd h hNot⟩

/-- The value of a task line in bold: the text reads without the sequences where the line has no
label of its code, and with them where it has. -/
theorem leak_iff_of_bold_value :
    let s : Text := "[go] Task: \x1b[1mbold\x1b[0m".toList
    ('\n' ∉ s ∧ ∃ c ∈ s, Text.isBlank c = false) ∧
      (¬ Leaks (some .pass) s ∧ Clean (render (some .pass) s) ∧
        (render (some .pass) s).plain = Escape.plain s) ∧
      Leaks (some .taskStart) s ∧ (render (some .taskStart) s).plain = s := by
  intro s
  have hs : '\n' ∉ s := by decide
  have hVisible : ∃ c ∈ s, Text.isBlank c = false := ⟨'[', by decide, by decide⟩
  have hCut : Cut .taskStart s "[go] Task: ".toList "\x1b[1mbold\x1b[0m".toList :=
    ⟨rfl, [], _, rfl, by simp, .task (by decide)⟩
  have hLeaks : Leaks (some .taskStart) s := ⟨_, rfl, _, _, hCut, by decide⟩
  have hNot : ¬ Leaks (some .pass) s := by
    rintro ⟨c, hc, label, value, hOther, -⟩
    obtain rfl := Option.some.inj hc
    exact (labelled?_eq_none_iff hs).mp (by decide) label value hOther
  obtain ⟨-, hCodes, -⟩ := leak_iff s hs hVisible
  obtain ⟨hClean, hPlain, -⟩ := hCodes (some .pass)
  exact ⟨⟨hs, hVisible⟩, ⟨hNot, hClean.mpr hNot, hPlain.mpr hNot⟩, hLeaks,
    (hCodes (some .taskStart)).2.2 hLeaks⟩

/-- Not every text with visible characters is rendered without its escape sequences: the value of
this task line is shown with them, while the text alone reads without. -/
theorem escape_in_value :
    let s : Text := "[go] Task: \x1b[1mbold\x1b[0m".toList
    ('\n' ∉ s ∧ ∃ c ∈ s, Text.isBlank c = false) ∧
      (render (some .taskStart) s).value? = some "\x1b[1mbold\x1b[0m".toList ∧
      ¬ Clean (render (some .taskStart) s) ∧
      (ofText s).plain = "[go] Task: bold".toList ∧ Escape.plain s = "[go] Task: bold".toList ∧
      (render (some .taskStart) s).plain ≠ Escape.plain s := by
  intro s
  have hVisible : ∃ c ∈ s, Text.isBlank c = false := ⟨'[', by decide, by decide⟩
  have hShown : Escape.plain s = "[go] Task: bold".toList := by
    rw [Escape.plain_decode]
    decide
  refine ⟨⟨by decide, hVisible⟩, by decide, ?_, ?_, hShown, ?_⟩
  · rw [clean_iff]
    decide
  · rw [plain_ofText hVisible, hShown]
  · rw [hShown]
    decide

end Content

end BuildLog
