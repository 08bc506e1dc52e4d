import BuildLog.Style.Graphics
import Mathlib.Data.List.Forall2
import Mathlib.Tactic.SplitIfs

/-!
# Lists of graphic parameters

A scan of codes stands at one place after the other, and the operands of an extended colour move it
on by more than one place: `Scans`. It never stands behind the end, and what follows a list is
scanned as if it stood alone, unless an extended colour at the end of the list could take it in.

* `Scans.result`: at whatever place a scan stands, the rest of it leads to the whole result.
* `applyCodes_append`: lists act one after the other if no colour breaks off in the first one.
* `apply_composes`: the same of parameter texts, and when basic colours are bright.
-/

namespace BuildLog

namespace Text

theorem splitWhere_append {sep : Char → Bool} {c : Char} (hc : sep c = true) (s t : Text) :
    splitWhere sep (s ++ c :: t) = splitWhere sep s ++ splitWhere sep t := by
  induction s with
  | nil => exact splitWhere_cons_of_pos t hc
  | cons a s ih =>
    by_cases ha : sep a
    · rw [List.cons_append, splitWhere_cons_of_pos _ ha, splitWhere_cons_of_pos _ ha, ih]
      rfl
    · cases hPieces : splitWhere sep s with
      | nil => exact absurd hPieces (splitWhere_ne_nil sep s)
      | cons piece pieces =>
        rw [hPieces] at ih
        simp only [splitWhere] at ih hPieces ⊢
        simp [ha, ih, hPieces]

/-- Only where a text is cut counts, not by which separators. -/
theorem splitWhere_congr {sep : Char → Bool} {s t : Text}
    (h : List.Forall₂ (fun a b => a = b ∨ (sep a = true ∧ sep b = true)) s t) :
    splitWhere sep s = splitWhere sep t := by
  induction h with
  | nil => rfl
  | @cons a b s t hab _ ih =>
    rcases hab with rfl | ⟨ha, hb⟩
    · simp only [splitWhere] at ih ⊢
      simp [ih]
    · rw [splitWhere_cons_of_pos s ha, splitWhere_cons_of_pos t hb, ih]

end Text

namespace Graphics

theorem codes_append (p q : Text) : codes (p ++ ';' :: q) = codes p ++ codes q := by
  rw [codes, Text.splitWhere_append (by decide), List.map_append, codes, codes]

/-- The two texts differ in their separators alone. -/
def SameSeparated (p q : Text) : Prop := List.Forall₂ (fun a b => a = b ∨ (a = ';' ∧ b = ':')) p q

/-- Which of the separators is used makes no difference. -/
theorem SameSeparated.codes_eq {p q : Text} (h : SameSeparated p q) : codes p = codes q := by
  have hPieces : Text.splitWhere (fun c => c == ';' || c == ':') p =
      Text.splitWhere (fun c => c == ';' || c == ':') q := by
    refine Text.splitWhere_congr (h.imp ?_)
    rintro a b (rfl | ⟨rfl, rfl⟩)
    · exact .inl rfl
    · exact .inr ⟨by decide, by decide⟩
  rw [codes, codes, hPieces]

/-! ## The scan -/

/-- Where a scan of codes stands, and the state that the codes before have led to. A code that is
read there is an instruction; behind the last code the scan is over. -/
inductive Scans (g : Graphics) (cs : List Nat) : Nat → Graphics → Prop
  | start : Scans g cs 0 g
  | select {i code : Nat} {s : Graphics} (h : Scans g cs i s) (hCode : cs[i]? = some code)
      (hLayer : Layer.ofCode? code = none) : Scans g cs (i + 1) (s.select code)
  | paint {i code : Nat} {s : Graphics} {layer : Layer} (h : Scans g cs i s)
      (hCode : cs[i]? = some code) (hLayer : Layer.ofCode? code = some layer) :
      Scans g cs (i + 1 + (Extended.read (cs.drop (i + 1))).used)
        (s.paint layer (Extended.read (cs.drop (i + 1))).color)

theorem Extended.read_other {selector : Nat} (hParts : selector ≠ 2) (hIndex : selector ≠ 5)
    (rest : List Nat) : Extended.read (selector :: rest) = ⟨none, 0⟩ := by
  unfold Extended.read
  split <;> simp_all

/-- Operands without a colour leave every layer as it is. -/
theorem paint_none (g : Graphics) (layer : Layer) : g.paint layer none = g := by
  cases layer <;> rfl

namespace Scans

variable {g s : Graphics} {cs : List Nat} {i : Nat}

theorem le_length (h : Scans g cs i s) : i ≤ cs.length := by
  cases h with
  | start => exact Nat.zero_le _
  | select _ hCode => exact (List.getElem?_eq_some_iff.1 hCode).1
  | @paint i _ _ _ _ hCode =>
    have hPlace : i < cs.length := (List.getElem?_eq_some_iff.1 hCode).1
    have hUsed := Extended.read_used_le (cs.drop (i + 1))
    rw [List.length_drop] at hUsed
    omega

/-- Behind `38` or `48` and a whole group the scan stands behind the group, with the colour of the
group chosen; a selector that makes no group is left for the scan. -/
theorem behind_group {code : Nat} {layer : Layer} (h : Scans g cs i s)
    (hCode : cs[i]? = some code)
    (hKind : code = 38 ∧ layer = .foreground ∨ code = 48 ∧ layer = .background) :
    (∀ n rest, cs.drop (i + 1) = 5 :: n :: rest →
      Scans g cs (i + 3) (s.paint layer ((byte? n).map .indexed))) ∧
    (∀ r gr b rest, cs.drop (i + 1) = 2 :: r :: gr :: b :: rest →
      Scans g cs (i + 5) (s.paint layer (mixture? r gr b))) ∧
    ∀ selector rest, cs.drop (i + 1) = selector :: rest → selector ≠ 2 → selector ≠ 5 →
      Scans g cs (i + 1) s := by
  have hLayer : Layer.ofCode? code = some layer := by
    rcases hKind with ⟨rfl, rfl⟩ | ⟨rfl, rfl⟩ <;> rfl
  have hPaint := h.paint hCode hLayer
  refine ⟨fun n rest hGroup => ?_, fun r gr b rest hGroup => ?_,
    fun selector rest hGroup hParts hIndex => ?_⟩
  · rwa [hGroup] at hPaint
  · rwa [hGroup] at hPaint
  · rwa [hGroup, Extended.read_other hParts hIndex, paint_none] at hPaint

theorem drop_eq {code : Nat} (hCode : cs[i]? = some code) :
    cs.drop i = code :: cs.drop (i + 1) := by
  obtain ⟨hPlace, rfl⟩ := List.getElem?_eq_some_iff.1 hCode
  exact List.drop_eq_getElem_cons hPlace

theorem result (h : Scans g cs i s) : s.applyCodes (cs.drop i) = g.applyCodes cs := by
  induction h with
  | start => rfl
  | select _ hCode hLayer ih => rw [← ih, drop_eq hCode, applyCodes_cons_of_none hLayer]
  | paint _ hCode hLayer ih =>
    rw [← ih, drop_eq hCode, applyCodes_cons_of_some hLayer, List.drop_drop]

/-- A scan goes on from whatever place it stands at, and ends right behind the last code. -/
theorem complete (h : Scans g cs i s) : Scans g cs cs.length (g.applyCodes cs) := by
  induction hLeft : cs.length - i using Nat.strongRecOn generalizing i s with
  | ind left ih =>
    rcases Nat.lt_or_ge i cs.length with hPlace | hEnd
    · have hCode : cs[i]? = some cs[i] := List.getElem?_eq_getElem hPlace
      cases hLayer : Layer.ofCode? cs[i] with
      | none => exact ih _ (by omega) (h.select hCode hLayer) rfl
      | some layer => exact ih _ (by omega) (h.paint hCode hLayer) rfl
    · obtain rfl : i = cs.length := Nat.le_antisymm h.le_length hEnd
      have hResult := h.result
      rw [List.drop_length, applyCodes_nil] at hResult
      exact hResult ▸ h

theorem eq_result (h : Scans g cs cs.length s) : s = g.applyCodes cs := by
  simpa using h.result

end Scans

/-! ## Lists behind each other -/

/-- Operands that do not break off: they hold a whole group, or make none from the start. -/
inductive Complete : List Nat → Prop
  | index (n : Nat) (rest : List Nat) : Complete (5 :: n :: rest)
  | parts (r g b : Nat) (rest : List Nat) : Complete (2 :: r :: g :: b :: rest)
  | other {selector : Nat} (hParts : selector ≠ 2) (hIndex : selector ≠ 5) (rest : List Nat) :
      Complete (selector :: rest)

theorem Complete.read_append {operands : List Nat} (h : Complete operands) (more : List Nat) :
    Extended.read (operands ++ more) = Extended.read operands := by
  cases h with
  | index => rfl
  | parts => rfl
  | other hParts hIndex rest =>
    rw [List.cons_append, Extended.read_other hParts hIndex, Extended.read_other hParts hIndex]

/-- No extended colour that is read in the codes breaks off. -/
def Unbroken (g : Graphics) (cs : List Nat) : Prop :=
  ∀ i s code, Scans g cs i s → cs[i]? = some code → code = 38 ∨ code = 48 →
    Complete (cs.drop (i + 1))

theorem Layer.code_of_some {code : Nat} {layer : Layer} (h : Layer.ofCode? code = some layer) :
    code = 38 ∨ code = 48 := by
  unfold Layer.ofCode? at h
  split at h
  · next hCode => exact .inl hCode
  · split at h
    · next hCode => exact .inr hCode
    · cases h

section Append

variable {g s : Graphics} {cs : List Nat} {i : Nat}

/-- Codes that break no colour off are read the same with others behind them. -/
theorem Scans.append (hWhole : Unbroken g cs) (more : List Nat) (h : Scans g cs i s) :
    Scans g (cs ++ more) i s := by
  have hKeep {i code : Nat} (hCode : cs[i]? = some code) : (cs ++ more)[i]? = some code :=
    (List.getElem?_append_left (List.getElem?_eq_some_iff.1 hCode).1).trans hCode
  induction h with
  | start => exact .start
  | select _ hCode hLayer ih => exact ih.select (hKeep hCode) hLayer
  | @paint i code s layer hScan hCode hLayer ih =>
    have hPlace : i < cs.length := (List.getElem?_eq_some_iff.1 hCode).1
    have hComplete := hWhole i s code hScan hCode (Layer.code_of_some hLayer)
    have hPaint := ih.paint (hKeep hCode) hLayer
    rwa [List.drop_append_of_le_length (by omega), hComplete.read_append] at hPaint

/-- Codes that break no colour off can be applied on their own. -/
theorem applyCodes_append (hWhole : Unbroken g cs) (more : List Nat) :
    g.applyCodes (cs ++ more) = (g.applyCodes cs).applyCodes more := by
  have hEnd : Scans g cs cs.length (g.applyCodes cs) := Scans.start.complete
  rw [← (hEnd.append hWhole more).result, List.drop_left]

end Append

/-! ## Bold and bright -/

/-- Bright colours are chosen exactly while bold is in force. -/
def Matched (g : Graphics) : Prop := g.bright = g.modifiers.bold

theorem matched_default : Matched {} := rfl

theorem Matched.select {g : Graphics} (h : g.Matched) (code : Nat) : (g.select code).Matched := by
  unfold Graphics.select
  split <;> try first | rfl | exact h
  -- What is left are the codes of the basic colours.
  split_ifs <;> exact h

theorem Matched.paint {g : Graphics} (h : g.Matched) (layer : Layer) (color : Option Color) :
    (g.paint layer color).Matched := by
  cases layer <;> exact h

/-- Wherever a scan stands, bold and bright still match. -/
theorem Scans.matched {g s : Graphics} {cs : List Nat} {i : Nat} (h : Scans g cs i s)
    (hStart : g.Matched) : s.Matched := by
  induction h with
  | start => exact hStart
  | select _ _ _ ih => exact ih.select _
  | paint _ _ _ ih => exact ih.paint _ _

theorem matched_foldl {g : Graphics} (h : g.Matched) (earlier : List Text) :
    (earlier.foldl apply g).Matched := by
  induction earlier generalizing g with
  | nil => exact h
  | cons p earlier ih => exact ih (Scans.start.complete.matched h)

theorem select_foreground (g : Graphics) {code : Nat} (hLow : 30 ≤ code) (hHigh : code ≤ 37) :
    (g.select code).fg = some (.basic (hue (code - 30)) g.bright) := by
  unfold select
  split <;> try omega
  rw [if_pos ⟨hLow, hHigh⟩]

/-- **Lists of parameters act one after the other**, unless an extended colour breaks off at the end
of the first one; and a colon separates as well as a semicolon. Every scan stays inside its list and
ends behind it, with the result. Of an extended colour it takes the whole group, `5` and an index or
`2` and three parts, and goes on behind it. In whatever state a scan stands, after any earlier lists,
the codes of the basic colours choose the bright variant exactly if bold is in force. -/
theorem apply_composes :
    (∀ (g : Graphics) (p q : Text), Unbroken g (codes p) →
      g.apply (p ++ ';' :: q) = (g.apply p).apply q) ∧
    (∀ (g : Graphics) (p q : Text), SameSeparated p q → g.apply p = g.apply q) ∧
    (∀ (g : Graphics) (p : Text), (∀ i s, Scans g (codes p) i s → i ≤ (codes p).length) ∧
      ∀ s, Scans g (codes p) (codes p).length s ↔ s = g.apply p) ∧
    (∀ (g : Graphics) (p : Text) i s code layer, Scans g (codes p) i s →
      (codes p)[i]? = some code →
      code = 38 ∧ layer = .foreground ∨ code = 48 ∧ layer = .background →
      (∀ n rest, (codes p).drop (i + 1) = 5 :: n :: rest →
        Scans g (codes p) (i + 3) (s.paint layer ((byte? n).map .indexed))) ∧
      (∀ r gr b rest, (codes p).drop (i + 1) = 2 :: r :: gr :: b :: rest →
        Scans g (codes p) (i + 5) (s.paint layer (mixture? r gr b))) ∧
      ∀ selector rest, (codes p).drop (i + 1) = selector :: rest → selector ≠ 2 →
        selector ≠ 5 → Scans g (codes p) (i + 1) s) ∧
    ∀ earlier : List Text,
      ((earlier.foldl apply {}).bright = true ↔ (earlier.foldl apply {}).modifiers.bold = true) ∧
      ∀ p i s code, Scans (earlier.foldl apply {}) (codes p) i s → (codes p)[i]? = some code →
        30 ≤ code → code ≤ 37 →
        Scans (earlier.foldl apply {}) (codes p) (i + 1) (s.select code) ∧
        (s.select code).fg = some (.basic (hue (code - 30)) s.modifiers.bold) := by
  refine ⟨?append, ?separators, ?inside,
    fun g p i s code layer hScan hCode hKind => hScan.behind_group hCode hKind,
    fun earlier => ?bright⟩
  case append =>
    intro g p q hWhole
    rw [apply, codes_append, applyCodes_append hWhole]
    rfl
  case separators =>
    intro g p q hSame
    rw [apply, apply, hSame.codes_eq]
  case inside =>
    intro g p
    refine ⟨fun i s hScan => hScan.le_length, fun s => ⟨Scans.eq_result, ?_⟩⟩
    rintro rfl
    exact Scans.start.complete
  case bright =>
    have hStart : (earlier.foldl apply {}).Matched := matched_foldl matched_default earlier
    refine ⟨by rw [hStart], fun p i s code hScan hCode hLow hHigh => ⟨?_, ?_⟩⟩
    · refine hScan.select hCode ?_
      rw [Layer.ofCode?, if_neg (by omega), if_neg (by omega)]
    · have hMatched : s.bright = s.modifiers.bold := hScan.matched hStart
      rw [select_foreground s hLow hHigh, hMatched]

/-- Bold, an entry of the table and a selector that makes no colour, so that the `7` acts by itself.
The scan goes on behind the entry, and the yellow behind the list is bright, also with colons
between the parameters. -/
theorem apply_composes_of_bold_yellow :
    let p : Text := "1;38;5;9;48;7".toList
    ((({} : Graphics).apply (p ++ ';' :: "33".toList)) = (apply {} p).apply "33".toList ∧
      ({} : Graphics).apply "1:38:5:9:48:7".toList = apply {} p) ∧
      (∃ s, Scans {} (codes p) 4 s ∧ s.fg = some (.indexed 9)) ∧
      ((apply {} p).select 33).fg = some (.basic .yellow true) := by
  intro p
  have hCodes : codes p = [1, 38, 5, 9, 48, 7] := by decide
  have hPlaces : ∀ i s, Scans {} (codes p) i s → i ∈ [0, 1, 4, 5, 6] := by
    intro i s hScan
    rw [hCodes] at hScan
    induction hScan with
    | start => decide
    | select _ hCode hLayer ih =>
      simp only [List.mem_cons, List.not_mem_nil, or_false] at ih
      rcases ih with rfl | rfl | rfl | rfl | rfl <;>
        cases hCode <;> cases hLayer <;> decide
    | paint _ hCode hLayer ih =>
      simp only [List.mem_cons, List.not_mem_nil, or_false] at ih
      rcases ih with rfl | rfl | rfl | rfl | rfl <;>
        cases hCode <;> cases hLayer <;> decide
  have hWhole : Unbroken {} (codes p) := by
    intro i s code hScan hCode hLayer
    have hPlace := hPlaces i s hScan
    rw [hCodes] at hCode ⊢
    simp only [List.mem_cons, List.not_mem_nil, or_false] at hPlace
    rcases hPlace with rfl | rfl | rfl | rfl | rfl <;> cases hCode
    · omega
    · exact .index 9 [48, 7]
    · exact .other (by decide) (by decide) []
    · omega
  obtain ⟨hAppend, hSeparators, -, hGroups, hBright⟩ := apply_composes
  refine ⟨⟨hAppend {} p _ hWhole, ?_⟩, ?_, ?_⟩
  · refine (hSeparators {} p _ ?_).symm
    simp [SameSeparated, p]
  · have hBold : Scans {} (codes p) 1 (({} : Graphics).select 1) :=
      .select .start (by rw [hCodes]; rfl) rfl
    obtain ⟨hIndex, -⟩ := hGroups {} p 1 _ 38 .foreground hBold (by rw [hCodes]; rfl)
      (.inl ⟨rfl, rfl⟩)
    exact ⟨_, hIndex 9 [48, 7] (by rw [hCodes]; rfl), rfl⟩
  · obtain ⟨-, hColours⟩ := hBright [p]
    have hBold : (apply {} p).modifiers.bold = true := by
      rw [apply, hCodes]
      simp [applyCodes, Layer.ofCode?, Extended.read, paint, select, modify]
    have hYellow := (hColours "33".toList 0 _ 33 .start (by decide) (by decide) (by decide)).2
    rw [List.foldl_cons, List.foldl_nil, hBold] at hYellow
    exact hYellow

end Graphics

end BuildLog
