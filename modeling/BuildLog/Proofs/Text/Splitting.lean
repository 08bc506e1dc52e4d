import BuildLog.Proofs.Text.Lines
import Mathlib.Data.List.Chain

/-!
# The only splitting into lines

The lines of a text are pieces that make it up again, each of them some characters that are neither
a carriage return nor a line feed, and behind these one terminator. Only the last piece may go
without a terminator, and no terminator is torn in two. These conditions leave no choice.

* `splits_lines`: the lines of a text meet the conditions, by the recursion that makes them.
* `Splits.lines_eq`: pieces that meet them are the lines, since `lines_append` cuts between them.
* `lines_unique`: both together, and where a text may be cut.
-/

namespace BuildLog.Text

def terminators : List Text := [['\r', '\n'], ['\n'], ['\r']]

def EndsLine (s : Text) : Prop := ∃ e ∈ terminators, e <:+ s

/-- No character of a text belongs to a terminator. -/
def Bare (s : Text) : Prop := ∀ c ∈ s, c ≠ '\r' ∧ c ≠ '\n'

/-- A terminator is torn in two between neighbouring texts. -/
def Torn (a b : Text) : Prop := a.getLast? = some '\r' ∧ b.head? = some '\n'

/-- Some pieces are a lossless splitting of a text into lines. -/
structure Splits (pieces : List Text) (s : Text) : Prop where
  flatten_eq : pieces.flatten = s
  ne_nil : ∀ l ∈ pieces, l ≠ []
  endsLine : ∀ l ∈ pieces.dropLast, EndsLine l
  bare : ∀ l ∈ pieces, ∃ body, ∃ e ∈ [] :: terminators, l = body ++ e ∧ Bare body
  whole : pieces.IsChain fun l next => ¬ Torn l next

/-! ## Single lines -/

/-- The last character tells whether a text ends a line. -/
theorem endsLine_iff {s : Text} :
    EndsLine s ↔ s.getLast? = some '\n' ∨ s.getLast? = some '\r' := by
  constructor
  · rintro ⟨e, he, body, rfl⟩
    simp only [terminators, List.mem_cons, List.not_mem_nil, or_false] at he
    rcases he with rfl | rfl | rfl <;> simp
  · intro h
    rcases h with h | h <;> obtain ⟨body, rfl⟩ := List.getLast?_eq_some_iff.mp h
    · exact ⟨['\n'], by simp [terminators], body, rfl⟩
    · exact ⟨['\r'], by simp [terminators], body, rfl⟩

theorem Bare.cons {c : Char} {s : Text} (hReturn : c ≠ '\r') (hFeed : c ≠ '\n') (hs : Bare s) :
    Bare (c :: s) := by
  intro d hd
  rcases List.mem_cons.mp hd with rfl | hd
  · exact ⟨hReturn, hFeed⟩
  · exact hs d hd

/-- A text with at most one terminator, at its end, is a line of its own. -/
theorem lines_of_bare {body e : Text} (hBody : Bare body) (he : e ∈ [] :: terminators)
    (hNe : body ++ e ≠ []) : lines (body ++ e) = [body ++ e] := by
  induction body with
  | nil =>
    simp only [terminators, List.mem_cons, List.not_mem_nil, or_false] at he
    rcases he with rfl | rfl | rfl | rfl
    · exact absurd rfl hNe
    · rfl
    · rfl
    · rfl
  | cons c body ih =>
    obtain ⟨hReturn, hFeed⟩ := hBody c List.mem_cons_self
    have hRest : Bare body := fun d hd => hBody d (List.mem_cons_of_mem c hd)
    rw [List.cons_append, lines_cons]
    by_cases hEmpty : body ++ e = []
    · simp [hEmpty, consLine, hReturn, hFeed]
    · rw [ih hRest hEmpty]
      simp [consLine, hReturn, hFeed]

/-! ## The lines of a text are a splitting -/

theorem splits_nil : Splits [] [] := ⟨rfl, by simp, by simp, by simp, .nil⟩

namespace Splits

variable {pieces : List Text} {s : Text}

/-- One more piece in front that is a whole line. -/
theorem cons_line (h : Splits pieces s) {e : Text} (he : e ∈ terminators)
    (hWhole : ∀ next ∈ pieces.head?, ¬ Torn e next) : Splits (e :: pieces) (e ++ s) where
  flatten_eq := by rw [List.flatten_cons, h.flatten_eq]
  ne_nil := by
    intro l hl
    rcases List.mem_cons.mp hl with rfl | hl
    · simp only [terminators, List.mem_cons, List.not_mem_nil, or_false] at he
      rcases he with rfl | rfl | rfl <;> simp
    · exact h.ne_nil l hl
  endsLine := by
    intro l hl
    cases pieces with
    | nil => simp at hl
    | cons next pieces =>
      rw [List.dropLast_cons_cons] at hl
      rcases List.mem_cons.mp hl with rfl | hl
      · exact ⟨l, he, List.suffix_rfl⟩
      · exact h.endsLine l hl
  bare := by
    intro l hl
    rcases List.mem_cons.mp hl with rfl | hl
    · exact ⟨[], l, List.mem_cons_of_mem _ he, rfl, by simp [Bare]⟩
    · exact h.bare l hl
  whole := List.isChain_cons.mpr ⟨hWhole, h.whole⟩

/-- The first piece with one more character in front that is in no terminator. -/
theorem cons_char {line : Text} (h : Splits (line :: pieces) s) {c : Char} (hReturn : c ≠ '\r')
    (hFeed : c ≠ '\n') : Splits ((c :: line) :: pieces) (c :: s) where
  flatten_eq := by rw [← h.flatten_eq]; rfl
  ne_nil := by
    intro l hl
    rcases List.mem_cons.mp hl with rfl | hl
    · simp
    · exact h.ne_nil l (List.mem_cons_of_mem line hl)
  endsLine := by
    intro l hl
    cases pieces with
    | nil => simp at hl
    | cons next pieces =>
      rw [List.dropLast_cons_cons] at hl
      rcases List.mem_cons.mp hl with rfl | hl
      · obtain ⟨e, he, hSuffix⟩ := h.endsLine line (by simp)
        exact ⟨e, he, hSuffix.trans (List.suffix_cons c line)⟩
      · exact h.endsLine l (by rw [List.dropLast_cons_cons]; exact List.mem_cons_of_mem line hl)
  bare := by
    intro l hl
    rcases List.mem_cons.mp hl with rfl | hl
    · obtain ⟨body, e, he, rfl, hBody⟩ := h.bare line List.mem_cons_self
      exact ⟨c :: body, e, he, rfl, hBody.cons hReturn hFeed⟩
    · exact h.bare l (List.mem_cons_of_mem line hl)
  whole := by
    obtain ⟨hFirst, hLater⟩ := List.isChain_cons.mp h.whole
    have hNe : line ≠ [] := h.ne_nil line List.mem_cons_self
    refine List.isChain_cons.mpr ⟨?_, hLater⟩
    intro next hNext hTorn
    apply hFirst next hNext
    exact ⟨by rw [← List.getLast?_cons_of_ne_nil hNe]; exact hTorn.1, hTorn.2⟩

theorem tail {line : Text} (h : Splits (line :: pieces) s) : Splits pieces pieces.flatten where
  flatten_eq := rfl
  ne_nil := fun l hl => h.ne_nil l (List.mem_cons_of_mem line hl)
  endsLine := by
    intro l hl
    cases pieces with
    | nil => simp at hl
    | cons next pieces =>
      refine h.endsLine l ?_
      rw [List.dropLast_cons_cons]
      exact List.mem_cons_of_mem line hl
  bare := fun l hl => h.bare l (List.mem_cons_of_mem line hl)
  whole := (List.isChain_cons.mp h.whole).2

/-- A piece that starts with a line feed is nothing else. -/
theorem eq_lineFeed (h : Splits pieces s) {l : Text} (hl : l ∈ pieces)
    (hHead : l.head? = some '\n') : l = ['\n'] := by
  obtain ⟨body, e, he, rfl, hBody⟩ := h.bare l hl
  cases body with
  | nil =>
    simp only [terminators, List.mem_cons, List.not_mem_nil, or_false] at he
    rcases he with rfl | rfl | rfl | rfl <;> simp at hHead ⊢
  | cons c body =>
    obtain ⟨-, hFeed⟩ := hBody c List.mem_cons_self
    exact absurd (by simpa using hHead) hFeed

/-- A text with one more character in front is split as its lines are. -/
theorem consLine (h : Splits pieces s) (c : Char) : Splits (consLine c pieces) (c :: s) := by
  unfold Text.consLine
  split
  · next hFeed =>
    subst hFeed
    exact h.cons_line (e := ['\n']) (by simp [terminators]) (by simp [Torn])
  · next hFeed =>
    split
    · next hReturn =>
      subst hReturn
      split
      · next later =>
        -- The line feed was a piece of its own and makes one terminator with the carriage return.
        rw [← h.flatten_eq]
        exact h.tail.cons_line (e := ['\r', '\n']) (by simp [terminators]) (by simp [Torn])
      · next hOther =>
        refine h.cons_line (e := ['\r']) (by simp [terminators]) ?_
        intro next hNext hTorn
        obtain ⟨later, rfl⟩ := List.head?_eq_some_iff.mp hNext
        exact hOther later (by rw [h.eq_lineFeed List.mem_cons_self hTorn.2])
    · next hReturn =>
      split
      · have hEmpty : s = [] := h.flatten_eq.symm
        subst hEmpty
        have hBare : Bare [c] := Bare.cons hReturn hFeed (by simp [Bare])
        refine ⟨rfl, by simp, by simp, ?_, .singleton _⟩
        intro l hl
        obtain rfl := List.mem_singleton.mp hl
        exact ⟨[c], [], List.mem_cons_self, rfl, hBare⟩
      · exact h.cons_char hReturn hFeed

end Splits

theorem splits_lines (s : Text) : Splits (lines s) s := by
  induction s with
  | nil => exact splits_nil
  | cons c s ih => exact ih.consLine c

/-! ## No other pieces are -/

/-- The first piece of a splitting ends where the text may be cut. -/
theorem Splits.lines_cons {line next : Text} {pieces : List Text} {s : Text}
    (h : Splits (line :: next :: pieces) s) :
    lines s = lines line ++ lines (next :: pieces).flatten := by
  have hEnds : EndsLine line := h.endsLine line (by simp)
  have hWhole : ¬ Torn line next := (List.isChain_cons_cons.mp h.whole).1
  have hNe : next ≠ [] := h.ne_nil next (by simp)
  have hHead : (next :: pieces).flatten.head? = next.head? := by
    cases next with
    | nil => exact absurd rfl hNe
    | cons c next => rfl
  rw [← h.flatten_eq, List.flatten_cons]
  apply lines_append
  rcases endsLine_iff.mp hEnds with hFeed | hReturn
  · exact .inr (.inl hFeed)
  · refine .inr (.inr ⟨hReturn, ?_⟩)
    rw [hHead]
    exact fun hFeed => hWhole ⟨hReturn, hFeed⟩

theorem Splits.lines_eq {pieces : List Text} {s : Text} (h : Splits pieces s) :
    lines s = pieces := by
  induction pieces generalizing s with
  | nil =>
    rw [← h.flatten_eq]
    rfl
  | cons line pieces ih =>
    obtain ⟨body, e, he, hLine, hBody⟩ := h.bare line List.mem_cons_self
    have hOne : lines line = [line] := by
      rw [hLine]
      exact lines_of_bare hBody he (hLine ▸ h.ne_nil line List.mem_cons_self)
    cases pieces with
    | nil => rw [← h.flatten_eq, List.flatten_singleton, hOne]
    | cons next pieces => rw [h.lines_cons, hOne, ih h.tail, List.singleton_append]

/-- **A text has one splitting into lines**, and it is made of the lines of its parts, if no line is
torn where the text is cut. -/
theorem lines_unique :
    (∀ s pieces, Splits pieces s ↔ pieces = lines s) ∧
      ∀ a b, a = [] ∨ EndsLine a → ¬ Torn a b → lines (a ++ b) = lines a ++ lines b := by
  refine ⟨?_, ?_⟩
  · intro s pieces
    constructor
    · exact fun h => h.lines_eq.symm
    · rintro rfl
      exact splits_lines s
  · intro a b ha hWhole
    apply lines_append
    rcases ha with rfl | hEnds
    · exact .inl rfl
    · rcases endsLine_iff.mp hEnds with hFeed | hReturn
      · exact .inr (.inl hFeed)
      · exact .inr (.inr ⟨hReturn, fun hFeed => hWhole ⟨hReturn, hFeed⟩⟩)

/-- Three carriage returns and two line feeds, cut between the second and the third return. -/
theorem lines_unique_of_returns :
    let a : Text := ['a', '\r', '\n', 'b', '\r']
    let b : Text := ['\r', '\n', 'c']
    (a = [] ∨ EndsLine a) ∧ ¬ Torn a b ∧ lines (a ++ b) = lines a ++ lines b ∧
      Splits [['a', '\r', '\n'], ['b', '\r'], ['\r', '\n'], ['c']] (a ++ b) := by
  intro a b
  have hEnds : a = [] ∨ EndsLine a := .inr (endsLine_iff.mpr (by decide))
  have hWhole : ¬ Torn a b := by
    rintro ⟨-, hFeed⟩
    revert hFeed
    decide
  exact ⟨hEnds, hWhole, lines_unique.2 a b hEnds hWhole, (lines_unique.1 _ _).mpr (by decide)⟩

end BuildLog.Text
