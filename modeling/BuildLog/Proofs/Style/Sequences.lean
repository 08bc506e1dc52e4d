import BuildLog.Style.Escape

/-!
# Well-formed escape sequences

A text that is written as pieces, each of them visible characters or one whole escape sequence, is
decoded piece by piece. Every piece leaves the reader among visible characters, and only graphic
renditions change what later characters look like.

* `Piece`: the pieces, as they are allowed to be written.
* `Piece.read_written`: how one piece is read.
* `Piece.glyphs_decode`: the visible characters of a text, each in the style that the graphic
  renditions before it have selected.
-/

namespace BuildLog.Escape

/-- Whether a character may stand among the parameters of a control sequence. -/
def isParameter (c : Char) : Bool := '\x20' ≤ c && c ≤ '\x3f'

/-- What closes a string sequence. -/
inductive Closing where
  | bell
  | escape
  deriving DecidableEq, Repr

def Closing.written : Closing → Text
  | bell => [Escape.bell]
  | escape => [esc, '\\']

/-- A piece of a text: visible characters, or a whole escape sequence. -/
inductive Piece where
  | text (s : Text) (hVisible : esc ∉ s)
  /-- A "select graphic rendition" sequence. -/
  | rendition (params : Text) (hParams : ∀ c ∈ params, isParameter c = true)
  /-- Any other control sequence. -/
  | control (params : Text) (final : Char) (hParams : ∀ c ∈ params, isParameter c = true)
    (hFinal : '\x40' ≤ final ∧ final ≤ '\x7e') (hOther : final ≠ 'm')
  | string (body : Text) (closing : Closing) (hBell : bell ∉ body)
    (hOpen : ¬ [esc, '\\'] <:+: body)
  /-- A sequence of two characters. -/
  | pair (c : Char) (hControl : c ≠ '[') (hString : c ≠ ']')

namespace Piece

/-- A piece as it is written. -/
def written : Piece → Text
  | text s _ => s
  | rendition params _ => esc :: '[' :: (params ++ ['m'])
  | control params final .. => esc :: '[' :: (params ++ [final])
  | string body closing .. => esc :: ']' :: (body ++ closing.written)
  | pair c .. => [esc, c]

/-- The visible characters of a piece. -/
def visible : Piece → Text
  | text s _ => s
  | _ => []

/-- What a piece does to the graphics state. -/
def act (g : Graphics) : Piece → Graphics
  | rendition params _ => g.apply params
  | _ => g

/-- The visible characters of pieces, each in the style of the graphics state that the pieces before
it leave. -/
def shown (g : Graphics) : List Piece → List Glyph
  | [] => []
  | piece :: later => piece.visible.map (⟨·, g.style⟩) ++ shown (piece.act g) later

end Piece

/-! ## Reading a piece -/

namespace Decoder

theorem run_append (d : Decoder) (s t : Text) : d.run (s ++ t) = (d.run s).run t := by
  simp [run]

theorem glyphs_cons_of_ne {d : Decoder} (h : d.mode ≠ .plain) (c : Char) (s : Text) :
    d.glyphs (c :: s) = (d.step c).glyphs s := by
  simp [glyphs_cons, glyph?, h]

theorem read_visible (g : Graphics) {s : Text} (h : esc ∉ s) :
    glyphs ⟨.plain, g⟩ s = s.map (⟨·, g.style⟩) ∧ run ⟨.plain, g⟩ s = ⟨.plain, g⟩ := by
  induction s with
  | nil => exact ⟨rfl, rfl⟩
  | cons c s ih =>
    rw [List.mem_cons, not_or] at h
    have hStep : step ⟨.plain, g⟩ c = ⟨.plain, g⟩ := if_neg (Ne.symm h.1)
    have hGlyph : glyph? ⟨.plain, g⟩ c = some ⟨c, g.style⟩ := if_pos ⟨rfl, Ne.symm h.1⟩
    obtain ⟨hGlyphs, hRun⟩ := ih h.2
    constructor
    · rw [glyphs_cons, hGlyph, hStep, hGlyphs]
      rfl
    · rw [run, List.foldl_cons, hStep]
      exact hRun

theorem not_isFinal_of_isParameter {c : Char} (h : isParameter c = true) : isFinal c = false := by
  have hLe : c ≤ '\x3f' := by
    simp only [isParameter, Bool.and_eq_true, decide_eq_true_eq] at h
    exact h.2
  have hNot : ¬ '\x40' ≤ c := Char.not_le.mpr (Nat.lt_of_le_of_lt hLe (by decide))
  simp [isFinal, hNot]

/-- The parameters of a control sequence, up to the character that ends it. -/
theorem read_params (g : Graphics) {params : Text} (h : ∀ c ∈ params, isParameter c = true)
    (before : Text) :
    glyphs ⟨.control before, g⟩ params = [] ∧
      run ⟨.control before, g⟩ params = ⟨.control (params.reverse ++ before), g⟩ := by
  induction params generalizing before with
  | nil => exact ⟨rfl, rfl⟩
  | cons c params ih =>
    have hFinal := not_isFinal_of_isParameter (h c List.mem_cons_self)
    have hStep : step ⟨.control before, g⟩ c = ⟨.control (c :: before), g⟩ := by
      simp [step, hFinal]
    obtain ⟨hGlyphs, hRun⟩ := ih (fun d hd => h d (List.mem_cons_of_mem c hd)) (c :: before)
    constructor
    · rw [glyphs_cons_of_ne (d := ⟨.control before, g⟩) nofun, hStep, hGlyphs]
    · rw [run, List.foldl_cons, hStep]
      simpa [run] using hRun

/-- A control sequence as a whole: its last character decides what it does. -/
theorem read_control (g : Graphics) {params : Text} (h : ∀ c ∈ params, isParameter c = true)
    {final : Char} (hRange : '\x40' ≤ final ∧ final ≤ '\x7e') :
    glyphs ⟨.plain, g⟩ (esc :: '[' :: (params ++ [final])) = [] ∧
      run ⟨.plain, g⟩ (esc :: '[' :: (params ++ [final])) =
        ⟨.plain, if final = 'm' then g.apply params else g⟩ := by
  have hFinal : isFinal final = true := by simp [isFinal, hRange]
  have hOpened : run ⟨.plain, g⟩ [esc, '['] = ⟨.control [], g⟩ := rfl
  obtain ⟨hGlyphs, hRun⟩ := read_params g h []
  have hEnd : step ⟨.control (params.reverse ++ []), g⟩ final =
      ⟨.plain, if final = 'm' then g.apply params else g⟩ := by
    simp only [step, hFinal, if_true, List.append_nil, List.reverse_reverse]
    split <;> rfl
  have hWritten : esc :: '[' :: (params ++ [final]) = [esc, '['] ++ (params ++ [final]) := rfl
  rw [hWritten]
  constructor
  · rw [glyphs_append, hOpened, glyphs_append, hGlyphs, hRun,
      glyphs_cons_of_ne (d := ⟨.control _, g⟩) nofun]
    rfl
  · rw [run_append, hOpened, run_append, hRun]
    exact hEnd

/-- A reader in a string sequence. -/
def InString (g : Graphics) (d : Decoder) : Prop := d = ⟨.string, g⟩ ∨ d = ⟨.stringOpened, g⟩

theorem InString.mode_ne {g : Graphics} {d : Decoder} (h : InString g d) : d.mode ≠ .plain := by
  obtain rfl | rfl := h <;> simp

/-- A character that does not close a string sequence. -/
theorem InString.step {g : Graphics} {d : Decoder} (h : InString g d) {c : Char} (hBell : c ≠ bell)
    (hOpened : d.mode = .stringOpened → c ≠ '\\') :
    InString g (d.step c) ∧ ((d.step c).mode = .stringOpened → c = esc) := by
  have hMode : d.step c = ⟨stringMode c, g⟩ := by
    obtain rfl | rfl := h
    · rfl
    · exact if_neg (hOpened rfl)
  rw [hMode, stringMode, if_neg hBell]
  by_cases hEsc : c = esc
  · rw [if_pos hEsc]
    exact ⟨.inr rfl, fun _ => hEsc⟩
  · rw [if_neg hEsc]
    exact ⟨.inl rfl, nofun⟩

/-- The body of a string sequence, whose last character may seem to begin the end. -/
theorem InString.read_body {g : Graphics} {d : Decoder} (h : InString g d) {body : Text}
    (hBell : bell ∉ body) (hOpen : ¬ [esc, '\\'] <:+: body)
    (hOpened : d.mode = .stringOpened → body.head? ≠ some '\\') :
    d.glyphs body = [] ∧ InString g (d.run body) := by
  induction body generalizing d with
  | nil => exact ⟨rfl, h⟩
  | cons c body ih =>
    rw [List.mem_cons, not_or] at hBell
    rw [List.infix_cons_iff, not_or] at hOpen
    obtain ⟨hNext, hEsc⟩ := h.step (Ne.symm hBell.1) fun hMode => by simpa using hOpened hMode
    obtain ⟨hGlyphs, hRun⟩ := ih hNext hBell.2 hOpen.2 fun hMode hHead => by
      obtain ⟨rest, rfl⟩ := List.head?_eq_some_iff.mp hHead
      exact hOpen.1 ⟨rest, by rw [hEsc hMode]; rfl⟩
    rw [glyphs_cons_of_ne h.mode_ne]
    exact ⟨hGlyphs, hRun⟩

/-- A string ends at its terminator, and nothing of it shows. -/
theorem InString.read_closing {g : Graphics} {d : Decoder} (h : InString g d) (closing : Closing) :
    d.glyphs closing.written = [] ∧ d.run closing.written = ⟨.plain, g⟩ := by
  obtain rfl | rfl := h <;> cases closing <;> exact ⟨rfl, rfl⟩

/-- A whole string shows nothing and leaves the style as it was. -/
theorem read_string (g : Graphics) {body : Text} (hBell : bell ∉ body)
    (hOpen : ¬ [esc, '\\'] <:+: body) (closing : Closing) :
    glyphs ⟨.plain, g⟩ (esc :: ']' :: (body ++ closing.written)) = [] ∧
      run ⟨.plain, g⟩ (esc :: ']' :: (body ++ closing.written)) = ⟨.plain, g⟩ := by
  have hBegun : InString g (run ⟨.plain, g⟩ [esc, ']']) := .inl rfl
  obtain ⟨hBody, hInside⟩ := hBegun.read_body hBell hOpen nofun
  obtain ⟨hClosing, hClosed⟩ := hInside.read_closing closing
  have hWritten : esc :: ']' :: (body ++ closing.written) =
      [esc, ']'] ++ (body ++ closing.written) := rfl
  rw [hWritten]
  constructor
  · rw [glyphs_append, glyphs_append, hBody, hClosing]
    rfl
  · rw [run_append, run_append, hClosed]

end Decoder

namespace Piece

/-- A piece shows its visible characters, and leaves the reader among visible characters. -/
theorem read_written (g : Graphics) (piece : Piece) :
    Decoder.glyphs ⟨.plain, g⟩ piece.written = piece.visible.map (⟨·, g.style⟩) ∧
      Decoder.run ⟨.plain, g⟩ piece.written = ⟨.plain, piece.act g⟩ := by
  cases piece with
  | text s hVisible => exact Decoder.read_visible g hVisible
  | rendition params hParams => exact Decoder.read_control g hParams (by decide)
  | control params final hParams hFinal hOther =>
    obtain ⟨hGlyphs, hRun⟩ := Decoder.read_control g hParams hFinal
    rw [if_neg hOther] at hRun
    exact ⟨hGlyphs, hRun⟩
  | string body closing hBell hOpen => exact Decoder.read_string g hBell hOpen closing
  | pair c hControl hString =>
    have hStep : Decoder.step ⟨.opened, g⟩ c = ⟨.plain, g⟩ := by
      simp [Decoder.step, hControl, hString]
    constructor
    · exact Decoder.glyphs_cons_of_ne (d := ⟨.opened, g⟩) nofun c []
    · exact hStep

theorem glyphs_flatMap_written (g : Graphics) (pieces : List Piece) :
    Decoder.glyphs ⟨.plain, g⟩ (pieces.flatMap written) = shown g pieces := by
  induction pieces generalizing g with
  | nil => rfl
  | cons piece later ih =>
    obtain ⟨hGlyphs, hRun⟩ := piece.read_written g
    rw [List.flatMap_cons, Decoder.glyphs_append, hGlyphs, hRun, ih]
    rfl

/-- **Every visible character is decoded in the style in force**: the one that the graphic
renditions before it have selected, beginning with the plain style. No other sequence shows a
character or changes a style. -/
theorem glyphs_decode (pieces : List Piece) :
    (decode (pieces.flatMap written)).flatMap Run.glyphs = shown {} pieces := by
  rw [decode, Run.flatMap_glyphs_join]
  exact glyphs_flatMap_written {} pieces

/-- A word, a colour, the erasure of a line, which is a control sequence of another kind, and bold:
the character behind the erasure is red, and the last one is red and bold. -/
theorem glyphs_decode_of_erased_line :
    let erased : Text := 'a' :: esc :: "[31m".toList ++ esc :: "[2Kb".toList ++ esc :: "[1mc".toList
    (decode erased).flatMap Run.glyphs =
      [⟨'a', {}⟩, ⟨'b', { fg := some (.basic .red false) }⟩,
        ⟨'c', { fg := some (.basic .red false), modifiers := { bold := true } }⟩] := by
  intro erased
  let pieces : List Piece :=
    [.text ['a'] (by decide), .rendition ['3', '1'] (List.all_eq_true.mp (by decide)),
      .control ['2'] 'K' (List.all_eq_true.mp (by decide)) (by decide) (by decide),
      .text ['b'] (by decide), .rendition ['1'] (List.all_eq_true.mp (by decide)),
      .text ['c'] (by decide)]
  have hWritten : erased = pieces.flatMap written := rfl
  have hRed : Graphics.codes ['3', '1'] = [31] := by decide
  have hBold : Graphics.codes ['1'] = [1] := by decide
  rw [hWritten, glyphs_decode]
  simp [pieces, shown, visible, act, Graphics.apply, hRed, hBold, Graphics.applyCodes,
    Graphics.Layer.ofCode?, Graphics.select, Graphics.style, Graphics.hue]

end Piece

end BuildLog.Escape
