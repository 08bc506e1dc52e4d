import BuildLog.Fetch.Request
import BuildLog.Poller
import BuildLog.Proofs.Json.Magnitude
import BuildLog.Proofs.Json.Reading

/-!
# Headers that tell the resume offset

What a header tells is said of the JSON value that it writes, however it is written. An array that
starts with a plain 64-bit number tells that number, unless some part of it cannot be held; all else
tells zero, and an answer that tells zero moves no poller.

* `Value.depth`, `Value.Held`: how deep a value is nested, and which values have only parts that can
  be held.
* `nesting_tokens`, `all_isHeld_tokens`: the two checks of the tokens are checks of the value.
* `offset_of_header`: which offset a header tells, and that a header without one moves no poller.
-/

namespace BuildLog

namespace Json

mutual

/-- How many arrays and objects stand in one another, at most. -/
def Value.depth : Value → Nat
  | .array items => 1 + itemsDepth items
  | .object members => 1 + membersDepth members
  | _ => 0

def itemsDepth : List Value → Nat
  | [] => 0
  | v :: vs => max v.depth (itemsDepth vs)

def membersDepth : List (Option Text × Value) → Nat
  | [] => 0
  | (_, v) :: members => max v.depth (membersDepth members)

end

/-- A value whose strings and keys have texts, and whose numbers are all of one kind. -/
inductive Value.Held (p : Numeral → Prop) : Value → Prop
  | null : Held p .null
  | bool (b : Bool) : Held p (.bool b)
  | number {n : Numeral} (h : p n) : Held p (.number n)
  | string (s : Text) : Held p (.string (some s))
  | array {items : List Value} (h : ∀ v ∈ items, Held p v) : Held p (.array items)
  | object {members : List (Option Text × Value)} (hKeys : ∀ m ∈ members, m.1.isSome)
      (hValues : ∀ m ∈ members, Held p m.2) : Held p (.object members)

namespace Value

variable {p : Numeral → Prop}

theorem held_number_iff {n : Numeral} : Held p (.number n) ↔ p n :=
  ⟨fun h => by cases h with | number h => exact h, .number⟩

theorem held_string_iff {s : Option Text} : Held p (.string s) ↔ s.isSome := by
  cases s with
  | none => exact ⟨nofun, nofun⟩
  | some s => exact ⟨fun _ => rfl, fun _ => .string s⟩

theorem held_array_iff {items : List Value} : Held p (.array items) ↔ ∀ v ∈ items, Held p v :=
  ⟨fun h => by cases h with | array h => exact h, .array⟩

theorem held_object_iff {members : List (Option Text × Value)} :
    Held p (.object members) ↔ ∀ m ∈ members, m.1.isSome ∧ Held p m.2 :=
  ⟨fun h => by cases h with | object hKeys hValues => exact fun m hm => ⟨hKeys m hm, hValues m hm⟩,
    fun h => .object (fun m hm => (h m hm).1) fun m hm => (h m hm).2⟩

end Value

end Json

open Json (Value Numeral Document itemTokens memberTokens itemsDepth membersDepth)

namespace Offset

/-! ## How deep tokens are nested -/

theorem le_nesting (depth : Nat) (ts : List Json.Token) : depth ≤ nesting depth ts := by
  induction ts generalizing depth with
  | nil => exact Nat.le_refl depth
  | cons t ts ih =>
    cases t with
    | openArray => exact (Nat.le_succ depth).trans (ih (depth + 1))
    | openObject => exact (Nat.le_succ depth).trans (ih (depth + 1))
    | closeArray => exact Nat.le_max_left ..
    | closeObject => exact Nat.le_max_left ..
    | comma | colon | null | bool | number | string => exact ih depth

-- A value closes all that it opens, so the tokens behind it are at the depth where it stands.
mutual

/-- The tokens of a value go as deep as the value. -/
theorem nesting_tokens (v : Value) (depth : Nat) (ts : List Json.Token) :
    nesting depth (v.tokens ++ ts) = max (depth + v.depth) (nesting depth ts) := by
  have hLe := le_nesting depth ts
  match v with
  | .null | .bool _ | .number _ | .string _ => exact (Nat.max_eq_right hLe).symm
  | .array [] => rfl
  | .array (v :: vs) =>
    have hOpen : nesting depth (.openArray :: (v.tokens ++ (itemTokens vs ++ ts))) =
      nesting (depth + 1) (v.tokens ++ (itemTokens vs ++ ts)) := rfl
    rw [Value.tokens, List.cons_append, List.append_assoc, hOpen, nesting_tokens v,
      nesting_itemTokens vs, Value.depth, itemsDepth]
    omega
  | .object [] => rfl
  | .object ((k, v) :: members) =>
    have hOpen : nesting depth
        (.openObject :: .string k :: .colon :: (v.tokens ++ (memberTokens members ++ ts))) =
      nesting (depth + 1) (v.tokens ++ (memberTokens members ++ ts)) := rfl
    rw [Value.tokens, List.cons_append, List.cons_append, List.cons_append, List.append_assoc,
      hOpen, nesting_tokens v, nesting_memberTokens members, Value.depth, membersDepth]
    omega

theorem nesting_itemTokens (vs : List Value) (depth : Nat) (ts : List Json.Token) :
    nesting (depth + 1) (itemTokens vs ++ ts) =
      max (depth + 1 + itemsDepth vs) (nesting depth ts) := by
  match vs with
  | [] => rfl
  | v :: vs =>
    have hComma : nesting (depth + 1) (.comma :: (v.tokens ++ (itemTokens vs ++ ts))) =
      nesting (depth + 1) (v.tokens ++ (itemTokens vs ++ ts)) := rfl
    rw [itemTokens, List.cons_append, List.append_assoc, hComma, nesting_tokens v,
      nesting_itemTokens vs, itemsDepth]
    omega

theorem nesting_memberTokens (members : List (Option Text × Value)) (depth : Nat)
    (ts : List Json.Token) :
    nesting (depth + 1) (memberTokens members ++ ts) =
      max (depth + 1 + membersDepth members) (nesting depth ts) := by
  match members with
  | [] => rfl
  | (k, v) :: members =>
    have hComma : nesting (depth + 1)
        (.comma :: .string k :: .colon :: (v.tokens ++ (memberTokens members ++ ts))) =
      nesting (depth + 1) (v.tokens ++ (memberTokens members ++ ts)) := rfl
    rw [memberTokens, List.cons_append, List.cons_append, List.cons_append, List.append_assoc,
      hComma, nesting_tokens v, nesting_memberTokens members, membersDepth]
    omega

end

theorem nesting_document (v : Value) : nesting 0 v.tokens = v.depth := by
  have h := nesting_tokens v 0 []
  rw [List.append_nil, Nat.zero_add] at h
  exact h.trans (Nat.max_eq_left (Nat.zero_le _))

/-! ## Whether tokens can be held -/

mutual

/-- The tokens of a value can all be held if its numbers are finite and its strings are texts. -/
theorem all_isHeld_tokens (v : Value) :
    v.tokens.all isHeld = true ↔ v.Held fun n => n.isFinite := by
  match v with
  | .null => simp [Value.tokens, isHeld, Value.Held.null]
  | .bool b => simp [Value.tokens, isHeld, Value.Held.bool]
  | .number n => simp [Value.tokens, isHeld, Value.held_number_iff]
  | .string s => simp [Value.tokens, isHeld, Value.held_string_iff]
  | .array [] => simp [Value.tokens, isHeld, Value.held_array_iff]
  | .array (v :: vs) =>
    rw [Value.held_array_iff, List.forall_mem_cons, ← all_isHeld_tokens v, ← all_isHeld_items vs]
    simp [Value.tokens, isHeld]
  | .object [] => simp [Value.tokens, isHeld, Value.held_object_iff]
  | .object ((k, v) :: members) =>
    rw [Value.held_object_iff, List.forall_mem_cons, ← all_isHeld_tokens v,
      ← all_isHeld_members members]
    simp [Value.tokens, isHeld, and_assoc]

theorem all_isHeld_items (vs : List Value) :
    (itemTokens vs).all isHeld = true ↔ ∀ v ∈ vs, v.Held fun n => n.isFinite := by
  match vs with
  | [] => simp [itemTokens, isHeld]
  | v :: vs =>
    rw [List.forall_mem_cons, ← all_isHeld_tokens v, ← all_isHeld_items vs]
    simp [itemTokens, isHeld]

theorem all_isHeld_members (members : List (Option Text × Value)) :
    (memberTokens members).all isHeld = true ↔
      ∀ m ∈ members, m.1.isSome ∧ m.2.Held fun n => n.isFinite := by
  match members with
  | [] => simp [memberTokens, isHeld]
  | (k, v) :: members =>
    rw [List.forall_mem_cons, ← all_isHeld_tokens v, ← all_isHeld_members members]
    simp [memberTokens, isHeld, and_assoc]

end

/-! ## What headers tell -/

/-- A value that starts with a natural number of 64 bits, written with its digits alone. -/
inductive Leads (n : Nat) : Value → Prop
  | intro {m : Numeral} {rest : List Value} (hn : n < 2 ^ 64) (h : m.Plain n) :
      Leads n (.array (.number m :: rest))

/-- A value that is not nested too deep, and of which all parts can be held. -/
def Sound (v : Value) : Prop := v.depth ≤ deepest ∧ v.Held fun n => n.isFinite

/-- A text that tells an offset: the items behind it can be held. -/
inductive Tells (n : Nat) : Text → Prop
  | intro {m : Numeral} {rest : List Value} {s : Text} (hn : n < 2 ^ 64) (hm : m.Plain n)
      (h : Document (.array (.number m :: rest)) s)
      (hDepth : (Value.array (.number m :: rest)).depth ≤ deepest)
      (hRest : ∀ v ∈ rest, v.Held fun n => n.isFinite) : Tells n s

/-- A header that tells no offset. -/
inductive Mute : Option Text → Prop
  | absent : Mute none
  | other {v : Value} {s : Text} (h : Document v s) (hv : ∀ n, ¬ Leads n v) : Mute (some s)
  | unsound {v : Value} {s : Text} (h : Document v s) (hv : ¬ Sound v) : Mute (some s)

/-- A value leads with a number if it is an array whose first item is read as that number. -/
theorem leads_iff {v : Value} {n : Nat} :
    Leads n v ↔ ∃ first rest, v = .array (first :: rest) ∧ natural? first = some n := by
  have hBound (n : Nat) : n ≤ Text.Number.largest64 ↔ n < 2 ^ 64 := Nat.le_iff_lt_add_one
  constructor
  · rintro ⟨hn, h⟩
    exact ⟨_, _, rfl, Numeral.natural?_eq_some_iff_plain.2 ⟨h, (hBound n).2 hn⟩⟩
  · rintro ⟨first, rest, rfl, h⟩
    cases first with
    | number m =>
      obtain ⟨hPlain, hn⟩ := Numeral.natural?_eq_some_iff_plain.1 h
      exact .intro ((hBound n).1 hn) hPlain
    | _ => cases h

/-- Tokens give an offset exactly if their value is sound and leads with it. -/
theorem ofTokens?_tokens {v : Value} {n : Nat} :
    ofTokens? v.tokens = some n ↔ Sound v ∧ Leads n v := by
  have hSound : (v.tokens.all isHeld ∧ nesting 0 v.tokens ≤ deepest) ↔ Sound v := by
    rw [all_isHeld_tokens, nesting_document, Sound, and_comm]
  rw [leads_iff, ofTokens?, Value.ofTokens?_tokens, ← hSound]
  split
  · next h =>
    rw [and_iff_right h]
    cases v with
    | array items => cases items <;> simp
    | _ => simp
  · next h => exact ⟨nofun, fun hv => absurd hv.1 h⟩

theorem ofHeader_document {v : Value} {s : Text} (h : Document v s) :
    ofHeader (some s) = (ofTokens? v.tokens).getD 0 := by
  simp [ofHeader, h.tokens_eq]

/-- A number that leads is small enough for a double. -/
theorem isFinite_of_plain {m : Numeral} {n : Nat} {s : Text} (hWrites : m.Writes s)
    (hm : m.Plain n) (hn : n < 2 ^ 64) : m.isFinite := by
  have hSmall : 2 ^ 64 ≤ Numeral.safeLimit := by decide +kernel
  refine hWrites.isFinite ?_
  rw [hm.magnitude]
  exact_mod_cast hn.le.trans hSmall

theorem writes_first {m : Numeral} {rest : List Value} {s : Text}
    (h : Document (.array (.number m :: rest)) s) : ∃ t, m.Writes t := by
  cases h with
  | padded _ h _ =>
    cases h with
    | array h _ =>
      cases h with
      | padded _ h _ =>
        cases h with
        | number h => exact ⟨_, h⟩

theorem Tells.ofHeader {n : Nat} {s : Text} (h : Tells n s) : ofHeader (some s) = n := by
  cases h with
  | intro hn hm h hDepth hRest =>
    obtain ⟨t, hWrites⟩ := writes_first h
    -- Nothing is asked of the first item: a number of 64 bits is never too large.
    have hFirst : Value.Held (fun n => n.isFinite) (.number _) :=
      .number (isFinite_of_plain hWrites hm hn)
    have hHeld := Value.held_array_iff.2 (List.forall_mem_cons.2 ⟨hFirst, hRest⟩)
    rw [ofHeader_document h, ofTokens?_tokens.2 ⟨⟨hDepth, hHeld⟩, .intro hn hm⟩]
    rfl

theorem Mute.ofHeader {header : Option Text} (h : Mute header) : ofHeader header = 0 := by
  have hNone {v : Value} {s : Text} (h : Document v s) (hv : ∀ n, ¬ (Sound v ∧ Leads n v)) :
      Offset.ofHeader (some s) = 0 := by
    have hTokens : ofTokens? v.tokens = none :=
      Option.eq_none_iff_forall_ne_some.2 fun n hn => hv n (ofTokens?_tokens.1 hn)
    rw [ofHeader_document h, hTokens]
    rfl
  cases h with
  | absent => rfl
  | other h hv => exact hNone h fun n hn => hv n hn.2
  | unsound h hv => exact hNone h fun n hn => hv hn.1

/-! ## What becomes of them -/

theorem body_answering {url : Text} {asked : Option Url} {r r' : Response} {text : Text}
    (h : Request.body url asked (.answering r) = .ok (r', text)) : r' = r := by
  unfold Request.body at h
  grind

/-- The chunk of an answer goes on where its readable header says. -/
theorem nextOffset_of_log {url : Text} {offset : Nat} {r : Response} {chunk : Chunk}
    (h : Request.log url offset (.answering r) = .ok chunk) :
    chunk.nextOffset = ofHeader (r.offsetHeader.filter Request.isReadable) := by
  rw [Request.log] at h
  cases hBody : Request.body url (Request.logUrl? url offset) (.answering r) with
  | error failure => simp [hBody, Except.map] at h
  | ok answer =>
    obtain ⟨r', text⟩ := answer
    obtain rfl := body_answering hBody
    obtain rfl : _ = chunk := by simpa [hBody, Except.map] using h
    rfl

/-- A header without a text counts as absent. -/
theorem Mute.filter {header : Option Text} (h : Mute header) (p : Text → Bool) :
    Mute (header.filter p) := by
  cases header with
  | none => exact .absent
  | some s =>
    cases hs : p s with
    | true => rwa [Option.filter_some_pos hs]
    | false =>
      rw [Option.filter_some_neg hs]
      exact .absent

/-- A chunk that goes on at zero stores no offset and feeds no line. -/
theorem accept_of_zero (p : Poller) (completed : Bool) (offset : Nat) {chunk : Chunk}
    (h : chunk.nextOffset = 0) :
    (p.accept completed offset chunk).1.nextOffset = p.nextOffset ∧
      (p.accept completed offset chunk).1.grouping = p.grouping := by
  simp [Poller.accept, Poller.newLines, h, chunks, Poller.feedAll]

/-- A text that tells an offset is read as that offset, whatever items follow and however they are
written. A header that tells none is read as zero, and an answer with such a header leaves a poller
where it was. Numbers are only too large to be held above a bound close to the largest double. -/
theorem offset_of_header :
    (∀ n s, Tells n s → ofHeader (some s) = n) ∧
    (∀ (m : Numeral) s, m.Writes s → m.magnitude ≤ 2 ^ 1024 - 2 ^ 973 → m.isFinite) ∧
    (∀ header, Mute header → ofHeader header = 0) ∧
    (∀ url (p q : Poller) offset r chunk completed, p.begin = some (offset, q) →
      Request.log url offset (.answering r) = .ok chunk → Mute r.offsetHeader →
      (q.settle completed offset (.ok chunk)).1.nextOffset = p.nextOffset ∧
        (q.settle completed offset (.ok chunk)).1.grouping = p.grouping) := by
  refine ⟨fun n s h => h.ofHeader, ?finite, fun header h => h.ofHeader, ?poller⟩
  case finite =>
    intro m s hWrites h
    exact hWrites.isFinite (h.trans_eq Numeral.cast_safeLimit.symm)
  case poller =>
    intro url p q offset r chunk completed hBegin hLog hMute
    have hZero : chunk.nextOffset = 0 := by
      rw [nextOffset_of_log hLog]
      exact (hMute.filter _).ofHeader
    obtain ⟨hOffset, hGrouping⟩ := accept_of_zero q completed offset hZero
    obtain ⟨-, rfl⟩ : p.nextOffset = offset ∧ { p with inFlight := true } = q := by
      simp only [Poller.begin] at hBegin
      split at hBegin
      · cases hBegin
      · simpa using hBegin
    exact ⟨hOffset, hGrouping⟩

/-- The largest offset is told before items of other kinds; a negative one leaves a poller where it
was. -/
theorem offset_of_header_at_border :
    let told := "[18446744073709551615, [1e300,\"late\"]]".toList
    let p : Poller := { nextOffset := 3 }
    let late : Chunk := ⟨"late\n".toList, 0⟩
    Tells 18446744073709551615 told ∧ ofHeader (some told) = 18446744073709551615 ∧
      Mute (some "[-1]".toList) ∧ ofHeader (some "[-1]".toList) = 0 ∧
      (p.settle false 3 (.ok late)).1.nextOffset = 3 := by
  intro told p late
  let digits : List Nat := [1, 8, 4, 4, 6, 7, 4, 4, 0, 7, 3, 7, 0, 9, 5, 5, 1, 6, 1, 5]
  let large : Numeral := { whole := [1], exponent := some ⟨false, [3, 0, 0]⟩ }
  have hFirst : Numeral.Writes { whole := digits } "18446744073709551615".toList :=
    .intro ⟨by simp [digits], by decide⟩ (by simp [digits]) .none .none
  have hLarge : large.Writes "1e300".toList :=
    .intro ⟨by simp, by decide⟩ (by simp) .none (.some (.inl rfl) .none ⟨by simp, by decide⟩)
  have hOne : Numeral.Writes { negative := true, whole := [1] } "-1".toList :=
    .intro ⟨by simp, by decide⟩ (by simp) .none .none
  have hLate : Json.Piece.isPlain "late".toList := by decide
  have hGap : Json.Blank [' '] := by simp [Json.Blank]
  have hInner := Json.Writes.array (Json.Writes.number hLarge).padded_of_value
    (.item (Json.Writes.string (.of_plain hLate)).padded_of_value .noItem)
  have hOuter := Json.Writes.array (Json.Writes.number hFirst).padded_of_value
    (.item (.padded hGap hInner .nil) .noItem)
  have hNegative := Json.Writes.array (Json.Writes.number hOne).padded_of_value .noItem
  have hFinite : large.isFinite := by
    have hBound : (10 ^ 300 + 2 ^ 973 : ℚ) ≤ 2 ^ 1024 := by
      exact_mod_cast (by decide +kernel : 10 ^ 300 + 2 ^ 973 ≤ 2 ^ 1024)
    have hValue : large.magnitude = 10 ^ 300 := by
      simp [large, Numeral.magnitude, Numeral.shift, Json.valueOfDigits]
    exact offset_of_header.2.1 large _ hLarge (hValue.trans_le (le_sub_iff_add_le.2 hBound))
  have hTells : Tells 18446744073709551615 told := by
    refine .intro (by omega) ⟨rfl, rfl, rfl, by decide⟩ hOuter.padded_of_value (by decide) ?_
    simpa using Value.Held.array (by simpa using ⟨.number hFinite, .string _⟩)
  have hMute : Mute (some "[-1]".toList) := by
    refine .other hNegative.padded_of_value fun n h => ?_
    cases h with
    | intro _ h => cases h.negative
  have hLog : Request.log "http://ci/log".toList 3
      (.answering ⟨200, some "[-1]".toList, some "late\n".toList⟩) = .ok late := by
    decide +kernel
  exact ⟨hTells, offset_of_header.1 _ _ hTells, hMute, offset_of_header.2.2.1 _ hMute,
    (offset_of_header.2.2.2 _ p _ _ _ _ false rfl hLog hMute).1⟩

/-- A number that rounds to the largest double counts as too large, and spoils the offset: its
significand and its power of ten are rounded before they are multiplied. -/
theorem ofHeader_of_largest_double :
    ∃ m largest : Numeral,
      Document (.array [.number m, .number largest]) "[5,1.7976931348623158e308]".toList ∧
      m.Plain 5 ∧ largest.magnitude < 2 ^ 1024 - 2 ^ 970 ∧
      (Value.array [.number m, .number largest]).depth ≤ 127 ∧
      ofHeader (some "[5,1.7976931348623158e308]".toList) ≠ 5 := by
  let m : Numeral := { whole := [5] }
  let largest : Numeral :=
    ⟨false, [1], some [7, 9, 7, 6, 9, 3, 1, 3, 4, 8, 6, 2, 3, 1, 5, 8], some ⟨false, [3, 0, 8]⟩⟩
  have hFive : m.Writes "5".toList := .intro ⟨by simp, by decide⟩ (by simp) .none .none
  have hLargest : largest.Writes "1.7976931348623158e308".toList :=
    .intro ⟨by simp, by decide⟩ (by simp) (.some ⟨by simp, by decide⟩)
      (.some (.inl rfl) .none ⟨by simp, by decide⟩)
  have hDocument := Json.Writes.array (Json.Writes.number hFive).padded_of_value
    (.item (Json.Writes.number hLargest).padded_of_value .noItem)
  have hValue : largest.magnitude = 17976931348623158 * 10 ^ (292 : Int) := rfl
  have hBound : (17976931348623158 * 10 ^ 292 + 2 ^ 970 : ℚ) < 2 ^ 1024 := by
    exact_mod_cast (by decide +kernel : 17976931348623158 * 10 ^ 292 + 2 ^ 970 < 2 ^ 1024)
  refine ⟨m, largest, hDocument.padded_of_value, ⟨rfl, rfl, rfl, rfl⟩, ?_, by decide,
    by decide +kernel⟩
  exact hValue.trans_lt (lt_sub_iff_add_lt.2 hBound)

end Offset

end BuildLog
