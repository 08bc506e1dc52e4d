import BuildLog.Proofs.Json.Scanning

/-!
# Reading JSON texts

Every text that writes a value is read as that value: `Document.ofText?`. The reader takes the
tokens of a value in whatever it stands in, and hands the value over to that.
-/

namespace BuildLog.Json

namespace Reader

theorem run_cons {r next : Reader} {t : Token} (h : r.step t = some next) (ts : List Token) :
    r.run (t :: ts) = next.run ts := by
  rw [run, h]

/-- A first item is read like any other value: it does not start with the end of the array. -/
theorem run_firstItem (v : Value) (stack : List Opened) (ts : List Token) :
    (firstItem stack).run (v.tokens ++ ts) = (value (.array [] :: stack)).run (v.tokens ++ ts) := by
  match v with
  | .null | .bool _ | .number _ | .string _ => rfl
  | .array [] | .array (_ :: _) | .object [] | .object (_ :: _) => simp [Value.tokens, run, step]

mutual

/-- The tokens of a value deliver it, whatever is opened around it. -/
theorem run_tokens (v : Value) (stack : List Opened) (ts : List Token) :
    (value stack).run (v.tokens ++ ts) = (deliver v stack).run ts := by
  match v with
  | .null => rfl
  | .bool _ => rfl
  | .number _ => rfl
  | .string _ => rfl
  | .array [] => rfl
  | .array (v :: vs) =>
    have hOpen : (value stack).step .openArray = some (firstItem stack) := rfl
    rw [Value.tokens, List.cons_append, run_cons hOpen, List.append_assoc, run_firstItem,
      run_tokens v, deliver, run_itemTokens vs]
    rfl
  | .object [] => rfl
  | .object ((k, v) :: members) =>
    have hOpen : (value stack).step .openObject = some (firstKey stack) := rfl
    have hKey : (firstKey stack).step (.string k) = some (colon [] k stack) := rfl
    have hColon : (colon [] k stack).step .colon = some (value (.object [] k :: stack)) := rfl
    simp only [Value.tokens, List.cons_append, List.append_assoc]
    rw [run_cons hOpen, run_cons hKey, run_cons hColon, run_tokens v, deliver,
      run_memberTokens members]
    rfl

/-- Items join those of the array in front of them. -/
theorem run_itemTokens (vs items : List Value) (stack : List Opened) (ts : List Token) :
    (afterItem items stack).run (itemTokens vs ++ ts) =
      (deliver (.array (items.reverse ++ vs)) stack).run ts := by
  match vs with
  | [] => simp [itemTokens, run, step]
  | v :: vs =>
    have hComma : (afterItem items stack).step .comma = some (value (.array items :: stack)) := rfl
    rw [itemTokens, List.cons_append, run_cons hComma, List.append_assoc, run_tokens v, deliver,
      run_itemTokens vs, List.reverse_cons, List.append_assoc, List.singleton_append]

theorem run_memberTokens (more members : List (Option Text × Value)) (stack : List Opened)
    (ts : List Token) :
    (afterMember members stack).run (memberTokens more ++ ts) =
      (deliver (.object (members.reverse ++ more)) stack).run ts := by
  match more with
  | [] => simp [memberTokens, run, step]
  | (k, v) :: more =>
    have hComma : (afterMember members stack).step .comma = some (key members stack) := rfl
    have hKey : (key members stack).step (.string k) = some (colon members k stack) := rfl
    have hColon : (colon members k stack).step .colon =
      some (value (.object members k :: stack)) := rfl
    simp only [memberTokens, List.cons_append, List.append_assoc]
    rw [run_cons hComma, run_cons hKey, run_cons hColon, run_tokens v, deliver,
      run_memberTokens more, List.reverse_cons, List.append_assoc, List.singleton_append]

end

end Reader

theorem Value.ofTokens?_tokens (v : Value) : Value.ofTokens? v.tokens = some v := by
  have h := Reader.run_tokens v [] []
  rw [List.append_nil] at h
  simp [ofTokens?, h, Reader.deliver, Reader.run, Reader.result?]

/-- A text that writes a value is read as that value. -/
theorem Document.ofText? {v : Value} {s : Text} (h : Document v s) :
    Value.ofText? s = some v := by
  simp [Value.ofText?, h.tokens_eq, Value.ofTokens?_tokens]

/-- A text writes one value at most. -/
theorem Document.unique {v w : Value} {s : Text} (hv : Document v s) (hw : Document w s) : v = w :=
  Option.some.inj (hv.ofText?.symm.trans hw.ofText?)

end BuildLog.Json
