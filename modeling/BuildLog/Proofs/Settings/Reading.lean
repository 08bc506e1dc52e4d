import BuildLog.Proofs.Text.Values
import BuildLog.Settings
import Mathlib.Algebra.Group.Nat.Defs

/-!
# Reading settings

What settings are read from variables, and which variable is blamed if none are. Both are said of
the values that the variables tell, without blanks around them: `Holds` says what settings tell the
same as the variables, `Offends` what keeps a variable from telling anything.

* `read_verdict`: reading follows the order of the variables.
* `read_exact`: settings are read exactly if no variable offends, and they are the ones told.
-/

namespace BuildLog.Settings

open Text (Trims)
open Text.Number (Writes)

/-! ## What variables tell -/

/-- A variable tells a value: what is left of it without blanks, if something is left. -/
def Tells (env : Environment) (v : Variable) (raw : Text) : Prop :=
  raw ≠ [] ∧ ∃ s, env v.name = some s ∧ Trims s raw

/-- The number that a variable tells, kept within limits, or else a default. -/
inductive TellsNumber (env : Environment) (v : Variable) (limit : Nat → Nat) (default : Nat) :
    Nat → Prop
  | absent (h : ∀ raw, ¬ Tells env v raw) : TellsNumber env v limit default default
  | told {raw : Text} {n : Nat} (h : Tells env v raw) (hWrites : Writes n raw)
      (hRange : n < 2 ^ 64) : TellsNumber env v limit default (limit n)

inductive TellsFlag (env : Environment) : Bool → Prop
  | absent (h : ∀ raw, ¬ Tells env .showTimestamps raw) : TellsFlag env false
  | told {raw : Text} {flag : Bool} (h : Tells env .showTimestamps raw)
      (hFlag : Text.Flag.read? raw = some flag) : TellsFlag env flag

/-- Settings that tell the same as the variables. -/
structure Holds (env : Environment) (s : Settings) : Prop where
  consoleUrl : Tells env .consoleUrl s.consoleUrl
  jobStatusUrl : ∀ raw, s.jobStatusUrl = some raw ↔ Tells env .jobStatusUrl raw
  pollInterval : TellsNumber env .pollInterval (fun n => max 250 (min n 60000)) 5000 s.pollInterval
  chunkSize : TellsNumber env .chunkSize (fun n => max 1 (min n 100000)) 1000 s.chunkSize
  requestTimeout : TellsNumber env .requestTimeout id 30000 s.requestTimeout
  showTimestamps : TellsFlag env s.showTimestamps

/-- A variable keeps settings from being read, by the value that it tells or by telling none. -/
inductive Offends (env : Environment) : Variable → Option Text → Prop
  | unset (h : ∀ raw, ¬ Tells env .consoleUrl raw) : Offends env .consoleUrl none
  | number {v : Variable} {raw : Text} (hv : v ∈ [.pollInterval, .chunkSize, .requestTimeout])
      (h : Tells env v raw) (hNone : ∀ n, Writes n raw → 2 ^ 64 ≤ n) : Offends env v (some raw)
  | flag {raw : Text} (h : Tells env .showTimestamps raw) (hNone : Text.Flag.read? raw = none) :
      Offends env .showTimestamps (some raw)

/-- The variables that are read before a variable. -/
def Variable.earlier (v : Variable) : List Variable := Variable.all.takeWhile (· != v)

theorem Variable.earlier_total (u v : Variable) : u = v ∨ u ∈ v.earlier ∨ v ∈ u.earlier := by
  cases u <;> cases v <;> decide

def FirstOffends (env : Environment) (v : Variable) (told : Option Text) : Prop :=
  Offends env v told ∧ ∀ u ∈ v.earlier, ∀ other, ¬ Offends env u other

/-- The variable that a fault blames. -/
def ReadFault.setting : ReadFault → Variable
  | unset => .consoleUrl
  | noNumber v .. => v
  | noFlag _ => .showTimestamps

/-- The value that a fault blames, if the variable tells one. -/
def ReadFault.raw? : ReadFault → Option Text
  | unset => none
  | noNumber _ raw _ => some raw
  | noFlag raw => some raw

/-- A message that begins with the name of a variable, or with its name and what it tells. -/
def Names (message : String) (v : Variable) : Option Text → Prop
  | none => ∃ rest, message = v.name ++ rest
  | some raw => ∃ rest, message = "Invalid " ++ v.name ++ " '" ++ String.ofList raw ++ "'" ++ rest

/-- Every message names the variable it blames, with the value that it tells. -/
theorem ReadFault.names (fault : ReadFault) : Names fault.message fault.setting fault.raw? := by
  cases fault with
  | unset => exact ⟨_, rfl⟩
  | noNumber v raw cause => exact ⟨"", by simp [message, setting, invalid]⟩
  | noFlag raw => exact ⟨_, rfl⟩

section Values

variable {env : Environment} {v : Variable}

theorem value?_eq_some_iff {raw : Text} : value? env v = some raw ↔ Tells env v raw := by
  simp only [value?, Option.filter_eq_some_iff, Option.map_eq_some_iff, Tells, ← Text.trim_eq_iff,
    Bool.not_eq_true', List.isEmpty_eq_false_iff]
  exact and_comm

theorem value?_eq_none_iff : value? env v = none ↔ ∀ raw, ¬ Tells env v raw := by
  simp only [Option.eq_none_iff_forall_ne_some, ← value?_eq_some_iff, ne_eq]

/-- A variable tells one value at most. -/
theorem Tells.unique {raw other : Text} (h : Tells env v raw) (hOther : Tells env v other) :
    raw = other :=
  Option.some.inj ((value?_eq_some_iff.2 h).symm.trans (value?_eq_some_iff.2 hOther))

theorem TellsNumber.unique {limit : Nat → Nat} {default m n : Nat}
    (h : TellsNumber env v limit default m) (hOther : TellsNumber env v limit default n) :
    m = n := by
  cases h with
  | absent h =>
    cases hOther with
    | absent => rfl
    | told hTells => exact absurd hTells (h _)
  | told h hWrites hRange =>
    cases hOther with
    | absent hNone => exact absurd h (hNone _)
    | told hTells hOther =>
      obtain rfl := h.unique hTells
      rw [hWrites.unique hOther]

theorem TellsFlag.unique {a b : Bool} (h : TellsFlag env a) (hOther : TellsFlag env b) : a = b := by
  cases h with
  | absent h =>
    cases hOther with
    | absent => rfl
    | told hTells => exact absurd hTells (h _)
  | told h hFlag =>
    cases hOther with
    | absent hNone => exact absurd h (hNone _)
    | told hTells hOther =>
      obtain rfl := h.unique hTells
      exact Option.some.inj (hFlag.symm.trans hOther)

/-- A number that was told, or left out, keeps nothing from being read. -/
theorem TellsNumber.not_offends {limit : Nat → Nat} {default n : Nat}
    (h : TellsNumber env v limit default n)
    (hv : v ∈ [Variable.pollInterval, .chunkSize, .requestTimeout]) (told : Option Text) :
    ¬ Offends env v told := by
  intro hOffends
  cases hOffends with
  | unset => exact absurd hv (by decide)
  | flag => exact absurd hv (by decide)
  | number _ hTells hNone =>
    cases h with
    | absent h => exact h _ hTells
    | told h hWrites hRange =>
      obtain rfl := h.unique hTells
      have hLarge := hNone _ hWrites
      omega

theorem TellsFlag.not_offends {flag : Bool} (h : TellsFlag env flag) (told : Option Text) :
    ¬ Offends env .showTimestamps told := by
  intro hOffends
  cases hOffends with
  | number hv => exact absurd hv (by decide)
  | flag hTells hNone =>
    cases h with
    | absent h => exact h _ hTells
    | told h hFlag =>
      obtain rfl := h.unique hTells
      rw [hNone] at hFlag
      cases hFlag

theorem not_offends_jobStatusUrl (told : Option Text) : ¬ Offends env .jobStatusUrl told := by
  intro hOffends
  cases hOffends with
  | number hv => exact absurd hv (by decide)

theorem not_offends_consoleUrl {raw : Text} (h : Tells env .consoleUrl raw) (told : Option Text) :
    ¬ Offends env .consoleUrl told := by
  intro hOffends
  cases hOffends with
  | unset hNone => exact hNone raw h
  | number hv => exact absurd hv (by decide)

/-! ## Reading one variable -/

theorem number?_of_ok {read : Option Nat} (h : number? env v = .ok read) (limit : Nat → Nat)
    (default : Nat) : TellsNumber env v limit default ((read.map limit).getD default) := by
  unfold number? at h
  split at h
  · next hUnset =>
    cases h
    exact .absent (value?_eq_none_iff.1 hUnset)
  · next raw hSet =>
    split at h
    · next n hRead =>
      cases h
      obtain ⟨hWrites, hLe⟩ := Text.Number.read_eq_ok_iff.1 hRead
      rw [Text.Number.largest64] at hLe
      exact .told (value?_eq_some_iff.1 hSet) hWrites (by omega)
    · cases h

/-- Where no number is read, the variable tells something else. -/
theorem number?_of_error {fault : ReadFault} (h : number? env v = .error fault)
    (hv : v ∈ [Variable.pollInterval, .chunkSize, .requestTimeout]) :
    ∃ raw cause, fault = .noNumber v raw cause ∧ Offends env v (some raw) := by
  unfold number? at h
  split at h
  · cases h
  · next raw hSet =>
    split at h
    · cases h
    · next cause hRead =>
      cases h
      refine ⟨raw, cause, rfl, .number hv (value?_eq_some_iff.1 hSet) fun n hWrites => ?_⟩
      refine Nat.le_of_not_lt fun hRange => ?_
      have hLe : n ≤ Text.Number.largest64 := by rw [Text.Number.largest64]; omega
      rw [Text.Number.read_eq_ok_iff.2 ⟨hWrites, hLe⟩] at hRead
      cases hRead

theorem timestamps?_of_ok {read : Option Bool} (h : timestamps? env = .ok read) :
    TellsFlag env (read.getD false) := by
  unfold timestamps? at h
  split at h
  · next hUnset =>
    cases h
    exact .absent (value?_eq_none_iff.1 hUnset)
  · next raw hSet =>
    split at h
    · next flag hFlag =>
      cases h
      exact .told (value?_eq_some_iff.1 hSet) hFlag
    · cases h

theorem timestamps?_of_error {fault : ReadFault} (h : timestamps? env = .error fault) :
    ∃ raw, fault = .noFlag raw ∧ Offends env .showTimestamps (some raw) := by
  unfold timestamps? at h
  split at h
  · cases h
  · next raw hSet =>
    split at h
    · cases h
    · next hNone =>
      cases h
      exact ⟨raw, rfl, .flag (value?_eq_some_iff.1 hSet) hNone⟩

end Values

/-! ## Reading all of them -/

/-- What reading may come to. -/
inductive Verdict (env : Environment) : Except ReadFault Settings → Prop
  | settings {s : Settings} (h : Holds env s) : Verdict env (.ok s)
  | fault {fault : ReadFault} (h : FirstOffends env fault.setting fault.raw?) :
      Verdict env (.error fault)

variable {env : Environment}

theorem earlier_pollInterval : Variable.pollInterval.earlier = [.consoleUrl, .jobStatusUrl] := by
  decide

theorem earlier_chunkSize :
    Variable.chunkSize.earlier = [.consoleUrl, .jobStatusUrl, .pollInterval] := by decide

theorem earlier_requestTimeout : Variable.requestTimeout.earlier =
    [.consoleUrl, .jobStatusUrl, .pollInterval, .chunkSize] := by decide

theorem earlier_showTimestamps : Variable.showTimestamps.earlier =
    [.consoleUrl, .jobStatusUrl, .pollInterval, .chunkSize, .requestTimeout] := by decide

/-- One variable is read after the other. Up to a variable that offends none has, and behind the
last one all of them have been read. -/
theorem read_verdict (env : Environment) : Verdict env (read env) := by
  have hJob (told : Option Text) : ¬ Offends env .jobStatusUrl told :=
    not_offends_jobStatusUrl told
  unfold read
  cases hUrl : value? env .consoleUrl with
  | none =>
    have hUnset := Offends.unset (value?_eq_none_iff.1 hUrl)
    exact .fault ⟨hUnset, fun u hu => absurd hu (by cases u <;> decide)⟩
  | some url =>
  have hUrl := value?_eq_some_iff.1 hUrl
  have hUrlFine := not_offends_consoleUrl hUrl
  cases hInterval : number? env .pollInterval with
  | error fault =>
    obtain ⟨raw, cause, rfl, hOffends⟩ := number?_of_error hInterval (by decide)
    refine .fault ⟨hOffends, ?_⟩
    simpa [ReadFault.setting, earlier_pollInterval] using ⟨hUrlFine, hJob⟩
  | ok interval =>
  have hInterval := number?_of_ok hInterval
  have hIntervalFine := (hInterval id 0).not_offends (by decide)
  cases hSize : number? env .chunkSize with
  | error fault =>
    obtain ⟨raw, cause, rfl, hOffends⟩ := number?_of_error hSize (by decide)
    refine .fault ⟨hOffends, ?_⟩
    simpa [ReadFault.setting, earlier_chunkSize] using ⟨hUrlFine, hJob, hIntervalFine⟩
  | ok size =>
  have hSize := number?_of_ok hSize
  have hSizeFine := (hSize id 0).not_offends (by decide)
  cases hTimeout : number? env .requestTimeout with
  | error fault =>
    obtain ⟨raw, cause, rfl, hOffends⟩ := number?_of_error hTimeout (by decide)
    refine .fault ⟨hOffends, ?_⟩
    simpa [ReadFault.setting, earlier_requestTimeout] using
      ⟨hUrlFine, hJob, hIntervalFine, hSizeFine⟩
  | ok timeout =>
  have hTimeout := number?_of_ok hTimeout
  have hTimeoutFine := (hTimeout id 0).not_offends (by decide)
  cases hTimestamps : timestamps? env with
  | error fault =>
    obtain ⟨raw, rfl, hOffends⟩ := timestamps?_of_error hTimestamps
    refine .fault ⟨hOffends, ?_⟩
    simpa [ReadFault.setting, earlier_showTimestamps] using
      ⟨hUrlFine, hJob, hIntervalFine, hSizeFine, hTimeoutFine⟩
  | ok timestamps =>
  refine .settings ⟨hUrl, fun _ => value?_eq_some_iff, hInterval _ _, hSize _ _, ?_,
    timestamps?_of_ok hTimestamps⟩
  simpa using hTimeout id 30000

/-- Settings that tell the same as the variables leave none of them to offend. -/
theorem Holds.not_offends {s : Settings} (h : Holds env s) (v : Variable) (told : Option Text) :
    ¬ Offends env v told := by
  cases v with
  | consoleUrl => exact not_offends_consoleUrl h.consoleUrl told
  | jobStatusUrl => exact not_offends_jobStatusUrl told
  | pollInterval => exact h.pollInterval.not_offends (by decide) told
  | chunkSize => exact h.chunkSize.not_offends (by decide) told
  | requestTimeout => exact h.requestTimeout.not_offends (by decide) told
  | showTimestamps => exact h.showTimestamps.not_offends told

/-- The variables tell the same as one settings only. -/
theorem Holds.unique {s t : Settings} (hs : Holds env s) (ht : Holds env t) : s = t := by
  have hJob : s.jobStatusUrl = t.jobStatusUrl :=
    Option.ext fun raw => (hs.jobStatusUrl raw).trans (ht.jobStatusUrl raw).symm
  cases s
  cases t
  obtain rfl := hs.consoleUrl.unique ht.consoleUrl
  obtain rfl := hs.pollInterval.unique ht.pollInterval
  obtain rfl := hs.chunkSize.unique ht.chunkSize
  obtain rfl := hs.requestTimeout.unique ht.requestTimeout
  obtain rfl := hs.showTimestamps.unique ht.showTimestamps
  obtain rfl := hJob
  rfl

theorem Offends.told_unique {v : Variable} {told other : Option Text} (h : Offends env v told)
    (hOther : Offends env v other) : told = other := by
  cases h with
  | unset h =>
    cases hOther with
    | unset => rfl
    | number hv => exact absurd hv (by decide)
  | number hv h =>
    cases hOther with
    | unset => exact absurd hv (by decide)
    | number _ hOther => rw [h.unique hOther]
    | flag => exact absurd hv (by decide)
  | flag h =>
    cases hOther with
    | number hv => exact absurd hv (by decide)
    | flag hOther => rw [h.unique hOther]

/-- One variable offends first, by one value. -/
theorem FirstOffends.unique {u v : Variable} {told other : Option Text}
    (hu : FirstOffends env u told) (hv : FirstOffends env v other) : u = v ∧ told = other := by
  rcases u.earlier_total v with rfl | hEarlier | hEarlier
  · exact ⟨rfl, hu.1.told_unique hv.1⟩
  · exact absurd hu.1 (hv.2 u hEarlier told)
  · exact absurd hv.1 (hu.2 v hEarlier other)

theorem read_eq_ok_iff_holds {s : Settings} : read env = .ok s ↔ Holds env s := by
  have hVerdict := read_verdict env
  constructor
  · intro hRead
    rw [hRead] at hVerdict
    cases hVerdict with
    | settings h => exact h
  · intro h
    generalize read env = result at hVerdict
    cases hVerdict with
    | settings hOther => rw [h.unique hOther]
    | fault hFirst => exact absurd hFirst.1 (h.not_offends _ _)

/-- Environments whose variables tell the same are read alike. -/
theorem read_congr_tells {env' : Environment} (h : ∀ v raw, Tells env v raw ↔ Tells env' v raw) :
    read env = read env' := by
  have hValues : ∀ v, value? env v = value? env' v := fun v =>
    Option.ext fun raw => by rw [value?_eq_some_iff, value?_eq_some_iff, h]
  simp only [read, number?, timestamps?, hValues]

/-- **What settings are read from variables.** Settings are read exactly if no variable offends, and
they tell the same as the variables. Otherwise the first variable that offends is blamed, with what
it tells, and the message names both. Nothing counts but what the variables tell. -/
theorem read_exact (env : Environment) :
    ((∃ s, read env = .ok s) ↔ ∀ v told, ¬ Offends env v told) ∧
    (∀ s, read env = .ok s ↔ Holds env s) ∧
    (∀ v told, FirstOffends env v told ↔
      ∃ fault, read env = .error fault ∧ fault.setting = v ∧ fault.raw? = told ∧
        Names fault.message v told) ∧
    ∀ env', (∀ v raw, Tells env v raw ↔ Tells env' v raw) → read env = read env' := by
  have hVerdict := read_verdict env
  refine ⟨⟨?_, fun hNone => ?_⟩, fun s => read_eq_ok_iff_holds, fun v told => ⟨fun h => ?_, ?_⟩,
    fun env' => read_congr_tells⟩
  · rintro ⟨s, hRead⟩ v told
    exact (read_eq_ok_iff_holds.1 hRead).not_offends v told
  · generalize read env = result at hVerdict ⊢
    cases hVerdict with
    | settings => exact ⟨_, rfl⟩
    | fault hFirst => exact absurd hFirst.1 (hNone _ _)
  · generalize read env = result at hVerdict ⊢
    cases hVerdict with
    | settings hHolds => exact absurd h.1 (hHolds.not_offends v told)
    | @fault fault hFirst =>
      obtain ⟨rfl, rfl⟩ := h.unique hFirst
      exact ⟨fault, rfl, rfl, rfl, fault.names⟩
  · rintro ⟨fault, hRead, rfl, rfl, -⟩
    rw [hRead] at hVerdict
    cases hVerdict with
    | fault hFirst => exact hFirst

/-- A number that is too large, told with and without blanks around it. It is blamed, and not the
word behind it that is no flag; an interval of blanks alone is no fault. -/
theorem read_exact_of_padded_number :
    let number := "18446744073709551616".toList
    let env (blanks : Text) : Environment := fun name =>
      if name = Variable.consoleUrl.name then some (blanks ++ "http://ci/log".toList)
      else if name = Variable.pollInterval.name then some blanks
      else if name = Variable.chunkSize.name then some (number ++ blanks)
      else if name = Variable.showTimestamps.name then some "maybe".toList
      else none
    read (env ['\u00a0', ' ']) = read (env []) ∧
      ∃ fault, read (env []) = .error fault ∧ fault.setting = .chunkSize ∧
        fault.raw? = some number ∧ Names fault.message .chunkSize (some number) := by
  intro number env
  obtain ⟨-, -, -, hCongr⟩ := read_exact (env ['\u00a0', ' '])
  obtain ⟨-, -, hBlamed, -⟩ := read_exact (env [])
  constructor
  · refine hCongr (env []) fun v raw => ?_
    have hValue : value? (env ['\u00a0', ' ']) v = value? (env []) v := by cases v <;> decide
    rw [← value?_eq_some_iff, ← value?_eq_some_iff, hValue]
  · have hTells : Tells (env []) .chunkSize number := value?_eq_some_iff.1 (by decide)
    have hUrl : Tells (env []) .consoleUrl "http://ci/log".toList :=
      value?_eq_some_iff.1 (by decide)
    have hInterval : TellsNumber (env []) .pollInterval id 0 0 :=
      .absent (value?_eq_none_iff.1 (by decide))
    have hLarge : ∀ n, Writes n number → 2 ^ 64 ≤ n := by
      intro n hWrites
      rw [hWrites.unique (.plain ⟨by decide, List.all_eq_true.1 (by decide)⟩)]
      decide
    refine (hBlamed .chunkSize (some number)).1 ⟨.number (by decide) hTells hLarge, ?_⟩
    simpa [earlier_chunkSize] using ⟨not_offends_consoleUrl hUrl, not_offends_jobStatusUrl,
      hInterval.not_offends (by decide)⟩

end BuildLog.Settings
