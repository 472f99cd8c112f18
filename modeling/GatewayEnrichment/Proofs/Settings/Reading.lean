import GatewayEnrichment.Proofs.Outcomes
import GatewayEnrichment.Proofs.Settings.Numbers

/-! How the settings are read from an environment. The numbers are read one after the other, and the
first variable that is set to a text without a number is reported. When there is none the settings
are filled, and only then the burst is looked at. A variable whose value is not UTF-8 takes no part
in this: its number is the default, without a report. -/

namespace GatewayEnrichment.Settings

def numbers : List (String × (Settings → Nat)) :=
  [("REQUEST_INTERVAL_MS", requestIntervalMs), ("REQUEST_BURST", requestBurst),
    ("INFO_EXPIRE_SECS", expireSecs), ("DIRECTORY_TIMEOUT_SECS", directoryTimeoutSecs)]

def SetTo (env : Environment) (name text : String) : Prop := env name = some (octets text)

def FaultyAt (env : Environment) (name text : String) : Prop :=
  SetTo env name text ∧ ∀ n, ¬ Denotes text n

def FirstFault (env : Environment) (names : List String) (name text : String) : Prop :=
  ∃ before after, names = before ++ name :: after ∧
    (∀ earlier ∈ before, ∀ text, ¬ FaultyAt env earlier text) ∧ FaultyAt env name text

section

variable {env : Environment} {name text : String} {default n : Nat}

theorem textOf_eq_some_iff : textOf env name = some text ↔ SetTo env name text := by
  unfold textOf SetTo
  rw [Option.bind_eq_bind, Option.bind_eq_some_iff]
  constructor
  · rintro ⟨o, set, spelled⟩
    rw [set, Octets.octets_of_text? spelled]
  · intro set
    exact ⟨_, set, Octets.text?_octets text⟩

theorem naturalOf_of_textOf_eq_none (unset : textOf env name = none) :
    naturalOf env name default = .ok default := by
  rw [naturalOf, unset]

theorem naturalOf_of_denotes (set : SetTo env name text) (denotes : Denotes text n) :
    naturalOf env name default = .ok n := by
  rw [naturalOf, textOf_eq_some_iff.mpr set]
  dsimp only
  rw [(natural?_trimmed_eq_some_iff text n).mpr denotes]

theorem naturalOf_of_faultyAt (fault : FaultyAt env name text) :
    naturalOf env name default = .error (.invalidValue name text) := by
  have refused : natural? (trimmed text) = none :=
    Option.eq_none_iff_forall_ne_some.mpr fun n hn =>
      fault.2 n ((natural?_trimmed_eq_some_iff text n).mp hn)
  rw [naturalOf, textOf_eq_some_iff.mpr fault.1]
  dsimp only
  rw [refused]

theorem unset_or_denotes_or_faultyAt (env : Environment) (name : String) :
    textOf env name = none ∨ (∃ text n, SetTo env name text ∧ Denotes text n) ∨
      ∃ text, FaultyAt env name text := by
  cases read : textOf env name with
  | none => exact .inl rfl
  | some text =>
    have set := textOf_eq_some_iff.mp read
    by_cases denotes : ∃ n, Denotes text n
    · obtain ⟨n, denotes⟩ := denotes
      exact .inr (.inl ⟨text, n, set, denotes⟩)
    · exact .inr (.inr ⟨text, set, fun n hn => denotes ⟨n, hn⟩⟩)

theorem naturalOf_eq_ok_iff : naturalOf env name default = .ok n ↔
    textOf env name = none ∧ default = n ∨ ∃ text, SetTo env name text ∧ Denotes text n := by
  constructor
  · intro h
    rcases unset_or_denotes_or_faultyAt env name with
      unset | ⟨text, m, set, denotes⟩ | ⟨text, fault⟩
    · rw [naturalOf_of_textOf_eq_none unset] at h
      exact .inl ⟨unset, Except.ok.inj h⟩
    · rw [naturalOf_of_denotes set denotes] at h
      cases h
      exact .inr ⟨text, set, denotes⟩
    · rw [naturalOf_of_faultyAt fault] at h
      cases h
  · rintro (⟨unset, rfl⟩ | ⟨text, set, denotes⟩)
    · exact naturalOf_of_textOf_eq_none unset
    · exact naturalOf_of_denotes set denotes

theorem naturalOf_eq_error_iff {e : SettingsError} : naturalOf env name default = .error e ↔
    ∃ text, e = .invalidValue name text ∧ FaultyAt env name text := by
  constructor
  · intro h
    rcases unset_or_denotes_or_faultyAt env name with
      unset | ⟨text, n, set, denotes⟩ | ⟨text, fault⟩
    · rw [naturalOf_of_textOf_eq_none unset] at h
      cases h
    · rw [naturalOf_of_denotes set denotes] at h
      cases h
    · rw [naturalOf_of_faultyAt fault] at h
      exact ⟨text, (Except.error.inj h).symm, fault⟩
  · rintro ⟨text, rfl, fault⟩
    exact naturalOf_of_faultyAt fault

theorem exists_naturalOf_eq_ok_iff (default : Nat) :
    (∃ n, naturalOf env name default = .ok n) ↔ ∀ text, ¬ FaultyAt env name text := by
  constructor
  · rintro ⟨n, read⟩ text fault
    rw [naturalOf_of_faultyAt fault] at read
    cases read
  · intro sound
    cases read : naturalOf env name default with
    | ok n => exact ⟨n, rfl⟩
    | error e =>
      obtain ⟨text, -, fault⟩ := naturalOf_eq_error_iff.mp read
      exact absurd fault (sound text)

end

section

variable {env : Environment} {name text : String} {names : List String}

theorem not_firstFault_nil : ¬ FirstFault env [] name text := by
  rintro ⟨before, after, cut, -⟩
  simp at cut

theorem firstFault_cons_iff {first : String} : FirstFault env (first :: names) name text ↔
    (name = first ∧ FaultyAt env first text) ∨
      (∀ text, ¬ FaultyAt env first text) ∧ FirstFault env names name text := by
  constructor
  · rintro ⟨before, after, cut, sound, fault⟩
    cases before with
    | nil =>
      obtain ⟨rfl, -⟩ := List.cons.inj cut
      exact .inl ⟨rfl, fault⟩
    | cons earlier before =>
      obtain ⟨rfl, rest⟩ := List.cons.inj cut
      have sound := List.forall_mem_cons.mp sound
      exact .inr ⟨sound.1, before, after, rest, sound.2, fault⟩
  · rintro (⟨rfl, fault⟩ | ⟨sound, before, after, rfl, others, fault⟩)
    · exact ⟨[], names, rfl, by simp, fault⟩
    · exact ⟨first :: before, after, rfl, List.forall_mem_cons.mpr ⟨sound, others⟩, fault⟩

theorem exists_firstFault (fault : ∃ name ∈ names, ∃ text, FaultyAt env name text) :
    ∃ name text, FirstFault env names name text := by
  induction names with
  | nil =>
    obtain ⟨name, mem, -⟩ := fault
    cases mem
  | cons first names ih =>
    simp only [firstFault_cons_iff]
    by_cases here : ∃ text, FaultyAt env first text
    · obtain ⟨text, here⟩ := here
      exact ⟨first, text, .inl ⟨rfl, here⟩⟩
    · have sound : ∀ text, ¬ FaultyAt env first text := fun text h => here ⟨text, h⟩
      have later : ∃ name ∈ names, ∃ text, FaultyAt env name text := by
        simpa only [List.exists_mem_cons_iff, here, false_or] using fault
      obtain ⟨name, text, fault⟩ := ih later
      exact ⟨name, text, .inr ⟨sound, fault⟩⟩

theorem FirstFault.mem (h : FirstFault env names name text) : name ∈ names := by
  obtain ⟨before, after, rfl, -⟩ := h
  exact List.mem_append_right before List.mem_cons_self

theorem FirstFault.append (h : FirstFault env names name text) (more : List String) :
    FirstFault env (names ++ more) name text := by
  obtain ⟨before, after, rfl, sound, fault⟩ := h
  exact ⟨before, after ++ more, List.append_assoc _ _ _, sound, fault⟩

theorem naturalOf_bind_reports_iff {α : Type} {first : String} {default : Nat}
    {rest : Nat → Except SettingsError α}
    (reports : ∀ n, rest n = .error (.invalidValue name text) ↔ FirstFault env names name text) :
    (naturalOf env first default >>= rest) = .error (.invalidValue name text) ↔
      FirstFault env (first :: names) name text := by
  rw [firstFault_cons_iff, ← exists_naturalOf_eq_ok_iff default]
  cases read : naturalOf env first default with
  | ok n =>
    have sound : ¬ FaultyAt env first text :=
      (exists_naturalOf_eq_ok_iff default).mp ⟨n, read⟩ text
    simpa [sound, bind, Except.bind] using reports n
  | error e =>
    obtain ⟨text', rfl, fault⟩ := naturalOf_eq_error_iff.mp read
    have same : FaultyAt env first text ↔ text' = text := by
      constructor
      · intro fault'
        rw [naturalOf_of_faultyAt fault'] at read
        cases read
        rfl
      · rintro rfl
        exact fault
    simp [same, bind, Except.bind, eq_comm]

theorem fromEnvironment_reports_iff : fromEnvironment env = .error (.invalidValue name text) ↔
    FirstFault env (numbers.map Prod.fst) name text := by
  refine naturalOf_bind_reports_iff fun interval => naturalOf_bind_reports_iff fun burst =>
    naturalOf_bind_reports_iff fun expire => naturalOf_bind_reports_iff fun timeout => ?_
  refine iff_of_false ?_ not_firstFault_nil
  unfold validate
  split <;> simp

end

structure FilledFrom (env : Environment) (s : Settings) : Prop where
  numbers : ∀ v ∈ numbers, naturalOf env v.1 (v.2 {}) = .ok (v.2 s)
  server : s.accountServer = (textOf env "ACCOUNT_SERVER").getD ({} : Settings).accountServer
  file : s.directoryFile = (textOf env "DIRECTORY_FILE").filter (· ≠ "")

section

variable {env : Environment} {s : Settings}

theorem FilledFrom.fromEnvironment_eq (h : FilledFrom env s) :
    fromEnvironment env = validate s := by
  have filled := h.numbers
  simp only [Settings.numbers, List.forall_mem_cons, List.not_mem_nil, false_imp_iff, implies_true,
    and_true] at filled
  obtain ⟨interval, burst, expire, timeout⟩ := filled
  unfold fromEnvironment
  dsimp only
  rw [interval, burst, expire, timeout, ← h.server, ← h.file]
  rfl

theorem exists_filledFrom_iff : (∃ s, FilledFrom env s) ↔
    ∀ name ∈ numbers.map Prod.fst, ∀ text, ¬ FaultyAt env name text := by
  constructor
  · rintro ⟨s, filled⟩
    rw [List.forall_mem_map]
    intro v hv
    exact (exists_naturalOf_eq_ok_iff (v.2 {})).mp ⟨v.2 s, filled.numbers v hv⟩
  · intro sound
    simp only [Settings.numbers, List.map_cons, List.map_nil, List.forall_mem_cons] at sound
    obtain ⟨interval, burst, expire, timeout, -⟩ := sound
    let defaults : Settings := {}
    obtain ⟨interval, hinterval⟩ :=
      (exists_naturalOf_eq_ok_iff defaults.requestIntervalMs).mpr interval
    obtain ⟨burst, hburst⟩ := (exists_naturalOf_eq_ok_iff defaults.requestBurst).mpr burst
    obtain ⟨expire, hexpire⟩ := (exists_naturalOf_eq_ok_iff defaults.expireSecs).mpr expire
    obtain ⟨timeout, htimeout⟩ :=
      (exists_naturalOf_eq_ok_iff defaults.directoryTimeoutSecs).mpr timeout
    refine ⟨⟨_, interval, burst, expire, timeout, _⟩, ?_, rfl, rfl⟩
    simp only [Settings.numbers, List.forall_mem_cons]
    exact ⟨hinterval, hburst, hexpire, htimeout, List.forall_mem_nil _⟩

theorem filledFrom_or_reported (env : Environment) : (∃ s, FilledFrom env s) ∨
    ∃ name text, FirstFault env (numbers.map Prod.fst) name text ∧
      fromEnvironment env = .error (.invalidValue name text) := by
  by_cases sound : ∀ name ∈ numbers.map Prod.fst, ∀ text, ¬ FaultyAt env name text
  · exact .inl (exists_filledFrom_iff.mpr sound)
  · simp only [not_forall, not_not, exists_prop] at sound
    obtain ⟨name, text, fault⟩ := exists_firstFault sound
    exact .inr ⟨name, text, fault, fromEnvironment_reports_iff.mpr fault⟩

theorem fromEnvironment_eq_ok_iff :
    fromEnvironment env = .ok s ↔ FilledFrom env s ∧ s.requestBurst ≠ 0 := by
  constructor
  · intro read
    rcases filledFrom_or_reported env with ⟨s', filled⟩ | ⟨name, text, -, reported⟩
    · rw [filled.fromEnvironment_eq, validate] at read
      split at read
      · cases read
      · next some =>
        cases read
        exact ⟨filled, some⟩
    · rw [read] at reported
      cases reported
  · rintro ⟨filled, some⟩
    rw [filled.fromEnvironment_eq, validate, if_neg some]

theorem fromEnvironment_eq_zeroBurst_iff : fromEnvironment env = .error .zeroBurst ↔
    ∃ s, FilledFrom env s ∧ s.requestBurst = 0 := by
  constructor
  · intro read
    rcases filledFrom_or_reported env with ⟨s, filled⟩ | ⟨name, text, -, reported⟩
    · rw [filled.fromEnvironment_eq, validate] at read
      split at read
      · next zero => exact ⟨s, filled, zero⟩
      · cases read
    · rw [read] at reported
      cases reported
  · rintro ⟨s, filled, zero⟩
    rw [filled.fromEnvironment_eq, validate, if_pos zero]

end

structure ReadFrom (env : Environment) (s : Settings) : Prop where
  default : ∀ v ∈ numbers, env v.1 = none → v.2 s = v.2 {}
  denoted : ∀ v ∈ numbers, ∀ text n, SetTo env v.1 text → Denotes text n → v.2 s = n
  defaultServer : env "ACCOUNT_SERVER" = none → s.accountServer = ({} : Settings).accountServer
  server : ∀ text, SetTo env "ACCOUNT_SERVER" text → s.accountServer = text
  file : ∀ text, s.directoryFile = some text ↔ SetTo env "DIRECTORY_FILE" text ∧ text ≠ ""

section

variable {env : Environment} {s : Settings}

theorem textOf_of_eq_none {name : String} (unset : env name = none) : textOf env name = none := by
  rw [textOf, unset]
  rfl

theorem eq_none_or_unreadable {name : String} (h : textOf env name = none) :
    env name = none ∨ ∃ o, env name = some o ∧ o.text? = none := by
  cases set : env name with
  | none => exact .inl rfl
  | some o =>
    rw [textOf, set] at h
    exact .inr ⟨o, rfl, h⟩

theorem FilledFrom.readFrom (h : FilledFrom env s) : ReadFrom env s := by
  refine ⟨fun v hv unset => ?_, fun v hv text n set denotes => ?_, fun unset => ?_,
    fun text set => ?_, fun text => ?_⟩
  · have read := h.numbers v hv
    rw [naturalOf_of_textOf_eq_none (textOf_of_eq_none unset)] at read
    exact (Except.ok.inj read).symm
  · have read := h.numbers v hv
    rw [naturalOf_of_denotes set denotes] at read
    exact (Except.ok.inj read).symm
  · rw [h.server, textOf_of_eq_none unset]
    rfl
  · rw [h.server, textOf_eq_some_iff.mpr set]
    rfl
  · rw [h.file, Option.filter_eq_some_iff, textOf_eq_some_iff, decide_eq_true_iff]

theorem FilledFrom.requestBurst_eq_zero_iff (h : FilledFrom env s) :
    s.requestBurst = 0 ↔ ∃ text, SetTo env "REQUEST_BURST" text ∧ Denotes text 0 := by
  have burst : ("REQUEST_BURST", requestBurst) ∈ Settings.numbers := by simp [Settings.numbers]
  constructor
  · intro zero
    obtain ⟨-, same⟩ | found := naturalOf_eq_ok_iff.mp (h.numbers _ burst)
    · exact absurd (same.trans zero) (by decide)
    · rwa [← zero]
  · rintro ⟨text, set, denotes⟩
    exact h.readFrom.denoted _ burst text 0 set denotes

end

/-- From an environment of texts the settings are read as they are meant or not at all. They are
read exactly when each number is unset or denoted, and the burst is not zero. Otherwise the first
variable at fault is reported with its text as it stands, and the burst of zero only if no variable
is at fault. -/
theorem fromEnvironment_exact (env : Environment)
    (utf8 : ∀ name o, env name = some o → o.text? ≠ none) :
    ((∃ s, fromEnvironment env = .ok s) ↔
      (∀ v ∈ numbers, env v.1 = none ∨ ∃ text n, SetTo env v.1 text ∧ Denotes text n) ∧
        ¬ ∃ text, SetTo env "REQUEST_BURST" text ∧ Denotes text 0) ∧
    (∀ s, fromEnvironment env = .ok s → ReadFrom env s) ∧
    (∀ name text, fromEnvironment env = .error (.invalidValue name text) ↔
      FirstFault env (numbers.map Prod.fst) name text) ∧
    (fromEnvironment env = .error .zeroBurst ↔
      (∀ v ∈ numbers, ∀ text, ¬ FaultyAt env v.1 text) ∧
        ∃ text, SetTo env "REQUEST_BURST" text ∧ Denotes text 0) := by
  have sound_iff (name : String) : (∀ text, ¬ FaultyAt env name text) ↔
      env name = none ∨ ∃ text n, SetTo env name text ∧ Denotes text n := by
    constructor
    · intro sound
      rcases unset_or_denotes_or_faultyAt env name with unset | denotes | ⟨text, fault⟩
      · rcases eq_none_or_unreadable unset with unset | ⟨o, set, unreadable⟩
        · exact .inl unset
        · exact absurd unreadable (utf8 name o set)
      · exact .inr denotes
      · exact absurd fault (sound text)
    · rintro (unset | ⟨text', n, set', denotes⟩) text ⟨set, fault⟩
      · cases set.symm.trans unset
      · obtain rfl : text = text' :=
          Option.some.inj ((textOf_eq_some_iff.mpr set).symm.trans (textOf_eq_some_iff.mpr set'))
        exact fault n denotes
  have filled_iff : (∃ s, FilledFrom env s) ↔ ∀ v ∈ numbers, ∀ text, ¬ FaultyAt env v.1 text := by
    rw [exists_filledFrom_iff, List.forall_mem_map]
  refine ⟨?_, ?_, fun name text => fromEnvironment_reports_iff, ?_⟩
  · simp only [← sound_iff, ← filled_iff, fromEnvironment_eq_ok_iff]
    constructor
    · rintro ⟨s, filled, some⟩
      exact ⟨⟨s, filled⟩, fun zero => some (filled.requestBurst_eq_zero_iff.mpr zero)⟩
    · rintro ⟨⟨s, filled⟩, some⟩
      exact ⟨s, filled, fun zero => some (filled.requestBurst_eq_zero_iff.mp zero)⟩
  · intro s read
    exact (fromEnvironment_eq_ok_iff.mp read).1.readFrom
  · rw [fromEnvironment_eq_zeroBurst_iff, ← filled_iff]
    constructor
    · rintro ⟨s, filled, zero⟩
      exact ⟨⟨s, filled⟩, filled.requestBurst_eq_zero_iff.mp zero⟩
    · rintro ⟨⟨s, filled⟩, zero⟩
      exact ⟨s, filled, filled.requestBurst_eq_zero_iff.mpr zero⟩

/-- An interval between blanks with a sign and leading zeros, a burst of zero, then a number one too
large before one that is negative: the third is reported. -/
theorem fromEnvironment_exact_of_three_faults :
    let env : Environment := fun name =>
      if name = "REQUEST_INTERVAL_MS" then some (octets "\u3000+0007\t")
      else if name = "REQUEST_BURST" then some (octets "0")
      else if name = "INFO_EXPIRE_SECS" then some (octets " 18446744073709551616")
      else if name = "DIRECTORY_TIMEOUT_SECS" then some (octets "-1")
      else none
    (∀ name o, env name = some o → o.text? ≠ none) ∧
      FirstFault env (numbers.map Prod.fst) "INFO_EXPIRE_SECS" " 18446744073709551616" := by
  intro env
  have utf8 : ∀ name o, env name = some o → o.text? ≠ none := by
    intro name o set
    dsimp only [env] at set
    split_ifs at set
    all_goals
      obtain rfl := Option.some.inj set
      rw [Octets.text?_octets]
      exact Option.some_ne_none _
  have reported : fromEnvironment env =
      .error (.invalidValue "INFO_EXPIRE_SECS" " 18446744073709551616") := by
    decide +kernel
  exact ⟨utf8, ((fromEnvironment_exact env utf8).2.2.1 _ _).mp reported⟩

/-- A number has its default only when its variable is not set or denotes the default, and a
variable that is set to anything else than a number is reported, or one before it. -/
structure NeverDefaulted (env : Environment) : Prop where
  kept : ∀ s, fromEnvironment env = .ok s → ∀ v ∈ numbers, v.2 s = v.2 {} →
    env v.1 = none ∨ ∃ text, SetTo env v.1 text ∧ Denotes text (v.2 s)
  reported : ∀ before v after, numbers = before ++ v :: after →
    (∃ o, env v.1 = some o ∧ ∀ text n, octets text = o → ¬ Denotes text n) →
    ∃ u ∈ before ++ [v], ∃ text, fromEnvironment env = .error (.invalidValue u.1 text)

theorem reported_of_faultyAt {env : Environment} {before after : List (String × (Settings → Nat))}
    (cut : numbers = before ++ after) (fault : ∃ v ∈ before, ∃ text, FaultyAt env v.1 text) :
    ∃ u ∈ before, ∃ text, fromEnvironment env = .error (.invalidValue u.1 text) := by
  obtain ⟨v, hv, text, fault⟩ := fault
  obtain ⟨name, text, first⟩ : ∃ name text, FirstFault env (before.map Prod.fst) name text :=
    exists_firstFault ⟨v.1, List.mem_map_of_mem hv, text, fault⟩
  obtain ⟨u, hu, rfl⟩ := List.mem_map.mp first.mem
  refine ⟨u, hu, text, fromEnvironment_reports_iff.mpr ?_⟩
  rw [cut, List.map_append]
  exact first.append _

theorem octets_ne_of_unreadable {o : Octets} (unreadable : o.text? = none) (text : String) :
    octets text ≠ o := by
  rintro rfl
  rw [Octets.text?_octets] at unreadable
  cases unreadable

/-- No variable is passed over exactly when each that is not UTF-8 stands behind one that is at
fault. -/
theorem neverDefaulted_iff (env : Environment) : NeverDefaulted env ↔
    ∀ before v after, numbers = before ++ v :: after → ∀ o, env v.1 = some o → o.text? = none →
      ∃ u ∈ before, ∃ text, FaultyAt env u.1 text := by
  constructor
  · intro never before v after cut o set unreadable
    have nothing := octets_ne_of_unreadable unreadable
    obtain ⟨u, hu, text, reported⟩ := never.reported before v after cut
      ⟨o, set, fun text n same => absurd same (nothing text)⟩
    obtain ⟨-, -, -, -, fault⟩ := fromEnvironment_reports_iff.mp reported
    rcases List.mem_append.mp hu with hu | hu
    · exact ⟨u, hu, text, fault⟩
    · obtain rfl := List.mem_singleton.mp hu
      exact absurd (Option.some.inj (fault.1.symm.trans set)) (nothing text)
  · intro behind
    refine ⟨fun s read v hv same => ?_, fun before v after cut senseless => ?_⟩
    · obtain ⟨filled, -⟩ := fromEnvironment_eq_ok_iff.mp read
      have sound := exists_filledFrom_iff.mp ⟨s, filled⟩
      rw [List.forall_mem_map] at sound
      obtain ⟨unset, -⟩ | denoted := naturalOf_eq_ok_iff.mp (filled.numbers v hv)
      · rcases eq_none_or_unreadable unset with unset | ⟨o, set, unreadable⟩
        · exact .inl unset
        · obtain ⟨before, after, cut⟩ := List.append_of_mem hv
          obtain ⟨u, hu, text, fault⟩ := behind before v after cut o set unreadable
          have earlier : u ∈ numbers := cut ▸ List.mem_append_left _ hu
          exact absurd fault (sound u earlier text)
      · exact .inr denoted
    · obtain ⟨o, set, senseless⟩ := senseless
      have fault : ∃ u ∈ before ++ [v], ∃ text, FaultyAt env u.1 text := by
        cases spelled : o.text? with
        | none =>
          obtain ⟨u, hu, fault⟩ := behind before v after cut o set spelled
          exact ⟨u, List.mem_append_left _ hu, fault⟩
        | some text =>
          have same := Octets.octets_of_text? spelled
          refine ⟨v, List.mem_append_right _ List.mem_cons_self, text, ?_, ?_⟩
          · rw [SetTo, set, same]
          · exact fun n => senseless text n same
      exact reported_of_faultyAt (cut.trans (List.append_cons _ _ _)) fault

theorem unreadable_burst_defaulted :
    let env : Environment := fun name => if name = "REQUEST_BURST" then some [0xFF] else none
    fromEnvironment env = .ok {} ∧ ¬ NeverDefaulted env := by
  intro env
  have read : fromEnvironment env = .ok {} := by
    decide +kernel
  have nothing := octets_ne_of_unreadable (o := [0xFF]) (by decide +kernel)
  refine ⟨read, fun never => ?_⟩
  obtain ⟨u, -, text, reported⟩ := never.reported [("REQUEST_INTERVAL_MS", requestIntervalMs)]
    ("REQUEST_BURST", requestBurst) _ rfl ⟨_, rfl, fun text n same => absurd same (nothing text)⟩
  rw [read] at reported
  cases reported

end GatewayEnrichment.Settings
