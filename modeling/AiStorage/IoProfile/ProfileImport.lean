import AiStorage.IoProfile.Accesses
import AiStorage.IoProfile.Percentiles
import AiStorage.KV.CostModel
import AiStorage.Lib.Lists
import AiStorage.Lib.Path
import Mathlib.Data.List.Dedup
import Mathlib.Data.Prod.Lex

/-!
# From benchmark rows to the profile of a tier

`generate_tier_profile` of `tier_profile.py` summarises groups of measured rows, and
`import_profiles_from_tier_profile` of `tier_profile_import.py` picks the group that the cost
model uses for NVMe. Numbers are exact rationals. The JSON between the two is left out.
-/
namespace AiStorage.IoProfile
open Lib

/-- The columns of a benchmark row that the generator reads, with the numbers as the
benchmark measures them. A missing text is empty. -/
structure Row where
  engine : Text
  op : Op
  cachePolicy : Text
  threads : Text
  warmup : Text
  error : Text
  latencyUs : ℚ
  bandwidthMBps : ℚ
  cpuUserUs : ℚ
  cpuSystemUs : ℚ
  latency_nonneg : 0 ≤ latencyUs
  bandwidth_nonneg : 0 ≤ bandwidthMBps
  cpu_nonneg : 0 ≤ cpuUserUs ∧ 0 ≤ cpuSystemUs

inductive Mode where
  | p50 | p95 | p99
  deriving DecidableEq

structure Entry where
  available : Bool
  measurementCount : ℕ
  p50Ms : ℚ
  p95Ms : ℚ
  p99Ms : ℚ
  selectedProfileMode : Mode
  selectedLatencyMs : ℚ
  bandwidthMBps : ℚ
  bandwidthGBps : ℚ
  cpuUsPerOp : ℚ
  pageCachePolicy : Text
  threads : Int

/-! ### The generator -/

namespace TierProfile

def cachePolicy (row : Row) : Text :=
  if row.cachePolicy ≠ [] then row.cachePolicy
  else if row.engine = text "odirect" then text "direct"
  else text "warm"

def threads (row : Row) : Int :=
  let raw := if row.threads = [] then text "1" else row.threads
  match pyInt raw with
  | some n => max 1 n
  | none => 1

def profileName (engine cachePolicy : Text) (threads : Int) : Text :=
  let suffix := if threads = 1 then [] else text "_" ++ intText threads ++ text "t"
  if cachePolicy = text "warm" ∨ engine = text "odirect" ∧ cachePolicy = text "direct" then
    text "local_file_" ++ engine ++ suffix
  else text "local_file_" ++ engine ++ text "_" ++ cachePolicy ++ suffix

/-- What the rows are grouped by, in the order of Python's tuples. -/
abbrev Group := Text ×ₗ Text ×ₗ Int

def group (row : Row) : Group := toLex (row.engine, toLex (cachePolicy row, threads row))

def Group.name (g : Group) : Text :=
  profileName (ofLex g).1 (ofLex (ofLex g).2).1 (ofLex (ofLex g).2).2

def eligible (row : Row) : Bool := row.warmup = text "false" && row.error = []

def measured (rows : List Row) (g : Group) : List Row :=
  rows.filter fun row => group row = g && eligible row

def mean (values : List ℚ) : ℚ := if values = [] then 0 else values.sum / values.length

def entryOf (mode : Mode) (rows : List Row) (g : Group) : Entry :=
  let measured := measured rows g
  let latMs := measured.map fun row => row.latencyUs / 1000
  let bandwidths := measured.map Row.bandwidthMBps
  let cpuUs := measured.map fun row => row.cpuUserUs + row.cpuSystemUs
  let p50 := percentile latMs 50
  let p95 := percentile latMs 95
  let p99 := percentile latMs 99
  { available := measured ≠ []
    measurementCount := measured.length
    p50Ms := p50
    p95Ms := p95
    p99Ms := p99
    selectedProfileMode := mode
    selectedLatencyMs := match mode with
      | .p50 => p50
      | .p95 => p95
      | .p99 => p99
    bandwidthMBps := mean bandwidths
    bandwidthGBps := mean bandwidths / 1024
    cpuUsPerOp := mean cpuUs
    pageCachePolicy := (ofLex (ofLex g).2).1
    threads := (ofLex (ofLex g).2).2 }

def groups (rows : List Row) : List Group := (rows.map group).dedup.insertionSort (· ≤ ·)

/-- The `profiles` of `generate_tier_profile`; of groups with one name the last one stays. -/
def generate (mode : Mode) (rows : List Row) : Dict Text Entry :=
  (groups rows).foldl (fun profiles g => profiles.put g.name (entryOf mode rows g)) Table.empty

end TierProfile

/-! ### The import -/

namespace TierProfileImport

inductive Error where
  | schema
  | missingProfile
  | unavailable
  | bandwidth
  deriving DecidableEq

/-- `"minimum": 0` of each number of an entry. -/
def schemaAccepts (entry : Entry) : Bool :=
  0 ≤ entry.p50Ms && 0 ≤ entry.p95Ms && 0 ≤ entry.p99Ms && 0 ≤ entry.selectedLatencyMs &&
    0 ≤ entry.bandwidthMBps && 0 ≤ entry.bandwidthGBps && 0 ≤ entry.cpuUsPerOp

def selectFirstAvailableProfile (profiles : Dict Text Entry) (names : List Text) : Option Entry :=
  (names.filterMap profiles.get).find? Entry.available

def selectFirstPresentProfile (profiles : Dict Text Entry) (names : List Text) : Option Entry :=
  (names.filterMap profiles.get).head?

def latencyMs (entry : Entry) : Mode → ℚ
  | .p50 => entry.p50Ms
  | .p95 => entry.p95Ms
  | .p99 => entry.p99Ms

def profileFromEntry (entry : Entry) (mode : Mode) : Except Error KV.TierProfile :=
  if entry.available = false then .error .unavailable
  else
    let bandwidth :=
      if entry.bandwidthMBps ≤ 0 then entry.bandwidthGBps * 1024 else entry.bandwidthMBps
    if bandwidth ≤ 0 then .error .bandwidth
    else .ok
      { fixedLatencyMs := latencyMs entry mode
        bandwidthGbps := bandwidth / 1024
        deserializeMsPerMb := 1 / 50
        h2dBandwidthGbps := 24 }

def defaultProfiles : KV.TierName → KV.TierProfile
  | .memory => ⟨1 / 50, 80, 1 / 200, 24⟩
  | .nvme => ⟨7 / 20, 5, 1 / 50, 24⟩
  | .s3 => ⟨25, 1, 3 / 100, 24⟩

def importProfiles (profiles : Dict Text Entry) (mode : Mode) (localFileProfile : Text) :
    Except Error (KV.TierName → KV.TierProfile) := do
  if !profiles.rows.all (fun row => schemaAccepts row.2) then throw .schema
  match selectFirstAvailableProfile profiles [localFileProfile, text "file_posix_default"] with
  | none => throw .missingProfile
  | some entry =>
    let nvme ← profileFromEntry entry mode
    let s3 ←
      match selectFirstPresentProfile profiles [text "object_s3", text "s3_http_default"] with
      | none => pure (defaultProfiles .s3)
      | some entry =>
        if entry.available then profileFromEntry entry mode else pure (defaultProfiles .s3)
    return fun
      | .memory => defaultProfiles .memory
      | .nvme => nvme
      | .s3 => s3

end TierProfileImport

open TierProfile TierProfileImport

/-- The profile that the cost model gets for NVMe; `none` when the import fails. -/
def loadProfile (generated imported : Mode) (localFileProfile : Text) (rows : List Row) :
    Option KV.TierProfile :=
  (importProfiles (generate generated rows) imported localFileProfile).toOption.map (· .nvme)

/-! ### What is generated is accepted -/

section Generated

variable {rows : List Row} {mode : Mode} {name : Text}

theorem mean_nonneg {values : List ℚ} (each : ∀ v ∈ values, 0 ≤ v) : 0 ≤ mean values := by
  rw [mean]
  split_ifs
  · exact le_rfl
  · exact div_nonneg (List.sum_nonneg each) (Nat.cast_nonneg _)

theorem percentile_nonneg {values : List ℚ} (each : ∀ v ∈ values, 0 ≤ v) (pct : ℕ)
    (positive : 0 < pct) (below : pct < 100) : 0 ≤ TierProfile.percentile values pct := by
  by_cases some : values = []
  · rw [some]
    exact le_rfl
  · rw [percentile_eq_readAt some positive below]
    calc 0 ≤ readAt values 0 := each _ (readAt_bounds some).1
      _ ≤ readAt values pct := readAt_monotone (Nat.zero_le pct)

theorem schemaAccepts_entryOf (mode : Mode) (rows : List Row) (g : Group) :
    schemaAccepts (entryOf mode rows g) = true := by
  have latencies : ∀ v ∈ (measured rows g).map (fun row => row.latencyUs / 1000), 0 ≤ v := by
    intro v member
    obtain ⟨row, -, rfl⟩ := List.mem_map.mp member
    exact div_nonneg row.latency_nonneg (by norm_num)
  have bandwidth : 0 ≤ mean ((measured rows g).map Row.bandwidthMBps) := by
    apply mean_nonneg
    intro v member
    obtain ⟨row, -, rfl⟩ := List.mem_map.mp member
    exact row.bandwidth_nonneg
  have cpu : 0 ≤ mean ((measured rows g).map fun row => row.cpuUserUs + row.cpuSystemUs) := by
    apply mean_nonneg
    intro v member
    obtain ⟨row, -, rfl⟩ := List.mem_map.mp member
    exact add_nonneg row.cpu_nonneg.1 row.cpu_nonneg.2
  have p50 := percentile_nonneg latencies 50 (by decide) (by decide)
  have p95 := percentile_nonneg latencies 95 (by decide) (by decide)
  have p99 := percentile_nonneg latencies 99 (by decide) (by decide)
  have gigabytes : 0 ≤ mean ((measured rows g).map Row.bandwidthMBps) / 1024 :=
    div_nonneg bandwidth (by norm_num)
  cases mode with
  | p50 | p95 | p99 => simp [schemaAccepts, entryOf, p50, p95, p99, bandwidth, gigabytes, cpu]

def lastGroup (rows : List Row) (name : Text) : Option Group :=
  ((groups rows).filter fun g => g.name = name).getLast?

theorem get_generate (mode : Mode) (rows : List Row) (name : Text) :
    (generate mode rows).get name = (lastGroup rows name).map (entryOf mode rows) :=
  Dict.get_foldl_put Group.name (entryOf mode rows) (groups rows) name

theorem generate_accepted (mode : Mode) (rows : List Row) :
    (generate mode rows).rows.all (fun row => schemaAccepts row.2) = true := by
  rw [List.all_eq_true]
  rintro ⟨name, entry⟩ member
  have found := Dict.get_eq_some_iff.mpr member
  rw [get_generate] at found
  obtain ⟨g, -, rfl⟩ := Option.map_eq_some_iff.mp found
  exact schemaAccepts_entryOf mode rows g

theorem head_name (g : Group) : g.name.head? = some (CodePoint.ofChar 'l') := by
  rw [Group.name, profileName]
  split_ifs <;> rfl

theorem get_generate_other (mode : Mode) (rows : List Row)
    (other : name.head? ≠ some (CodePoint.ofChar 'l')) : (generate mode rows).get name = none := by
  have none : (groups rows).filter (fun g => g.name = name) = [] := by
    rw [List.filter_eq_nil_iff]
    intro g _ same
    rw [← of_decide_eq_true same] at other
    exact other (head_name g)
  rw [get_generate, lastGroup, none]
  rfl

theorem loadProfile_eq (generated imported : Mode) (rows : List Row) (name : Text) :
    loadProfile generated imported name rows =
      ((lastGroup rows name).map (entryOf generated rows)).bind fun entry =>
        (profileFromEntry entry imported).toOption := by
  have posix : (generate generated rows).get (text "file_posix_default") = none :=
    get_generate_other generated rows (by decide)
  have object : (generate generated rows).get (text "object_s3") = none :=
    get_generate_other generated rows (by decide)
  have http : (generate generated rows).get (text "s3_http_default") = none :=
    get_generate_other generated rows (by decide)
  have noS3 : selectFirstPresentProfile (generate generated rows)
      [text "object_s3", text "s3_http_default"] = none := by
    simp [selectFirstPresentProfile, object, http]
  rw [← get_generate generated rows name, loadProfile, importProfiles, generate_accepted, noS3]
  cases found : (generate generated rows).get name with
  | none =>
    have missing : selectFirstAvailableProfile (generate generated rows)
        [name, text "file_posix_default"] = none := by
      simp [selectFirstAvailableProfile, found, posix]
    rw [missing]
    rfl
  | some entry =>
    cases available : entry.available with
    | false =>
      have missing : selectFirstAvailableProfile (generate generated rows)
          [name, text "file_posix_default"] = none := by
        simp [selectFirstAvailableProfile, found, posix, available]
      rw [missing, Option.bind_some, profileFromEntry, if_pos available]
      rfl
    | true =>
      have selected : selectFirstAvailableProfile (generate generated rows)
          [name, text "file_posix_default"] = some entry := by
        simp [selectFirstAvailableProfile, found, posix, available]
      rw [selected, Option.bind_some]
      cases profile : profileFromEntry entry imported with
      | error error | ok nvme =>
        simp only [profile]
        rfl

end Generated

/-! ### What the profile depends on -/

def Mode.pct : Mode → ℕ
  | p50 => 50
  | p95 => 95
  | p99 => 99

def summary (imported : Mode) (measured : List Row) : Option KV.TierProfile :=
  if mean (measured.map Row.bandwidthMBps) ≤ 0 then none
  else some
    { fixedLatencyMs := TierProfile.percentile (measured.map fun row => row.latencyUs / 1000)
        imported.pct
      bandwidthGbps := mean (measured.map Row.bandwidthMBps) / 1024
      deserializeMsPerMb := 1 / 50
      h2dBandwidthGbps := 24 }

section Summary

variable {rows : List Row} {name : Text}

theorem profileFromEntry_entryOf (generated imported : Mode) (rows : List Row) (g : Group) :
    (profileFromEntry (entryOf generated rows g) imported).toOption =
      summary imported (measured rows g) := by
  have latency : latencyMs (entryOf generated rows g) imported =
      TierProfile.percentile ((measured rows g).map fun row => row.latencyUs / 1000)
        imported.pct := by
    cases imported <;> rfl
  have megabytes : (entryOf generated rows g).bandwidthMBps =
      mean ((measured rows g).map Row.bandwidthMBps) := rfl
  have gigabytes : (entryOf generated rows g).bandwidthGBps * 1024 =
      mean ((measured rows g).map Row.bandwidthMBps) :=
    div_mul_cancel₀ _ (by norm_num)
  have available : (entryOf generated rows g).available = decide (measured rows g ≠ []) := rfl
  rw [profileFromEntry, summary, latency, megabytes, gigabytes, available, ite_self]
  by_cases none : measured rows g = []
  · simp [none, mean]
    rfl
  · rw [if_neg (by simpa using none)]
    by_cases low : mean ((measured rows g).map Row.bandwidthMBps) ≤ 0
    · simp only [if_pos low]
      rfl
    · simp only [if_neg low]
      rfl

theorem loadProfile_eq_summary (generated imported : Mode) (rows : List Row) (name : Text) :
    loadProfile generated imported name rows =
      (lastGroup rows name).bind fun g => summary imported (measured rows g) := by
  rw [loadProfile_eq, Option.bind_map]
  exact congrArg _ (funext fun g => profileFromEntry_entryOf generated imported rows g)

theorem summary_perm {measured other : List Row} (same : measured.Perm other) (imported : Mode) :
    summary imported measured = summary imported other := by
  have average : ∀ f : Row → ℚ, mean (measured.map f) = mean (other.map f) := by
    intro f
    have values := same.map f
    have empty : measured.map f = [] ↔ other.map f = [] := by
      rw [← List.length_eq_zero_iff, ← List.length_eq_zero_iff, values.length_eq]
    rw [mean, mean, values.sum_eq, values.length_eq]
    simp only [empty]
  rw [summary, summary, average, TierProfile.percentile_perm (same.map _)]

theorem lastGroup_eq_some {g : Group} : lastGroup rows name = some g ↔
    (∃ row ∈ rows, group row = g ∧ g.name = name) ∧
      ∀ row ∈ rows, (group row).name = name → group row ≤ g := by
  have listed : ∀ h : Group, h ∈ (rows.map group).dedup.filter (fun g => g.name = name) ↔
      (∃ row ∈ rows, group row = h) ∧ h.name = name := by
    intro h
    rw [List.mem_filter, List.mem_dedup, List.mem_map, decide_eq_true_eq]
  rw [lastGroup, groups, filter_insertionSort]
  constructor
  · intro last
    obtain ⟨member, greatest⟩ := rel_getLast?_insertionSort last
    obtain ⟨⟨row, inside, here⟩, named⟩ := (listed g).mp member
    refine ⟨⟨row, inside, here, named⟩, ?_⟩
    intro other there same
    exact greatest _ ((listed _).mpr ⟨⟨other, there, rfl⟩, same⟩)
  · rintro ⟨⟨row, inside, here, named⟩, greatest⟩
    apply getLast?_insertionSort ((listed g).mpr ⟨⟨row, inside, here⟩, named⟩)
    intro h member above
    obtain ⟨⟨other, there, rfl⟩, same⟩ := (listed h).mp member
    exact le_antisymm (greatest other there same) above

theorem lastGroup_eq_none :
    lastGroup rows name = none ↔ ∀ row ∈ rows, (group row).name ≠ name := by
  rw [lastGroup, List.getLast?_eq_none_iff, List.filter_eq_nil_iff]
  constructor
  · intro none row inside same
    apply none (group row)
    · rw [groups, List.mem_insertionSort, List.mem_dedup]
      exact List.mem_map_of_mem inside
    · exact decide_eq_true same
  · intro none g member same
    rw [groups, List.mem_insertionSort, List.mem_dedup, List.mem_map] at member
    obtain ⟨row, inside, rfl⟩ := member
    exact none row inside (of_decide_eq_true same)

end Summary

/-! ### Rows of writes -/

def others (rows : List Row) : List Row := rows.filter fun row => row.op ≠ .write

def SameButWrites (a b : List Row) : Prop := (others a).Perm (others b)

/-- A row that never shows in the profile of a name: it does not count towards it, and its
group takes the name from no other. -/
def Ignored (name : Text) (row : Row) : Prop :=
  (group row).name = name → eligible row = false ∧
    ∀ other : Row, (group other).name = name → group row ≤ group other

section Writes

variable {rows : List Row} {name : Text}

theorem mem_others {row : Row} : row ∈ others rows ↔ row ∈ rows ∧ row.op ≠ .write := by
  rw [others, List.mem_filter, decide_eq_true_eq]

theorem measured_others {g : Group}
    (ignored : ∀ row ∈ rows, row.op = .write → group row = g → eligible row = false) :
    measured (others rows) g = measured rows g := by
  rw [measured, others, List.filter_filter, measured]
  apply List.filter_congr
  intro row member
  by_cases write : row.op = .write
  · by_cases here : group row = g
    · simp [write, here, ignored row member write here]
    · simp [here]
  · simp [write]

/-- Ignored writes can be left out. -/
theorem loadProfile_others (ignored : ∀ row ∈ rows, row.op = .write → Ignored name row)
    (generated imported : Mode) :
    loadProfile generated imported name (others rows) =
      loadProfile generated imported name rows := by
  rw [loadProfile_eq_summary, loadProfile_eq_summary]
  cases last : lastGroup (others rows) name with
  | none =>
    have kept := lastGroup_eq_none.mp last
    cases whole : lastGroup rows name with
    | none => rfl
    | some g =>
      obtain ⟨⟨row, member, rfl, named⟩, -⟩ := lastGroup_eq_some.mp whole
      have nothing : measured rows (group row) = [] := by
        rw [measured, List.filter_eq_nil_iff]
        intro other inside counts
        simp only [Bool.and_eq_true, decide_eq_true_eq] at counts
        have same : (group other).name = name := counts.1 ▸ named
        have write : other.op = .write := by
          by_contra read
          exact kept other (mem_others.mpr ⟨inside, read⟩) same
        have none := (ignored other inside write same).1
        rw [counts.2] at none
        cases none
      rw [Option.bind_none, Option.bind_some, nothing]
      rfl
  | some g =>
    obtain ⟨⟨row, member, here, named⟩, greatest⟩ := lastGroup_eq_some.mp last
    have whole : lastGroup rows name = some g := by
      rw [lastGroup_eq_some]
      refine ⟨⟨row, (mem_others.mp member).1, here, named⟩, ?_⟩
      intro other inside same
      by_cases write : other.op = .write
      · rw [← here]
        exact (ignored other inside write same).2 row (here ▸ named)
      · exact greatest other (mem_others.mpr ⟨inside, write⟩) same
    rw [whole, Option.bind_some, Option.bind_some, measured_others]
    intro other inside write same
    exact (ignored other inside write (same ▸ named)).1

theorem loadProfile_perm {a b : List Row} (same : a.Perm b) (generated imported : Mode)
    (name : Text) :
    loadProfile generated imported name a = loadProfile generated imported name b := by
  have last : lastGroup a name = lastGroup b name := by
    ext g
    rw [lastGroup_eq_some, lastGroup_eq_some]
    simp only [same.mem_iff]
  rw [loadProfile_eq_summary, loadProfile_eq_summary, last]
  exact congrArg _ (funext fun g => summary_perm (same.filter _) imported)

def probe (row : Row) (bandwidth : ℚ) (nonneg : 0 ≤ bandwidth) : Row :=
  { row with
    op := .read
    warmup := text "false"
    error := []
    bandwidthMBps := bandwidth
    bandwidth_nonneg := nonneg }

theorem group_probe (row : Row) (bandwidth : ℚ) (nonneg : 0 ≤ bandwidth) :
    group (probe row bandwidth nonneg) = group row := rfl

theorem eligible_probe (row : Row) (bandwidth : ℚ) (nonneg : 0 ≤ bandwidth) :
    eligible (probe row bandwidth nonneg) = true := by
  simp [eligible, probe]

theorem measured_cons_of_counts {row : Row} (counts : eligible row = true) (rest : List Row) :
    measured (row :: rest) (group row) = row :: measured rest (group row) := by
  rw [measured, List.filter_cons_of_pos (by simp [counts]), measured]

theorem bandwidth_of_summary (imported : Mode) {rows : List Row}
    (positive : 0 < mean (rows.map Row.bandwidthMBps)) :
    (summary imported rows).map KV.TierProfile.bandwidthGbps =
      some (mean (rows.map Row.bandwidthMBps) / 1024) := by
  rw [summary, if_neg (not_le.mpr positive)]
  rfl

theorem lastGroup_singleton (row : Row) : lastGroup [row] (group row).name = some (group row) := by
  rw [lastGroup_eq_some]
  refine ⟨⟨row, List.mem_singleton_self row, rfl, rfl⟩, ?_⟩
  intro other member _
  rw [List.mem_singleton.mp member]

theorem bandwidth_of_probe (generated imported : Mode) (row : Row) {bandwidth : ℚ}
    (positive : 0 < bandwidth) :
    (loadProfile generated imported (group row).name [probe row bandwidth positive.le]).map
      KV.TierProfile.bandwidthGbps = some (bandwidth / 1024) := by
  have last := lastGroup_singleton (probe row bandwidth positive.le)
  have alone : measured [probe row bandwidth positive.le] (group row) =
      [probe row bandwidth positive.le] :=
    measured_cons_of_counts (eligible_probe row bandwidth positive.le) []
  have average : mean ([probe row bandwidth positive.le].map Row.bandwidthMBps) = bandwidth := by
    simp [mean, probe]
  rw [group_probe] at last
  rw [loadProfile_eq_summary, last, Option.bind_some, alone,
    bandwidth_of_summary imported (positive.trans_eq average.symm), average]

/-- A write that counts changes the bandwidth of a read in its group. -/
theorem write_changes_bandwidth {row : Row} (counts : eligible row = true)
    (generated imported : Mode) (positive : 0 < row.bandwidthMBps + 1) :
    loadProfile generated imported (group row).name
        [probe row (row.bandwidthMBps + 1) positive.le, row] ≠
      loadProfile generated imported (group row).name
        [probe row (row.bandwidthMBps + 1) positive.le] := by
  intro same
  have alone := bandwidth_of_probe generated imported row positive
  have last : lastGroup [probe row (row.bandwidthMBps + 1) positive.le, row] (group row).name =
      some (group row) := by
    rw [lastGroup_eq_some]
    refine ⟨⟨row, by simp, rfl, rfl⟩, ?_⟩
    intro other member _
    simp only [List.mem_cons, List.not_mem_nil, or_false] at member
    rcases member with rfl | rfl
    · exact le_of_eq (group_probe row _ _)
    · exact le_rfl
  have both : measured [probe row (row.bandwidthMBps + 1) positive.le, row] (group row) =
      [probe row (row.bandwidthMBps + 1) positive.le, row] := by
    have first := measured_cons_of_counts (eligible_probe row _ positive.le) [row]
    rw [group_probe, measured_cons_of_counts counts] at first
    exact first
  have average : mean ([probe row (row.bandwidthMBps + 1) positive.le, row].map
      Row.bandwidthMBps) = row.bandwidthMBps + 1 / 2 := by
    simp [mean, probe]
    ring
  have above : 0 < row.bandwidthMBps + 1 / 2 := by linarith [row.bandwidth_nonneg]
  rw [← same, loadProfile_eq_summary, last, Option.bind_some, both,
    bandwidth_of_summary imported (above.trans_eq average.symm), average,
    Option.some.injEq] at alone
  linarith

/-- A write that does not count hides a read whose group comes before its own. -/
theorem write_hides_group {row other : Row} (idle : eligible row = false)
    (named : (group other).name = (group row).name) (before : group other < group row)
    (generated imported : Mode) :
    loadProfile generated imported (group row).name [probe other 1 one_pos.le, row] ≠
      loadProfile generated imported (group row).name [probe other 1 one_pos.le] := by
  intro same
  have alone := bandwidth_of_probe generated imported other one_pos
  have last : lastGroup [probe other 1 one_pos.le, row] (group row).name = some (group row) := by
    rw [lastGroup_eq_some]
    refine ⟨⟨row, by simp, rfl, rfl⟩, ?_⟩
    intro third member _
    simp only [List.mem_cons, List.not_mem_nil, or_false] at member
    rcases member with rfl | rfl
    · exact (group_probe other _ _).trans_le before.le
    · exact le_rfl
  have nothing : measured [probe other 1 one_pos.le, row] (group row) = [] := by
    simp [measured, group_probe, before.ne, idle]
  rw [named, ← same, loadProfile_eq_summary, last, Option.bind_some, nothing] at alone
  cases alone

theorem sameButWrites_probe {row : Row} (write : row.op = .write) (other : Row) {bandwidth : ℚ}
    (nonneg : 0 ≤ bandwidth) :
    SameButWrites [probe other bandwidth nonneg, row] [probe other bandwidth nonneg] := by
  rw [SameButWrites, others, others]
  simp [probe, write]

/-- Files that differ only in allowed rows of writes give the same profile exactly when
each allowed row is ignored. -/
theorem load_profile_agrees_iff (name : Text) (allowed : Row → Prop) :
    (∀ (generated imported : Mode) (a b : List Row), SameButWrites a b →
      (∀ row ∈ a ++ b, row.op = .write → allowed row) →
      loadProfile generated imported name a = loadProfile generated imported name b) ↔
    ∀ row : Row, row.op = .write → allowed row → Ignored name row := by
  constructor
  · intro agrees row write permitted named
    have pair : ∀ r : Row, r.op ≠ .write →
        ∀ third ∈ [r, row] ++ [r], third.op = .write → allowed third := by
      intro r read third member isWrite
      simp only [List.cons_append, List.nil_append, List.mem_cons, List.not_mem_nil,
        or_false] at member
      rcases member with rfl | rfl | rfl
      · exact absurd isWrite read
      · exact permitted
      · exact absurd isWrite read
    subst named
    have idle : eligible row = false := by
      by_contra counts
      have positive : 0 < row.bandwidthMBps + 1 := by linarith [row.bandwidth_nonneg]
      exact write_changes_bandwidth (by simpa using counts) .p95 .p95 positive
        (agrees .p95 .p95 _ _ (sameButWrites_probe write row positive.le) (pair _ Op.noConfusion))
    refine ⟨idle, ?_⟩
    intro other named
    by_contra before
    exact write_hides_group idle named (not_le.mp before) .p95 .p95
      (agrees .p95 .p95 _ _ (sameButWrites_probe write other one_pos.le) (pair _ Op.noConfusion))
  · intro ignored generated imported a b same permitted
    have left : ∀ row ∈ a, row.op = .write → Ignored name row := fun row member write =>
      ignored row write (permitted row (List.mem_append_left b member) write)
    have right : ∀ row ∈ b, row.op = .write → Ignored name row := fun row member write =>
      ignored row write (permitted row (List.mem_append_right a member) write)
    calc loadProfile generated imported name a
        = loadProfile generated imported name (others a) :=
          (loadProfile_others left generated imported).symm
      _ = loadProfile generated imported name (others b) :=
          loadProfile_perm same generated imported name
      _ = loadProfile generated imported name b := loadProfile_others right generated imported

def preadWrite : Row where
  engine := text "pread"
  op := .write
  cachePolicy := text "warm"
  threads := text "1"
  warmup := text "false"
  error := []
  latencyUs := 900
  bandwidthMBps := 100
  cpuUserUs := 0
  cpuSystemUs := 0
  latency_nonneg := by norm_num
  bandwidth_nonneg := by norm_num
  cpu_nonneg := by norm_num

/-- One measured write changes the imported profile. -/
theorem write_row_changes_profile : ∃ a b : List Row, SameButWrites a b ∧
    loadProfile .p95 .p95 (text "local_file_pread") a ≠
      loadProfile .p95 .p95 (text "local_file_pread") b := by
  have positive : 0 < preadWrite.bandwidthMBps + 1 := by linarith [preadWrite.bandwidth_nonneg]
  have counts : eligible preadWrite = true := by decide
  have write : preadWrite.op = .write := rfl
  exact ⟨_, _, sameButWrites_probe write preadWrite positive.le,
    write_changes_bandwidth counts .p95 .p95 positive⟩

end Writes

end AiStorage.IoProfile
