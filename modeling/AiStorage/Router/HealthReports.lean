import AiStorage.Router.Lifecycle

/-!
# Health reports under drain and undrain

The control plane reports the health of a worker in the configuration and in every replacement
that names it. The handler keeps no copy of the report: draining and undraining write the
fields that carry it. Here the runs of the proxy are followed together with the reports.
-/
namespace AiStorage.Router
open Lib

/-! ### What a report implies -/

/-- The report gives a bad health or a bad readiness. -/
def BadReport (report : WorkerState) : Prop :=
  report.health = workerUnhealthy ∨ report.readinessState = readinessUnhealthy ∨
    report.readinessState = readinessNotReady

instance (report : WorkerState) : Decidable (BadReport report) :=
  inferInstanceAs (Decidable (_ ∨ _))

/-- What `normalizeWorkerDefaults` makes of the report can be routed to. -/
def impliesRoutable (report : WorkerState) : Bool := (fillDraining (fillReadiness report)).routable

theorem BadReport.not_implied {report : WorkerState} (bad : BadReport report) :
    impliesRoutable report = false := by
  have filled : BadReport (fillReadiness report) := by
    rcases bad with health | readiness | readiness
    · left
      rw [fillReadiness, health]
      rfl
    · right
      left
      rw [fillReadiness, readiness]
      rfl
    · right
      right
      rw [fillReadiness, readiness]
      rfl
  rw [impliesRoutable, fillDraining]
  split_ifs with draining
  · rfl
  · rw [WorkerState.routable]
    split_ifs with out ready
    · rfl
    · rcases filled with health | readiness | readiness
      · rw [health] at out
        simp at out
      · rw [readiness] at ready
        exact absurd ready (by decide)
      · rw [readiness] at ready
        exact absurd ready (by decide)
    · rfl

def Prepared (report worker : WorkerState) : Prop :=
  ∃ entry time, worker = { normalizeWorkerDefaults report entry with lastUpdated := time }

theorem Prepared.id {report worker : WorkerState} (prepared : Prepared report worker) :
    worker.id = report.id := by
  obtain ⟨entry, time, rfl⟩ := prepared
  exact (normalizeWorkerDefaults_kept report entry).1

theorem Prepared.routable {report worker : WorkerState} (prepared : Prepared report worker) :
    worker.routable = impliesRoutable report := by
  obtain ⟨entry, time, rfl⟩ := prepared
  rfl

/-- Every report has its worker among the registered ones. -/
def PreparedFrom (reports workers : List WorkerState) : Prop :=
  ∀ report ∈ reports, ∃ worker ∈ workers, Prepared report worker

theorem PreparedFrom.covered {reports workers : List WorkerState}
    (prepared : PreparedFrom reports workers) :
    ∀ report ∈ reports, ∃ worker ∈ workers, worker.id = report.id := by
  intro report member
  obtain ⟨worker, inside, from_report⟩ := prepared report member
  exact ⟨worker, inside, from_report.id⟩

theorem prepareWorkers_prepared {lib : GoLib} {entry : Topology} {now : Nat → Time}
    {submitted : List WorkerState} : ∀ {seen : List WorkerID} {prepared : List WorkerState},
    prepareWorkers lib entry now seen submitted = .ok prepared →
      PreparedFrom submitted prepared := by
  induction submitted with
  | nil =>
    intro seen prepared _ report member
    cases member
  | cons worker rest later =>
    intro seen prepared ok report member
    obtain ⟨others, tail, rfl, -⟩ := prepareWorkers_cons ok
    rcases List.mem_cons.mp member with rfl | inRest
    · exact ⟨_, List.mem_cons_self, entry, _, rfl⟩
    · obtain ⟨found, inside, prepared⟩ := later tail report inRest
      exact ⟨found, List.mem_cons_of_mem _ inside, prepared⟩

theorem applyDefaults_prepared (cfg : Config) (now : Nat → Time) :
    PreparedFrom cfg.workers (cfg.applyDefaults now).workers := by
  intro report member
  obtain ⟨i, inside, rfl⟩ := List.mem_iff_getElem.mp member
  refine ⟨_, List.mem_mapIdx.mpr ⟨i, inside, rfl⟩, _, _, rfl⟩

/-! ### The proxy with its reports -/

/-- The proxy and the reports of its configuration or last accepted replacement. -/
structure Audited where
  proxy : Proxy
  reports : List WorkerState

namespace Audited

def newReports (lib : GoLib) (s : Proxy) : Step → Option (List WorkerState)
  | .replace workers now =>
    match s.retiring, (s.handler.handleReplaceWorkers lib workers now).1 with
    | none, .updatedWorkers _ => some workers
    | _, _ => none
  | _ => none

def step (lib : GoLib) (s : Audited) (action : Step) : Audited where
  proxy := s.proxy.step lib action
  reports := (newReports lib s.proxy action).getD s.reports

def boot (lib : GoLib) (cfg : Config) (now : Nat → Time) : Except String Audited := do
  let proxy ← Proxy.boot lib cfg now
  pure { proxy := proxy, reports := cfg.workers }

/-- No worker with a bad report is routable. -/
def Respects (s : Audited) : Prop :=
  ∀ report ∈ s.reports, BadReport report → s.proxy.routable report.id = false

/-- The action undrains no worker with a bad report. -/
def Careful (s : Audited) (action : Step) : Prop :=
  ∀ report ∈ s.reports, ∀ now, action = .undrain report.id now → s.proxy.retiring = none →
    ¬ BadReport report

/-- Every report has a registered worker. -/
structure Follows (s : Audited) : Prop where
  safe : Proxy.Safe s.proxy
  covered : ∀ report ∈ s.reports, ∃ worker ∈ s.proxy.handler.workers, worker.id = report.id

section Step

variable {lib : GoLib} {s : Audited}

theorem registered_of_mem {s : Proxy} (safe : Proxy.Safe s) {worker : WorkerState}
    (member : worker ∈ s.handler.workers) : s.registered worker.id = some worker := by
  have some : (s.registered worker.id).isSome := Proxy.registered_isSome.mpr ⟨worker, member, rfl⟩
  obtain ⟨found, same⟩ := Option.isSome_iff_exists.mp some
  have named : found.id = worker.id := by simpa using List.find?_some same
  have inList := List.mem_of_find?_eq_some same
  rw [same, List.inj_on_of_nodup_map safe.checked.distinct inList member named]

theorem routable_of_mem {s : Proxy} (safe : Proxy.Safe s) {worker : WorkerState}
    (member : worker ∈ s.handler.workers) : s.routable worker.id = worker.routable := by
  rw [Proxy.routable, registered_of_mem safe member]

theorem respects_of_prepared {s : Proxy} (safe : Proxy.Safe s) {reports : List WorkerState}
    (prepared : PreparedFrom reports s.handler.workers) {report : WorkerState}
    (member : report ∈ reports) (bad : BadReport report) : s.routable report.id = false := by
  obtain ⟨worker, inside, from_report⟩ := prepared report member
  rw [← from_report.id, routable_of_mem safe inside, from_report.routable, bad.not_implied]

theorem handleReplaceWorkers_prepared {h h' : Handler} {submitted : List WorkerState}
    {now : Nat → Time} {count : Nat} {retired : List WorkerID}
    (accepted : h.handleReplaceWorkers lib submitted now = (.updatedWorkers count, h', retired)) :
    PreparedFrom submitted h'.workers := by
  unfold Handler.handleReplaceWorkers at accepted
  cases prepared : prepareWorkers lib h.entryTopology now [] submitted with
  | error message =>
    simp only [prepared] at accepted
    split_ifs at accepted
    · simp at accepted
    · simp at accepted
  | ok workers =>
    simp only [prepared] at accepted
    split_ifs at accepted
    · simp at accepted
    · simp at accepted
    · obtain ⟨-, rfl, -⟩ := by simpa only [Prod.mk.injEq] using accepted
      exact prepareWorkers_prepared prepared

theorem replace_cases (lib : GoLib) (s : Proxy) (submitted : List WorkerState) (now : Nat → Time) :
    newReports lib s (.replace submitted now) = none ∧ s.step lib (.replace submitted now) = s ∨
      newReports lib s (.replace submitted now) = some submitted ∧
        PreparedFrom submitted (s.step lib (.replace submitted now)).handler.workers := by
  rw [newReports, Proxy.step]
  cases s.retiring with
  | some pending => exact .inl ⟨rfl, rfl⟩
  | none =>
    cases result : s.handler.handleReplaceWorkers lib submitted now with
    | mk reply after =>
      cases reply with
      | updatedWorkers count => exact .inr ⟨rfl, handleReplaceWorkers_prepared result⟩
      | text _ _ | worker _ | blockedWorkers _ => exact .inl ⟨rfl, rfl⟩

theorem workers_step {s : Proxy} (safe : Proxy.Safe s) (lib : GoLib) (action : Step)
    (other : ∀ submitted now, action ≠ .replace submitted now) :
    (s.step lib action).handler.workers = s.handler.workers ∨
      ∃ id drain now, action = (if drain then .drain id now else .undrain id now) ∧
        s.retiring = none ∧
        (s.step lib action).handler.workers = s.handler.workers.map (drainOne id drain now) := by
  cases Proxy.step_change lib s action with
  | quiet workers | granted _ _ _ _ _ _ _ workers | released _ workers => exact .inl workers
  | replaced submitted now asked => exact absurd asked (other submitted now)
  | drained id drain now asked workers =>
    cases lock : s.retiring with
    | none =>
      right
      rw [handleWorkerDrain_workers safe.checked.distinct] at workers
      exact ⟨id, drain, now, asked, rfl, workers⟩
    | some pending =>
      left
      have stays : s.step lib action = s := by
        rw [asked]
        cases drain with
        | false | true => simp [Proxy.step, lock]
      rw [stays]

theorem newReports_other {s : Proxy} {action : Step}
    (other : ∀ submitted now, action ≠ .replace submitted now) :
    newReports lib s action = none := by
  cases action with
  | replace submitted now => exact absurd rfl (other submitted now)
  | _ => rfl

theorem replace_or_other (action : Step) :
    (∃ submitted now, action = .replace submitted now) ∨
      ∀ submitted now, action ≠ .replace submitted now := by
  by_cases replacement : ∃ submitted now, action = .replace submitted now
  · exact .inl replacement
  · exact .inr fun submitted now same => replacement ⟨submitted, now, same⟩

theorem Follows.step (follows : Follows s) (action : Step) : Follows (s.step lib action) where
  safe := follows.safe.step lib action
  covered := by
    rw [Audited.step]
    rcases replace_or_other action with ⟨submitted, now, rfl⟩ | other
    · rcases replace_cases lib s.proxy submitted now with ⟨refused, stays⟩ | ⟨accepted, prepared⟩
      · rw [refused, stays]
        exact follows.covered
      · rw [accepted]
        exact prepared.covered
    · rw [newReports_other other]
      intro report member
      obtain ⟨worker, inside, same⟩ := follows.covered report member
      rcases workers_step follows.safe lib action other with kept | ⟨id, drain, now, -, -, drained⟩
      · exact ⟨worker, kept ▸ inside, same⟩
      · refine ⟨drainOne id drain now worker, ?_, ?_⟩
        · rw [drained]
          exact List.mem_map_of_mem inside
        · rw [(drainOne_kept id drain now worker).1, same]

theorem Follows.respects_step (follows : Follows s) (respects : Respects s) {action : Step}
    (careful : Careful s action) : Respects (s.step lib action) := by
  intro report member bad
  have safe : Proxy.Safe (s.proxy.step lib action) := follows.safe.step lib action
  rw [Audited.step] at member ⊢
  rcases replace_or_other action with ⟨submitted, now, rfl⟩ | other
  · rcases replace_cases lib s.proxy submitted now with ⟨refused, stays⟩ | ⟨accepted, prepared⟩
    · rw [refused] at member
      rw [stays]
      exact respects report member bad
    · rw [accepted] at member
      exact respects_of_prepared safe prepared member bad
  · rw [newReports_other other] at member
    have before := respects report member bad
    obtain ⟨worker, inside, same⟩ := follows.covered report member
    rw [← same, routable_of_mem follows.safe inside] at before
    rcases workers_step follows.safe lib action other with
      kept | ⟨id, drain, now, asked, free, drained⟩
    · rw [← same, routable_of_mem safe (kept ▸ inside), before]
    · have after : drainOne id drain now worker ∈ (s.proxy.step lib action).handler.workers := by
        rw [drained]
        exact List.mem_map_of_mem inside
      rw [← same, ← (drainOne_kept id drain now worker).1, routable_of_mem safe after, drainOne]
      split_ifs with hit
      · cases drain with
        | true => exact Proxy.not_routable_setDraining now worker
        | false =>
          rw [← hit, same] at asked
          exact absurd bad (careful report member now asked free)
      · exact before

/-- An undrain makes the worker routable, whatever was reported. -/
theorem Follows.routable_undrain (follows : Follows s) {report : WorkerState}
    (member : report ∈ s.reports) (free : s.proxy.retiring = none) (now : Time) :
    ((s.step lib (.undrain report.id now)).proxy).routable report.id = true := by
  obtain ⟨worker, inside, same⟩ := follows.covered report member
  have safe := follows.safe.step lib (.undrain report.id now)
  have workers : (s.proxy.step lib (.undrain report.id now)).handler.workers =
      s.proxy.handler.workers.map (drainOne report.id false now) := by
    simp only [Proxy.step, free, handleWorkerDrain_workers follows.safe.checked.distinct]
  have after : drainOne report.id false now worker ∈
      (s.proxy.step lib (.undrain report.id now)).handler.workers := by
    rw [workers]
    exact List.mem_map_of_mem inside
  have routable := routable_of_mem safe after
  rw [(drainOne_kept report.id false now worker).1, same, drainOne, if_pos same] at routable
  exact routable

end Step

/-! ### Whole runs -/

theorem follows_boot {lib : GoLib} {cfg : Config} {now : Nat → Time} {s : Audited}
    (start : boot lib cfg now = .ok s) : Follows s ∧ Respects s := by
  cases made : Proxy.boot lib cfg now with
  | error message =>
    simp only [boot, made, bind, Except.bind] at start
    cases start
  | ok proxy =>
    simp only [boot, made, bind, Except.bind, pure, Except.pure] at start
    cases start
    have safe := Proxy.safe_boot made
    have prepared : PreparedFrom cfg.workers proxy.handler.workers := by
      have workers : proxy.handler.workers = (cfg.applyDefaults now).workers := by
        simp only [Proxy.boot, newHandler, bind, Except.bind, pure, Except.pure] at made
        cases valid : (cfg.applyDefaults now).validate lib with
        | error message =>
          rw [valid] at made
          cases made
        | ok =>
          rw [valid] at made
          cases made
          rfl
      rw [workers]
      exact applyDefaults_prepared cfg now
    exact ⟨⟨safe, prepared.covered⟩, fun _ => respects_of_prepared safe prepared⟩

theorem respects_of_careful {lib : GoLib} {s : Audited} (follows : Follows s)
    (respects : Respects s) {schedule : List Step} (careful : Along (step lib) Careful s schedule) :
    Follows (run (step lib) s schedule) ∧ Respects (run (step lib) s schedule) := by
  apply careful.invariant (fun t => Follows t ∧ Respects t) _ ⟨follows, respects⟩
  intro t action invariant here
  exact ⟨invariant.1.step action, invariant.1.respects_step invariant.2 here⟩

theorem careful_of_respects {lib : GoLib} (schedule : List Step) :
    ∀ s : Audited, Follows s → (∀ k, Respects (run (step lib) s (schedule.take k))) →
      Along (step lib) Careful s schedule := by
  induction schedule with
  | nil =>
    intro s _ _
    trivial
  | cons action rest later =>
    intro s follows respects
    constructor
    · intro report member now asked free bad
      -- right after the undrain the worker would be routable against its report
      subst asked
      have after := respects 1 report member bad
      rw [List.take_succ_cons, List.take_zero, run_cons, run_nil,
        follows.routable_undrain member free now] at after
      cases after
    · exact later (step lib s action) (follows.step action) fun k => respects (k + 1)

/-- In a run from a checked configuration no badly reported worker is ever routable,
exactly when none is undrained; and draining and undraining a worker restores what its
report implies exactly when the report implies that it is routable. -/
theorem health_reports_respected_iff (lib : GoLib) (cfg : Config) (now : Nat → Time)
    (booted : Audited) (start : boot lib cfg now = .ok booted) (schedule : List Step) :
    ((∀ k, Respects (run (step lib) booted (schedule.take k))) ↔
      Along (step lib) Careful booted schedule) ∧
    ∀ s, s = run (step lib) booted schedule → s.proxy.retiring = none →
      ∀ report ∈ s.reports, ∀ drained undrained,
        (run (step lib) s [.drain report.id drained, .undrain report.id undrained]).proxy.routable
            report.id = impliesRoutable report ↔
          impliesRoutable report = true := by
  obtain ⟨follows, respects⟩ := follows_boot start
  constructor
  · constructor
    · exact careful_of_respects schedule booted follows
    · intro careful k
      rw [← List.take_append_drop k schedule] at careful
      exact (respects_of_careful follows respects careful.of_append).2
  · rintro s rfl free report member drained undrained
    have here : Follows (run (step lib) booted schedule) :=
      run_invariant Follows (fun t action inv => inv.step action) follows schedule
    have unlocked : ((step lib (run (step lib) booted schedule)
        (.drain report.id drained)).proxy).retiring = none := by
      simp only [step, Proxy.step, free]
    rw [run_cons, run_cons, run_nil,
      (here.step (.drain report.id drained)).routable_undrain member unlocked undrained]
    exact eq_comm

/-! ### A worker that is undrained against its report -/

def unhealthyConfig : Config where
  workers := [{ id := "w", url := "http://127.0.0.1:9000", health := workerUnhealthy }]

def mixedConfig : Config where
  workers := { id := "v", url := "http://127.0.0.1:9000" } :: unhealthyConfig.workers

/-- While only the first worker is drained and undrained, the report of the other is respected. -/
theorem health_reports_respected_mixed : ∃ booted,
    boot sampleLib mixedConfig (fun _ => 1) = .ok booted ∧
    (∃ report ∈ (run (step sampleLib) booted [.drain "v" 2, .undrain "v" 3]).reports,
      BadReport report) ∧
    Respects (run (step sampleLib) booted [.drain "v" 2, .undrain "v" 3]) := by
  obtain ⟨booted, start⟩ : ∃ booted, boot sampleLib mixedConfig (fun _ => 1) = .ok booted := ⟨_, rfl⟩
  have reports : booted.reports = mixedConfig.workers := by
    cases start
    rfl
  have careful : ∀ report ∈ mixedConfig.workers, "v" = report.id → ¬ BadReport report := by decide
  refine ⟨booted, start, ?_, (health_reports_respected_iff sampleLib mixedConfig (fun _ => 1) booted
    start [.drain "v" 2, .undrain "v" 3]).1.mpr ⟨?_, ?_, trivial⟩ 2⟩
  · cases start
    decide
  · intro report _ now wrong
    cases wrong
  · intro report member now asked _
    cases start
    exact careful report member (Step.undrain.inj asked).1

/-- The worker is routable after the undrain, and its report is still the bad one. -/
theorem undrain_overrides_report :
    (boot sampleLib unhealthyConfig (fun _ => 1)).toOption.map (fun booted =>
      let s := run (step sampleLib) booted [.undrain "w" 2]
      (booted.proxy.routable "w", s.proxy.routable "w", s.reports.map fun report =>
        (report.id, decide (BadReport report)))) =
      some (false, true, [("w", true)]) := by
  decide

end Audited

end AiStorage.Router
