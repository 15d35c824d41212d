import AiStorage.Router.CacheEvents
import AiStorage.Router.Picks

/-!
# The overlap of a decision

A scoring strategy counts over the index what the chosen worker has cached of the request. Here
the same is counted over the events that were applied until then.
-/
namespace AiStorage.Router

open Lib

/-- The blocks whose last effective event for the worker stored a location that is not expired. -/
def liveBlocks (ttl : Int) (history : History) (now : Time) (blocks : List BlockHash)
    (worker : WorkerID) : Nat :=
  blocks.countP fun block =>
    ((lastEffective history block worker).bind (recorded (Index.new ttl).ttl)).any fun loc =>
      loc.expiresAt > now

theorem overlap_replay (ttl : Int) {history : History} (positive : PositiveSequences history)
    (now : Time) (req : RequestContext) (worker : WorkerID) :
    IndexView.overlap ⟨replay ttl history, now⟩ req worker =
      liveBlocks ttl history now req.blockHashes worker := by
  apply List.countP_congr
  intro block _
  rw [(describes_replay ttl positive).places, replay_ttl ttl positive]
  cases (lastEffective history block worker).bind (recorded (Index.new ttl).ttl) <;> simp

theorem length_locations (view : IndexView) (req : RequestContext) (worker : WorkerID) :
    (view.locations req worker).length = view.overlap req worker := by
  unfold IndexView.locations IndexView.overlap Index.overlapByWorker
  rw [List.length_filterMap_eq_countP]
  apply List.countP_congr
  intro block _
  cases view.idx.location block worker <;> simp [Option.filter]

theorem reuse_counts {F : Type} [Arithmetic F] (locations : List BlockLocation) (reuse : Reuse F) :
    (locations.foldl Reuse.add reuse).localOverlap + (locations.foldl Reuse.add reuse).sharedOverlap =
      reuse.localOverlap + reuse.sharedOverlap + locations.length := by
  induction locations generalizing reuse with
  | nil => rfl
  | cons loc rest ih =>
    rw [List.foldl_cons, ih, List.length_cons]
    unfold Reuse.add
    split_ifs <;> dsimp only <;> omega

/-- Whatever the order of the scores: once one is above the start of the loop, the best candidate
is the score of the best worker. -/
theorem rank_bestCandidate {F : Type} [Arithmetic F] [DecidableLT F]
    (score : WorkerState → CandidateScore F) (first : WorkerState) (candidates : List WorkerState) :
    (rank score first candidates).bestScore = Arithmetic.lowest ∨
      (rank score first candidates).bestCandidate = score (rank score first candidates).best := by
  induction candidates using List.reverseRecOn with
  | nil => exact .inl rfl
  | append_singleton earlier worker ih =>
    rw [rank, List.foldl_append, ← rank, List.foldl_cons, List.foldl_nil, Standing.consider]
    split_ifs with more
    · exact .inr rfl
    · exact ih

/-- The overlap that a scoring strategy reports is the number of the request's blocks that are
live at the worker it sends the request to, after every history of events. The topology-aware
strategy takes it from the best candidate, which is none while every score is `-Inf` or `NaN`. -/
theorem decision_overlap_live (ttl : Int) (history : History) (positive : PositiveSequences history)
    (now : Time) :
    (∀ (t : TenantAwareBoundedLoad) (call : PickCall) (decision : RouteDecision Float64),
      call.view = ⟨replay ttl history, now⟩ → (t.pick call Float64).1 = .ok decision →
      decision.overlappedBlocks =
        liveBlocks ttl history now call.req.blockHashes decision.workerID) ∧
    (∀ (c : CostAware) (req : RequestContext) (workers : List WorkerState)
      (decision : RouteDecision Float64),
      c.pick req workers ⟨replay ttl history, now⟩ Float64 = .ok decision →
      decision.overlappedBlocks = liveBlocks ttl history now req.blockHashes decision.workerID) ∧
    ∀ (t : TopologyAwareCostAware) (req : RequestContext) (workers : List WorkerState)
      (decision : RouteDecision Float64),
      t.pick req workers ⟨replay ttl history, now⟩ Float64 = .ok decision →
      decision.estimatedScore ≠ Float64.infinite true →
      decision.overlappedBlocks = liveBlocks ttl history now req.blockHashes decision.workerID := by
  refine ⟨?_, ?_, ?_⟩
  · intro t call decision view picked
    rw [← overlap_replay ttl positive, ← view]
    unfold TenantAwareBoundedLoad.pick at picked
    cases split : healthy call.workers with
    | nil => simp [split] at picked
    | cons first rest =>
      simp only [split] at picked
      cases picked
      rfl
  · intro c req workers decision picked
    rw [← overlap_replay ttl positive]
    unfold CostAware.pick at picked
    cases split : healthy workers with
    | nil => simp [split] at picked
    | cons first rest =>
      simp only [split] at picked
      cases picked
      rfl
  · intro t req workers decision picked above
    rw [← overlap_replay ttl positive]
    unfold TopologyAwareCostAware.pick at picked
    cases split : healthy workers with
    | nil => simp [split] at picked
    | cons first rest =>
      simp only [split] at picked
      cases picked
      have own := (rank_bestCandidate _ _ _).resolve_left above
      simp only [own]
      exact (reuse_counts _ {}).trans ((Nat.zero_add _).trans (length_locations _ _ _))

def sampleCall : PickCall :=
  { plainCall [{ id := "w", url := "" }] with
    req := { blockHashes := ["b", "c"] }, view := ⟨replay 1 sampleHistory, 2⟩ }

theorem decision_overlap_live_sample :
    ∃ decision, TopologyAwareCostAware.pick {} sampleCall.req sampleCall.workers sampleCall.view
        Float64 = .ok decision ∧ decision.estimatedScore ≠ Float64.infinite true ∧
      decision.overlappedBlocks = liveBlocks 1 sampleHistory 2 ["b", "c"] decision.workerID := by
  have scored : ((TopologyAwareCostAware.pick {} sampleCall.req sampleCall.workers sampleCall.view
      Float64).toOption.map (·.estimatedScore)) ≠ some ↑(Float64.infinite true) := by decide +kernel
  obtain ⟨decision, picked⟩ : ∃ decision, TopologyAwareCostAware.pick {} sampleCall.req
      sampleCall.workers sampleCall.view Float64 = .ok decision := ⟨_, rfl⟩
  have above : decision.estimatedScore ≠ Float64.infinite true := by
    intro lowest
    rw [picked] at scored
    exact scored (congrArg some lowest)
  exact ⟨decision, picked, above,
    (decision_overlap_live 1 _ sampleHistory_positive 2).2.2 _ _ _ _ picked above⟩

end AiStorage.Router
