import AiStorage.Router.CacheIndex

/-!
# Cache events: what a history of calls means

The index is compared with a description of the same history that knows nothing
of maps or revision counters: the events of one worker that took effect since
its last `EvictWorker`. A history lists its calls newest first.
-/
namespace AiStorage.Router

inductive Call where
  | apply (event : Event) (clock : Clock)
  | evictWorker (worker : WorkerID)
  deriving DecidableEq

abbrev History := List Call

def Index.step (idx : Index) : Call → Index
  | .apply event clock => (idx.applyEvent clock event).2
  | .evictWorker worker => (idx.evictWorker worker).2

def replay (ttl : Int) : History → Index
  | [] => Index.new ttl
  | call :: earlier => (replay ttl earlier).step call

def consumed : History → String → Bool
  | [], _ => false
  | .evictWorker _ :: earlier, id => consumed earlier id
  | .apply event _ :: earlier, id =>
    match validateEvent event with
    | .ok valid => valid.eventID = id || consumed earlier id
    | .error _ => consumed earlier id

def maxSeq : List (Event × Clock) → Int
  | [] => 0
  | (event, _) :: rest => max event.seqNo (maxSeq rest)

/-- The validated events of the worker that took effect since its last
`EvictWorker`, newest first. -/
def effective : History → WorkerID → List (Event × Clock)
  | [], _ => []
  | .evictWorker retired :: earlier, worker =>
    if retired = worker then [] else effective earlier worker
  | .apply event clock :: earlier, worker =>
    match validateEvent event with
    | .error _ => effective earlier worker
    | .ok valid =>
      if valid.workerID = worker ∧ (valid.eventID = "" ∨ consumed earlier valid.eventID = false) ∧
          maxSeq (effective earlier worker) < valid.seqNo then
        (valid, clock) :: effective earlier worker
      else effective earlier worker

/-- The greatest sequence accepted since the worker's last `EvictWorker`. -/
def watermark (history : History) (worker : WorkerID) : Int :=
  maxSeq (effective history worker)

/-- The acceptance rule for a validated event. -/
def TakesEffect (history : History) (valid : Event) : Prop :=
  (valid.eventID = "" ∨ consumed history valid.eventID = false) ∧
    watermark history valid.workerID < valid.seqNo

instance (history : History) (valid : Event) : Decidable (TakesEffect history valid) := by
  unfold TakesEffect
  infer_instance

/-- The last event about the block that took effect for the worker. -/
def lastEffective (history : History) (block : BlockHash) (worker : WorkerID) :
    Option (Event × Clock) :=
  (effective history worker).find? fun entry => entry.1.blockHash = block

def recorded (ttl : Int) (entry : Event × Clock) : Option BlockLocation :=
  if entry.1.eventType = "block_stored" then
    some (normalizeLocation (eventLocation entry.1 entry.2 ttl) entry.2.now ttl)
  else none

/-- Every event that validates carries a positive sequence. -/
def PositiveSequences (history : History) : Prop :=
  ∀ event clock, Call.apply event clock ∈ history →
    ∀ valid, validateEvent event = .ok valid → 0 < valid.seqNo

/-! ## Validation -/

structure Validated (event : Event) : Prop where
  named : event.workerID ≠ ""
  kind : event.eventType = "block_stored" ∨ event.eventType = "block_evicted"
  /-- An embedded location agrees with the event about identity and sequence. -/
  agrees : ∀ loc, event.location = some loc →
    loc.blockHash = event.blockHash ∧ loc.workerID = event.workerID ∧ loc.seqNo = event.seqNo

variable {event valid : Event} {clock : Clock} {entry : Event × Clock}

theorem requireIdentity_ok (h : requireIdentity event = .ok valid) :
    valid = event ∧ event.blockHash ≠ "" ∧ event.workerID ≠ "" := by
  unfold requireIdentity at h
  split_ifs at h with missing
  rw [not_or] at missing
  exact ⟨(Except.ok.inj h).symm, missing⟩

theorem mergeLocation_ok {merged : Event} {loc : BlockLocation} (nonneg : 0 ≤ event.seqNo)
    (h : mergeLocation event loc = .ok merged) :
    merged.eventType = event.eventType ∧ ∃ filled, merged.location = some filled ∧
      (merged.workerID ≠ "" → filled.workerID = merged.workerID) ∧
      (merged.blockHash ≠ "" → filled.blockHash = merged.blockHash) ∧
      filled.seqNo = merged.seqNo := by
  unfold mergeLocation at h
  split_ifs at h with range hash worker sequence
  cases Except.ok.inj h
  refine ⟨rfl, _, rfl, ?_, ?_, ?_⟩
  · intro named
    dsimp only [fillFromLocation] at named ⊢
    by_cases own : event.workerID = "" <;> by_cases theirs : loc.workerID = "" <;>
      simp_all
  · intro named
    dsimp only [fillFromLocation] at named ⊢
    by_cases own : event.blockHash = "" <;> by_cases theirs : loc.blockHash = "" <;>
      simp_all
  · dsimp only [fillFromLocation]
    split_ifs <;> omega

theorem validateEvent_ok (h : validateEvent event = .ok valid) : Validated valid := by
  unfold validateEvent at h
  split_ifs at h with range stored tokens evicted carried
  · cases shape : event.location with
    | none =>
      simp only [shape] at h
      obtain ⟨rfl, -, named⟩ := requireIdentity_ok h
      exact ⟨named, .inl stored, by simp [shape]⟩
    | some loc =>
      simp only [shape] at h
      cases merge : mergeLocation event loc with
      | error message => simp [merge, bind, Except.bind] at h
      | ok merged =>
        simp only [merge, bind, Except.bind] at h
        obtain ⟨rfl, hash, named⟩ := requireIdentity_ok h
        obtain ⟨kind, filled, place, worker, block, sequence⟩ :=
          mergeLocation_ok (by omega) merge
        refine ⟨named, .inl (kind.trans stored), ?_⟩
        intro loc' same
        cases Option.some.inj (place.symm.trans same)
        exact ⟨block hash, worker named, sequence⟩
  · obtain ⟨rfl, -, named⟩ := requireIdentity_ok h
    refine ⟨named, .inr evicted, ?_⟩
    intro loc same
    simp [same] at carried

theorem eventLocation_identity (h : Validated event) (clock : Clock) (ttl : Int) :
    (eventLocation event clock ttl).blockHash = event.blockHash ∧
      (eventLocation event clock ttl).workerID = event.workerID ∧
      (eventLocation event clock ttl).seqNo = event.seqNo := by
  cases shape : event.location with
  | none => simp [eventLocation, shape]
  | some loc =>
    obtain ⟨block, worker, sequence⟩ := h.agrees loc shape
    simp [eventLocation, shape, block, worker, sequence]

theorem applyEvent_error {idx idx' : Index} {message : String}
    (h : idx.applyEvent clock event = (some message, idx')) : idx' = idx := by
  unfold Index.applyEvent at h
  cases check : validateEvent event with
  | error reason => simp only [check, Prod.mk.injEq] at h; exact h.2.symm
  | ok valid =>
    have shape := validateEvent_ok check
    simp only [check] at h
    split at h
    · cases h
    · rcases shape.kind with stored | evicted
      · simp [stored] at h
      · simp [evicted] at h

/-! ## One call against the description -/

/-- The ID bookkeeping of `acceptEventLocked`. -/
def Index.consumeID (idx : Index) (id : String) : Index :=
  if id ≠ "" ∧ id ∉ idx.appliedEventIDs then
    { idx with appliedEventIDs := idx.appliedEventIDs.insert id () }
  else idx

section Consume

variable (idx : Index) (id : String)

@[simp] theorem consumeID_location (b : BlockHash) (w : WorkerID) :
    (idx.consumeID id).location b w = idx.location b w := by
  unfold Index.consumeID
  split_ifs <;> rfl

@[simp] theorem consumeID_lastSeq (w : WorkerID) : (idx.consumeID id).lastSeq w = idx.lastSeq w := by
  unfold Index.consumeID
  split_ifs <;> rfl

@[simp] theorem consumeID_ttl : (idx.consumeID id).ttl = idx.ttl := by
  unfold Index.consumeID
  split_ifs <;> rfl

theorem mem_consumeID (other : String) :
    other ∈ (idx.consumeID id).appliedEventIDs ↔
      other ∈ idx.appliedEventIDs ∨ (other = id ∧ id ≠ "") := by
  unfold Index.consumeID
  split_ifs with fresh
  · rw [AList.mem_insert]
    constructor
    · rintro (rfl | old)
      · exact .inr ⟨rfl, fresh.1⟩
      · exact .inl old
    · rintro (old | ⟨rfl, -⟩)
      · exact .inr old
      · exact .inl rfl
  · rw [not_and_or, not_not, not_not] at fresh
    constructor
    · exact .inl
    · rintro (old | ⟨rfl, named⟩)
      · exact old
      · exact fresh.resolve_left named

theorem consumeID_frame :
    idx.consumeID id = { idx with appliedEventIDs := (idx.consumeID id).appliedEventIDs } := by
  unfold Index.consumeID
  split_ifs <;> rfl

end Consume

theorem acceptEventLocked_spec (idx : Index) (shape : Validated valid)
    (positive : 0 < valid.seqNo) :
    idx.acceptEventLocked valid =
      (decide ((valid.eventID = "" ∨ valid.eventID ∉ idx.appliedEventIDs) ∧
        idx.lastSeq valid.workerID < valid.seqNo), idx.consumeID valid.eventID) := by
  unfold Index.acceptEventLocked Index.consumeID
  by_cases anonymous : valid.eventID = ""
  · by_cases newer : idx.lastSeq valid.workerID < valid.seqNo
    · have stale : ¬ valid.seqNo ≤ idx.lastSeq valid.workerID := by omega
      have fresh : idx.lastSeq valid.workerID ≤ valid.seqNo := by omega
      simp [anonymous, newer, stale, Index.seqFreshLocked, fresh]
    · have stale : valid.seqNo ≤ idx.lastSeq valid.workerID := by omega
      simp [anonymous, newer, stale, shape.named, positive]
  · by_cases seen : valid.eventID ∈ idx.appliedEventIDs
    · simp [anonymous, seen]
    · by_cases newer : idx.lastSeq valid.workerID < valid.seqNo
      · have stale : ¬ valid.seqNo ≤ idx.lastSeq valid.workerID := by omega
        have fresh : idx.lastSeq valid.workerID ≤ valid.seqNo := by omega
        simp only [Index.lastSeq] at newer stale fresh
        simp [anonymous, seen, newer, stale, Index.seqFreshLocked, Index.lastSeq, fresh]
      · have stale : valid.seqNo ≤ idx.lastSeq valid.workerID := by omega
        simp only [Index.lastSeq] at newer stale
        simp [anonymous, seen, newer, stale, shape.named, positive, Index.lastSeq]

/-- The event changed its own entry and its own watermark, and nothing else. -/
structure Effect (idx idx' : Index) (valid : Event) (clock : Clock) : Prop where
  newer : idx.lastSeq valid.workerID < valid.seqNo
  place : idx'.location valid.blockHash valid.workerID = recorded idx.ttl (valid, clock)
  mark : idx'.lastSeq valid.workerID = valid.seqNo
  places : ∀ b w, ¬ (b = valid.blockHash ∧ w = valid.workerID) → idx'.location b w = idx.location b w
  marks : ∀ w, w ≠ valid.workerID → idx'.lastSeq w = idx.lastSeq w

theorem Effect.of_updates {idx idx' : Index} (newer : idx.lastSeq valid.workerID < valid.seqNo)
    (places : ∀ b w, idx'.location b w =
      if b = valid.blockHash ∧ w = valid.workerID then recorded idx.ttl (valid, clock)
      else idx.location b w)
    (marks : ∀ w, idx'.lastSeq w = if w = valid.workerID then valid.seqNo else idx.lastSeq w) :
    Effect idx idx' valid clock where
  newer := newer
  place := by rw [places, if_pos ⟨rfl, rfl⟩]
  mark := by rw [marks, if_pos rfl]
  places b w other := by rw [places, if_neg other]
  marks w other := by rw [marks, if_neg other]

/-- Nothing but the consumed ID changed. -/
def Ignored (idx idx' : Index) : Prop :=
  idx' = { idx with appliedEventIDs := idx'.appliedEventIDs }

theorem Ignored.not_effect {idx idx' : Index}
    (same : Ignored idx idx') : ¬ Effect idx idx' valid clock := by
  intro effect
  have mark := effect.mark
  have newer := effect.newer
  rw [same] at mark
  change idx.lastSeq valid.workerID = valid.seqNo at mark
  omega

theorem applyEvent_valid (idx : Index) (clock : Clock)
    (check : validateEvent event = .ok valid) (positive : 0 < valid.seqNo)
    (bounded : ∀ b w loc, idx.location b w = some loc → loc.seqNo ≤ idx.lastSeq w) :
    let idx' := (idx.applyEvent clock event).2
    let accepted := (valid.eventID = "" ∨ valid.eventID ∉ idx.appliedEventIDs) ∧
      idx.lastSeq valid.workerID < valid.seqNo
    (accepted → Effect idx idx' valid clock) ∧ (¬ accepted → Ignored idx idx') ∧
      idx'.ttl = idx.ttl ∧
      ∀ id, id ∈ idx'.appliedEventIDs ↔
        id ∈ idx.appliedEventIDs ∨ (id = valid.eventID ∧ valid.eventID ≠ "") := by
  have shape := validateEvent_ok check
  dsimp only
  unfold Index.applyEvent
  rw [check]
  simp only [acceptEventLocked_spec idx shape positive]
  by_cases accepted : (valid.eventID = "" ∨ valid.eventID ∉ idx.appliedEventIDs) ∧
      idx.lastSeq valid.workerID < valid.seqNo
  · simp only [accepted, and_self, decide_true]
    have newer := accepted.2
    have fresh : (idx.consumeID valid.eventID).lastSeq valid.workerID ≤ valid.seqNo := by
      rw [consumeID_lastSeq]
      omega
    rcases shape.kind with stored | evicted
    · obtain ⟨block, worker, sequence⟩ := eventLocation_identity shape clock idx.ttl
      have ordered : decide (valid.seqNo > 0) = true := decide_eq_true positive
      have spec := fun b w => Index.storeLocationLocked_spec (idx.consumeID valid.eventID) b w
        clock.now (eventLocation valid clock idx.ttl)
        (by rw [worker]; exact shape.named) (by rw [sequence]; exact positive)
        (by rw [worker, sequence]; exact fresh)
      simp only [block, worker, sequence, consumeID_location, consumeID_lastSeq, consumeID_ttl]
        at spec
      simp only [stored, if_true, ordered, consumeID_ttl]
      refine ⟨fun _ => .of_updates newer (fun b w => ?_) (fun w => (spec "" w).2.1),
        fun refused => absurd trivial refused, (spec "" "").2.2.1, fun id => ?_⟩
      · rw [(spec b w).1, recorded, if_pos stored]
      · rw [(spec "" "").2.2.2, mem_consumeID]
    · have older : ∀ loc, (idx.consumeID valid.eventID).location valid.blockHash valid.workerID =
          some loc → loc.seqNo ≤ valid.seqNo := by
        intro loc found
        rw [consumeID_location] at found
        have := bounded _ _ _ found
        omega
      have spec := fun b w => Index.evictLocked_spec (idx.consumeID valid.eventID) valid.blockHash b
        valid.workerID w valid.seqNo shape.named positive fresh older
      simp only [consumeID_location, consumeID_lastSeq, consumeID_ttl] at spec
      simp only [evicted, String.reduceEq, if_true, if_false]
      refine ⟨fun _ => .of_updates newer (fun b w => ?_) (fun w => (spec "" w).2.1),
        fun refused => absurd trivial refused, (spec "" "").2.2.1, fun id => ?_⟩
      · have nothing : recorded idx.ttl (valid, clock) = none := by simp [recorded, evicted]
        rw [(spec b w).1, nothing]
      · rw [(spec "" "").2.2.2, mem_consumeID]
  · simp only [accepted, decide_false]
    exact ⟨False.elim, fun _ => consumeID_frame idx valid.eventID, consumeID_ttl idx valid.eventID,
      fun id => mem_consumeID idx valid.eventID id⟩

/-! ## Whole histories -/

/-- The index agrees with the description of the history. -/
structure Describes (history : History) (idx : Index) : Prop where
  ids : ∀ id, id ≠ "" → (id ∈ idx.appliedEventIDs ↔ consumed history id = true)
  marks : ∀ w, idx.lastSeq w = watermark history w
  places : ∀ b w, idx.location b w = (lastEffective history b w).bind (recorded idx.ttl)

variable {history : History} {idx : Index}

theorem effective_origin {w : WorkerID} (member : entry ∈ effective history w) :
    entry.1.workerID = w ∧ ∃ event, Call.apply event entry.2 ∈ history ∧
      validateEvent event = .ok entry.1 := by
  induction history with
  | nil => simp [effective] at member
  | cons call earlier ih =>
    have older : entry ∈ effective earlier w → entry.1.workerID = w ∧
        ∃ event, Call.apply event entry.2 ∈ call :: earlier ∧ validateEvent event = .ok entry.1 := by
      intro old
      obtain ⟨worker, event, inside, check⟩ := ih old
      exact ⟨worker, event, .tail call inside, check⟩
    cases call with
    | evictWorker retired =>
      simp only [effective] at member
      split_ifs at member
      · simp at member
      · exact older member
    | apply event clock =>
      simp only [effective] at member
      cases check : validateEvent event with
      | error message =>
        rw [check] at member
        exact older member
      | ok valid =>
        simp only [check] at member
        split_ifs at member with accepted
        · rcases List.mem_cons.mp member with rfl | old
          · exact ⟨accepted.1, event, List.mem_cons_self, check⟩
          · exact older old
        · exact older member

theorem effective_validated {worker : WorkerID}
    (member : entry ∈ effective history worker) : Validated entry.1 := by
  obtain ⟨-, event, -, check⟩ := effective_origin member
  exact validateEvent_ok check

theorem seqNo_le_maxSeq {entries : List (Event × Clock)}
    (member : entry ∈ entries) : entry.1.seqNo ≤ maxSeq entries := by
  induction entries with
  | nil => simp at member
  | cons first rest ih =>
    obtain ⟨event, clock⟩ := first
    simp only [maxSeq]
    rcases List.mem_cons.mp member with rfl | later
    · exact Int.le_max_left _ _
    · exact Int.le_trans (ih later) (Int.le_max_right _ _)

theorem recorded_seqNo {ttl : Int} {loc : BlockLocation}
    (shape : Validated entry.1) (h : recorded ttl entry = some loc) :
    entry.1.eventType = "block_stored" ∧ loc.seqNo = entry.1.seqNo := by
  unfold recorded at h
  split_ifs at h with stored
  cases Option.some.inj h
  exact ⟨stored, (eventLocation_identity shape entry.2 ttl).2.2⟩

theorem lastEffective_mem {b : BlockHash} {w : WorkerID}
    (h : lastEffective history b w = some entry) :
    entry ∈ effective history w := List.mem_of_find?_eq_some h

theorem Describes.bounded (d : Describes history idx) (b : BlockHash)
    (w : WorkerID) (loc : BlockLocation) (found : idx.location b w = some loc) :
    loc.seqNo ≤ idx.lastSeq w := by
  rw [d.places, Option.bind_eq_some_iff] at found
  obtain ⟨entry, last, kept⟩ := found
  have member := lastEffective_mem last
  rw [(recorded_seqNo (effective_validated member) kept).2, d.marks]
  exact seqNo_le_maxSeq member

variable (ttl : Int)

theorem describes_new : Describes [] (Index.new ttl) where
  ids := by simp [Index.new, consumed]
  marks := by
    intro w
    rfl
  places := by
    intro b w
    rfl

theorem Describes.takesEffect_iff (d : Describes history idx) (valid : Event) :
    TakesEffect history valid ↔ (valid.eventID = "" ∨ valid.eventID ∉ idx.appliedEventIDs) ∧
      idx.lastSeq valid.workerID < valid.seqNo := by
  unfold TakesEffect
  rw [d.marks]
  by_cases anonymous : valid.eventID = ""
  · simp [anonymous]
  · simp [anonymous, d.ids _ anonymous]

theorem Describes.evictWorker (d : Describes history idx)
    (retired : WorkerID) : Describes (.evictWorker retired :: history) (idx.evictWorker retired).2 := by
  have spec := fun b w => Index.evictWorker_spec idx retired w b
  dsimp only at spec
  refine ⟨?_, ?_, ?_⟩
  · intro id named
    rw [(spec "" "").2.2.2, d.ids id named]
    rfl
  · intro w
    rw [(spec "" w).2.1, d.marks]
    simp only [watermark, effective]
    by_cases same : w = retired
    · simp [same, maxSeq]
    · simp [same, Ne.symm same]
  · intro b w
    rw [(spec b w).1, (spec "" "").2.2.1, d.places]
    simp only [lastEffective, effective]
    by_cases same : w = retired
    · simp [same]
    · simp [same, Ne.symm same]

theorem Describes.rejected (d : Describes history idx)
    {message : String} (check : validateEvent event = .error message) (clock : Clock) :
    Describes (.apply event clock :: history) (idx.applyEvent clock event).2 := by
  have same : (idx.applyEvent clock event).2 = idx := by
    unfold Index.applyEvent
    rw [check]
  rw [same]
  refine ⟨?_, ?_, ?_⟩
  · simpa only [consumed, check] using d.ids
  · simpa only [watermark, effective, check] using d.marks
  · simpa only [lastEffective, effective, check] using d.places

theorem Describes.applied (d : Describes history idx)
    (check : validateEvent event = .ok valid) (positive : 0 < valid.seqNo)
    (clock : Clock) : Describes (.apply event clock :: history) (idx.applyEvent clock event).2 := by
  obtain ⟨taken, ignored, ttl, ids⟩ := applyEvent_valid idx clock check positive d.bounded
  rw [← d.takesEffect_iff valid] at taken ignored
  have ids' : ∀ id, id ≠ "" → (id ∈ (idx.applyEvent clock event).2.appliedEventIDs ↔
      consumed (.apply event clock :: history) id = true) := by
    intro id named
    rw [ids, d.ids id named]
    simp only [consumed, check, Bool.or_eq_true, decide_eq_true_eq]
    constructor
    · rintro (old | ⟨rfl, -⟩)
      · exact .inr old
      · exact .inl rfl
    · rintro (rfl | old)
      · exact .inr ⟨rfl, named⟩
      · exact .inl old
  by_cases effect : TakesEffect history valid
  · have own := taken effect
    have grows : effective (.apply event clock :: history) valid.workerID =
        (valid, clock) :: effective history valid.workerID := by
      simp only [effective, check]
      exact if_pos ⟨trivial, effect⟩
    have keeps : ∀ w, w ≠ valid.workerID →
        effective (.apply event clock :: history) w = effective history w := by
      intro w other
      simp only [effective, check]
      rw [if_neg (fun h => other h.1.symm)]
    refine ⟨ids', ?_, ?_⟩
    · intro w
      by_cases same : w = valid.workerID
      · subst same
        rw [own.mark, watermark, grows, maxSeq]
        have := effect.2
        simp only [watermark] at this
        omega
      · rw [own.marks w same, d.marks, watermark, watermark, keeps w same]
    · intro b w
      by_cases here : b = valid.blockHash ∧ w = valid.workerID
      · obtain ⟨rfl, rfl⟩ := here
        rw [own.place, ttl, lastEffective, grows]
        simp
      · rw [own.places b w here, d.places, ttl, lastEffective, lastEffective]
        by_cases same : w = valid.workerID
        · subst same
          have elsewhere : ¬ valid.blockHash = b := fun h => here ⟨h.symm, rfl⟩
          rw [grows, List.find?_cons_of_neg (by simpa using elsewhere)]
        · rw [keeps w same]
  · have same := ignored effect
    have keeps : ∀ w, effective (.apply event clock :: history) w = effective history w := by
      intro w
      simp only [effective, check]
      rw [if_neg]
      rintro ⟨rfl, rest⟩
      exact effect rest
    refine ⟨ids', ?_, ?_⟩
    · intro w
      rw [watermark, keeps, same]
      exact d.marks w
    · intro b w
      rw [lastEffective, keeps, same]
      exact d.places b w

theorem describes_replay {history : History} (positive : PositiveSequences history) :
    Describes history (replay ttl history) := by
  induction history with
  | nil => exact describes_new ttl
  | cons call earlier ih =>
    have d := ih (fun event clock member => positive event clock (List.mem_cons_of_mem _ member))
    cases call with
    | evictWorker retired => exact d.evictWorker retired
    | apply event clock =>
      cases check : validateEvent event with
      | error message => exact d.rejected check clock
      | ok valid => exact d.applied check (positive event clock (by simp) valid check) clock

/-! ## Locality and redelivery -/

/-- A nonempty event ID names one event. -/
def UniqueIDs (history : History) : Prop :=
  ∀ first c₁ second c₂, Call.apply first c₁ ∈ history → Call.apply second c₂ ∈ history →
    ∀ v₁ v₂, validateEvent first = .ok v₁ → validateEvent second = .ok v₂ →
      v₁.eventID ≠ "" → v₁.eventID = v₂.eventID → first = second

def Call.concerns (worker : WorkerID) : Call → Bool
  | .evictWorker retired => retired = worker
  | .apply event _ =>
    match validateEvent event with
    | .ok valid => valid.workerID = worker
    | .error _ => false

def ownCalls (worker : WorkerID) (history : History) : History :=
  history.filter (Call.concerns worker)

theorem consumed_iff {id : String} :
    consumed history id = true ↔ ∃ event clock valid, Call.apply event clock ∈ history ∧
      validateEvent event = .ok valid ∧ valid.eventID = id := by
  induction history with
  | nil => simp [consumed]
  | cons call earlier ih =>
    cases call with
    | evictWorker retired => simp [consumed, ih]
    | apply event clock =>
      cases check : validateEvent event with
      | error message =>
        simp only [consumed, check, ih, List.mem_cons]
        constructor
        · rintro ⟨e, c, v, member, rest⟩
          exact ⟨e, c, v, .inr member, rest⟩
        · rintro ⟨e, c, v, here | member, ok, same⟩
          · cases here
            simp [check] at ok
          · exact ⟨e, c, v, member, ok, same⟩
      | ok valid =>
        simp only [consumed, check, Bool.or_eq_true, decide_eq_true_eq, ih, List.mem_cons]
        constructor
        · rintro (here | ⟨e, c, v, member, rest⟩)
          · exact ⟨event, clock, valid, .inl rfl, check, here⟩
          · exact ⟨e, c, v, .inr member, rest⟩
        · rintro ⟨e, c, v, here | member, ok, same⟩
          · cases here
            cases Except.ok.inj (check.symm.trans ok)
            exact .inl same
          · exact .inr ⟨e, c, v, member, ok, same⟩

theorem effective_ownCalls (unique : UniqueIDs history) (worker : WorkerID) :
    effective (ownCalls worker history) worker = effective history worker := by
  induction history with
  | nil => rfl
  | cons call earlier ih =>
    have ih := ih (fun e₁ c₁ e₂ c₂ m₁ m₂ => unique e₁ c₁ e₂ c₂
      (List.mem_cons_of_mem _ m₁) (List.mem_cons_of_mem _ m₂))
    cases call with
    | evictWorker retired =>
      by_cases same : retired = worker
      · simp [ownCalls, Call.concerns, effective, same]
      · simpa [ownCalls, Call.concerns, effective, same] using ih
    | apply event clock =>
      cases check : validateEvent event with
      | error message => simpa [ownCalls, Call.concerns, effective, check] using ih
      | ok valid =>
        by_cases own : valid.workerID = worker
        · -- an earlier call that consumed this ID is a delivery of this very event
          have sameIDs : valid.eventID ≠ "" →
              consumed (ownCalls worker earlier) valid.eventID = consumed earlier valid.eventID := by
            intro named
            rw [Bool.eq_iff_iff, consumed_iff, consumed_iff]
            constructor
            · rintro ⟨e, c, v, member, rest⟩
              exact ⟨e, c, v, (List.mem_filter.mp member).1, rest⟩
            · rintro ⟨e, c, v, member, ok, same⟩
              have this := unique e c event clock (List.mem_cons_of_mem _ member) (by simp) v valid
                ok check (by rw [same]; exact named) same
              refine ⟨e, c, v, List.mem_filter.mpr ⟨member, ?_⟩, ok, same⟩
              simp [Call.concerns, this, check, own]
          have kept : ownCalls worker (.apply event clock :: earlier) =
              .apply event clock :: ownCalls worker earlier := by
            simp [ownCalls, Call.concerns, check, own]
          rw [kept]
          simp only [effective, check, ih, own, true_and]
          by_cases anonymous : valid.eventID = ""
          · simp [anonymous]
          · rw [sameIDs anonymous]
        · have dropped : ownCalls worker (.apply event clock :: earlier) = ownCalls worker earlier := by
            simp [ownCalls, Call.concerns, check, own]
          rw [dropped, ih]
          simp [effective, check, own]

/-- The calls newer than the worker's last `EvictWorker`. -/
def sinceEvict (worker : WorkerID) (history : History) : History :=
  history.takeWhile fun call => call ≠ .evictWorker worker

/-- The event was delivered before, and its ID or its sequence is still remembered. -/
def Redelivered (history : History) (event : Event) : Prop :=
  ∀ valid, validateEvent event = .ok valid →
    ∃ clock, Call.apply event clock ∈
      (if valid.eventID = "" then sinceEvict valid.workerID history else history)

/-- Every event delivered since the last `EvictWorker` is either among the
effective ones or refused by ID, so an anonymous one is at or below the watermark. -/
theorem seqNo_le_watermark
    (check : validateEvent event = .ok valid) (anonymous : valid.eventID = "")
    (member : Call.apply event clock ∈ sinceEvict valid.workerID history) :
    valid.seqNo ≤ watermark history valid.workerID := by
  induction history with
  | nil => simp [sinceEvict] at member
  | cons call earlier ih =>
    by_cases stop : call = .evictWorker valid.workerID
    · simp [sinceEvict, stop] at member
    have grows : watermark earlier valid.workerID ≤ watermark (call :: earlier) valid.workerID := by
      cases call with
      | evictWorker retired =>
        have other : ¬ retired = valid.workerID := fun h => stop (by rw [h])
        simp [watermark, effective, other]
      | apply e c =>
        simp only [watermark, effective]
        split
        · exact Int.le_refl _
        · split_ifs
          · exact Int.le_max_right _ _
          · exact Int.le_refl _
    have unfolded : sinceEvict valid.workerID (call :: earlier) =
        call :: sinceEvict valid.workerID earlier := by
      simp [sinceEvict, stop]
    rw [unfolded] at member
    rcases List.mem_cons.mp member with rfl | later
    · simp only [watermark, effective, check, anonymous, true_or, true_and]
      split_ifs with accepted
      · exact Int.le_max_left _ _
      · omega
    · exact Int.le_trans (ih later) grows

theorem redelivered_not_effective
    (again : Redelivered history event) (check : validateEvent event = .ok valid) :
    ¬ TakesEffect history valid := by
  rintro ⟨fresh, newer⟩
  obtain ⟨clock, member⟩ := again valid check
  by_cases anonymous : valid.eventID = ""
  · rw [if_pos anonymous] at member
    have := seqNo_le_watermark check anonymous member
    omega
  · rw [if_neg anonymous] at member
    have seen : consumed history valid.eventID = true :=
      consumed_iff.mpr ⟨event, clock, valid, member, check, rfl⟩
    rw [seen] at fresh
    simp [anonymous] at fresh

theorem applyEvent_redelivered (d : Describes history idx)
    (again : Redelivered history event) (clock : Clock)
    (positive : ∀ valid, validateEvent event = .ok valid → 0 < valid.seqNo) :
    (idx.applyEvent clock event).2 = idx := by
  cases check : validateEvent event with
  | error message =>
    unfold Index.applyEvent
    rw [check]
  | ok valid =>
    have refused := redelivered_not_effective again check
    rw [d.takesEffect_iff] at refused
    unfold Index.applyEvent
    rw [check]
    simp only [acceptEventLocked_spec idx (validateEvent_ok check) (positive valid check), refused,
      decide_false]
    unfold Index.consumeID
    rw [if_neg]
    rintro ⟨named, fresh⟩
    obtain ⟨c, member⟩ := again valid check
    rw [if_neg named] at member
    exact fresh ((d.ids _ named).mpr (consumed_iff.mpr ⟨event, c, valid, member, check, rfl⟩))

theorem replay_redelivered {history : History} (positive : PositiveSequences history)
    (again : List (Event × Clock)) (known : ∀ entry ∈ again, Redelivered history entry.1) :
    replay ttl (again.map (fun entry => .apply entry.1 entry.2) ++ history) = replay ttl history := by
  have d := describes_replay ttl positive
  induction again with
  | nil => rfl
  | cons entry rest ih =>
    have before := ih (fun other member => known other (List.mem_cons_of_mem _ member))
    change (replay ttl (rest.map (fun entry => Call.apply entry.1 entry.2) ++ history)).step
      (.apply entry.1 entry.2) = _
    rw [before]
    have mine := known entry (by simp)
    refine applyEvent_redelivered d mine entry.2 ?_
    intro valid check
    obtain ⟨clock, member⟩ := mine valid check
    split_ifs at member
    · exact positive entry.1 clock ((List.takeWhile_sublist _).subset member) valid check
    · exact positive entry.1 clock member valid check

theorem PositiveSequences.earlier {call : Call} {history : History}
    (positive : PositiveSequences (call :: history)) : PositiveSequences history :=
  fun event clock member => positive event clock (List.mem_cons_of_mem _ member)

theorem replay_ttl {history : History} (positive : PositiveSequences history) :
    (replay ttl history).ttl = (Index.new ttl).ttl := by
  induction history with
  | nil => rfl
  | cons call earlier ih =>
    rw [← ih positive.earlier]
    cases call with
    | evictWorker retired => exact (Index.evictWorker_spec _ retired "" "").2.2.1
    | apply event clock =>
      cases check : validateEvent event with
      | error message =>
        change ((replay ttl earlier).applyEvent clock event).2.ttl = _
        unfold Index.applyEvent
        rw [check]
      | ok valid =>
        exact (applyEvent_valid _ clock check (positive event clock (by simp) valid check)
          (describes_replay ttl positive.earlier).bounded).2.2.1

theorem replay_ownCalls {history : History} (positive : PositiveSequences history)
    (unique : UniqueIDs history) (w : WorkerID) :
    (replay ttl (ownCalls w history)).lastSeq w = (replay ttl history).lastSeq w ∧
      ∀ b, (replay ttl (ownCalls w history)).location b w = (replay ttl history).location b w := by
  have ownPositive : PositiveSequences (ownCalls w history) :=
    fun event clock member => positive event clock (List.mem_filter.mp member).1
  have whole := describes_replay ttl positive
  have part := describes_replay ttl ownPositive
  have same := effective_ownCalls unique w
  refine ⟨?_, ?_⟩
  · rw [part.marks, whole.marks, watermark, watermark, same]
  · intro b
    rw [part.places, whole.places, lastEffective, lastEffective, same, replay_ttl ttl positive,
      replay_ttl ttl ownPositive]

/-- Cache-event semantics of every history: errors write nothing, an event takes
effect exactly by the acceptance rule, and locations, watermarks and consumed IDs
are those of the events that took effect. -/
theorem cache_event_semantics (ttl : Int) (history : History) (positive : PositiveSequences history) :
    (∀ clock event message idx',
      (replay ttl history).applyEvent clock event = (some message, idx') →
        idx' = replay ttl history) ∧
    (∀ clock event valid, validateEvent event = .ok valid → 0 < valid.seqNo →
      let idx' := ((replay ttl history).applyEvent clock event).2
      (Effect (replay ttl history) idx' valid clock ↔ TakesEffect history valid) ∧
        (¬ TakesEffect history valid → Ignored (replay ttl history) idx') ∧
        (valid.eventID ≠ "" → valid.eventID ∈ idx'.appliedEventIDs)) ∧
    (∀ id, id ≠ "" → (id ∈ (replay ttl history).appliedEventIDs ↔ consumed history id = true)) ∧
    (∀ b w, ((replay ttl history).location b w).isSome ↔
      ∃ entry, lastEffective history b w = some entry ∧ entry.1.eventType = "block_stored") ∧
    (∀ b w loc, (replay ttl history).location b w = some loc →
      ∃ entry, lastEffective history b w = some entry ∧ loc.seqNo = entry.1.seqNo) ∧
    (∀ w, (replay ttl history).lastSeq w = watermark history w) ∧
    (UniqueIDs history → ∀ w,
      (replay ttl (ownCalls w history)).lastSeq w = (replay ttl history).lastSeq w ∧
        ∀ b, (replay ttl (ownCalls w history)).location b w = (replay ttl history).location b w) ∧
    (∀ again : List (Event × Clock), (∀ entry ∈ again, Redelivered history entry.1) →
      replay ttl (again.map (fun entry => .apply entry.1 entry.2) ++ history) =
        replay ttl history) := by
  have d := describes_replay ttl positive
  refine ⟨fun clock event message idx' h => applyEvent_error h, ?_, d.ids, ?_, ?_, d.marks,
    replay_ownCalls ttl positive, replay_redelivered ttl positive⟩
  · intro clock event valid check seq
    obtain ⟨taken, ignored, -, ids⟩ := applyEvent_valid _ clock check seq d.bounded
    rw [← d.takesEffect_iff valid] at taken ignored
    refine ⟨⟨?_, taken⟩, ignored, ?_⟩
    · intro effect
      by_contra refused
      exact (ignored refused).not_effect effect
    · intro named
      exact (ids _).mpr (.inr ⟨rfl, named⟩)
  · intro b w
    rw [d.places]
    cases last : lastEffective history b w with
    | none => simp
    | some entry =>
      by_cases stored : entry.1.eventType = "block_stored" <;> simp [recorded, stored]
  · intro b w loc found
    rw [d.places, Option.bind_eq_some_iff] at found
    obtain ⟨entry, last, kept⟩ := found
    exact ⟨entry, last, (recorded_seqNo (effective_validated (lastEffective_mem last)) kept).2⟩

/-- Two stores and a late duplicate of the first one, after the worker was retired in between. -/
def sampleHistory : History :=
  [.apply { eventID := "e1", eventType := "block_stored", blockHash := "b", workerID := "w", seqNo := 4 }
      ⟨3, 3, 3⟩,
    .apply { eventType := "block_stored", blockHash := "c", workerID := "w", seqNo := 2 } ⟨2, 2, 2⟩,
    .evictWorker "w",
    .apply { eventID := "e1", eventType := "block_stored", blockHash := "b", workerID := "w", seqNo := 4 }
      ⟨1, 1, 1⟩]

theorem sampleHistory_positive : PositiveSequences sampleHistory := by
  intro event clock member valid check
  simp only [sampleHistory, List.mem_cons, List.not_mem_nil, or_false, Call.apply.injEq, reduceCtorEq,
    false_or] at member
  rcases member with ⟨rfl, -⟩ | ⟨rfl, -⟩ | ⟨rfl, -⟩ <;> (cases Except.ok.inj check; decide)

theorem sampleHistory_semantics :
    (replay 1 sampleHistory).lastSeq "w" = watermark sampleHistory "w" ∧
      watermark sampleHistory "w" = 2 ∧
      ((replay 1 sampleHistory).location "b" "w").isSome = false := by
  have semantics := cache_event_semantics 1 sampleHistory sampleHistory_positive
  exact ⟨semantics.2.2.2.2.2.1 "w", by decide, by decide⟩

end AiStorage.Router
