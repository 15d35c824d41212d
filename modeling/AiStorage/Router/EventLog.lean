import AiStorage.Lib.Lists
import AiStorage.Lib.Lines
import AiStorage.Router.Snapshot

/-!
# The event log

`AppendEvent`, `ReadEvents` and `ReplayEventLog` of `router/internal/cacheindex/eventlog.go`.
An event is one line of JSON; the text of an embedded location is a parameter, as is decoding.
Nothing an event does to the index depends on the clock except two time stamps.
-/
namespace AiStorage.Router
open Lib

/-! ## Writing -/

def jsonField (name : String) (value : Text) : Text := goQuoted name ++ ch ':' :: value

/-- A field with `omitempty`, with the comma that separates it from the next one. -/
def optionalField (present : Bool) (field : Text) : Text :=
  if present then field ++ [ch ','] else []

def eventParts (event : Event) (location : Option Text) : List Text :=
  [[CodePoint.ofNat 123],
    jsonField "schema_version" (intText event.schemaVersion), [ch ','],
    optionalField (event.eventID ≠ "") (jsonField "event_id" (goQuoted event.eventID)),
    jsonField "event_type" (goQuoted event.eventType), [ch ','],
    jsonField "block_hash" (goQuoted event.blockHash), [ch ','],
    jsonField "worker_id" (goQuoted event.workerID), [ch ','],
    jsonField "tier" (goQuoted event.tier), [ch ','],
    jsonField "tokens" (intText event.tokens), [ch ','],
    jsonField "seq_no" (intText event.seqNo), [ch ','],
    optionalField location.isSome (jsonField "location" (location.getD [])),
    jsonField "timestamp_ms" (intText event.timestampMS),
    [CodePoint.ofNat 125]]

section Write

variable (locationText : BlockLocation → Except String Text)

/-- `json.Marshal(event)`, before encoding. -/
def eventText (event : Event) : Except String Text :=
  match event.location with
  | none => .ok (eventParts event none).flatten
  | some loc => do
    let location ← locationText loc
    return (eventParts event (some location)).flatten

def marshalEvent (event : Event) : Except String Bytes := do
  let text ← eventText locationText event
  return text.flatMap utf8Char

def stampEvent (nowMS : Int) (event : Event) : Event :=
  { event with
    schemaVersion := if event.schemaVersion = 0 then 1 else event.schemaVersion
    timestampMS := if event.timestampMS = 0 then nowMS else event.timestampMS }

/-- `AppendEvent`: the file afterwards, which is created if it is not there. -/
def appendEvent (file : Option Bytes) (nowMS : Int) (event : Event) :
    Except String (Option Bytes) := do
  let raw ← marshalEvent locationText (stampEvent nowMS event)
  return some (file.getD [] ++ (raw ++ [newline]))

def appendEvents (file : Option Bytes) : List (Event × Int) → Except String (Option Bytes)
  | [] => .ok file
  | entry :: rest => do
    let file ← appendEvent locationText file entry.2 entry.1
    appendEvents file rest

end Write

/-! ## Reading and replaying -/

inductive LogError
  | open
  | decode (lineno : Nat) (message : String)
  | tokenTooLong
  | apply (message : String)
  deriving DecidableEq

def maxScanTokenSize : Nat := 65536

section Read

variable (unmarshal : Bytes → Except String Event)

def decodeLines : Nat → List Bytes → Except LogError (List Event)
  | _, [] => .ok []
  | lineno, line :: rest =>
    if line = [] then decodeLines (lineno + 1) rest
    else
      match unmarshal line with
      | .error message => .error (.decode lineno message)
      | .ok event => do
        let events ← decodeLines (lineno + 1) rest
        return event :: events

def readEvents (file : Option Bytes) : Except LogError (List Event) :=
  match file with
  | none => .error .open
  | some bytes =>
    let scanned := scanLines maxScanTokenSize bytes
    match decodeLines unmarshal 1 scanned.lines with
    | .error failure => .error failure
    | .ok events => if scanned.tooLong then .error .tokenTooLong else .ok events

/-- The replay loop; it stops at the first event that fails. -/
def Index.applyLogged (clocks : Nat → Clock) : Index → List Event → Option LogError × Index
  | idx, [] => (none, idx)
  | idx, event :: rest =>
    match idx.applyEvent (clocks rest.length) event with
    | (some message, idx) => (some (.apply message), idx)
    | (none, idx) => Index.applyLogged clocks idx rest

def lastEvents (limit : Int) (events : List Event) : List Event :=
  if 0 < limit ∧ limit < events.length then events.drop (events.length - limit.toNat) else events

def replayEventLog (file : Option Bytes) (limit : Int) (clocks : Nat → Clock) (idx : Index) :
    Except LogError Nat × Index :=
  match readEvents unmarshal file with
  | .error failure => (.error failure, idx)
  | .ok events =>
    let events := lastEvents limit events
    match idx.applyLogged clocks events with
    | (some failure, idx) => (.error failure, idx)
    | (none, idx) => (.ok events.length, idx)

end Read

/-! ## Every record is a line -/

section Lines

variable {locationText : BlockLocation → Except String Text}

theorem oneLine_jsonField (name : String) {value : Text} (h : OneLine value) :
    OneLine (jsonField name value) :=
  (oneLine_goQuoted name).append (.cons (by decide) h)

theorem oneLine_optionalField (present : Bool) {field : Text} (h : OneLine field) :
    OneLine (optionalField present field) := by
  unfold optionalField
  split_ifs
  · exact h.append (.cons (by decide) oneLine_nil)
  · exact oneLine_nil

theorem oneLine_char {c : CodePoint} (other : c.val ≠ 10) : OneLine [c] := .cons other oneLine_nil

variable {event : Event} {raw : Bytes}

theorem eventText_ok {out : Text} (h : eventText locationText event = .ok out) :
    ∃ location : Option Text, out = (eventParts event location).flatten ∧
      ∀ t, location = some t → ∃ loc, locationText loc = .ok t := by
  unfold eventText at h
  cases carried : event.location with
  | none =>
    rw [carried] at h
    exact ⟨none, (Except.ok.inj h).symm, fun t wrong => by cases wrong⟩
  | some loc =>
    rw [carried] at h
    cases written : locationText loc with
    | error message =>
      simp only [written] at h
      cases h
    | ok t =>
      simp only [written] at h
      refine ⟨some t, (Except.ok.inj h).symm, fun t' same => ⟨loc, ?_⟩⟩
      rw [written, Option.some.inj same]

theorem oneLine_eventText (lines : ∀ loc t, locationText loc = .ok t → OneLine t)
    {out : Text} (h : eventText locationText event = .ok out) : OneLine out := by
  obtain ⟨location, rfl, origin⟩ := eventText_ok h
  have place : OneLine (location.getD []) := by
    cases location with
    | none => exact oneLine_nil
    | some t =>
      obtain ⟨loc, written⟩ := origin t rfl
      exact lines loc t written
  have comma : OneLine [ch ','] := oneLine_char (by decide)
  have number := fun name n => oneLine_jsonField name (oneLine_intText n)
  have string := fun name s => oneLine_jsonField name (oneLine_goQuoted s)
  refine .flatten ?_
  simp only [eventParts, List.forall_mem_cons, comma, number, string, true_and]
  exact ⟨oneLine_char (by decide), oneLine_optionalField _ (string _ _),
    oneLine_optionalField _ (oneLine_jsonField _ place), oneLine_char (by decide), by simp⟩

theorem marshalEvent_ok (h : marshalEvent locationText event = .ok raw) :
    ∃ out, eventText locationText event = .ok out ∧ raw = out.flatMap utf8Char := by
  unfold marshalEvent at h
  cases written : eventText locationText event with
  | error message =>
    rw [written] at h
    cases h
  | ok out =>
    rw [written] at h
    exact ⟨out, rfl, (Except.ok.inj h).symm⟩

theorem marshalEvent_lineSafe (lines : ∀ loc t, locationText loc = .ok t → OneLine t)
    (h : marshalEvent locationText event = .ok raw) : LineSafe raw ∧ raw ≠ [] := by
  obtain ⟨out, written, rfl⟩ := marshalEvent_ok h
  have single := newline_notMem_utf8 (oneLine_eventText lines written)
  obtain ⟨location, rfl, -⟩ := eventText_ok written
  obtain ⟨front, shape⟩ : ∃ front : Text, (eventParts event location).flatten =
      front ++ [CodePoint.ofNat 125] := by
    refine ⟨(eventParts event location).dropLast.flatten, ?_⟩
    simp only [eventParts, List.dropLast, List.flatten_cons, List.flatten_nil, List.append_nil,
      List.append_assoc]
  have brace : [CodePoint.ofNat 125].flatMap utf8Char = [125] := by decide
  rw [shape, List.flatMap_append, brace] at single ⊢
  refine ⟨⟨single, ?_⟩, by simp⟩
  rw [List.getLast?_append_of_ne_nil _ (by simp)]
  decide

theorem length_blockHash_le
    (h : marshalEvent locationText event = .ok raw) : event.blockHash.length ≤ raw.length := by
  obtain ⟨out, written, rfl⟩ := marshalEvent_ok h
  obtain ⟨location, rfl, -⟩ := eventText_ok written
  have hash := length_le_goQuoted event.blockHash
  have member : jsonField "block_hash" (goQuoted event.blockHash) ∈ eventParts event location := by
    simp [eventParts]
  have inside := (List.sublist_flatten_of_mem member).length_le
  have encoded := length_le_utf8 (eventParts event location).flatten
  simp only [jsonField, List.length_append, List.length_cons] at inside
  omega

end Lines

/-! ## Events do not depend on the clock -/

def untimed (loc : BlockLocation) : BlockLocation := { loc with updatedAt := 0, expiresAt := 0 }

/-- The indexes differ in time stamps and TTL only. -/
structure SameButTimes (a b : Index) : Prop where
  next : b.nextSeqNo = a.nextSeqNo
  ids : b.appliedEventIDs = a.appliedEventIDs
  marks : b.lastSeqByWorker = a.lastSeqByWorker
  places : ∀ block w, (b.location block w).map untimed = (a.location block w).map untimed

theorem untimed_iff {a b : BlockLocation} :
    untimed b = untimed a ↔ ∃ u e, b = { a with updatedAt := u, expiresAt := e } := by
  constructor
  · intro same
    refine ⟨b.updatedAt, b.expiresAt, ?_⟩
    cases a
    cases b
    simp only [untimed, BlockLocation.mk.injEq] at same ⊢
    simp [same]
  · rintro ⟨u, e, rfl⟩
    rfl

theorem untimed_normalizeLocation {a b : BlockLocation} (same : untimed b = untimed a)
    (now now' : Time) (ttl ttl' : Int) :
    untimed (normalizeLocation b now' ttl') = untimed (normalizeLocation a now ttl) := by
  obtain ⟨u, e, rfl⟩ := untimed_iff.mp same
  rfl

@[simp] theorem normalizeLocation_workerID (loc : BlockLocation) (now : Time) (ttl : Int) :
    (normalizeLocation loc now ttl).workerID = loc.workerID := rfl

@[simp] theorem normalizeLocation_seqNo (loc : BlockLocation) (now : Time) (ttl : Int) :
    (normalizeLocation loc now ttl).seqNo = loc.seqNo := rfl

namespace Index

def revision (idx : Index) : Int :=
  if idx.nextSeqNo < maxInt64 then idx.nextSeqNo + 1 else idx.nextSeqNo

theorem storeLocationLocked_snd (idx : Index) (now : Time) (loc : BlockLocation)
    (rejectStale ordered : Bool) :
    let seqNo := if loc.seqNo = 0 then idx.revision else loc.seqNo
    let next := if loc.seqNo ≠ 0 ∧ loc.seqNo > idx.revision then loc.seqNo else idx.revision
    let kept := normalizeLocation { loc with seqNo := seqNo } now idx.ttl
    let stored : Index := { idx with
      nextSeqNo := next
      byBlock := idx.byBlock.insert kept.blockHash
        (((idx.byBlock.lookup kept.blockHash).getD ∅).insert kept.workerID kept) }
    (idx.storeLocationLocked now loc rejectStale ordered).2 =
      bif rejectStale && ordered && !idx.seqFreshLocked kept.workerID kept.seqNo then
        { idx with nextSeqNo := next }
      else bif ordered then stored.markWorkerSeqLocked kept.workerID kept.seqNo else stored := by
  intro seqNo next kept stored
  have fresh : ({ idx with nextSeqNo := next } : Index).seqFreshLocked kept.workerID kept.seqNo =
      idx.seqFreshLocked kept.workerID kept.seqNo := rfl
  unfold storeLocationLocked
  change (if (rejectStale && ordered && !({ idx with nextSeqNo := next } : Index).seqFreshLocked
      kept.workerID kept.seqNo) = true then (false, ({ idx with nextSeqNo := next } : Index))
    else (true, if ordered then stored.markWorkerSeqLocked kept.workerID kept.seqNo
      else stored)).2 = _
  rw [fresh]
  cases rejectStale && ordered && !idx.seqFreshLocked kept.workerID kept.seqNo with
  | true => rfl
  | false => cases ordered <;> rfl

theorem evictLocked_stale {idx : Index} {block : BlockHash} {w : WorkerID} {seqNo : Int}
    {rejectStale : Bool} (stale : (rejectStale && !idx.seqFreshLocked w seqNo) = true) :
    (idx.evictLocked block w seqNo rejectStale).2 = idx := by
  rw [evictLocked, if_pos stale]

theorem evictLocked_fresh_cases {idx : Index} (block : BlockHash) {w : WorkerID} {seqNo : Int}
    {rejectStale : Bool} (fresh : (rejectStale && !idx.seqFreshLocked w seqNo) = false) :
    ((∀ loc, idx.location block w = some loc → seqNo < loc.seqNo) ∧
      (idx.evictLocked block w seqNo rejectStale).2 = idx.markWorkerSeqLocked w seqNo) ∨
    ∃ loc locations, idx.location block w = some loc ∧ ¬ seqNo < loc.seqNo ∧
      idx.byBlock.lookup block = some locations ∧
      (idx.evictLocked block w seqNo rejectStale).2 =
        ({ idx with byBlock := dropLocation idx.byBlock block locations w } : Index).markWorkerSeqLocked
          w seqNo := by
  unfold evictLocked location
  rw [fresh]
  cases outer : idx.byBlock.lookup block with
  | none => exact .inl ⟨fun loc wrong => (by cases wrong), rfl⟩
  | some locations =>
    cases inner : locations.lookup w with
    | none => exact .inl ⟨fun loc wrong => by simp [inner] at wrong, by simp [inner]⟩
    | some loc =>
      by_cases newer : seqNo < loc.seqNo
      · refine .inl ⟨fun other found => ?_, by simp [inner, newer]⟩
        simp only [Option.bind_some, inner, Option.some.injEq] at found
        rwa [← found]
      · exact .inr ⟨loc, locations, by simp [inner], newer, rfl, by simp [inner, newer]⟩

end Index

namespace SameButTimes

variable {a b : Index} (h : SameButTimes a b)

include h

theorem lastSeq (w : WorkerID) : b.lastSeq w = a.lastSeq w := by
  rw [Index.lastSeq, Index.lastSeq, h.marks]

theorem seqFreshLocked (w : WorkerID) (seqNo : Int) :
    b.seqFreshLocked w seqNo = a.seqFreshLocked w seqNo := by
  rw [Index.seqFreshLocked, Index.seqFreshLocked, h.lastSeq]

theorem mark (w : WorkerID) (seqNo : Int) :
    SameButTimes (a.markWorkerSeqLocked w seqNo) (b.markWorkerSeqLocked w seqNo) := by
  unfold Index.markWorkerSeqLocked
  rw [h.lastSeq w]
  split_ifs
  · exact h
  · exact ⟨h.next, h.ids, by rw [h.marks], h.places⟩
  · exact h

theorem withNext (next : Int) :
    SameButTimes { a with nextSeqNo := next } { b with nextSeqNo := next } :=
  ⟨rfl, h.ids, h.marks, h.places⟩

theorem insert (next : Int) {loc loc' : BlockLocation} (same : untimed loc' = untimed loc) :
    SameButTimes
      { a with
        nextSeqNo := next
        byBlock := a.byBlock.insert loc.blockHash
          (((a.byBlock.lookup loc.blockHash).getD ∅).insert loc.workerID loc) }
      { b with
        nextSeqNo := next
        byBlock := b.byBlock.insert loc'.blockHash
          (((b.byBlock.lookup loc'.blockHash).getD ∅).insert loc'.workerID loc') } := by
  refine ⟨rfl, h.ids, h.marks, fun block w => ?_⟩
  rw [Index.location_insert, Index.location_insert]
  have key : loc'.blockHash = loc.blockHash ∧ loc'.workerID = loc.workerID := by
    obtain ⟨u, e, rfl⟩ := untimed_iff.mp same
    exact ⟨rfl, rfl⟩
  rw [key.1, key.2]
  split_ifs
  · simp [same]
  · exact h.places block w

theorem storeLocationLocked (now now' : Time) {loc loc' : BlockLocation}
    (same : untimed loc' = untimed loc) (rejectStale ordered : Bool) :
    SameButTimes (a.storeLocationLocked now loc rejectStale ordered).2
      (b.storeLocationLocked now' loc' rejectStale ordered).2 := by
  obtain ⟨u, e, rfl⟩ := untimed_iff.mp same
  have kept := untimed_normalizeLocation (b := { loc with
      seqNo := if loc.seqNo = 0 then a.revision else loc.seqNo, updatedAt := u, expiresAt := e })
    (a := { loc with seqNo := if loc.seqNo = 0 then a.revision else loc.seqNo }) rfl now now' a.ttl
    b.ttl
  have revision : b.revision = a.revision := by rw [Index.revision, Index.revision, h.next]
  rw [Index.storeLocationLocked_snd, Index.storeLocationLocked_snd, revision]
  have fresh := h.seqFreshLocked loc.workerID (if loc.seqNo = 0 then a.revision else loc.seqNo)
  have stored := h.insert
    (if loc.seqNo ≠ 0 ∧ loc.seqNo > a.revision then loc.seqNo else a.revision) kept
  dsimp only [normalizeLocation_workerID, normalizeLocation_seqNo] at fresh stored ⊢
  simp only [fresh]
  cases rejectStale && ordered && !a.seqFreshLocked loc.workerID
      (if loc.seqNo = 0 then a.revision else loc.seqNo) with
  | true => exact h.withNext _
  | false =>
    cases ordered with
    | true => exact stored.mark _ _
    | false => exact stored

theorem evictLocked (block : BlockHash) (w : WorkerID) (seqNo : Int) (rejectStale : Bool) :
    SameButTimes (a.evictLocked block w seqNo rejectStale).2
      (b.evictLocked block w seqNo rejectStale).2 := by
  have fresh := h.seqFreshLocked w seqNo
  cases stale : rejectStale && !a.seqFreshLocked w seqNo with
  | true =>
    rw [Index.evictLocked_stale stale, Index.evictLocked_stale (by rw [fresh]; exact stale)]
    exact h
  | false =>
    have here := @Index.evictLocked_fresh_cases a block w seqNo rejectStale stale
    have there := @Index.evictLocked_fresh_cases b block w seqNo rejectStale (by rw [fresh]; exact stale)
    have seqs : ∀ loc loc', a.location block w = some loc → b.location block w = some loc' →
        loc'.seqNo = loc.seqNo := by
      intro loc loc' found found'
      have same := h.places block w
      rw [found, found'] at same
      obtain ⟨u, e, rfl⟩ := untimed_iff.mp (Option.some.inj same)
      rfl
    have exist : (b.location block w).isSome = (a.location block w).isSome := by
      simpa using congrArg Option.isSome (h.places block w)
    rcases here with ⟨kept, shape⟩ | ⟨loc, locations, found, newer, outer, shape⟩
    · rcases there with ⟨-, shape'⟩ | ⟨loc', locations', found', newer', -, -⟩
      · rw [shape, shape']
        exact h.mark w seqNo
      · obtain ⟨loc, found⟩ := Option.isSome_iff_exists.mp (by rw [← exist, found']; rfl)
        exact absurd (kept loc found) (by rw [← seqs loc loc' found found']; exact newer')
    · rcases there with ⟨kept', -⟩ | ⟨loc', locations', found', -, outer', shape'⟩
      · obtain ⟨loc', found'⟩ := Option.isSome_iff_exists.mp (by rw [exist, found]; rfl)
        exact absurd (kept' loc' found') (by rw [seqs loc loc' found found']; exact newer)
      · have dropped : SameButTimes
            { a with byBlock := Index.dropLocation a.byBlock block locations w }
            { b with byBlock := Index.dropLocation b.byBlock block locations' w } := by
          refine ⟨h.next, h.ids, h.marks, fun other v => ?_⟩
          rw [Index.location_dropLocation _ _ _ _ _ outer,
            Index.location_dropLocation _ _ _ _ _ outer']
          split_ifs
          · rfl
          · exact h.places other v
        rw [shape, shape']
        exact dropped.mark w seqNo

theorem acceptEventLocked {event event' : Event} (id : event'.eventID = event.eventID)
    (worker : event'.workerID = event.workerID) (seqNo : event'.seqNo = event.seqNo) :
    (b.acceptEventLocked event').1 = (a.acceptEventLocked event).1 ∧
      SameButTimes (a.acceptEventLocked event).2 (b.acceptEventLocked event').2 := by
  unfold Index.acceptEventLocked
  rw [id, worker, seqNo, h.ids]
  by_cases seen : event.eventID ≠ "" ∧ event.eventID ∈ a.appliedEventIDs
  · rw [if_pos seen, if_pos seen]
    exact ⟨rfl, h⟩
  have consumed : SameButTimes
      (if event.eventID ≠ "" then
        { a with appliedEventIDs := a.appliedEventIDs.insert event.eventID () } else a)
      (if event.eventID ≠ "" then
        { b with appliedEventIDs := a.appliedEventIDs.insert event.eventID () } else b) := by
    split_ifs
    · exact ⟨h.next, rfl, h.marks, h.places⟩
    · exact h
  rw [if_neg seen, if_neg seen]
  dsimp only
  rw [consumed.lastSeq, consumed.seqFreshLocked]
  by_cases old : event.workerID ≠ "" ∧ event.seqNo > 0 ∧ event.seqNo ≤ Index.lastSeq
      (if event.eventID ≠ "" then
        { a with appliedEventIDs := a.appliedEventIDs.insert event.eventID () } else a)
      event.workerID
  · rw [if_pos old, if_pos old]
    exact ⟨rfl, consumed⟩
  · rw [if_neg old, if_neg old]
    exact ⟨rfl, consumed⟩

end SameButTimes

/-! ## Stamped events -/

/-- The event with other values in the two fields nothing reads. -/
def restamp (version stamp : Int) (event : Event) : Event :=
  { event with schemaVersion := version, timestampMS := stamp }

theorem mergeLocation_restamp (version stamp : Int) (event : Event) (loc : BlockLocation) :
    mergeLocation (restamp version stamp event) loc =
      (mergeLocation event loc).map (restamp version stamp) := by
  unfold mergeLocation
  simp only [apply_ite (Except.map (restamp version stamp))]
  rfl

theorem requireIdentity_restamp (version stamp : Int) (event : Event) :
    requireIdentity (restamp version stamp event) =
      (requireIdentity event).map (restamp version stamp) := by
  unfold requireIdentity
  rw [apply_ite (Except.map (restamp version stamp))]
  rfl

theorem validateEvent_restamp (version stamp : Int) (event : Event) :
    validateEvent (restamp version stamp event) =
      (validateEvent event).map (restamp version stamp) := by
  have plain := requireIdentity_restamp version stamp event
  unfold validateEvent
  simp only [show (restamp version stamp event).seqNo = event.seqNo from rfl,
    show (restamp version stamp event).eventType = event.eventType from rfl,
    show (restamp version stamp event).tokens = event.tokens from rfl,
    show (restamp version stamp event).location = event.location from rfl, plain]
  split_ifs
  · rfl
  · rfl
  · cases event.location with
    | none => rfl
    | some loc =>
      simp only [mergeLocation_restamp]
      cases mergeLocation event loc with
      | error message => rfl
      | ok merged => exact requireIdentity_restamp version stamp merged
  · rfl
  · rfl
  · rfl

theorem SameButTimes.applyEvent {a b : Index} (h : SameButTimes a b) (version stamp : Int)
    (clock clock' : Clock) (event : Event) :
    (b.applyEvent clock' (restamp version stamp event)).1 = (a.applyEvent clock event).1 ∧
      SameButTimes (a.applyEvent clock event).2
        (b.applyEvent clock' (restamp version stamp event)).2 := by
  unfold Index.applyEvent
  rw [validateEvent_restamp]
  cases validateEvent event with
  | error message => exact ⟨rfl, h⟩
  | ok valid =>
    obtain ⟨verdict, after⟩ := @SameButTimes.acceptEventLocked a b h valid
      (restamp version stamp valid) rfl rfl rfl
    simp only [Except.map]
    cases here : a.acceptEventLocked valid with
    | mk accepted a' =>
      cases there : b.acceptEventLocked (restamp version stamp valid) with
      | mk accepted' b' =>
        rw [here, there] at verdict after
        dsimp only at verdict after
        subst verdict
        cases accepted' with
        | false => exact ⟨rfl, after⟩
        | true =>
          have place : untimed (eventLocation (restamp version stamp valid) clock' b'.ttl) =
              untimed (eventLocation valid clock a'.ttl) := by
            unfold eventLocation
            rw [show (restamp version stamp valid).location = valid.location from rfl]
            cases valid.location <;> rfl
          simp only [show (restamp version stamp valid).eventType = valid.eventType from rfl]
          split_ifs
          · exact ⟨rfl, after.storeLocationLocked clock.now clock'.now place true _⟩
          · exact ⟨rfl, after.evictLocked valid.blockHash valid.workerID valid.seqNo true⟩
          · exact ⟨rfl, after⟩

theorem stampEvent_eq (nowMS : Int) (event : Event) :
    ∃ version stamp, stampEvent nowMS event = restamp version stamp event := ⟨_, _, rfl⟩

theorem SameButTimes.applyLogged {a b live : Index} (h : SameButTimes a b) (clocks clocks' : Nat → Clock)
    {entries : List (Event × Int)}
    (passed : a.applyLogged clocks (entries.map Prod.fst) = (none, live)) :
    ∃ idx, b.applyLogged clocks' (entries.map fun entry => stampEvent entry.2 entry.1) = (none, idx) ∧
      SameButTimes live idx := by
  induction entries generalizing a b with
  | nil =>
    cases passed
    exact ⟨b, rfl, h⟩
  | cons entry rest ih =>
    obtain ⟨version, stamp, stamped⟩ := stampEvent_eq entry.2 entry.1
    obtain ⟨verdict, next⟩ := h.applyEvent version stamp (clocks rest.length)
      (clocks' rest.length) entry.1
    simp only [List.map_cons, Index.applyLogged, List.length_map, stamped] at passed ⊢
    cases here : a.applyEvent (clocks rest.length) entry.1 with
    | mk failure a' =>
      cases there : b.applyEvent (clocks' rest.length) (restamp version stamp entry.1) with
      | mk failure' b' =>
        rw [here, there] at verdict next
        rw [here] at passed
        dsimp only at verdict next
        subst verdict
        cases failure' with
        | some message => cases passed
        | none => exact ih next passed

/-! ## The log as a whole -/

section Whole

variable {locationText : BlockLocation → Except String Text}

abbrev Records (locationText : BlockLocation → Except String Text) (entries : List (Event × Int))
    (records : List Bytes) : Prop :=
  List.Forall₂ (fun entry raw => marshalEvent locationText (stampEvent entry.2 entry.1) = .ok raw)
    entries records

theorem appendEvents_ok {start file : Option Bytes} {entries : List (Event × Int)}
    (written : appendEvents locationText start entries = .ok file) :
    ∃ records, Records locationText entries records ∧
      file.getD [] = start.getD [] ++ writeLines records ∧
      (file.isSome ↔ start.isSome ∨ entries ≠ []) := by
  induction entries generalizing start with
  | nil =>
    cases written
    exact ⟨[], .nil, by simp [writeLines], by simp⟩
  | cons entry rest ih =>
    unfold appendEvents appendEvent at written
    cases marshalled : marshalEvent locationText (stampEvent entry.2 entry.1) with
    | error message =>
      rw [marshalled] at written
      cases written
    | ok raw =>
      rw [marshalled] at written
      obtain ⟨records, each, bytes, there⟩ := ih written
      refine ⟨raw :: records, .cons marshalled each, ?_, by simp [there]⟩
      rw [bytes]
      simp [writeLines]

theorem decodeLines_records {unmarshal : Bytes → Except String Event} {entries : List (Event × Int)}
    {records : List Bytes}
    (each : List.Forall₂ (fun entry raw => raw ≠ [] ∧
      unmarshal raw = .ok (stampEvent entry.2 entry.1)) entries records) (lineno : Nat) :
    decodeLines unmarshal lineno records =
      .ok (entries.map fun entry => stampEvent entry.2 entry.1) := by
  induction each generalizing lineno with
  | nil => rfl
  | cons here later ih =>
    rw [decodeLines, if_neg here.1, here.2]
    simp only [ih]
    rfl

theorem readEvents_records {unmarshal : Bytes → Except String Event} {entries : List (Event × Int)}
    {records : List Bytes} (safe : ∀ raw ∈ records, LineSafe raw)
    (each : List.Forall₂ (fun entry raw => raw ≠ [] ∧
      unmarshal raw = .ok (stampEvent entry.2 entry.1)) entries records) :
    readEvents unmarshal (some (writeLines records)) =
      if records.all (·.length < maxScanTokenSize) then
        .ok (entries.map fun entry => stampEvent entry.2 entry.1)
      else .error .tokenTooLong := by
  rw [readEvents, scanLines_writeLines safe]
  -- the lines delivered before a long one decode as well
  obtain ⟨front, shape⟩ : ∃ front, List.Forall₂ (fun entry raw => raw ≠ [] ∧
      unmarshal raw = .ok (stampEvent entry.2 entry.1)) front
        (records.takeWhile (·.length < maxScanTokenSize)) ∧
      (records.all (·.length < maxScanTokenSize) = true → front = entries) := by
    induction each with
    | nil => exact ⟨[], .nil, fun _ => rfl⟩
    | @cons entry raw entries records here later ih =>
      obtain ⟨front, decoded, whole⟩ := ih fun line member => safe line (.tail raw member)
      by_cases fits : raw.length < maxScanTokenSize
      · refine ⟨entry :: front, ?_, fun all => ?_⟩
        · rw [List.takeWhile_cons_of_pos (by simpa using fits)]
          exact .cons here decoded
        · rw [whole (by simp only [List.all_cons, Bool.and_eq_true] at all; exact all.2)]
      · refine ⟨[], ?_, fun all => ?_⟩
        · rw [List.takeWhile_cons_of_neg (by simpa using fits)]
          exact .nil
        · simp [fits] at all
  dsimp only
  rw [decodeLines_records shape.1]
  by_cases all : records.all (·.length < maxScanTokenSize) = true
  · simp only [shape.2 all, all, Bool.not_true, Bool.false_eq_true, if_false, if_true]
  · simp [all]

end Whole

/-- Replaying a log rebuilds the live index exactly when the file is there and
every record fits the scanner's buffer. -/
theorem event_log_replay_iff (locationText : BlockLocation → Except String Text)
    (unmarshal : Bytes → Except String Event)
    (lines : ∀ loc t, locationText loc = .ok t → OneLine t) (ttl ttl' : Int)
    (entries : List (Event × Int)) (clocks clocks' : Nat → Clock) (live : Index)
    (passed : (Index.new ttl).applyLogged clocks (entries.map Prod.fst) = (none, live))
    (start file : Option Bytes) (fresh : start.getD [] = [])
    (written : appendEvents locationText start entries = .ok file)
    (decodes : ∀ entry ∈ entries, ∀ raw,
      marshalEvent locationText (stampEvent entry.2 entry.1) = .ok raw →
        unmarshal raw = .ok (stampEvent entry.2 entry.1)) :
    (∃ idx, replayEventLog unmarshal file 0 clocks' (Index.new ttl') = (.ok entries.length, idx) ∧
      (∀ b w, (idx.location b w).map untimed = (live.location b w).map untimed) ∧
      ∀ w, idx.lastSeq w = live.lastSeq w) ↔
    (start.isSome ∨ entries ≠ []) ∧
      ∀ entry ∈ entries, ∀ raw, marshalEvent locationText (stampEvent entry.2 entry.1) = .ok raw →
        raw.length < 65536 := by
  obtain ⟨records, each, bytes, there⟩ := appendEvents_ok written
  rw [fresh, List.nil_append] at bytes
  rw [← there]
  have safe : ∀ raw ∈ records, LineSafe raw := by
    intro raw member
    obtain ⟨entry, -, marshalled⟩ := forall₂_mem_right each member
    exact (marshalEvent_lineSafe lines marshalled).1
  have decoded : List.Forall₂ (fun entry raw => raw ≠ [] ∧
      unmarshal raw = .ok (stampEvent entry.2 entry.1)) entries records := by
    refine forall₂_imp_mem each fun entry raw member marshalled => ?_
    exact ⟨(marshalEvent_lineSafe lines marshalled).2, decodes entry member raw marshalled⟩
  have fits : records.all (·.length < maxScanTokenSize) = true ↔
      ∀ entry ∈ entries, ∀ raw, marshalEvent locationText (stampEvent entry.2 entry.1) = .ok raw →
        raw.length < 65536 := by
    simp only [List.all_eq_true, decide_eq_true_eq]
    constructor
    · intro short entry member raw marshalled
      obtain ⟨raw', inside, same⟩ := forall₂_mem_left each member
      cases Except.ok.inj (marshalled.symm.trans same)
      exact short raw inside
    · intro short raw member
      obtain ⟨entry, inside, marshalled⟩ := forall₂_mem_right each member
      exact short entry inside raw marshalled
  have empty : SameButTimes (Index.new ttl) (Index.new ttl') := ⟨rfl, rfl, rfl, fun _ _ => rfl⟩
  obtain ⟨idx, replayed, same⟩ := empty.applyLogged clocks clocks' passed
  cases file with
  | none =>
    constructor
    · rintro ⟨idx, result, -⟩
      cases result
    · rintro ⟨wrong, -⟩
      cases wrong
  | some contents =>
    obtain rfl : contents = writeLines records := bytes
    have read := readEvents_records safe decoded
    rw [← fits]
    by_cases short : records.all (·.length < maxScanTokenSize) = true
    · rw [if_pos short] at read
      refine ⟨fun _ => ⟨rfl, short⟩, fun _ => ⟨idx, ?_, same.places, same.lastSeq⟩⟩
      simp only [replayEventLog, read, lastEvents, Int.lt_irrefl, false_and, if_false, replayed,
        List.length_map]
    · rw [if_neg short] at read
      constructor
      · rintro ⟨idx, result, -⟩
        simp only [replayEventLog, read] at result
        cases result
      · rintro ⟨-, wrong⟩
        exact absurd wrong short

/-! ## A record of more than 64 KiB -/

/-- A store whose block hash alone fills the scanner's buffer. -/
def longEvent : Event :=
  { eventType := "block_stored", blockHash := String.ofList (List.replicate 65536 'a'),
    workerID := "w", seqNo := 1 }

theorem length_longEvent : longEvent.blockHash.length = 65536 := by
  change (String.ofList (List.replicate 65536 'a')).length = 65536
  rw [String.length_ofList, List.length_replicate]

theorem validateEvent_longEvent : validateEvent longEvent = .ok longEvent := by
  have named : longEvent.blockHash ≠ "" := by
    intro empty
    have lengths := congrArg String.length empty
    rw [length_longEvent] at lengths
    exact absurd lengths (by decide)
  have identity : requireIdentity longEvent = .ok longEvent :=
    if_neg (not_or.mpr ⟨named, by decide⟩)
  unfold validateEvent
  rw [if_neg (by decide), if_pos (show longEvent.eventType = "block_stored" from rfl),
    if_neg (by decide)]
  exact identity

theorem applyEvent_of_valid {idx : Index} {clock : Clock} {event valid : Event}
    (check : validateEvent event = .ok valid) : (idx.applyEvent clock event).1 = none := by
  cases failure : idx.applyEvent clock event with
  | mk message idx' =>
    cases message with
    | none => rfl
    | some message =>
      unfold Index.applyEvent at failure
      rw [check] at failure
      dsimp only at failure
      split at failure
      · cases failure
      · rcases (validateEvent_ok check).kind with stored | evicted
        · rw [if_pos stored] at failure
          cases failure
        · rw [evicted, if_neg (by decide), if_pos rfl] at failure
          cases failure

def sampleClock : Clock := { updatedAt := 5, expiresBase := 5, now := 5 }

def noLocation : BlockLocation → Except String Text := fun _ => .ok []

/-- The live index takes the event, the log takes it too, and reading the log fails. -/
theorem long_record_stops_replay :
    ∃ file, ((Index.new 10).applyEvent sampleClock longEvent).1 = none ∧
      appendEvents noLocation none [(longEvent, 7)] = .ok file ∧
      (replayEventLog (fun _ => .ok (stampEvent 7 longEvent)) file 0 (fun _ => sampleClock)
        (Index.new 10)).1 = .error .tokenTooLong := by
  have marshalled : marshalEvent noLocation (stampEvent 7 longEvent) =
      .ok ((eventParts (stampEvent 7 longEvent) none).flatten.flatMap utf8Char) := rfl
  obtain ⟨safe, some⟩ := marshalEvent_lineSafe
    (fun loc t same => by cases Except.ok.inj same; exact oneLine_nil) marshalled
  have long := length_blockHash_le marshalled
  set raw := (eventParts (stampEvent 7 longEvent) none).flatten.flatMap utf8Char
  refine ⟨Option.some (writeLines [raw]), applyEvent_of_valid validateEvent_longEvent, ?_, ?_⟩
  · simp only [appendEvents, appendEvent, marshalled]
    simp [writeLines, bind, Except.bind, pure, Except.pure]
  · have read := @readEvents_records (fun _ => .ok (stampEvent 7 longEvent)) [(longEvent, 7)] [raw]
      (by simpa using safe) (.cons ⟨some, rfl⟩ .nil)
    have full : ¬ [raw].all (·.length < maxScanTokenSize) = true := by
      change longEvent.blockHash.length ≤ raw.length at long
      rw [length_longEvent] at long
      have beyond : ¬ raw.length < maxScanTokenSize := Nat.not_lt.mpr long
      simp [beyond]
    rw [if_neg full] at read
    rw [replayEventLog, read]

theorem sample_log_replays :
    ∃ idx, replayEventLog (fun _ => .ok (stampEvent 7 sampleStore.1))
        (some (writeLines [((eventParts (stampEvent 7 sampleStore.1) none).flatten.flatMap
          utf8Char)])) 0 (fun _ => sampleClock) (Index.new 10) = (.ok 1, idx) ∧
      (idx.location "b" "w").map untimed =
        (((Index.new 10).applyLogged (fun _ => sampleClock) [sampleStore.1]).2.location "b"
          "w").map untimed := by
  obtain ⟨idx, replayed, places, -⟩ := (event_log_replay_iff noLocation
    (fun _ => .ok (stampEvent 7 sampleStore.1))
    (fun loc t same => by cases Except.ok.inj same; exact oneLine_nil) 10 10 [(sampleStore.1, 7)]
    (fun _ => sampleClock) (fun _ => sampleClock)
    ((Index.new 10).applyLogged (fun _ => sampleClock) [sampleStore.1]).2
    (Prod.ext (by decide +kernel) rfl) none
    (some (writeLines [((eventParts (stampEvent 7 sampleStore.1) none).flatten.flatMap
      utf8Char)])) rfl (by simp [appendEvents, appendEvent, marshalEvent, eventText, stampEvent,
        sampleStore, writeLines, bind, Except.bind, pure, Except.pure]) (by
        intro entry member raw _
        cases List.mem_singleton.mp member
        rfl)).mpr ⟨.inr (by decide), by
          intro entry member raw marshalled
          cases List.mem_singleton.mp member
          cases Except.ok.inj marshalled
          decide +kernel⟩
  exact ⟨idx, replayed, places "b" "w"⟩

end AiStorage.Router
