import AiStorage.KV.StoreFull

/-!
# Errors of the file-backed tier

Reading, checking and placing records, and every call that is made of it, raise other
exceptions than `StoreFull`; that one is left to `_ensure_capacity` and the size check.
-/
namespace AiStorage.KV
open Lib Prog MetadataStore

/-! ## Places and records -/

section Pure

theorem notFull_requireDescendant (root candidate : Path) :
    Raises NotFull (requireDescendant root candidate) := by
  simp only [requireDescendant]
  split_ifs
  · exact .ok _
  · exact .error (by decide)

theorem notFull_parseUri (uri : Text) : Raises NotFull (parseUri uri) := by
  unfold parseUri
  split
  · exact .ok _
  · exact .error (by decide)

theorem notFull_quoteText (s : Text) : Raises NotFull (quoteText s) := by
  unfold quoteText
  split
  · exact .ok _
  · exact .error (by decide)

variable (now : Readings) (source : Text)

theorem notFull_headerMetadata (v : PyVal) : Raises NotFull (headerMetadata now source v) := by
  cases v with
  | dict items =>
    have checked : Raises NotFull (checkedMetadata now (.dict items)) :=
      .bind ((raises_fromDict now _).mono notFull_of_dataError) fun m _ =>
        .bind (notFull_validate m) fun _ _ => .ok _
    simp only [headerMetadata]
    cases built : checkedMetadata now (.dict items) with
    | ok m => exact .ok _
    | error e => exact .ite_error (fun wrong => by cases wrong) (checked e built)
  | _ => exact .error fun wrong => by cases wrong

theorem notFull_decodeRecordHeader (raw : Bytes) (maxPayloadBytes : Int) :
    Raises NotFull (decodeRecordHeader now raw source maxPayloadBytes true) := by
  have object : Raises NotFull (decodeObject source raw) := by
    unfold decodeObject
    split
    · exact .ok _
    · exact .error nofun
    · exact .error nofun
  have layout : ∀ v, Raises NotFull (checkLayout true source v) := by
    intro v
    cases v with
    | str s => exact .require nofun
    | _ => exact .error nofun
  have preamble : Raises NotFull (decodePreamble raw source maxPayloadBytes) :=
    .bind (.require nofun) fun _ _ => .bind object fun _ _ => .bind (.require nofun) fun _ _ =>
      .bind (.require nofun) fun _ _ => .bind (.require nofun) fun _ _ => .ok _
  exact .bind preamble fun _ _ => .bind (layout _) fun _ _ =>
    .bind (notFull_headerMetadata now source _) fun _ _ => .bind (.require nofun) fun _ _ => .ok _

theorem notFull_readRecord (maxBytes : Int) (bytes : Bytes) :
    Raises NotFull (readRecord now source maxBytes bytes) :=
  .bind (.require nofun) fun _ _ => .bind (.require nofun) fun _ _ =>
    .bind (.require nofun) fun _ _ => .bind (.require nofun) fun _ _ =>
    .bind (notFull_decodeRecordHeader _ _ _ _) fun _ _ => .bind (.require nofun) fun _ _ => .ok _

theorem notFull_encodeRecordHeader (header : Header) : Raises NotFull (encodeRecordHeader header) := by
  unfold encodeRecordHeader
  split
  · exact .error (by decide)
  · split
    · exact .error (by decide)
    · split_ifs
      · exact .error (by decide)
      · exact .ok _

theorem notFull_lruCandidates (s : MetadataStore) (tier : TierName) (limit : Nat) :
    Raises NotFull (s.lruCandidates now tier limit) :=
  .bind (.require (by decide)) fun _ _ => .mapM (fun row =>
    .bind (notFull_decodeMetadata now _) fun _ _ => notFull_locationFromRow _ row) _

end Pure

namespace NVMeTier

variable (tier : NVMeTier)

theorem notFull_resolve (s : Text) : Raises NotFull (tier.resolve s) := by
  unfold resolve
  split
  · exact .ok _
  · exact .error (by decide)

theorem notFull_pathFromLocation (location : BlockLocation) :
    Raises NotFull (tier.pathFromLocation location) := by
  refine .bind (notFull_parseUri _) fun _ _ => .bind (.require (by decide)) fun _ _ =>
    .bind (tier.notFull_resolve _) fun _ _ => ?_
  split
  · exact .error (by decide)
  · exact .bind (.require (by decide)) fun _ _ => .ok _

theorem notFull_queryInt (name : String) (query : Text) : Raises NotFull (queryInt name query) := by
  unfold queryInt
  split
  · exact .ok _
  · exact .error (by decide)

theorem notFull_segmentRefFromUri (uri : Text) (key : Option BlockKey) :
    Raises NotFull (tier.segmentRefFromUri uri key) := by
  refine .bind (notFull_parseUri _) fun _ _ => .bind (.require (by decide)) fun _ _ =>
    .bind (notFull_queryInt _ _) fun _ _ => .bind (notFull_queryInt _ _) fun _ _ =>
    .bind (.require (by decide)) fun _ _ => .bind (.require (by decide)) fun _ _ =>
    .bind (tier.notFull_resolve _) fun _ _ => .bind (.require (by decide)) fun _ _ =>
    .bind ?_ fun _ _ => .ok _
  unfold checkSegmentKey
  split
  · exact .ok _
  · exact .bind (notFull_requireDescendant _ _) fun _ _ => .require (by decide)

theorem notFull_validatedLocationTarget (location : BlockLocation) :
    Raises NotFull (tier.validatedLocationTarget location) := by
  unfold validatedLocationTarget
  split_ifs
  · exact .error (by decide)
  · split
    · split
      · exact .ok _
      · next e failed =>
        exact .ite_error (by decide) (tier.notFull_segmentRefFromUri _ _ e failed)
    · exact .bind (notFull_parseUri _) fun _ _ => .bind (.require (by decide)) fun _ _ =>
        .bind (tier.notFull_pathFromLocation location) fun _ _ => .ok _

/-! ## Files -/

theorem notFull_contentOf (path : Path) (w : World) : Raises NotFull (Act.contentOf path w) := by
  unfold Act.contentOf
  split
  · exact .ok _
  · exact .error (by decide)

theorem neverFull_fileExists (path : Path) : NeverFull (perform (Act.fileExists path)) :=
  .onFiles fun _ _ => .ok _

theorem neverFull_fileSize (path : Path) : NeverFull (perform (Act.fileSize path)) :=
  .onFiles fun _ w => (notFull_contentOf path w).map _

theorem neverFull_present (location : BlockLocation) : NeverFull (tier.locationExists location) := by
  refine .bind (.lift (tier.notFull_validatedLocationTarget location)) fun target => ?_
  cases target with
  | segment ref =>
    refine .bind (neverFull_fileExists ref.path) fun there => ?_
    cases there with
    | true => exact .bind (neverFull_fileSize ref.path) fun _ => .pure _
    | false => exact .pure _
  | file path => exact neverFull_fileExists path

theorem neverFull_read (location : BlockLocation) : NeverFull (tier.readLocation location) := by
  refine .bind (.lift (tier.notFull_validatedLocationTarget location)) fun target => ?_
  cases target <;>
    exact .bind (.onFiles fun _ w => notFull_contentOf _ w) fun _ =>
      .bind (.observe fun _ _ => .ok _) fun _ => .lift (.bind (notFull_readRecord _ _ _ _) fun _ _ =>
        .bind (.require nofun) fun _ _ => .ok _)

theorem neverFull_remove (location : BlockLocation) : NeverFull (tier.removeTarget location) := by
  refine .bind (.lift (tier.notFull_validatedLocationTarget location)) fun target => ?_
  cases target with
  | segment ref => exact .pure _
  | file path =>
    refine .handle (.perform fun t c w x w' done => ?_) fun e other => ?_
    · unfold Act.unlink at done
      split_ifs at done <;> cases done
      · exact .error (by decide)
      · exact .error (by decide)
      · exact .ok _
    · split_ifs
      · exact .pure _
      · exact .raise other

theorem neverFull_place (key : BlockKey) (raw data : Bytes) (m : KVMetadata) :
    NeverFull (tier.place key raw data m) := by
  unfold place
  cases tier.layoutMode with
  | segment =>
    refine .bind (.bind (.bind (.lift (notFull_requireDescendant _ _)) fun dir =>
      .bind (.onFiles fun _ _ => .ok _) fun existing => ?_) fun path => .bind (.bind
        (neverFull_fileExists path) fun there => ?_) fun _ => .bind
          (.perform fun t c w x w' done => ?_) fun _ => .pure _) fun _ =>
            .lift (.bind (.bind (notFull_quoteText _) fun _ _ => .ok _) fun _ _ => .ok _)
    · cases existing.getLast? with
      | none => exact .pure _
      | some last =>
        refine .bind (neverFull_fileSize last) fun size => ?_
        split_ifs <;> exact .pure _
    · cases there with
      | true => exact neverFull_fileSize path
      | false => exact .pure _
    · simp only [Act.append] at done
      split_ifs at done <;> cases done
      · exact .error (by decide)
      · exact .ok _
  | contentAddressed =>
    refine .bind (.lift (notFull_requireDescendant _ _)) fun path =>
      .bind (.onFiles fun _ _ => .ok _) fun _ =>
        .bind (.perform fun t c w x w' done => ?_) fun _ => .pure _
    unfold Act.replaceFile at done
    split_ifs at done <;> cases done
    · exact .error (by decide)
    · exact .ok _

/-! ## Calls -/

variable (key : BlockKey)

theorem neverFull_lookup : NeverFull (tier.lookup key) := by
  have deleted : NeverFull (perform (Act.delete key .nvme) >>= fun _ => pure none :
      Py (Option BlockLocation)) := .bind (neverFull_delete key .nvme) fun _ => .pure _
  refine .bind (KV.neverFull_lookup key .nvme) fun found => ?_
  cases found with
  | none =>
    exact .bind (.bind (.database fun _ s => .bind (.require (by decide)) fun _ _ => .ok _) fun _ =>
      .pure _) fun _ => .pure _
  | some location =>
    refine .bind (tier.neverFull_present location) fun there => ?_
    cases there with
    | true => exact .pure _
    | false =>
      refine .withMutation (.bind (KV.neverFull_lookup key .nvme) fun again => ?_)
      cases again with
      | none => exact deleted
      | some location =>
        refine .bind (tier.neverFull_present location) fun there => ?_
        cases there with
        | true => exact .pure _
        | false => exact deleted

theorem neverFull_evict : NeverFull (tier.evict key) := by
  refine .withMutation (.bind (.exclusive fun _ s => notFull_beginDelete s key .nvme) fun begun => ?_)
  cases begun with
  | none => exact .pure _
  | some location =>
    exact .bind (tier.neverFull_remove location) fun _ =>
      .bind (.exclusive fun _ s => notFull_finishDelete s key .nvme) fun _ =>
      .bind (.lift (.require (by decide))) fun _ => .pure _

theorem neverFull_readAcquired (location : BlockLocation) :
    NeverFull (tier.backend.readAcquired key location) := by
  have layout : ∀ header, Raises NotFull (tier.checkRecordLayout key location header) := by
    refine fun header => .bind (tier.notFull_validatedLocationTarget location) fun target _ => ?_
    cases target <;> exact .require nofun
  have persisted : ∀ m found, Raises NotFull (Backend.checkPersisted key m found) := by
    intro m found
    cases found with
    | none => exact .error nofun
    | some persisted => exact .bind (.require nofun) fun _ _ => .bind (.require nofun) fun _ _ => .ok _
  exact .bind (tier.neverFull_read location) fun _ => .bind (.observe fun _ _ => .ok _) fun now =>
    .bind (.lift ((raises_fromDict now _).mono notFull_of_dataError)) fun _ =>
    .bind (.lift (.bind (layout _) fun _ _ => .bind (.require nofun) fun _ _ =>
      .bind (.require nofun) fun _ _ => .bind (.require nofun) fun _ _ => .require nofun)) fun _ =>
    .bind (.database fun c s => notFull_touch s key .nvme c.clock) fun _ =>
    .bind (neverFull_getMetadata key .nvme) fun _ => .bind (.lift (persisted _ _)) fun _ => .pure _

theorem neverFull_finishLoad {result : Except PyError LoadResult} (raises : Raises NotFull result) :
    NeverFull (tier.backend.finishLoad key result) := by
  have release : NeverFull (perform (Act.release key .nvme)) :=
    .database fun _ s => notFull_release s key .nvme
  unfold Backend.finishLoad finishGuarded
  cases result with
  | ok loaded => exact .bind release fun _ => .ret raises
  | error e =>
    dsimp only
    split_ifs
    · refine .bind (.handle release fun _ _ => .raise nofun) fun _ =>
        .bind (.handle (.bind (tier.neverFull_evict key) fun removed => ?_) fun _ _ => .raise nofun)
          fun _ => .raise (raises e rfl)
      cases removed with
      | true => exact .pure _
      | false =>
        refine .bind (KV.neverFull_lookup key .nvme) fun found => ?_
        cases found with
        | some location => exact .raise nofun
        | none => exact .pure _
    · exact .bind release fun _ => .raise (raises e rfl)

theorem neverFull_replay (data : Bytes) (m : KVMetadata) (existing : BlockLocation) :
    NeverFull (tier.backend.replay key data m existing) := by
  refine .bind (.bind (tier.neverFull_lookup key) fun found => ?_) fun _ =>
    .bind (.lift (.require nofun)) fun _ => .bind (.lift (.require nofun)) fun _ => neverFull_upsert _ _
  cases found with
  | none => exact .raise nofun
  | some location =>
    refine .bind (.exclusive fun _ s => notFull_lookupAndAcquire s key .nvme) fun acquired => ?_
    cases acquired with
    | none => exact .raise nofun
    | some location =>
      exact .thenDo (tier.neverFull_readAcquired key location) fun _ => tier.neverFull_finishLoad key

end NVMeTier

end AiStorage.KV
