import AiStorage.KV.Compaction
import AiStorage.KV.Presence
import AiStorage.KV.Readers

/-!
# Files, objects and memory in custody

Files and objects of different keys have different names, and a segment file only grows, so
that a store disturbs no other block.
-/
namespace AiStorage.KV
open Lib Prog MetadataStore Vault

namespace NVMeTier

variable (tier : NVMeTier)

/-- The bytes of a segment that a reference names, if the file is long enough. -/
def segmentRange (ref : SegmentRef) (bytes : Bytes) : Option Bytes :=
  if ref.offset + ref.recordBytes ≤ bytes.length then
    some ((bytes.drop ref.offset.toNat).take ref.recordBytes.toNat)
  else none

def targetContent (w : World) : Target → Option Bytes
  | .file path => w.files.get path
  | .segment ref => (w.files.get ref.path).bind (segmentRange ref)

def content (location : BlockLocation) (w : World) : Option (Option Bytes) :=
  (tier.validatedLocationTarget location).toOption.map (targetContent w)

theorem validatedLocationTarget_congr {location other : BlockLocation} (key : location.key = other.key)
    (kind : location.tier = other.tier) (uri : location.uri = other.uri) :
    tier.validatedLocationTarget location = tier.validatedLocationTarget other := by
  unfold validatedLocationTarget pathFromLocation
  rw [key, kind, uri]

end NVMeTier

namespace S3Tier

variable (tier : S3Tier)

def content (location : BlockLocation) (w : World) : Option (Option Bytes) :=
  (tier.locationTarget location).toOption.map fun target => w.objects.get target.2

theorem locationTarget_congr {location other : BlockLocation} (key : location.key = other.key)
    (kind : location.tier = other.tier) (uri : location.uri = other.uri) :
    tier.locationTarget location = tier.locationTarget other := by
  unfold locationTarget
  rw [key, kind, uri]

end S3Tier

structure Site where
  nvme : Option NVMeTier
  s3 : Option S3Tier

namespace Site

def content (site : Site) (location : BlockLocation) (w : World) : Option (Option Bytes) :=
  match location.tier with
  | .memory => some (Act.held location.key w.memory)
  | .nvme => site.nvme.bind fun tier => tier.content location w
  | .s3 => site.s3.bind fun tier => tier.content location w

/-- The location of a segment is spelled as a compaction pass looks for it. -/
def standard (site : Site) (location : BlockLocation) : Prop :=
  location.tier = .nvme → ∀ tier, site.nvme = some tier → tier.layoutMode = .segment →
    ∀ ref, tier.segmentRefFromUri location.uri location.key = .ok ref →
      isSegmentUri location.uri = true

def vault (site : Site) : Vault where
  standard := site.standard
  spelled {location other} key kind uri spelled := by
    unfold standard
    rw [key, kind, uri]
    exact spelled
  content := site.content
  place {location other} w key kind uri := by
    unfold content NVMeTier.content S3Tier.content
    simp only [NVMeTier.validatedLocationTarget_congr _ key kind uri,
      S3Tier.locationTarget_congr _ key kind uri, key, kind]
  outside {location w w'} outside files objects := by
    unfold content
    cases kind : location.tier with
    | memory => exact absurd kind outside
    | nvme =>
      have same : NVMeTier.targetContent w' = NVMeTier.targetContent w := by
        funext target
        cases target <;> simp only [NVMeTier.targetContent, files]
      simp only [NVMeTier.content, same]
    | s3 => simp only [S3Tier.content, objects]
  inside {location w w'} inside memory := by
    unfold content
    rw [inside, memory]

end Site

/-! ## Objects -/

namespace S3Tier

variable (tier : S3Tier) {site : Site} (here : site.s3 = some tier) {t n k : Nat}
  {I G : Ledger → Prop} {location : BlockLocation}

variable {target : Text × Text}

theorem target_of_ok (found : tier.locationTarget location = .ok target) :
    location.tier = .s3 ∧ target.2 = tier.objectKey location.key := by
  simp only [locationTarget, bind_eq_ok, exists_unit, require_ok] at found
  obtain ⟨kind, parsed, -, rest⟩ := found
  split at rest
  · cases rest
  · simp only [bind_eq_ok, exists_unit, require_ok, Bool.and_eq_true] at rest
    obtain ⟨-, quoted, -, ⟨-, same⟩, built⟩ := rest
    cases built
    exact ⟨of_decide_eq_true kind, of_decide_eq_true same⟩

include here in
theorem vault_content (kind : location.tier = .s3) (w : World) :
    site.vault.content location w = tier.content location w := by
  change site.content location w = _
  unfold Site.content
  rw [kind, here]
  rfl

include here in
theorem content_of_target (found : tier.locationTarget location = .ok target)
    (w : World) : site.vault.content location w = some (w.objects.get target.2) := by
  rw [tier.vault_content here (tier.target_of_ok found).1, content, found]
  rfl

include here in
theorem content_other (key : BlockKey) {objects : Dict Text Bytes} {l : Ledger}
    (apart : location.key ≠ key ∨ location.tier ≠ .s3)
    (others : ∀ name, name ≠ tier.objectKey key → objects.get name = l.world.objects.get name) :
    site.vault.content location { l.world with objects } = site.vault.content location l.world := by
  by_cases kind : location.tier = .s3
  · rw [tier.vault_content here kind, tier.vault_content here kind]
    unfold content
    cases found : tier.locationTarget location with
    | error e => rfl
    | ok target =>
      refine congrArg some ?_
      dsimp only
      rw [(tier.target_of_ok found).2]
      exact others _ fun same => apart.resolve_right (fun no => no kind) (objectKey_inj same)
  · change site.content location _ = site.content location _
    unfold Site.content
    cases other : location.tier with
    | memory => rfl
    | nvme => rfl
    | s3 => exact absurd other kind

include here in
theorem triple_headObject (found : tier.locationTarget location = .ok target)
    (lasting : site.vault.Lasting t n k I) (kept : ∀ l l', Mildly l l' → I l → I l') :
    site.vault.Triple t n k (fun l => I l ∧ site.vault.Suspect location l)
      (perform (Act.headObject target.2)) fun r => site.vault.Tells n location I (r = .ok ())
        (∃ e, r = .error e ∧ isNotFound false e = true) := by
  have outside : location.tier ≠ .memory := by rw [(tier.target_of_ok found).1]; decide
  have suspect := @lasting_suspect site.vault t n k location outside
  refine .learn (Act.mild_observe _) (lasting.and suspect).settled
    (fun r => settled_tells lasting outside _ _) fun l c x l' sane holds mildly done => ?_
  obtain ⟨w, ran, rfl⟩ := auditing_some done
  simp only [Act.headObject, Act.observe, Option.some.injEq, Prod.mk.injEq] at ran
  have result := ran.1
  refine ⟨kept l _ mildly holds.1, ?_, ?_⟩
  · rintro rfl
    split_ifs at result with fails there
    refine mildly.live (holds.2.live ?_)
    rw [tier.content_of_target here found]
    intro gone
    rw [Option.some.inj gone] at there
    cases there
  · rintro - ⟨e, rfl, missing⟩
    split_ifs at result with fails there
    · cases result
      rw [isNotFound_clientError] at missing
      cases missing
    · rw [mildly.content, tier.content_of_target here found]
      simpa using there

include here in
theorem respectful_present (location : BlockLocation) (lasting : site.vault.Lasting t n k I)
    (kept : ∀ l l', Mildly l l' → I l → I l') :
    site.vault.Triple t n k (fun l => I l ∧ site.vault.Suspect location l)
      (tier.backend.present location)
      (OnResult fun there => site.vault.Tells n location I (there = true) (there = false)) := by
  refine .computed fun target found => ?_
  have outside : location.tier ≠ .memory := by rw [(tier.target_of_ok found).1]; decide
  have answer := settled_tells lasting outside
  -- the exception of a missing object is the answer that it is missing
  refine Triple.thenDo (P := fun r => site.vault.Tells n location I (r = .ok true)
    (r = .ok false ∨ ∃ e, r = .error e ∧ isNotFound false e = true)) ?_ fun r => ?_
  · refine (tier.triple_headObject here found lasting kept).thenDo fun r => ?_
    cases r with
    | ok done =>
      refine .ret (fun l holds => ⟨holds.1, fun _ => holds.2.1 rfl, ?_⟩) (answer _ _)
      rintro - (wrong | ⟨e, wrong, -⟩) <;> cases wrong
    | error e =>
      refine .ret (fun l holds => ⟨holds.1, nofun, ?_⟩) (answer _ _)
      rintro inside (wrong | ⟨e, same, missing⟩)
      · cases wrong
      · cases same
        exact holds.2.2 inside ⟨e, rfl, missing⟩
  · cases r with
    | ok there =>
      exact .value (fun l holds => ⟨holds.1, fun yes => holds.2.1 (congrArg _ yes),
        fun inside no => holds.2.2 inside (.inl (congrArg _ no))⟩) (answer _ _)
    | error e =>
      dsimp only
      split_ifs with missing
      · exact .value (fun l holds => ⟨holds.1, nofun, fun inside _ =>
          holds.2.2 inside (.inr ⟨e, rfl, missing⟩)⟩) (answer _ _)
      · exact .error _

include here in
theorem step_deleteObject (found : tier.locationTarget location = .ok target)
    (inside : n ≠ 0) {l l' : Ledger} (sane : site.vault.Sane t n k l)
    (vacant : Vacant location.id l) {c : Choice} {x : Except PyError Unit}
    (done : auditing.exec t (Act.deleteObject target.2) c l = some (x, l')) :
    (site.vault.among t).guarantee l l' ∧ site.vault.Sane t n k l' ∧ l'.taken = l.taken := by
  obtain ⟨w, ran, rfl⟩ := auditing_some done
  obtain ⟨kind, name⟩ := tier.target_of_ok found
  obtain ⟨objects, rfl, change⟩ : ∃ objects, w = { l.world with objects } ∧
      (objects = l.world.objects ∨ objects = l.world.objects.erase target.2) := by
    simp only [Act.deleteObject] at ran
    split_ifs at ran <;> cases ran
    · exact ⟨_, rfl, .inr rfl⟩
    · exact ⟨_, rfl, .inl rfl⟩
    · exact ⟨_, rfl, .inl rfl⟩
    · exact ⟨_, rfl, .inr rfl⟩
  refine step_payload sane rfl sane.custody.proper (.inl inside) (.inr rfl) fun other current => .inl ?_
  rcases change with rfl | rfl
  · rfl
  · refine tier.content_other here location.key ?_ fun name' apart => Dict.get_erase_of_ne ?_
    · by_contra both
      simp only [not_or, not_not] at both
      refine vacant other.uri ?_
      rw [BlockLocation.id, kind, ← both.1, ← both.2]
      exact current
    · rw [name]
      exact fun clash => apart clash.symm

theorem mild_headExists (objectKey : Text) (allowAmbiguous : Bool) :
    (headExists objectKey allowAmbiguous).Uses device fun action => action.Mild :=
  .handle (.bind (.perform (Act.mild_observe _)) fun _ => trivial) fun e => by
    split_ifs <;> trivial

include here in
theorem respectful_remove (location : BlockLocation) (inside : n ≠ 0)
    (weaker : site.vault.Lasting t n k G) (left : ∀ l l', l'.taken = l.taken → G l → G l') :
    site.vault.Triple t n k (fun l => Vacant location.id l ∧ G l) (tier.backend.remove location)
      (OnResult fun _ => G) := by
  refine .computed fun target found => ?_
  have deleted : site.vault.Triple t n k (fun l => Vacant location.id l ∧ G l)
      (perform (Act.deleteObject target.2)) fun _ => G := by
    refine .perform ((lasting_vacant inside).and weaker).settled (fun _ => weaker.settled) ?_
    intro l c x l' sane holds done
    obtain ⟨kept, saner, taken⟩ := tier.step_deleteObject here found inside sane holds.1 done
    exact ⟨kept, saner, left l l' taken holds.2⟩
  refine .bind (R := fun _ => G) (deleted.thenDo fun r => ?_) fun _ => ?_
  · cases r with
    | ok done => exact .value (fun _ holds => holds) weaker.settled
    | error e =>
      dsimp only
      split_ifs
      · exact .value (fun _ holds => holds) weaker.settled
      · exact .error _
  · refine .bind (Triple.mild (mild_headExists target.2 true) weaker.settled
      fun l l' mildly => left l l' mildly.taken).anyway.results fun remains => ?_
    cases remains with
    | true => exact .error _
    | false => exact .value (fun _ holds => holds) weaker.settled

include here in
theorem step_putObject (key : BlockKey) (bytes : Bytes) (inside : n ≠ 0) {l l' : Ledger}
    (sane : site.vault.Sane t n k l) (free : Free (key.row .s3) l) {c : Choice}
    {x : Except PyError Unit}
    (done : auditing.exec t (Act.putObject (tier.objectKey key) bytes) c l = some (x, l')) :
    (site.vault.among t).guarantee l l' ∧ site.vault.Sane t n k l' ∧ l'.taken = l.taken ∧
      (x = .ok () → (l'.world.objects.get (tier.objectKey key)).isSome = true) := by
  obtain ⟨w, ran, rfl⟩ := auditing_some done
  obtain ⟨objects, rfl, change, written⟩ : ∃ objects, w = { l.world with objects } ∧
      (objects = l.world.objects ∨ objects = l.world.objects.put (tier.objectKey key) bytes) ∧
      (x = .ok () → objects = l.world.objects.put (tier.objectKey key) bytes) := by
    simp only [Act.putObject] at ran
    split_ifs at ran <;> cases ran
    · exact ⟨_, rfl, .inr rfl, fun _ => rfl⟩
    · exact ⟨_, rfl, .inl rfl, fun wrong => by cases wrong⟩
    · exact ⟨_, rfl, .inr rfl, fun _ => rfl⟩
  have moved := step_payload (t := t) (w := { l.world with objects := objects }) sane rfl
    sane.custody.proper (.inl inside) (.inr rfl) fun other current => ?_
  · refine ⟨moved.1, moved.2.1, moved.2.2, fun done => ?_⟩
    rw [written done]
    exact Option.isSome_iff_exists.mpr ⟨bytes, Dict.get_put_self _ _ _⟩
  · rcases change with rfl | rfl
    · exact .inl rfl
    · by_cases own : other.key = key ∧ other.tier = .s3
      · -- what is written is there
        refine .inr (.inr ⟨.inl ?_, ?_⟩)
        · cases found : tier.locationTarget other with
          | error e =>
            rw [tier.vault_content here own.2, content, found]
            exact fun wrong => by cases wrong
          | ok target =>
            rw [tier.content_of_target here found, (tier.target_of_ok found).2, own.1]
            dsimp only
            rw [Dict.get_put_self]
            exact fun wrong => by cases wrong
        · rw [BlockLocation.id, own.1, own.2]
          exact free
      · exact .inl (tier.content_other here key (not_and_or.mp own) fun name' apart =>
          Dict.get_put_of_ne (Ne.symm apart))

include here in
theorem respectful_place (key : BlockKey) (raw data : Bytes) (m : KVMetadata) (inside : n ≠ 0) :
    site.vault.Triple t n k (Free (key.row .s3)) (tier.place key raw data m)
      (OnResult fun location l => Free (key.row .s3) l ∧ location.key = key ∧ location.tier = .s3 ∧
        site.vault.standard location ∧ site.vault.content location l.world ≠ some none) := by
  have free := @lasting_free site.vault t n k (key.row .s3) inside
  have there : site.vault.Settled t n k fun l => Free (key.row .s3) l ∧
      (l.world.objects.get (tier.objectKey key)).isSome = true := by
    refine free.settled.and (.locked (fun l l' same before => ?_) inside)
    rw [same.objects]
    exact before
  refine .bind (R := fun _ l => Free (key.row .s3) l ∧
    (l.world.objects.get (tier.objectKey key)).isSome = true) ?_ fun _ => ?_
  · refine .handle (.perform free.settled (Settled.onResult fun _ => there)
      fun l c x l' sane holds done => ?_) (fun _ => there) fun e => .error _
    obtain ⟨kept, saner, taken, written⟩ := tier.step_putObject here key _ inside sane holds done
    refine ⟨kept, saner, ?_⟩
    rintro _ rfl
    refine ⟨fun u => ?_, written rfl⟩
    rw [taken]
    exact holds u
  · obtain ⟨location, built, target⟩ := tier.locationTarget_locationFor key data.length (sha256Hex data)
      (asNumber m.createdAt) (asNumber m.lastAccess)
    change site.vault.Triple t n k _ (.ret (tier.locationFor key (tier.objectKey key) _ _ _ _)) _
    rw [built]
    have named : location.key = key ∧ location.tier = .s3 := by
      simp only [locationFor, bind_eq_ok] at built
      obtain ⟨quoted, -, same⟩ := built
      cases same
      exact ⟨rfl, rfl⟩
    have outside : location.tier ≠ .memory := by rw [named.2]; decide
    have standard : site.vault.standard location := by
      intro elsewhere
      rw [named.2] at elsewhere
      cases elsewhere
    refine .value (fun l holds => ⟨holds.1, named.1, named.2, standard, ?_⟩) (free.settled.and
      ((Settled.const _).and ((Settled.const _).and ((Settled.const _).and
        (lasting_content inside outside (· ≠ some none)).settled))))
    rw [tier.content_of_target here target]
    intro missing
    rw [Option.some.inj missing] at holds
    cases holds.2

theorem respectful_writer (here : site.s3 = some tier) : tier.writer.Respectful site.vault .s3 where
  makeRoom _ _ inside := .value (fun _ holds => holds) (lasting_free inside).settled
  place key raw data m inside := tier.respectful_place here key raw data m inside

theorem mild_read (location : BlockLocation) :
    (tier.backend.read location).Uses device fun action => action.Mild := by
  refine .bind trivial fun target => ?_
  refine .bind (.handle (.perform (Act.mild_observe _)) fun _ => trivial) fun response => ?_
  cases response with
  | noBody => trivial
  | unreadable closeFails => cases closeFails <;> trivial
  | body body => exact .bind (.perform (Act.mild_observe _)) fun _ => trivial

theorem respectful (here : site.s3 = some tier) : tier.backend.Respectful site.vault where
  outside := nofun
  present location _ lasting kept := tier.respectful_present here location lasting kept
  read := tier.mild_read
  afterMiss _ := trivial
  remove location _ inside weaker left := tier.respectful_remove here location inside weaker left

end S3Tier

end AiStorage.KV
