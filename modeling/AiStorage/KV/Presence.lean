import AiStorage.KV.Alone

/-!
# What a lookup shows

A tier shows a block when it has an active row for it and the payload that the row names is
present. A lookup that runs alone finds exactly the blocks that are shown, unless a step fails.
-/
namespace AiStorage.KV
open Lib Prog MetadataStore

def Steady (allowed : Choice → Prop) : Prop := ∀ c, allowed c → ∀ operation, c.fails operation = false

structure Backend.Reports (B : Backend) (there : BlockLocation → World → Prop) : Prop where
  present : ∀ location w t allowed, (B.present location).Total (single t allowed fun _ _ => True)
    (fun r w' => w' = w ∧ (r = .ok true → there location w) ∧
      (Steady allowed → there location w → r = .ok true)) w
  frame : ∀ location w w', w'.files = w.files → w'.objects = w.objects → there location w' →
    there location w
  missed : ∀ key w t allowed, (∀ c, allowed c → Reliable c) →
    (B.afterMiss key).Total (single t allowed fun _ _ => True) (fun _ w' => w' = w) w

namespace NVMeTier

variable (tier : NVMeTier)

def Present (location : BlockLocation) (w : World) : Prop :=
  match tier.validatedLocationTarget location with
  | .ok (.file path) => (w.files.get path).isSome = true
  | .ok (.segment ref) => ∃ bytes, w.files.get ref.path = some bytes ∧
      ref.offset + ref.recordBytes ≤ bytes.length
  | .error _ => False

theorem fileSize_ok {path : Path} {w : World} {size : Int}
    (found : ((Act.contentOf path w).map fun bytes => (bytes.length : Int)) = .ok size) :
    ∃ bytes, w.files.get path = some bytes ∧ size = bytes.length := by
  unfold Act.contentOf at found
  cases stored : w.files.get path with
  | none =>
    rw [stored] at found
    cases found
  | some bytes =>
    rw [stored] at found
    cases found
    exact ⟨bytes, rfl, rfl⟩

theorem reports : tier.backend.Reports tier.Present where
  present location w t allowed := by
    have disturbed : ∀ c, allowed c → c.fails .file = true → ¬Steady allowed :=
      fun c choice fails steady => Bool.false_ne_true ((steady c choice .file).symm.trans fails)
    unfold Present
    refine Total.value (fun target found => ?_) fun e found => ?_
    · rw [found]
      cases target with
      | file path =>
        refine total_onFiles trivial (fun c choice fails => ⟨rfl, nofun, fun steady =>
          absurd steady (disturbed c choice fails)⟩) fun c choice => ⟨rfl, ?_, ?_⟩
        · exact fun there => Except.ok.inj there
        · exact fun _ there => congrArg Except.ok there
      | segment ref =>
        refine step_onFiles trivial (fun c choice fails => ⟨rfl, nofun, fun steady =>
          absurd steady (disturbed c choice fails)⟩) (fun c choice there found => ?_)
          fun c choice e wrong => by cases wrong
        cases there with
        | false =>
          refine ⟨rfl, nofun, ?_⟩
          rintro - ⟨bytes, stored, -⟩
          rw [stored] at found
          cases found
        | true =>
          refine step_onFiles trivial (fun c choice fails => ⟨rfl, nofun, fun steady =>
            absurd steady (disturbed c choice fails)⟩) (fun c choice size found => ?_)
            fun c choice e missing => ?_
          · obtain ⟨bytes, stored, rfl⟩ := fileSize_ok found
            refine ⟨rfl, fun long => ⟨bytes, stored, of_decide_eq_true (Except.ok.inj long)⟩, ?_⟩
            rintro - ⟨other, same, long⟩
            rw [stored] at same
            cases same
            exact congrArg Except.ok (decide_eq_true long)
          · refine ⟨rfl, nofun, ?_⟩
            rintro - ⟨bytes, stored, -⟩
            rw [Act.contentOf, stored] at missing
            cases missing
    · rw [found]
      exact ⟨rfl, nofun, fun _ => False.elim⟩
  frame location w w' files objects there := by
    unfold Present at there ⊢
    rw [files] at there
    exact there
  missed key w t allowed reliable :=
    step_database (fun _ _ => trivial) (never_broken reliable)
      (fun c choice deleting s done => by obtain ⟨-, rfl⟩ := Prod.mk.inj done; rfl)
      fun c choice e s done => by obtain ⟨-, rfl⟩ := Prod.mk.inj done; rfl

end NVMeTier

namespace S3Tier

variable (tier : S3Tier)

def Present (location : BlockLocation) (w : World) : Prop :=
  match tier.locationTarget location with
  | .ok target => (w.objects.get target.2).isSome = true
  | .error _ => False

theorem isNotFound_clientError (allowAmbiguous : Bool) (reason : Text) :
    isNotFound allowAmbiguous ⟨.clientError, reason⟩ = false := by
  cases allowAmbiguous <;> rfl

structure HeadFinds (allowed : Choice → Prop) (objectKey : Text) (w : World) (r : Except PyError Bool)
    (w' : World) : Prop where
  same : w' = w
  yes : r = .ok true → (w.objects.get objectKey).isSome = true
  no : r = .ok false → (w.objects.get objectKey).isSome = false
  error : ∀ e, r = .error e → e.cls = .tierUnavailable
  steady : Steady allowed → (w.objects.get objectKey).isSome = true → r = .ok true

theorem headExists_total (objectKey : Text) (allowAmbiguous : Bool) (w : World) (t : Nat)
    (allowed : Choice → Prop) : (headExists objectKey allowAmbiguous).Total
      (single t allowed fun _ _ => True) (HeadFinds allowed objectKey w) w := by
  have asked : (do perform (Act.headObject objectKey); return true : Py Bool).Total
      (single t allowed fun _ _ => True) (fun r w' => w' = w ∧
        (∀ b, r = .ok b → b = true ∧ (w.objects.get objectKey).isSome = true) ∧
        ∀ e, r = .error e → (isNotFound allowAmbiguous e = true →
          (w.objects.get objectKey).isSome = false) ∧
          (Steady allowed → (w.objects.get objectKey).isSome = true → False)) w := by
    refine step_observe trivial (fun c choice _ done => ?_) fun c choice e done => ?_
    · split_ifs at done with fails there
      exact ⟨rfl, fun b same => ⟨(Except.ok.inj same).symm, there⟩, nofun⟩
    · refine ⟨rfl, nofun, ?_⟩
      rintro e' ⟨⟩
      split_ifs at done with fails there
      · cases done
        refine ⟨fun wrong => ?_, fun steady => ?_⟩
        · rw [isNotFound_clientError] at wrong
          cases wrong
        · exact absurd ((steady c choice .head).symm.trans fails) Bool.false_ne_true
      · exact ⟨fun _ => by simpa using there, fun _ found => there found⟩
  refine .handle asked (fun b w' post => ?_) fun e w' post => ?_
  · obtain ⟨rfl, there⟩ := post.2.1 b rfl
    exact ⟨post.1, fun _ => there, nofun, nofun, fun _ _ => rfl⟩
  · obtain ⟨absent, steady⟩ := post.2.2 e rfl
    split_ifs with missing
    · exact ⟨post.1, nofun, fun _ => absent missing, nofun, fun still found =>
        (steady still found).elim⟩
    · refine ⟨post.1, nofun, nofun, ?_, fun still found => (steady still found).elim⟩
      rintro e' ⟨⟩
      rfl

theorem reports : tier.backend.Reports tier.Present where
  present location w t allowed := by
    unfold Present
    refine Total.value (fun target found => ?_) fun e found => ?_
    · rw [found]
      refine (headExists_total target.2 false w t allowed).mono fun r w' post => ?_
      exact ⟨post.same, post.yes, post.steady⟩
    · rw [found]
      exact ⟨rfl, nofun, fun _ => False.elim⟩
  frame location w w' files objects there := by
    unfold Present at there ⊢
    rw [objects] at there
    exact there
  missed _ _ _ _ _ := rfl

end S3Tier

/-- What a lookup that ran alone says about the world it started in. -/
structure LooksUp (tier : TierName) (there : BlockLocation → World → Prop) (key : BlockKey)
    (allowed : Choice → Prop) (w : World) (r : Except PyError (Option BlockLocation)) : Prop where
  sound : ∀ location, r = .ok (some location) →
    w.store.lookup key tier = .ok (some location) ∧ there location w
  complete : Steady allowed → ∀ location, w.store.lookup key tier = .ok (some location) →
    there location w → r = .ok (some location)

namespace Backend.Reports

variable {B : Backend} {there : BlockLocation → World → Prop} (reports : B.Reports there)
  {key : BlockKey} {t : Nat} {allowed : Choice → Prop} {w : World}
  (reliable : ∀ c, allowed c → Reliable c)
include reports reliable

theorem recheck_total (free : w.mutation.admits t = true) :
    (B.recheck key).Total (single t allowed fun _ _ => True) (fun r w' =>
      w'.mutation = w.mutation ∧ ∀ location, r = .ok (some location) →
        w.store.lookup key B.tier = .ok (some location) ∧ there location w) w := by
  have deleted : (do
      let _ ← perform (Act.delete key B.tier)
      return none : Py (Option BlockLocation)).Total (single t allowed fun _ _ => True) (fun r w' =>
        w'.mutation = w.mutation ∧ ∀ location, r = .ok (some location) →
          w.store.lookup key B.tier = .ok (some location) ∧ there location w) w :=
    step_exclusive free (fun _ _ => trivial) (never_broken reliable)
      (fun _ _ _ _ _ => ⟨rfl, (fun _ wrong => by cases wrong)⟩)
      fun _ _ _ _ _ => ⟨rfl, (fun _ wrong => by cases wrong)⟩
  refine step_database (fun _ _ => trivial) (never_broken reliable)
    (fun c choice found s done => ?_) fun _ _ _ _ done => ?_
  · obtain ⟨same, rfl⟩ := Prod.mk.inj done
    cases found with
    | none => exact deleted
    | some location =>
      refine .bind (reports.present location _ t allowed) (fun present w' post => ?_)
        fun e w' post => ⟨by rw [post.1], (fun _ wrong => by cases wrong)⟩
      obtain ⟨rfl, yes, -⟩ := post
      cases present with
      | false => exact deleted
      | true =>
        refine ⟨rfl, fun other returned => ?_⟩
        cases returned
        exact ⟨same, yes rfl⟩
  · obtain ⟨-, rfl⟩ := Prod.mk.inj done
    exact ⟨rfl, (fun _ wrong => by cases wrong)⟩

theorem lookup_total (free : w.Free t) : (B.lookup key).Total (single t allowed fun _ _ => True)
    (fun r _ => LooksUp B.tier there key allowed w r) w := by
  refine step_database (fun _ _ => trivial) (never_broken reliable)
    (fun c choice found s done => ?_) fun c choice e s done => ?_
  · obtain ⟨same, rfl⟩ := Prod.mk.inj done
    change w.store.lookup key B.tier = _ at same
    cases found with
    | none =>
      have absent : LooksUp B.tier there key allowed w (.ok none) :=
        ⟨(fun _ wrong => by cases wrong),
          fun _ location found => by rw [same] at found; cases found⟩
      exact .bind (reports.missed key w t allowed reliable) (fun _ _ _ => absent)
        fun e w' _ => ⟨(fun _ wrong => by cases wrong),
          fun _ location found => by rw [same] at found; cases found⟩
    | some location =>
      refine .bind (reports.present location _ t allowed) (fun present w' post => ?_)
        fun e w' post => ?_
      · obtain ⟨rfl, yes, steady⟩ := post
        cases present with
        | true =>
          refine ⟨fun other returned => ?_, fun _ other found _ => ?_⟩
          · cases returned
            exact ⟨same, yes rfl⟩
          · rw [same] at found
            exact found
        | false =>
          have gone : Steady allowed → ¬there location w := fun still here => by
            cases steady still here
          refine total_withMutation free.mutation trivial
            (fun _ => ⟨trivial, (fun _ wrong => by cases wrong), ?_⟩)
            fun _ => ?_
          · intro still other found here
            rw [same] at found
            cases found
            exact absurd here (gone still)
          · refine (reports.recheck_total reliable (RLock.admits_enter free.mutation)).mono
              fun r w'' post => ⟨post.1, trivial, fun other returned => ?_, ?_⟩
            · exact ⟨(post.2 other returned).1,
                reports.frame other w { w with mutation := w.mutation.enter t } rfl rfl
                  (post.2 other returned).2⟩
            · intro still other found here
              rw [same] at found
              cases found
              exact absurd here (gone still)
      · refine ⟨(fun _ wrong => by cases wrong), fun still other found here => ?_⟩
        rw [same] at found
        cases found
        cases post.2.2 still here
  · refine ⟨(fun _ wrong => by cases wrong), fun _ location found => ?_⟩
    obtain ⟨failed, -⟩ := Prod.mk.inj done
    change w.store.lookup key B.tier = _ at failed
    rw [failed] at found
    cases found

end Backend.Reports

namespace MemoryTier

variable {key : BlockKey} {t : Nat} {allowed : Choice → Prop} {w : World}

/-- The payload is in the map, and the location is that of the key. -/
def Present (key : BlockKey) (location : BlockLocation) (w : World) : Prop :=
  (Act.held key w.memory).isSome = true ∧ validateLocation key location = .ok ()

theorem lookup_total (reliable : ∀ c, allowed c → Reliable c) (free : w.Free t) :
    (lookup key).Total (single t allowed fun _ _ => True)
      (fun r _ => LooksUp .memory (Present key) key allowed w r) w := by
  refine total_withMemoryLock free.memoryLock trivial ?_
  refine step_database (fun _ _ => trivial) (never_broken reliable)
    (fun c choice found s done => ?_) fun c choice e s done => ?_
  · obtain ⟨same, rfl⟩ := Prod.mk.inj done
    change w.store.lookup key .memory = _ at same
    refine step_observe trivial (fun c choice data held => ?_) fun c choice e wrong => by cases wrong
    obtain rfl := Except.ok.inj held
    cases found with
    | none =>
      have absent : ∀ r, (∀ location, r ≠ .ok (some location)) →
          LooksUp .memory (Present key) key allowed w r := fun r missed =>
        ⟨fun location returned => absurd returned (missed location),
          fun _ location found => by rw [same] at found; cases found⟩
      cases there : Act.held key w.memory with
      | none => exact ⟨rfl, trivial, absent _ (fun _ wrong => by cases wrong)⟩
      | some data =>
        exact step_memoryPop there trivial ⟨rfl, trivial, absent _ (fun _ wrong => by cases wrong)⟩
    | some location =>
      cases there : Act.held key w.memory with
      | none =>
        have gone : ∀ r, (∀ location, r ≠ .ok (some location)) →
            LooksUp .memory (Present key) key allowed w r := fun r missed =>
          ⟨fun location returned => absurd returned (missed location), fun _ other _ here => by
            rw [Present, there] at here
            cases here.1⟩
        exact step_exclusive free.mutation (fun _ _ => trivial) (never_broken reliable)
          (fun _ _ _ _ _ => ⟨rfl, trivial, gone _ (fun _ wrong => by cases wrong)⟩)
          fun _ _ _ _ _ => ⟨rfl, trivial, gone _ (fun _ wrong => by cases wrong)⟩
      | some data =>
        refine Total.value (fun _ valid => ⟨rfl, trivial, fun other returned => ?_,
          fun _ other found _ => ?_⟩)
          fun e invalid => ⟨rfl, trivial, (fun _ wrong => by cases wrong), fun _ other found here => ?_⟩
        · cases returned
          exact ⟨same, by rw [there]; rfl, valid⟩
        · rw [same] at found
          exact found
        · rw [same] at found
          cases found
          rw [here.2] at invalid
          cases invalid
  · obtain ⟨failed, rfl⟩ := Prod.mk.inj done
    change w.store.lookup key .memory = _ at failed
    refine ⟨rfl, trivial, (fun _ wrong => by cases wrong), fun _ location found => ?_⟩
    rw [failed] at found
    cases found

end MemoryTier

/-! ## Any tier -/

namespace Tier

def Present : Tier → BlockKey → BlockLocation → World → Prop
  | memory _, key, location, w => MemoryTier.Present key location w
  | nvme tier, _, location, w => tier.Present location w
  | s3 tier, _, location, w => tier.Present location w

def Visible (tier : Tier) (key : BlockKey) (w : World) : Prop :=
  ∃ location, w.store.lookup key tier.name = .ok (some location) ∧ tier.Present key location w

/-- Some run of `lookup` returns a location. -/
def Shows (tier : Tier) (t : Nat) (key : BlockKey) (w : World) : Prop :=
  ∃ location w', (tier.lookup key).Ends device t Reliable w (.ok (some location)) w'

variable {tier : Tier} {key : BlockKey} {t : Nat} {allowed : Choice → Prop} {w : World}

theorem lookup_total (reliable : ∀ c, allowed c → Reliable c) (free : w.Free t) :
    (tier.lookup key).Total (single t allowed fun _ _ => True)
      (fun r _ => LooksUp tier.name (tier.Present key) key allowed w r) w := by
  cases tier with
  | memory tier => exact MemoryTier.lookup_total reliable free
  | nvme tier | s3 tier => exact tier.reports.lookup_total reliable free

theorem shows_iff_visible (free : w.Free t) : tier.Shows t key w ↔ tier.Visible key w := by
  constructor
  · rintro ⟨location, w', run⟩
    have found : LooksUp tier.name (tier.Present key) key Reliable w (.ok (some location)) :=
      (lookup_total (fun _ answers => answers) free).ends run
    exact ⟨location, found.sound location rfl⟩
  · rintro ⟨location, found, there⟩
    have calm : ∃ c : Choice, c.dbFails = false ∧ ∀ operation, c.fails operation = false :=
      ⟨calmChoice, rfl, fun _ => rfl⟩
    obtain ⟨r, w', run, post⟩ := (@lookup_total tier key t
      (fun c => c.dbFails = false ∧ ∀ operation, c.fails operation = false) w
      (fun _ choice => choice.1) free).exists_run calm
    rw [post.complete (fun c choice => choice.2) location found there] at run
    exact ⟨location, w', run.mono fun c choice => choice.1⟩

end Tier

end AiStorage.KV
