import AiStorage.KV.Sites

/-!
# The file-backed tier in custody

A block file belongs to one key. A segment file only grows, and a compaction pass removes a
file when no row names it any more.
-/
namespace AiStorage.KV
open Lib Prog MetadataStore Vault

/-! ## Names of segment files -/

theorem plain_digits {s : Text} (digits : ∀ c ∈ s, isDigit c = true) :
    (s.all fun c => isBase64Digit c || c = dot) = true := by
  refine List.all_eq_true.mpr fun c member => ?_
  have digit := digits c member
  simp only [isDigit, Bool.and_eq_true, decide_eq_true_eq] at digit
  have wide : isBase64Digit c = true := by
    simp only [isBase64Digit, Bool.or_eq_true, Bool.and_eq_true, decide_eq_true_eq]
    omega
  simp [wide]

namespace NVMeTier

theorem nameOk_segmentName (id : Int) : nameOk (segmentName id) = true :=
  nameOk_of_plain (plainName_append (plainName_append (by decide) (plain_digits (digits_sixDigits _)))
    (by decide))

theorem nameOk_compactName (compactionId : Nat) (id : Int) : nameOk (compactName compactionId id) = true :=
  nameOk_of_plain (plainName_append (plainName_append (plainName_append (plainName_append (by decide)
    (plain_digits fun _ => isDigit_of_mem_decimal)) (by decide)) (plain_digits (digits_sixDigits _)))
    (by decide))

variable (tier : NVMeTier) {site : Site} (here : site.nvme = some tier) {t n k : Nat}
  {I G : Ledger → Prop} {location : BlockLocation}

/-! ## Targets -/

variable {path : Path} {ref : SegmentRef} {l l' : Ledger} {c : Choice} {x : Except PyError Unit}

theorem path_of_ok (found : tier.pathFromLocation location = .ok path) :
    path = tier.rootDir ++ storageKeyParts location.key := by
  simp only [pathFromLocation, bind_eq_ok, exists_unit, require_ok] at found
  obtain ⟨parsed, -, -, resolved, -, rest⟩ := found
  rw [blockPath_eq tier.resolved] at rest
  simp only [bind_unit_ok, require_ok] at rest
  obtain ⟨same, built⟩ := rest
  cases built
  exact of_decide_eq_true same

theorem ref_of_ok {uri : Text} {key : Option BlockKey}
    (found : tier.segmentRefFromUri uri key = .ok ref) : 0 ≤ ref.offset ∧ 0 < ref.recordBytes := by
  simp only [segmentRefFromUri, bind_eq_ok, exists_unit, require_ok] at found
  obtain ⟨parsed, -, -, offset, -, size, -, bounds, -, path, -, -, -, built⟩ := found
  cases built
  simpa using bounds

theorem target_of_ok {target : Target} (found : tier.validatedLocationTarget location = .ok target) :
    location.tier = .nvme ∧
      (tier.layoutMode = .contentAddressed ∧
          target = .file (tier.rootDir ++ storageKeyParts location.key) ∨
        tier.layoutMode = .segment ∧ ∃ ref, target = .segment ref ∧
          tier.segmentRefFromUri location.uri location.key = .ok ref) := by
  unfold validatedLocationTarget at found
  split_ifs at found with kind
  refine ⟨not_not.mp kind, ?_⟩
  cases mode : tier.layoutMode with
  | segment =>
    rw [mode] at found
    dsimp only at found
    cases read : tier.segmentRefFromUri location.uri location.key with
    | ok ref =>
      rw [read] at found
      cases found
      exact .inr ⟨rfl, ref, rfl, rfl⟩
    | error e =>
      rw [read] at found
      dsimp only at found
      split_ifs at found
  | contentAddressed =>
    rw [mode] at found
    simp only [bind_eq_ok, exists_unit, require_ok] at found
    obtain ⟨parsed, -, -, path, read, built⟩ := found
    cases built
    exact .inl ⟨rfl, by rw [tier.path_of_ok read]⟩

include here in
theorem vault_content (kind : location.tier = .nvme) (w : World) :
    site.vault.content location w = tier.content location w := by
  change site.content location w = _
  unfold Site.content
  rw [kind, here]
  rfl

include here in
theorem content_of_target {target : Target} (found : tier.validatedLocationTarget location = .ok target)
    (w : World) : site.vault.content location w = some (targetContent w target) := by
  rw [tier.vault_content here (tier.target_of_ok found).1, content, found]
  rfl

theorem content_elsewhere (kind : location.tier ≠ .nvme) {files : Dict Path Bytes} (w : World) :
    site.vault.content location { w with files } = site.vault.content location w := by
  change site.content location _ = site.content location _
  unfold Site.content
  cases other : location.tier with
  | memory => rfl
  | nvme => exact absurd other kind
  | s3 => rfl

include here in
theorem content_of_error {e : PyError} (found : tier.validatedLocationTarget location = .error e)
    (kind : location.tier = .nvme) (w : World) : site.vault.content location w = none := by
  rw [tier.vault_content here kind, content, found]
  rfl

theorem triple_onFiles {V : Vault} {β : Type} {f : Choice → World → Except PyError β}
    {R : β → Ledger → Prop} (settled : V.Settled t n k I) (kept : ∀ l l', Mildly l l' → I l → I l')
    (after : ∀ b, V.Settled t n k (R b))
    (tells : ∀ l c b l', I l → Mildly l l' → l'.world = l.world → V.Sane t n k l →
      f c l.world = .ok b → R b l') :
    V.Triple t n k I (perform (Act.onFiles f)) (Always I R) := by
  refine .learn (Act.mild_observe _) settled (fun r => settled.and (.onResult after r))
    fun l c x l' sane holds mildly done => ⟨kept l l' mildly holds, ?_⟩
  rintro b rfl
  obtain ⟨w, ran, rfl⟩ := auditing_some done
  simp only [Act.onFiles, Act.observe, Option.some.injEq, Prod.mk.injEq] at ran
  obtain ⟨result, rfl⟩ := ran
  split_ifs at result with fails
  exact tells l c b _ holds mildly rfl sane result

include here in
theorem respectful_present (location : BlockLocation) (lasting : site.vault.Lasting t n k I)
    (kept : ∀ l l', Mildly l l' → I l → I l') :
    site.vault.Triple t n k (fun l => I l ∧ site.vault.Suspect location l)
      (tier.backend.present location)
      (OnResult fun there => site.vault.Tells n location I (there = true) (there = false)) := by
  refine .computed fun target found => ?_
  have outside : location.tier ≠ .memory := by rw [(tier.target_of_ok found).1]; decide
  have suspect := @lasting_suspect site.vault t n k location outside
  have holds := lasting.and suspect
  have answer := settled_tells lasting outside
  -- the content of the location decides
  have decided : ∀ {l l' : Ledger} {there : Bool}, I l ∧ site.vault.Suspect location l → Mildly l l' →
      (there = (targetContent l.world target).isSome) →
      site.vault.Tells n location I (there = true) (there = false) l' := by
    intro l l' there pre mildly same
    have content := tier.content_of_target here found l.world
    refine ⟨kept l l' mildly pre.1, fun yes => mildly.live (pre.2.live fun missing => ?_), fun _ no => ?_⟩
    · rw [content] at missing
      rw [yes, Option.some.inj missing] at same
      cases same
    · rw [mildly.content, content]
      rw [no] at same
      exact congrArg some (Option.isNone_iff_eq_none.mp (by simpa using same.symm))
  have still : ∀ l l' : Ledger, Mildly l l' → I l ∧ site.vault.Suspect location l →
      I l' ∧ site.vault.Suspect location l' := fun l l' mildly pre =>
    ⟨kept l l' mildly pre.1, mildly.suspect pre.2⟩
  cases target with
  | file path =>
    exact (triple_onFiles holds.settled still (fun there => answer (there = true) (there = false))
      fun l c there l' pre mildly _ _ read => decided pre mildly (Except.ok.inj read).symm).results
  | segment ref =>
    refine .bind (R := fun there l => (I l ∧ site.vault.Suspect location l) ∧
      (n ≠ 0 → there = false → site.vault.content location l.world = some none)) ?_ fun there => ?_
    · refine (triple_onFiles holds.settled still (fun there => holds.settled.and ((Lasting.imp
        fun inside => .imp fun _ => lasting_content inside outside (· = some none)).settled))
        fun l c there l' pre mildly _ _ read => ⟨still l l' mildly pre, ?_⟩).results
      intro inside no
      have missing : l.world.files.get ref.path = none := by
        rw [no] at read
        simpa using Except.ok.inj read
      rw [mildly.content, tier.content_of_target here found, targetContent, missing]
      rfl
    · cases there with
      | false => exact .value (fun l pre => ⟨pre.1.1, nofun, pre.2⟩) (answer _ _)
      | true =>
        refine .bind (R := fun size => site.vault.Tells n location I
          (ref.offset + ref.recordBytes ≤ size) (¬ref.offset + ref.recordBytes ≤ size)) ?_
          fun size => ?_
        · refine Triple.weaken (I := fun l => I l ∧ site.vault.Suspect location l) ?_
            (fun l pre => pre.1) fun _ _ post => post
          refine (triple_onFiles holds.settled still (fun _ => answer _ _)
            fun l c size l' pre mildly _ _ read => ?_).results
          obtain ⟨bytes, stored, rfl⟩ := fileSize_ok read
          have shape : (decide (ref.offset + ref.recordBytes ≤ bytes.length) : Bool) =
              (targetContent l.world (.segment ref)).isSome := by
            rw [targetContent, stored, Option.bind_some, segmentRange]
            split_ifs with fits <;> simp [fits]
          obtain ⟨now, yes, no⟩ := decided pre mildly shape
          exact ⟨now, fun fits => yes (decide_eq_true fits),
            fun inside short => no inside (decide_eq_false short)⟩
        · exact .value (fun l pre => ⟨pre.1, fun yes => pre.2.1 (of_decide_eq_true yes),
            fun inside no => pre.2.2 inside (of_decide_eq_false no)⟩) (answer _ _)

/-! ## Block files -/

include here in
theorem content_other (mode : tier.layoutMode = .contentAddressed) (key : BlockKey) {w : World}
    {files : Dict Path Bytes} (apart : location.key ≠ key ∨ location.tier ≠ .nvme)
    (others : ∀ path, path ≠ tier.rootDir ++ storageKeyParts key →
      files.get path = w.files.get path) :
    site.vault.content location { w with files } = site.vault.content location w := by
  by_cases kind : location.tier = .nvme
  · cases found : tier.validatedLocationTarget location with
    | error e => rw [tier.content_of_error here found kind, tier.content_of_error here found kind]
    | ok target =>
      rw [tier.content_of_target here found, tier.content_of_target here found]
      obtain ⟨-, ⟨-, rfl⟩ | ⟨segments, -⟩⟩ := tier.target_of_ok found
      · refine congrArg some (others _ fun same => ?_)
        exact apart.resolve_right (fun no => no kind) (storageKeyParts_inj (List.append_cancel_left same))
      · rw [mode] at segments
        cases segments
  · exact content_elsewhere kind w

theorem step_unlink (inside : n ≠ 0) (sane : site.vault.Sane t n k l)
    (unused : ∀ other : BlockLocation, other.Current l.world →
      site.vault.content other { l.world with files := l.world.files.erase path } =
        site.vault.content other l.world)
    (done : auditing.exec t (Act.unlink path) c l = some (x, l')) :
    (site.vault.among t).guarantee l l' ∧ site.vault.Sane t n k l' ∧ l'.taken = l.taken ∧
      l'.world.store = l.world.store := by
  obtain ⟨w, ran, rfl⟩ := auditing_some done
  obtain ⟨files, rfl, change⟩ : ∃ files, w = { l.world with files } ∧
      (files = l.world.files ∨ files = l.world.files.erase path) := by
    unfold Act.unlink at ran
    split_ifs at ran <;> cases ran
    · exact ⟨_, rfl, .inl rfl⟩
    · exact ⟨_, rfl, .inl rfl⟩
    · exact ⟨_, rfl, .inr rfl⟩
  have moved := step_payload (t := t) (w := { l.world with files := files }) sane rfl
    (fun other there => ?_) (.inl inside) (.inr rfl) fun other current => .inl ?_
  · exact ⟨moved.1, moved.2.1, moved.2.2, rfl⟩
  · refine sane.custody.proper other ?_
    rcases change with rfl | rfl
    · exact there
    · by_cases own : path = other
      · rw [← own, Dict.get_erase_self] at there
        cases there
      · rw [← Dict.get_erase_of_ne own]
        exact there
  · rcases change with rfl | rfl
    · rfl
    · exact unused other current

include here in
theorem unused_of_vacant (mode : tier.layoutMode = .contentAddressed) {key : BlockKey}
    (vacant : Vacant (key.row .nvme) l) (other : BlockLocation) (current : other.Current l.world) :
    site.vault.content other { l.world with
        files := l.world.files.erase (tier.rootDir ++ storageKeyParts key) } =
      site.vault.content other l.world := by
  refine tier.content_other here mode key ?_ fun path apart => Dict.get_erase_of_ne (Ne.symm apart)
  by_contra both
  simp only [not_or, not_not] at both
  refine vacant other.uri ?_
  rw [← both.1, ← both.2]
  exact current

include here in
theorem respectful_remove (location : BlockLocation) (inside : n ≠ 0)
    (weaker : site.vault.Lasting t n k G) (left : ∀ l l', l'.taken = l.taken → G l → G l') :
    site.vault.Triple t n k (fun l => Vacant location.id l ∧ G l) (tier.backend.remove location)
      (OnResult fun _ => G) := by
  refine .computed fun target found => ?_
  obtain ⟨kind, ⟨mode, rfl⟩ | ⟨-, ref, rfl, -⟩⟩ := tier.target_of_ok found
  · have unlinked : site.vault.Triple t n k (fun l => Vacant location.id l ∧ G l)
        (perform (Act.unlink (tier.rootDir ++ storageKeyParts location.key))) fun _ => G := by
      refine .perform ((lasting_vacant inside).and weaker).settled (fun _ => weaker.settled) ?_
      intro l c x l' sane holds done
      have vacant : Vacant (location.key.row .nvme) l := by rw [← kind]; exact holds.1
      obtain ⟨kept, saner, taken, -⟩ :=
        step_unlink inside sane (tier.unused_of_vacant here mode vacant) done
      exact ⟨kept, saner, left l l' taken holds.2⟩
    refine unlinked.thenDo fun r => ?_
    cases r with
    | ok done => exact .value (fun _ holds => holds) weaker.settled
    | error e =>
      dsimp only
      split_ifs
      · exact .value (fun _ holds => holds) weaker.settled
      · exact .error _
  · exact .value (fun _ holds => holds.2) weaker.settled

include here in
theorem step_replaceFile (mode : tier.layoutMode = .contentAddressed) (key : BlockKey) (bytes : Bytes)
    (inside : n ≠ 0) (sane : site.vault.Sane t n k l) (free : Free (key.row .nvme) l)
    (done : auditing.exec t (Act.replaceFile (tier.rootDir ++ storageKeyParts key) bytes) c l =
      some (x, l')) :
    (site.vault.among t).guarantee l l' ∧ site.vault.Sane t n k l' ∧ l'.taken = l.taken ∧
      (x = .ok () → (l'.world.files.get (tier.rootDir ++ storageKeyParts key)).isSome = true) := by
  obtain ⟨w, ran, rfl⟩ := auditing_some done
  obtain ⟨files, rfl, change, written⟩ : ∃ files, w = { l.world with files } ∧
      (files = l.world.files ∨ files = l.world.files.put (tier.rootDir ++ storageKeyParts key) bytes) ∧
      (x = .ok () → files = l.world.files.put (tier.rootDir ++ storageKeyParts key) bytes) := by
    unfold Act.replaceFile at ran
    split_ifs at ran <;> cases ran
    · exact ⟨_, rfl, .inl rfl, nofun⟩
    · exact ⟨_, rfl, .inr rfl, fun _ => rfl⟩
  have moved := step_payload (t := t) (w := { l.world with files := files }) sane rfl
    (fun path there => ?_) (.inl inside) (.inr rfl) fun other current => ?_
  · refine ⟨moved.1, moved.2.1, moved.2.2, fun done => ?_⟩
    rw [written done]
    exact Option.isSome_iff_exists.mpr ⟨bytes, Dict.get_put_self _ _ _⟩
  · rcases change with rfl | rfl
    · exact sane.custody.proper path there
    · by_cases own : tier.rootDir ++ storageKeyParts key = path
      · rw [← own]
        exact List.forall_mem_append.mpr ⟨tier.resolved, resolved_storageKeyParts key⟩
      · refine sane.custody.proper path ?_
        rw [← Dict.get_put_of_ne own]
        exact there
  · rcases change with rfl | rfl
    · exact .inl rfl
    · by_cases own : other.key = key ∧ other.tier = .nvme
      · -- what is written is there
        refine .inr (.inr ⟨.inl ?_, ?_⟩)
        · cases found : tier.validatedLocationTarget other with
          | error e =>
            rw [tier.content_of_error here found own.2]
            exact nofun
          | ok target =>
            rw [tier.content_of_target here found]
            obtain ⟨-, ⟨-, rfl⟩ | ⟨segments, -⟩⟩ := tier.target_of_ok found
            · rw [targetContent, own.1, Dict.get_put_self]
              exact nofun
            · rw [mode] at segments
              cases segments
        · rw [BlockLocation.id, own.1, own.2]
          exact free
      · exact .inl (tier.content_other here mode key (not_and_or.mp own) fun path apart =>
          Dict.get_put_of_ne (Ne.symm apart))

/-! ## Segment files -/

theorem segmentRange_append (offset : 0 ≤ ref.offset) (record : 0 ≤ ref.recordBytes)
    {bytes found : Bytes} (read : segmentRange ref bytes = some found) (more : Bytes) :
    segmentRange ref (bytes ++ more) = some found := by
  unfold segmentRange at read ⊢
  split_ifs at read with fits
  have longer : ref.offset + ref.recordBytes ≤ (bytes ++ more).length := by
    rw [List.length_append]
    omega
  rw [if_pos longer, ← Option.some.inj read, List.drop_append_of_le_length (by omega),
    List.take_append_of_le_length (by rw [List.length_drop]; omega)]

include here in
theorem step_append (mode : tier.layoutMode = .segment) (fixed : path.Resolved)
    (bytes : Bytes) (inside : n ≠ 0) (sane : site.vault.Sane t n k l)
    (done : auditing.exec t (Act.append path bytes) c l = some (x, l')) :
    (site.vault.among t).guarantee l l' ∧ site.vault.Sane t n k l' ∧ l'.taken = l.taken ∧
      l'.world.store = l.world.store ∧ (x = .ok () →
        l'.world.files.get path = some ((l.world.files.get path).getD [] ++ bytes)) := by
  obtain ⟨w, ran, rfl⟩ := auditing_some done
  obtain ⟨more, whole, rfl⟩ : ∃ more, (x = .ok () → more = bytes) ∧ w = { l.world with
      files := l.world.files.put path ((l.world.files.get path).getD [] ++ more) } := by
    simp only [Act.append] at ran
    split_ifs at ran <;> cases ran
    · exact ⟨_, (fun wrong => by cases wrong), rfl⟩
    · exact ⟨_, fun _ => rfl, rfl⟩
  have grown : ∀ ref found, 0 ≤ ref.offset → 0 ≤ ref.recordBytes →
      targetContent l.world (.segment ref) = some found →
      targetContent { l.world with
        files := l.world.files.put path ((l.world.files.get path).getD [] ++ more) }
        (.segment ref) = some found := by
    intro ref found offset record read
    rw [targetContent] at read ⊢
    by_cases own : path = ref.path
    · subst own
      obtain ⟨old, stored, read⟩ := Option.bind_eq_some_iff.mp read
      rw [Dict.get_put_self, stored, Option.getD_some, Option.bind_some]
      exact segmentRange_append offset record read more
    · rw [Dict.get_put_of_ne own]
      exact read
  have moved := step_payload (t := t) (w := { l.world with
      files := l.world.files.put path ((l.world.files.get path).getD [] ++ more) }) sane rfl
    (fun other there => ?_) (.inl inside) (.inr rfl) fun other current => ?_
  · refine ⟨moved.1, moved.2.1, moved.2.2, rfl, ?_⟩
    intro written
    rw [← whole written]
    exact Dict.get_put_self _ _ _
  · by_cases own : path = other
    · rw [← own]
      exact fixed
    · refine sane.custody.proper other ?_
      rw [← Dict.get_put_of_ne own]
      exact there
  · by_cases kind : other.tier = .nvme
    · cases found : tier.validatedLocationTarget other with
      | error e =>
        exact .inl (by rw [tier.content_of_error here found kind, tier.content_of_error here found kind])
      | ok target =>
        rw [tier.content_of_target here found, tier.content_of_target here found]
        obtain ⟨-, ⟨single, -⟩ | ⟨-, ref, rfl, read⟩⟩ := tier.target_of_ok found
        · rw [mode] at single
          cases single
        · cases before : targetContent l.world (.segment ref) with
          | none => exact .inr (.inl rfl)
          | some bytes' =>
            obtain ⟨offset, record⟩ := tier.ref_of_ok read
            exact .inl (congrArg some (grown ref bytes' offset (by omega) before))
    · exact .inl (content_elsewhere kind _)

section Append

variable (lasting : site.vault.Lasting t n k I) (kept : ∀ l l', site.vault.Tamely l l' → I l → I l')
include lasting kept

theorem triple_pathForAppend (series : Text → Bool) {name : Int → Text}
    (named : ∀ id, nameOk (name id) = true) (key : BlockKey) (record : Nat) :
    site.vault.Triple t n k I (tier.pathForAppend series name key record)
      (Always I fun path l => I l ∧ path.Resolved) := by
  have fixed := tier.resolved_segmentRoot
  have mild : ∀ l l', Mildly l l' → I l → I l' := fun l l' mildly => kept l l' mildly.tamely
  have settled : ∀ path : Path, site.vault.Settled t n k fun l => I l ∧ path.Resolved := fun path =>
    lasting.settled.and (.const _)
  refine .computedAlways (fun _ holds => holds) lasting.settled fun dir found => ?_
  obtain rfl : dir = tier.segmentRoot ++ namespaceParts key := by
    rw [namespaceDir_eq fixed] at found
    exact (Except.ok.inj found).symm
  have inDir : ∀ {name : Text}, nameOk name = true →
      Path.Resolved (tier.segmentRoot ++ namespaceParts key ++ [name]) := fun ok =>
    List.forall_mem_append.mpr ⟨List.forall_mem_append.mpr ⟨fixed, resolved_namespaceParts key⟩,
      List.forall_mem_singleton.mpr ok⟩
  refine .bindAlways (R := fun existing l => I l ∧ ∀ path ∈ existing, path.Resolved)
    lasting.settled ?_ fun existing => ?_
  · refine triple_onFiles lasting.settled mild (fun _ => lasting.settled.and (.const _))
      fun l c existing l' holds mildly _ sane read => ⟨mild l l' mildly holds, ?_⟩
    intro path member
    rw [← Except.ok.inj read, List.mem_insertionSort] at member
    obtain ⟨⟨other, bytes⟩, inside, rfl⟩ := List.mem_map.mp (List.mem_filter.mp member).1
    exact sane.custody.proper other (Option.isSome_iff_exists.mpr
      ⟨bytes, Dict.get_eq_some_iff.mpr inside⟩)
  · cases last : existing.getLast? with
    | none =>
      exact .valueAlways (fun l holds => ⟨holds.1, holds.1, inDir (named 0)⟩) lasting.settled (settled _)
    | some path =>
      have member := List.mem_of_getLast? last
      refine .bindAlways (R := fun _ l => I l ∧ path.Resolved) lasting.settled ?_ fun size => ?_
      · refine (triple_onFiles (R := fun _ l => I l ∧ path.Resolved) (settled path)
          (fun l l' mildly holds => ⟨mild l l' mildly holds.1, holds.2⟩)
          (fun _ => settled path) fun l c size l' holds mildly _ _ _ =>
            ⟨mild l l' mildly holds.1, holds.2⟩).weaken
          (fun l holds => ⟨holds.1, holds.2 path member⟩) fun _ _ post => ⟨post.1.1, post.2⟩
      · split_ifs
        · exact .valueAlways (fun l holds => ⟨holds.1, holds⟩) lasting.settled (settled path)
        · exact .valueAlways (fun l holds => ⟨holds.1, holds.1, inDir (named _)⟩) lasting.settled
            (settled _)

theorem triple_sizeOrZero (inside : n ≠ 0) (path : Path) :
    site.vault.Triple t n k I (sizeOrZero path) (Always I fun size l => I l ∧
      size = ((l.world.files.get path).getD []).length) := by
  have mild : ∀ l l', Mildly l l' → I l → I l' := fun l l' mildly => kept l l' mildly.tamely
  have measured : ∀ size : Int, site.vault.Settled t n k fun l => I l ∧
      size = ((l.world.files.get path).getD []).length := fun size =>
    lasting.settled.and (.locked (fun l l' same before => by rw [same.files]; exact before) inside)
  refine .bindAlways (R := fun there l => I l ∧ (there = false → l.world.files.get path = none))
    lasting.settled (triple_onFiles lasting.settled mild (fun there => lasting.settled.and (.imp fun _ =>
      .locked (fun l l' same before => by rw [same.files]; exact before) inside))
      fun l c there l' holds mildly same _ read => ⟨mild l l' mildly holds, fun no => ?_⟩)
    fun there => ?_
  · rw [no] at read
    rw [same]
    simpa using Except.ok.inj read
  · cases there with
    | false =>
      refine .valueAlways (fun l holds => ⟨holds.1, holds.1, ?_⟩) lasting.settled (measured 0)
      rw [holds.2 rfl]
      rfl
    | true =>
      refine (triple_onFiles lasting.settled mild measured fun l c size l' holds mildly same _ read =>
        ⟨mild l l' mildly holds, ?_⟩).weaken (fun l holds => holds.1) fun _ _ post => post
      obtain ⟨bytes, stored, rfl⟩ := fileSize_ok read
      rw [same, stored]
      rfl

include here in
theorem triple_appendAt (mode : tier.layoutMode = .segment) (inside : n ≠ 0) {path : Path}
    (fixed : path.Resolved) (record : Bytes) :
    site.vault.Triple t n k I (do
      let offset ← sizeOrZero path
      perform (Act.append path record)
      return ({ path, offset, recordBytes := record.length } : SegmentRef))
      (Always I fun ref l => I l ∧ ref.path.Resolved ∧ 0 ≤ ref.offset ∧ 0 ≤ ref.recordBytes ∧
        (targetContent l.world (.segment ref)).isSome = true) := by
  have sealed : ∀ ref : SegmentRef, site.vault.Settled t n k fun l => I l ∧ ref.path.Resolved ∧
      0 ≤ ref.offset ∧ 0 ≤ ref.recordBytes ∧ (targetContent l.world (.segment ref)).isSome = true :=
    fun ref => lasting.settled.and ((Settled.const _).and ((Settled.const _).and ((Settled.const _).and
      (.locked (fun l l' same before => by rw [targetContent, same.files]; exact before) inside))))
  refine .bindAlways lasting.settled (triple_sizeOrZero lasting kept inside path) fun offset => ?_
  refine .bindAlways (R := fun _ l => I l ∧ 0 ≤ offset ∧
    (targetContent l.world (.segment { path, offset, recordBytes := record.length })).isSome = true)
    lasting.settled ?_ fun _ => ?_
  · refine .perform (lasting.settled.and (.locked (fun l l' same before => by
      rw [same.files]; exact before) inside)) (fun r => lasting.settled.and (.onResult (fun _ => ?_) r))
      fun l c x l' sane holds done => ?_
    · intro l l' others sane holds
      obtain ⟨before, least, there⟩ := holds
      exact ⟨lasting.settled l l' others sane before, least, (sealed { path, offset, recordBytes := record.length }
        l l' others sane ⟨before, fixed, least, Int.natCast_nonneg _, there⟩).2.2.2.2⟩
    · obtain ⟨seen, saner, taken, store, written⟩ := tier.step_append here mode fixed record inside sane done
      have still := kept l l' (tamely_of_seen seen taken (by rw [store])) holds.1
      refine ⟨seen, saner, still, ?_⟩
      rintro _ rfl
      refine ⟨still, ?_, ?_⟩
      · rw [holds.2]
        exact Int.natCast_nonneg _
      · rw [targetContent, written rfl, Option.bind_some, segmentRange, if_pos]
        · rfl
        · dsimp only
          rw [holds.2, List.length_append]
          push_cast
          exact le_refl _
  · exact .valueAlways (fun l holds => ⟨holds.1, holds.1, fixed, holds.2.1, Int.natCast_nonneg _,
      holds.2.2⟩) lasting.settled (sealed _)

include here in
theorem triple_appendRecord (mode : tier.layoutMode = .segment) (inside : n ≠ 0)
    (series : Text → Bool) {name : Int → Text} (named : ∀ id, nameOk (name id) = true)
    (key : BlockKey) (raw data : Bytes) :
    site.vault.Triple t n k I (appendRecord (tier.pathForAppend series name key) raw data)
      (Always I fun ref l => I l ∧ ref.path.Resolved ∧ 0 ≤ ref.offset ∧ 0 ≤ ref.recordBytes ∧
        (targetContent l.world (.segment ref)).isSome = true) := by
  refine .bindAlways lasting.settled (tier.triple_pathForAppend lasting kept series named key _)
    fun path => ?_
  exact .known _ (fun l holds => holds.2) fun fixed =>
    (tier.triple_appendAt here lasting kept mode inside fixed _).pre fun l holds => holds.1

end Append

theorem isSegmentUri_segmentUri {uri : Text} (written : segmentUri ref = .ok uri) :
    isSegmentUri uri = true := by
  simp only [segmentUri, bind_eq_ok] at written
  obtain ⟨quoted, -, same⟩ := written
  cases same
  simp only [isSegmentUri, List.append_assoc]
  exact List.isPrefixOf_iff_prefix.mpr (List.prefix_append _ _)

include here in
theorem content_segmentLocationFor {key : BlockKey} {bytes : Int} {checksum : Text}
    {createdAt lastAccess : Number} {location : BlockLocation} (fixed : ref.path.Resolved)
    (offset : 0 ≤ ref.offset) (record : 0 ≤ ref.recordBytes)
    (built : segmentLocationFor key ref bytes checksum createdAt lastAccess = .ok location) :
    location.key = key ∧ location.tier = .nvme ∧ site.vault.standard location ∧
      ∀ w : World, tier.layoutMode = .segment → (targetContent w (.segment ref)).isSome = true →
        site.vault.content location w ≠ some none := by
  simp only [segmentLocationFor, bind_eq_ok] at built
  obtain ⟨uri, written, same⟩ := built
  have kind : location.tier = .nvme := by cases same; rfl
  have place : location.uri = uri := by cases same; rfl
  refine ⟨by cases same; rfl, kind, fun _ _ _ _ _ _ => ?_, fun w mode there gone => ?_⟩
  · rw [place]
    exact isSegmentUri_segmentUri written
  cases found : tier.validatedLocationTarget location with
  | error e =>
    rw [tier.content_of_error here found kind] at gone
    cases gone
  | ok target =>
    rw [tier.content_of_target here found] at gone
    obtain ⟨-, ⟨single, -⟩ | ⟨-, other, rfl, read⟩⟩ := tier.target_of_ok found
    · rw [mode] at single
      cases single
    · rw [place] at read
      rw [tier.segmentRefFromUri_unique fixed offset record written read] at gone
      rw [Option.some.inj gone] at there
      cases there

/-! ## The store of the tier -/

theorem lasting_kept_free {V : Vault} {id : RowId} :
    ∀ l l', V.Tamely l l' → Free id l → Free id l' := fun l l' tamely free u => by
  rw [tamely.taken]
  exact free u

include here in
theorem respectful_place (key : BlockKey) (raw data : Bytes) (m : KVMetadata) (inside : n ≠ 0) :
    site.vault.Triple t n k (Free (key.row .nvme)) (tier.place key raw data m)
      (OnResult fun location l => Free (key.row .nvme) l ∧ location.key = key ∧ location.tier = .nvme ∧
        site.vault.standard location ∧ site.vault.content location l.world ≠ some none) := by
  have free := @lasting_free site.vault t n k (key.row .nvme) inside
  unfold NVMeTier.place
  cases mode : tier.layoutMode with
  | segment =>
    refine .bind (R := fun ref l => Free (key.row .nvme) l ∧ ref.path.Resolved ∧ 0 ≤ ref.offset ∧
      0 ≤ ref.recordBytes ∧ (targetContent l.world (.segment ref)).isSome = true) ?_ fun ref => ?_
    · exact (tier.triple_appendRecord here free lasting_kept_free mode inside isSegmentName
        nameOk_segmentName key raw data).results
    · cases built : segmentLocationFor key ref data.length (sha256Hex data) (asNumber m.createdAt)
        (asNumber m.lastAccess) with
      | error e => exact .error e
      | ok location =>
        intro l sane holds
        obtain ⟨named, kind, standard, there⟩ := tier.content_segmentLocationFor here holds.2.1
          holds.2.2.1 holds.2.2.2.1 built
        have outside : location.tier ≠ .memory := by rw [kind]; decide
        exact Triple.value (I := fun l => Free (key.row .nvme) l ∧
            (targetContent l.world (.segment ref)).isSome = true)
          (fun l holds => ⟨holds.1, named, kind, standard, there l.world mode holds.2⟩)
          (free.settled.and ((Settled.const _).and ((Settled.const _).and ((Settled.const _).and
            (lasting_content inside outside (· ≠ some none)).settled)))) l sane
          ⟨holds.1, holds.2.2.2.2⟩
  | contentAddressed =>
    refine .computed fun path found => ?_
    obtain rfl : path = tier.rootDir ++ storageKeyParts key := by
      rw [blockPath_eq tier.resolved] at found
      exact (Except.ok.inj found).symm
    have there : site.vault.Settled t n k fun l => Free (key.row .nvme) l ∧
        (l.world.files.get (tier.rootDir ++ storageKeyParts key)).isSome = true :=
      free.settled.and (.locked (fun l l' same before => by rw [same.files]; exact before) inside)
    refine .bind (Triple.looks (Act.mild_observe _) free.settled
      fun l l' mildly => mildly.free).results fun _ => ?_
    refine .bind (R := fun _ l => Free (key.row .nvme) l ∧
      (l.world.files.get (tier.rootDir ++ storageKeyParts key)).isSome = true) ?_ fun _ => ?_
    · refine .perform free.settled (Settled.onResult fun _ => there) fun l c x l' sane holds done => ?_
      obtain ⟨kept, saner, taken, written⟩ :=
        tier.step_replaceFile here mode key _ inside sane holds done
      refine ⟨kept, saner, ?_⟩
      rintro _ rfl
      refine ⟨fun u => ?_, written rfl⟩
      rw [taken]
      exact holds u
    · refine .value (fun l holds => ⟨holds.1, rfl, rfl, fun _ other same segments => ?_, fun gone => ?_⟩)
        (free.settled.and ((Settled.const _).and ((Settled.const _).and ((Settled.const _).and
          (lasting_content inside (by exact nofun) (· ≠ some none)).settled))))
      · rw [here] at same
        cases same
        rw [mode] at segments
        cases segments
      generalize location : NVMeTier.locationFor key _ _ _ _ _ = made at gone
      have named : made.key = key ∧ made.tier = .nvme := by rw [← location]; exact ⟨rfl, rfl⟩
      cases found : tier.validatedLocationTarget made with
      | error e =>
        rw [tier.content_of_error here found named.2] at gone
        cases gone
      | ok target =>
        rw [tier.content_of_target here found] at gone
        obtain ⟨-, ⟨-, rfl⟩ | ⟨segments, -⟩⟩ := tier.target_of_ok found
        · have missing := Option.some.inj gone
          rw [targetContent, named.1] at missing
          rw [missing] at holds
          cases holds.2
        · rw [mode] at segments
          cases segments

theorem mild_read (location : BlockLocation) :
    (tier.backend.read location).Uses device fun action => action.Mild := by
  refine .bind trivial fun target => ?_
  cases target with
  | file path | segment ref =>
    exact .bind (.perform (Act.mild_observe _)) fun _ => .bind (.perform (Act.mild_observe _)) fun _ => trivial

theorem respectful (here : site.nvme = some tier) : tier.backend.Respectful site.vault where
  outside := nofun
  present location _ lasting kept := tier.respectful_present here location lasting kept
  read := tier.mild_read
  afterMiss _ := .bind (.perform (Act.mild_read _)) fun _ => trivial
  remove location _ inside weaker left := tier.respectful_remove here location inside weaker left

include here in
theorem triple_evictOne (weaker : site.vault.Lasting t n k G)
    (left : ∀ l l', l'.taken = l.taken → G l → G l') (exclude : BlockKey)
    (candidates : List BlockLocation) :
    site.vault.Triple t n k G (tier.evictOne exclude candidates) (OnResult fun _ => G) := by
  induction candidates with
  | nil => exact .value (fun _ holds => holds) weaker.settled
  | cons location rest ih =>
    unfold evictOne
    split_ifs
    · exact ih
    · refine .bind ((tier.respectful here).triple_evict location.key weaker left) fun removed => ?_
      cases removed with
      | true => exact .value (fun _ holds => holds) weaker.settled
      | false => exact ih

include here in
theorem triple_evictUntil (weaker : site.vault.Lasting t n k G)
    (left : ∀ l l', l'.taken = l.taken → G l → G l') (incoming : Int) (exclude : BlockKey)
    (rounds : Nat) (current : Int) :
    site.vault.Triple t n k G (tier.evictUntil incoming exclude rounds current)
      (OnResult fun _ => G) := by
  have mild : ∀ {α : Type} {action : Act α}, action.Mild →
      site.vault.Triple t n k G (perform action) (OnResult fun _ => G) := fun kind =>
    (Triple.looks kind weaker.settled fun l l' mildly => left l l' mildly.taken).results
  induction rounds generalizing current with
  | zero => exact .bind (mild Act.mild_stuck) fun none => nomatch none
  | succ rounds ih =>
    unfold evictUntil
    split_ifs
    · refine .bind (mild (Act.mild_read _)) fun candidates =>
        .bind (tier.triple_evictOne here weaker left exclude candidates) fun freed => ?_
      cases freed with
      | none => exact .error _
      | some bytes => exact ih _
    · exact .value (fun _ holds => holds) weaker.settled

theorem respectful_writer (here : site.nvme = some tier) :
    tier.writer.Respectful site.vault .nvme where
  makeRoom {t n k} size key inside := by
    have free := @lasting_free site.vault t n k (key.row .nvme) inside
    have left : ∀ l l' : Ledger, l'.taken = l.taken → Free (key.row .nvme) l → Free (key.row .nvme) l' :=
      fun l l' same holds u => by rw [same]; exact holds u
    have mild : ∀ {α : Type} {action : Act α}, action.Mild →
        site.vault.Triple t n k (Free (key.row .nvme)) (perform action)
          (OnResult fun _ => Free (key.row .nvme)) := fun kind =>
      (Triple.looks kind free.settled fun l l' mildly => mildly.free).results
    refine .bind (mild (Act.mild_read _)) fun used => ?_
    refine .bind (R := fun _ => Free (key.row .nvme))
      (((tier.respectful here).triple_lookup key free free (fun l l' mildly => mildly.free) left
        fun _ holds => holds).weaken (fun _ holds => holds) fun r l post found same => ?_) fun existing => ?_
    · cases found with
      | none => exact ((post none same).none rfl).1
      | some location => exact ((post _ same).some location rfl).1
    · exact .bind (mild (Act.mild_observe _)) fun rows =>
        tier.triple_evictUntil here free left _ key _ _
  place key raw data m inside := tier.respectful_place here key raw data m inside

end NVMeTier

end AiStorage.KV
