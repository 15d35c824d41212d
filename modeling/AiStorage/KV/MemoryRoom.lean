import AiStorage.KV.RowEviction
import AiStorage.Lib.Totals

/-!
# Making room in the memory tier

A store makes room by evicting payloads in the order of the map until the new one fits. The
payloads that leave are a front part of those that nobody has pinned.
-/
namespace AiStorage.KV
open Lib Prog MetadataStore

namespace MemoryTier

/-! ## Eviction -/

abbrev Entry := BlockKey × Bytes

def size (entry : Entry) : Int := entry.2.length

/-- The payload and its row leave together. -/
def without (s : Stock) (entry : Entry) : Stock :=
  { s with
    memory := Act.without entry.1 s.memory
    usedBytes := s.usedBytes - size entry
    store := { s.store with blocks := s.store.blocks.erase (entry.1.row .memory) } }

theorem held_of_mem {memory : List Entry} (unique : (memory.map Prod.fst).Nodup) {entry : Entry}
    (member : entry ∈ memory) : Act.held entry.1 memory = some entry.2 := by
  cases found : memory.find? fun other => other.1 = entry.1 with
  | none =>
    have missing := List.find?_eq_none.mp found entry member
    simp at missing
  | some other =>
    have there := List.mem_of_find?_eq_some found
    have same : other.1 = entry.1 := by simpa using List.find?_some found
    rw [Act.held, found, List.inj_on_of_nodup_map unique there member same]
    rfl

theorem mem_of_held {memory : List Entry} {key : BlockKey} {data : Bytes}
    (there : Act.held key memory = some data) : (key, data) ∈ memory := by
  obtain ⟨entry, found, rfl⟩ := Option.map_eq_some_iff.mp there
  have same : entry.1 = key := by simpa using List.find?_some found
  rw [← same]
  exact List.mem_of_find?_eq_some found

variable {t : Nat} {allowed : Choice → Prop} {s : Stock}

inductive Evicted (s : Stock) (key : BlockKey) : Except PyError Bool → Stock → Prop where
  | removed {data : Bytes} (there : Act.held key s.memory = some data)
      (may : s.store.deletable key .memory = true) :
      Evicted s key (.ok true) (without s (key, data))
  | kept (why : Act.held key s.memory = none ∨ s.store.deletable key .memory = false) :
      Evicted s key (.ok false) s
  | failed {e : PyError} (other : NotFull e.cls) : Evicted s key (.error e) s

theorem runs_evict (key : BlockKey) : Runs t allowed (evict key) s (Evicted s key) := by
  refine runs_withMemoryLock (.memoryGet ?_)
  cases there : Act.held key s.memory with
  | none => exact .ret (.kept (.inl there))
  | some data =>
    refine .bind (runs_delete key .memory) (fun deleted s' ended => ?_) fun e s' ended => ?_
    · cases ended with
      | done may =>
        refine .bind (runs_memoryPop there) (fun _ after popped => ?_) fun e after wrong => ?_
        · rw [popped.2]
          exact .ret (.removed there may)
        · cases wrong.1
      | refused busy => exact .ret (.kept (.inr busy))
    · cases ended with
      | failed other => exact .failed other

/-! ## Making room -/

def evictable (s : Stock) (exclude : BlockKey) (entry : Entry) : Bool :=
  entry.1 ≠ exclude && s.store.deletable entry.1 .memory

def evictables (s : Stock) (exclude : BlockKey) : List Entry := s.memory.filter (evictable s exclude)

/-- How a pass over the map ends: the first payload that may leave has left. -/
structure Passed (s : Stock) (exclude : BlockKey) (entries : List Entry) (r : Except PyError Bool)
    (s' : Stock) : Prop where
  failed : ∀ e, r = .error e → s' = s ∧ NotFull e.cls
  nothing : r = .ok false → s' = s ∧ entries.filter (evictable s exclude) = []
  first : r = .ok true → ∃ entry rest,
    entries.filter (evictable s exclude) = entry :: rest ∧ s' = without s entry

theorem runs_evictOne (unique : (s.memory.map Prod.fst).Nodup) (exclude : BlockKey)
    {entries : List Entry} (inside : ∀ entry ∈ entries, entry ∈ s.memory) :
    Runs t allowed (evictOne exclude (entries.map Prod.fst)) s (Passed s exclude entries) := by
  induction entries with
  | nil =>
    refine .ret ⟨fun _ wrong => ?_, fun _ => ⟨rfl, rfl⟩, fun wrong => ?_⟩ <;> cases wrong
  | cons entry rest ih =>
    have later := ih fun other member => inside other (.tail entry member)
    have there := held_of_mem unique (inside entry List.mem_cons_self)
    -- an entry that stays is not among those that may leave
    have skip : evictable s exclude entry = false → ∀ {r s'}, Passed s exclude rest r s' →
        Passed s exclude (entry :: rest) r s' := by
      intro stays r s' passed
      have same : (entry :: rest).filter (evictable s exclude) =
          rest.filter (evictable s exclude) := by simp [stays]
      exact ⟨passed.failed, same ▸ passed.nothing, same ▸ passed.first⟩
    rw [List.map_cons, evictOne]
    split_ifs with own
    · exact later.mono fun r s' => skip (by simp [evictable, own])
    · refine .bind (runs_evict entry.1) (fun removed s' ended => ?_) fun e s' ended => ?_
      · cases ended with
        | @removed data held may =>
          rw [there] at held
          cases held
          refine .ret ⟨fun _ wrong => ?_, fun wrong => ?_, fun _ => ⟨entry,
            rest.filter (evictable s exclude), ?_, rfl⟩⟩
          · cases wrong
          · cases wrong
          · exact List.filter_cons_of_pos (by simp [evictable, own, may])
        | kept why =>
          have busy : s.store.deletable entry.1 .memory = false :=
            why.resolve_left (by rw [there]; exact Option.some_ne_none _)
          exact later.mono fun r s' => skip (by simp [evictable, busy])
      · cases ended with
        | failed other =>
          refine ⟨fun e' same => ?_, fun wrong => ?_, fun wrong => ?_⟩
          · cases same
            exact ⟨rfl, other⟩
          · cases wrong
          · cases wrong

theorem unique_without (unique : (s.memory.map Prod.fst).Nodup) (entry : Entry) :
    ((without s entry).memory.map Prod.fst).Nodup :=
  (List.filter_sublist.map Prod.fst).nodup unique

theorem evictables_without (unique : (s.memory.map Prod.fst).Nodup) {exclude : BlockKey}
    {entry : Entry} {rest : List Entry} (listed : evictables s exclude = entry :: rest) :
    evictables (without s entry) exclude = rest := by
  have others : ((entry :: rest).map Prod.fst).Nodup :=
    listed ▸ (List.filter_sublist.map Prod.fst).nodup unique
  have apart : ∀ other ∈ rest, other.1 ≠ entry.1 := fun other member same =>
    (List.nodup_cons.mp others).1 (same ▸ List.mem_map_of_mem member)
  have same : ∀ other ∈ Act.without entry.1 s.memory,
      evictable (without s entry) exclude other = evictable s exclude other := by
    intro other member
    have differs : other.1 ≠ entry.1 := by simpa using (List.mem_filter.mp member).2
    unfold evictable
    rw [show (without s entry).store.deletable other.1 .memory = s.store.deletable other.1 .memory from
      deletable_erase differs.symm]
  calc evictables (without s entry) exclude
      = (Act.without entry.1 s.memory).filter (evictable s exclude) := List.filter_congr same
    _ = (evictables s exclude).filter fun other => other.1 ≠ entry.1 := List.filter_comm ..
    _ = rest := by
      rw [listed, List.filter_cons_of_neg (by simp)]
      exact List.filter_eq_self.mpr fun other member => by simpa using apart other member

/-- How the loop of `_ensure_capacity` ends: a front part of the payloads that may leave has
left, just enough for the incoming one; or all of them have left and it still does not fit. -/
structure MadeRoom (tier : MemoryTier) (incoming : Int) (exclude : BlockKey) (s : Stock)
    (r : Except PyError Unit) (s' : Stock) : Prop where
  gone : ∃ gone, gone <+: evictables s exclude ∧ s' = gone.foldl without s ∧
    (r = .ok () → gone = shed size (s.usedBytes + incoming - tier.maxBytes) (evictables s exclude))
  fits : r = .ok () → s'.usedBytes + incoming ≤ tier.maxBytes
  full : ∀ e, r = .error e → e.cls = .storeFull →
    s' = (evictables s exclude).foldl without s ∧ tier.maxBytes < s'.usedBytes + incoming

namespace MadeRoom

variable {tier : MemoryTier} {incoming : Int} {exclude : BlockKey} {r : Except PyError Unit}
  {s' : Stock}

theorem enough (fits : s.usedBytes + incoming ≤ tier.maxBytes) :
    MadeRoom tier incoming exclude s (.ok ()) s where
  gone := ⟨[], List.nil_prefix, rfl, fun _ => (shed_of_nonpos (by omega)).symm⟩
  fits _ := fits
  full _ wrong := by cases wrong

theorem nothing (full : tier.maxBytes < s.usedBytes + incoming)
    (none : evictables s exclude = []) (e : PyError) :
    MadeRoom tier incoming exclude s (.error e) s where
  gone := ⟨[], List.nil_prefix, rfl, fun wrong => by cases wrong⟩
  fits wrong := by cases wrong
  full _ _ _ := ⟨by rw [none]; rfl, full⟩

theorem failed {e : PyError} (other : NotFull e.cls) :
    MadeRoom tier incoming exclude s (.error e) s where
  gone := ⟨[], List.nil_prefix, rfl, fun wrong => by cases wrong⟩
  fits wrong := by cases wrong
  full _ same full := absurd (Except.error.inj same ▸ full) other

theorem after (full : tier.maxBytes < s.usedBytes + incoming) {entry : Entry} {rest : List Entry}
    (listed : evictables s exclude = entry :: rest)
    (left : evictables (without s entry) exclude = rest)
    (made : MadeRoom tier incoming exclude (without s entry) r s') :
    MadeRoom tier incoming exclude s r s' := by
  obtain ⟨gone, front, rfl, cut⟩ := made.gone
  rw [left] at front cut
  refine ⟨⟨entry :: gone, ?_, rfl, fun ok => ?_⟩, made.fits, fun e same full => ?_⟩
  · rw [listed]
    exact (List.prefix_cons_inj entry).mpr front
  · rw [listed, shed_cons_of_pos (by omega), cut ok]
    congr 2
    change s.usedBytes - size entry + incoming - tier.maxBytes = _
    omega
  · have all := made.full e same full
    rw [left] at all
    rw [listed]
    exact all

end MadeRoom

theorem runs_evictUntil (tier : MemoryTier) (incoming : Int) (exclude : BlockKey) {rounds : Nat}
    (unique : (s.memory.map Prod.fst).Nodup) (enough : (evictables s exclude).length < rounds) :
    Runs t allowed (tier.evictUntil incoming exclude rounds) s
      (MadeRoom tier incoming exclude s) := by
  induction rounds generalizing s with
  | zero => exact absurd enough (Nat.not_lt_zero _)
  | succ rounds ih =>
    unfold evictUntil
    refine .memoryUsed ?_
    split_ifs with full
    · refine .memoryKeys (.bind (runs_evictOne unique exclude fun _ member => member)
        (fun removed after passed => ?_) fun e after passed => ?_)
      · cases removed with
        | true =>
          obtain ⟨entry, rest, listed, rfl⟩ := passed.first rfl
          have left := evictables_without unique listed
          refine (ih (unique_without unique entry) ?_).mono fun r s' made =>
            made.after full listed left
          rw [left]
          rw [show evictables s exclude = entry :: rest from listed] at enough
          exact Nat.lt_of_succ_lt_succ enough
        | false =>
          obtain ⟨rfl, none⟩ := passed.nothing rfl
          exact .ret (.nothing full none _)
      · obtain ⟨rfl, other⟩ := passed.failed e rfl
        exact .failed other
    · exact .ret (.enough (not_lt.mp full))

theorem runs_ensureCapacity (tier : MemoryTier) {incoming : Int} (exclude : BlockKey)
    (unique : (s.memory.map Prod.fst).Nodup) (within : s.usedBytes ≤ tier.maxBytes) :
    Runs t allowed (tier.ensureCapacity incoming exclude) s
      (MadeRoom tier incoming exclude s) := by
  unfold ensureCapacity
  split_ifs with fits
  · exact .ret (.enough (by omega))
  · refine .memoryKeys (runs_evictUntil tier incoming exclude unique (Nat.lt_succ_of_le ?_))
    rw [List.length_map]
    exact List.length_filter_le ..

end MemoryTier

end AiStorage.KV
