import AiStorage.KV.Effects
import AiStorage.Lib.Lists

/-!
# The rows that may be taken

What `lru_candidates` and `tier_entries` list: locations of active rows, under the keys of
these rows. Rows that are read at the moment are not among them.
-/
namespace AiStorage.KV
open Lib MetadataStore

structure Names (row : Row) (location : BlockLocation) : Prop where
  of : location.Of location.key row
  id : row.id = location.key.row row.id.tier

theorem Row.Holds.names {row : Row} {m : KVMetadata} (holds : row.Holds m) {location : BlockLocation}
    (built : locationFromRow m.persisted.key row = .ok location) : Names row location := by
  have same := locationFromRow_ok built
  have key : location.key = m.key := same.key
  exact ⟨by rw [key]; exact same, by rw [key]; exact holds.id⟩

namespace MetadataStore

/-- The active rows of a tier that nobody reads, oldest first. -/
def evictable (s : MetadataStore) (tier : TierName) : List Row :=
  (s.blocks.rows.filter fun row =>
    row.id.tier = tier && row.state = .active && s.idle row).insertionSort
    fun a b => floatCode a.lastAccess ≤ floatCode b.lastAccess

variable {s : MetadataStore} {tier : TierName}

variable {row : Row} {now : Readings}

theorem mem_evictable : row ∈ s.evictable tier ↔ row ∈ s.blocks.rows ∧
    row.id.tier = tier ∧ row.state = .active ∧ s.idle row = true := by
  simp [evictable, List.mem_insertionSort, and_assoc]

theorem names_of_decoded (sound : s.Sound) (member : row ∈ s.blocks.rows)
    {m : KVMetadata} (decoded : decodeMetadata now row.metadataJson = .ok m)
    {location : BlockLocation} (built : locationFromRow m.key row = .ok location) :
    Names row location := by
  obtain ⟨n, holds⟩ := sound.written row member
  rw [holds.decode now] at decoded
  cases decoded
  exact holds.names built

theorem lruCandidates_names (sound : s.Sound) {limit : Nat}
    {locations : List BlockLocation} (listed : s.lruCandidates now tier limit = .ok locations)
    {location : BlockLocation} (member : location ∈ locations) :
    ∃ row ∈ s.evictable tier, Names row location := by
  obtain ⟨-, listed⟩ := bind_unit_ok.mp listed
  obtain ⟨row, inside, made⟩ := forall₂_mem_right (forall₂_of_mapM listed) member
  obtain ⟨m, decoded, built⟩ := bind_eq_ok.mp made
  have there : row ∈ s.evictable tier := List.mem_of_mem_take inside
  exact ⟨row, there, names_of_decoded sound (mem_evictable.mp there).1 decoded built⟩

theorem names_of_entry (sound : s.Sound) (member : row ∈ s.blocks.rows)
    {entry : BlockLocation × KVMetadata × Int}
    (made : (do
      let m ← rowMetadata now row
      let location ← locationFromRow m.key row
      return (location, m, row.inFlight)) = Except.ok entry) : Names row entry.1 := by
  obtain ⟨m, read, rest⟩ := bind_eq_ok.mp made
  obtain ⟨location, built, same⟩ := bind_eq_ok.mp rest
  obtain ⟨decoded, parsed, named⟩ := bind_eq_ok.mp read
  cases same
  cases named
  exact names_of_decoded sound member parsed built

theorem tierEntries_names (sound : s.Sound) {entries : List (BlockLocation × KVMetadata × Int)}
    (listed : s.tierEntries now tier false = .ok entries) {entry : BlockLocation × KVMetadata × Int}
    (member : entry ∈ entries) : ∃ row ∈ s.evictable tier, Names row entry.1 := by
  obtain ⟨-, listed⟩ := bind_unit_ok.mp listed
  obtain ⟨row, inside, made⟩ := forall₂_mem_right (forall₂_of_mapM listed) member
  rw [List.mem_insertionSort, List.mem_filter] at inside
  refine ⟨row, mem_evictable.mpr ?_, names_of_entry sound inside.1 made⟩
  simpa [and_assoc] using inside

theorem tierEntries_complete (sound : s.Sound) {entries : List (BlockLocation × KVMetadata × Int)}
    (listed : s.tierEntries now tier true = .ok entries) (member : row ∈ s.blocks.rows)
    (here : row.id.tier = tier) (active : row.state = .active) :
    ∃ entry ∈ entries, Names row entry.1 := by
  obtain ⟨-, listed⟩ := bind_unit_ok.mp listed
  obtain ⟨entry, inside, made⟩ := forall₂_mem_left (forall₂_of_mapM listed)
    (List.mem_insertionSort _ |>.mpr (List.mem_filter.mpr ⟨member, by simp [here, active]⟩))
  exact ⟨entry, inside, names_of_entry sound member made⟩

end MetadataStore

end AiStorage.KV
