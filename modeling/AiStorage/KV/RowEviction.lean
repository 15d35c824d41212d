import AiStorage.KV.Eviction
import AiStorage.KV.StoreFull

/-!
# Deletion of a row

An active row that nobody reads is deleted when asked; any other row stays.
-/
namespace AiStorage.KV
open Lib Prog MetadataStore

variable {t : Nat} {allowed : Choice → Prop}

/-! ## The statements -/

theorem row_ne {key other : BlockKey} (apart : key ≠ other) (tier : TierName) :
    key.row tier ≠ other.row tier := by
  intro same
  obtain ⟨hash, space, -⟩ := RowId.mk.inj same
  exact apart (BlockKey.namespaceId_inj space (Subtype.ext hash))

namespace MetadataStore

variable {s : MetadataStore} {key : BlockKey} {tier : TierName} {row : Row}

/-- The active row of the key may be deleted. -/
def deletable (s : MetadataStore) (key : BlockKey) (tier : TierName) : Bool :=
  (s.activeRow key tier).any s.idle

theorem select_deletable : (s.select (key.row tier)
    fun row => row.state = .active && s.idle row).isSome = s.deletable key tier := by
  unfold select deletable activeRow
  cases s.blocks.find (key.row tier) with
  | none => rfl
  | some row =>
    by_cases active : row.state = .active <;> cases idle : s.idle row <;>
      simp [Option.filter, active, idle]

theorem delete_of_deletable (opened : s.closed = false) (may : s.deletable key tier = true) :
    s.delete key tier = (.ok true, { s with blocks := s.blocks.erase (key.row tier) }) := by
  obtain ⟨row, selected⟩ := Option.isSome_iff_exists.mp (select_deletable.trans may)
  rw [delete, if_neg (by rw [opened]; decide), deleteRow, selected]
  rfl

theorem delete_of_not_deletable (opened : s.closed = false) (busy : s.deletable key tier = false) :
    s.delete key tier = (.ok false, s) := by
  have selected := Option.not_isSome_iff_eq_none.mp (Bool.eq_false_iff.mp
    (select_deletable.trans busy))
  rw [delete, if_neg (by rw [opened]; decide), deleteRow, selected]
  rfl

theorem activeRow_erase {other : BlockKey} (apart : key ≠ other) :
    ({ s with blocks := s.blocks.erase (key.row tier) } : MetadataStore).activeRow other tier =
      s.activeRow other tier := by
  unfold activeRow
  rw [Table.find_erase_of_ne (row_ne apart tier)]

theorem deletable_erase {other : BlockKey} (apart : key ≠ other) :
    ({ s with blocks := s.blocks.erase (key.row tier) } : MetadataStore).deletable other tier =
      s.deletable other tier := by
  unfold deletable
  rw [activeRow_erase apart]
  rfl

end MetadataStore

/-! ## The programs -/

inductive Deleted (s : Stock) (key : BlockKey) (tier : TierName) :
    Except PyError Bool → Stock → Prop where
  | done (may : s.store.deletable key tier = true) : Deleted s key tier (.ok true)
      { s with store := { s.store with blocks := s.store.blocks.erase (key.row tier) } }
  | refused (busy : s.store.deletable key tier = false) : Deleted s key tier (.ok false) s
  | failed {e : PyError} (other : NotFull e.cls) : Deleted s key tier (.error e) s

theorem runs_delete {s : Stock} (key : BlockKey) (tier : TierName) :
    Runs t allowed (perform (Act.delete key tier)) s (Deleted s key tier) := by
  refine (runs_exclusive _).mono fun r s' stated => ?_
  rcases stated with ⟨c, -, -, rfl, rfl⟩ | ⟨c, m, -, answered, rfl⟩
  · exact .failed (by decide)
  · change s.store.delete key tier = (r, m) at answered
    cases closed : s.store.closed with
    | true =>
      rw [delete, if_pos closed] at answered
      cases answered
      exact .failed (by decide)
    | false =>
      cases may : s.store.deletable key tier with
      | true =>
        rw [delete_of_deletable closed may] at answered
        cases answered
        exact .done may
      | false =>
        rw [delete_of_not_deletable closed may] at answered
        cases answered
        exact .refused may

end AiStorage.KV
