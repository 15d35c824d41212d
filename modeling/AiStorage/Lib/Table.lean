import Mathlib.Data.List.Induction
import Mathlib.Data.List.Nodup

/-!
# Tables with a primary key

Rows in insertion order, at most one for each key. Everything about a table is said
through `find`.
-/
namespace AiStorage.Lib

variable {α κ : Type} [DecidableEq κ]

@[ext] structure Table (idOf : α → κ) where
  rows : List α
  unique : (rows.map idOf).Nodup

namespace Table

variable {idOf : α → κ}

def empty : Table idOf := ⟨[], List.nodup_nil⟩

def find (t : Table idOf) (k : κ) : Option α := t.rows.find? fun row => idOf row = k

/-- The row replaces one with its key, or is added at the end. -/
def set (t : Table idOf) (row : α) : Table idOf :=
  if old : idOf row ∈ t.rows.map idOf then
    ⟨t.rows.map fun r => if idOf r = idOf row then row else r, by
      have same : (t.rows.map fun r => if idOf r = idOf row then row else r).map idOf =
          t.rows.map idOf := by
        rw [List.map_map]
        refine List.map_congr_left fun r _ => ?_
        by_cases here : idOf r = idOf row <;> simp [here]
      rw [same]
      exact t.unique⟩
  else
    ⟨t.rows ++ [row], by
      rw [List.map_append, List.nodup_append]
      refine ⟨t.unique, List.nodup_singleton _, ?_⟩
      intro k inside l added same
      rw [List.map_singleton, List.mem_singleton] at added
      exact old (added ▸ same ▸ inside)⟩

def erase (t : Table idOf) (k : κ) : Table idOf :=
  ⟨t.rows.filter fun row => idOf row ≠ k, (List.filter_sublist.map idOf).nodup t.unique⟩

/-- The table without the rows of some keys. -/
def discard (t : Table idOf) (gone : List κ) : Table idOf :=
  ⟨t.rows.filter fun row => idOf row ∉ gone, (List.filter_sublist.map idOf).nodup t.unique⟩

/-- Every row rewritten under its key. -/
def map (t : Table idOf) (f : α → α) (keeps : ∀ row, idOf (f row) = idOf row) : Table idOf :=
  ⟨t.rows.map f, by
    have same : (t.rows.map f).map idOf = t.rows.map idOf := by
      rw [List.map_map]
      exact List.map_congr_left fun row _ => keeps row
    rw [same]
    exact t.unique⟩

variable {t : Table idOf} {row : α} {k : κ}

omit [DecidableEq κ] in
theorem eq_of_id {other : α} (left : row ∈ t.rows) (right : other ∈ t.rows)
    (same : idOf row = idOf other) : row = other :=
  List.inj_on_of_nodup_map t.unique left right same

theorem mem_rows : row ∈ t.rows ↔ t.find (idOf row) = some row := by
  constructor
  · intro inside
    cases found : t.find (idOf row) with
    | none =>
      exact absurd (List.find?_eq_none.mp found row inside) (by simp)
    | some other =>
      have there := List.mem_of_find?_eq_some found
      have same : idOf other = idOf row := by simpa using List.find?_some found
      rw [eq_of_id there inside same]
  · exact List.mem_of_find?_eq_some

theorem idOf_of_find (found : t.find k = some row) :
    idOf row = k := by
  simpa using List.find?_some found

theorem mem_of_find (found : t.find k = some row) :
    row ∈ t.rows :=
  List.mem_of_find?_eq_some found

theorem find_eq_some_iff :
    t.find k = some row ↔ row ∈ t.rows ∧ idOf row = k := by
  constructor
  · exact fun found => ⟨mem_of_find found, idOf_of_find found⟩
  · rintro ⟨inside, rfl⟩
    exact mem_rows.mp inside

theorem find_congr {u : Table idOf}
    (same : ∀ row, idOf row = k → (row ∈ t.rows ↔ row ∈ u.rows)) : t.find k = u.find k := by
  ext row
  rw [find_eq_some_iff, find_eq_some_iff]
  constructor
  · exact fun here => ⟨(same row here.2).mp here.1, here.2⟩
  · exact fun here => ⟨(same row here.2).mpr here.1, here.2⟩

theorem mem_set {other : α} :
    other ∈ (t.set row).rows ↔ other = row ∨ (other ∈ t.rows ∧ idOf other ≠ idOf row) := by
  unfold set
  split_ifs with old
  · simp only [List.mem_map]
    constructor
    · rintro ⟨r, inside, rfl⟩
      by_cases here : idOf r = idOf row
      · exact .inl (if_pos here)
      · exact .inr (by rw [if_neg here]; exact ⟨inside, here⟩)
    · rintro (rfl | ⟨inside, apart⟩)
      · obtain ⟨r, there, same⟩ := List.mem_map.mp old
        exact ⟨r, there, if_pos same⟩
      · exact ⟨other, inside, if_neg apart⟩
  · simp only [List.mem_append, List.mem_singleton]
    constructor
    · rintro (inside | rfl)
      · exact .inr ⟨inside, fun same => old (same ▸ List.mem_map_of_mem inside)⟩
      · exact .inl rfl
    · rintro (rfl | ⟨inside, -⟩)
      · exact .inr rfl
      · exact .inl inside

@[simp] theorem find_set_self (t : Table idOf) (row : α) : (t.set row).find (idOf row) = some row :=
  find_eq_some_iff.mpr ⟨mem_set.mpr (.inl rfl), rfl⟩

theorem find_set_of_ne (apart : idOf row ≠ k) :
    (t.set row).find k = t.find k := by
  refine find_congr fun other here => ?_
  rw [mem_set]
  constructor
  · rintro (rfl | ⟨inside, -⟩)
    · exact absurd here apart
    · exact inside
  · exact fun inside => .inr ⟨inside, here ▸ Ne.symm apart⟩

theorem mem_erase :
    row ∈ (t.erase k).rows ↔ row ∈ t.rows ∧ idOf row ≠ k := by
  simp [erase]

@[simp] theorem find_erase_self (t : Table idOf) (k : κ) : (t.erase k).find k = none := by
  cases found : (t.erase k).find k with
  | none => rfl
  | some row =>
    obtain ⟨inside, here⟩ := find_eq_some_iff.mp found
    exact absurd here (mem_erase.mp inside).2

theorem find_erase_of_ne {l : κ} (apart : k ≠ l) :
    (t.erase k).find l = t.find l := by
  refine find_congr fun row here => ?_
  rw [mem_erase]
  exact ⟨fun both => both.1, fun inside => ⟨inside, here ▸ Ne.symm apart⟩⟩

theorem erase_set (t : Table idOf) (row : α) : (t.set row).erase (idOf row) = t.erase (idOf row) := by
  ext1
  unfold set
  split_ifs with old
  · simp only [erase]
    generalize t.rows = rows
    induction rows with
    | nil => rfl
    | cons r rest ih => by_cases here : idOf r = idOf row <;> simp_all
  · simp [erase]

theorem discard_nil (t : Table idOf) : t.discard [] = t := by
  ext1
  simp [discard]

theorem discard_discard (t : Table idOf) (gone more : List κ) :
    (t.discard gone).discard more = t.discard (gone ++ more) := by
  ext1
  simp only [discard, List.filter_filter]
  refine List.filter_congr fun row _ => ?_
  simp [Bool.and_comm]

theorem erase_eq_discard (t : Table idOf) (k : κ) : t.erase k = t.discard [k] := by
  ext1
  simp [erase, discard]

theorem find_map (t : Table idOf) (f : α → α) (keeps : ∀ row, idOf (f row) = idOf row) (k : κ) :
    (t.map f keeps).find k = (t.find k).map f := by
  simp only [find, map, List.find?_map]
  congr 2
  funext row
  simp [keeps]

end Table

/-! ## Finite maps -/

abbrev Dict (κ ν : Type) [DecidableEq κ] := Table (Prod.fst : κ × ν → κ)

namespace Dict

variable {ν : Type}

def get (d : Dict κ ν) (k : κ) : Option ν := (d.find k).map Prod.snd

def put (d : Dict κ ν) (k : κ) (v : ν) : Dict κ ν := d.set (k, v)

@[simp] theorem get_put_self (d : Dict κ ν) (k : κ) (v : ν) : (d.put k v).get k = some v := by
  have found : (d.set (k, v)).find k = some (k, v) := Table.find_set_self d (k, v)
  rw [get, put, found]
  rfl

variable {d : Dict κ ν} {k : κ}

theorem get_put_of_ne {l : κ} {v : ν} (apart : k ≠ l) :
    (d.put k v).get l = d.get l := by
  have found : (d.set (k, v)).find l = d.find l := Table.find_set_of_ne apart
  rw [get, put, found, get]

@[simp] theorem get_erase_self (d : Dict κ ν) (k : κ) : get (d.erase k) k = none := by
  rw [get, Table.find_erase_self]
  rfl

theorem get_erase_of_ne {l : κ} (apart : k ≠ l) : get (d.erase k) l = d.get l := by
  rw [get, Table.find_erase_of_ne apart, get]

theorem get_foldl_put {ι : Type} (key : ι → κ) (value : ι → ν) (items : List ι) (k : κ) :
    get (items.foldl (fun d x => put d (key x) (value x)) Table.empty) k =
      ((items.filter fun x => key x = k).getLast?).map value := by
  induction items using List.reverseRecOn with
  | nil => rfl
  | append_singleton front x earlier =>
    rw [List.foldl_append, List.foldl_cons, List.foldl_nil, List.filter_append]
    by_cases same : key x = k
    · rw [← same, get_put_self, List.filter_singleton, decide_eq_true rfl, cond_true,
        List.getLast?_concat]
      rfl
    · rw [get_put_of_ne same, earlier, List.filter_singleton, decide_eq_false same, cond_false,
        List.append_nil]

theorem get_eq_some_iff {v : ν} : d.get k = some v ↔ (k, v) ∈ d.rows := by
  rw [get, Option.map_eq_some_iff]
  constructor
  · rintro ⟨⟨k', v'⟩, found, rfl⟩
    obtain ⟨member, rfl⟩ := Table.find_eq_some_iff.mp found
    exact member
  · intro member
    exact ⟨(k, v), Table.find_eq_some_iff.mpr ⟨member, rfl⟩, rfl⟩

end Dict

end AiStorage.Lib
