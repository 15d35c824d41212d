import AiStorage.Lib.Float64
import AiStorage.Lib.Text
import Mathlib.Data.List.Lex

/-!
# Python values and their equality

A `dict` is written as the list of pairs that builds it. Numbers of all three types are equal
when their values are, so equality compares canonical forms, in which a number is its value
and a dictionary is sorted.
-/
namespace AiStorage.Lib

/-! ## Raising -/

section Raising

variable {ε α β : Type}

/-- `if not condition: raise error` -/
def require (condition : Bool) (error : ε) : Except ε Unit :=
  if condition then .ok () else .error error

theorem require_ok {condition : Bool} {e : ε} :
    require condition e = .ok () ↔ condition = true := by
  unfold require
  split_ifs with holds <;> simp [holds]

theorem bind_eq_ok {first : Except ε α} {next : α → Except ε β} {b : β} :
    first >>= next = .ok b ↔ ∃ a, first = .ok a ∧ next a = .ok b := by
  cases first with
  | error e => simp [bind, Except.bind]
  | ok a => simp [bind, Except.bind]

theorem bind_unit_ok {first : Except ε Unit} {next : Except ε α} {result : α} :
    (first >>= fun _ => next) = .ok result ↔ first = .ok () ∧ next = .ok result := by
  cases first with
  | error e | ok u => simp [bind, Except.bind]

theorem exists_unit {holds : Unit → Prop} : (∃ u, holds u) ↔ holds () :=
  ⟨fun ⟨_, here⟩ => here, fun here => ⟨(), here⟩⟩

theorem toOption_eq_some {x : Except ε α} {a : α} : x.toOption = some a ↔ x = .ok a := by
  cases x <;> simp [Except.toOption]

end Raising

inductive PyKey where
  | none
  | bool (b : Bool)
  | int (n : Int)
  | float (x : Float64)
  | str (s : Text)
  /-- A key of any other hashable type. -/
  | object (id : Nat)
  deriving DecidableEq

inductive PyVal where
  | none
  | bool (b : Bool)
  | int (n : Int)
  | float (x : Float64)
  | str (s : Text)
  | list (items : List PyVal)
  | tuple (items : List PyVal)
  | dict (items : List (PyKey × PyVal))
  /-- An object that is none of these. -/
  | object (id : Nat)

/-! ## Codes of keys and scalars -/

def intCode (n : Int) : List Int := [1, 0, n * 2 ^ unitBits]

def boolCode (b : Bool) : List Int := intCode (if b then 1 else 0)

def floatCode : Float64 → List Int
  | .finite negative units _ _ => [1, 0, if negative then -(units : Int) else units]
  | .infinite negative => [1, if negative then -1 else 1, 0]
  | .nan => [1, 2, 0]

def strCode (s : Text) : List Int := 2 :: s.map fun c => (c.val : Int)

/-- Equal keys have equal codes; codes order strings by code points and numbers by
value. -/
def PyKey.code : PyKey → List Int
  | .none => [0]
  | .bool b => boolCode b
  | .int n => intCode n
  | .float x => floatCode x
  | .str s => strCode s
  | .object id => [3, id]

theorem strCode_inj {s t : Text} (same : strCode s = strCode t) : s = t := by
  have mapped := (List.cons.inj same).2
  exact List.map_injective_iff.mpr (fun a b h => Fin.ext (Int.ofNat.inj h)) mapped

/-! ## Dictionaries -/

section Dict

variable {α β : Type*}

/-- `d[k] = v` on a sorted dictionary: an equal key stays and gets the new value. -/
def insertKey (k : PyKey) (v : α) : List (PyKey × α) → List (PyKey × α)
  | [] => [(k, v)]
  | (k', v') :: rest =>
    if k.code = k'.code then (k', v) :: rest
    else if k.code < k'.code then (k, v) :: (k', v') :: rest
    else (k', v') :: insertKey k v rest

def dictItems (items : List (PyKey × α)) : List (PyKey × α) :=
  items.foldl (fun built item => insertKey item.1 item.2 built) []

def dictGet (code : List Int) : List (PyKey × α) → Option α
  | [] => none
  | (k, v) :: rest =>
    match dictGet code rest with
    | some w => some w
    | none => if k.code = code then some v else none

def SortedKeys (items : List (PyKey × α)) : Prop :=
  items.Pairwise fun a b => a.1.code < b.1.code

variable {k : PyKey} {v : α} {items : List (PyKey × α)} {entry : PyKey × α}

theorem mem_insertKey (member : entry ∈ insertKey k v items) :
    (entry = (k, v)) ∨ entry ∈ items ∨ (entry.2 = v ∧ entry.1.code = k.code) := by
  induction items with
  | nil => exact .inl (by simpa [insertKey] using member)
  | cons head rest ih =>
    obtain ⟨k', v'⟩ := head
    unfold insertKey at member
    split_ifs at member with same less
    · rcases List.mem_cons.mp member with rfl | tail
      · exact .inr (.inr ⟨rfl, same.symm⟩)
      · exact .inr (.inl (List.mem_cons_of_mem _ tail))
    · rcases List.mem_cons.mp member with rfl | tail
      · exact .inl rfl
      · exact .inr (.inl tail)
    · rcases List.mem_cons.mp member with rfl | tail
      · exact .inr (.inl List.mem_cons_self)
      · rcases ih tail with fresh | old | value
        · exact .inl fresh
        · exact .inr (.inl (List.mem_cons_of_mem _ old))
        · exact .inr (.inr value)

theorem code_of_mem_insertKey (member : entry ∈ insertKey k v items) :
    entry.1.code = k.code ∨ ∃ old ∈ items, old.1.code = entry.1.code := by
  rcases mem_insertKey member with rfl | old | ⟨-, code⟩
  · exact .inl rfl
  · exact .inr ⟨entry, old, rfl⟩
  · exact .inl code

theorem SortedKeys.insertKey (sorted : SortedKeys items) : SortedKeys (insertKey k v items) := by
  induction items with
  | nil => exact List.pairwise_singleton _ _
  | cons head rest ih =>
    obtain ⟨k', v'⟩ := head
    obtain ⟨first, sorted⟩ := List.pairwise_cons.mp sorted
    unfold Lib.insertKey
    split_ifs with same less
    · exact List.pairwise_cons.mpr ⟨first, sorted⟩
    · refine List.pairwise_cons.mpr ⟨?_, List.pairwise_cons.mpr ⟨first, sorted⟩⟩
      intro entry member
      rcases List.mem_cons.mp member with rfl | tail
      · exact less
      · exact lt_trans less (first entry tail)
    · refine List.pairwise_cons.mpr ⟨?_, ih sorted⟩
      intro entry member
      have above : k'.code < k.code := lt_of_le_of_ne (not_lt.mp less) (Ne.symm same)
      rcases code_of_mem_insertKey member with code | ⟨old, inRest, code⟩
      · exact code ▸ above
      · exact code ▸ first old inRest

theorem sortedKeys_foldl (items : List (PyKey × α)) {built : List (PyKey × α)}
    (sorted : SortedKeys built) :
    SortedKeys (items.foldl (fun built item => insertKey item.1 item.2 built) built) := by
  induction items generalizing built with
  | nil => exact sorted
  | cons head rest ih => exact ih sorted.insertKey

theorem sortedKeys_dictItems (items : List (PyKey × α)) : SortedKeys (dictItems items) :=
  sortedKeys_foldl items List.Pairwise.nil

theorem mem_dictItems (member : entry ∈ dictItems items) : ∃ old ∈ items, old.2 = entry.2 := by
  have general : ∀ (built : List (PyKey × α)) (items : List (PyKey × α)),
      entry ∈ items.foldl (fun built item => insertKey item.1 item.2 built) built →
      entry ∈ built ∨ ∃ old ∈ items, old.2 = entry.2 := by
    intro built items
    induction items generalizing built with
    | nil => exact .inl
    | cons head rest ih =>
      intro member
      rcases ih _ member with inBuilt | ⟨old, inRest, value⟩
      · rcases mem_insertKey inBuilt with fresh | before | ⟨value, -⟩
        · exact .inr ⟨head, List.mem_cons_self, by rw [fresh]⟩
        · exact .inl before
        · exact .inr ⟨head, List.mem_cons_self, value.symm⟩
      · exact .inr ⟨old, List.mem_cons_of_mem _ inRest, value⟩
  rcases general [] items member with impossible | found
  · exact absurd impossible List.not_mem_nil
  · exact found

theorem key_of_mem_insertKey
    (member : entry ∈ insertKey k v items) : entry.1 = k ∨ ∃ old ∈ items, old.1 = entry.1 := by
  induction items with
  | nil => exact .inl (by rw [List.mem_singleton.mp member])
  | cons head rest ih =>
    obtain ⟨k', v'⟩ := head
    unfold insertKey at member
    split_ifs at member with same less
    · rcases List.mem_cons.mp member with rfl | tail
      · exact .inr ⟨(k', v'), List.mem_cons_self, rfl⟩
      · exact .inr ⟨entry, List.mem_cons_of_mem _ tail, rfl⟩
    · rcases List.mem_cons.mp member with rfl | tail
      · exact .inl rfl
      · exact .inr ⟨entry, tail, rfl⟩
    · rcases List.mem_cons.mp member with rfl | tail
      · exact .inr ⟨(k', v'), List.mem_cons_self, rfl⟩
      · rcases ih tail with fresh | ⟨old, inRest, key⟩
        · exact .inl fresh
        · exact .inr ⟨old, List.mem_cons_of_mem _ inRest, key⟩

theorem key_of_mem_dictItems
    (member : entry ∈ dictItems items) : ∃ old ∈ items, old.1 = entry.1 := by
  have general : ∀ (built : List (PyKey × α)) (items : List (PyKey × α)),
      entry ∈ items.foldl (fun built item => insertKey item.1 item.2 built) built →
      (∃ old ∈ built, old.1 = entry.1) ∨ ∃ old ∈ items, old.1 = entry.1 := by
    intro built items
    induction items generalizing built with
    | nil => exact fun member => .inl ⟨entry, member, rfl⟩
    | cons head rest ih =>
      intro member
      rcases ih _ member with ⟨old, inBuilt, key⟩ | ⟨old, inRest, key⟩
      · rcases key_of_mem_insertKey inBuilt with fresh | ⟨before, there, same⟩
        · exact .inr ⟨head, List.mem_cons_self, fresh.symm.trans key⟩
        · exact .inl ⟨before, there, same.trans key⟩
      · exact .inr ⟨old, List.mem_cons_of_mem _ inRest, key⟩
  rcases general [] items member with ⟨old, impossible, -⟩ | found
  · exact absurd impossible List.not_mem_nil
  · exact found

theorem insertKey_above
    (above : ∀ entry ∈ items, entry.1.code < k.code) : insertKey k v items = items ++ [(k, v)] := by
  induction items with
  | nil => rfl
  | cons head rest ih =>
    obtain ⟨k', v'⟩ := head
    have here := above (k', v') List.mem_cons_self
    unfold insertKey
    rw [if_neg (ne_of_gt here), if_neg (lt_asymm here),
      ih (fun entry member => above entry (List.mem_cons_of_mem _ member))]
    rfl

theorem dictItems_of_sorted (sorted : SortedKeys items) :
    dictItems items = items := by
  have general : ∀ built rest : List (PyKey × α), SortedKeys (built ++ rest) →
      rest.foldl (fun built item => insertKey item.1 item.2 built) built = built ++ rest := by
    intro built rest
    induction rest generalizing built with
    | nil => simp
    | cons head rest ih =>
      intro sorted
      have above : ∀ entry ∈ built, entry.1.code < head.1.code := by
        intro entry member
        exact (List.pairwise_append.mp sorted).2.2 entry member head List.mem_cons_self
      rw [List.foldl_cons, insertKey_above above, ih _ (by simpa using sorted)]
      simp
  exact general [] items sorted

theorem insertKey_map (f : α → β) (k : PyKey) (v : α) (items : List (PyKey × α)) :
    insertKey k (f v) (items.map fun item => (item.1, f item.2)) =
      (insertKey k v items).map fun item => (item.1, f item.2) := by
  induction items with
  | nil => rfl
  | cons head rest ih =>
    simp only [List.map_cons, insertKey]
    split_ifs <;> simp [ih]

theorem dictItems_map (f : α → β) (items : List (PyKey × α)) :
    dictItems (items.map fun item => (item.1, f item.2)) =
      (dictItems items).map fun item => (item.1, f item.2) := by
  have general : ∀ built : List (PyKey × α),
      (items.map fun item => (item.1, f item.2)).foldl
        (fun built item => insertKey item.1 item.2 built)
        (built.map fun item => (item.1, f item.2)) =
      (items.foldl (fun built item => insertKey item.1 item.2 built) built).map
        fun item => (item.1, f item.2) := by
    induction items with
    | nil => exact fun _ => rfl
    | cons head rest ih =>
      intro built
      rw [List.map_cons, List.foldl_cons, List.foldl_cons]
      dsimp only
      rw [insertKey_map, ih]
  exact general []

theorem dictGet_eq_none {code : List Int}
    (absent : ∀ entry ∈ items, entry.1.code ≠ code) : dictGet code items = none := by
  induction items with
  | nil => rfl
  | cons head rest ih =>
    obtain ⟨k, v⟩ := head
    simp only [dictGet, ih (fun entry member => absent entry (List.mem_cons_of_mem _ member))]
    exact if_neg (absent (k, v) List.mem_cons_self)

theorem dictGet_insertKey (code : List Int) (sorted : SortedKeys items) :
    dictGet code (insertKey k v items) = if k.code = code then some v else dictGet code items := by
  induction items with
  | nil => rfl
  | cons head rest ih =>
    obtain ⟨k', v'⟩ := head
    obtain ⟨first, sorted⟩ := List.pairwise_cons.mp sorted
    unfold insertKey
    by_cases hit : k.code = code
    · have absent : ∀ entry ∈ rest, k.code ≤ k'.code → entry.1.code ≠ code :=
        fun entry member le => ne_of_gt (hit ▸ lt_of_le_of_lt le (first entry member))
      rw [if_pos hit]
      split_ifs with same less
      · -- the key is replaced here, and no later entry has it
        simp only [dictGet, dictGet_eq_none fun e m => absent e m same.le]
        exact if_pos (same ▸ hit)
      · have head : k'.code ≠ code := ne_of_gt (hit ▸ less)
        simp only [dictGet, dictGet_eq_none fun e m => absent e m less.le, if_neg head]
        exact if_pos hit
      · simp only [dictGet, ih sorted, if_pos hit]
    · rw [if_neg hit]
      split_ifs with same less
      · have other : k'.code ≠ code := same ▸ hit
        simp only [dictGet, other, if_false]
      · rw [dictGet]
        cases found : dictGet code ((k', v') :: rest) <;> simp [hit]
      · simp only [dictGet, ih sorted, if_neg hit]

theorem dictGet_dictItems (code : List Int) (items : List (PyKey × α)) :
    dictGet code (dictItems items) = dictGet code items := by
  have general : ∀ built : List (PyKey × α), SortedKeys built →
      dictGet code (items.foldl (fun built item => insertKey item.1 item.2 built) built) =
        (dictGet code items).or (dictGet code built) := by
    induction items with
    | nil => exact fun _ _ => rfl
    | cons head rest ih =>
      obtain ⟨k, v⟩ := head
      intro built sorted
      rw [List.foldl_cons, ih _ sorted.insertKey, dictGet_insertKey code sorted, dictGet]
      cases dictGet code rest with
      | some w => rfl
      | none =>
        by_cases hit : k.code = code
        · simp [hit]
        · simp [hit]
  exact (general [] List.Pairwise.nil).trans Option.or_none

theorem dictGet_map (f : α → β) (code : List Int) (items : List (PyKey × α)) :
    dictGet code (items.map fun item => (item.1, f item.2)) = (dictGet code items).map f := by
  induction items with
  | nil => rfl
  | cons head rest ih =>
    obtain ⟨k, v⟩ := head
    simp only [List.map_cons, dictGet, ih]
    cases dictGet code rest with
    | some w => rfl
    | none => split_ifs <;> rfl

end Dict

/-! ## Equality -/

/-- A value up to `==`. -/
inductive Canon where
  | atom (code : List Int)
  | seq (tuple : Bool) (items : List Canon)
  | dict (items : List (List Int × Canon))

mutual

def Canon.decEq : (a b : Canon) → Decidable (a = b)
  | .atom c, .atom d => decidable_of_iff (c = d) (by simp)
  | .seq t xs, .seq u ys =>
    match Canon.decEqList xs ys with
    | isTrue same => decidable_of_iff (t = u) (by simp [same])
    | isFalse other => isFalse (by simp [other])
  | .dict xs, .dict ys =>
    match Canon.decEqItems xs ys with
    | isTrue same => isTrue (by rw [same])
    | isFalse other => isFalse (by simpa using other)
  | .atom _, .seq _ _ | .atom _, .dict _ | .seq _ _, .atom _ | .seq _ _, .dict _
  | .dict _, .atom _ | .dict _, .seq _ _ => isFalse nofun

def Canon.decEqList : (xs ys : List Canon) → Decidable (xs = ys)
  | [], [] => isTrue rfl
  | [], _ :: _ | _ :: _, [] => isFalse nofun
  | x :: xs, y :: ys =>
    match Canon.decEq x y, Canon.decEqList xs ys with
    | isTrue head, isTrue tail => isTrue (by rw [head, tail])
    | isFalse head, _ => isFalse (by simp [head])
    | _, isFalse tail => isFalse (by simp [tail])

def Canon.decEqItems : (xs ys : List (List Int × Canon)) → Decidable (xs = ys)
  | [], [] => isTrue rfl
  | [], _ :: _ | _ :: _, [] => isFalse nofun
  | (c, x) :: xs, (d, y) :: ys =>
    match Canon.decEq x y, Canon.decEqItems xs ys with
    | isTrue head, isTrue tail => decidable_of_iff (c = d) (by simp [head, tail])
    | isFalse head, _ => isFalse (by simp [head])
    | _, isFalse tail => isFalse (by simp [tail])

end

instance : DecidableEq Canon := Canon.decEq

namespace PyVal

mutual

def canon : PyVal → Canon
  | .none => .atom [0]
  | .bool b => .atom (boolCode b)
  | .int n => .atom (intCode n)
  | .float x => .atom (floatCode x)
  | .str s => .atom (strCode s)
  | .list items => .seq false (canonList items)
  | .tuple items => .seq true (canonList items)
  | .dict items => .dict ((dictItems (canonItems items)).map fun item => (item.1.code, item.2))
  | .object id => .atom [3, id]

def canonList : List PyVal → List Canon
  | [] => []
  | v :: rest => v.canon :: canonList rest

def canonItems : List (PyKey × PyVal) → List (PyKey × Canon)
  | [] => []
  | (k, v) :: rest => (k, v.canon) :: canonItems rest

end

def pyEq (a b : PyVal) : Bool := a.canon = b.canon

theorem pyEq_iff {a b : PyVal} : a.pyEq b = true ↔ a.canon = b.canon := by
  simp [pyEq]

@[simp] theorem pyEq_refl (a : PyVal) : a.pyEq a = true := pyEq_iff.mpr rfl

theorem pyEq_symm {a b : PyVal} (same : a.pyEq b = true) : b.pyEq a = true :=
  pyEq_iff.mpr (pyEq_iff.mp same).symm

@[simp] theorem canonList_eq_map (items : List PyVal) : canonList items = items.map canon := by
  induction items with
  | nil => rfl
  | cons head tail ih => simp [canonList, ih]

@[simp] theorem canonItems_eq_map (items : List (PyKey × PyVal)) :
    canonItems items = items.map fun item => (item.1, item.2.canon) := by
  induction items with
  | nil => rfl
  | cons head tail ih => simp [canonItems, ih]

theorem canon_dict (items : List (PyKey × PyVal)) :
    (PyVal.dict items).canon =
      .dict ((dictItems items).map fun item => (item.1.code, item.2.canon)) := by
  simp [canon, dictItems_map]

def truthy : PyVal → Bool
  | .none => false
  | .bool b => b
  | .int n => n ≠ 0
  | .float (.finite _ units _ _) => units ≠ 0
  | .float _ => true
  | .str s => !s.isEmpty
  | .list items => !items.isEmpty
  | .tuple items => !items.isEmpty
  | .dict items => !items.isEmpty
  | .object _ => true

end PyVal

end AiStorage.Lib
