import AiStorage.Lib.Bytes

/-!
# Unicode text and its UTF-8 form

Text is a list of code points, surrogates included, as a Python `str` is.
Encoding fails on a surrogate; decoding is strict or replaces each maximal
ill-formed part by U+FFFD.
-/
namespace AiStorage.Lib

abbrev CodePoint := Fin 1114112

abbrev Text := List CodePoint

def CodePoint.ofChar (c : Char) : CodePoint :=
  ⟨c.toNat, by
    rcases c.valid with low | ⟨-, high⟩
    · exact Nat.lt_of_lt_of_le low (by decide)
    · exact high⟩

/-- The code point of a number below the bound. -/
def CodePoint.ofNat (n : Nat) : CodePoint := ⟨n % 1114112, Nat.mod_lt n (by decide)⟩

def text (s : String) : Text := s.toList.map CodePoint.ofChar

namespace CodePoint

def isHighSurrogate (c : CodePoint) : Bool := 55296 ≤ c.val && c.val ≤ 56319

def isLowSurrogate (c : CodePoint) : Bool := 56320 ≤ c.val && c.val ≤ 57343

def isSurrogate (c : CodePoint) : Bool := 55296 ≤ c.val && c.val ≤ 57343

end CodePoint

def utf8Char (c : CodePoint) : Bytes :=
  let n := c.val
  if n < 128 then [UInt8.ofNat n]
  else if n < 2048 then [UInt8.ofNat (192 + n / 64), UInt8.ofNat (128 + n % 64)]
  else if n < 65536 then
    [UInt8.ofNat (224 + n / 4096), UInt8.ofNat (128 + n / 64 % 64), UInt8.ofNat (128 + n % 64)]
  else
    [UInt8.ofNat (240 + n / 262144), UInt8.ofNat (128 + n / 4096 % 64),
      UInt8.ofNat (128 + n / 64 % 64), UInt8.ofNat (128 + n % 64)]

/-- `str.encode("utf-8")`; `none` is `UnicodeEncodeError`. -/
def encodeUtf8 (s : Text) : Option Bytes :=
  if s.any CodePoint.isSurrogate then none else some (s.flatMap utf8Char)

/-! ## Decoding -/

def isContinuation (b : UInt8) : Bool := 128 ≤ b.toNat && b.toNat < 192

/-- The second byte that a lead byte of a longer sequence admits. -/
def admitsSecond (lead second : UInt8) : Bool :=
  let a := lead.toNat
  let b := second.toNat
  if a = 224 then 160 ≤ b && b < 192
  else if a = 237 then 128 ≤ b && b < 160
  else if a = 240 then 144 ≤ b && b < 192
  else if a = 244 then 128 ≤ b && b < 144
  else 128 ≤ b && b < 192

/-- What stands at the front of a byte string: a code point, or an ill-formed part,
each with the bytes that follow it. -/
def nextUtf8 (lead : UInt8) (rest : Bytes) : Option CodePoint × Bytes :=
  let a := lead.toNat
  if a < 128 then (some (CodePoint.ofNat a), rest)
  else if 194 ≤ a ∧ a < 224 then
    match rest with
    | b :: rest₁ =>
      if isContinuation b then (some (CodePoint.ofNat ((a - 192) * 64 + (b.toNat - 128))), rest₁)
      else (none, rest)
    | [] => (none, [])
  else if 224 ≤ a ∧ a < 240 then
    match rest with
    | b :: c :: rest₂ =>
      if !admitsSecond lead b then (none, rest)
      else if !isContinuation c then (none, c :: rest₂)
      else
        (some (CodePoint.ofNat ((a - 224) * 4096 + (b.toNat - 128) * 64 + (c.toNat - 128))), rest₂)
    | [b] => if admitsSecond lead b then (none, []) else (none, [b])
    | [] => (none, [])
  else if 240 ≤ a ∧ a < 245 then
    match rest with
    | b :: c :: d :: rest₃ =>
      if !admitsSecond lead b then (none, rest)
      else if !isContinuation c then (none, c :: d :: rest₃)
      else if !isContinuation d then (none, d :: rest₃)
      else
        (some (CodePoint.ofNat ((a - 240) * 262144 + (b.toNat - 128) * 4096 +
          (c.toNat - 128) * 64 + (d.toNat - 128))), rest₃)
    | [b, c] =>
      if !admitsSecond lead b then (none, rest)
      else if isContinuation c then (none, []) else (none, [c])
    | [b] => if admitsSecond lead b then (none, []) else (none, [b])
    | [] => (none, [])
  else (none, rest)

def decodeParts : Nat → Bytes → List (Option CodePoint)
  | 0, _ => []
  | _, [] => []
  | fuel + 1, lead :: rest =>
    let (part, rest) := nextUtf8 lead rest
    part :: decodeParts fuel rest

/-- `bytes.decode("utf-8")`; `none` is `UnicodeDecodeError`. -/
def decodeUtf8 (bytes : Bytes) : Option Text := (decodeParts bytes.length bytes).mapM id

/-- `bytes.decode("utf-8", "replace")`. -/
def decodeUtf8Replace (bytes : Bytes) : Text :=
  (decodeParts bytes.length bytes).map fun part => part.getD 65533

/-! ## Round trip -/

theorem nextUtf8_utf8Char {c : CodePoint} (scalar : c.isSurrogate = false) (rest : Bytes) :
    ∃ lead tail, utf8Char c = lead :: tail ∧ nextUtf8 lead (tail ++ rest) = (some c, rest) := by
  obtain ⟨n, small⟩ := c
  simp only [CodePoint.isSurrogate, Bool.and_eq_false_iff, decide_eq_false_iff_not] at scalar
  have byte : ∀ m, m < 256 → (UInt8.ofNat m).toNat = m := by
    intro m h
    simp [Nat.mod_eq_of_lt h]
  unfold utf8Char
  dsimp only
  split_ifs with one two three
  · refine ⟨_, _, rfl, ?_⟩
    have lead := byte n (by omega)
    simp only [nextUtf8, lead, one, if_true, List.nil_append, Prod.mk.injEq, Option.some.injEq,
      and_true]
    exact Fin.ext (Nat.mod_eq_of_lt small)
  · refine ⟨_, _, rfl, ?_⟩
    have lead := byte (192 + n / 64) (by omega)
    have second := byte (128 + n % 64) (by omega)
    have value : (192 + n / 64 - 192) * 64 + (128 + n % 64 - 128) = n := by omega
    have range : ¬ 192 + n / 64 < 128 ∧ 194 ≤ 192 + n / 64 ∧ 192 + n / 64 < 224 := by omega
    have tail : 128 ≤ 128 + n % 64 ∧ 128 + n % 64 < 192 := by omega
    simp only [nextUtf8, lead, range, if_false, if_true, List.cons_append, List.nil_append,
      isContinuation, second, tail, decide_true, Bool.and_self, and_self, value, Prod.mk.injEq,
      Option.some.injEq, and_true]
    exact Fin.ext (Nat.mod_eq_of_lt small)
  · refine ⟨_, _, rfl, ?_⟩
    have lead := byte (224 + n / 4096) (by omega)
    have second := byte (128 + n / 64 % 64) (by omega)
    have third := byte (128 + n % 64) (by omega)
    have value : (224 + n / 4096 - 224) * 4096 + (128 + n / 64 % 64 - 128) * 64 +
        (128 + n % 64 - 128) = n := by omega
    have range : ¬ 224 + n / 4096 < 128 ∧ ¬ (194 ≤ 224 + n / 4096 ∧ 224 + n / 4096 < 224) ∧
        224 ≤ 224 + n / 4096 ∧ 224 + n / 4096 < 240 := by omega
    have admits : admitsSecond (UInt8.ofNat (224 + n / 4096)) (UInt8.ofNat (128 + n / 64 % 64)) := by
      simp only [admitsSecond, lead, second]
      split_ifs <;> simp only [Bool.and_eq_true, decide_eq_true_eq] <;> omega
    have tail : isContinuation (UInt8.ofNat (128 + n % 64)) := by
      simp only [isContinuation, third, Bool.and_eq_true, decide_eq_true_eq]
      omega
    simp only [nextUtf8, lead, range, if_false, if_true, List.cons_append, List.nil_append, second,
      third, admits, tail, Bool.not_true, Bool.false_eq_true, value, and_self, Prod.mk.injEq,
      Option.some.injEq, and_true]
    exact Fin.ext (Nat.mod_eq_of_lt small)
  · refine ⟨_, _, rfl, ?_⟩
    have lead := byte (240 + n / 262144) (by omega)
    have second := byte (128 + n / 4096 % 64) (by omega)
    have third := byte (128 + n / 64 % 64) (by omega)
    have fourth := byte (128 + n % 64) (by omega)
    have value : (240 + n / 262144 - 240) * 262144 + (128 + n / 4096 % 64 - 128) * 4096 +
        (128 + n / 64 % 64 - 128) * 64 + (128 + n % 64 - 128) = n := by omega
    have range : ¬ 240 + n / 262144 < 128 ∧
        ¬ (194 ≤ 240 + n / 262144 ∧ 240 + n / 262144 < 224) ∧
        ¬ (224 ≤ 240 + n / 262144 ∧ 240 + n / 262144 < 240) ∧
        240 ≤ 240 + n / 262144 ∧ 240 + n / 262144 < 245 := by omega
    have admits :
        admitsSecond (UInt8.ofNat (240 + n / 262144)) (UInt8.ofNat (128 + n / 4096 % 64)) := by
      simp only [admitsSecond, lead, second]
      split_ifs <;> simp only [Bool.and_eq_true, decide_eq_true_eq] <;> omega
    have tails : isContinuation (UInt8.ofNat (128 + n / 64 % 64)) ∧
        isContinuation (UInt8.ofNat (128 + n % 64)) := by
      simp only [isContinuation, third, fourth, Bool.and_eq_true, decide_eq_true_eq]
      omega
    simp only [nextUtf8, lead, range, if_false, if_true, List.cons_append, List.nil_append, second,
      third, fourth, admits, tails, Bool.not_true, Bool.false_eq_true, value, and_self,
      Prod.mk.injEq, Option.some.injEq, and_true]
    exact Fin.ext (Nat.mod_eq_of_lt small)

theorem decodeParts_flatMap (s : Text) (scalar : ∀ c ∈ s, c.isSurrogate = false) (fuel : Nat)
    (enough : (s.flatMap utf8Char).length ≤ fuel) :
    decodeParts fuel (s.flatMap utf8Char) = s.map some := by
  induction s generalizing fuel with
  | nil => cases fuel <;> rfl
  | cons c rest ih =>
    obtain ⟨lead, tail, shape, next⟩ :=
      nextUtf8_utf8Char (scalar c (by simp)) (rest.flatMap utf8Char)
    rw [List.flatMap_cons, shape] at enough ⊢
    cases fuel with
    | zero => simp at enough
    | succ fuel =>
      simp only [List.cons_append, decodeParts, next, List.map_cons]
      rw [ih (fun x member => scalar x (by simp [member])) fuel (by simp at enough ⊢; omega)]

theorem mapM_map_some {α : Type*} (items : List α) : (items.map some).mapM id = some items := by
  induction items with
  | nil => rfl
  | cons head tail ih => simp [ih]

section RoundTrip

variable {s : Text} {bytes : Bytes}

theorem scalar_of_encodeUtf8 (encoded : encodeUtf8 s = some bytes) :
    (∀ c ∈ s, c.isSurrogate = false) ∧ bytes = s.flatMap utf8Char := by
  unfold encodeUtf8 at encoded
  split_ifs at encoded with bad
  simp only [List.any_eq_true, not_exists, not_and, Bool.not_eq_true] at bad
  exact ⟨bad, (Option.some.inj encoded).symm⟩

theorem encodeUtf8_isSome : (encodeUtf8 s).isSome = true ↔ ∀ c ∈ s, c.isSurrogate = false := by
  constructor
  · intro encodes
    obtain ⟨bytes, encoded⟩ := Option.isSome_iff_exists.mp encodes
    exact (scalar_of_encodeUtf8 encoded).1
  · intro scalar
    have none : ¬ s.any CodePoint.isSurrogate = true := by
      simpa only [List.any_eq_true, not_exists, not_and, Bool.not_eq_true] using scalar
    rw [encodeUtf8, if_neg none]
    rfl

theorem decodeUtf8_encodeUtf8 (encoded : encodeUtf8 s = some bytes) : decodeUtf8 bytes = some s := by
  obtain ⟨scalar, rfl⟩ := scalar_of_encodeUtf8 encoded
  rw [decodeUtf8, decodeParts_flatMap s scalar _ le_rfl, mapM_map_some]

theorem decodeUtf8Replace_encodeUtf8 (encoded : encodeUtf8 s = some bytes) :
    decodeUtf8Replace bytes = s := by
  obtain ⟨scalar, rfl⟩ := scalar_of_encodeUtf8 encoded
  rw [decodeUtf8Replace, decodeParts_flatMap s scalar _ le_rfl]
  simp

theorem encodeUtf8_inj {t : Text} (hs : encodeUtf8 s = some bytes) (ht : encodeUtf8 t = some bytes) :
    s = t :=
  Option.some.inj ((decodeUtf8_encodeUtf8 hs).symm.trans (decodeUtf8_encodeUtf8 ht))

end RoundTrip

/-! ## Text that UTF-8 can carry -/

abbrev ScalarText := { s : Text // ∀ c ∈ s, c.isSurrogate = false }

theorem CodePoint.isSurrogate_ofChar (c : Char) : (CodePoint.ofChar c).isSurrogate = false := by
  have outside : ¬ (55296 ≤ c.toNat ∧ c.toNat ≤ 57343) := by
    rcases c.valid with low | ⟨high, -⟩
    · intro surrogate
      exact absurd low (by simp only [Char.toNat] at surrogate; omega)
    · intro surrogate
      exact absurd high (by simp only [Char.toNat] at surrogate; omega)
  change (decide (55296 ≤ c.toNat) && decide (c.toNat ≤ 57343)) = false
  rw [← Bool.decide_and, decide_eq_false outside]

namespace ScalarText

def ofString (s : String) : ScalarText :=
  ⟨text s, by
    intro c member
    obtain ⟨char, -, rfl⟩ := List.mem_map.mp member
    exact CodePoint.isSurrogate_ofChar char⟩

def utf8 (s : ScalarText) : Bytes := s.1.flatMap utf8Char

def append (s t : ScalarText) : ScalarText :=
  ⟨s.1 ++ t.1, fun c member => (List.mem_append.mp member).elim (s.2 c) (t.2 c)⟩

def filter (keep : CodePoint → Bool) (s : ScalarText) : ScalarText :=
  ⟨s.1.filter keep, fun c member => s.2 c (List.mem_of_mem_filter member)⟩

@[simp] theorem utf8_append (s t : ScalarText) : (s.append t).utf8 = s.utf8 ++ t.utf8 :=
  List.flatMap_append

theorem encodeUtf8_eq (s : ScalarText) : encodeUtf8 s.1 = some s.utf8 := by
  obtain ⟨bytes, encoded⟩ := Option.isSome_iff_exists.mp (encodeUtf8_isSome.mpr s.2)
  rw [encoded, (scalar_of_encodeUtf8 encoded).2]
  rfl

theorem utf8_injective : Function.Injective utf8 := fun s t same =>
  Subtype.ext (encodeUtf8_inj s.encodeUtf8_eq (same ▸ t.encodeUtf8_eq))

end ScalarText

end AiStorage.Lib
