import AiStorage.Lib.Text

/-!
# Escaped path segments

Go's `url.PathEscape` and `url.PathUnescape` on strings, which are byte sequences.
-/
namespace AiStorage.Lib

def percentByte : UInt8 := 37

def slashByte : UInt8 := 47

/-- `unhex`, where `ishex` holds. -/
def unhex (b : UInt8) : Option Nat :=
  let n := b.toNat
  if 48 ≤ n && n ≤ 57 then some (n - 48)
  else if 97 ≤ n && n ≤ 102 then some (n - 87)
  else if 65 ≤ n && n ≤ 70 then some (n - 55)
  else none

def upperHexByte (n : Nat) : UInt8 := UInt8.ofNat (if n < 10 then 48 + n else 55 + n)

/-- `shouldEscape(b, encodePathSegment)` is false: letters, digits and `-_.~$&+:=@`. -/
def keptInSegment (b : UInt8) : Bool :=
  let n := b.toNat
  97 ≤ n && n ≤ 122 || 65 ≤ n && n ≤ 90 || 48 ≤ n && n ≤ 57 ||
    n = 45 || n = 95 || n = 46 || n = 126 ||
    n = 36 || n = 38 || n = 43 || n = 58 || n = 61 || n = 64

def escapeByte (b : UInt8) : Bytes :=
  if keptInSegment b then [b]
  else [percentByte, upperHexByte (b.toNat / 16), upperHexByte (b.toNat % 16)]

def pathEscape (s : Bytes) : Bytes := s.flatMap escapeByte

/-- `none` is `EscapeError`. -/
def pathUnescape : Bytes → Option Bytes
  | [] => some []
  | b :: rest =>
    if b = percentByte then
      match rest with
      | high :: low :: more => do
        let h ← unhex high
        let l ← unhex low
        let s ← pathUnescape more
        return UInt8.ofNat (h * 16 + l) :: s
      | _ => none
    else (pathUnescape rest).map (b :: ·)

/-! ### Unescaping inverts escaping -/

theorem unhex_upperHexByte : ∀ n < 16, unhex (upperHexByte n) = some n := by decide +kernel

theorem not_kept_percentByte : keptInSegment percentByte = false := by decide

theorem pathUnescape_cons {b : UInt8} (plain : b ≠ percentByte) (rest : Bytes) :
    pathUnescape (b :: rest) = (pathUnescape rest).map (b :: ·) := by
  rw [pathUnescape.eq_def]
  exact if_neg plain

theorem pathUnescape_escapeByte (b : UInt8) (rest : Bytes) :
    pathUnescape (escapeByte b ++ rest) = (pathUnescape rest).map (b :: ·) := by
  rw [escapeByte]
  split_ifs with kept
  · apply pathUnescape_cons
    intro same
    rw [same, not_kept_percentByte] at kept
    cases kept
  · have bound := b.toNat_lt
    have whole : b.toNat / 16 * 16 + b.toNat % 16 = b.toNat := by omega
    change pathUnescape (percentByte :: upperHexByte _ :: upperHexByte _ :: rest) = _
    rw [pathUnescape, if_pos rfl, unhex_upperHexByte _ (by omega), unhex_upperHexByte _ (by omega)]
    cases pathUnescape rest with
    | none => rfl
    | some s =>
      change some (UInt8.ofNat _ :: s) = some (b :: s)
      rw [whole, UInt8.ofNat_toNat]

theorem pathUnescape_pathEscape_append (s rest : Bytes) :
    pathUnescape (pathEscape s ++ rest) = (pathUnescape rest).map (s ++ ·) := by
  induction s with
  | nil => simp [pathEscape]
  | cons b s later =>
    rw [pathEscape, List.flatMap_cons, List.append_assoc, pathUnescape_escapeByte, ← pathEscape,
      later, Option.map_map]
    rfl

/-! ### Percent signs -/

theorem pathUnescape_plain_append {s : Bytes} (plain : percentByte ∉ s) (rest : Bytes) :
    pathUnescape (s ++ rest) = (pathUnescape rest).map (s ++ ·) := by
  induction s with
  | nil => simp
  | cons b s later =>
    rw [List.mem_cons, not_or] at plain
    rw [List.cons_append, pathUnescape_cons (Ne.symm plain.1), later plain.2, Option.map_map]
    rfl

theorem pathUnescape_plain {s : Bytes} (plain : percentByte ∉ s) : pathUnescape s = some s := by
  have whole := pathUnescape_plain_append plain []
  rwa [List.append_nil, pathUnescape, Option.map_some, List.append_nil] at whole

theorem length_pathUnescape (s : Bytes) : ∀ t, pathUnescape s = some t →
    t.length ≤ s.length ∧ (percentByte ∈ s → t.length < s.length) := by
  fun_induction pathUnescape s with
  | case1 =>
    intro t read
    cases read
    simp
  | case2 high low more shorter =>
    intro t read
    simp only [bind, Option.bind_eq_some_iff, pure, Option.some.injEq] at read
    obtain ⟨h, -, l, -, s, inner, rfl⟩ := read
    have bound := (shorter s inner).1
    simp only [List.length_cons]
    constructor
    · omega
    · intro _
      omega
  | case3 rest short =>
    intro t wrong
    cases wrong
  | case4 b rest other shorter =>
    intro t read
    obtain ⟨s, inner, rfl⟩ := Option.map_eq_some_iff.mp read
    obtain ⟨bound, strict⟩ := shorter s inner
    simp only [List.length_cons]
    constructor
    · omega
    · intro member
      rcases List.mem_cons.mp member with same | inside
      · exact absurd same.symm other
      · have less := strict inside
        omega

theorem pathUnescape_ne_self {s : Bytes} (escaped : percentByte ∈ s) : pathUnescape s ≠ some s := by
  intro same
  exact absurd ((length_pathUnescape s s same).2 escaped) (Nat.lt_irrefl _)

/-! ### White space -/

/-- `unicode.IsSpace` -/
def isGoSpace (c : CodePoint) : Bool :=
  let n := c.val
  9 ≤ n && n ≤ 13 || n = 32 || n = 133 || n = 160 || n = 5760 || 8192 ≤ n && n ≤ 8202 ||
    n = 8232 || n = 8233 || n = 8239 || n = 8287 || n = 12288

/-- `strings.TrimSpace(s) == ""`: every rune is white space, and a byte that is no part
of a rune is not. -/
def isBlank (s : Bytes) : Bool :=
  (decodeParts s.length s).all fun rune => rune.any isGoSpace

end AiStorage.Lib
