import AiStorage.Lib.JsonNumber
import Mathlib.Data.List.Chain

/-!
# JSON strings as Python reads and writes them

Written under `ensure_ascii` a surrogate becomes a `\uXXXX` escape, and reading joins two
adjacent escapes of a surrogate pair: `joinSurrogates` is what comes back.
-/
namespace AiStorage.Lib

def hexChar (d : Nat) : CodePoint := CodePoint.ofNat (if d < 10 then 48 + d else 87 + d)

def hexValue (c : CodePoint) : Option Nat :=
  if 48 ≤ c.val ∧ c.val ≤ 57 then some (c.val - 48)
  else if 97 ≤ c.val ∧ c.val ≤ 102 then some (c.val - 87)
  else if 65 ≤ c.val ∧ c.val ≤ 70 then some (c.val - 55)
  else none

def unicodeEscape (n : Nat) : Text :=
  [ch '\\', ch 'u', hexChar (n / 4096 % 16), hexChar (n / 256 % 16), hexChar (n / 16 % 16),
    hexChar (n % 16)]

def highHalf (c : CodePoint) : CodePoint := CodePoint.ofNat (55296 + (c.val - 65536) / 1024)

def lowHalf (c : CodePoint) : CodePoint := CodePoint.ofNat (56320 + (c.val - 65536) % 1024)

def joinHalves (high low : CodePoint) : CodePoint :=
  CodePoint.ofNat (65536 + (high.val - 55296) * 1024 + (low.val - 56320))

/-- The letter after the backslash, where a character has a short escape. -/
def shortEscape (c : CodePoint) : Option CodePoint :=
  if c = ch '\"' then some (ch '\"')
  else if c = ch '\\' then some (ch '\\')
  else if c.val = 8 then some (ch 'b')
  else if c.val = 12 then some (ch 'f')
  else if c.val = 10 then some (ch 'n')
  else if c.val = 13 then some (ch 'r')
  else if c.val = 9 then some (ch 't')
  else none

def readShortEscape (e : CodePoint) : Option CodePoint :=
  if e = ch '\"' ∨ e = ch '\\' ∨ e = ch '/' then some e
  else if e = ch 'b' then some (.ofNat 8)
  else if e = ch 'f' then some (.ofNat 12)
  else if e = ch 'n' then some (.ofNat 10)
  else if e = ch 'r' then some (.ofNat 13)
  else if e = ch 't' then some (.ofNat 9)
  else none

/-- One character under `ensure_ascii=True`. -/
def escapeAscii (c : CodePoint) : Text :=
  match shortEscape c with
  | some e => [ch '\\', e]
  | none =>
    if 32 ≤ c.val ∧ c.val ≤ 126 then [c]
    else if c.val < 65536 then unicodeEscape c.val
    else unicodeEscape (highHalf c).val ++ unicodeEscape (lowHalf c).val

/-- One character under `ensure_ascii=False`. -/
def escapeRaw (c : CodePoint) : Text :=
  match shortEscape c with
  | some e => [ch '\\', e]
  | none => if c.val < 32 then unicodeEscape c.val else [c]

def quoted (escape : CodePoint → Text) (s : Text) : Text :=
  ch '\"' :: (s.flatMap escape ++ [ch '\"'])

/-- A character of a string literal, and whether it was written as `\uXXXX`. -/
abbrev StringUnit := CodePoint × Bool

def pushUnit (unit : StringUnit) : Option (List StringUnit × Text) → Option (List StringUnit × Text)
  | none => none
  | some (units, rest) => some (unit :: units, rest)

def scanUnits : Text → Option (List StringUnit × Text)
  | [] => none
  | c :: rest =>
    if c = ch '\"' then some ([], rest)
    else if c = ch '\\' then
      match rest with
      | [] => none
      | e :: more =>
        if e = ch 'u' then
          match more with
          | w :: x :: y :: z :: after =>
            match hexValue w, hexValue x, hexValue y, hexValue z with
            | some a, some b, some c, some d =>
              pushUnit (CodePoint.ofNat (a * 4096 + b * 256 + c * 16 + d), true) (scanUnits after)
            | _, _, _, _ => none
          | _ => none
        else
          match readShortEscape e with
          | some c => pushUnit (c, false) (scanUnits more)
          | none => none
    else if c.val < 32 then none
    else pushUnit (c, false) (scanUnits rest)

/-- Two adjacent escapes of a surrogate pair are one character. -/
def joinUnits : List StringUnit → Text
  | [] => []
  | [(c, _)] => [c]
  | (c, escaped) :: (d, escaped') :: rest =>
    if escaped && escaped' && c.isHighSurrogate && d.isLowSurrogate then
      joinHalves c d :: joinUnits rest
    else c :: joinUnits ((d, escaped') :: rest)

def scanString (input : Text) : Option (Text × Text) :=
  (scanUnits input).map fun (units, rest) => (joinUnits units, rest)

/-! ## Strings read back -/

/-- The units that reading finds in the escape of one character. -/
def asciiUnits (c : CodePoint) : List StringUnit :=
  if (shortEscape c).isSome ∨ 32 ≤ c.val ∧ c.val ≤ 126 then [(c, false)]
  else if c.val < 65536 then [(c, true)]
  else [(highHalf c, true), (lowHalf c, true)]

/-- What a string becomes when it is written under `ensure_ascii` and read back. -/
def joinSurrogates (s : Text) : Text := joinUnits (s.flatMap asciiUnits)

theorem hexValue_hexChar : ∀ d < 16, hexValue (hexChar d) = some d := by decide

theorem scanUnits_unicodeEscape {n : Nat} (small : n < 65536) (rest : Text) :
    scanUnits (unicodeEscape n ++ rest) = pushUnit (CodePoint.ofNat n, true) (scanUnits rest) := by
  have quote : ch '\\' ≠ ch '\"' := by decide
  have value : n / 4096 % 16 * 4096 + n / 256 % 16 * 256 + n / 16 % 16 * 16 + n % 16 = n := by
    omega
  have digit : ∀ m, hexValue (hexChar (m % 16)) = some (m % 16) :=
    fun m => hexValue_hexChar _ (Nat.mod_lt _ (by decide))
  simp only [unicodeEscape, List.cons_append, List.nil_append, scanUnits, quote, if_false, if_true,
    digit, value]

variable {c : CodePoint} {units : List StringUnit}

theorem shortEscape_eq_some {e : CodePoint} (short : shortEscape c = some e) :
    e ≠ ch 'u' ∧ readShortEscape e = some c := by
  unfold shortEscape at short
  split_ifs at short with quote backslash back feed line carriage tab
  all_goals
    obtain rfl := Option.some.inj short
    refine ⟨by decide, ?_⟩
  · rw [quote]
    decide
  · rw [backslash]
    decide
  · rw [show c = .ofNat 8 from Fin.ext back]
    decide
  · rw [show c = .ofNat 12 from Fin.ext feed]
    decide
  · rw [show c = .ofNat 10 from Fin.ext line]
    decide
  · rw [show c = .ofNat 13 from Fin.ext carriage]
    decide
  · rw [show c = .ofNat 9 from Fin.ext tab]
    decide

theorem scanUnits_shortEscape {e : CodePoint} (short : shortEscape c = some e) (rest : Text) :
    scanUnits (ch '\\' :: e :: rest) = pushUnit (c, false) (scanUnits rest) := by
  obtain ⟨plain, read⟩ := shortEscape_eq_some short
  have quote : ch '\\' ≠ ch '\"' := by decide
  rw [scanUnits.eq_def]
  simp only [quote, if_false, if_true, plain, read]

theorem scanUnits_plain (long : shortEscape c = none) (above : 32 ≤ c.val)
    (rest : Text) : scanUnits (c :: rest) = pushUnit (c, false) (scanUnits rest) := by
  have quote : c ≠ ch '\"' := by
    rintro rfl
    exact absurd long (by decide)
  have backslash : c ≠ ch '\\' := by
    rintro rfl
    exact absurd long (by decide)
  rw [scanUnits.eq_def]
  simp only [quote, backslash, Nat.not_lt.mpr above, if_false]

theorem highHalf_val (above : 65536 ≤ c.val) :
    (highHalf c).val = 55296 + (c.val - 65536) / 1024 :=
  Nat.mod_eq_of_lt (by have := c.isLt; omega)

theorem lowHalf_val (c : CodePoint) : (lowHalf c).val = 56320 + (c.val - 65536) % 1024 :=
  Nat.mod_eq_of_lt (by omega)

theorem ofNat_val (c : CodePoint) : CodePoint.ofNat c.val = c :=
  Fin.ext (Nat.mod_eq_of_lt c.isLt)

theorem scanUnits_escapeAscii (c : CodePoint) {rest tail : Text}
    (scanned : scanUnits rest = some (units, tail)) :
    scanUnits (escapeAscii c ++ rest) = some (asciiUnits c ++ units, tail) := by
  unfold escapeAscii asciiUnits
  cases short : shortEscape c with
  | some e =>
    simp only [List.cons_append, List.nil_append, scanUnits_shortEscape short, scanned]
    rfl
  | none =>
    simp only [Option.isSome_none, Bool.false_eq_true, false_or]
    split_ifs with printable bmp
    · simp only [List.cons_append, List.nil_append, scanUnits_plain short printable.1, scanned]
      rfl
    · rw [scanUnits_unicodeEscape bmp, scanned, ofNat_val]
      rfl
    · have bound := c.isLt
      have above : 65536 ≤ c.val := by omega
      have high : (highHalf c).val < 65536 := by rw [highHalf_val above]; omega
      have low : (lowHalf c).val < 65536 := by rw [lowHalf_val]; omega
      rw [List.append_assoc, scanUnits_unicodeEscape high, scanUnits_unicodeEscape low, scanned,
        ofNat_val, ofNat_val]
      rfl

theorem scanUnits_escapeRaw (c : CodePoint) {rest tail : Text}
    (scanned : scanUnits rest = some (units, tail)) :
    ∃ escaped, scanUnits (escapeRaw c ++ rest) = some ((c, escaped) :: units, tail) ∧
      (escaped = true → c.val < 32) := by
  unfold escapeRaw
  cases short : shortEscape c with
  | some e =>
    refine ⟨false, ?_, nofun⟩
    simp only [List.cons_append, List.nil_append, scanUnits_shortEscape short, scanned]
    rfl
  | none =>
    dsimp only
    split_ifs with control
    · refine ⟨true, ?_, fun _ => control⟩
      rw [scanUnits_unicodeEscape (by omega), scanned, ofNat_val]
      rfl
    · refine ⟨false, ?_, nofun⟩
      simp only [List.cons_append, List.nil_append, scanUnits_plain short (Nat.not_lt.mp control),
        scanned]
      rfl

theorem scanUnits_quote (rest : Text) : scanUnits (ch '\"' :: rest) = some ([], rest) := by
  rw [scanUnits.eq_def]
  exact if_pos rfl

/-- A string written under `ensure_ascii` reads back with its surrogate pairs joined. -/
theorem scanString_escapeAscii (s rest : Text) :
    scanString (s.flatMap escapeAscii ++ ch '\"' :: rest) = some (joinSurrogates s, rest) := by
  have units : scanUnits (s.flatMap escapeAscii ++ ch '\"' :: rest) =
      some (s.flatMap asciiUnits, rest) := by
    induction s with
    | nil => exact scanUnits_quote rest
    | cons c s ih =>
      rw [List.flatMap_cons, List.flatMap_cons, List.append_assoc]
      exact scanUnits_escapeAscii c ih
  rw [scanString, units]
  rfl

theorem joinUnits_of_controls (controls : ∀ unit ∈ units, unit.2 = true → unit.1.val < 32) :
    joinUnits units = units.map Prod.fst := by
  induction units with
  | nil => rfl
  | cons first rest ih =>
    have tail := ih fun unit member => controls unit (List.mem_cons_of_mem _ member)
    obtain ⟨c, escaped⟩ := first
    cases rest with
    | nil => rfl
    | cons second rest =>
      obtain ⟨d, escaped'⟩ := second
      have apart : (escaped && escaped' && c.isHighSurrogate && d.isLowSurrogate) = false := by
        cases flag : escaped with
        | false => rfl
        | true =>
          have control : c.val < 32 := controls (c, escaped) List.mem_cons_self flag
          have high : c.isHighSurrogate = false := by
            simp only [CodePoint.isHighSurrogate, Bool.and_eq_false_iff, decide_eq_false_iff_not]
            omega
          simp [high]
      simp only [joinUnits, apart, Bool.false_eq_true, if_false, tail, List.map_cons]

theorem scanString_escapeRaw (s rest : Text) :
    scanString (s.flatMap escapeRaw ++ ch '\"' :: rest) = some (s, rest) := by
  have units : ∃ units, scanUnits (s.flatMap escapeRaw ++ ch '\"' :: rest) = some (units, rest) ∧
      units.map Prod.fst = s ∧ ∀ unit ∈ units, unit.2 = true → unit.1.val < 32 := by
    induction s with
    | nil => exact ⟨[], scanUnits_quote rest, rfl, nofun⟩
    | cons c s ih =>
      obtain ⟨units, scanned, chars, controls⟩ := ih
      obtain ⟨escaped, read, control⟩ := scanUnits_escapeRaw c scanned
      refine ⟨(c, escaped) :: units, ?_, by simp [chars], ?_⟩
      · rw [List.flatMap_cons, List.append_assoc, read]
      · rintro unit (_ | ⟨_, member⟩) flag
        · exact control flag
        · exact controls unit member flag
  obtain ⟨units, scanned, chars, controls⟩ := units
  rw [scanString, scanned, Option.map_some]
  exact congrArg (fun joined => some (joined, rest)) ((joinUnits_of_controls controls).trans chars)

/-! ## Surrogate pairs -/

def Joined (s : Text) : Prop :=
  s.IsChain fun c d => ¬(c.isHighSurrogate = true ∧ d.isLowSurrogate = true)

theorem joinUnits_cons (escaped : Bool)
    (apart : ∀ unit ∈ units.head?, ¬(c.isHighSurrogate = true ∧ unit.1.isLowSurrogate = true)) :
    joinUnits ((c, escaped) :: units) = c :: joinUnits units := by
  cases units with
  | nil => rfl
  | cons second rest =>
    obtain ⟨d, escaped'⟩ := second
    have here := apart (d, escaped') rfl
    rw [joinUnits, if_neg]
    simp only [Bool.and_eq_true]
    exact fun pair => here ⟨pair.1.2, pair.2⟩

theorem joinHalves_halves (above : 65536 ≤ c.val) :
    joinHalves (highHalf c) (lowHalf c) = c := by
  have bound := c.isLt
  apply Fin.ext
  simp only [joinHalves, highHalf_val above, lowHalf_val, CodePoint.ofNat]
  omega

theorem isHighSurrogate_highHalf (above : 65536 ≤ c.val) :
    (highHalf c).isHighSurrogate = true := by
  have bound := c.isLt
  simp only [CodePoint.isHighSurrogate, highHalf_val above, Bool.and_eq_true, decide_eq_true_eq]
  omega

theorem isLowSurrogate_lowHalf (c : CodePoint) : (lowHalf c).isLowSurrogate = true := by
  simp only [CodePoint.isLowSurrogate, lowHalf_val, Bool.and_eq_true, decide_eq_true_eq]
  omega

theorem not_isLowSurrogate_of_high (high : c.isHighSurrogate = true) :
    c.isLowSurrogate = false := by
  simp only [CodePoint.isHighSurrogate, Bool.and_eq_true, decide_eq_true_eq] at high
  simp only [CodePoint.isLowSurrogate, Bool.and_eq_false_iff, decide_eq_false_iff_not]
  omega

theorem head_asciiUnits (c : CodePoint) :
    ∃ unit rest, asciiUnits c = unit :: rest ∧ (unit.1 = c ∨ unit.1.isLowSurrogate = false) := by
  unfold asciiUnits
  split_ifs with short bmp
  · exact ⟨_, _, rfl, .inl rfl⟩
  · exact ⟨_, _, rfl, .inl rfl⟩
  · exact ⟨_, _, rfl, .inr (not_isLowSurrogate_of_high
      (isHighSurrogate_highHalf (Nat.not_lt.mp bmp)))⟩

theorem joinSurrogates_cons {s : Text}
    (apart : ∀ d ∈ s.head?, ¬(c.isHighSurrogate = true ∧ d.isLowSurrogate = true)) :
    joinSurrogates (c :: s) = c :: joinSurrogates s := by
  have next : ∀ unit ∈ (s.flatMap asciiUnits).head?,
      ¬(c.isHighSurrogate = true ∧ unit.1.isLowSurrogate = true) := by
    cases s with
    | nil => nofun
    | cons d s =>
      obtain ⟨unit, rest, shape, first⟩ := head_asciiUnits d
      rw [List.flatMap_cons, shape]
      rintro _ ⟨⟩ pair
      rcases first with same | low
      · exact apart d rfl (same ▸ pair)
      · exact absurd pair.2 (by simp [low])
  unfold joinSurrogates
  rw [List.flatMap_cons]
  unfold asciiUnits at next ⊢
  by_cases plain : (shortEscape c).isSome ∨ 32 ≤ c.val ∧ c.val ≤ 126
  · rw [if_pos plain]
    exact joinUnits_cons false next
  · by_cases bmp : c.val < 65536
    · rw [if_neg plain, if_pos bmp]
      exact joinUnits_cons true next
    · have above := Nat.not_lt.mp bmp
      rw [if_neg plain, if_neg bmp, List.cons_append, List.cons_append, List.nil_append, joinUnits,
        if_pos (by simp [isHighSurrogate_highHalf above, isLowSurrogate_lowHalf]),
        joinHalves_halves above]

theorem joinSurrogates_of_joined {s : Text} (joined : Joined s) : joinSurrogates s = s := by
  induction s with
  | nil => rfl
  | cons c s ih =>
    rw [joinSurrogates_cons (List.isChain_cons.mp joined).1, ih (List.isChain_cons.mp joined).2]

theorem joined_of_scalar {s : Text} (scalar : ∀ c ∈ s, c.isSurrogate = false) : Joined s := by
  induction s with
  | nil => exact .nil
  | cons c s ih =>
    refine List.isChain_cons.mpr ⟨?_, ih fun d member => scalar d (List.mem_cons_of_mem _ member)⟩
    intro d _ pair
    have here := scalar c List.mem_cons_self
    have high := pair.1
    simp only [CodePoint.isSurrogate, CodePoint.isHighSurrogate, Bool.and_eq_false_iff,
      Bool.and_eq_true, decide_eq_true_eq, decide_eq_false_iff_not] at here high
    omega

theorem joinHalves_not_surrogate {d : CodePoint} (high : c.isHighSurrogate = true)
    (low : d.isLowSurrogate = true) : (joinHalves c d).isSurrogate = false := by
  simp only [CodePoint.isHighSurrogate, CodePoint.isLowSurrogate, Bool.and_eq_true,
    decide_eq_true_eq] at high low
  have value : (joinHalves c d).val = 65536 + (c.val - 55296) * 1024 + (d.val - 56320) :=
    Nat.mod_eq_of_lt (by omega)
  simp only [CodePoint.isSurrogate, value, Bool.and_eq_false_iff, decide_eq_false_iff_not]
  omega

theorem joined_joinUnits (units : List StringUnit)
    (marked : ∀ unit ∈ units, unit.1.isSurrogate = true → unit.2 = true) :
    Joined (joinUnits units) ∧
      ∀ c ∈ (joinUnits units).head?, c.isSurrogate = false ∨ ∃ unit ∈ units.head?, unit.1 = c := by
  induction units using joinUnits.induct with
  | case1 => exact ⟨.nil, nofun⟩
  | case2 c escaped => exact ⟨.singleton _, fun d here => .inr ⟨_, rfl, Option.some.inj here⟩⟩
  | case3 c escaped d escaped' rest pair ih =>
    simp only [Bool.and_eq_true] at pair
    have fresh := joinHalves_not_surrogate pair.1.2 pair.2
    rw [joinUnits, if_pos (by simpa using pair)]
    refine ⟨List.isChain_cons.mpr ⟨?_, (ih ?_).1⟩, ?_⟩
    · intro e _ both
      have high := both.1
      simp only [CodePoint.isSurrogate, CodePoint.isHighSurrogate, Bool.and_eq_false_iff,
        Bool.and_eq_true, decide_eq_true_eq, decide_eq_false_iff_not] at fresh high
      omega
    · exact fun unit member => marked unit (by simp [member])
    · intro e here
      exact .inl (Option.some.inj here ▸ fresh)
  | case4 c escaped d escaped' rest single ih =>
    rw [joinUnits, if_neg single]
    obtain ⟨joined, head⟩ := ih fun unit member => marked unit (List.mem_cons_of_mem _ member)
    refine ⟨List.isChain_cons.mpr ⟨?_, joined⟩, fun e here => .inr ⟨_, rfl, Option.some.inj here⟩⟩
    intro e here both
    have surrogates : c.isSurrogate = true ∧ e.isSurrogate = true := by
      simp only [CodePoint.isHighSurrogate, CodePoint.isLowSurrogate, CodePoint.isSurrogate,
        Bool.and_eq_true, decide_eq_true_eq] at both ⊢
      omega
    rcases head e here with plain | ⟨unit, first, same⟩
    · exact absurd surrogates.2 (by simp [plain])
    · obtain rfl := Option.some.inj first
      subst same
      have left : escaped = true := marked (c, escaped) List.mem_cons_self surrogates.1
      have right : escaped' = true := marked (d, escaped') (by simp) surrogates.2
      exact single (by simpa [left, right] using both)

theorem joined_joinSurrogates (s : Text) : Joined (joinSurrogates s) := by
  refine (joined_joinUnits _ ?_).1
  intro unit member surrogate
  obtain ⟨c, -, inUnits⟩ := List.mem_flatMap.mp member
  unfold asciiUnits at inUnits
  split_ifs at inUnits with plain bmp
  · obtain rfl := List.mem_singleton.mp inUnits
    -- a character written as it is, or with a short escape, is no surrogate
    exfalso
    simp only [CodePoint.isSurrogate, Bool.and_eq_true, decide_eq_true_eq] at surrogate
    rcases plain with short | printable
    · unfold shortEscape at short
      split_ifs at short with quote backslash
      all_goals first
        | (rw [quote] at surrogate; exact absurd surrogate (by decide))
        | (rw [backslash] at surrogate; exact absurd surrogate (by decide))
        | omega
        | exact absurd short (by decide)
    · omega
  · obtain rfl := List.mem_singleton.mp inUnits
    rfl
  · rcases List.mem_pair.mp inUnits with rfl | rfl
    · rfl
    · rfl

end AiStorage.Lib
