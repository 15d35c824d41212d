import AiStorage.Lib.Text
import Mathlib.Data.List.DropRight

/-!
# URL-safe Base64

`base64.urlsafe_b64encode` and the same with its padding stripped. Stripping loses
nothing: the length of the digits gives the length of the bytes.
-/
namespace AiStorage.Lib

/-- The digit of a six-bit group. -/
def base64Digit (n : Nat) : CodePoint :=
  if n < 26 then CodePoint.ofNat (65 + n)
  else if n < 52 then CodePoint.ofNat (71 + n)
  else if n < 62 then CodePoint.ofNat (n - 4)
  else if n = 62 then CodePoint.ofNat 45
  else CodePoint.ofNat 95

def base64Pad : CodePoint := CodePoint.ofNat 61

/-- `base64.urlsafe_b64encode(bytes).decode("ascii")` -/
def base64Encode : Bytes → Text
  | a :: b :: c :: rest =>
    base64Digit (a.toNat / 4) :: base64Digit (a.toNat % 4 * 16 + b.toNat / 16) ::
      base64Digit (b.toNat % 16 * 4 + c.toNat / 64) :: base64Digit (c.toNat % 64) ::
      base64Encode rest
  | [a, b] =>
    [base64Digit (a.toNat / 4), base64Digit (a.toNat % 4 * 16 + b.toNat / 16),
      base64Digit (b.toNat % 16 * 4), base64Pad]
  | [a] => [base64Digit (a.toNat / 4), base64Digit (a.toNat % 4 * 16), base64Pad, base64Pad]
  | [] => []

/-- `encoded.rstrip("=")` -/
def base64Strip (encoded : Text) : Text := encoded.rdropWhile (· = base64Pad)

/-! ## Digits -/

theorem base64Digit_inj : ∀ m < 64, ∀ n < 64, base64Digit m = base64Digit n → m = n := by
  decide +kernel

def isBase64Digit (c : CodePoint) : Bool :=
  65 ≤ c.val && c.val ≤ 90 || 97 ≤ c.val && c.val ≤ 122 || 48 ≤ c.val && c.val ≤ 57 ||
    c.val = 45 || c.val = 95

theorem isBase64Digit_digit : ∀ n < 64, isBase64Digit (base64Digit n) = true := by decide +kernel

theorem ne_pad_of_digit {c : CodePoint} (digit : isBase64Digit c = true) : c ≠ base64Pad := by
  rintro rfl
  exact absurd digit (by decide)

/-- The digits without the padding. -/
def base64Digits : Bytes → Text
  | a :: b :: c :: rest =>
    base64Digit (a.toNat / 4) :: base64Digit (a.toNat % 4 * 16 + b.toNat / 16) ::
      base64Digit (b.toNat % 16 * 4 + c.toNat / 64) :: base64Digit (c.toNat % 64) ::
      base64Digits rest
  | [a, b] =>
    [base64Digit (a.toNat / 4), base64Digit (a.toNat % 4 * 16 + b.toNat / 16),
      base64Digit (b.toNat % 16 * 4)]
  | [a] => [base64Digit (a.toNat / 4), base64Digit (a.toNat % 4 * 16)]
  | [] => []

variable (bytes : Bytes)

theorem base64Digits_all : ∀ c ∈ base64Digits bytes, isBase64Digit c = true := by
  have bound : ∀ b : UInt8, b.toNat < 256 := fun b => b.toNat_lt
  induction bytes using base64Digits.induct with
  | case1 a b c rest ih =>
    have ha := bound a
    have hb := bound b
    have hc := bound c
    simp only [base64Digits, List.forall_mem_cons]
    exact ⟨isBase64Digit_digit _ (by omega), isBase64Digit_digit _ (by omega),
      isBase64Digit_digit _ (by omega), isBase64Digit_digit _ (by omega), ih⟩
  | case2 a b =>
    have ha := bound a
    have hb := bound b
    simp only [base64Digits, List.forall_mem_cons]
    exact ⟨isBase64Digit_digit _ (by omega), isBase64Digit_digit _ (by omega),
      isBase64Digit_digit _ (by omega), List.forall_mem_nil _⟩
  | case3 a =>
    have ha := bound a
    simp only [base64Digits, List.forall_mem_cons]
    exact ⟨isBase64Digit_digit _ (by omega), isBase64Digit_digit _ (by omega), List.forall_mem_nil _⟩
  | case4 => exact List.forall_mem_nil _

theorem length_base64Digits : (base64Digits bytes).length = (4 * bytes.length + 2) / 3 := by
  induction bytes using base64Digits.induct with
  | case1 a b c rest ih =>
    simp only [base64Digits, List.length_cons, ih]
    omega
  | case2 a b => simp [base64Digits]
  | case3 a => simp [base64Digits]
  | case4 => rfl

theorem base64Encode_eq :
    ∃ n, base64Encode bytes = base64Digits bytes ++ List.replicate n base64Pad := by
  induction bytes using base64Digits.induct with
  | case1 a b c rest ih =>
    obtain ⟨n, same⟩ := ih
    exact ⟨n, by rw [base64Encode, base64Digits, same]; rfl⟩
  | case2 a b => exact ⟨1, rfl⟩
  | case3 a => exact ⟨2, rfl⟩
  | case4 => exact ⟨0, rfl⟩

theorem base64Strip_encode : base64Strip (base64Encode bytes) = base64Digits bytes := by
  obtain ⟨n, same⟩ := base64Encode_eq bytes
  rw [base64Strip, same]
  clear same
  induction n with
  | zero =>
    rw [List.replicate_zero, List.append_nil, List.rdropWhile_eq_self_iff]
    intro filled
    simpa using ne_pad_of_digit (base64Digits_all bytes _ (List.getLast_mem filled))
  | succ n ih =>
    rw [List.replicate_succ', ← List.append_assoc, List.rdropWhile_concat_pos _ _ _ (by simp)]
    exact ih

theorem base64Digits_inj {xs ys : Bytes} (same : base64Digits xs = base64Digits ys) : xs = ys := by
  have bound : ∀ b : UInt8, b.toNat < 256 := fun b => b.toNat_lt
  have byte : ∀ {a b : UInt8}, a.toNat = b.toNat → a = b := fun h => UInt8.toNat_inj.mp h
  induction xs using base64Digits.induct generalizing ys with
  | case1 a b c rest ih =>
    rcases ys with _ | ⟨a', _ | ⟨b', _ | ⟨c', rest'⟩⟩⟩
    case cons.cons.cons =>
      simp only [base64Digits, List.cons.injEq] at same
      obtain ⟨d₁, d₂, d₃, d₄, tails⟩ := same
      have ha := bound a
      have hb := bound b
      have hc := bound c
      have ha' := bound a'
      have hb' := bound b'
      have hc' := bound c'
      have e₁ := base64Digit_inj _ (by omega) _ (by omega) d₁
      have e₂ := base64Digit_inj _ (by omega) _ (by omega) d₂
      have e₃ := base64Digit_inj _ (by omega) _ (by omega) d₃
      have e₄ := base64Digit_inj _ (by omega) _ (by omega) d₄
      rw [byte (show a.toNat = a'.toNat by omega), byte (show b.toNat = b'.toNat by omega),
        byte (show c.toNat = c'.toNat by omega), ih tails]
    all_goals simp [base64Digits] at same
  | case2 a b =>
    rcases ys with _ | ⟨a', _ | ⟨b', _ | ⟨c', rest'⟩⟩⟩
    case cons.cons.nil =>
      simp only [base64Digits, List.cons.injEq] at same
      obtain ⟨d₁, d₂, d₃, -⟩ := same
      have ha := bound a
      have hb := bound b
      have ha' := bound a'
      have hb' := bound b'
      have e₁ := base64Digit_inj _ (by omega) _ (by omega) d₁
      have e₂ := base64Digit_inj _ (by omega) _ (by omega) d₂
      have e₃ := base64Digit_inj _ (by omega) _ (by omega) d₃
      rw [byte (show a.toNat = a'.toNat by omega), byte (show b.toNat = b'.toNat by omega)]
    all_goals simp [base64Digits] at same
  | case3 a =>
    rcases ys with _ | ⟨a', _ | ⟨b', _ | ⟨c', rest'⟩⟩⟩
    case cons.nil =>
      simp only [base64Digits, List.cons.injEq] at same
      have ha := bound a
      have ha' := bound a'
      have e₁ := base64Digit_inj _ (by omega) _ (by omega) same.1
      have e₂ := base64Digit_inj _ (by omega) _ (by omega) same.2.1
      rw [byte (show a.toNat = a'.toNat by omega)]
    all_goals simp [base64Digits] at same
  | case4 =>
    rcases ys with _ | ⟨a', _ | ⟨b', _ | ⟨c', rest'⟩⟩⟩
    case nil => rfl
    all_goals simp [base64Digits] at same

end AiStorage.Lib
