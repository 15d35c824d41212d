import AiStorage.Lib.PyValue

/-!
# JSON numbers as Python reads and writes them

A float is written as the shortest decimal that reads back; the search checks that itself.
-/
namespace AiStorage.Lib

def ch (c : Char) : CodePoint := CodePoint.ofChar c

/-! ## Integers -/

def digitChar (d : Nat) : CodePoint := CodePoint.ofNat (48 + d)

def isDigit (c : CodePoint) : Bool := 48 ≤ c.val && c.val ≤ 57

def decimalAux : Nat → Nat → Text
  | 0, _ => []
  | fuel + 1, n =>
    if n < 10 then [digitChar n] else decimalAux fuel (n / 10) ++ [digitChar (n % 10)]

def decimal (n : Nat) : Text := decimalAux (n + 1) n

def readDigits (digits : Text) : Nat := digits.foldl (fun acc c => acc * 10 + (c.val - 48)) 0

theorem digitChar_val {d : Nat} (small : d < 10) : (digitChar d).val = 48 + d :=
  Nat.mod_eq_of_lt (by omega)

theorem isDigit_digitChar {d : Nat} (small : d < 10) : isDigit (digitChar d) = true := by
  simp only [isDigit, digitChar_val small, Bool.and_eq_true, decide_eq_true_eq]
  omega

theorem readDigits_append_digit (digits : Text) {d : Nat} (small : d < 10) :
    readDigits (digits ++ [digitChar d]) = readDigits digits * 10 + d := by
  simp [readDigits, digitChar_val small]

theorem decimalAux_spec (fuel n : Nat) (enough : n < fuel) :
    readDigits (decimalAux fuel n) = n ∧ (∀ c ∈ decimalAux fuel n, isDigit c = true) ∧
      ∃ head tail, decimalAux fuel n = head :: tail ∧ (head = digitChar 0 → tail = []) := by
  induction fuel generalizing n with
  | zero => omega
  | succ fuel ih =>
    unfold decimalAux
    split_ifs with small
    · refine ⟨?_, ?_, digitChar n, [], rfl, fun _ => rfl⟩
      · simpa [readDigits] using readDigits_append_digit [] small
      · intro c member
        rw [List.mem_singleton.mp member]
        exact isDigit_digitChar small
    · obtain ⟨value, digits, head, tail, shape, leading⟩ := ih (n / 10) (by omega)
      have last : n % 10 < 10 := Nat.mod_lt _ (by decide)
      refine ⟨?_, ?_, head, tail ++ [digitChar (n % 10)], by rw [shape]; rfl, ?_⟩
      · rw [readDigits_append_digit _ last, value]
        omega
      · intro c member
        rcases List.mem_append.mp member with inFront | isLast
        · exact digits c inFront
        · rw [List.mem_singleton.mp isLast]
          exact isDigit_digitChar last
      · -- a leading zero would make the number below ten
        intro zero
        have empty := leading zero
        rw [shape, zero, empty] at value
        have none : readDigits [digitChar 0] = 0 := by decide
        omega

variable (n : Nat)

theorem readDigits_decimal : readDigits (decimal n) = n :=
  (decimalAux_spec (n + 1) n (Nat.lt_succ_self n)).1

theorem isDigit_of_mem_decimal {n : Nat} {c : CodePoint} (member : c ∈ decimal n) :
    isDigit c = true :=
  (decimalAux_spec (n + 1) n (Nat.lt_succ_self n)).2.1 c member

theorem decimal_shape : ∃ head tail, decimal n = head :: tail ∧ (head = digitChar 0 → tail = []) :=
  (decimalAux_spec (n + 1) n (Nat.lt_succ_self n)).2.2

/-! ## Numbers -/

def isNumberChar (c : CodePoint) : Bool :=
  isDigit c || c = ch '-' || c = ch '+' || c = ch '.' || c = ch 'e' || c = ch 'E'

/-- `(\\.[0-9]+)?` at the front: the digits, if any, and what follows. -/
def parseFraction : Text → Option (Option Text × Text)
  | [] => some (none, [])
  | c :: rest =>
    if c = ch '.' then
      if (rest.takeWhile isDigit).isEmpty then none
      else some (some (rest.takeWhile isDigit), rest.dropWhile isDigit)
    else some (none, c :: rest)

def parseSign : Text → Bool × Text
  | [] => (false, [])
  | c :: rest =>
    if c = ch '-' then (true, rest) else if c = ch '+' then (false, rest) else (false, c :: rest)

/-- `([eE][-+]?[0-9]+)?` up to the end of the token. -/
def parseExponent : Text → Option (Option Int)
  | [] => some none
  | c :: rest =>
    if c = ch 'e' || c = ch 'E' then
      let (negative, digits) := parseSign rest
      if digits.isEmpty || !digits.all isDigit then none
      else some (some (if negative then -(readDigits digits : Int) else readDigits digits))
    else none

/-- A whole number token: an integer, or a float when it has a fraction or an exponent. -/
def parseUnsigned (negative : Bool) (body : Text) : Option PyVal :=
  let whole := body.takeWhile isDigit
  if whole.isEmpty || (whole.head? = some (ch '0') && whole.length ≠ 1) then none
  else
    match parseFraction (body.dropWhile isDigit) with
    | none => none
    | some (fraction, rest) =>
      match fraction, parseExponent rest with
      | _, none => none
      | none, some none =>
        some (.int (if negative then -(readDigits whole : Int) else readDigits whole))
      | fraction, some exponent =>
        let digits := fraction.getD []
        some (.float (.ofDecimal negative (readDigits (whole ++ digits))
          (exponent.getD 0 - digits.length)))

def parseNumber : Text → Option PyVal
  | [] => none
  | c :: rest => if c = ch '-' then parseUnsigned true rest else parseUnsigned false (c :: rest)

def intText (n : Int) : Text :=
  if n < 0 then ch '-' :: decimal n.natAbs else decimal n.natAbs

/-! ### Floats -/

/-- The last exponent `e` with `10 ^ e ≤ num / den`. -/
def decimalExponent (num den : Nat) : Int :=
  if den ≤ num then ((decimal (num / den)).length : Int) - 1
  else
    let k := (decimal (den / num)).length - 1
    if den ≤ num * 10 ^ k then -(k : Int) else -(k + 1 : Nat)

/-- `num / den` rounded to `digits` significant decimal digits: a mantissa and the
exponent of its last digit. -/
def roundDecimal (num den digits : Nat) : Nat × Int :=
  let last := decimalExponent num den - (digits - 1 : Nat)
  match last with
  | .ofNat e => (roundHalfEven num (den * 10 ^ e), last)
  | .negSucc e => (roundHalfEven (num * 10 ^ (e + 1)) den, last)

def dropTrailingZeros (digits : Text) : Text := (digits.reverse.dropWhile (· = ch '0')).reverse

def exponentText (e : Int) : Text :=
  let digits := decimal e.natAbs
  (if e < 0 then ch '-' else ch '+') :: (if digits.length < 2 then ch '0' :: digits else digits)

/-- The layout `repr` gives to significant digits with the point after `point` of them. -/
def layoutDigits (digits : Text) (point : Int) : Text :=
  if -4 < point ∧ point ≤ 16 then
    if point ≤ 0 then text "0." ++ List.replicate point.natAbs (ch '0') ++ digits
    else if (digits.length : Int) ≤ point then
      digits ++ List.replicate (point.natAbs - digits.length) (ch '0') ++ text ".0"
    else digits.take point.natAbs ++ ch '.' :: digits.drop point.natAbs
  else
    match digits with
    | [] => []
    | [d] => d :: ch 'e' :: exponentText (point - 1)
    | d :: more => d :: ch '.' :: more ++ ch 'e' :: exponentText (point - 1)

def candidateText (units digits : Nat) : Text :=
  if units = 0 then text "0.0"
  else
    let (mantissa, last) := roundDecimal units (2 ^ unitBits) digits
    let written := decimal mantissa
    layoutDigits (dropTrailingZeros written) (written.length + last)

def signed (negative : Bool) (body : Text) : Text := if negative then ch '-' :: body else body

/-- Does the token read back as this float? -/
def readsAs (x : Float64) (token : Text) : Bool :=
  token.all isNumberChar &&
    match parseNumber token with
    | some (.float y) => y = x
    | _ => false

/-- The exact value, should no candidate read back. -/
def exactText (negative : Bool) (units : Nat) : Text :=
  signed negative
    (decimal (units * 5 ^ unitBits) ++ ch 'e' :: ch '-' :: decimal unitBits)

/-- `repr` of a finite float. -/
def finiteText (negative : Bool) (units : Nat) (x : Float64) : Text :=
  let candidates := (List.range 17).map fun d => signed negative (candidateText units (d + 1))
  (candidates.find? (readsAs x)).getD (exactText negative units)

def floatText : Float64 → Text
  | .finite negative units representable bounded =>
    finiteText negative units (.finite negative units representable bounded)
  | .infinite negative => signed negative (text "Infinity")
  | .nan => text "NaN"

/-! ### Numbers read back -/

theorem takeWhile_digits {digits : Text} (rest : Text) (all : ∀ c ∈ digits, isDigit c = true)
    (stop : ∀ c ∈ rest.head?, isDigit c = false) :
    (digits ++ rest).takeWhile isDigit = digits ∧ (digits ++ rest).dropWhile isDigit = rest := by
  induction digits with
  | nil =>
    cases rest with
    | nil => exact ⟨rfl, rfl⟩
    | cons c more =>
      have here := stop c rfl
      simp [here]
  | cons c more ih =>
    have here := all c List.mem_cons_self
    obtain ⟨taken, dropped⟩ := ih fun x member => all x (List.mem_cons_of_mem _ member)
    simp [here, taken, dropped]

theorem decimal_accepted :
    ((decimal n).isEmpty || ((decimal n).head? = some (ch '0') && (decimal n).length ≠ 1)) =
      false := by
  obtain ⟨head, tail, shape, leading⟩ := decimal_shape n
  rw [shape]
  by_cases zero : head = digitChar 0
  · rw [leading zero]
    simp
  · have different : head ≠ ch '0' := zero
    simp [different]

variable (negative : Bool)

theorem parseUnsigned_decimal (n : Nat) :
    parseUnsigned negative (decimal n) = some (.int (if negative then -(n : Int) else n)) := by
  obtain ⟨taken, dropped⟩ :=
    takeWhile_digits [] (fun c => isDigit_of_mem_decimal (n := n) (c := c)) (by simp)
  rw [List.append_nil] at taken dropped
  simp only [parseUnsigned, taken, dropped, decimal_accepted, parseFraction, parseExponent,
    readDigits_decimal, Bool.false_eq_true, if_false]

theorem parseNumber_of_digit {c : CodePoint} {rest : Text} (digit : isDigit c = true) :
    parseNumber (c :: rest) = parseUnsigned false (c :: rest) := by
  have plain : c ≠ ch '-' := by
    rintro rfl
    exact absurd digit (by decide)
  simp only [parseNumber, plain, if_false]

theorem parseNumber_signed {body : Text} {c : CodePoint} {rest : Text}
    (shape : body = c :: rest) (digit : isDigit c = true) :
    parseNumber (signed negative body) = parseUnsigned negative body := by
  subst shape
  cases negative with
  | true => simp [signed, parseNumber]
  | false => exact parseNumber_of_digit digit

theorem decimal_head : ∃ c rest, decimal n = c :: rest ∧ isDigit c = true := by
  obtain ⟨head, tail, shape, -⟩ := decimal_shape n
  exact ⟨head, tail, shape, isDigit_of_mem_decimal (n := n) (by simp [shape])⟩

theorem intText_eq_signed (n : Int) : intText n = signed (n < 0) (decimal n.natAbs) := by
  by_cases negative : n < 0 <;> simp [intText, signed, negative]

theorem parseNumber_intText (n : Int) : parseNumber (intText n) = some (.int n) := by
  obtain ⟨c, rest, shape, digit⟩ := decimal_head n.natAbs
  rw [intText_eq_signed, parseNumber_signed _ shape digit, parseUnsigned_decimal]
  by_cases negative : n < 0
  · simp only [negative, decide_true, if_true]
    congr 2
    omega
  · simp only [negative, decide_false, Bool.false_eq_true, if_false]
    congr 2
    omega

theorem parseExponent_decimal :
    parseExponent (ch 'e' :: ch '-' :: decimal n) = some (some (-(n : Int))) := by
  obtain ⟨c, rest, shape, -⟩ := decimal_head n
  have digits : (decimal n).all isDigit = true :=
    List.all_eq_true.mpr fun c member => isDigit_of_mem_decimal member
  have full : (decimal n).isEmpty = false := by rw [shape]; rfl
  simp [parseExponent, parseSign, digits, full, readDigits_decimal]

theorem parseUnsigned_exact (units : Nat) :
    parseUnsigned negative (decimal (units * 5 ^ unitBits) ++ ch 'e' :: ch '-' :: decimal unitBits) =
      some (.float (.ofDecimal negative (units * 5 ^ unitBits) (.negSucc (unitBits - 1)))) := by
  generalize units * 5 ^ unitBits = mantissa
  obtain ⟨taken, dropped⟩ :=
    takeWhile_digits (ch 'e' :: ch '-' :: decimal unitBits)
      (fun c => isDigit_of_mem_decimal (n := mantissa) (c := c))
      (by rintro c ⟨⟩; exact (by decide : isDigit (ch 'e') = false))
  have exponent := parseExponent_decimal unitBits
  have fraction : parseFraction (ch 'e' :: ch '-' :: decimal unitBits) =
      some (none, ch 'e' :: ch '-' :: decimal unitBits) := by
    simp only [parseFraction]
    exact if_neg (by decide)
  simp only [parseUnsigned, taken, dropped, decimal_accepted, fraction, exponent, Bool.false_eq_true,
    if_false, Option.getD_none, List.append_nil, readDigits_decimal, Option.getD_some,
    List.length_nil]
  rfl

theorem isNumberChar_decimal : (decimal n).all isNumberChar = true := by
  refine List.all_eq_true.mpr fun c member => ?_
  simp [isNumberChar, isDigit_of_mem_decimal member]

theorem isNumberChar_signed {body : Text} (all : body.all isNumberChar = true) :
    (signed negative body).all isNumberChar = true := by
  cases negative with
  | true =>
    have minus : isNumberChar (ch '-') = true := by decide
    simp [signed, minus, all]
  | false => exact all

theorem readsAs_finiteText (units : Nat)
    (representable : roundMagnitude units 1 = units) (bounded : units < unitLimit) :
    readsAs (.finite negative units representable bounded)
      (finiteText negative units (.finite negative units representable bounded)) = true := by
  unfold finiteText
  dsimp only
  cases found : List.find? (readsAs (.finite negative units representable bounded))
      ((List.range 17).map fun d => signed negative (candidateText units (d + 1))) with
  | some token => exact List.find?_some found
  | none =>
    obtain ⟨c, rest, shape, digit⟩ := decimal_head (units * 5 ^ unitBits)
    have parsed : parseNumber (exactText negative units) =
        some (.float (.finite negative units representable bounded)) := by
      have whole : decimal (units * 5 ^ unitBits) ++ ch 'e' :: ch '-' :: decimal unitBits =
          c :: (rest ++ ch 'e' :: ch '-' :: decimal unitBits) := by rw [shape]; rfl
      rw [exactText, parseNumber_signed negative whole digit, parseUnsigned_exact,
        Float64.ofDecimal_exact]
    have written : (exactText negative units).all isNumberChar = true := by
      refine isNumberChar_signed negative ?_
      have marks : isNumberChar (ch 'e') = true ∧ isNumberChar (ch '-') = true := by decide
      simp [isNumberChar_decimal, marks.1, marks.2]
    simp [readsAs, parsed, written]

theorem parseNumber_finiteText (negative : Bool) (units : Nat)
    (representable : roundMagnitude units 1 = units) (bounded : units < unitLimit) :
    let x := Float64.finite negative units representable bounded
    (finiteText negative units x).all isNumberChar = true ∧
      parseNumber (finiteText negative units x) = some (.float x) := by
  have reads := readsAs_finiteText negative units representable bounded
  intro x
  unfold readsAs at reads
  obtain ⟨all, parsed⟩ := Bool.and_eq_true_iff.mp reads
  refine ⟨all, ?_⟩
  split at parsed
  · rename_i y found
    rw [found, of_decide_eq_true parsed]
  · exact absurd parsed (by decide)

end AiStorage.Lib
