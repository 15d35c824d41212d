import AiStorage.Lib.JsonNumber

/-!
# POSIX paths

Absolute paths in a tree without symbolic links, as `pathlib` resolves and prints them,
and the parts of a file name.
-/
namespace AiStorage.Lib

/-- An absolute path without `.` and `..`: the names from the root down. -/
abbrev Path := List Text

def slash : CodePoint := ch '/'

def nul : CodePoint := CodePoint.ofNat 0

def nameOk (name : Text) : Bool :=
  !name.isEmpty && name ≠ text "." && name ≠ text ".." && !name.contains slash && !name.contains nul

namespace Path

def Resolved (p : Path) : Prop := ∀ name ∈ p, nameOk name = true

instance (p : Path) : Decidable p.Resolved :=
  decidable_of_iff (p.all nameOk = true) List.all_eq_true

def str (p : Path) : Text := if p.isEmpty then [slash] else p.flatMap (slash :: ·)

/-- One name of a path that is being resolved. -/
def enter (p : Path) (name : Text) : Path :=
  if name.isEmpty || name = text "." then p
  else if name = text ".." then p.dropLast
  else p ++ [name]

end Path

/-- `Path(s).resolve(strict=False)`; `none` is the `ValueError` of an embedded null byte. -/
def resolvePath (cwd : Path) (s : Text) : Option Path :=
  if s.contains nul then none
  else some ((s.splitOn slash).foldl Path.enter (if s.head? = some slash then [] else cwd))

/-! ## Printed paths resolve to themselves -/

namespace Path

theorem enter_of_nameOk (p : Path) {name : Text} (ok : nameOk name = true) :
    p.enter name = p ++ [name] := by
  simp only [nameOk, Bool.and_eq_true, Bool.not_eq_true', ne_eq, decide_eq_true_eq] at ok
  obtain ⟨⟨⟨⟨filled, dot⟩, dots⟩, -⟩, -⟩ := ok
  simp [enter, filled, dot, dots]

theorem foldl_enter (p q : Path) (resolved : Resolved q) : q.foldl enter p = p ++ q := by
  induction q generalizing p with
  | nil => simp
  | cons name rest ih =>
    obtain ⟨ok, later⟩ := List.forall_mem_cons.mp resolved
    rw [List.foldl_cons, enter_of_nameOk p ok, ih _ later, List.append_assoc, List.singleton_append]

theorem intercalate_nil_cons {p : Path} (filled : p ≠ []) :
    [slash].intercalate ([] :: p) = p.flatMap (slash :: ·) := by
  induction p with
  | nil => exact absurd rfl filled
  | cons name rest ih =>
    cases rest with
    | nil => simp [List.intercalate, List.intersperse]
    | cons next more =>
      have tail := ih (List.cons_ne_nil _ _)
      simp only [List.intercalate, List.intersperse, List.flatten_cons, List.nil_append,
        List.flatMap_cons] at tail ⊢
      rw [tail]
      simp

theorem not_mem_of_nameOk {name : Text} (ok : nameOk name = true) : slash ∉ name ∧ nul ∉ name := by
  simp only [nameOk, Bool.and_eq_true, Bool.not_eq_true', List.contains_eq_mem,
    decide_eq_false_iff_not] at ok
  exact ⟨ok.1.2, ok.2⟩

theorem splitOn_str {p : Path} (resolved : p.Resolved) (filled : p ≠ []) :
    p.str.splitOn slash = [] :: p := by
  rw [str, if_neg (by simpa using filled), ← intercalate_nil_cons filled]
  refine List.splitOn_intercalate slash ?_ (List.cons_ne_nil _ _)
  exact List.forall_mem_cons.mpr ⟨List.not_mem_nil, fun name member =>
    (not_mem_of_nameOk (resolved name member)).1⟩

theorem head_str (p : Path) : p.str.head? = some slash := by
  unfold str
  cases p <;> rfl

theorem nul_not_mem_str {p : Path} (resolved : p.Resolved) : nul ∉ p.str := by
  unfold str
  split_ifs
  · decide
  · simp only [List.mem_flatMap, List.mem_cons, not_exists, not_and, not_or]
    exact fun name member => ⟨by decide, (not_mem_of_nameOk (resolved name member)).2⟩

theorem resolvePath_str (cwd : Path) {p : Path} (resolved : p.Resolved) :
    resolvePath cwd p.str = some p := by
  have whole : p.str.contains nul = false := by simpa using nul_not_mem_str resolved
  rw [resolvePath, whole, if_neg Bool.false_ne_true, if_pos p.head_str]
  cases p with
  | nil => rfl
  | cons name rest =>
    rw [splitOn_str resolved (List.cons_ne_nil _ _), List.foldl_cons]
    congr 1
    exact foldl_enter [] (name :: rest) resolved

theorem encodeUtf8_str (p : Path) :
    (encodeUtf8 p.str).isSome = true ↔ ∀ name ∈ p, (encodeUtf8 name).isSome = true := by
  have root : slash.isSurrogate = false := by decide
  simp only [encodeUtf8_isSome]
  cases p with
  | nil => simpa [str] using root
  | cons first rest =>
    rw [str, if_neg (by simp)]
    constructor
    · exact fun all name member c inside =>
        all c (List.mem_flatMap.mpr ⟨name, member, List.mem_cons_of_mem _ inside⟩)
    · intro all c member
      obtain ⟨name, inside, there⟩ := List.mem_flatMap.mp member
      rcases List.mem_cons.mp there with rfl | inName
      · exact root
      · exact all name inside c inName

/-! ## Resolving never lengthens an absolute path -/

theorem length_enter (p : Path) (name : Text) :
    ((p.enter name).flatMap (slash :: ·)).length ≤
      (p.flatMap (slash :: ·)).length + if name = [] then 0 else name.length + 1 := by
  have shorter : (p.dropLast.flatMap (slash :: ·)).length ≤ (p.flatMap (slash :: ·)).length := by
    obtain ⟨last, same⟩ := List.dropLast_prefix p
    conv_rhs => rw [← same, List.flatMap_append, List.length_append]
    exact Nat.le_add_right _ _
  unfold enter
  split_ifs with skip empty up
  · omega
  · omega
  · omega
  · omega
  · simp_all
  · simp

theorem length_foldl_enter (names : List Text) (p : Path) :
    ((names.foldl enter p).flatMap (slash :: ·)).length ≤
      (p.flatMap (slash :: ·)).length + (names.map fun name => name.length + 1).sum := by
  induction names generalizing p with
  | nil => simp
  | cons name rest ih =>
    have step := length_enter p name
    have later := ih (p.enter name)
    rw [List.foldl_cons, List.map_cons, List.sum_cons]
    split_ifs at step <;> omega

theorem sum_splitOn (s : Text) :
    ((s.splitOn slash).map fun name => name.length + 1).sum = s.length + 1 := by
  have joined := congrArg List.length (List.intercalate_splitOn slash : [slash].intercalate _ = s)
  have filled : s.splitOn slash ≠ [] := by
    intro none
    have pieces := List.splitOn_ne_nil slash s
    exact pieces none
  rw [← joined]
  generalize s.splitOn slash = names at filled
  induction names with
  | nil => exact absurd rfl filled
  | cons name rest ih =>
    cases rest with
    | nil => simp [List.intercalate, List.intersperse]
    | cons next more =>
      have tail := ih (List.cons_ne_nil _ _)
      simp only [List.intercalate, List.intersperse, List.flatten_cons, List.length_append,
        List.map_cons, List.sum_cons, List.length_singleton] at tail ⊢
      omega

theorem length_resolvePath {cwd p : Path} {s : Text} (resolved : resolvePath cwd s = some p)
    (absolute : s.head? = some slash) : p.str.length ≤ s.length := by
  unfold resolvePath at resolved
  split_ifs at resolved
  obtain rfl := Option.some.inj resolved
  cases s with
  | nil => cases absolute
  | cons first rest =>
    obtain rfl := Option.some.inj absolute
    have cut : (slash :: rest).splitOn slash = [] :: rest.splitOn slash := by
      simp [List.splitOn, List.splitOnP_cons_eq_if_modifyHead]
    have bound := length_foldl_enter (rest.splitOn slash) []
    rw [sum_splitOn] at bound
    rw [cut, List.foldl_cons, str]
    change (if ((rest.splitOn slash).foldl enter []).isEmpty = true then [slash] else
      ((rest.splitOn slash).foldl enter []).flatMap (slash :: ·)).length ≤ _
    split
    · simp
    · simpa using bound

end Path

/-! ## File names -/

def dot : CodePoint := ch '.'

/-- `path.suffix` of a last name: from its last dot on, if that is neither first nor last. -/
def nameSuffix (name : Text) : Text :=
  let extension := (name.reverse.takeWhile (· ≠ dot)).reverse
  if extension.isEmpty || name.length ≤ extension.length + 1 then [] else dot :: extension

def nameStem (name : Text) : Text := name.take (name.length - (nameSuffix name).length)

/-- `int(s)` of ASCII text. -/
def pyInt (s : Text) : Option Int :=
  let blank (c : CodePoint) : Bool := 9 ≤ c.val && c.val ≤ 13 || 28 ≤ c.val && c.val ≤ 32
  let (negative, digits) := parseSign ((s.dropWhile blank).reverse.dropWhile blank).reverse
  let groups := digits.splitOn (ch '_')
  if groups.all fun group => !group.isEmpty && group.all isDigit then
    some (if negative then -(readDigits groups.flatten : Int) else readDigits groups.flatten)
  else none

/-- `f"{n:06d}"` -/
def sixDigits (n : Nat) : Text := List.replicate (6 - (decimal n).length) (ch '0') ++ decimal n

theorem digits_sixDigits (n : Nat) : ∀ c ∈ sixDigits n, isDigit c = true := by
  intro c member
  rcases List.mem_append.mp member with padding | digit
  · rw [List.eq_of_mem_replicate padding]
    decide
  · exact isDigit_of_mem_decimal digit

section PyInt

variable {digits : Text}

theorem dropWhile_of_digits {blank : CodePoint → Bool} {s : Text}
    (apart : ∀ c, isDigit c = true → blank c = false) (all : ∀ c ∈ s, isDigit c = true) :
    s.dropWhile blank = s := by
  cases s with
  | nil => rfl
  | cons c rest =>
    exact List.dropWhile_cons_of_neg (by simp [apart c (all c List.mem_cons_self)])

theorem pyInt_digits (filled : digits ≠ []) (all : ∀ c ∈ digits, isDigit c = true) :
    pyInt digits = some (readDigits digits : Int) := by
  have apart : ∀ c, isDigit c = true →
      (9 ≤ c.val && c.val ≤ 13 || 28 ≤ c.val && c.val ≤ 32 : Bool) = false := by
    intro c digit
    simp only [isDigit, Bool.and_eq_true, decide_eq_true_eq] at digit
    simp only [Bool.or_eq_false_iff, Bool.and_eq_false_iff, decide_eq_false_iff_not]
    omega
  have stripped : (digits.reverse.dropWhile fun c : CodePoint =>
      9 ≤ c.val && c.val ≤ 13 || 28 ≤ c.val && c.val ≤ 32).reverse = digits := by
    rw [dropWhile_of_digits apart (fun c member => all c (List.mem_reverse.mp member)),
      List.reverse_reverse]
  have unsigned : parseSign digits = (false, digits) := by
    cases digits with
    | nil => exact absurd rfl filled
    | cons c rest =>
      have digit := all c List.mem_cons_self
      have minus : c ≠ ch '-' := by rintro rfl; exact absurd digit (by decide)
      have plus : c ≠ ch '+' := by rintro rfl; exact absurd digit (by decide)
      simp [parseSign, minus, plus]
  have single : digits.splitOn (ch '_') = [digits] := by
    have absent : ch '_' ∉ digits := fun member => absurd (all _ member) (by decide)
    have whole : ([ch '_'].intercalate [digits]).splitOn (ch '_') = [digits] :=
      List.splitOn_intercalate _ (by simpa using absent) (List.cons_ne_nil _ _)
    simpa [List.intercalate] using whole
  unfold pyInt
  simp only [dropWhile_of_digits apart all, stripped, unsigned, single]
  simp [filled, List.all_eq_true.mpr all]

theorem pyInt_decimal (n : Nat) : pyInt (decimal n) = some (n : Int) := by
  obtain ⟨head, tail, shape, -⟩ := decimal_shape n
  have filled : decimal n ≠ [] := by rw [shape]; exact List.cons_ne_nil _ _
  rw [pyInt_digits filled fun c member => isDigit_of_mem_decimal member, readDigits_decimal]

end PyInt

end AiStorage.Lib
