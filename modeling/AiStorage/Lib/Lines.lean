import AiStorage.Lib.JsonString

/-!
# Line records

A bounded line scanner, as `bufio.Scanner` with its line splitter: a line that does not end
within the buffer stops the scan.
-/
namespace AiStorage.Lib

/-- The lines a scan delivered, and whether it stopped at one that did not fit. -/
structure Scanned where
  lines : List Bytes
  tooLong : Bool
  deriving DecidableEq

def newline : UInt8 := 10

def dropCR (line : Bytes) : Bytes := if line.getLast? = some 13 then line.dropLast else line

/-- The scan of at most `fuel` lines with a buffer of `limit` bytes. -/
def scanFrom (limit : Nat) : Nat → Bytes → Scanned
  | 0, _ => ⟨[], false⟩
  | _, [] => ⟨[], false⟩
  | fuel + 1, input =>
    let line := input.takeWhile (· ≠ newline)
    if limit ≤ line.length then ⟨[], true⟩
    else
      let later := scanFrom limit fuel (input.drop (line.length + 1))
      ⟨dropCR line :: later.lines, later.tooLong⟩

def scanLines (limit : Nat) (input : Bytes) : Scanned := scanFrom limit input.length input

structure LineSafe (line : Bytes) : Prop where
  noNewline : newline ∉ line
  noCR : line.getLast? ≠ some 13

def writeLines (records : List Bytes) : Bytes := records.flatMap (· ++ [newline])

theorem scanFrom_cons {limit fuel : Nat} {line rest : Bytes} (safe : LineSafe line) :
    scanFrom limit (fuel + 1) (line ++ newline :: rest) =
      if limit ≤ line.length then ⟨[], true⟩
      else
        let later := scanFrom limit fuel rest
        ⟨line :: later.lines, later.tooLong⟩ := by
  have front : (line ++ newline :: rest).takeWhile (· ≠ newline) = line := by
    rw [List.takeWhile_append_of_pos]
    · simp
    · intro b member
      simpa using fun same : b = newline => safe.noNewline (same ▸ member)
  have back : (line ++ newline :: rest).drop (line.length + 1) = rest := by
    rw [← List.drop_drop, List.drop_left]
    rfl
  have kept : dropCR line = line := if_neg safe.noCR
  obtain ⟨b, tail, shape⟩ : ∃ b tail, line ++ newline :: rest = b :: tail := by
    cases line with
    | nil => exact ⟨newline, rest, rfl⟩
    | cons b line => exact ⟨b, line ++ newline :: rest, rfl⟩
  rw [shape, scanFrom, ← shape]
  · simp only [front, back, kept]
  · intro same
    cases same

theorem scanFrom_writeLines {limit fuel : Nat} {records : List Bytes}
    (safe : ∀ line ∈ records, LineSafe line) (enough : records.length ≤ fuel) :
    scanFrom limit fuel (writeLines records) =
      ⟨records.takeWhile (·.length < limit), !records.all (·.length < limit)⟩ := by
  induction records generalizing fuel with
  | nil => cases fuel <;> rfl
  | cons line rest ih =>
    obtain ⟨fuel, rfl⟩ : ∃ more, fuel = more + 1 := ⟨fuel - 1, by simp at enough; omega⟩
    have shape : writeLines (line :: rest) = line ++ newline :: writeLines rest := by
      simp [writeLines]
    rw [shape, scanFrom_cons (safe line List.mem_cons_self),
      ih (fun other member => safe other (.tail line member)) (by simpa using enough)]
    by_cases fits : line.length < limit
    · simp [fits, Nat.not_le.mpr fits]
    · simp [fits, Nat.not_lt.mp fits]

theorem scanLines_writeLines {limit : Nat} {records : List Bytes}
    (safe : ∀ line ∈ records, LineSafe line) :
    scanLines limit (writeLines records) =
      ⟨records.takeWhile (·.length < limit), !records.all (·.length < limit)⟩ := by
  refine scanFrom_writeLines safe ?_
  induction records with
  | nil => simp
  | cons line rest ih =>
    have later := ih fun other member => safe other (.tail line member)
    simp only [writeLines, List.flatMap_cons, List.length_append, List.length_cons] at later ⊢
    omega

/-! ## JSON text on one line -/

/-- One character of a string as `encoding/json` writes it. -/
def escapeGo (c : CodePoint) : Text :=
  match shortEscape c with
  | some e => [ch '\\', e]
  | none =>
    if c.val < 32 ∨ c = ch '<' ∨ c = ch '>' ∨ c = ch '&' ∨ c.val = 8232 ∨ c.val = 8233 then
      unicodeEscape c.val
    else [c]

def goQuoted (s : String) : Text := quoted escapeGo (text s)

def OneLine (s : Text) : Prop := ∀ c ∈ s, c.val ≠ 10

theorem OneLine.append {s t : Text} (hs : OneLine s) (ht : OneLine t) : OneLine (s ++ t) :=
  fun c member => (List.mem_append.mp member).elim (hs c) (ht c)

theorem OneLine.cons {c : CodePoint} {s : Text} (hc : c.val ≠ 10) (hs : OneLine s) :
    OneLine (c :: s) := List.forall_mem_cons.mpr ⟨hc, hs⟩

theorem oneLine_nil : OneLine [] := by simp [OneLine]

theorem OneLine.flatten {parts : List Text} (h : ∀ part ∈ parts, OneLine part) :
    OneLine parts.flatten := by
  intro c member
  obtain ⟨part, inside, found⟩ := List.mem_flatten.mp member
  exact h part inside c found

theorem oneLine_hexChar {d : Nat} (small : d < 16) : (hexChar d).val ≠ 10 := by
  have all : ∀ n < 16, (hexChar n).val ≠ 10 := by decide
  exact all d small

theorem oneLine_unicodeEscape (n : Nat) : OneLine (unicodeEscape n) := by
  have digit : ∀ m, (hexChar (m % 16)).val ≠ 10 := fun m => oneLine_hexChar (Nat.mod_lt m (by decide))
  exact .cons (by decide) (.cons (by decide) (.cons (digit _) (.cons (digit _) (.cons (digit _)
    (.cons (digit _) oneLine_nil)))))

theorem oneLine_escapeGo (c : CodePoint) : OneLine (escapeGo c) := by
  unfold escapeGo
  cases short : shortEscape c with
  | some e =>
    refine .cons (by decide) (.cons ?_ oneLine_nil)
    unfold shortEscape at short
    split_ifs at short <;> cases short <;> decide
  | none =>
    dsimp only
    split_ifs with special
    · exact oneLine_unicodeEscape c.val
    · exact .cons (by omega) oneLine_nil

theorem oneLine_goQuoted (s : String) : OneLine (goQuoted s) := by
  refine .cons (by decide) (.append ?_ (.cons (by decide) oneLine_nil))
  intro c member
  obtain ⟨d, -, inside⟩ := List.mem_flatMap.mp member
  exact oneLine_escapeGo d c inside

theorem oneLine_intText (n : Int) : OneLine (intText n) := by
  have digits : OneLine (decimal n.natAbs) := by
    intro c member
    have digit := isDigit_of_mem_decimal member
    simp only [isDigit, Bool.and_eq_true, decide_eq_true_eq] at digit
    omega
  unfold intText
  split_ifs
  · exact .cons (by decide) digits
  · exact digits

theorem length_le_goQuoted (s : String) : s.length ≤ (goQuoted s).length := by
  have each : ∀ c : CodePoint, 1 ≤ (escapeGo c).length := by
    intro c
    unfold escapeGo
    split
    · exact Nat.le_add_left 1 1
    · split_ifs
      · exact Nat.le_add_left 1 5
      · exact Nat.le_refl 1
  have all : ∀ t : Text, t.length ≤ (t.flatMap escapeGo).length := by
    intro t
    induction t with
    | nil => exact Nat.le_refl 0
    | cons c t ih =>
      have := each c
      simp only [List.length_cons, List.flatMap_cons, List.length_append]
      omega
  have inner := all (text s)
  simp only [text, List.length_map, String.length_toList] at inner
  simp only [goQuoted, quoted, List.length_cons, List.length_append, text]
  omega

theorem toNat_of_mem_utf8Char {c : CodePoint} {b : UInt8} (member : b ∈ utf8Char c) :
    b.toNat = c.val ∨ 128 ≤ b.toNat := by
  have bound := c.isLt
  have value : ∀ n, n < 256 → (UInt8.ofNat n).toNat = n := by
    intro n small
    rw [UInt8.toNat_ofNat', Nat.mod_eq_of_lt small]
  unfold utf8Char at member
  dsimp only at member
  split_ifs at member with one two three
  · obtain rfl := List.mem_singleton.mp member
    exact .inl (value _ (by omega))
  · simp only [List.mem_cons, List.not_mem_nil, or_false] at member
    rcases member with rfl | rfl <;> rw [value _ (by omega)] <;> omega
  · simp only [List.mem_cons, List.not_mem_nil, or_false] at member
    rcases member with rfl | rfl | rfl <;> rw [value _ (by omega)] <;> omega
  · simp only [List.mem_cons, List.not_mem_nil, or_false] at member
    rcases member with rfl | rfl | rfl | rfl <;> rw [value _ (by omega)] <;> omega

theorem newline_notMem_utf8 {s : Text} (h : OneLine s) : newline ∉ s.flatMap utf8Char := by
  intro member
  obtain ⟨c, inside, byte⟩ := List.mem_flatMap.mp member
  have other := h c inside
  have ten : newline.toNat = 10 := rfl
  rcases toNat_of_mem_utf8Char byte with own | high <;> omega

theorem length_le_utf8 (s : Text) : s.length ≤ (s.flatMap utf8Char).length := by
  have each : ∀ c : CodePoint, 1 ≤ (utf8Char c).length := by
    intro c
    unfold utf8Char
    dsimp only
    split_ifs <;> simp
  induction s with
  | nil => exact Nat.le_refl 0
  | cons c s ih =>
    have := each c
    simp only [List.length_cons, List.flatMap_cons, List.length_append]
    omega

end AiStorage.Lib
