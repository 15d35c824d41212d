import AiStorage.Lib.PyJson

/-!
# What `json.dumps` writes, `json.loads` reads back

The reading of a written value is its `norm`. For equality the difference vanishes
on values that already look like JSON, and every `norm` does.
-/
namespace AiStorage.Lib

/-! ## Scalars -/

theorem dropWord_append (word rest : Text) : dropWord word (word ++ rest) = some rest := by
  simp [dropWord]

/-- The text cannot continue a number. -/
def EndsNumber (rest : Text) : Prop := ∀ c ∈ rest.head?, isNumberChar c = false

variable {token rest s : Text} {v : PyVal} {c : CodePoint}

theorem span_number (all : token.all isNumberChar = true) (ends : EndsNumber rest) :
    (token ++ rest).takeWhile isNumberChar = token ∧
      (token ++ rest).dropWhile isNumberChar = rest := by
  induction token with
  | nil =>
    cases rest with
    | nil => exact ⟨rfl, rfl⟩
    | cons c rest => simp [ends c rfl]
  | cons c token ih =>
    obtain ⟨here, later⟩ := Bool.and_eq_true_iff.mp (List.all_cons ▸ all)
    obtain ⟨taken, dropped⟩ := ih later
    simp [here, taken, dropped]

theorem parseScalar_number (all : token.all isNumberChar = true)
    (parsed : parseNumber token = some v) (ends : EndsNumber rest) :
    parseScalar (token ++ rest) = some (v, rest) := by
  obtain ⟨taken, dropped⟩ := span_number all ends
  cases token with
  | nil => exact absurd parsed nofun
  | cons c token =>
    have number : isNumberChar c = true := (Bool.and_eq_true_iff.mp (List.all_cons ▸ all)).1
    have quote : c ≠ ch '"' := by
      rintro rfl
      exact absurd number (by decide)
    rw [List.cons_append] at taken dropped ⊢
    simp only [parseScalar, quote, if_false, number, if_true, parseNumberToken, taken, parsed,
      dropped]

theorem parseScalar_string (s rest : Text) :
    parseScalar (quoted escapeAscii s ++ rest) = some (.str (joinSurrogates s), rest) := by
  simp [quoted, parseScalar, scanString_escapeAscii]

theorem parseScalar_word (first : Char) (word : String)
    (reads : ∀ rest, parseScalar (ch first :: rest) =
      (dropWord (text word) rest).map fun rest => (v, rest)) :
    parseScalar (ch first :: (text word ++ rest)) = some (v, rest) := by
  rw [reads, dropWord_append]
  rfl

theorem intText_number (n : Int) : (intText n).all isNumberChar = true := by
  rw [intText_eq_signed]
  exact isNumberChar_signed _ (isNumberChar_decimal _)

theorem parseScalar_float (x : Float64) (ends : EndsNumber rest) :
    parseScalar (floatText x ++ rest) = some (.float x, rest) := by
  cases x with
  | finite negative units representable bounded =>
    obtain ⟨all, parsed⟩ := parseNumber_finiteText negative units representable bounded
    exact parseScalar_number all parsed ends
  | infinite negative =>
    cases negative with
    | false => exact parseScalar_word 'I' "nfinity" fun _ => rfl
    | true =>
      -- the sign alone is no number
      have sign : (text "-Infinity" ++ rest).takeWhile isNumberChar = [ch '-'] := rfl
      have reads : parseScalar (text "-Infinity" ++ rest) =
          parseNumberToken (text "-Infinity" ++ rest) := rfl
      have alone : parseNumber [ch '-'] = none := by decide
      simp only [floatText, signed, if_true]
      change parseScalar (text "-Infinity" ++ rest) = _
      rw [reads, parseNumberToken, sign, alone]
      simp only [dropWord_append, Option.map_some]
  | nan => exact parseScalar_word 'N' "aN" fun _ => rfl

/-! ## Values -/

def Opens (s : Text) : Prop :=
  ∃ c rest, s = c :: rest ∧ isSpace c = false ∧ c ≠ ch ']' ∧ c ≠ ch '\x7d'

theorem Opens.append (opens : Opens s) (rest : Text) : Opens (s ++ rest) := by
  obtain ⟨c, tail, rfl, space⟩ := opens
  exact ⟨c, tail ++ rest, rfl, space⟩

theorem opens_of_number (all : token.all isNumberChar = true)
    (parsed : parseNumber token = some v) : Opens token := by
  cases token with
  | nil => exact absurd parsed nofun
  | cons c rest =>
    have number : isNumberChar c = true := (Bool.and_eq_true_iff.mp (List.all_cons ▸ all)).1
    refine ⟨c, rest, rfl, ?_, ?_, ?_⟩
    · simp only [isNumberChar, isDigit, ch, isSpace, Bool.or_eq_true, Bool.and_eq_true,
        decide_eq_true_eq, Bool.or_eq_false_iff, decide_eq_false_iff_not, Fin.ext_iff] at number ⊢
      have values : (CodePoint.ofChar '-').val = 45 ∧ (CodePoint.ofChar '+').val = 43 ∧
          (CodePoint.ofChar '.').val = 46 ∧ (CodePoint.ofChar 'e').val = 101 ∧
          (CodePoint.ofChar 'E').val = 69 ∧ (CodePoint.ofChar ' ').val = 32 := by decide
      omega
    · rintro rfl
      exact absurd number (by decide)
    · rintro rfl
      exact absurd number (by decide)

theorem opens_letter (c : Char) (rest : Text)
    (plain : isSpace (ch c) = false ∧ ch c ≠ ch ']' ∧ ch c ≠ ch '\x7d') :
    Opens (ch c :: rest) :=
  ⟨ch c, rest, rfl, plain⟩

theorem PyVal.opens_print (style : JsonStyle) (encodable : v.encodable true = true) :
    Opens (v.print style) := by
  cases v with
  | none => exact opens_letter 'n' _ (by decide)
  | bool b => cases b with
    | true => exact opens_letter 't' _ (by decide)
    | false => exact opens_letter 'f' _ (by decide)
  | int n => exact opens_of_number (intText_number n) (parseNumber_intText n)
  | float x => cases x with
    | finite negative units representable bounded =>
      obtain ⟨all, parsed⟩ := parseNumber_finiteText negative units representable bounded
      exact opens_of_number all parsed
    | infinite negative => cases negative with
      | true => exact opens_letter '-' _ (by decide)
      | false => exact opens_letter 'I' _ (by decide)
    | nan => exact opens_letter 'N' _ (by decide)
  | str s => exact opens_letter '"' _ (by decide)
  | list items | tuple items => exact opens_letter '[' _ (by decide)
  | dict items => exact opens_letter '\x7b' _ (by decide)
  | object id => exact absurd encodable (by simp [PyVal.encodable])

theorem skipSpace_of_opens (opens : Opens s) : skipSpace s = s := by
  obtain ⟨c, rest, rfl, space, -⟩ := opens
  simp [skipSpace, space]

theorem skipSpace_pad (style : JsonStyle) (opens : Opens s) :
    skipSpace (style.pad ++ s) = s := by
  cases style with
  | compact => exact skipSpace_of_opens opens
  | default =>
    have blank : isSpace (ch ' ') = true := by decide
    simp only [JsonStyle.pad, skipSpace, List.cons_append, List.nil_append,
      List.dropWhile_cons_of_pos blank]
    exact skipSpace_of_opens opens

/-- Printed values read back, given enough fuel. -/
def ReadsBack (style : JsonStyle) (v : PyVal) : Prop :=
  ∀ fuel rest, 2 * (v.print style).length ≤ fuel → EndsNumber rest →
    parseValue fuel (v.print style ++ rest) = some (v.norm, rest)

theorem parseValue_scalar {fuel : Nat} {tail : Text}
    (shape : s = c :: tail) (scalar : c ≠ ch '[' ∧ c ≠ ch '\x7b')
    (reads : parseScalar (s ++ rest) = some (v, rest)) (enough : 2 * s.length ≤ fuel) :
    parseValue fuel (s ++ rest) = some (v, rest) := by
  subst shape
  cases fuel with
  | zero => simp at enough
  | succ fuel =>
    rw [List.cons_append] at reads ⊢
    simp only [parseValue, scalar.1, scalar.2, if_false, reads]

theorem endsNumber_cons (rest : Text) (other : isNumberChar c = false) :
    EndsNumber (c :: rest) := by
  intro d here
  exact Option.some.inj here ▸ other

theorem skipSpace_cons (rest : Text) (other : isSpace c = false) :
    skipSpace (c :: rest) = c :: rest := by
  simp [skipSpace, other]

theorem opens_commaSeparated (pad : Text) {part : Text} (rest : List Text) (opens : Opens part) :
    Opens (PyVal.commaSeparated pad (part :: rest)) := by
  cases rest with
  | nil => exact opens
  | cons next more => exact opens.append _

theorem parseItems_print (style : JsonStyle) {first : PyVal} {more : List PyVal}
    (reads : ∀ v ∈ first :: more, ReadsBack style v ∧ v.encodable true = true) (fuel : Nat)
    (rest : Text)
    (enough :
      2 * (PyVal.commaSeparated style.pad ((first :: more).map (PyVal.print style))).length + 1 ≤
        fuel) :
    parseItems fuel
        (PyVal.commaSeparated style.pad ((first :: more).map (PyVal.print style)) ++ ch ']' :: rest) =
      some ((first :: more).map PyVal.norm, rest) := by
  induction more generalizing first fuel with
  | nil =>
    cases fuel with
    | zero => exact absurd enough (by simp)
    | succ fuel =>
      have value := (reads first List.mem_cons_self).1 fuel (ch ']' :: rest)
        (by simpa [PyVal.commaSeparated] using enough) (endsNumber_cons _ (by decide))
      simp only [List.map_cons, List.map_nil, PyVal.commaSeparated, parseItems, value,
        skipSpace_cons rest (by decide : isSpace (ch ']') = false), if_true]
  | cons second more ih =>
    cases fuel with
    | zero => exact absurd enough (by simp)
    | succ fuel =>
      simp only [List.map_cons, PyVal.commaSeparated, List.length_append, List.length_cons] at enough
      have tail := @ih second (fun v member => reads v (List.mem_cons_of_mem _ member)) fuel
        (by simp only [List.map_cons]; omega)
      simp only [List.map_cons] at tail
      have value := (reads first List.mem_cons_self).1 fuel
        (ch ',' :: (style.pad ++ PyVal.commaSeparated style.pad
          (second.print style :: more.map (PyVal.print style)) ++ ch ']' :: rest))
        (by omega) (endsNumber_cons _ (by decide))
      have opens := (opens_commaSeparated style.pad (more.map (PyVal.print style))
        (PyVal.opens_print style (reads second (by simp)).2)).append (ch ']' :: rest)
      simp only [List.map_cons, PyVal.commaSeparated, List.append_assoc, List.cons_append]
      simp only [List.append_assoc] at value
      simp only [parseItems, value, skipSpace_cons _ (by decide : isSpace (ch ',') = false),
        (by decide : ch ',' ≠ ch ']'), if_false, if_true, skipSpace_pad style opens, tail,
        Option.map_some]

theorem opens_member (style : JsonStyle) (item : PyKey × Text) : Opens (PyVal.member style item) :=
  opens_letter '"' _ (by decide)

section Members

variable (style : JsonStyle) {item : PyKey × PyVal} (back : ReadsBack style item.2)
  (encodable : item.2.encodable true = true) {fuel : Nat}
  (enough : 2 * (item.2.print style).length ≤ fuel)

include back encodable enough

theorem parseMembers_last (rest : Text) :
    parseMembers (fuel + 1)
        (PyVal.member style (item.1, item.2.print style) ++ ch '\x7d' :: rest) =
      some ([(.str (joinSurrogates item.1.name), item.2.norm)], rest) := by
  have opens := (PyVal.opens_print style encodable).append (ch '\x7d' :: rest)
  have value := back fuel (ch '\x7d' :: rest) enough (endsNumber_cons _ (by decide))
  simp only [PyVal.member, quoted, List.cons_append, List.append_assoc, List.nil_append,
    parseMembers, ne_eq, not_true_eq_false, if_false, if_true, scanString_escapeAscii,
    skipSpace_cons _ (by decide : isSpace (ch ':') = false), skipSpace_pad style opens, value,
    skipSpace_cons rest (by decide : isSpace (ch '\x7d') = false)]

theorem parseMembers_next {others : Text} (opens : Opens others)
    {items : List (PyKey × PyVal)} {rest : Text}
    (later : parseMembers fuel others = some (items, rest)) :
    parseMembers (fuel + 1)
        (PyVal.member style (item.1, item.2.print style) ++ ch ',' :: (style.pad ++ others)) =
      some ((.str (joinSurrogates item.1.name), item.2.norm) :: items, rest) := by
  have here := (PyVal.opens_print style encodable).append (ch ',' :: (style.pad ++ others))
  have value := back fuel (ch ',' :: (style.pad ++ others)) enough (endsNumber_cons _ (by decide))
  simp only [PyVal.member, quoted, List.cons_append, List.append_assoc, List.nil_append,
    parseMembers, ne_eq, not_true_eq_false, if_false, if_true, scanString_escapeAscii,
    skipSpace_cons _ (by decide : isSpace (ch ':') = false), skipSpace_pad style here, value,
    skipSpace_cons _ (by decide : isSpace (ch ',') = false), (by decide : ch ',' ≠ ch '\x7d'),
    skipSpace_pad style opens, later, Option.map_some]

end Members

theorem length_print_le_member (style : JsonStyle) (item : PyKey × PyVal) :
    (item.2.print style).length ≤ (PyVal.member style (item.1, item.2.print style)).length := by
  simp only [PyVal.member, List.length_append, List.length_cons]
  omega

theorem parseMembers_print (style : JsonStyle) {first : PyKey × PyVal} {more : List (PyKey × PyVal)}
    (reads : ∀ item ∈ first :: more,
      ReadsBack style item.2 ∧ item.2.encodable true = true) (fuel : Nat) (rest : Text)
    (enough :
      2 * (PyVal.commaSeparated style.pad ((first :: more).map fun item =>
        PyVal.member style (item.1, item.2.print style))).length + 1 ≤ fuel) :
    parseMembers fuel
        (PyVal.commaSeparated style.pad ((first :: more).map fun item =>
          PyVal.member style (item.1, item.2.print style)) ++ ch '\x7d' :: rest) =
      some ((first :: more).map fun item =>
        (PyKey.str (joinSurrogates item.1.name), item.2.norm), rest) := by
  induction more generalizing first fuel with
  | nil =>
    cases fuel with
    | zero => exact absurd enough (by simp)
    | succ fuel =>
      obtain ⟨back, encodable⟩ := reads first List.mem_cons_self
      have size := length_print_le_member style first
      simp only [List.map_cons, List.map_nil, PyVal.commaSeparated] at enough
      exact parseMembers_last style back encodable (by omega) rest
  | cons second more ih =>
    cases fuel with
    | zero => exact absurd enough (by simp)
    | succ fuel =>
      obtain ⟨back, encodable⟩ := reads first List.mem_cons_self
      have size := length_print_le_member style first
      simp only [List.map_cons, PyVal.commaSeparated, List.length_append, List.length_cons] at enough
      have tail := @ih second (fun item m => reads item (List.mem_cons_of_mem _ m)) fuel
        (by simp only [List.map_cons]; omega)
      have opens : Opens (PyVal.commaSeparated style.pad ((second :: more).map fun item =>
          PyVal.member style (item.1, item.2.print style)) ++ ch '\x7d' :: rest) :=
        (opens_commaSeparated style.pad _ (opens_member style _)).append _
      have step := parseMembers_next style back encodable (by omega) opens tail
      simp only [List.map_cons] at step
      simp only [List.map_cons, PyVal.commaSeparated, List.append_assoc, List.cons_append, step]

theorem readsBack_sequence (style : JsonStyle) {items : List PyVal}
    (reads : ∀ v ∈ items, ReadsBack style v ∧ v.encodable true = true) (fuel : Nat) (rest : Text)
    (enough : 2 * (PyVal.print style (.list items)).length ≤ fuel) :
    parseValue fuel (PyVal.print style (.list items) ++ rest) =
      some (.list (items.map PyVal.norm), rest) := by
  cases fuel with
  | zero => simp [PyVal.print] at enough
  | succ fuel =>
    cases items with
    | nil =>
      simp [PyVal.print, PyVal.commaSeparated, parseValue,
        skipSpace_cons rest (by decide : isSpace (ch ']') = false)]
    | cons first more =>
      have opens := (opens_commaSeparated style.pad (more.map (PyVal.print style))
        (PyVal.opens_print style (reads first List.mem_cons_self).2)).append (ch ']' :: rest)
      simp only [PyVal.print, PyVal.printList_eq_map, List.length_cons, List.length_append,
        List.length_nil] at enough
      have inside := parseItems_print style reads fuel rest (by omega)
      simp only [List.map_cons] at inside
      simp only [PyVal.print, PyVal.printList_eq_map, List.map_cons, List.cons_append,
        List.append_assoc, List.nil_append, parseValue, if_true, skipSpace_of_opens opens, inside]
      obtain ⟨c, tail, shape, -, bracket, -⟩ := opens
      rw [shape]
      simp [bracket]

theorem readsBack_members (style : JsonStyle) {items : List (PyKey × PyVal)}
    (reads : ∀ item ∈ items, ReadsBack style item.2 ∧ item.2.encodable true = true) (fuel : Nat)
    (rest : Text)
    (enough : 2 * (ch '\x7b' :: (PyVal.commaSeparated style.pad
      (items.map fun item => PyVal.member style (item.1, item.2.print style)) ++
        [ch '\x7d'])).length ≤ fuel) :
    parseValue fuel (ch '\x7b' :: (PyVal.commaSeparated style.pad
      (items.map fun item => PyVal.member style (item.1, item.2.print style)) ++ [ch '\x7d']) ++
        rest) =
      some (.dict (items.map fun item => (.str (joinSurrogates item.1.name), item.2.norm)), rest) := by
  have brackets : ch '\x7b' ≠ ch '[' := by decide
  cases fuel with
  | zero => simp at enough
  | succ fuel =>
    cases items with
    | nil =>
      simp [PyVal.commaSeparated, parseValue, brackets,
        skipSpace_cons rest (by decide : isSpace (ch '\x7d') = false)]
    | cons first more =>
      have opens := (opens_commaSeparated style.pad
        (more.map fun item => PyVal.member style (item.1, item.2.print style))
        (opens_member style (first.1, first.2.print style))).append (ch '\x7d' :: rest)
      simp only [List.length_cons, List.length_append, List.length_nil] at enough
      have inside := parseMembers_print style reads fuel rest (by omega)
      simp only [List.map_cons] at inside
      simp only [List.map_cons, List.cons_append, List.append_assoc, List.nil_append, parseValue,
        brackets, if_true, if_false, skipSpace_of_opens opens, inside]
      obtain ⟨c, tail, shape, -, -, brace⟩ := opens
      rw [shape]
      simp [brace]

theorem PyVal.readsBack (style : JsonStyle) (v : PyVal) (encodable : v.encodable true = true) :
    ReadsBack style v := by
  induction v using PyVal.nested with
  | none =>
    exact fun fuel rest enough _ =>
      parseValue_scalar rfl (by decide) (parseScalar_word 'n' "ull" fun _ => rfl) enough
  | bool b =>
    intro fuel rest enough _
    cases b with
    | true => exact parseValue_scalar rfl (by decide) (parseScalar_word 't' "rue" fun _ => rfl) enough
    | false =>
      exact parseValue_scalar rfl (by decide) (parseScalar_word 'f' "alse" fun _ => rfl) enough
  | int n =>
    intro fuel rest enough ends
    obtain ⟨c, tail, shape, -⟩ := opens_of_number (intText_number n) (parseNumber_intText n)
    have number : isNumberChar c = true := List.all_eq_true.mp (intText_number n) c (by simp [shape])
    refine parseValue_scalar shape ⟨?_, ?_⟩
      (parseScalar_number (intText_number n) (parseNumber_intText n) ends) enough
    all_goals
      rintro rfl
      exact absurd number (by decide)
  | float x =>
    intro fuel rest enough ends
    have reads := parseScalar_float x ends
    cases x with
    | finite negative units representable bounded =>
      obtain ⟨all, parsed⟩ := parseNumber_finiteText negative units representable bounded
      obtain ⟨c, tail, shape, -⟩ := opens_of_number all parsed
      have number : isNumberChar c = true := List.all_eq_true.mp all c (by simp [shape])
      refine parseValue_scalar shape ⟨?_, ?_⟩ reads enough
      all_goals
        rintro rfl
        exact absurd number (by decide)
    | infinite negative => cases negative with
      | true | false => exact parseValue_scalar rfl (by decide) reads enough
    | nan => exact parseValue_scalar rfl (by decide) reads enough
  | str s =>
    exact fun fuel rest enough _ =>
      parseValue_scalar rfl (by decide) (parseScalar_string s rest) enough
  | list items ih =>
    intro fuel rest enough _
    have all : ∀ v ∈ items, v.encodable true = true := by
      simpa [PyVal.encodable] using encodable
    rw [readsBack_sequence style (fun v m => ⟨ih v m (all v m), all v m⟩) fuel rest enough, norm,
      normList_eq_map]
  | tuple items ih =>
    intro fuel rest enough _
    have all : ∀ v ∈ items, v.encodable true = true := by
      simpa [PyVal.encodable] using encodable
    have reads := readsBack_sequence style (fun v m => ⟨ih v m (all v m), all v m⟩) fuel rest
    simp only [print] at enough reads ⊢
    rw [reads enough, norm, normList_eq_map]
  | dict items ih =>
    intro fuel rest enough _
    rw [encodable_dict, Bool.and_eq_true, List.all_eq_true] at encodable
    have reads : ∀ item ∈ dictItems items,
        ReadsBack style item.2 ∧ item.2.encodable true = true := by
      intro item member
      have written := (Bool.and_eq_true_iff.mp (encodable.2 item member)).2
      obtain ⟨old, inside, value⟩ := mem_dictItems member
      exact ⟨value ▸ ih old inside (value ▸ written), written⟩
    rw [print_dict] at enough ⊢
    rw [norm_dict]
    exact readsBack_members style reads fuel rest enough
  | object id => exact absurd encodable (by simp [PyVal.encodable])

/-- Writing and reading back normalises. -/
theorem loads_print (style : JsonStyle) (encodable : v.encodable true = true) :
    loads (v.print style) = some v.norm := by
  have opens := PyVal.opens_print style encodable
  have reads := PyVal.readsBack style v encodable (2 * (v.print style).length + 1) []
    (Nat.le_succ _) nofun
  rw [List.append_nil] at reads
  rw [loads, skipSpace_of_opens opens, reads]
  rfl

/-! ## Equality of what is read back -/

/-- Built of JSON data: no tuple, string keys, no surrogate pair left to join. -/
inductive Canon.Plain : Canon → Prop where
  | atom {code : List Int} (strings : ∀ s, code = strCode s → Joined s) : Plain (.atom code)
  | list {items : List Canon} (each : ∀ c ∈ items, Plain c) : Plain (.seq false items)
  | dict {items : List (List Int × Canon)}
      (keys : ∀ item ∈ items, ∃ s, item.1 = strCode s ∧ Joined s)
      (each : ∀ item ∈ items, Plain item.2) : Plain (.dict items)

theorem plain_atom {head : Int} {tail : List Int} (other : head ≠ 2) :
    Canon.Plain (.atom (head :: tail)) :=
  .atom fun _ same => absurd (List.cons.inj same).1 other

theorem PyKey.eq_str_of_code {k : PyKey} (same : k.code = strCode s) : k = .str s := by
  cases k with
  | str t => rw [strCode_inj same]
  | none | bool b | int n => exact absurd (List.cons.inj same).1 (by decide)
  | float x => cases x with
    | finite | infinite | nan => exact absurd (List.cons.inj same).1 (by decide)
  | object id => exact absurd (List.cons.inj same).1 (by decide)

namespace PyVal

theorem plain_canon_norm (v : PyVal) : v.norm.canon.Plain := by
  induction v using PyVal.nested with
  | none | bool b | int n => exact plain_atom (by decide)
  | float x => cases x with
    | finite | infinite | nan => exact plain_atom (by decide)
  | str s => exact .atom fun t same => strCode_inj same ▸ joined_joinSurrogates s
  | object id => exact plain_atom (by decide)
  | list items ih | tuple items ih =>
    simp only [norm, normList_eq_map, canon, canonList_eq_map, List.map_map]
    exact .list (List.forall_mem_map.mpr ih)
  | dict items ih =>
    rw [norm_dict, canon_dict]
    refine .dict (List.forall_mem_map.mpr ?_) (List.forall_mem_map.mpr ?_)
    · intro item member
      obtain ⟨old, inside, key⟩ := key_of_mem_dictItems member
      obtain ⟨source, -, rfl⟩ := List.mem_map.mp inside
      exact ⟨_, by rw [← key]; rfl, joined_joinSurrogates _⟩
    · intro item member
      obtain ⟨old, inside, value⟩ := mem_dictItems member
      obtain ⟨source, there, rfl⟩ := List.mem_map.mp inside
      obtain ⟨origin, first, same⟩ := mem_dictItems there
      have plain := ih origin first
      rw [same] at plain
      exact value ▸ plain

/-- On plain values writing and reading back is invisible to `==`. -/
theorem canon_norm_of_plain {v : PyVal} (plain : v.canon.Plain) : v.norm.canon = v.canon := by
  induction v using PyVal.nested with
  | none => rfl
  | bool b => rfl
  | int n => rfl
  | float x => rfl
  | object id => rfl
  | str s =>
    cases plain with
    | atom strings => rw [norm, joinSurrogates_of_joined (strings s rfl)]
  | tuple items ih => cases plain
  | list items ih =>
    simp only [canon, canonList_eq_map] at plain
    cases plain with
    | list each =>
      simp only [norm, normList_eq_map, canon, canonList_eq_map, List.map_map]
      congr 1
      exact List.map_congr_left fun v member =>
        ih v member (each _ (List.mem_map_of_mem member))
  | dict items ih =>
    rw [canon_dict] at plain
    cases plain with
    | dict keys each =>
      have renamed : (dictItems items).map (fun item =>
            (PyKey.str (joinSurrogates item.1.name), item.2.norm)) =
          (dictItems items).map fun item => (item.1, item.2.norm) := by
        refine List.map_congr_left fun item member => ?_
        obtain ⟨s, code, joined⟩ := keys _ (List.mem_map_of_mem member)
        have key : item.1 = .str s := PyKey.eq_str_of_code code
        rw [key, PyKey.name, joinSurrogates_of_joined joined]
      rw [norm_dict, renamed, canon_dict, canon_dict, dictItems_map,
        dictItems_of_sorted (sortedKeys_dictItems items), List.map_map]
      congr 1
      refine List.map_congr_left fun item member => ?_
      have plain := each _ (List.mem_map_of_mem member)
      obtain ⟨old, inside, value⟩ := mem_dictItems member
      have same := ih old inside
      rw [value] at same
      exact congrArg (Prod.mk item.1.code) (same plain)

theorem pyEq_norm_of_pyEq {v w : PyVal} (same : w.norm.pyEq v = true) :
    w.norm.pyEq v.norm = true := by
  have canons := pyEq_iff.mp same
  have plain : v.canon.Plain := canons ▸ plain_canon_norm w
  rw [pyEq_iff, canons, canon_norm_of_plain plain]

end PyVal

/-! ## Writing again -/

namespace PyVal

theorem encodable_mono {v : PyVal} (finite : v.encodable false = true) : v.encodable true = true := by
  induction v using PyVal.nested with
  | none => rfl
  | bool b => rfl
  | int n => rfl
  | float x => rfl
  | str s => rfl
  | object id => exact finite
  | list items ih | tuple items ih =>
    simp only [encodable, encodableList_eq_all, List.all_eq_true] at finite ⊢
    exact fun v member => ih v member (finite v member)
  | dict items ih =>
    rw [encodable_dict, Bool.and_eq_true, List.all_eq_true] at finite ⊢
    refine ⟨finite.1, fun item member => ?_⟩
    obtain ⟨key, value⟩ := Bool.and_eq_true_iff.mp (finite.2 item member)
    obtain ⟨old, inside, same⟩ := mem_dictItems member
    have written := ih old inside
    rw [same] at written
    refine Bool.and_eq_true_iff.mpr ⟨?_, written value⟩
    cases shape : item.1 with
    | object id => rw [shape] at key; exact key
    | none | bool _ | int _ | float _ | str _ => rfl

theorem encodable_norm {allowNan : Bool} {v : PyVal} (written : v.encodable allowNan = true) :
    v.norm.encodable allowNan = true := by
  induction v using PyVal.nested with
  | none => rfl
  | bool b => rfl
  | int n => rfl
  | float x => exact written
  | str s => rfl
  | object id => exact written
  | list items ih | tuple items ih =>
    simp only [norm, normList_eq_map, encodable, encodableList_eq_all, List.all_eq_true,
      List.forall_mem_map] at written ⊢
    exact fun v member => ih v member (written v member)
  | dict items ih =>
    rw [encodable_dict, Bool.and_eq_true, List.all_eq_true] at written
    rw [norm_dict, encodable_dict, Bool.and_eq_true, List.all_eq_true]
    have renamed : ∀ item ∈ dictItems ((dictItems items).map fun item =>
        (PyKey.str (joinSurrogates item.1.name), item.2.norm)), ∃ s, item.1 = .str s := by
      intro item member
      obtain ⟨old, inside, key⟩ := key_of_mem_dictItems member
      obtain ⟨source, -, rfl⟩ := List.mem_map.mp inside
      exact ⟨_, key.symm⟩
    refine ⟨?_, fun item member => ?_⟩
    · have strings : ((dictItems ((dictItems items).map fun item =>
          (PyKey.str (joinSurrogates item.1.name), item.2.norm))).map Prod.fst).all PyKey.isStr =
          true := by
        rw [List.all_map, List.all_eq_true]
        intro item member
        obtain ⟨s, key⟩ := renamed item member
        simp [key, PyKey.isStr]
      simp [sortableKeys, strings]
    · obtain ⟨s, key⟩ := renamed item member
      obtain ⟨old, inside, value⟩ := mem_dictItems member
      obtain ⟨source, there, rfl⟩ := List.mem_map.mp inside
      obtain ⟨origin, first, same⟩ := mem_dictItems there
      have again := ih origin first
      rw [same] at again
      have finite := (Bool.and_eq_true_iff.mp (written.2 source there)).2
      rw [← value, key]
      exact again finite

theorem norm_of_plain_keys {items : List (PyKey × PyVal)}
    (plain : ∀ item ∈ items, ∃ s, item.1 = .str s ∧ Joined s) :
    (PyVal.dict items).norm = .dict (dictItems (items.map fun item => (item.1, item.2.norm))) := by
  rw [norm_dict, dictItems_map]
  congr 1
  refine List.map_congr_left fun item member => ?_
  obtain ⟨old, inside, key⟩ := key_of_mem_dictItems member
  obtain ⟨s, shape, joined⟩ := plain old inside
  rw [← key, shape, PyKey.name, joinSurrogates_of_joined joined]

end PyVal

/-! ## What is written is ASCII -/

def Ascii (s : Text) : Prop := ∀ c ∈ s, c.val < 128

instance (s : Text) : Decidable (Ascii s) :=
  decidable_of_iff (s.all fun c => c.val < 128) (by simp only [Ascii, List.all_eq_true,
    decide_eq_true_eq])

theorem Ascii.append {t : Text} (left : Ascii s) (right : Ascii t) : Ascii (s ++ t) :=
  List.forall_mem_append.mpr ⟨left, right⟩

theorem Ascii.cons (head : c.val < 128) (tail : Ascii s) :
    Ascii (c :: s) :=
  List.forall_mem_cons.mpr ⟨head, tail⟩

theorem ascii_nil : Ascii [] := List.forall_mem_nil _

theorem encodeUtf8_of_ascii (ascii : Ascii s) :
    encodeUtf8 s = some (s.flatMap utf8Char) := by
  refine if_neg ?_
  rw [Bool.not_eq_true, List.any_eq_false]
  intro c member
  have small := ascii c member
  simp only [CodePoint.isSurrogate, Bool.and_eq_true, decide_eq_true_eq]
  omega

theorem flatMap_utf8Char_of_ascii (ascii : Ascii s) :
    s.flatMap utf8Char = s.map fun c => UInt8.ofNat c.val := by
  induction s with
  | nil => rfl
  | cons c rest ih =>
    have small : c.val < 128 := ascii c List.mem_cons_self
    rw [List.flatMap_cons, List.map_cons, ih fun d member => ascii d (List.mem_cons_of_mem _ member),
      utf8Char, if_pos small]
    rfl

end AiStorage.Lib
