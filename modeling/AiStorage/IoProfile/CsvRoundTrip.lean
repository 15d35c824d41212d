import AiStorage.Lib.Csv
import AiStorage.Lib.Lines

/-!
# The benchmark's rows, written and read back

`CSVWriter` of `csv_writer.hpp` over bytes, and `_read_rows` of `tier_profile.py`. A row
is a map from byte strings, as the writer's `std::map` is; what the reader gives for a
row is a dictionary over text.
-/
namespace AiStorage.IoProfile
open Lib

/-! ### The writer -/

namespace CSVWriter

def comma : UInt8 := 44

def dquote : UInt8 := 34

def lf : UInt8 := 10

def escape (value : Bytes) : Bytes :=
  if value.any fun c => c = comma || c = dquote || c = lf then
    dquote :: (value.flatMap (fun c => if c = dquote then [dquote, dquote] else [c]) ++ [dquote])
  else value

def writeHeader (fields : List Bytes) : Bytes := [comma].intercalate fields ++ [lf]

/-- What `CSVWriter::row` writes for one field. -/
def cell (values : Bytes → Option Bytes) (field : Bytes) : Bytes :=
  ((values field).map escape).getD []

def row (fields : List Bytes) (values : Bytes → Option Bytes) : Bytes :=
  [comma].intercalate (fields.map (cell values)) ++ [lf]

def file (fields : List Bytes) (rows : List (Bytes → Option Bytes)) : Bytes :=
  writeHeader fields ++ rows.flatMap (row fields)

end CSVWriter

inductive ReadError where
  | decode
  | csv (error : Csv.Error)
  deriving DecidableEq

def readRows (source : Bytes) : Except ReadError (List (Text → Option Text)) :=
  match decodeUtf8 source with
  | none => .error .decode
  | some text => (Csv.dictReader text).mapError .csv

/-! ### Bytes and characters -/

def encode (s : Text) : Bytes := s.flatMap utf8Char

section Characters

theorem encode_append (s t : Text) : encode (s ++ t) = encode s ++ encode t := List.flatMap_append

theorem encode_cons (c : CodePoint) (s : Text) : encode (c :: s) = utf8Char c ++ encode s :=
  List.flatMap_cons

theorem mem_utf8Char_iff {c a : CodePoint} (ascii : a.val < 128) :
    UInt8.ofNat a.val ∈ utf8Char c ↔ c = a := by
  have byte : (UInt8.ofNat a.val).toNat = a.val := by
    rw [UInt8.toNat_ofNat', Nat.mod_eq_of_lt (by omega)]
  constructor
  · intro member
    rcases toNat_of_mem_utf8Char member with own | high
    · exact Fin.ext (by omega)
    · omega
  · intro same
    subst same
    simp [utf8Char, ascii]

theorem special_utf8Char (c : CodePoint) :
    (utf8Char c).any (fun b => b = CSVWriter.comma || b = CSVWriter.dquote || b = CSVWriter.lf) =
      (c = Csv.comma || c = Csv.dquote || c = Csv.lf) := by
  have separator := @mem_utf8Char_iff c Csv.comma (by decide)
  have quote := @mem_utf8Char_iff c Csv.dquote (by decide)
  have newline := @mem_utf8Char_iff c Csv.lf (by decide)
  rw [Bool.eq_iff_iff, List.any_eq_true]
  simp only [Bool.or_eq_true, decide_eq_true_eq, ← separator, ← quote, ← newline]
  constructor
  · rintro ⟨b, member, (rfl | rfl) | rfl⟩
    · exact .inl (.inl member)
    · exact .inl (.inr member)
    · exact .inr member
  · rintro ((member | member) | member)
    · exact ⟨_, member, .inl (.inl rfl)⟩
    · exact ⟨_, member, .inl (.inr rfl)⟩
    · exact ⟨_, member, .inr rfl⟩

theorem special_encode (v : Text) :
    (encode v).any (fun b => b = CSVWriter.comma || b = CSVWriter.dquote || b = CSVWriter.lf) =
      Csv.special v := by
  rw [encode, List.any_flatMap, Csv.special]
  exact congrArg v.any (funext special_utf8Char)

theorem doubled_utf8Char (c : CodePoint) :
    (utf8Char c).flatMap (fun b =>
        if b = CSVWriter.dquote then [CSVWriter.dquote, CSVWriter.dquote] else [b]) =
      encode (if c = Csv.dquote then [Csv.dquote, Csv.dquote] else [c]) := by
  by_cases same : c = Csv.dquote
  · subst same
    decide
  · have none : CSVWriter.dquote ∉ utf8Char c := by
      intro member
      exact same ((@mem_utf8Char_iff c Csv.dquote (by decide)).mp member)
    have kept : ∀ b ∈ utf8Char c, (if b = CSVWriter.dquote then
        [CSVWriter.dquote, CSVWriter.dquote] else [b]) = [b] := by
      intro b member
      have other : b ≠ CSVWriter.dquote := fun isQuote => none (isQuote ▸ member)
      rw [if_neg other]
    rw [if_neg same, List.flatMap_congr kept, List.flatMap_singleton']
    exact (List.append_nil _).symm

theorem doubled_encode (v : Text) :
    (encode v).flatMap (fun b =>
        if b = CSVWriter.dquote then [CSVWriter.dquote, CSVWriter.dquote] else [b]) =
      encode (Csv.doubled v) := by
  rw [encode, List.flatMap_assoc, encode, Csv.doubled, List.flatMap_assoc]
  exact congrArg (v.flatMap ·) (funext doubled_utf8Char)

theorem escape_encode (v : Text) : CSVWriter.escape (encode v) = encode (Csv.quoted v) := by
  rw [CSVWriter.escape, special_encode, doubled_encode, Csv.quoted]
  split_ifs
  · rw [encode_cons, encode_append]
    rfl
  · rfl

theorem row_encode {cells : List Text} (some : cells ≠ []) :
    [CSVWriter.comma].intercalate (cells.map fun v => encode (Csv.quoted v)) ++ [CSVWriter.lf] =
      encode (Csv.rowText cells) := by
  induction cells with
  | nil => exact absurd rfl some
  | cons v more later =>
    cases more with
    | nil =>
      rw [Csv.rowText, encode_append]
      simp [List.intercalate]
      rfl
    | cons w more =>
      rw [Csv.rowText, encode_append, encode_cons, ← later (List.cons_ne_nil w more)]
      simp [List.intercalate]
      rfl

end Characters

/-! ### Rows of text -/

/-- A row whose values of the given fields are UTF-8 without NUL. -/
structure TextRow (names : List ScalarText) where
  values : Bytes → Option Bytes
  valid : ∀ name ∈ names, ∀ v, values name.utf8 = some v →
    ∃ t : ScalarText, t.utf8 = v ∧ CodePoint.ofNat 0 ∉ t.1

namespace TextRow

variable {names : List ScalarText}

def value (row : TextRow names) (name : ScalarText) : Text :=
  ((row.values name.utf8).bind decodeUtf8).getD []

def cells (row : TextRow names) : List Text := names.map row.value

def line (row : TextRow names) : Bytes :=
  CSVWriter.row (names.map ScalarText.utf8) row.values

variable {name : ScalarText}

theorem value_of_some (row : TextRow names) {t : ScalarText}
    (found : row.values name.utf8 = some t.utf8) : row.value name = t.1 := by
  rw [value, found, Option.bind_some, decodeUtf8_encodeUtf8 t.encodeUtf8_eq]
  rfl

theorem value_of_none (row : TextRow names)
    (missing : row.values name.utf8 = none) : row.value name = [] := by
  rw [value, missing]
  rfl

theorem value_scalar (row : TextRow names) (listed : name ∈ names) :
    ∀ c ∈ row.value name, c.isSurrogate = false := by
  cases found : row.values name.utf8 with
  | none =>
    rw [row.value_of_none found]
    intro c member
    cases member
  | some v =>
    obtain ⟨t, rfl, -⟩ := row.valid name listed v found
    rw [row.value_of_some found]
    exact t.2

theorem cell_eq (row : TextRow names) (listed : name ∈ names) :
    CSVWriter.cell row.values name.utf8 = encode (Csv.quoted (row.value name)) := by
  rw [CSVWriter.cell]
  cases found : row.values name.utf8 with
  | none =>
    rw [row.value_of_none found]
    rfl
  | some v =>
    obtain ⟨t, rfl, -⟩ := row.valid name listed v found
    rw [row.value_of_some found, ← escape_encode]
    rfl

theorem cells_ne_nil (row : TextRow names) (some : names ≠ []) : row.cells ≠ [] := by
  exact mt List.map_eq_nil_iff.mp some

theorem line_eq (row : TextRow names) (some : names ≠ []) :
    row.line = encode (Csv.rowText row.cells) := by
  have each : (names.map ScalarText.utf8).map (CSVWriter.cell row.values) =
      row.cells.map fun v => encode (Csv.quoted v) := by
    rw [cells, List.map_map, List.map_map]
    exact List.map_congr_left fun name listed => row.cell_eq listed
  rw [line, CSVWriter.row, each, row_encode (row.cells_ne_nil some)]

theorem line_eq_lf (row : TextRow names) (some : names ≠ []) :
    row.line = [CSVWriter.lf] ↔ row.cells = [[]] := by
  rw [row.line_eq some]
  constructor
  · intro blank
    by_contra filled
    have long := Csv.two_le_length_rowText (row.cells_ne_nil some) filled
    have bytes := length_le_utf8 (Csv.rowText row.cells)
    have one := congrArg List.length blank
    rw [encode, List.length_singleton] at one
    omega
  · intro blank
    rw [blank]
    rfl

end TextRow

def csvFile (names : List ScalarText) (rows : List (TextRow names)) : Bytes :=
  CSVWriter.file (names.map ScalarText.utf8) (rows.map TextRow.values)

/-- What the reader gives for the rows: each listed value, except that a row written as an
empty line may be skipped. -/
inductive ReadBack (names : List ScalarText) :
    List (TextRow names) → List (Text → Option Text) → Prop where
  | nil : ReadBack names [] []
  | kept {row : TextRow names} {dict : Text → Option Text} {rows : List (TextRow names)}
      {dicts : List (Text → Option Text)} :
      (∀ name ∈ names, dict name.1 = some (row.value name)) → ReadBack names rows dicts →
      ReadBack names (row :: rows) (dict :: dicts)
  | skipped {row : TextRow names} {rows : List (TextRow names)}
      {dicts : List (Text → Option Text)} :
      row.line = [CSVWriter.lf] → ReadBack names rows dicts → ReadBack names (row :: rows) dicts

def RoundTrips (names : List ScalarText) (rows : List (TextRow names)) : Prop :=
  ∃ dicts, readRows (csvFile names rows) = .ok dicts ∧ ReadBack names rows dicts

/-- What the reader needs of the names and values: no field is too long, a carriage return
has a character beside it that makes the writer quote, and a header that is an empty line
names no value. -/
structure Readable (names : List ScalarText) (rows : List (TextRow names)) : Prop where
  header : ∀ name ∈ names, name.1.length ≤ Csv.fieldLimit
  values : ∀ row ∈ rows, ∀ name ∈ names, Csv.Sound (row.value name)
  named : names.map Subtype.val = [[]] → ∀ row ∈ rows, row.cells = [[]]

section RoundTrip

variable {names : List ScalarText} {rows : List (TextRow names)}

def tableOf (names : List ScalarText) (rows : List (TextRow names)) : List (List Text) :=
  names.map Subtype.val :: rows.map TextRow.cells

theorem quoted_of_plain {v : Text} (plain : Csv.Plain v) : Csv.quoted v = v := by
  have none : Csv.special v = false := by
    rw [Csv.special, List.any_eq_false]
    intro c member
    obtain ⟨noComma, noQuote, noLf, -⟩ := plain c member
    simp [noComma, noQuote, noLf]
  simp [Csv.quoted, none]

theorem csvFile_eq (some : names ≠ []) (plain : ∀ name ∈ names, Csv.Plain name.1) :
    csvFile names rows = encode ((tableOf names rows).flatMap Csv.rowText) := by
  have top : CSVWriter.writeHeader (names.map ScalarText.utf8) =
      encode (Csv.rowText (names.map Subtype.val)) := by
    rw [← row_encode (mt List.map_eq_nil_iff.mp some), CSVWriter.writeHeader, List.map_map]
    have each : names.map ScalarText.utf8 =
        names.map ((fun v => encode (Csv.quoted v)) ∘ Subtype.val) := by
      apply List.map_congr_left
      intro name listed
      simp only [Function.comp_apply, quoted_of_plain (plain name listed)]
      rfl
    rw [each]
  have body : (rows.map TextRow.values).flatMap (CSVWriter.row (names.map ScalarText.utf8)) =
      encode ((rows.map TextRow.cells).flatMap Csv.rowText) := by
    rw [encode, List.flatMap_assoc, List.flatMap_map, List.flatMap_map]
    exact congrArg (rows.flatMap ·) (funext fun row => row.line_eq some)
  rw [csvFile, CSVWriter.file, top, body, tableOf, List.flatMap_cons, encode_append]

theorem mem_tableOf {cells : List Text} (member : cells ∈ tableOf names rows) :
    cells = names.map Subtype.val ∨ ∃ row ∈ rows, row.cells = cells := by
  rcases List.mem_cons.mp member with header | body
  · exact .inl header
  · exact .inr (List.mem_map.mp body)

theorem tableOf_filled (some : names ≠ []) : ∀ cells ∈ tableOf names rows, cells ≠ [] := by
  intro cells member
  rcases mem_tableOf member with rfl | ⟨row, -, rfl⟩
  · exact mt List.map_eq_nil_iff.mp some
  · exact row.cells_ne_nil some

theorem tableOf_scalar : ∀ cells ∈ tableOf names rows, ∀ v ∈ cells,
    ∀ c ∈ v, c.isSurrogate = false := by
  intro cells member v inside
  rcases mem_tableOf member with rfl | ⟨row, -, rfl⟩
  · obtain ⟨name, -, rfl⟩ := List.mem_map.mp inside
    exact name.2
  · obtain ⟨name, listed, rfl⟩ := List.mem_map.mp inside
    exact row.value_scalar listed

theorem rowText_scalar {cells : List Text} (scalar : ∀ v ∈ cells, ∀ c ∈ v, c.isSurrogate = false) :
    ∀ c ∈ Csv.rowText cells, c.isSurrogate = false := by
  intro c member
  rcases Csv.mem_rowText member with rfl | rfl | rfl | ⟨v, inside, own⟩
  · exact CodePoint.isSurrogate_ofChar ','
  · exact CodePoint.isSurrogate_ofChar '"'
  · exact CodePoint.isSurrogate_ofChar '\n'
  · exact scalar v inside c own

theorem readRows_csvFile (some : names ≠ []) (plain : ∀ name ∈ names, Csv.Plain name.1) :
    readRows (csvFile names rows) =
      (Csv.dictReader ((tableOf names rows).flatMap Csv.rowText)).mapError .csv := by
  have scalar : ∀ c ∈ (tableOf names rows).flatMap Csv.rowText, c.isSurrogate = false := by
    intro c member
    obtain ⟨cells, inside, own⟩ := List.mem_flatMap.mp member
    exact rowText_scalar (tableOf_scalar cells inside) c own
  have decoded : decodeUtf8 (encode ((tableOf names rows).flatMap Csv.rowText)) =
      .some ((tableOf names rows).flatMap Csv.rowText) :=
    decodeUtf8_encodeUtf8 (ScalarText.encodeUtf8_eq ⟨_, scalar⟩)
  rw [csvFile_eq some plain, readRows, decoded]

/-! ### What a readable file gives -/

theorem lookup_map (value : ScalarText → Text) (names : List ScalarText) {name : ScalarText}
    (listed : name ∈ names) :
    (names.map fun other => (other.1, value other)).lookup name.1 = some (value name) := by
  induction names with
  | nil => cases listed
  | cons other names later =>
    rw [List.map_cons, List.lookup_cons]
    by_cases same : name = other
    · rw [same, beq_self_eq_true]
    · have different : (name.1 == other.1) = false :=
        beq_eq_false_iff_ne.mpr fun equal => same (Subtype.ext equal)
      rw [different]
      rcases List.mem_cons.mp listed with isOther | inRest
      · exact absurd isOther same
      · exact later inRest

theorem dictGet_map (value : ScalarText → Text) {name : ScalarText} (listed : name ∈ names) :
    Csv.dictGet (names.map Subtype.val) (names.map value) name.1 = some (value name) := by
  rw [Csv.dictGet, List.zip_map', ← List.map_reverse]
  exact lookup_map value names.reverse (List.mem_reverse.mpr listed)

def dictsOf (names : List ScalarText) (rows : List (TextRow names)) : List (Text → Option Text) :=
  ((rows.map fun row => Csv.rowRecord [] row.cells).filter (· ≠ [])).map
    (Csv.dictGet (Csv.rowRecord [] (names.map Subtype.val)))

variable {row : TextRow names} {dicts : List (Text → Option Text)}

theorem dictsOf_blank (blank : row.cells = [[]]) :
    dictsOf names (row :: rows) = dictsOf names rows := by
  simp [dictsOf, Csv.rowRecord, blank]

theorem dictsOf_filled (some : names ≠ []) (filled : row.cells ≠ [[]]) :
    dictsOf names (row :: rows) =
      Csv.dictGet (Csv.rowRecord [] (names.map Subtype.val)) row.cells :: dictsOf names rows := by
  have kept := row.cells_ne_nil some
  simp [dictsOf, Csv.rowRecord, filled, kept]

theorem readBack_dictsOf (some : names ≠ [])
    (named : names.map Subtype.val = [[]] → ∀ row ∈ rows, row.cells = [[]]) :
    ReadBack names rows (dictsOf names rows) := by
  induction rows with
  | nil => exact .nil
  | cons row rows later =>
    have rest := later fun header other member =>
      named header other (List.mem_cons_of_mem row member)
    by_cases blank : row.cells = [[]]
    · rw [dictsOf_blank blank]
      exact .skipped ((row.line_eq_lf some).mpr blank) rest
    · have header : Csv.rowRecord [] (names.map Subtype.val) = names.map Subtype.val := by
        rw [Csv.rowRecord, if_neg, List.nil_append]
        intro both
        exact blank (named both.2 row List.mem_cons_self)
      rw [dictsOf_filled some blank, header]
      apply ReadBack.kept
      · intro name listed
        exact dictGet_map row.value listed
      · exact rest

/-! ### What a file read back must have been -/

theorem ReadBack.mem (back : ReadBack names rows dicts)
    (member : row ∈ rows) (filled : row.line ≠ [CSVWriter.lf]) :
    ∃ dict ∈ dicts, ∀ name ∈ names, dict name.1 = some (row.value name) := by
  induction back with
  | nil => cases member
  | kept same later onwards =>
    rcases List.mem_cons.mp member with rfl | inRest
    · exact ⟨_, List.mem_cons_self, same⟩
    · obtain ⟨dict, inside, values⟩ := onwards inRest
      exact ⟨dict, List.mem_cons_of_mem _ inside, values⟩
  | skipped blank later onwards =>
    rcases List.mem_cons.mp member with rfl | inRest
    · exact absurd blank filled
    · exact onwards inRest

theorem mem_of_dictGet {fieldnames record : List Text} {name v : Text}
    (found : Csv.dictGet fieldnames record name = some v) : v ∈ record := by
  obtain ⟨front, back, split, -⟩ := List.lookup_eq_some_iff.mp found
  have pair : (name, v) ∈ (fieldnames.zip record).reverse := by
    rw [split]
    exact List.mem_append_right front List.mem_cons_self
  exact (List.of_mem_zip (List.mem_reverse.mp pair)).2

theorem dictReader_record {source : Text}
    (read : Csv.dictReader source = .ok dicts) {dict : Text → Option Text} (member : dict ∈ dicts)
    {name v : Text} (found : dict name = some v) :
    ∃ out, Csv.records source false {} = .ok out ∧ ∃ record ∈ out, v ∈ record := by
  rw [Csv.dictReader] at read
  cases whole : Csv.records source false {} with
  | error error =>
    rw [whole] at read
    cases read
  | ok out =>
    rw [whole] at read
    cases out with
    | nil =>
      cases read
      cases member
    | cons fieldnames records =>
      cases read
      obtain ⟨record, inside, rfl⟩ := List.mem_map.mp member
      exact ⟨_, rfl, record, List.mem_cons_of_mem _ (List.mem_of_mem_filter inside),
        mem_of_dictGet found⟩

theorem sound_of_readBack (some : names ≠ [])
    (read : Csv.dictReader ((tableOf names rows).flatMap Csv.rowText) = .ok dicts)
    (back : ReadBack names rows dicts) :
    ∀ row ∈ rows, ∀ name ∈ names, Csv.Sound (row.value name) := by
  intro row member name listed
  by_cases blank : row.line = [CSVWriter.lf]
  · have empty : row.value name ∈ row.cells := List.mem_map_of_mem listed
    rw [(row.line_eq_lf some).mp blank] at empty
    rw [List.mem_singleton.mp empty]
    exact ⟨fun isCr => absurd isCr List.not_mem_nil, Nat.zero_le _⟩
  · obtain ⟨dict, inside, values⟩ := back.mem member blank
    obtain ⟨out, whole, record, inOut, inRecord⟩ :=
      dictReader_record read inside (values name listed)
    exact Csv.records_sound whole record inOut _ inRecord

theorem tableOf_framed (plain : ∀ name ∈ names, Csv.Plain name.1)
    (sound : ∀ row ∈ rows, ∀ name ∈ names, Csv.Sound (row.value name)) :
    ∀ cells ∈ tableOf names rows, ∀ v ∈ cells, Csv.Framed v := by
  intro cells member v inside
  rcases mem_tableOf member with rfl | ⟨row, inRows, rfl⟩
  · obtain ⟨name, listed, rfl⟩ := List.mem_map.mp inside
    intro isCr
    exact absurd rfl (plain name listed _ isCr).2.2.2
  · obtain ⟨name, listed, rfl⟩ := List.mem_map.mp inside
    exact (sound row inRows name listed).framed

/-- With sound values, the file is read unless a name is too long. -/
theorem dictReader_table (some : names ≠ []) (plain : ∀ name ∈ names, Csv.Plain name.1)
    (sound : ∀ row ∈ rows, ∀ name ∈ names, Csv.Sound (row.value name)) :
    Csv.dictReader ((tableOf names rows).flatMap Csv.rowText) =
      if ∀ name ∈ names, name.1.length ≤ Csv.fieldLimit then .ok (dictsOf names rows)
      else .error .fieldLimit := by
  have table := Csv.records_table (tableOf names rows) (tableOf_filled some)
    (tableOf_framed plain sound)
  have short : (∀ cells ∈ tableOf names rows, ∀ v ∈ cells, v.length ≤ Csv.fieldLimit) ↔
      ∀ name ∈ names, name.1.length ≤ Csv.fieldLimit := by
    constructor
    · intro all name listed
      exact all _ List.mem_cons_self _ (List.mem_map_of_mem listed)
    · intro header cells member v inside
      rcases mem_tableOf member with rfl | ⟨row, inRows, rfl⟩
      · obtain ⟨name, listed, rfl⟩ := List.mem_map.mp inside
        exact header name listed
      · obtain ⟨name, listed, rfl⟩ := List.mem_map.mp inside
        exact (sound row inRows name listed).short
  rw [Csv.dictReader, table]
  by_cases header : ∀ name ∈ names, name.1.length ≤ Csv.fieldLimit
  · rw [if_pos (short.mpr header), if_pos header]
    simp only [tableOf, List.map_cons, List.map_map]
    rfl
  · rw [if_neg (mt short.mp header), if_neg header]

theorem cells_blank (some : names ≠ []) (header : names.map Subtype.val = [[]])
    (back : ReadBack names rows (dictsOf names rows)) : ∀ row ∈ rows, row.cells = [[]] := by
  intro row member
  by_contra filled
  obtain ⟨dict, inside, values⟩ := back.mem member (mt (row.line_eq_lf some).mp filled)
  obtain ⟨name, listed⟩ := List.exists_mem_of_ne_nil names some
  obtain ⟨record, -, rfl⟩ := List.mem_map.mp inside
  have found := values name listed
  simp [header, Csv.rowRecord, Csv.dictGet] at found

/-- Rows are read back exactly when they are readable. -/
theorem roundTrips_iff (names : List ScalarText) (rows : List (TextRow names)) (some : names ≠ [])
    (plain : ∀ name ∈ names, Csv.Plain name.1) :
    RoundTrips names rows ↔ Readable names rows := by
  rw [RoundTrips, readRows_csvFile some plain]
  constructor
  · rintro ⟨dicts, read, back⟩
    have source : Csv.dictReader ((tableOf names rows).flatMap Csv.rowText) = .ok dicts := by
      cases whole : Csv.dictReader ((tableOf names rows).flatMap Csv.rowText) with
      | error error =>
        rw [whole] at read
        cases read
      | ok other =>
        rw [whole] at read
        cases read
        rfl
    have sound := sound_of_readBack some source back
    rw [dictReader_table some plain sound] at source
    split_ifs at source with header
    cases source
    exact ⟨header, sound, fun empty => cells_blank some empty back⟩
  · intro readable
    refine ⟨dictsOf names rows, ?_, readBack_dictsOf some readable.named⟩
    rw [dictReader_table some plain readable.values, if_pos readable.header]
    rfl

def errorRow (value : ScalarText)
    (noNul : value.1.all (fun c => c ≠ CodePoint.ofNat 0) = true) :
    TextRow [.ofString "error"] where
  values := fun _ => some value.utf8
  valid := by
    intro name listed v found
    refine ⟨value, Option.some.inj found, ?_⟩
    intro nul
    exact absurd rfl (of_decide_eq_true (List.all_eq_true.mp noNul _ nul))

/-- A comma, quotes and the end of a line come back. -/
theorem roundTrips_quoted : RoundTrips [.ofString "error"]
    [errorRow (.ofString "a,\"b\"\r\n") rfl] :=
  (roundTrips_iff _ _ (by decide) (by decide)).mpr ⟨by decide, by decide, by decide⟩

theorem ReadBack.length_le (back : ReadBack names rows dicts) :
    dicts.length ≤ rows.length := by
  induction back with
  | nil => exact Nat.le_refl 0
  | kept same later onwards => exact Nat.succ_le_succ onwards
  | skipped blank later onwards => exact Nat.le_succ_of_le onwards

/-- A carriage return alone is written without quotes, and one row is read as two. -/
theorem carriage_return_splits_row :
    ¬ RoundTrips [.ofString "error"] [errorRow (.ofString "a\rb") rfl] := by
  rintro ⟨dicts, read, back⟩
  have two : (readRows (csvFile [.ofString "error"] [errorRow (.ofString "a\rb") rfl])).map
      List.length = .ok 2 := rfl
  rw [read] at two
  have length : dicts.length = 2 := Except.ok.inj two
  have bound := back.length_le
  rw [length] at bound
  exact absurd bound (by decide)

end RoundTrip

end AiStorage.IoProfile
